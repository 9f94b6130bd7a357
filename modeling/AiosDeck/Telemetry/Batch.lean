import AiosDeck.Telemetry.Conservation
import AiosDeck.Telemetry.Rows

/-!
# What a transaction does with a batch

When every record of a batch is one that the store takes, or refuses with
an exception that `flush` catches, and no event id is repeated, then the
transaction inserts the batch whole or raises what `flush` catches.
-/

namespace AiosDeck.Telemetry

open Python

/-- What `flush` catches. -/
def Caught (exc : PyExc) : Prop := exc.isSqlite = true ∨ exc.cls = telemetryError

/-- The store refuses the record with something `flush` catches, if at all;
and `INSERT OR IGNORE` has no empty column to ignore it for. -/
structure Storable (env : StoreEnv) (table : String) (record : Record) : Prop where
  refused : ∀ insert, inserts.lookup table = some insert →
    ∀ exc, insert.parameters env record = .error exc → Caught exc
  filled : ∀ insert, inserts.lookup table = some insert → insert.orIgnore = true →
    ∀ values, insert.parameters env record = .ok values → insert.emptyColumn values = none

/-- A record that its table takes. -/
def Valid (env : StoreEnv) (table : String) (record : Record) : Prop :=
  ∃ insert values, inserts.lookup table = some insert ∧
    insert.parameters env record = .ok values ∧ insert.emptyColumn values = none

theorem Valid.storable {env : StoreEnv} {table : String} {record : Record}
    (h : Valid env table record) : Storable env table record := by
  obtain ⟨insert, values, hinsert, hvalues, hfilled⟩ := h
  constructor
  · intro other hother exc hexc
    rw [hinsert] at hother
    cases hother
    rw [hvalues] at hexc
    cases hexc
  · intro other hother _ row hrow
    rw [hinsert] at hother
    cases hother
    rw [hvalues] at hrow
    cases hrow
    exact hfilled

/-- The keys of the entries are new and not repeated. -/
def Fresh (env : StoreEnv) (keys : List SqlValue) (entries : List (Entry Record)) : Prop :=
  (keysOf env entries).Nodup ∧ ∀ key ∈ keysOf env entries, key ∉ keys

theorem keysOf_append (env : StoreEnv) (first second : List (Entry Record)) :
    keysOf env (first ++ second) = keysOf env first ++ keysOf env second :=
  List.filterMap_append

theorem Fresh.split {env : StoreEnv} {keys : List SqlValue} {first second : List (Entry Record)}
    (h : Fresh env keys (first ++ second)) :
    Fresh env keys first ∧ Fresh env (keys ++ keysOf env first) second := by
  obtain ⟨hnodup, hnew⟩ := h
  rw [keysOf_append] at hnodup hnew
  obtain ⟨hfirst, hsecond, hdisjoint⟩ := List.nodup_append.mp hnodup
  constructor
  · exact ⟨hfirst, fun key hkey => hnew key (List.mem_append_left _ hkey)⟩
  · refine ⟨hsecond, fun key hkey hmem => ?_⟩
    rcases List.mem_append.mp hmem with hold | hearlier
    · exact hnew key (List.mem_append_right _ hkey) hold
    · exact hdisjoint key hearlier key hkey rfl

/-- What inserting these entries gives: all of them, or something `flush`
catches; without a fault of the database only for a record that is not valid. -/
def Adds (env : StoreEnv) (fault : DbFault) (entries : List (Entry Record)) (done : Inserted) :
    Except PyExc Inserted → Prop
  | .error exc => Caught exc ∧
      (fault = .none → ∃ entry ∈ entries, ¬ Valid env entry.table entry.record)
  | .ok next => next.rows = done.rows ++ entries ∧ next.keys = done.keys ++ keysOf env entries

section Insertions

variable {env : StoreEnv} {fault : DbFault}

/-- One insertion after another. -/
theorem Adds.bind {first second : List (Entry Record)} {done : Inserted}
    {x : Except PyExc Inserted} {f : Inserted → Except PyExc Inserted}
    (hx : Adds env fault first done x)
    (hf : ∀ next, x = .ok next → Adds env fault second next (f next)) :
    Adds env fault (first ++ second) done (x >>= f) := by
  cases x with
  | error exc =>
    refine ⟨hx.1, fun hnone => ?_⟩
    obtain ⟨entry, hmem, hinvalid⟩ := hx.2 hnone
    exact ⟨entry, List.mem_append_left _ hmem, hinvalid⟩
  | ok next =>
    have hnext := hf next rfl
    obtain ⟨hrows, hkeys⟩ := hx
    change Adds env fault (first ++ second) done (f next)
    cases hlast : f next with
    | error exc =>
      rw [hlast] at hnext
      refine ⟨hnext.1, fun hnone => ?_⟩
      obtain ⟨entry, hmem, hinvalid⟩ := hnext.2 hnone
      exact ⟨entry, List.mem_append_right _ hmem, hinvalid⟩
    | ok last =>
      rw [hlast] at hnext
      have hlastRows : last.rows = done.rows ++ (first ++ second) := by
        rw [hnext.1, hrows, List.append_assoc]
      have hlastKeys : last.keys = done.keys ++ keysOf env (first ++ second) := by
        rw [hnext.2, hkeys, List.append_assoc, keysOf_append]
      exact ⟨hlastRows, hlastKeys⟩

/-- The key of a record whose parameters are known. -/
theorem recordKey_eq {insert : Insert} {table : String} {record : Record} {values : List SqlValue}
    (hinsert : inserts.lookup table = some insert)
    (hvalues : insert.parameters env record = .ok values) :
    recordKey env table record = insert.key env values := by
  simp [recordKey, hinsert, hvalues]

theorem insertRow_adds {insert : Insert} {entry : Entry Record} {values : List SqlValue}
    {done : Inserted} (hinsert : inserts.lookup entry.table = some insert)
    (hvalues : insert.parameters env entry.record = .ok values)
    (hstorable : Storable env entry.table entry.record) (hfresh : Fresh env done.keys [entry]) :
    Adds env fault [entry] done (insertRow env insert entry values done) := by
  have hkey := recordKey_eq hinsert hvalues
  cases hempty : insert.emptyColumn values with
  | some column =>
    have hplain : insert.orIgnore = false := by
      by_contra hignore
      have hfilled := hstorable.filled insert hinsert (by simpa using hignore) values hvalues
      rw [hfilled] at hempty
      cases hempty
    have hrow : insertRow env insert entry values done = .error ⟨.sqliteIntegrity,
        "NOT NULL constraint failed: " ++ insert.name ++ "." ++ column⟩ := by
      simp [insertRow, hempty, hplain]
    rw [hrow]
    refine ⟨.inl rfl, fun _ => ⟨entry, List.mem_singleton_self entry, ?_⟩⟩
    rintro ⟨other, row, hother, hparameters, hfilled⟩
    rw [hinsert] at hother
    cases hother
    rw [hvalues] at hparameters
    cases hparameters
    rw [hfilled] at hempty
    cases hempty
  | none =>
    cases hcell : insert.key env values with
    | none =>
      have hkeys : keysOf env [entry] = [] := by simp [keysOf, hkey, hcell]
      simp [insertRow, hempty, hcell, Adds, hkeys]
    | some key =>
      have hkeys : keysOf env [entry] = [key] := by simp [keysOf, hkey, hcell]
      have hnew : key ∉ done.keys := hfresh.2 key (by simp [hkeys])
      simp [insertRow, hempty, hcell, hnew, Adds, hkeys]

/-- The rows of one table, built and about to be bound. -/
theorem executemany_adds {insert : Insert} {table : String}
    (hinsert : inserts.lookup table = some insert) (items : List (Entry Record × List PyVal))
    (row : ℕ) (done : Inserted) (htable : ∀ item ∈ items, item.1.table = table)
    (hbuilt : ∀ item ∈ items, insert.build env item.1.record = .ok item.2)
    (hstorable : ∀ item ∈ items, Storable env item.1.table item.1.record)
    (hfresh : Fresh env done.keys (items.map Prod.fst)) :
    Adds env fault (items.map Prod.fst) done
      (executemany env fault insert table row items done) := by
  induction items generalizing row done with
  | nil => simp [executemany, Adds, keysOf]
  | cons item rest ih =>
    obtain ⟨entry, built⟩ := item
    have hentry : inserts.lookup entry.table = some insert := by
      rw [htable (entry, built) (List.mem_cons_self ..)]
      exact hinsert
    have hbuild : insert.build env entry.record = .ok built :=
      hbuilt (entry, built) (List.mem_cons_self ..)
    have hstores : Storable env entry.table entry.record :=
      hstorable (entry, built) (List.mem_cons_self ..)
    have hparameters : insert.parameters env entry.record = built.mapM PyVal.bind := by
      simp only [Insert.parameters, hbuild]
      rfl
    have hsplit : Fresh env done.keys [entry] ∧
        Fresh env (done.keys ++ keysOf env [entry]) (rest.map Prod.fst) :=
      Fresh.split hfresh
    cases hbound : built.mapM PyVal.bind with
    | error exc =>
      have hrun : executemany env fault insert table row ((entry, built) :: rest) done =
          .error exc := by
        simp only [executemany, hbound]
        rfl
      rw [hrun]
      refine ⟨hstores.refused insert hentry exc (hparameters.trans hbound), fun _ => ?_⟩
      refine ⟨entry, List.mem_cons_self .., ?_⟩
      rintro ⟨other, values, hother, hvalues, -⟩
      rw [hentry] at hother
      cases hother
      rw [hparameters, hbound] at hvalues
      cases hvalues
    | ok values =>
      cases hfault : fault.atRow? table row with
      | some message =>
        have hrun : executemany env fault insert table row ((entry, built) :: rest) done =
            .error ⟨.sqliteOperational, message⟩ := by
          simp only [executemany, hbound, hfault]
          rfl
        rw [hrun]
        refine ⟨.inl rfl, fun hnone => ?_⟩
        rw [hnone] at hfault
        cases hfault
      | none =>
        have hrun : executemany env fault insert table row ((entry, built) :: rest) done =
            (insertRow env insert entry values done >>= fun next =>
              executemany env fault insert table (row + 1) rest next) := by
          simp only [executemany, hbound, hfault]
          rfl
        rw [hrun]
        have hone : Adds env fault [entry] done (insertRow env insert entry values done) :=
          insertRow_adds hentry (hparameters.trans hbound) hstores hsplit.1
        refine Adds.bind hone fun next hnext => ?_
        rw [hnext] at hone
        refine ih (row + 1) next (fun i hi => htable i (List.mem_cons_of_mem _ hi))
          (fun i hi => hbuilt i (List.mem_cons_of_mem _ hi))
          (fun i hi => hstorable i (List.mem_cons_of_mem _ hi)) ?_
        rw [hone.2]
        exact hsplit.2

/-- Building the rows of a table. -/
theorem build_rows (env : StoreEnv) (insert : Insert) (rows : List (Entry Record)) :
    match rows.mapM fun entry => (do
      let row ← insert.build env entry.record
      return (entry, row) : Except PyExc (Entry Record × List PyVal)) with
    | .error exc => ∃ entry ∈ rows, insert.build env entry.record = .error exc
    | .ok built => built.map Prod.fst = rows ∧
        ∀ item ∈ built, insert.build env item.1.record = .ok item.2 := by
  induction rows with
  | nil => simp [pure, Except.pure]
  | cons entry rest ih =>
    simp only [List.mapM_cons]
    cases hbuild : insert.build env entry.record with
    | error exc => exact ⟨entry, List.mem_cons_self .., hbuild⟩
    | ok row =>
      revert ih
      cases rest.mapM fun entry => (do
          let row ← insert.build env entry.record
          return (entry, row) : Except PyExc (Entry Record × List PyVal)) with
      | error exc =>
        rintro ⟨other, hmem, hother⟩
        exact ⟨other, List.mem_cons_of_mem _ hmem, hother⟩
      | ok built =>
        rintro ⟨hfst, hbuilt⟩
        change ((entry, row) :: built).map Prod.fst = entry :: rest ∧
          ∀ item ∈ (entry, row) :: built, insert.build env item.1.record = .ok item.2
        refine ⟨by rw [List.map_cons, hfst], fun item hitem => ?_⟩
        rcases List.mem_cons.mp hitem with rfl | hrest
        · exact hbuild
        · exact hbuilt item hrest

theorem insertMany_adds {table : String} {rows : List (Entry Record)} {done : Inserted}
    (htable : ∀ entry ∈ rows, entry.table = table) (hsome : rows ≠ [])
    (hstorable : ∀ entry ∈ rows, Storable env entry.table entry.record)
    (hfresh : Fresh env done.keys rows) :
    Adds env fault rows done (insertMany env fault table rows done) := by
  cases hinsert : inserts.lookup table with
  | none =>
    have hrun : insertMany env fault table rows done =
        .error ⟨telemetryError, "unknown telemetry table: " ++ table⟩ := by
      simp [insertMany, hinsert]
    rw [hrun]
    refine ⟨.inr rfl, fun _ => ?_⟩
    obtain ⟨entry, hmem⟩ := List.exists_mem_of_ne_nil rows hsome
    refine ⟨entry, hmem, ?_⟩
    rintro ⟨insert, values, hother, -⟩
    rw [htable entry hmem, hinsert] at hother
    cases hother
  | some insert =>
    have hrows := build_rows env insert rows
    simp only [insertMany, hinsert]
    revert hrows
    cases rows.mapM fun entry => (do
        let row ← insert.build env entry.record
        return (entry, row) : Except PyExc (Entry Record × List PyVal)) with
    | error exc =>
      rintro ⟨entry, hmem, hbuild⟩
      have hentry : inserts.lookup entry.table = some insert := by
        rw [htable entry hmem]
        exact hinsert
      have hparameters : insert.parameters env entry.record = .error exc := by
        simp only [Insert.parameters, hbuild]
        rfl
      refine ⟨(hstorable entry hmem).refused insert hentry exc hparameters, fun _ => ?_⟩
      refine ⟨entry, hmem, ?_⟩
      rintro ⟨other, values, hother, hvalues, -⟩
      rw [hentry] at hother
      cases hother
      rw [hparameters] at hvalues
      cases hvalues
    | ok built =>
      rintro ⟨rfl, hbuilt⟩
      have hmap : ∀ item ∈ built, item.1 ∈ built.map Prod.fst :=
        fun item hitem => List.mem_map_of_mem hitem
      exact executemany_adds hinsert built 0 done (fun item hitem => htable _ (hmap item hitem))
        hbuilt (fun item hitem => hstorable _ (hmap item hitem)) hfresh

theorem insertTables_adds (groups : List (String × List (Entry Record))) (done : Inserted)
    (htable : ∀ group ∈ groups, ∀ entry ∈ group.2, entry.table = group.1)
    (hsome : ∀ group ∈ groups, group.2 ≠ [])
    (hstorable : ∀ entry ∈ rowsOf groups, Storable env entry.table entry.record)
    (hfresh : Fresh env done.keys (rowsOf groups)) :
    Adds env fault (rowsOf groups) done (insertTables env fault groups done) := by
  induction groups generalizing done with
  | nil => simp [insertTables, Adds, rowsOf, keysOf]
  | cons group rest ih =>
    obtain ⟨table, rows⟩ := group
    have hcons : rowsOf ((table, rows) :: rest) = rows ++ rowsOf rest := List.flatMap_cons ..
    rw [hcons] at hfresh hstorable ⊢
    have hsplit := hfresh.split
    have hrows : ∀ entry ∈ rows, entry.table = table := htable (table, rows) (List.mem_cons_self ..)
    have hmany : Adds env fault rows done (insertMany env fault table rows done) :=
      insertMany_adds hrows (hsome (table, rows) (List.mem_cons_self ..))
        (fun entry hentry => hstorable entry (List.mem_append_left _ hentry)) hsplit.1
    refine Adds.bind hmany fun next hnext => ?_
    rw [hnext] at hmany
    refine ih next (fun g hg => htable g (List.mem_cons_of_mem _ hg))
      (fun g hg => hsome g (List.mem_cons_of_mem _ hg))
      (fun entry hentry => hstorable entry (List.mem_append_right _ hentry)) ?_
    rw [hmany.2]
    exact hsplit.2

end Insertions

theorem addTo_ne_nil {R : Type} {entry : Entry R} {groups : List (String × List (Entry R))}
    (h : ∀ group ∈ groups, group.2 ≠ []) : ∀ group ∈ addTo entry groups, group.2 ≠ [] := by
  induction groups with
  | nil => simp [addTo]
  | cons group rest ih =>
    intro other hother
    by_cases hsame : group.1 = entry.table
    · rw [addTo, if_pos hsame] at hother
      rcases List.mem_cons.mp hother with rfl | hrest
      · simp
      · exact h other (List.mem_cons_of_mem _ hrest)
    · rw [addTo, if_neg hsame] at hother
      rcases List.mem_cons.mp hother with rfl | hrest
      · exact h group (List.mem_cons_self ..)
      · exact ih (fun g hg => h g (List.mem_cons_of_mem _ hg)) other hrest

/-- No table of a batch comes without rows. -/
theorem grouped_ne_nil {R : Type} (batch : List (Entry R)) :
    ∀ group ∈ grouped batch, group.2 ≠ [] := by
  induction batch using List.reverseRecOn with
  | nil => exact fun _ h => nomatch h
  | append_singleton batch entry ih =>
    have hstep : grouped (batch ++ [entry]) = addTo entry (grouped batch) := by
      unfold grouped
      rw [List.foldl_append]
      rfl
    rw [hstep]
    exact addTo_ne_nil ih

/-- One transaction commits the batch whole or raises what `flush` catches. -/
theorem writeBatch_spec {env : StoreEnv} {committed batch : List (Entry Record)}
    (hstorable : ∀ entry ∈ batch, Storable env entry.table entry.record)
    (hfresh : Fresh env (env.present ++ keysOf env committed) (rowsOf (grouped batch)))
    (fault : DbFault) :
    match writeBatch env committed (grouped batch) fault with
    | .error exc => Caught exc ∧
        (fault = .none → ∃ entry ∈ batch, ¬ Valid env entry.table entry.record)
    | .ok kept => kept = rowsOf (grouped batch) := by
  obtain ⟨hwell, hperm, -⟩ := grouped_spec batch
  let done : Inserted := ⟨[], env.present ++ keysOf env committed⟩
  have hadds : Adds env fault (rowsOf (grouped batch)) done
      (insertTables env fault (grouped batch) done) :=
    insertTables_adds (grouped batch) done hwell.2 (grouped_ne_nil batch)
      (fun entry hentry => hstorable entry (hperm.mem_iff.mp hentry)) hfresh
  have hplain : match (insertTables env fault (grouped batch) done).map Inserted.rows with
      | .error exc => Caught exc ∧
          (fault = .none → ∃ entry ∈ batch, ¬ Valid env entry.table entry.record)
      | .ok kept => kept = rowsOf (grouped batch) := by
    cases hrun : insertTables env fault (grouped batch) done with
    | error exc =>
      rw [hrun] at hadds
      refine ⟨hadds.1, fun hnone => ?_⟩
      obtain ⟨entry, hmem, hinvalid⟩ := hadds.2 hnone
      exact ⟨entry, hperm.mem_iff.mp hmem, hinvalid⟩
    | ok next =>
      rw [hrun] at hadds
      exact hadds.1
  cases fault with
  | closed => exact ⟨.inr rfl, fun hnone => nomatch hnone⟩
  | atBegin message => exact ⟨.inl rfl, fun hnone => nomatch hnone⟩
  | atCommit message =>
    cases hrun : insertTables env (.atCommit message) (grouped batch) done with
    | error exc =>
      rw [hrun] at hadds
      have hwrite : writeBatch env committed (grouped batch) (.atCommit message) = .error exc := by
        simp only [writeBatch]
        rw [hrun]
      rw [hwrite]
      exact ⟨hadds.1, fun hnone => nomatch hnone⟩
    | ok next =>
      have hwrite : writeBatch env committed (grouped batch) (.atCommit message) =
          .error ⟨.sqliteOperational, message⟩ := by
        simp only [writeBatch]
        rw [hrun]
      rw [hwrite]
      exact ⟨.inl rfl, fun hnone => nomatch hnone⟩
  | none => exact hplain
  | atRow table row message => exact hplain

theorem Fresh.perm {env : StoreEnv} {keys : List SqlValue} {entries others : List (Entry Record)}
    (h : Fresh env keys entries) (hperm : entries.Perm others) : Fresh env keys others := by
  have hkeys : (keysOf env entries).Perm (keysOf env others) := hperm.filterMap _
  constructor
  · exact hkeys.nodup_iff.mp h.1
  · exact fun key hkey => h.2 key (hkeys.mem_iff.mpr hkey)

variable {env : StoreEnv} {maxlen : ℕ} {s : Shared Record maxlen}

/-- The keys of the batch in flight are new to the database. -/
theorem Fresh.inFlight (h : Fresh env env.present s.enqueued) (hplaced : s.Accounted) :
    Fresh env (env.present ++ keysOf env s.committed) (rowsOf (grouped s.inFlight)) := by
  obtain ⟨-, hperm, -⟩ := grouped_spec s.inFlight
  have hall : Fresh env env.present (s.committed ++ (s.inFlight ++ (s.buffer.items ++ s.dropped))) :=
    h.perm hplaced.placed.symm
  have hrest := hall.split.2
  exact hrest.split.1.perm hperm.symm

/-- When every record is storable and no event id is repeated, the writes of
the store are regular. -/
theorem telemetryStore_regular (hplaced : s.Accounted)
    (hstorable : ∀ entry ∈ s.enqueued, Storable env entry.table entry.record)
    (hfresh : Fresh env env.present s.enqueued) : Regular (telemetryStore env) s := by
  intro fault
  have hbatch : ∀ entry ∈ s.inFlight, Storable env entry.table entry.record := by
    intro entry hentry
    have hmem : entry ∈ s.committed ++ (s.inFlight ++ (s.buffer.items ++ s.dropped)) :=
      List.mem_append_right _ (List.mem_append_left _ hentry)
    exact hstorable entry (hplaced.placed.mem_iff.mp hmem)
  have hwrite := writeBatch_spec hbatch (hfresh.inFlight hplaced) fault
  have hstore : (telemetryStore env).write s.committed (grouped s.inFlight) fault =
      writeBatch env s.committed (grouped s.inFlight) fault := rfl
  rw [hstore]
  cases hrun : writeBatch env s.committed (grouped s.inFlight) fault with
  | error exc =>
    rw [hrun] at hwrite
    exact hwrite.1
  | ok kept =>
    rw [hrun] at hwrite
    exact hwrite

end AiosDeck.Telemetry
