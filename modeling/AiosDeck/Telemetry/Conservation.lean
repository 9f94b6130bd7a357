import AiosDeck.Logic.Machine
import AiosDeck.Telemetry.Writer

/-!
# Conservation, order and read-your-writes

Every enqueued record is in exactly one place, in any interleaving, as long
as the store either commits a batch whole or raises what `flush` catches.
One invariant carries the accounting of the shared state, the discipline of
`flush_lock`, and what a flush has already settled.
-/

namespace AiosDeck.Telemetry

open Python Machine

variable {R F : Type} {maxlen : ℕ}

section Groups

/-- Groups have distinct tables, and their rows belong to their table. -/
def WellGrouped (groups : List (String × List (Entry R))) : Prop :=
  (groups.map Prod.fst).Nodup ∧ ∀ group ∈ groups, ∀ entry ∈ group.2, entry.table = group.1

theorem addTo_tables (entry : Entry R) (groups : List (String × List (Entry R))) (table : String) :
    table ∈ (addTo entry groups).map Prod.fst ↔
      table ∈ groups.map Prod.fst ∨ table = entry.table := by
  induction groups with
  | nil => simp [addTo]
  | cons group rest ih =>
    by_cases h : group.1 = entry.table
    · simp only [addTo, if_pos h, List.map_cons, List.mem_cons]
      rw [← h]
      tauto
    · simp only [addTo, if_neg h, List.map_cons, List.mem_cons, ih]
      tauto

theorem WellGrouped.addTo {groups : List (String × List (Entry R))} (h : WellGrouped groups)
    (entry : Entry R) : WellGrouped (addTo entry groups) := by
  induction groups with
  | nil => simp [WellGrouped, Telemetry.addTo]
  | cons group rest ih =>
    obtain ⟨hnodup, hkeyed⟩ := h
    obtain ⟨hfresh, hrest⟩ := List.nodup_cons.mp hnodup
    have hkeyedRest : ∀ group ∈ rest, ∀ entry ∈ group.2, entry.table = group.1 :=
      fun g hg => hkeyed g (List.mem_cons_of_mem _ hg)
    by_cases hsame : group.1 = entry.table
    · rw [Telemetry.addTo, if_pos hsame]
      refine ⟨hnodup, fun g hg => ?_⟩
      rcases List.mem_cons.mp hg with rfl | hg
      · intro e he
        rcases List.mem_append.mp he with he | he
        · exact hkeyed group (List.mem_cons_self ..) e he
        · rw [List.mem_singleton.mp he]
          exact hsame.symm
      · exact hkeyedRest g hg
    · rw [Telemetry.addTo, if_neg hsame]
      have hih := ih ⟨hrest, hkeyedRest⟩
      refine ⟨List.nodup_cons.mpr ⟨fun hmem => ?_, hih.1⟩, fun g hg => ?_⟩
      · rcases (addTo_tables entry rest group.1).mp hmem with hold | hnew
        · exact hfresh hold
        · exact hsame hnew
      · rcases List.mem_cons.mp hg with rfl | hg
        · exact hkeyed group (List.mem_cons_self ..)
        · exact hih.2 g hg

/-- The rows of one table among well-grouped rows of other tables. -/
theorem filter_rows_eq_nil {groups : List (String × List (Entry R))} (h : WellGrouped groups)
    {table : String} (hfresh : table ∉ groups.map Prod.fst) :
    (rowsOf groups).filter (fun e => e.table = table) = [] := by
  refine List.filter_eq_nil_iff.mpr fun e he => ?_
  obtain ⟨group, hgroup, hmem⟩ := List.mem_flatMap.mp he
  have htable := h.2 group hgroup e hmem
  simp only [decide_eq_true_eq]
  rintro rfl
  exact hfresh (List.mem_map.mpr ⟨group, hgroup, htable.symm⟩)

/-- Adding an entry adds it behind the rows of its table, and nowhere else. -/
theorem filter_rows_addTo {groups : List (String × List (Entry R))} (h : WellGrouped groups)
    (entry : Entry R) (table : String) :
    (rowsOf (addTo entry groups)).filter (fun e => e.table = table) =
      (rowsOf groups ++ [entry]).filter (fun e => e.table = table) := by
  induction groups with
  | nil => rfl
  | cons group rest ih =>
    obtain ⟨hnodup, hkeyed⟩ := h
    obtain ⟨hfresh, hrest⟩ := List.nodup_cons.mp hnodup
    have hwell : WellGrouped rest := ⟨hrest, fun g hg => hkeyed g (List.mem_cons_of_mem _ hg)⟩
    have hcons : rowsOf (group :: rest) = group.2 ++ rowsOf rest := List.flatMap_cons ..
    by_cases hsame : group.1 = entry.table
    · have hadd : rowsOf (addTo entry (group :: rest)) = group.2 ++ [entry] ++ rowsOf rest := by
        rw [addTo, if_pos hsame]
        exact List.flatMap_cons ..
      rw [hadd, hcons]
      by_cases htable : entry.table = table
      · have hother : table ∉ rest.map Prod.fst := by
          rw [← htable, ← hsame]
          exact hfresh
        have hnil := filter_rows_eq_nil hwell hother
        simp only [List.filter_append, hnil, List.append_nil]
      · have hnone : List.filter (fun e : Entry R => e.table = table) [entry] = [] := by
          simp [htable]
        simp only [List.filter_append, hnone, List.append_nil]
    · have hadd : rowsOf (addTo entry (group :: rest)) = group.2 ++ rowsOf (addTo entry rest) := by
        rw [addTo, if_neg hsame]
        exact List.flatMap_cons ..
      rw [hadd, hcons, List.append_assoc, List.filter_append, List.filter_append, ih hwell]

theorem rows_addTo_perm (entry : Entry R) (groups : List (String × List (Entry R))) :
    (rowsOf (addTo entry groups)).Perm (rowsOf groups ++ [entry]) := by
  induction groups with
  | nil => exact List.Perm.refl _
  | cons group rest ih =>
    have hcons : rowsOf (group :: rest) = group.2 ++ rowsOf rest := List.flatMap_cons ..
    by_cases hsame : group.1 = entry.table
    · have hadd : rowsOf (addTo entry (group :: rest)) = group.2 ++ [entry] ++ rowsOf rest := by
        rw [addTo, if_pos hsame]
        exact List.flatMap_cons ..
      rw [hadd, hcons, List.append_assoc, List.append_assoc]
      exact List.Perm.append_left _ List.perm_append_comm
    · have hadd : rowsOf (addTo entry (group :: rest)) = group.2 ++ rowsOf (addTo entry rest) := by
        rw [addTo, if_neg hsame]
        exact List.flatMap_cons ..
      rw [hadd, hcons, List.append_assoc]
      exact ih.append_left _

/-- Grouping loses nothing and keeps the order within each table. -/
theorem grouped_spec (batch : List (Entry R)) :
    WellGrouped (grouped batch) ∧ (rowsOf (grouped batch)).Perm batch ∧
      ∀ table, (rowsOf (grouped batch)).filter (fun e => e.table = table) =
        batch.filter fun e => e.table = table := by
  induction batch using List.reverseRecOn with
  | nil => exact ⟨⟨List.nodup_nil, fun _ h => nomatch h⟩, List.Perm.refl _, fun _ => rfl⟩
  | append_singleton batch entry ih =>
    obtain ⟨hwell, hperm, hfilter⟩ := ih
    have hstep : grouped (batch ++ [entry]) = addTo entry (grouped batch) := by
      unfold grouped
      rw [List.foldl_append]
      rfl
    rw [hstep]
    refine ⟨hwell.addTo entry, (rows_addTo_perm entry _).trans (hperm.append_right _), ?_⟩
    intro table
    rw [filter_rows_addTo hwell, List.filter_append, List.filter_append, hfilter]

end Groups

namespace Shared

/-- The books of the writer. -/
structure Accounted (s : Shared R maxlen) : Prop where
  numbered : s.enqueued.map Entry.seq = List.range s.enqueued.length
  /-- Every enqueued record is in exactly one place. -/
  placed : (s.committed ++ (s.inFlight ++ (s.buffer.items ++ s.dropped))).Perm s.enqueued
  counted : s.droppedTotal = s.dropped.length
  /-- What is not dropped keeps, table by table, the order of enqueueing. -/
  ordered : ∀ table, List.Sublist
    ((s.committed ++ (s.inFlight ++ s.buffer.items)).filter fun e => e.table = table)
    (s.enqueued.filter fun e => e.table = table)

/-- The lists of places as one multiset. -/
theorem placed_iff {c i b d e : List (Entry R)} :
    (c ++ (i ++ (b ++ d))).Perm e ↔
      (c : Multiset (Entry R)) + i + b + d = (e : Multiset (Entry R)) := by
  rw [← Multiset.coe_eq_coe]
  simp only [← Multiset.coe_add, add_assoc]

theorem enqueue_accounted {s : Shared R maxlen} (h : s.Accounted) (config : Config)
    (table : String) (record : R) : (s.enqueue config table record).Accounted := by
  let entry : Entry R := ⟨s.enqueued.length, table, record⟩
  have hevict := s.buffer.evictedBy_append entry
  refine ⟨?_, ?_, ?_, fun τ => ?_⟩
  · simp [enqueue, h.numbered, List.range_succ]
  · have hplaced := placed_iff.mp h.placed
    have hmoved : ((s.buffer.evictedBy entry : Multiset (Entry R)) + (s.buffer.append entry).items) =
        s.buffer.items + ([entry] : Multiset (Entry R)) := by
      rw [Multiset.coe_add, Multiset.coe_add, hevict]
    refine placed_iff.mpr ?_
    change (s.committed : Multiset (Entry R)) + s.inFlight + (s.buffer.append entry).items +
      (s.dropped ++ s.buffer.evictedBy entry : List (Entry R)) = (s.enqueued ++ [entry] : List (Entry R))
    rw [← Multiset.coe_add, ← Multiset.coe_add, ← hplaced]
    calc (s.committed : Multiset (Entry R)) + s.inFlight + (s.buffer.append entry).items +
          (s.dropped + s.buffer.evictedBy entry)
        = s.committed + s.inFlight + s.dropped +
          (s.buffer.evictedBy entry + (s.buffer.append entry).items) := by abel
      _ = s.committed + s.inFlight + s.dropped + (s.buffer.items + [entry]) := by rw [hmoved]
      _ = s.committed + s.inFlight + s.buffer.items + s.dropped + [entry] := by abel
  · have hlength := s.buffer.evictedBy_length entry
    have hcounted := h.counted
    change (if s.buffer.items.length = maxlen then s.droppedTotal + 1 else s.droppedTotal) =
      (s.dropped ++ s.buffer.evictedBy entry).length
    rw [List.length_append, hlength]
    split <;> omega
  · have hkept : (s.buffer.append entry).items.Sublist (s.buffer.items ++ [entry]) := by
      rw [← hevict]
      exact List.sublist_append_right _ _
    have hmore : List.Sublist (s.committed ++ (s.inFlight ++ (s.buffer.append entry).items))
        ((s.committed ++ (s.inFlight ++ s.buffer.items)) ++ [entry]) := by
      simp only [List.append_assoc]
      exact (hkept.append_left _).append_left _
    refine (hmore.filter _).trans ?_
    have hsplit : ∀ l : List (Entry R), (l ++ [entry]).filter (fun e => e.table = τ) =
        l.filter (fun e => e.table = τ) ++ [entry].filter fun e => e.table = τ :=
      fun l => List.filter_append l [entry]
    change List.Sublist _ ((s.enqueued ++ [entry]).filter fun e => e.table = τ)
    rw [hsplit, hsplit]
    exact (h.ordered τ).append_right _

/-- A step that moves records between places, keeping their order. -/
theorem Accounted.move {s t : Shared R maxlen} (h : s.Accounted) (henqueued : t.enqueued = s.enqueued)
    (hplaced : (t.committed : Multiset (Entry R)) + t.inFlight + t.buffer.items + t.dropped =
      s.committed + s.inFlight + s.buffer.items + s.dropped)
    (hcounted : t.droppedTotal = t.dropped.length)
    (hordered : ∀ table, List.Sublist
      ((t.committed ++ (t.inFlight ++ t.buffer.items)).filter fun e => e.table = table)
      ((s.committed ++ (s.inFlight ++ s.buffer.items)).filter fun e => e.table = table)) :
    t.Accounted := by
  refine ⟨?_, ?_, hcounted, fun table => ?_⟩
  · rw [henqueued]
    exact h.numbered
  · rw [placed_iff, hplaced, henqueued]
    exact placed_iff.mp h.placed
  · rw [henqueued]
    exact (hordered table).trans (h.ordered table)

theorem drain_accounted {s : Shared R maxlen} (h : s.Accounted) (hnone : s.inFlight = []) :
    s.drain.Accounted := by
  refine h.move rfl ?_ h.counted fun table => ?_
  · simp [drain, hnone]
  · simp [drain, hnone]

theorem requeue_accounted {s : Shared R maxlen} (h : s.Accounted) : s.requeue.Accounted := by
  have hitems := s.buffer.extendLeft_reverse s.inFlight
  have hbound := s.buffer.bounded
  refine h.move rfl ?_ ?_ fun table => ?_
  · have hsplit : ((s.inFlight ++ s.buffer.items).take maxlen : Multiset (Entry R)) +
        (s.inFlight ++ s.buffer.items).drop maxlen = s.inFlight + s.buffer.items := by
      rw [Multiset.coe_add, List.take_append_drop, Multiset.coe_add]
    change (s.committed : Multiset (Entry R)) + (([] : List (Entry R)) : Multiset (Entry R)) +
      (s.buffer.extendLeft s.inFlight.reverse).items +
      (s.dropped ++ (s.inFlight ++ s.buffer.items).drop maxlen : List (Entry R)) = _
    rw [hitems, ← Multiset.coe_add, Multiset.coe_nil]
    calc (s.committed : Multiset (Entry R)) + 0 + (s.inFlight ++ s.buffer.items).take maxlen +
          (s.dropped + (s.inFlight ++ s.buffer.items).drop maxlen)
        = s.committed + s.dropped + ((s.inFlight ++ s.buffer.items).take maxlen +
          (s.inFlight ++ s.buffer.items).drop maxlen) := by abel
      _ = s.committed + s.dropped + (s.inFlight + s.buffer.items) := by rw [hsplit]
      _ = s.committed + s.inFlight + s.buffer.items + s.dropped := by abel
  · have hcounted := h.counted
    simp only [requeue, List.length_append, List.length_drop]
    split <;> omega
  · change List.Sublist (List.filter _ (s.committed ++ ([] ++
      (s.buffer.extendLeft s.inFlight.reverse).items))) _
    rw [hitems, List.nil_append]
    exact ((List.take_sublist _ _).append_left _).filter _

theorem commit_accounted {s : Shared R maxlen} (h : s.Accounted) :
    (s.commit (rowsOf (grouped s.inFlight))).Accounted := by
  obtain ⟨-, hperm, hfilter⟩ := grouped_spec s.inFlight
  refine h.move rfl ?_ h.counted fun table => ?_
  · have hrows : (rowsOf (grouped s.inFlight) : Multiset (Entry R)) = s.inFlight :=
      Multiset.coe_eq_coe.mpr hperm
    simp [commit, ← Multiset.coe_add, hrows]
  · simp [commit, List.filter_append, hfilter]

theorem drop_accounted {s : Shared R maxlen} (h : s.Accounted) : s.drop.Accounted := by
  refine h.move rfl ?_ ?_ fun table => ?_
  · simp only [drop, ← Multiset.coe_add, Multiset.coe_nil]
    abel
  · simp [drop, h.counted]
  · simp only [drop, List.nil_append, List.filter_append]
    exact (List.sublist_append_right _ _).append_left _

/-- Records on their way: in flight or in the buffer. -/
def pending (s : Shared R maxlen) : List (Entry R) := s.inFlight ++ s.buffer.items

end Shared

/-- The phases in which a flush holds `flush_lock`. -/
def FlushPhase.locked : FlushPhase → Bool
  | .entering | .returned => false
  | _ => true

/-- The phases in which the local batch is still to be settled. -/
def FlushPhase.carries : FlushPhase → Bool
  | .writing _ | .requeueing _ | .dropping => true
  | _ => false

/-- What a flush has settled of the records enqueued before it was called. -/
def FlushPhase.Settled (since : ℕ) (s : Shared R maxlen) : FlushPhase → Prop
  | .writing _ | .requeueing _ | .dropping => ∀ e ∈ s.buffer.items, since ≤ e.seq
  | .counting _ | .leaving | .returned => ∀ e ∈ s.pending, since ≤ e.seq
  | .raising _ => False
  | .entering | .draining _ | .sleeping _ => True

/-- Whether a thread holds `flush_lock`. -/
def Pc.locked : Pc → Bool
  | .flushing _ _ phase => phase.locked
  | _ => false

/-- Whether a thread carries the local batch. -/
def Pc.carries : Pc → Bool
  | .flushing _ _ phase => phase.carries
  | _ => false

/-- What holds of a thread where it stands. No thread has raised. -/
def Pc.Fine (s : Shared R maxlen) : Pc → Prop
  | .flushing _ since phase => since ≤ s.enqueued.length ∧ phase.Settled since s
  | .raised _ => False
  | .ended => s.stop = true
  | _ => True

theorem Pc.locked_of_carries {pc : Pc} (h : pc.carries = true) : pc.locked = true := by
  cases pc with
  | flushing caller since phase => cases phase <;> first | rfl | cases h
  | _ => cases h

/-- The transaction commits the whole batch, or raises what `flush` catches. -/
def Regular (store : Store R F) (s : Shared R maxlen) : Prop :=
  ∀ fault, match store.write s.committed (grouped s.inFlight) fault with
    | .ok kept => kept = rowsOf (grouped s.inFlight)
    | .error exc => exc.isSqlite = true ∨ exc.cls = telemetryError

namespace WriterState

/-- The invariant of the writer. -/
structure Inv (s : WriterState R maxlen) : Prop where
  accounted : s.shared.Accounted
  lock : ∀ thread, (s.pc thread).locked = true ↔ s.shared.flushLock = some thread
  batch : (∀ thread, (s.pc thread).carries = false) → s.shared.inFlight = []
  fine : ∀ thread, (s.pc thread).Fine s.shared

end WriterState

namespace Shared

/-- What one step of a thread does to the shared state and to itself. -/
structure Moves (thread : ThreadId) (s : Shared R maxlen) (pc : Pc) (t : Shared R maxlen)
    (next : Pc) : Prop where
  accounted : t.Accounted
  enqueued : t.enqueued = s.enqueued
  stop : s.stop = true → t.stop = true
  /-- Nothing becomes pending that was not pending before. -/
  pending : ∀ e ∈ t.pending, e ∈ s.pending
  /-- Without the lock the buffer and the batch are left alone. -/
  outside : pc.locked = false → t.buffer = s.buffer ∧ t.inFlight = s.inFlight
  /-- The lock changes hands only through this thread. -/
  lock : (pc.locked = next.locked ∧ t.flushLock = s.flushLock) ∨
    (pc.locked = false ∧ next.locked = true ∧ s.flushLock = none ∧ t.flushLock = some thread) ∨
    (pc.locked = true ∧ next.locked = false ∧ t.flushLock = none)
  batch : pc.locked = true → next.carries = false → t.inFlight = []
  fine : next.Fine t

/-- A step outside `flush_lock` that touches no record. -/
theorem Moves.outside_lock {thread : ThreadId} {s t : Shared R maxlen} {pc next : Pc}
    (h : s.Accounted) (hbuffer : t.buffer = s.buffer) (hflight : t.inFlight = s.inFlight)
    (hcommitted : t.committed = s.committed) (hdropped : t.dropped = s.dropped)
    (hcount : t.droppedTotal = s.droppedTotal) (henqueued : t.enqueued = s.enqueued)
    (hlock : t.flushLock = s.flushLock) (hstop : s.stop = true → t.stop = true)
    (hpc : pc.locked = false) (hnext : next.locked = false) (hfine : next.Fine t) :
    Moves thread s pc t next where
  accounted := by
    refine h.move henqueued ?_ ?_ fun table => ?_
    · rw [hcommitted, hflight, hbuffer, hdropped]
    · rw [hcount, hdropped]
      exact h.counted
    · rw [hcommitted, hflight, hbuffer]
  enqueued := henqueued
  stop := hstop
  pending := by
    unfold Shared.pending
    rw [hflight, hbuffer]
    exact fun _ he => he
  outside := fun _ => ⟨hbuffer, hflight⟩
  lock := .inl ⟨hpc.trans hnext.symm, hlock⟩
  batch := fun hlocked => by simp [hpc] at hlocked
  fine := hfine

/-- A step of a flush that holds `flush_lock` and goes on holding it. -/
theorem Moves.inside_lock {thread : ThreadId} {s t : Shared R maxlen} {caller : Caller}
    {since : ℕ} {phase next : FlushPhase} (haccounted : t.Accounted)
    (henqueued : t.enqueued = s.enqueued) (hlock : t.flushLock = s.flushLock)
    (hstop : t.stop = s.stop) (hpending : ∀ e ∈ t.pending, e ∈ s.pending)
    (hphase : phase.locked = true) (hnext : next.locked = true)
    (hbatch : next.carries = false → t.inFlight = []) (hsince : since ≤ s.enqueued.length)
    (hsettled : next.Settled since t) :
    Moves thread s (.flushing caller since phase) t (.flushing caller since next) where
  accounted := haccounted
  enqueued := henqueued
  stop := fun h => hstop.trans h
  pending := hpending
  outside := fun hfree => by simp [Pc.locked, hphase] at hfree
  lock := .inl ⟨hphase.trans hnext.symm, hlock⟩
  batch := fun _ => hbatch
  fine := ⟨by rw [henqueued]; exact hsince, hsettled⟩

/-- One step of a flush. -/
theorem flushStep_moves {store : Store R F} {config : Config} {thread : ThreadId} {fault : F}
    {s t : Shared R maxlen} {caller : Caller} {since : ℕ} {phase next : FlushPhase}
    (h : s.Accounted) (hregular : Regular store s) (hsince : since ≤ s.enqueued.length)
    (hsettled : phase.Settled since s)
    (hbatch : phase.locked = true → phase.carries = false → s.inFlight = [])
    (hstep : flushStep store config thread fault s phase = some (next, t)) :
    Moves thread s (.flushing caller since phase) t (.flushing caller since next) := by
  cases phase with
  | entering =>
    cases hlock : s.flushLock with
    | some owner => simp [flushStep, hlock] at hstep
    | none =>
      simp only [flushStep, hlock, Option.some.injEq, Prod.mk.injEq] at hstep
      obtain ⟨rfl, rfl⟩ := hstep
      exact ⟨⟨h.numbered, h.placed, h.counted, h.ordered⟩, rfl, id, fun _ he => he,
        fun _ => ⟨rfl, rfl⟩, .inr (.inl ⟨rfl, rfl, hlock, rfl⟩), (fun hf => nomatch hf),
        hsince, trivial⟩
  | draining attempt =>
    have hnone := hbatch rfl rfl
    simp only [flushStep, Option.some.injEq, Prod.mk.injEq] at hstep
    obtain ⟨rfl, rfl⟩ := hstep
    have hpending : ∀ e ∈ s.drain.pending, e ∈ s.pending := by
      simp [drain, pending, hnone]
    by_cases hempty : s.buffer.items.isEmpty = true
    · have hnil : s.buffer.items = [] := List.isEmpty_iff.mp hempty
      rw [if_pos hempty]
      refine Moves.inside_lock (drain_accounted h hnone) rfl rfl rfl hpending rfl rfl
        (fun _ => hnil) hsince fun e he => ?_
      simp [drain, pending, hnil] at he
    · rw [if_neg hempty]
      refine Moves.inside_lock (drain_accounted h hnone) rfl rfl rfl hpending rfl rfl
        (fun hcarries => nomatch hcarries) hsince fun e he => ?_
      simp [drain] at he
  | writing attempt =>
    have hwrite := hregular fault
    cases hw : store.write s.committed (grouped s.inFlight) fault with
    | ok kept =>
      rw [hw] at hwrite
      simp only [flushStep, hw, Option.some.injEq, Prod.mk.injEq] at hstep
      obtain ⟨rfl, rfl⟩ := hstep
      subst hwrite
      refine Moves.inside_lock (commit_accounted h) rfl rfl rfl ?_ rfl rfl (fun _ => rfl) hsince ?_
      · exact fun e he => List.mem_append_right _ he
      · exact fun e he => hsettled e he
    | error exc =>
      rw [hw] at hwrite
      simp only [flushStep, hw, Option.some.injEq, Prod.mk.injEq] at hstep
      obtain ⟨rfl, rfl⟩ := hstep
      have hhandled : handle config attempt exc = .requeueing attempt ∨
          handle config attempt exc = .dropping := by
        unfold handle
        rcases hwrite with hsqlite | hcls
        · rw [if_pos hsqlite]
          split
          · exact .inl rfl
          · exact .inr rfl
        · rw [if_pos hcls]
          split
          · split
            · exact .inl rfl
            · exact .inr rfl
          · exact .inr rfl
      rcases hhandled with heq | heq <;> rw [heq]
      · exact Moves.inside_lock h rfl rfl rfl (fun _ he => he) rfl rfl (fun hc => nomatch hc) hsince
          hsettled
      · exact Moves.inside_lock h rfl rfl rfl (fun _ he => he) rfl rfl (fun hc => nomatch hc) hsince
          hsettled
  | requeueing attempt =>
    simp only [flushStep, Option.some.injEq, Prod.mk.injEq] at hstep
    obtain ⟨rfl, rfl⟩ := hstep
    refine Moves.inside_lock (requeue_accounted h) rfl rfl rfl ?_ rfl rfl (fun _ => rfl) hsince trivial
    intro e he
    change e ∈ ([] : List (Entry R)) ++ (s.buffer.extendLeft s.inFlight.reverse).items at he
    rw [Deque.extendLeft_reverse, List.nil_append] at he
    exact List.mem_of_mem_take he
  | sleeping attempt =>
    simp only [flushStep, Option.some.injEq, Prod.mk.injEq] at hstep
    obtain ⟨rfl, rfl⟩ := hstep
    exact Moves.inside_lock h rfl rfl rfl (fun _ he => he) rfl rfl (fun _ => hbatch rfl rfl) hsince
      trivial
  | counting written =>
    simp only [flushStep, Option.some.injEq, Prod.mk.injEq] at hstep
    obtain ⟨rfl, rfl⟩ := hstep
    exact Moves.inside_lock ⟨h.numbered, h.placed, h.counted, h.ordered⟩ rfl rfl rfl
      (fun _ he => he) rfl rfl (fun _ => hbatch rfl rfl) hsince hsettled
  | dropping =>
    simp only [flushStep, Option.some.injEq, Prod.mk.injEq] at hstep
    obtain ⟨rfl, rfl⟩ := hstep
    refine Moves.inside_lock (drop_accounted h) rfl rfl rfl ?_ rfl rfl (fun _ => rfl) hsince ?_
    · exact fun e he => List.mem_append_right _ he
    · exact fun e he => hsettled e he
  | leaving =>
    simp only [flushStep, Option.some.injEq, Prod.mk.injEq] at hstep
    obtain ⟨rfl, rfl⟩ := hstep
    exact ⟨⟨h.numbered, h.placed, h.counted, h.ordered⟩, rfl, id, fun _ he => he,
      (fun hf => nomatch hf), .inr (.inr ⟨rfl, rfl, rfl⟩), fun _ _ => hbatch rfl rfl, hsince,
      hsettled⟩
  | raising exc => simp [flushStep] at hstep
  | returned => simp [flushStep] at hstep

/-- One step of a thread. -/
theorem threadStep_moves {store : Store R F} {config : Config} {thread : ThreadId} {fault : F}
    {s t : Shared R maxlen} {pc next : Pc} (h : s.Accounted) (hregular : Regular store s)
    (hfine : pc.Fine s) (hbatch : pc.locked = true → pc.carries = false → s.inFlight = [])
    (hstep : threadStep store config thread fault s pc = some (next, t)) :
    Moves thread s pc t next := by
  cases pc with
  | idle => simp [threadStep] at hstep
  | ended => simp [threadStep] at hstep
  | raised exc => exact hfine.elim
  | loopTest =>
    simp only [threadStep, Option.some.injEq, Prod.mk.injEq] at hstep
    obtain ⟨rfl, rfl⟩ := hstep
    by_cases hstop : s.stop = true
    · rw [if_pos hstop]
      exact .outside_lock h rfl rfl rfl rfl rfl rfl rfl id rfl rfl hstop
    · rw [if_neg hstop]
      exact .outside_lock h rfl rfl rfl rfl rfl rfl rfl id rfl rfl trivial
  | loopRetest =>
    simp only [threadStep, Option.some.injEq, Prod.mk.injEq] at hstep
    obtain ⟨rfl, rfl⟩ := hstep
    by_cases hstop : s.stop = true
    · rw [if_pos hstop]
      exact .outside_lock h rfl rfl rfl rfl rfl rfl rfl id rfl rfl trivial
    · rw [if_neg hstop]
      exact .outside_lock h rfl rfl rfl rfl rfl rfl rfl id rfl rfl ⟨le_rfl, trivial⟩
  | stopTest =>
    simp only [threadStep, Option.some.injEq, Prod.mk.injEq] at hstep
    obtain ⟨rfl, rfl⟩ := hstep
    by_cases hdown : s.shutdown = true
    · rw [if_pos hdown]
      exact .outside_lock h rfl rfl rfl rfl rfl rfl rfl id rfl rfl trivial
    · rw [if_neg hdown]
      exact .outside_lock h rfl rfl rfl rfl rfl rfl rfl id rfl rfl trivial
  | stopSet =>
    simp only [threadStep, Option.some.injEq, Prod.mk.injEq] at hstep
    obtain ⟨rfl, rfl⟩ := hstep
    exact .outside_lock h rfl rfl rfl rfl rfl rfl rfl (fun _ => rfl) rfl rfl trivial
  | stopJoin =>
    simp only [threadStep, Option.some.injEq, Prod.mk.injEq] at hstep
    obtain ⟨rfl, rfl⟩ := hstep
    exact .outside_lock h rfl rfl rfl rfl rfl rfl rfl id rfl rfl ⟨le_rfl, trivial⟩
  | flushing caller since phase =>
    cases phase with
    | raising exc => exact hfine.2.elim
    | returned =>
      simp only [threadStep, Option.some.injEq, Prod.mk.injEq] at hstep
      obtain ⟨rfl, rfl⟩ := hstep
      cases caller <;> exact .outside_lock h rfl rfl rfl rfl rfl rfl rfl id rfl rfl trivial
    | _ =>
      simp only [threadStep, Option.map_eq_some_iff, Prod.mk.injEq] at hstep
      obtain ⟨⟨phase', t'⟩, hflush, rfl, rfl⟩ := hstep
      exact flushStep_moves h hregular hfine.1 hfine.2 hbatch hflush
  | _ =>
    simp only [threadStep, Option.some.injEq, Prod.mk.injEq] at hstep
    obtain ⟨rfl, rfl⟩ := hstep
    exact .outside_lock h rfl rfl rfl rfl rfl rfl rfl id rfl rfl trivial

/-- A step of one thread leaves the other threads fine. -/
theorem Moves.other {thread : ThreadId} {s t : Shared R maxlen} {pc next other : Pc}
    (hmoves : Moves thread s pc t next) (hfine : other.Fine s)
    (hexclusive : other.locked = true → pc.locked = false) : other.Fine t := by
  cases other with
  | flushing caller since phase =>
    refine ⟨by rw [hmoves.enqueued]; exact hfine.1, ?_⟩
    have hsettled := hfine.2
    have hpending : (∀ e ∈ s.pending, since ≤ e.seq) → ∀ e ∈ t.pending, since ≤ e.seq :=
      fun hs e he => hs e (hmoves.pending e he)
    have hbuffer : phase.locked = true → (∀ e ∈ s.buffer.items, since ≤ e.seq) →
        ∀ e ∈ t.buffer.items, since ≤ e.seq := by
      intro hlocked hs
      rw [(hmoves.outside (hexclusive hlocked)).1]
      exact hs
    cases phase with
    | entering => trivial
    | draining attempt => trivial
    | sleeping attempt => trivial
    | raising exc => exact hsettled.elim
    | writing attempt => exact hbuffer rfl hsettled
    | requeueing attempt => exact hbuffer rfl hsettled
    | dropping => exact hbuffer rfl hsettled
    | counting written => exact hpending hsettled
    | leaving => exact hpending hsettled
    | returned => exact hpending hsettled
  | raised exc => exact hfine.elim
  | ended => exact hmoves.stop hfine
  | _ => trivial

/-- Enqueueing leaves every thread fine: the new record is younger than the
call of any flush. -/
theorem enqueue_fine {config : Config} {table : String} {record : R} {s : Shared R maxlen} {pc : Pc}
    (hfine : pc.Fine s) : pc.Fine (s.enqueue config table record) := by
  cases pc with
  | flushing caller since phase =>
    obtain ⟨hsince, hsettled⟩ := hfine
    refine ⟨?_, ?_⟩
    · simp only [enqueue, List.length_append, List.length_singleton]
      omega
    have hnew : ∀ e ∈ (s.enqueue config table record).buffer.items,
        e ∈ s.buffer.items ∨ since ≤ e.seq := by
      intro e he
      have hmem : e ∈ s.buffer.items ++ [⟨s.enqueued.length, table, record⟩] := by
        rw [← Deque.evictedBy_append]
        exact List.mem_append_right _ he
      rcases List.mem_append.mp hmem with hold | hlast
      · exact .inl hold
      · rw [List.mem_singleton.mp hlast]
        exact .inr hsince
    have hbuffer : (∀ e ∈ s.buffer.items, since ≤ e.seq) →
        ∀ e ∈ (s.enqueue config table record).buffer.items, since ≤ e.seq :=
      fun hs e he => (hnew e he).elim (hs e) id
    have hpending : (∀ e ∈ s.pending, since ≤ e.seq) →
        ∀ e ∈ (s.enqueue config table record).pending, since ≤ e.seq := by
      intro hs e he
      rcases List.mem_append.mp he with hflight | hitems
      · exact hs e (List.mem_append_left _ hflight)
      · exact (hnew e hitems).elim (fun hold => hs e (List.mem_append_right _ hold)) id
    cases phase with
    | entering => trivial
    | draining attempt => trivial
    | sleeping attempt => trivial
    | raising exc => exact hsettled.elim
    | writing attempt => exact hbuffer hsettled
    | requeueing attempt => exact hbuffer hsettled
    | dropping => exact hbuffer hsettled
    | counting written => exact hpending hsettled
    | leaving => exact hpending hsettled
    | returned => exact hpending hsettled
  | raised exc => exact hfine.elim
  | ended => exact hfine
  | _ => trivial

end Shared

namespace WriterState

/-- The new writer meets the invariant. -/
theorem start_inv : (start : WriterState R maxlen).Inv := by
  have hpc : ∀ thread, (start : WriterState R maxlen).pc thread = .loopTest ∨
      (start : WriterState R maxlen).pc thread = .idle := by
    intro thread
    by_cases h : thread = .worker
    · exact .inl (if_pos h)
    · exact .inr (if_neg h)
  refine ⟨⟨rfl, List.Perm.refl _, rfl, fun _ => List.Sublist.refl _⟩, fun thread => ?_, fun _ => rfl,
    fun thread => ?_⟩
  · rcases hpc thread with h | h <;> rw [h] <;> exact ⟨(fun hf => nomatch hf), fun hf => nomatch hf⟩
  · rcases hpc thread with h | h <;> rw [h] <;> trivial

@[simp] theorem goto_self (s : WriterState R maxlen) (thread : ThreadId) (pc : Pc) :
    s.goto thread pc thread = pc := if_pos rfl

theorem goto_other (s : WriterState R maxlen) {thread other : ThreadId} (h : other ≠ thread)
    (pc : Pc) : s.goto thread pc other = s.pc other := if_neg h

/-- A step of one thread keeps the invariant. -/
theorem Inv.advance {s : WriterState R maxlen} (h : s.Inv) {thread : ThreadId}
    {t : Shared R maxlen} {next : Pc} (hmoves : Shared.Moves thread s.shared (s.pc thread) t next) :
    (WriterState.mk t (s.goto thread next)).Inv := by
  have hexclusive : ∀ other, other ≠ thread → (s.pc other).locked = true →
      (s.pc thread).locked = false := by
    intro other hne hlocked
    by_contra hthread
    have h1 := (h.lock other).mp hlocked
    have h2 := (h.lock thread).mp (by simpa using hthread)
    rw [h1] at h2
    exact hne (Option.some.inj h2)
  refine ⟨hmoves.accounted, fun other => ?_, fun hnone => ?_, fun other => ?_⟩
  · change (s.goto thread next other).locked = true ↔ t.flushLock = some other
    by_cases hother : other = thread
    · rw [hother, goto_self]
      have hown := h.lock thread
      rcases hmoves.lock with ⟨hsame, hlock⟩ | ⟨-, hlocked, -, hlock⟩ | ⟨-, hfree, hlock⟩
      · rw [← hsame, hlock]
        exact hown
      · simp [hlocked, hlock]
      · simp [hfree, hlock]
    · rw [goto_other s hother]
      have hown := h.lock other
      rcases hmoves.lock with ⟨-, hlock⟩ | ⟨-, -, hfree, hlock⟩ | ⟨hlocked, -, hlock⟩
      · rw [hlock]
        exact hown
      · rw [hfree] at hown
        rw [hlock]
        simp only [reduceCtorEq, iff_false, Bool.not_eq_true] at hown
        simp [hown, Ne.symm hother]
      · have hthread := (h.lock thread).mp hlocked
        rw [hthread] at hown
        rw [hlock]
        simp only [Option.some.injEq, Ne.symm hother, iff_false, Bool.not_eq_true] at hown
        simp [hown]
  · change t.inFlight = []
    have hnext : next.carries = false := by simpa using hnone thread
    by_cases hlocked : (s.pc thread).locked = true
    · exact hmoves.batch hlocked hnext
    · have hfree : (s.pc thread).locked = false := by simpa using hlocked
      rw [(hmoves.outside hfree).2]
      refine h.batch fun other => ?_
      by_cases hother : other = thread
      · rw [hother]
        by_contra hcarries
        exact hlocked (Pc.locked_of_carries (by simpa using hcarries))
      · have hnot := hnone other
        change (s.goto thread next other).carries = false at hnot
        rw [goto_other s hother] at hnot
        exact hnot
  · change (s.goto thread next other).Fine t
    by_cases hother : other = thread
    · rw [hother, goto_self]
      exact hmoves.fine
    · rw [goto_other s hother]
      exact hmoves.other (h.fine other) (hexclusive other hother)

/-- Sending an idle thread somewhere without the lock keeps the invariant. -/
theorem Inv.send {s : WriterState R maxlen} (h : s.Inv) {thread : ThreadId}
    (hidle : s.pc thread = .idle) {next : Pc} (hnext : next.locked = false)
    (hfine : next.Fine s.shared) : (WriterState.mk s.shared (s.goto thread next)).Inv := by
  refine h.advance ?_
  rw [hidle]
  exact .outside_lock h.accounted rfl rfl rfl rfl rfl rfl rfl id rfl hnext hfine

/-- Every step keeps the invariant, when the writes in flight are regular. -/
theorem Inv.step {store : Store R F} {config : Config} {s t : WriterState R maxlen}
    {action : Action R F} (h : s.Inv) (hregular : Regular store s.shared)
    (hstep : s.step store config action = some t) : t.Inv := by
  cases action with
  | enqueue table record =>
    cases hstep
    exact ⟨Shared.enqueue_accounted h.accounted config table record, h.lock, h.batch,
      fun thread => Shared.enqueue_fine (h.fine thread)⟩
  | flush client =>
    simp only [WriterState.step] at hstep
    split at hstep
    · rename_i hidle
      cases hstep
      exact h.send hidle rfl ⟨le_rfl, trivial⟩
    · cases hstep
  | shutdown client =>
    simp only [WriterState.step] at hstep
    split at hstep
    · rename_i hidle
      cases hstep
      exact h.send hidle rfl trivial
    · cases hstep
  | advance thread fault =>
    simp only [WriterState.step, Option.map_eq_some_iff] at hstep
    obtain ⟨⟨next, shared⟩, hthread, rfl⟩ := hstep
    refine h.advance (Shared.threadStep_moves h.accounted hregular (h.fine thread) ?_ hthread)
    intro hlocked hcarries
    refine h.batch fun other => ?_
    by_contra hother
    have hother' : (s.pc other).carries = true := by simpa using hother
    have h1 := (h.lock other).mp (Pc.locked_of_carries hother')
    have h2 := (h.lock thread).mp hlocked
    rw [h1] at h2
    have hsame := Option.some.inj h2
    rw [hsame, hcarries] at hother'
    cases hother'

/-- What the writer owes of every record. -/
structure Conserved (s : WriterState R maxlen) : Prop where
  /-- No record is in two places, and none is committed twice. -/
  once : (s.shared.buffer.items ++ (s.shared.inFlight ++ (s.shared.committed ++
    s.shared.dropped))).Nodup
  /-- Every enqueued record is somewhere. -/
  somewhere : ∀ e, e ∈ s.shared.enqueued ↔ e ∈ s.shared.buffer.items ∨ e ∈ s.shared.inFlight ∨
    e ∈ s.shared.committed ∨ e ∈ s.shared.dropped
  counted : s.shared.droppedTotal = s.shared.dropped.length
  ordered : ∀ table, List.Sublist (s.shared.committed.filter fun e => e.table = table)
    (s.shared.enqueued.filter fun e => e.table = table)
  bounded : s.shared.buffer.items.length ≤ maxlen
  /-- A returned flush has settled every record enqueued before its call. -/
  settled : ∀ thread caller since, s.pc thread = .flushing caller since .returned →
    ∀ e ∈ s.shared.enqueued.take since, e ∈ s.shared.committed ∨ e ∈ s.shared.dropped

/-- The records enqueued first have the smallest numbers. -/
theorem seq_lt_of_mem_take {s : Shared R maxlen} (h : s.Accounted) {since : ℕ} {e : Entry R}
    (he : e ∈ s.enqueued.take since) : e.seq < since := by
  have hmem : e.seq ∈ (s.enqueued.take since).map Entry.seq := List.mem_map_of_mem he
  rw [List.map_take, h.numbered] at hmem
  have htake : (List.range s.enqueued.length).take since =
      List.range (min since s.enqueued.length) := List.take_range
  rw [htake, List.mem_range] at hmem
  omega

/-- The invariant gives what the writer owes. -/
theorem Inv.conserved {s : WriterState R maxlen} (h : s.Inv) : s.Conserved := by
  have hplaced := Shared.placed_iff.mp h.accounted.placed
  have hperm : (s.shared.buffer.items ++ (s.shared.inFlight ++ (s.shared.committed ++
      s.shared.dropped))).Perm s.shared.enqueued := by
    rw [Shared.placed_iff, ← hplaced]
    abel
  have hnodup : s.shared.enqueued.Nodup := by
    refine List.Nodup.of_map Entry.seq ?_
    rw [h.accounted.numbered]
    exact List.nodup_range
  have hsomewhere : ∀ e, e ∈ s.shared.enqueued ↔ e ∈ s.shared.buffer.items ∨
      e ∈ s.shared.inFlight ∨ e ∈ s.shared.committed ∨ e ∈ s.shared.dropped := by
    intro e
    rw [← hperm.mem_iff]
    simp only [List.mem_append]
  refine ⟨hperm.nodup_iff.mpr hnodup, hsomewhere, h.accounted.counted, fun table => ?_,
    s.shared.buffer.bounded, fun thread caller since hpc e he => ?_⟩
  · refine List.Sublist.trans ?_ (h.accounted.ordered table)
    rw [List.filter_append]
    exact List.sublist_append_left _ _
  · have hfine := h.fine thread
    rw [hpc] at hfine
    have hlt := seq_lt_of_mem_take h.accounted he
    have hpending : e ∉ s.shared.pending := by
      intro hmem
      have hle := hfine.2 e hmem
      omega
    have hmem : e ∈ s.shared.enqueued := List.mem_of_mem_take he
    rcases (hsomewhere e).mp hmem with hbuffer | hflight | hrest
    · exact absurd (List.mem_append_right _ hbuffer) hpending
    · exact absurd (List.mem_append_left _ hflight) hpending
    · exact hrest

end WriterState

/-- What a store may do with a batch. -/
inductive StoreOutcome where
  | committed
  | locked
  | sqliteError (message : String)
  | telemetryError (message : String)
  deriving DecidableEq, Repr

/-- A store that does as it is told. -/
def plainStore : Store R StoreOutcome where
  write _ groups outcome :=
    match outcome with
    | .committed => .ok (rowsOf groups)
    | .locked => .error ⟨.sqliteOperational, "database is locked"⟩
    | .sqliteError message => .error ⟨.sqliteIntegrity, message⟩
    | .telemetryError message => .error ⟨telemetryError, message⟩

theorem plainStore_regular (s : Shared R maxlen) : Regular plainStore s := by
  intro outcome
  cases outcome with
  | committed => rfl
  | locked => exact .inl rfl
  | sqliteError message => exact .inl rfl
  | telemetryError message => exact .inr rfl

/-- In every interleaving of producers, flushes, the worker and shutdown, and
with every outcome of every batch, the writer conserves its records. -/
theorem writer_conserves (config : Config) (actions : List (Action R StoreOutcome))
    (s : WriterState R maxlen)
    (h : run (WriterState.step plainStore config) .start actions = some s) : s.Conserved := by
  refine WriterState.Inv.conserved ?_
  refine run_invariant (P := fun _ => True) (fun s a t _ hs hstep => ?_)
    WriterState.start_inv (fun _ _ => trivial) h
  exact hs.step (plainStore_regular s.shared) hstep

/-- Steps of one client, each with this outcome. -/
def clientSteps (client : ℕ) (outcomes : List StoreOutcome) : List (Action String StoreOutcome) :=
  outcomes.map (.advance (.client client))

/-- Two clients enqueue and flush; the first write meets a locked database
while a third record arrives, which the full buffer then evicts. -/
def lockedRun : List (Action String StoreOutcome) :=
  [.enqueue "usage" "a", .enqueue "costs" "b", .flush 0] ++
    clientSteps 0 [.committed, .committed, .locked] ++ [.enqueue "usage" "c"] ++
    clientSteps 0 (List.replicate 7 .committed)

/-- In that run two records are committed and one is counted as dropped. -/
theorem writer_conserves_locked : ∃ s : WriterState String 2,
    run (WriterState.step plainStore {}) .start lockedRun = some s ∧ s.shared.droppedTotal = 1 ∧
      s.shared.committed.length = 2 ∧ s.Conserved := by
  have hcounts : ((run (WriterState.step plainStore {}) (.start : WriterState String 2)
      lockedRun).map fun s => (s.shared.droppedTotal, s.shared.committed.length)) = some (1, 2) := by
    decide
  cases hrun : run (WriterState.step plainStore {}) (.start : WriterState String 2) lockedRun with
  | none =>
    rw [hrun] at hcounts
    cases hcounts
  | some s =>
    rw [hrun] at hcounts
    obtain ⟨hdropped, hcommitted⟩ := Prod.mk.inj (Option.some.inj hcounts)
    exact ⟨s, rfl, hdropped, hcommitted, writer_conserves {} lockedRun s hrun⟩

end AiosDeck.Telemetry
