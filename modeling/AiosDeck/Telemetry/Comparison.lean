import AiosDeck.Telemetry.Compare

/-!
# When reports can be compared

For two valid reports the comparison ends, with a valid report that lists every target once and
with the exit code of what it found, exactly when the targets can be sorted, everything that is
looked up is in a dictionary, and the baselines divide.
-/

namespace AiosDeck.Telemetry

open Python Schema

namespace Compare

section Deltas

/-- The delta of numbers that are turned into floats. -/
theorem floatDelta_ok_iff (x y : PyNum) :
    (∃ z, (do
      let current ← y.operand
      let baseline ← x.operand
      let divisor ← x.operand
      let quotient ← (current.sub baseline).div divisor
      return quotient.mul (.finite 100) : Except PyExc PyFloat) = .ok z) ↔
      x.isZero = false ∧ x.InRange ∧ y.InRange := by
  have hx := x.operand_ok_iff
  have hy := y.operand_ok_iff
  cases hcurrent : y.operand with
  | error exc =>
    rw [hcurrent] at hy
    have hnot : ¬y.InRange := fun h => by
      obtain ⟨z, hz⟩ := hy.mpr h
      cases hz
    refine ⟨fun ⟨z, hz⟩ => ?_, fun h => absurd h.2.2 hnot⟩
    cases hz
  | ok current =>
    have hyrange := hy.mp ⟨current, hcurrent⟩
    cases hbaseline : x.operand with
    | error exc =>
      rw [hbaseline] at hx
      have hnot : ¬x.InRange := fun h => by
        obtain ⟨z, hz⟩ := hx.mpr h
        cases hz
      refine ⟨fun ⟨z, hz⟩ => ?_, fun h => absurd h.2.1 hnot⟩
      cases hz
    | ok baseline =>
      have hxrange := hx.mp ⟨baseline, hbaseline⟩
      have hzero := PyNum.isZero_operand hbaseline
      have hdiv := PyFloat.div_ok_iff (current.sub baseline) baseline
      rw [hzero] at hdiv
      constructor
      · rintro ⟨z, hz⟩
        refine ⟨hdiv.mp ?_, hxrange, hyrange⟩
        cases hquotient : (current.sub baseline).div baseline with
        | ok quotient => exact ⟨quotient, rfl⟩
        | error exc =>
          simp only [bind, Except.bind, hquotient] at hz
          cases hz
      · rintro ⟨hnonzero, -, -⟩
        obtain ⟨quotient, hquotient⟩ := hdiv.mpr hnonzero
        refine ⟨quotient.mul (.finite 100), ?_⟩
        simp only [bind, Except.bind, hquotient]
        rfl

/-- Where one of the numbers is a float, both are turned into floats. -/
theorem deltaPct_floats {x y : PyNum} (h : ∀ m n, ¬(x = .int m ∧ y = .int n)) :
    deltaPct x y = (do
      let current ← y.operand
      let baseline ← x.operand
      let divisor ← x.operand
      let quotient ← (current.sub baseline).div divisor
      return quotient.mul (.finite 100)) := by
  cases x with
  | float x =>
    cases y with
    | float y => rfl
    | int n =>
      simp only [deltaPct, PyNum.sub, PyNum.operand, bind, Except.bind, pure, Except.pure]
      cases ofInt n <;> rfl
  | int m =>
    cases y with
    | int n => exact absurd ⟨rfl, rfl⟩ (h m n)
    | float y =>
      simp only [deltaPct, PyNum.sub, PyNum.operand, bind, Except.bind, pure, Except.pure]
      cases hm : ofInt m with
      | error exc => rfl
      | ok baseline =>
        simp only [PyNum.div, PyNum.operand, bind, Except.bind, hm]

/-- The delta is a number exactly for a baseline that divides. -/
theorem deltaPct_ok_iff (x y : PyNum) : (∃ delta, deltaPct x y = .ok delta) ↔ PyNum.Divisible x y := by
  unfold PyNum.Divisible
  cases x with
  | float x =>
    rw [deltaPct_floats (by simp)]
    cases y with
    | int n => exact floatDelta_ok_iff (.float x) (.int n)
    | float y => exact floatDelta_ok_iff (.float x) (.float y)
  | int m =>
    cases y with
    | float y =>
      rw [deltaPct_floats (by simp)]
      exact floatDelta_ok_iff (.int m) (.float y)
    | int n =>
      have hdelta : deltaPct (.int m) (.int n) = (PyNum.div (.int (n - m)) (.int m)).map
          fun quotient => quotient.mul (.finite 100) := by
        unfold deltaPct PyNum.sub
        simp only [bind, Except.bind, pure, Except.pure]
        cases PyNum.div (.int (n - m)) (.int m) <;> rfl
      rw [hdelta]
      unfold PyNum.div PyNum.isZero
      dsimp only
      by_cases hm : m = 0
      · rw [if_pos hm, decide_eq_true hm]
        simp [Except.map]
      · rw [if_neg hm, decide_eq_false hm]
        cases hquotient : PyFloat.nearest ((n - m : ℤ) / m) with
        | finite q => simp [Except.map]
        | posInf => simp [Except.map]
        | negInf => simp [Except.map]
        | nan => simp [Except.map]

end Deltas

section Lookups

/-- The fields of a dictionary. -/
def inner : Json → Fields
  | .obj fields => fields
  | _ => []

@[simp] theorem inner_obj (fields : Fields) : inner (.obj fields) = fields := rfl

/-- `value or {}` is a dictionary. -/
def LooksUp (value : Json) : Prop := value.truthy = true → ∃ fields, value = .obj fields

theorem getD_obj (fields : Fields) (key : String) (default : Json) :
    (Json.obj fields).getD key default = .ok ((fields.lookup key).getD default) := rfl

/-- Only a dictionary can be asked. -/
theorem getD_not_obj {value : Json} (h : ¬∃ fields, value = .obj fields) (key : String)
    (default : Json) : ∃ exc, value.getD key default = .error exc := by
  cases value with
  | obj fields => exact absurd ⟨fields, rfl⟩ h
  | null => exact ⟨_, rfl⟩
  | bool b => exact ⟨_, rfl⟩
  | num x => exact ⟨_, rfl⟩
  | str s => exact ⟨_, rfl⟩
  | arr items => exact ⟨_, rfl⟩

theorem inner_not_obj {value : Json} (h : ¬∃ fields, value = .obj fields) : inner value = [] := by
  cases value with
  | obj fields => exact absurd ⟨fields, rfl⟩ h
  | null => rfl
  | bool b => rfl
  | num x => rfl
  | str s => rfl
  | arr items => rfl

/-- Looking up in a datum or an empty dictionary. -/
theorem getD_or (value : Json) (key : String) :
    (LooksUp value → (if value.truthy then value else .obj []).getD key .null =
      .ok (get (inner value) key)) ∧
    (¬LooksUp value → ∃ exc, (if value.truthy then value else .obj []).getD key .null = .error exc) := by
  unfold LooksUp
  by_cases hobj : ∃ fields, value = .obj fields
  · obtain ⟨fields, rfl⟩ := hobj
    refine ⟨fun _ => ?_, fun h => absurd (fun _ => ⟨fields, rfl⟩) h⟩
    by_cases htruthy : (Json.obj fields).truthy = true
    · rw [if_pos htruthy]
      rfl
    · rw [if_neg htruthy]
      have hempty : fields = [] := by simpa [Json.truthy] using htruthy
      rw [hempty]
      rfl
  · by_cases htruthy : value.truthy = true
    · rw [if_pos htruthy]
      exact ⟨fun h => absurd (h htruthy) hobj, fun _ => getD_not_obj hobj key .null⟩
    · rw [if_neg htruthy, inner_not_obj hobj]
      exact ⟨fun _ => rfl, fun h => absurd (fun htrue => absurd htrue htruthy) h⟩

theorem getD_or_ok_iff {value : Json} {key : String} :
    (∃ found, (if value.truthy then value else .obj []).getD key .null = .ok found) ↔
      LooksUp value := by
  by_cases h : LooksUp value
  · exact ⟨fun _ => h, fun _ => ⟨_, (getD_or value key).1 h⟩⟩
  · obtain ⟨exc, hexc⟩ := (getD_or value key).2 h
    rw [hexc]
    refine ⟨?_, fun hlooks => absurd hlooks h⟩
    rintro ⟨found, hfound⟩
    cases hfound

/-- The fields that differ are those with other values, where the information is in
dictionaries. -/
theorem differ_eq {left right : Json} (hleft : LooksUp left) (hright : LooksUp right)
    (keys : List String) :
    ∃ names, differ left right keys = .ok names ∧
      ∀ key, key ∈ names ↔ key ∈ keys ∧ (get (inner left) key).equals (get (inner right) key) = false := by
  have hmap : ∀ keys : List String, (keys.mapM fun key => do
      let x ← (if left.truthy then left else .obj []).getD key .null
      let y ← (if right.truthy then right else .obj []).getD key .null
      return (key, x.equals y)) =
      .ok (keys.map fun key => (key, (get (inner left) key).equals (get (inner right) key))) := by
    intro keys
    induction keys with
    | nil => rfl
    | cons key keys ih =>
      rw [List.mapM_cons, ih, (getD_or left key).1 hleft, (getD_or right key).1 hright]
      rfl
  unfold differ
  rw [hmap]
  refine ⟨_, rfl, fun key => ?_⟩
  rw [List.mem_insertionSort]
  simp [and_comm]

/-- Where the fields are listed, the information is in dictionaries. -/
theorem differ_looksUp {left right : Json} {keys names : List String} (hkeys : keys ≠ [])
    (h : differ left right keys = .ok names) : LooksUp left ∧ LooksUp right := by
  obtain ⟨key, rest, rfl⟩ := List.exists_cons_of_ne_nil hkeys
  obtain ⟨differing, hmap, -⟩ := Verdict.bind_eq_ok.mp h
  cases Verdict.forall₂_of_mapM hmap with
  | cons hkey _ =>
    obtain ⟨x, hx, hrest⟩ := Verdict.bind_eq_ok.mp hkey
    obtain ⟨y, hy, -⟩ := Verdict.bind_eq_ok.mp hrest
    exact ⟨getD_or_ok_iff.mp ⟨x, hx⟩, getD_or_ok_iff.mp ⟨y, hy⟩⟩

end Lookups

section Medians

/-- The median of the wall time that a result records. -/
def p50Of (result : Json) : Option (Json × PyNum) :=
  if (get (inner result) "skipped").truthy then none
  else
    let p50 := get (inner (get (inner (get (inner result) "summaries")) "wall_time_ms")) "p50"
    p50.number?.map fun x => (p50, x)

/-- The number of the median. -/
def measured (result : Json) : Option PyNum := (p50Of result).map Prod.snd

/-- A result is skipped, or its summaries can be looked up. -/
def Readable (result : Json) : Prop :=
  (get (inner result) "skipped").truthy = true ∨
    LooksUp (get (inner result) "summaries") ∧
      LooksUp (get (inner (get (inner result) "summaries")) "wall_time_ms")

/-- Reading the median of a result ends exactly when it can be looked up. -/
theorem wallP50_spec (fields : Fields) :
    (Readable (.obj fields) → wallP50 (some (.obj fields)) = .ok (p50Of (.obj fields))) ∧
    (¬Readable (.obj fields) → ∃ exc, wallP50 (some (.obj fields)) = .error exc) := by
  have hget : ∀ key, (Json.obj fields).getD key .null = .ok (get fields key) := fun key => rfl
  unfold Readable wallP50 p50Of
  simp only [hget, bind, Except.bind, pure, Except.pure, inner_obj]
  by_cases hskipped : (get fields "skipped").truthy = true
  · simp [hskipped]
  · simp only [hskipped, Bool.false_eq_true, if_false, false_or]
    have hsummaries := getD_or (get fields "summaries") "wall_time_ms"
    by_cases hlooks : LooksUp (get fields "summaries")
    · rw [hsummaries.1 hlooks]
      dsimp only
      generalize get (inner (get fields "summaries")) "wall_time_ms" = summary
      have hp50 := getD_or summary "p50"
      by_cases htruthy : summary.truthy = true
      · rw [if_pos htruthy] at hp50 ⊢
        by_cases hsummary : LooksUp summary
        · rw [hp50.1 hsummary]
          exact ⟨fun _ => rfl, fun h => absurd ⟨hlooks, hsummary⟩ h⟩
        · obtain ⟨exc, hexc⟩ := hp50.2 hsummary
          rw [hexc]
          exact ⟨fun h => absurd h.2 hsummary, fun _ => ⟨exc, rfl⟩⟩
      · have hsummary : LooksUp summary := fun htrue => absurd htrue htruthy
        have hempty : inner summary = [] := by
          cases summary with
          | obj items =>
            rw [inner_obj]
            simpa [Json.truthy] using htruthy
          | null => rfl
          | bool b => rfl
          | num x => rfl
          | str s => rfl
          | arr items => rfl
        rw [if_neg htruthy, hempty]
        exact ⟨fun _ => rfl, fun h => absurd ⟨hlooks, hsummary⟩ h⟩
    · obtain ⟨exc, hexc⟩ := hsummaries.2 hlooks
      rw [hexc]
      exact ⟨fun h => absurd h.1 hlooks, fun _ => ⟨exc, rfl⟩⟩

/-- A result that was measured is not skipped, and has summaries. -/
theorem measured_summaries {fields : Fields} {p50 : Json × PyNum}
    (h : p50Of (.obj fields) = some p50) :
    (get fields "skipped").truthy = false ∧ (get fields "summaries").truthy = true := by
  unfold p50Of at h
  rw [inner_obj] at h
  split at h
  · cases h
  · rename_i hskipped
    refine ⟨by simpa using hskipped, ?_⟩
    cases hsummaries : get fields "summaries" with
    | obj summaries =>
      cases summaries with
      | nil =>
        rw [hsummaries] at h
        cases h
      | cons first rest => rfl
    | null => rw [hsummaries] at h; cases h
    | bool b => rw [hsummaries] at h; cases h
    | num x => rw [hsummaries] at h; cases h
    | str s => rw [hsummaries] at h; cases h
    | arr items => rw [hsummaries] at h; cases h

end Medians

section Dictionaries

/-- The results of a report. -/
def resultsOf (report : Fields) : List Json :=
  match report.lookup "results" with
  | some (.arr results) => results
  | _ => []

/-- The key of a result, where it can be one. -/
def keyOf (result : Json) : Option Key :=
  match (get (inner result) "group").atom, (get (inner result) "target").atom with
  | .ok group, .ok target => some ⟨group, target⟩
  | _, _ => none

/-- The result that is listed last for a key. -/
def lastFor (results : List Json) (key : Key) : Option Json :=
  Overrides.lastOf (results.filterMap fun result => (keyOf result).map fun key => (key, result)) key

/-- A dictionary of the results so far: the last result of every key, under a key that is one
of theirs. -/
structure Indexed (results : List Json) (entries : ByKey) : Prop where
  nodup : (entries.map Prod.fst).Nodup
  last : ∀ key, (entries.lookup key).map Entry.result = lastFor results key
  shown : ∀ entry ∈ entries, entry.2.group.atom = .ok entry.1.group ∧
    entry.2.target.atom = .ok entry.1.target ∧ oneOf groups entry.2.group = true

theorem Indexed.empty : Indexed [] [] :=
  ⟨List.nodup_nil, fun _ => rfl, fun entry h => absurd h List.not_mem_nil⟩

theorem item_of_get {fields : Fields} {key : String} (h : hasKey fields key = true) :
    (Json.obj fields).item key = .ok (get fields key) := by
  obtain ⟨found, hfound⟩ := Option.isSome_iff_exists.mp h
  unfold Json.item Schema.get
  simp only [hfound, Option.getD_some]

/-- What a valid result has as group and target. -/
theorem items_of_valid {result : Json} (h : ValidResult result) :
    result.item "group" = .ok (get (inner result) "group") ∧
      result.item "target" = .ok (get (inner result) "target") ∧
      oneOf groups (get (inner result) "group") = true := by
  obtain ⟨fields, rfl, hgroup, htarget, -⟩ := h
  refine ⟨item_of_get ?_, item_of_get htarget, hgroup⟩
  unfold hasKey
  cases hfound : fields.lookup "group" with
  | some found => rfl
  | none =>
    unfold Schema.get at hgroup
    rw [hfound] at hgroup
    cases hgroup

theorem keyOf_eq_some {result : Json} {key : Key} : keyOf result = some key ↔
    (get (inner result) "group").atom = .ok key.group ∧ (get (inner result) "target").atom = .ok key.target := by
  unfold keyOf
  cases (get (inner result) "group").atom with
  | error exc => simp
  | ok first =>
    cases (get (inner result) "target").atom with
    | error exc => simp
    | ok second =>
      obtain ⟨a, b⟩ := key
      simp

theorem lastFor_append (results : List Json) {result : Json} {key : Key}
    (h : keyOf result = some key) (k : Key) :
    lastFor (results ++ [result]) k = if k = key then some result else lastFor results k := by
  unfold lastFor
  have hone : ([result].filterMap fun result => (keyOf result).map fun key => (key, result)) =
      [(key, result)] := by simp [h]
  rw [List.filterMap_append, hone, Overrides.lastOf_append, Overrides.lastOf_cons]
  by_cases hk : k = key
  · simp [hk, Overrides.lastOf]
  · simp [hk, Overrides.lastOf]

theorem lastFor_isSome {results : List Json} {key : Key} :
    (lastFor results key).isSome = true ↔ ∃ result ∈ results, keyOf result = some key := by
  unfold lastFor Overrides.lastOf
  rw [← Overrides.mem_keys_iff, List.map_reverse, List.mem_reverse]
  simp only [List.mem_map, List.mem_filterMap, Option.map_eq_some_iff]
  constructor
  · rintro ⟨entry, ⟨result, hmem, found, hfound, rfl⟩, rfl⟩
    exact ⟨result, hmem, hfound⟩
  · rintro ⟨result, hmem, hkey⟩
    exact ⟨(key, result), ⟨result, hmem, key, hkey, rfl⟩, rfl⟩

theorem lastFor_mem {results : List Json} {key : Key} {result : Json}
    (h : lastFor results key = some result) : result ∈ results ∧ keyOf result = some key := by
  induction results using List.reverseRecOn with
  | nil => cases h
  | append_singleton results last ih =>
    cases hkey : keyOf last with
    | none =>
      have hsame : lastFor (results ++ [last]) key = lastFor results key := by
        unfold lastFor
        rw [List.filterMap_append]
        simp [hkey]
      rw [hsame] at h
      exact ⟨List.mem_append_left _ (ih h).1, (ih h).2⟩
    | some k =>
      rw [lastFor_append results hkey] at h
      split at h
      · rename_i heq
        cases h
        exact ⟨List.mem_append_right _ (List.mem_singleton_self _), heq ▸ hkey⟩
      · exact ⟨List.mem_append_left _ (ih h).1, (ih h).2⟩

/-- One more result in the dictionary. -/
theorem Indexed.add {results : List Json} {entries : ByKey} (h : Indexed results entries)
    {result : Json} (hvalid : ValidResult result) {key : Key} (hkey : keyOf result = some key) :
    ∃ next, addResult entries result = .ok next ∧ Indexed (results ++ [result]) next := by
  obtain ⟨hgroup, htarget, hone⟩ := items_of_valid hvalid
  obtain ⟨hfirst, hsecond⟩ := keyOf_eq_some.mp hkey
  -- the object that the key stays, or becomes
  have hentry : ∃ entry : Entry, addResult entries result = .ok (Overrides.insert key entry entries) ∧
      entry.result = result ∧ entry.group.atom = .ok key.group ∧ entry.target.atom = .ok key.target ∧
      oneOf groups entry.group = true := by
    unfold addResult
    simp only [hgroup, htarget, hfirst, hsecond, bind, Except.bind, pure, Except.pure]
    cases hold : entries.lookup key with
    | some old =>
      obtain ⟨hshown, hshown', hgroups⟩ := h.shown _ (Overrides.mem_of_lookup hold)
      exact ⟨⟨old.group, old.target, result⟩, rfl, rfl, hshown, hshown', hgroups⟩
    | none => exact ⟨⟨_, _, result⟩, rfl, rfl, hfirst, hsecond, hone⟩
  obtain ⟨entry, hadd, hresult, hshown⟩ := hentry
  refine ⟨_, hadd, Overrides.nodup_insert _ h.nodup, ?_, ?_⟩
  · intro k
    rw [Overrides.lookup_insert, lastFor_append results hkey]
    split
    · rw [← hresult]
      rfl
    · exact h.last k
  · intro other hmem
    rcases Overrides.mem_insert hmem with rfl | hold
    · exact hshown
    · exact h.shown other hold

/-- Results that can all be keys make a dictionary. -/
theorem Indexed.addAll {done entries} (h : Indexed done entries) {results : List Json}
    (hvalid : ∀ result ∈ results, ValidResult result)
    (hkeys : ∀ result ∈ results, ∃ key, keyOf result = some key) :
    ∃ last, results.foldlM addResult entries = .ok last ∧ Indexed (done ++ results) last := by
  induction results generalizing done entries with
  | nil => exact ⟨entries, rfl, by rwa [List.append_nil]⟩
  | cons result rest ih =>
    obtain ⟨hthis, hrest⟩ := List.forall_mem_cons.mp hvalid
    obtain ⟨hkey, hkeysRest⟩ := List.forall_mem_cons.mp hkeys
    obtain ⟨key, hkey⟩ := hkey
    obtain ⟨next, hadd, hnext⟩ := h.add hthis hkey
    obtain ⟨last, hfold, hlast⟩ := ih hnext hrest hkeysRest
    refine ⟨last, ?_, ?_⟩
    · rw [List.foldlM_cons, hadd]
      exact hfold
    · rw [List.append_assoc] at hlast
      exact hlast

/-- A result that is added can be a key. -/
theorem keyOf_of_addResult {entries next : ByKey} {result : Json} (hvalid : ValidResult result)
    (h : addResult entries result = .ok next) : ∃ key, keyOf result = some key := by
  obtain ⟨hgroup, htarget, -⟩ := items_of_valid hvalid
  obtain ⟨group, hitem, h⟩ := Verdict.bind_eq_ok.mp h
  obtain ⟨target, hitem', h⟩ := Verdict.bind_eq_ok.mp h
  obtain ⟨first, hfirst, h⟩ := Verdict.bind_eq_ok.mp h
  obtain ⟨second, hsecond, -⟩ := Verdict.bind_eq_ok.mp h
  rw [hgroup] at hitem
  rw [htarget] at hitem'
  cases hitem
  cases hitem'
  exact ⟨⟨first, second⟩, keyOf_eq_some.mpr ⟨hfirst, hsecond⟩⟩

/-- The dictionary of a valid report. -/
theorem byKey_spec {report : Fields} (hvalid : ValidReport report) :
    ((∀ result ∈ resultsOf report, ∃ key, keyOf result = some key) →
      ∃ entries, byKey report = .ok entries ∧ Indexed (resultsOf report) entries) ∧
    (∀ entries, byKey report = .ok entries →
      ∀ result ∈ resultsOf report, ∃ key, keyOf result = some key) := by
  obtain ⟨results, hfound, hresults⟩ := hvalid.results
  have hof : resultsOf report = results := by
    unfold resultsOf
    rw [hfound]
  have hby : byKey report = results.foldlM addResult [] := by
    unfold byKey
    rw [hfound]
    rfl
  rw [hof, hby]
  refine ⟨fun hkeys => Indexed.empty.addAll hresults hkeys, ?_⟩
  intro entries hfold result hmem
  exact @Verdict.forall_of_foldlM _ _ _ addResult
    (fun result => ValidResult result → ∃ key, keyOf result = some key)
    (fun _ _ _ hstep hone => keyOf_of_addResult hone hstep) results [] entries hfold result hmem
    (hresults result hmem)

end Dictionaries

section Sorting

theorem Atom.lt_isOk_comm (a b : Atom) : (a.lt b).isOk = (b.lt a).isOk := by
  cases a <;> cases b <;> rfl

theorem ordered_comm (x y : Key) : ordered x y = ordered y x := by
  unfold ordered keyLt
  by_cases hgroup : x.group = y.group
  · by_cases htarget : x.target = y.target
    · simp [hgroup, htarget]
    · simp [hgroup, htarget, Ne.symm htarget, Atom.lt_isOk_comm x.target]
  · simp [hgroup, Ne.symm hgroup, Atom.lt_isOk_comm x.group]

theorem ordered_self (x : Key) : ordered x x = true := by
  simp [ordered, keyLt, Except.isOk, Except.toBool]

/-- All keys of two dictionaries, each of them once. -/
theorem keys_of_indexed {olds news : List Json} {baseline current : ByKey}
    (hbaseline : Indexed olds baseline) (hcurrent : Indexed news current) {keys : ByKey}
    (hkeys : keys = baseline ++ current.filter fun entry => !(baseline.lookup entry.1).isSome) :
    (keys.map Prod.fst).Nodup ∧
      ∀ key, key ∈ keys.map Prod.fst ↔ ∃ result ∈ olds ++ news, keyOf result = some key := by
  have hin : ∀ {results : List Json} {entries : ByKey}, Indexed results entries → ∀ key,
      key ∈ entries.map Prod.fst ↔ ∃ result ∈ results, keyOf result = some key := by
    intro results entries h key
    rw [Overrides.mem_keys_iff, ← lastFor_isSome, ← h.last key, Option.isSome_map]
  subst hkeys
  rw [List.map_append]
  constructor
  · refine List.Nodup.append hbaseline.nodup (hcurrent.nodup.sublist ?_) ?_
    · exact List.filter_sublist.map _
    · intro key hold hnew
      obtain ⟨entry, hentry, rfl⟩ := List.mem_map.mp hnew
      have hnot := (List.mem_filter.mp hentry).2
      rw [Overrides.mem_keys_iff.mp hold] at hnot
      cases hnot
  · intro key
    simp only [List.mem_append, or_and_right, exists_or]
    rw [← hin hbaseline key, ← hin hcurrent key]
    refine ⟨Or.imp_right fun hmem => ?_, fun h => ?_⟩
    · exact ((List.filter_sublist.map _).subset hmem)
    · by_cases hold : key ∈ baseline.map Prod.fst
      · exact .inl hold
      · rcases h with h | hmem
        · exact absurd h hold
        · obtain ⟨entry, hentry, rfl⟩ := List.mem_map.mp hmem
          refine .inr (List.mem_map_of_mem (List.mem_filter.mpr ⟨hentry, ?_⟩))
          rw [Overrides.mem_keys_iff] at hold
          rw [Bool.eq_false_iff.mpr hold]
          rfl

/-- The keys can be sorted exactly when every two can be ordered. -/
theorem sortedKeys_spec (baseline current : ByKey) {keys : ByKey}
    (hkeys : keys = baseline ++ current.filter fun entry => !(baseline.lookup entry.1).isSome) :
    ((∀ x ∈ keys, ∀ y ∈ keys, ordered x.1 y.1 = true) →
      ∃ sorted, sortedKeys baseline current = .ok sorted ∧ sorted.Perm keys) ∧
    (∀ sorted, sortedKeys baseline current = .ok sorted →
      ∀ x ∈ keys, ∀ y ∈ keys, ordered x.1 y.1 = true) := by
  subst hkeys
  unfold sortedKeys
  dsimp only
  constructor
  · intro h
    rw [if_pos (List.pairwise_of_forall_mem_list h)]
    exact ⟨_, rfl, List.perm_insertionSort _ _⟩
  · intro sorted h
    split at h
    · rename_i hpair
      have hflip : (baseline ++ current.filter fun entry =>
          !(baseline.lookup entry.1).isSome).Pairwise
            (flip fun x y => ordered x.1 y.1 = true) := by
        refine hpair.imp fun {x y} hxy => ?_
        rwa [flip, ordered_comm]
      intro x hx y hy
      exact List.Pairwise.forall_of_forall_of_flip (fun a _ => ordered_self a.1) hpair hflip hx hy
    · cases h

end Sorting

section Rows

variable {baseline current : Option Json} {threshold : PyFloat} {key : Key}

/-- What is said of a key whose results are these. -/
inductive Told (baseline current : Option Json) (threshold : PyFloat) (key : Key) : Row → Prop
  | skipped {reason : String} (hreason : reason ≠ "")
      (hnot : baseline.bind p50Of = none ∨ current.bind p50Of = none) :
      Told baseline current threshold key (.skipped reason)
  | compared {result first second : Json} {x y : PyNum} {delta : PyFloat}
      (hbaseline : baseline.bind p50Of = some (first, x)) (hcurrent : current = some result)
      (hp50 : p50Of result = some (second, y)) (hdelta : deltaPct x y = .ok delta) :
      Told baseline current threshold key (.compared (judge key delta threshold) first second delta
        (((inner result).lookup "runs").getD (.arr [])) (get (inner result) "summaries"))

theorem wallP50_option {result : Option Json} (hobj : ∀ r ∈ result, ∃ fields, r = .obj fields) :
    ((∀ r ∈ result, Readable r) → wallP50 result = .ok (result.bind p50Of)) ∧
      ∀ found, wallP50 result = .ok found → ∀ r ∈ result, Readable r := by
  cases result with
  | none => exact ⟨fun _ => rfl, fun _ _ r hr => by cases hr⟩
  | some r =>
    obtain ⟨fields, rfl⟩ := hobj r rfl
    obtain ⟨hok, herror⟩ := wallP50_spec fields
    refine ⟨fun h => hok (h _ rfl), ?_⟩
    intro found hfound r hr
    cases hr
    by_contra hnot
    obtain ⟨exc, hexc⟩ := herror hnot
    rw [hexc] at hfound
    cases hfound

/-- The medians of the last results can be read, and where both were measured the baseline
divides. -/
structure Acceptable (baseline current : Option Json) : Prop where
  readableBaseline : ∀ r ∈ baseline, Readable r
  readableCurrent : ∀ r ∈ current, Readable r
  divisible : ∀ x ∈ baseline.bind measured, ∀ y ∈ current.bind measured, PyNum.Divisible x y

theorem bind_measured (result : Option Json) :
    result.bind measured = (result.bind p50Of).map Prod.snd := by
  cases result <;> rfl

/-- A key has a row exactly when its results are acceptable. -/
theorem rowFor_spec {olds news : ByKey} (holds : (olds.lookup key).map Entry.result = baseline)
    (hnews : (news.lookup key).map Entry.result = current)
    (hbaseline : ∀ r ∈ baseline, ∃ fields, r = .obj fields)
    (hcurrent : ∀ r ∈ current, ∃ fields, r = .obj fields) :
    (Acceptable baseline current →
      ∃ row, rowFor olds news threshold key = .ok row ∧ Told baseline current threshold key row) ∧
    (∀ row, rowFor olds news threshold key = .ok row → Acceptable baseline current) := by
  have hfirst := wallP50_option hbaseline
  have hsecond := wallP50_option hcurrent
  unfold rowFor
  rw [holds, hnews]
  constructor
  · rintro ⟨hreadB, hreadC, hdivisible⟩
    rw [bind_measured, bind_measured] at hdivisible
    simp only [hfirst.1 hreadB, hsecond.1 hreadC, bind, Except.bind]
    cases hb : baseline.bind p50Of with
    | none =>
      cases hc : current.bind p50Of with
      | none => exact ⟨_, rfl, .skipped (by decide) (.inl hb)⟩
      | some second => exact ⟨_, rfl, .skipped (by decide) (.inl hb)⟩
    | some first =>
      cases hc : current.bind p50Of with
      | none => exact ⟨_, rfl, .skipped (by decide) (.inr hc)⟩
      | some second =>
        obtain ⟨first, x⟩ := first
        obtain ⟨second, y⟩ := second
        obtain ⟨result, rfl, hp50⟩ := Option.bind_eq_some_iff.mp hc
        obtain ⟨fields, rfl⟩ := hcurrent result rfl
        obtain ⟨delta, hdelta⟩ := (deltaPct_ok_iff x y).mpr
          (hdivisible x (by rw [hb]; rfl) y (by rw [hc]; rfl))
        have hsummaries := (measured_summaries hp50).2
        refine ⟨_, ?_, .compared hb rfl hp50 hdelta⟩
        have hstored : currentSummaries (.obj fields) = .ok (get fields "summaries") := by
          unfold currentSummaries
          simp only [getD_obj, bind, Except.bind]
          exact if_pos hsummaries
        simp only [hdelta, hstored, getD_obj]
        rfl
  · intro row h
    obtain ⟨foundB, hfoundB, h⟩ := Verdict.bind_eq_ok.mp h
    obtain ⟨foundC, hfoundC, h⟩ := Verdict.bind_eq_ok.mp h
    have hreadB := hfirst.2 foundB hfoundB
    have hreadC := hsecond.2 foundC hfoundC
    refine ⟨hreadB, hreadC, ?_⟩
    rw [hfirst.1 hreadB] at hfoundB
    rw [hsecond.1 hreadC] at hfoundC
    cases hfoundB
    cases hfoundC
    rw [bind_measured, bind_measured]
    intro x hx y hy
    obtain ⟨first, hb, rfl⟩ := Option.map_eq_some_iff.mp hx
    obtain ⟨second, hc, rfl⟩ := Option.map_eq_some_iff.mp hy
    obtain ⟨result, rfl, hp50⟩ := Option.bind_eq_some_iff.mp hc
    rw [hb, hc] at h
    obtain ⟨delta, hdelta, -⟩ := Verdict.bind_eq_ok.mp h
    exact (deltaPct_ok_iff _ _).mp ⟨delta, hdelta⟩

end Rows

section Reports

variable (repr : Json → String) (baseline current : Fields) (threshold : PyFloat)

/-- The environments of two reports differ. -/
def Differs : Prop :=
  (∃ key ∈ envKeys, (get (inner (get baseline "system_info")) key).equals
    (get (inner (get current "system_info")) key) = false) ∨
  ∃ key ∈ runtimeKeys, (get (inner (get baseline "runtime_info")) key).equals
    (get (inner (get current "runtime_info")) key) = false

/-- A core target was measured on both sides, and its delta is above the threshold. -/
def Regressed : Prop :=
  ∃ key x y delta, categoryFor key = "core" ∧
    x ∈ (lastFor (resultsOf baseline) key).bind measured ∧
    y ∈ (lastFor (resultsOf current) key).bind measured ∧
    deltaPct x y = .ok delta ∧ threshold.lt delta = true

/-- The comparison is a valid report, every key of either side has exactly one result in it,
and the exit code says whether the environments differ, and else whether a core target
regressed. -/
structure Faithful (report : Fields) : Prop where
  valid : validateReport repr report = []
  covers : ∀ key, (∃ result ∈ resultsOf baseline ++ resultsOf current, keyOf result = some key) →
    ((resultsOf report).filter fun result => decide (keyOf result = some key)).length = 1
  exit : ∃ code : ℤ, get (inner (get report "compare")) "exit_code" = .num (.int code) ∧
    (Differs baseline current → code = 2) ∧
    (¬Differs baseline current → Regressed baseline current threshold → code = 1) ∧
    (¬Differs baseline current → ¬Regressed baseline current threshold → code = 0)

/-- Two reports can be compared: their targets can be keys of a dictionary and can be sorted,
the medians can be read and divide where they are needed, and the information on the
environments is in dictionaries. -/
structure Comparable : Prop where
  hashable : ∀ result ∈ resultsOf baseline ++ resultsOf current, ∃ key, keyOf result = some key
  sortable : ∀ first ∈ resultsOf baseline ++ resultsOf current,
    ∀ second ∈ resultsOf baseline ++ resultsOf current, ∀ x ∈ keyOf first, ∀ y ∈ keyOf second,
      ordered x y = true
  acceptable : ∀ result ∈ resultsOf baseline ++ resultsOf current, ∀ key ∈ keyOf result,
    Acceptable (lastFor (resultsOf baseline) key) (lastFor (resultsOf current) key)
  system : LooksUp (get baseline "system_info") ∧ LooksUp (get current "system_info")
  runtime : LooksUp (get baseline "runtime_info") ∧ LooksUp (get current "runtime_info")

variable {repr baseline current threshold}

theorem get_insert (key : String) (value : Json) (fields : Fields) (wanted : String) :
    get (Overrides.insert key value fields) wanted =
      if wanted = key then value else get fields wanted := by
  unfold Schema.get
  rw [Overrides.lookup_insert]
  split <;> rfl

theorem hasKey_insert (key : String) (value : Json) (fields : Fields) (wanted : String) :
    hasKey (Overrides.insert key value fields) wanted =
      (decide (wanted = key) || hasKey fields wanted) := by
  unfold hasKey
  rw [Overrides.lookup_insert]
  by_cases h : wanted = key
  · simp [h]
  · simp [h]

theorem ne_nil_iff {α : Type} {items : List α} : items ≠ [] ↔ ∃ item, item ∈ items :=
  ⟨List.exists_mem_of_ne_nil items, fun ⟨_, hmem⟩ => List.ne_nil_of_mem hmem⟩

/-- What the lines of a comparison are made of. -/
structure Drawn (baseline current : Fields) (threshold : PyFloat) (line : Line) : Prop where
  group : line.group.atom = .ok line.key.group
  target : line.target.atom = .ok line.key.target
  known : oneOf groups line.group = true
  told : Told (lastFor (resultsOf baseline) line.key) (lastFor (resultsOf current) line.key)
    threshold line.key line.row

/-- The result of a line has its key. -/
theorem Drawn.keyOf_result {line : Line} (h : Drawn baseline current threshold line) :
    keyOf line.result = some line.key := by
  rw [keyOf_eq_some]
  unfold Line.result
  cases line.row with
  | skipped reason => exact ⟨h.group, h.target⟩
  | compared verdict first second delta runs summaries => exact ⟨h.group, h.target⟩

/-- The result of a line is valid, where the current results are. -/
theorem Drawn.valid {line : Line} (h : Drawn baseline current threshold line)
    (hvalid : ∀ result ∈ resultsOf current, ValidResult result) : ValidResult line.result := by
  have htold := h.told
  unfold Line.result
  cases hrow : line.row with
  | skipped reason =>
    rw [hrow] at htold
    cases htold with
    | skipped hreason _ =>
      refine ⟨_, rfl, h.known, rfl, ?_⟩
      have htruthy : (Json.str reason).truthy = true := by simpa [Json.truthy] using hreason
      exact htruthy
  | compared verdict first second delta runs summaries =>
    rw [hrow] at htold
    cases htold with
    | @compared result _ _ x y _ hbaseline hcurrent hp50 hdelta =>
      obtain ⟨hmem, -⟩ := lastFor_mem hcurrent
      obtain ⟨fields, rfl, -, -, hruns⟩ := hvalid result hmem
      rw [(measured_summaries hp50).1, if_neg Bool.false_ne_true] at hruns
      obtain ⟨-, run, rest, hfound, hall⟩ := hruns
      have hlookup : fields.lookup "runs" = some (.arr (run :: rest)) := by
        unfold Schema.get at hfound
        cases hl : fields.lookup "runs" with
        | none =>
          rw [hl] at hfound
          cases hfound
        | some found =>
          rw [hl] at hfound
          exact congrArg some hfound
      refine ⟨_, rfl, h.known, rfl, ?_⟩
      have hnot : ¬(Json.null).truthy = true := by decide
      refine (if_neg hnot).mpr ?_
      refine ⟨rfl, run, rest, ?_, hall⟩
      show (fields.lookup "runs").getD (.arr []) = _
      rw [hlookup]
      rfl

/-- A line is flagged as a regression when a core target was measured above the threshold. -/
theorem Drawn.flagged_iff {line : Line} (h : Drawn baseline current threshold line) :
    (line.flagged .regression).isSome = true ↔ ∃ x y delta, categoryFor line.key = "core" ∧
      x ∈ (lastFor (resultsOf baseline) line.key).bind measured ∧
      y ∈ (lastFor (resultsOf current) line.key).bind measured ∧
      deltaPct x y = .ok delta ∧ threshold.lt delta = true := by
  have htold := h.told
  unfold Line.flagged
  rw [bind_measured, bind_measured]
  cases hrow : line.row with
  | skipped reason =>
    rw [hrow] at htold
    cases htold with
    | skipped _ hnot =>
      refine ⟨fun hsome => absurd hsome Bool.false_ne_true, ?_⟩
      rintro ⟨x, y, delta, -, hx, hy, -, -⟩
      obtain ⟨first, hb, -⟩ := Option.map_eq_some_iff.mp hx
      obtain ⟨second, hc, -⟩ := Option.map_eq_some_iff.mp hy
      rcases hnot with hnone | hnone
      · rw [hnone] at hb
        cases hb
      · rw [hnone] at hc
        cases hc
  | compared verdict first second delta runs summaries =>
    rw [hrow] at htold
    cases htold with
    | @compared result _ _ x y _ hbaseline hcurrent hp50 hdelta =>
      have hcurrent' : (lastFor (resultsOf current) line.key).bind p50Of = some (second, y) := by
        rw [hcurrent]
        exact hp50
      rw [hbaseline, hcurrent']
      dsimp only
      have hjudge : judge line.key delta threshold = .regression ↔
          categoryFor line.key = "core" ∧ threshold.lt delta = true := by
        unfold judge
        by_cases hlt : threshold.lt delta = true
        · by_cases hcore : categoryFor line.key = "core"
          · simp [hlt, hcore]
          · simp [hlt, hcore]
        · simp [hlt]
      constructor
      · intro hsome
        have hregression : judge line.key delta threshold = .regression := by
          by_contra hnot
          rw [if_neg hnot] at hsome
          cases hsome
        obtain ⟨hcore, hlt⟩ := hjudge.mp hregression
        exact ⟨x, y, delta, hcore, rfl, rfl, hdelta, hlt⟩
      · rintro ⟨x', y', delta', hcore, hx, hy, hdelta', hlt⟩
        cases hx
        cases hy
        rw [hdelta] at hdelta'
        cases hdelta'
        rw [if_pos (hjudge.mpr ⟨hcore, hlt⟩)]
        rfl

/-- The exit code of the lines. -/
theorem exitCode_spec {lines : List Line} {envDiv runtimeDiv : List String}
    (hdrawn : ∀ line ∈ lines, Drawn baseline current threshold line)
    (hkeys : ∀ key, key ∈ lines.map Line.key ↔
      ∃ result ∈ resultsOf baseline ++ resultsOf current, keyOf result = some key)
    (hdiffers : envDiv ≠ [] ∨ runtimeDiv ≠ [] ↔ Differs baseline current) {code : ℤ}
    (hcode : code = exitCode envDiv runtimeDiv
      (lines.filterMap fun line => line.flagged .regression)) :
    (Differs baseline current → code = 2) ∧
      (¬Differs baseline current → Regressed baseline current threshold → code = 1) ∧
      (¬Differs baseline current → ¬Regressed baseline current threshold → code = 0) := by
  have hregressed : (lines.filterMap fun line => line.flagged .regression) ≠ [] ↔
      Regressed baseline current threshold := by
    rw [ne_nil_iff]
    constructor
    · rintro ⟨entry, hentry⟩
      obtain ⟨line, hline, hflagged⟩ := List.mem_filterMap.mp hentry
      have hsome : (line.flagged .regression).isSome = true := by rw [hflagged]; rfl
      exact ⟨line.key, (hdrawn line hline).flagged_iff.mp hsome⟩
    · rintro ⟨key, x, y, delta, hcore, hx, hy, hdelta, hlt⟩
      obtain ⟨result, hresult, hmeasured⟩ := Option.bind_eq_some_iff.mp hx
      obtain ⟨hmem, hkey⟩ := lastFor_mem hresult
      obtain ⟨line, hline, rfl⟩ := List.mem_map.mp
        ((hkeys key).mpr ⟨result, List.mem_append_left _ hmem, hkey⟩)
      have hsome := (hdrawn line hline).flagged_iff.mpr ⟨x, y, delta, hcore, hx, hy, hdelta, hlt⟩
      obtain ⟨entry, hentry⟩ := Option.isSome_iff_exists.mp hsome
      exact ⟨entry, List.mem_filterMap.mpr ⟨line, hline, hentry⟩⟩
  unfold exitCode at hcode
  refine ⟨fun h => ?_, fun h hreg => ?_, fun h hreg => ?_⟩
  · rw [hcode, if_pos (hdiffers.mpr h)]
  · rw [hcode, if_neg (mt hdiffers.mp h), if_pos (hregressed.mpr hreg)]
  · rw [hcode, if_neg (mt hdiffers.mp h), if_neg (mt hregressed.mp hreg)]

variable (hbaseline : ValidReport baseline) (hcurrent : ValidReport current)
include hbaseline hcurrent

theorem valid_results : ∀ result ∈ resultsOf baseline ++ resultsOf current, ValidResult result := by
  have hof : ∀ {report : Fields}, ValidReport report → ∀ result ∈ resultsOf report,
      ValidResult result := by
    intro report h result hmem
    obtain ⟨results, hfound, hall⟩ := h.results
    unfold resultsOf at hmem
    rw [hfound] at hmem
    exact hall result hmem
  intro result hmem
  rcases List.mem_append.mp hmem with h | h
  · exact hof hbaseline result h
  · exact hof hcurrent result h

/-- The last results of a key are dictionaries. -/
theorem lastFor_obj (key : Key) :
    (∀ r ∈ lastFor (resultsOf baseline) key, ∃ fields, r = .obj fields) ∧
      ∀ r ∈ lastFor (resultsOf current) key, ∃ fields, r = .obj fields := by
  have hvalid := valid_results hbaseline hcurrent
  constructor
  · intro r hr
    obtain ⟨fields, hfields, -⟩ := hvalid r (List.mem_append_left _ (lastFor_mem hr).1)
    exact ⟨fields, hfields⟩
  · intro r hr
    obtain ⟨fields, hfields, -⟩ := hvalid r (List.mem_append_right _ (lastFor_mem hr).1)
    exact ⟨fields, hfields⟩

/-- A comparison that ends shows that the reports can be compared. -/
theorem comparable_of_ok {live : Bool} {report : Fields}
    (h : compareReports baseline current threshold live = .ok report) :
    Comparable baseline current := by
  obtain ⟨olds, holds, h⟩ := Verdict.bind_eq_ok.mp h
  obtain ⟨news, hnews, h⟩ := Verdict.bind_eq_ok.mp h
  obtain ⟨sorted, hsorted, h⟩ := Verdict.bind_eq_ok.mp h
  obtain ⟨lines, hlines, h⟩ := Verdict.bind_eq_ok.mp h
  obtain ⟨envDiv, henv, h⟩ := Verdict.bind_eq_ok.mp h
  obtain ⟨runtimeDiv, hruntime, -⟩ := Verdict.bind_eq_ok.mp h
  obtain ⟨hmakeOld, hkeyedOld⟩ := byKey_spec hbaseline
  obtain ⟨hmakeNew, hkeyedNew⟩ := byKey_spec hcurrent
  have hkeyed : ∀ result ∈ resultsOf baseline ++ resultsOf current, ∃ key, keyOf result = some key := by
    intro result hmem
    rcases List.mem_append.mp hmem with hold | hnew
    · exact hkeyedOld olds holds result hold
    · exact hkeyedNew news hnews result hnew
  obtain ⟨olds', holds', hindexedOld⟩ := hmakeOld fun r hr => hkeyed r (List.mem_append_left _ hr)
  obtain ⟨news', hnews', hindexedNew⟩ := hmakeNew fun r hr => hkeyed r (List.mem_append_right _ hr)
  rw [holds] at holds'
  rw [hnews] at hnews'
  cases holds'
  cases hnews'
  obtain ⟨-, hmem⟩ := keys_of_indexed hindexedOld hindexedNew rfl
  obtain ⟨hsort, hordered⟩ := sortedKeys_spec olds news rfl
  have hall := hordered sorted hsorted
  obtain ⟨sorted', hsorted', hperm⟩ := hsort hall
  rw [hsorted] at hsorted'
  cases hsorted'
  have hkey : ∀ result ∈ resultsOf baseline ++ resultsOf current, ∀ key ∈ keyOf result,
      ∃ entry ∈ sorted, entry.1 = key := by
    intro result hresult key hk
    obtain ⟨entry, hentry, heq⟩ := List.mem_map.mp ((hmem key).mpr ⟨result, hresult, hk⟩)
    exact ⟨entry, hperm.mem_iff.mpr hentry, heq⟩
  refine ⟨hkeyed, ?_, ?_, differ_looksUp (by decide) henv, differ_looksUp (by decide) hruntime⟩
  · intro first hfirst second hsecond x hx y hy
    obtain ⟨a, ha, rfl⟩ := hkey first hfirst x hx
    obtain ⟨b, hb, rfl⟩ := hkey second hsecond y hy
    exact hall a (hperm.mem_iff.mp ha) b (hperm.mem_iff.mp hb)
  · intro result hresult key hk
    obtain ⟨entry, hentry, rfl⟩ := hkey result hresult key hk
    obtain ⟨line, -, hline⟩ := (Verdict.mem_of_forall₂ (Verdict.forall₂_of_mapM hlines)).1
      entry hentry
    obtain ⟨row, hrow, -⟩ := Verdict.bind_eq_ok.mp hline
    obtain ⟨hobjOld, hobjNew⟩ := lastFor_obj hbaseline hcurrent entry.1
    exact (rowFor_spec (hindexedOld.last entry.1) (hindexedNew.last entry.1) hobjOld hobjNew).2
      row hrow

/-- Reports that can be compared are: every key has a line, and the environments are compared. -/
theorem compare_ok (h : Comparable baseline current) (threshold : PyFloat) (live : Bool) :
    ∃ (lines : List Line) (envDiv runtimeDiv : List String),
      compareReports baseline current threshold live = .ok (Overrides.insert "compare"
        (.obj (comparisonOf baseline current threshold live lines envDiv runtimeDiv))
        (Overrides.insert "results" (.arr (lines.map Line.result)) current)) ∧
      (∀ line ∈ lines, Drawn baseline current threshold line) ∧ (lines.map Line.key).Nodup ∧
      (∀ key, key ∈ lines.map Line.key ↔
        ∃ result ∈ resultsOf baseline ++ resultsOf current, keyOf result = some key) ∧
      (envDiv ≠ [] ∨ runtimeDiv ≠ [] ↔ Differs baseline current) := by
  obtain ⟨olds, holds, hindexedOld⟩ := (byKey_spec hbaseline).1
    fun r hr => h.hashable r (List.mem_append_left _ hr)
  obtain ⟨news, hnews, hindexedNew⟩ := (byKey_spec hcurrent).1
    fun r hr => h.hashable r (List.mem_append_right _ hr)
  obtain ⟨hnodup, hmem⟩ := keys_of_indexed hindexedOld hindexedNew rfl
  have hkeyed : ∀ entry ∈ olds ++ news.filter (fun entry => !(olds.lookup entry.1).isSome),
      ∃ result ∈ resultsOf baseline ++ resultsOf current, keyOf result = some entry.1 :=
    fun entry hentry => (hmem entry.1).mp (List.mem_map_of_mem hentry)
  obtain ⟨sorted, hsorted, hperm⟩ := (sortedKeys_spec olds news rfl).1 <| by
    intro x hx y hy
    obtain ⟨first, hfirst, hkx⟩ := hkeyed x hx
    obtain ⟨second, hsecond, hky⟩ := hkeyed y hy
    exact h.sortable first hfirst second hsecond _ hkx _ hky
  have hrow : ∀ entry ∈ sorted, ∃ row, rowFor olds news threshold entry.1 = .ok row ∧
      Told (lastFor (resultsOf baseline) entry.1) (lastFor (resultsOf current) entry.1) threshold
        entry.1 row := by
    intro entry hentry
    obtain ⟨result, hresult, hkey⟩ := hkeyed entry (hperm.mem_iff.mp hentry)
    obtain ⟨hobjOld, hobjNew⟩ := lastFor_obj hbaseline hcurrent entry.1
    exact (rowFor_spec (hindexedOld.last entry.1) (hindexedNew.last entry.1) hobjOld hobjNew).1
      (h.acceptable result hresult _ hkey)
  obtain ⟨lines, hlines⟩ := @Verdict.mapM_ok _ _ _ (fun entry => do
      let row ← rowFor olds news threshold entry.1
      return (⟨entry.1, entry.2.group, entry.2.target, row⟩ : Line)) sorted <| by
    intro entry hentry
    obtain ⟨row, hok, -⟩ := hrow entry hentry
    exact ⟨_, Verdict.bind_eq_ok.mpr ⟨row, hok, rfl⟩⟩
  have hpairs := Verdict.forall₂_of_mapM hlines
  have hkeys : lines.map Line.key = sorted.map Prod.fst := by
    refine Verdict.map_eq_of_forall₂ hpairs fun entry line hline => ?_
    obtain ⟨row, -, hpure⟩ := Verdict.bind_eq_ok.mp hline
    cases hpure
    rfl
  obtain ⟨envDiv, henv, henvMem⟩ := differ_eq h.system.1 h.system.2 envKeys
  obtain ⟨runtimeDiv, hruntime, hruntimeMem⟩ := differ_eq h.runtime.1 h.runtime.2 runtimeKeys
  refine ⟨lines, envDiv, runtimeDiv, ?_, ?_, ?_, ?_, ?_⟩
  · unfold compareReports
    refine Verdict.bind_eq_ok.mpr ⟨olds, holds, Verdict.bind_eq_ok.mpr ⟨news, hnews, ?_⟩⟩
    refine Verdict.bind_eq_ok.mpr ⟨sorted, hsorted, Verdict.bind_eq_ok.mpr ⟨lines, hlines, ?_⟩⟩
    exact Verdict.bind_eq_ok.mpr ⟨envDiv, henv, Verdict.bind_eq_ok.mpr ⟨runtimeDiv, hruntime, rfl⟩⟩
  · intro line hline
    obtain ⟨entry, hentry, hmade⟩ := (Verdict.mem_of_forall₂ hpairs).2 line hline
    obtain ⟨row, hok, hpure⟩ := Verdict.bind_eq_ok.mp hmade
    cases hpure
    obtain ⟨row', hok', htold⟩ := hrow entry hentry
    rw [hok] at hok'
    cases hok'
    have hshown : entry.2.group.atom = .ok entry.1.group ∧
        entry.2.target.atom = .ok entry.1.target ∧ oneOf groups entry.2.group = true := by
      rcases List.mem_append.mp (hperm.mem_iff.mp hentry) with hold | hnew
      · exact hindexedOld.shown entry hold
      · exact hindexedNew.shown entry (List.mem_filter.mp hnew).1
    exact ⟨hshown.1, hshown.2.1, hshown.2.2, htold⟩
  · rw [hkeys]
    exact (hperm.map Prod.fst).nodup_iff.mpr hnodup
  · intro key
    rw [hkeys, (hperm.map Prod.fst).mem_iff]
    exact hmem key
  · unfold Differs
    have hsome : ∀ {names keys : List String} {left right : Json},
        (∀ key, key ∈ names ↔ key ∈ keys ∧
          (get (inner left) key).equals (get (inner right) key) = false) →
        (names ≠ [] ↔ ∃ key ∈ keys,
          (get (inner left) key).equals (get (inner right) key) = false) := by
      intro names keys left right hnames
      rw [ne_nil_iff]
      exact exists_congr hnames
    rw [hsome henvMem, hsome hruntimeMem]

end Reports

/-- For valid reports the comparison ends, and faithfully, exactly when the reports can be
compared. -/
theorem compareReports_faithful_iff (repr : Json → String) (baseline current : Fields)
    (threshold : PyFloat) (live : Bool) (hbaseline : validateReport repr baseline = [])
    (hcurrent : validateReport repr current = []) :
    (∃ report, compareReports baseline current threshold live = .ok report ∧
      Faithful repr baseline current threshold report) ↔ Comparable baseline current := by
  have hvalidOld := (validateReport_eq_nil baseline).mp hbaseline
  have hvalidNew := (validateReport_eq_nil current).mp hcurrent
  refine ⟨fun ⟨report, hok, _⟩ => comparable_of_ok hvalidOld hvalidNew hok, fun h => ?_⟩
  obtain ⟨lines, envDiv, runtimeDiv, hok, hdrawn, hnodup, hkeys, hdiffers⟩ :=
    compare_ok hvalidOld hvalidNew h threshold live
  have hresults : ∀ result ∈ resultsOf current, ValidResult result :=
    fun result hmem => valid_results hvalidOld hvalidNew result (List.mem_append_right _ hmem)
  refine ⟨_, hok, ?_, ?_, ?_⟩
  · rw [validateReport_eq_nil]
    refine ⟨?_, ?_, lines.map Line.result, ?_, ?_⟩
    · intro key hkey
      rw [hasKey_insert, hasKey_insert, hvalidNew.keys key hkey]
      simp
    · rw [get_insert, get_insert, if_neg (by decide), if_neg (by decide)]
      exact hvalidNew.version
    · rw [Overrides.lookup_insert, Overrides.lookup_insert, if_neg (by decide), if_pos rfl]
    · intro result hmem
      obtain ⟨line, hline, rfl⟩ := List.mem_map.mp hmem
      exact (hdrawn line hline).valid hresults
  · intro key hkey
    have hof : resultsOf (Overrides.insert "compare"
        (.obj (comparisonOf baseline current threshold live lines envDiv runtimeDiv))
        (Overrides.insert "results" (.arr (lines.map Line.result)) current)) =
        lines.map Line.result := by
      unfold resultsOf
      rw [Overrides.lookup_insert, Overrides.lookup_insert, if_neg (by decide), if_pos rfl]
    rw [hof]
    obtain ⟨line, hline, rfl⟩ := List.mem_map.mp ((hkeys key).mpr hkey)
    have hsame : ((lines.map Line.result).filter fun result =>
        decide (keyOf result = some line.key)).length =
        (lines.map Line.key).count line.key := by
      rw [List.filter_map, List.length_map, List.count, List.countP_map,
        List.countP_eq_length_filter]
      congr 1
      refine List.filter_congr fun other hother => ?_
      rw [Function.comp, Function.comp, (hdrawn other hother).keyOf_result, beq_eq_decide]
      exact decide_eq_decide.mpr (Option.some_inj)
    rw [hsame]
    exact List.count_eq_one_of_mem hnodup (List.mem_map_of_mem hline)
  · refine ⟨_, ?_, exitCode_spec hdrawn hkeys hdiffers rfl⟩
    rw [get_insert, if_pos rfl, inner_obj]
    rfl

/-- A report of one phase with these runs. -/
def phaseReport (runs : List Json) : Fields :=
  [("schema_version", .str "1.1"), ("aiosdeck_version", .str "0"), ("git_commit", .str "0"),
    ("timestamp", .str "0"), ("system_info", .obj []),
    ("results", .arr [.obj [("group", .str "phases"), ("target", .str "startup"),
      ("runs", .arr runs), ("summaries", (Benchmark.summarizeRuns (.arr runs)).toOption.getD .null)]])]

/-- A run that took a second. -/
def secondRun : Json := .obj (metrics.map fun metric => (metric, .num (.float (.finite 1000))))

/-- A report is compared with itself. -/
theorem compareReports_itself : ∃ report,
    compareReports (phaseReport [secondRun]) (phaseReport [secondRun]) (.finite 10) false =
        .ok report ∧
      Faithful (fun _ => "") (phaseReport [secondRun]) (phaseReport [secondRun]) (.finite 10)
        report := by
  have hvalid : validateReport (fun _ => "") (phaseReport [secondRun]) = [] := by decide
  have hok : (compareReports (phaseReport [secondRun]) (phaseReport [secondRun]) (.finite 10)
      false).isOk = true := by decide +kernel
  have hreport := (validateReport_eq_nil _).mp hvalid
  refine (compareReports_faithful_iff _ _ _ _ _ hvalid hvalid).mpr ?_
  cases hrun : compareReports (phaseReport [secondRun]) (phaseReport [secondRun]) (.finite 10)
      false with
  | ok report => exact comparable_of_ok hreport hreport hrun
  | error exc =>
    rw [hrun] at hok
    cases hok

/-- A baseline whose phase could not execute divides by zero. -/
theorem errorEntry_not_compared : ¬∀ (repr : Json → String) (baseline current : Fields)
    (threshold : PyFloat) (live : Bool), validateReport repr baseline = [] →
      validateReport repr current = [] →
        ∃ report, compareReports baseline current threshold live = .ok report ∧
          Faithful repr baseline current threshold report := by
  intro h
  have hbaseline : validateReport (fun _ => "") (phaseReport [Benchmark.errorEntry "boom"]) = [] := by
    decide
  have hcurrent : validateReport (fun _ => "") (phaseReport [secondRun]) = [] := by decide
  obtain ⟨report, hok, -⟩ := h (fun _ => "") _ _ (.finite 10) false hbaseline hcurrent
  have hraises : (compareReports (phaseReport [Benchmark.errorEntry "boom"])
      (phaseReport [secondRun]) (.finite 10) false).isOk = false := by decide +kernel
  rw [hok] at hraises
  cases hraises

end Compare

end AiosDeck.Telemetry
