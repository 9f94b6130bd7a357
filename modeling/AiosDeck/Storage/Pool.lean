import AiosDeck.Logic.Machine
import AiosDeck.Python.Text

/-!
# Who closes a connection

A pool hands out one connection for each file. A store borrows such a connection or opens one
of its own; it closes only what it opened. The operations of any threads come in any order.
-/

namespace AiosDeck.Storage

open Python Machine

section Model

/-- Connections, numbered as they are opened. -/
abbrev ConnectionId := ℕ

/-- What goes wrong while a connection is opened and prepared. -/
inductive OpenFault where
  | none
  /-- The directory cannot be created. -/
  | mkdir
  /-- The file cannot be opened. -/
  | connect
  /-- A statement on the open connection raises. -/
  | statement
  deriving DecidableEq, Repr

/-- `BaseSQLiteStore`, as far as its connection goes. -/
structure BaseSQLiteStore where
  /-- `_shared`, which is there when `_injected` is set. -/
  shared : Option ConnectionId := none
  /-- `_conn`. -/
  conn : Option ConnectionId := none
  deriving DecidableEq

/-- The connections of a process, its pool and its stores. -/
structure Handles where
  /-- How many connections were opened. -/
  opened : ℕ := 0
  closed : List ConnectionId := []
  /-- `ConnectionPool._connections`, by resolved paths. -/
  pool : List (Text × ConnectionId) := []
  /-- What `get` has returned. -/
  handed : List ConnectionId := []
  stores : List BaseSQLiteStore := []

namespace Handles

/-- `ConnectionPool.get`. -/
def get (h : Handles) (path : Text) (fault : OpenFault) : Handles :=
  match h.pool.lookup path with
  | some c => { h with handed := h.handed ++ [c] }
  | none =>
    match fault with
    | .mkdir | .connect => h
    -- the connection is not registered yet
    | .statement => { h with opened := h.opened + 1 }
    | .none =>
      { h with
        opened := h.opened + 1
        pool := h.pool ++ [(path, h.opened)]
        handed := h.handed ++ [h.opened] }

/-- `ConnectionPool.close_all`. -/
def closeAll (h : Handles) : Handles :=
  { h with closed := h.closed ++ h.pool.map Prod.snd, pool := [] }

/-- `BaseSQLiteStore.open`: the connections opened by it and the store behind it. -/
def openStore (h : Handles) (store : BaseSQLiteStore) (fault : OpenFault) : ℕ × BaseSQLiteStore :=
  match store.shared with
  | some c =>
    -- the schema runs on the shared connection
    if c ∈ h.closed ∨ fault = .statement then (0, { store with conn := none })
    else (0, { store with conn := some c })
  | none =>
    match fault with
    | .mkdir => (0, store)
    | .connect => (0, { store with conn := none })
    | .statement => (1, { store with conn := none })
    | .none => (1, { store with conn := some h.opened })

/-- `BaseSQLiteStore.close`: what it closes. -/
def closedBy (store : BaseSQLiteStore) : List ConnectionId :=
  match store.shared with
  | some _ => []
  | none => store.conn.toList

/-- An operation of some thread. -/
inductive Action where
  | get (path : Text) (fault : OpenFault)
  | create (shared : Option ConnectionId)
  | openStore (i : ℕ) (fault : OpenFault)
  | closeStore (i : ℕ)
  | closeAll
  deriving DecidableEq

/-- One operation; a store is given only what `get` has returned. -/
def step (h : Handles) : Action → Option Handles
  | .get path fault => some (h.get path fault)
  | .create shared =>
    if ∀ c ∈ shared, c ∈ h.handed then some { h with stores := h.stores ++ [{ shared }] } else none
  | .openStore i fault =>
    h.stores[i]?.map fun store =>
      { h with
        opened := h.opened + (h.openStore store fault).1
        stores := h.stores.set i (h.openStore store fault).2 }
  | .closeStore i =>
    h.stores[i]?.map fun store =>
      { h with
        closed := h.closed ++ closedBy store
        stores := h.stores.set i { store with conn := none } }
  | .closeAll => some h.closeAll

end Handles

end Model

section Accounting

namespace Handles

variable {h t : Handles} {action : Action}

/-- The connections that stores have to close. -/
def owned (h : Handles) : List ConnectionId := h.stores.flatMap closedBy

/-- The connections that are closed or that someone has to close. -/
def known (h : Handles) : List ConnectionId := h.closed ++ h.pool.map Prod.snd ++ h.owned

/-- The connections that nobody will close, by the operation that loses them: one that raises
behind `connect`, or `open` on an open store. -/
def losses (h : Handles) : Action → ℕ
  | .get path fault => if h.pool.lookup path = none ∧ fault = .statement then 1 else 0
  | .openStore i fault =>
    match h.stores[i]? with
    | some store =>
      if store.shared = none ∧ fault ≠ .mkdir then
        store.conn.toList.length + (if fault = .statement then 1 else 0)
      else 0
    | none => 0
  | _ => 0

/-- The connections that a run loses. -/
def lost : Handles → List Action → ℕ
  | _, [] => 0
  | h, action :: rest => h.losses action + ((h.step action).elim 0 fun t => t.lost rest)

/-- What an operation does to the connections: some that were known are dropped, and one may
be opened, which is known or forgotten at once. -/
structure Change (h t : Handles) (lost : ℕ) : Prop where
  known : ∃ kept dropped fresh forgotten, h.known.Perm (kept ++ dropped) ∧
    t.known.Perm (kept ++ fresh) ∧ (fresh = [] ∨ fresh = [h.opened]) ∧
    t.opened = h.opened + fresh.length + forgotten ∧ lost = dropped.length + forgotten

/-- No connection is opened or closed. -/
theorem Change.same (hknown : t.known.Perm h.known) (hopened : t.opened = h.opened) :
    Change h t 0 := by
  refine ⟨h.known, [], [], 0, ?_, ?_, .inl rfl, ?_, rfl⟩
  · rw [List.append_nil]
  · rw [List.append_nil]
    exact hknown
  · simpa using hopened

/-- A place in a list and what stands there. -/
theorem exists_place {α : Type} {xs : List α} {i : ℕ} {x : α} (hx : xs[i]? = some x) :
    ∃ before after, xs = before ++ x :: after ∧ ∀ y, xs.set i y = before ++ y :: after := by
  induction xs generalizing i with
  | nil => cases hx
  | cons z rest ih =>
    cases i with
    | zero =>
      have hz : z = x := by simpa using hx
      exact ⟨[], rest, by rw [hz]; rfl, fun y => rfl⟩
    | succ i =>
      obtain ⟨before, after, hrest, hset⟩ := ih (by simpa using hx)
      refine ⟨z :: before, after, by rw [hrest]; rfl, fun y => ?_⟩
      rw [List.set_cons_succ, hset]
      rfl

/-- What is known when a store has other connections to close. -/
theorem known_set {i : ℕ} {store : BaseSQLiteStore} (hstore : h.stores[i]? = some store) :
    ∃ others, h.known.Perm (others ++ closedBy store) ∧
      ∀ (next : BaseSQLiteStore) (opened : ℕ) (more : List ConnectionId),
        (known ⟨opened, h.closed ++ more, h.pool, h.handed, h.stores.set i next⟩).Perm
          (others ++ more ++ closedBy next) := by
  obtain ⟨before, after, hsplit, hset⟩ := exists_place hstore
  refine ⟨h.closed ++ h.pool.map Prod.snd ++ (before ++ after).flatMap closedBy, ?_,
    fun next opened more => ?_⟩
  · refine List.perm_iff_count.mpr fun c => ?_
    simp only [known, owned, hsplit, List.flatMap_append, List.flatMap_cons, List.count_append]
    omega
  · refine List.perm_iff_count.mpr fun c => ?_
    simp only [known, owned, hset, List.flatMap_append, List.flatMap_cons, List.count_append]
    omega

theorem closedBy_released (shared : Option ConnectionId) : closedBy ⟨shared, none⟩ = [] := by
  cases shared <;> rfl

theorem get_change (path : Text) (fault : OpenFault) :
    Change h (h.get path fault) (h.losses (.get path fault)) := by
  have hlosses : h.losses (.get path fault) =
      if h.pool.lookup path = none ∧ fault = .statement then 1 else 0 := rfl
  rw [hlosses]
  unfold get
  cases hpool : h.pool.lookup path with
  | some c =>
    rw [if_neg fun hnone => Option.some_ne_none c hnone.1]
    exact .same (.refl _) rfl
  | none =>
    cases fault with
    | mkdir =>
      rw [if_neg fun h => OpenFault.noConfusion h.2]
      exact .same (.refl _) rfl
    | connect =>
      rw [if_neg fun h => OpenFault.noConfusion h.2]
      exact .same (.refl _) rfl
    | statement =>
      rw [if_pos ⟨rfl, rfl⟩]
      refine ⟨h.known, [], [], 1, ?_, ?_, .inl rfl, rfl, rfl⟩
      · rw [List.append_nil]
      · rw [List.append_nil]
        exact .refl _
    | none =>
      rw [if_neg fun h => OpenFault.noConfusion h.2]
      refine ⟨h.known, [], [h.opened], 0, ?_, ?_, .inr rfl, rfl, rfl⟩
      · rw [List.append_nil]
      · refine List.perm_iff_count.mpr fun c => ?_
        simp only [known, owned, List.map_append, List.map_cons, List.map_nil, List.count_append]
        omega

theorem openStore_change {i : ℕ} {store : BaseSQLiteStore} (hstore : h.stores[i]? = some store)
    (fault : OpenFault) : Change h
      { h with
        opened := h.opened + (h.openStore store fault).1
        stores := h.stores.set i (h.openStore store fault).2 } (h.losses (.openStore i fault)) := by
  obtain ⟨others, hbefore, hafter⟩ := known_set hstore
  have hnext := fun next opened => hafter next opened []
  simp only [List.append_nil] at hnext
  have hlosses : h.losses (.openStore i fault) =
      if store.shared = none ∧ fault ≠ .mkdir then
        store.conn.toList.length + (if fault = .statement then 1 else 0)
      else 0 := by
    simp only [losses, hstore]
  rw [hlosses]
  unfold openStore
  obtain ⟨shared, conn⟩ := store
  cases shared with
  | some c =>
    have hnone : ∀ conn, closedBy ⟨some c, conn⟩ = [] := fun conn => rfl
    rw [hnone, List.append_nil] at hbefore
    rw [if_neg fun h => Option.some_ne_none c h.1]
    dsimp only
    split
    · have hreleased := hnext ⟨some c, none⟩ h.opened
      rw [hnone, List.append_nil] at hreleased
      exact .same (hreleased.trans hbefore.symm) rfl
    · have hborrowed := hnext ⟨some c, some c⟩ h.opened
      rw [hnone, List.append_nil] at hborrowed
      exact .same (hborrowed.trans hbefore.symm) rfl
  | none =>
    have hheld : ∀ conn, closedBy ⟨none, conn⟩ = conn.toList := fun conn => rfl
    rw [hheld] at hbefore
    cases fault with
    | mkdir =>
      have hsame := hnext ⟨none, conn⟩ h.opened
      rw [hheld] at hsame
      rw [if_neg fun h => h.2 rfl]
      exact .same (hsame.trans hbefore.symm) rfl
    | connect =>
      rw [if_pos ⟨rfl, OpenFault.noConfusion⟩, if_neg OpenFault.noConfusion]
      exact ⟨others, conn.toList, [], 0, hbefore, hnext ⟨none, none⟩ h.opened, .inl rfl, rfl, rfl⟩
    | statement =>
      rw [if_pos ⟨rfl, OpenFault.noConfusion⟩, if_pos rfl]
      exact ⟨others, conn.toList, [], 1, hbefore, hnext ⟨none, none⟩ (h.opened + 1), .inl rfl, rfl,
        rfl⟩
    | none =>
      rw [if_pos ⟨rfl, OpenFault.noConfusion⟩, if_neg OpenFault.noConfusion]
      exact ⟨others, conn.toList, [h.opened], 0, hbefore, hnext ⟨none, some h.opened⟩ (h.opened + 1),
        .inr rfl, rfl, rfl⟩

/-- What each operation does to the connections. -/
theorem step_change (hstep : h.step action = some t) : Change h t (h.losses action) := by
  cases action with
  | get path fault =>
    cases hstep
    exact get_change path fault
  | create shared =>
    unfold step at hstep
    dsimp only at hstep
    split at hstep
    · cases hstep
      refine .same ?_ rfl
      unfold known owned
      rw [List.flatMap_append, List.flatMap_singleton, closedBy_released, List.append_nil]
    · cases hstep
  | openStore i fault =>
    obtain ⟨store, hstore, rfl⟩ := Option.map_eq_some_iff.mp hstep
    exact openStore_change hstore fault
  | closeStore i =>
    obtain ⟨store, hstore, rfl⟩ := Option.map_eq_some_iff.mp hstep
    obtain ⟨others, hbefore, hafter⟩ := known_set hstore
    have hclosed := hafter ⟨store.shared, none⟩ h.opened (closedBy store)
    rw [closedBy_released, List.append_nil] at hclosed
    exact .same (hclosed.trans hbefore.symm) rfl
  | closeAll =>
    cases hstep
    refine .same ?_ rfl
    unfold closeAll known owned
    rw [List.map_nil, List.append_nil]

end Handles

end Accounting

section Runs

namespace Handles

variable {h t : Handles} {action : Action} {actions : List Action} {n : ℕ}

/-- Every connection is known once or lost; one path has one pooled connection; and a store
that borrows holds nothing but what the pool has handed out. -/
structure Sound (h : Handles) (lost : ℕ) : Prop where
  distinct : h.known.Nodup
  below : ∀ c ∈ h.known, c < h.opened
  count : h.opened = h.known.length + lost
  paths : (h.pool.map Prod.fst).Nodup
  handed : ∀ c ∈ h.handed, c ∈ h.closed ++ h.pool.map Prod.snd
  borrowed : ∀ store ∈ h.stores, ∀ c ∈ store.shared,
    c ∈ h.handed ∧ (store.conn = none ∨ store.conn = some c)

theorem Change.distinct (hchange : Change h t n) (hdistinct : h.known.Nodup)
    (hbelow : ∀ c ∈ h.known, c < h.opened) :
    t.known.Nodup ∧ ∀ c ∈ t.known, c < t.opened := by
  obtain ⟨kept, dropped, fresh, forgotten, hbefore, hafter, hfresh, hopened, -⟩ := hchange
  have hkept : kept.Nodup := ((hbefore.nodup_iff.mp hdistinct).sublist (List.sublist_append_left _ _))
  have hold : ∀ c ∈ kept, c < h.opened :=
    fun c hc => hbelow c (hbefore.mem_iff.mpr (List.mem_append_left _ hc))
  have hnew : ∀ c ∈ fresh, c = h.opened := by
    intro c hc
    obtain rfl | rfl := hfresh
    · cases hc
    · exact List.mem_singleton.mp hc
  have honce : fresh.Nodup := by
    obtain rfl | rfl := hfresh
    · exact List.nodup_nil
    · exact List.nodup_singleton _
  constructor
  · refine hafter.nodup_iff.mpr (hkept.append honce fun c hc hc' => ?_)
    exact (hold c hc).ne (hnew c hc')
  · intro c hc
    obtain hc | hc := List.mem_append.mp (hafter.mem_iff.mp hc)
    · have hle : h.opened ≤ t.opened := by omega
      exact (hold c hc).trans_le hle
    · have hlength : 0 < fresh.length := List.length_pos_of_mem hc
      have hlt : h.opened < t.opened := by omega
      exact (hnew c hc).trans_lt hlt

theorem Change.count {m : ℕ} (hchange : Change h t n) (hcount : h.opened = h.known.length + m) :
    t.opened = t.known.length + (m + n) := by
  obtain ⟨kept, dropped, fresh, forgotten, hbefore, hafter, -, hopened, rfl⟩ := hchange
  have hlength := hbefore.length_eq
  have hlength' := hafter.length_eq
  rw [List.length_append] at hlength hlength'
  omega

/-- The pool registers a path that it does not have. -/
theorem get_paths (path : Text) (fault : OpenFault) (h' : (h.pool.map Prod.fst).Nodup) :
    ((h.get path fault).pool.map Prod.fst).Nodup := by
  unfold get
  cases hpool : h.pool.lookup path with
  | some c => exact h'
  | none =>
    cases fault with
    | mkdir => exact h'
    | connect => exact h'
    | statement => exact h'
    | none =>
      dsimp only
      rw [List.map_append]
      refine h'.append (List.nodup_singleton _) (List.disjoint_singleton.mpr fun hmem => ?_)
      obtain ⟨entry, hentry, hpath⟩ := List.mem_map.mp hmem
      have hne := List.lookup_eq_none_iff.mp hpool entry hentry
      simp [hpath] at hne

/-- What is handed out is in the pool until the pool is closed. -/
theorem get_handed (path : Text) (fault : OpenFault)
    (h' : ∀ c ∈ h.handed, c ∈ h.closed ++ h.pool.map Prod.snd) :
    ∀ c ∈ (h.get path fault).handed,
      c ∈ (h.get path fault).closed ++ (h.get path fault).pool.map Prod.snd := by
  unfold get
  cases hpool : h.pool.lookup path with
  | some d =>
    intro c hc
    obtain hc | hc := List.mem_append.mp hc
    · exact h' c hc
    · rw [List.mem_singleton.mp hc]
      obtain ⟨before, after, hentry, -⟩ := List.lookup_eq_some_iff.mp hpool
      refine List.mem_append_right _ (List.mem_map.mpr ⟨(path, d), ?_, rfl⟩)
      rw [hentry]
      exact List.mem_append_right _ List.mem_cons_self
  | none =>
    cases fault with
    | mkdir => exact h'
    | connect => exact h'
    | statement => exact h'
    | none =>
      intro c hc
      dsimp only at hc ⊢
      rw [List.map_append, ← List.append_assoc]
      obtain hc | hc := List.mem_append.mp hc
      · exact List.mem_append_left _ (h' c hc)
      · exact List.mem_append_right _ hc

theorem handed_get {c : ConnectionId} (path : Text) (fault : OpenFault) (hc : c ∈ h.handed) :
    c ∈ (h.get path fault).handed := by
  unfold get
  split
  · exact List.mem_append_left _ hc
  · split
    · exact hc
    · exact hc
    · exact hc
    · exact List.mem_append_left _ hc

/-- A store that is opened holds what it borrows or what was opened for it. -/
theorem openStore_shared (h : Handles) (store : BaseSQLiteStore) (fault : OpenFault) :
    (h.openStore store fault).2.shared = store.shared ∧ ∀ c ∈ store.shared,
      (h.openStore store fault).2.conn = none ∨ (h.openStore store fault).2.conn = some c := by
  unfold openStore
  cases hshared : store.shared with
  | some c =>
    dsimp only
    constructor
    · split
      · rfl
      · rfl
    · intro d hd
      obtain rfl := Option.mem_some_iff.mp hd
      split
      · exact .inl rfl
      · exact .inr rfl
  | none =>
    refine ⟨?_, fun c hc => absurd hc (Option.not_mem_none c)⟩
    cases fault with
    | mkdir => exact hshared
    | connect => rfl
    | statement => rfl
    | none => rfl

theorem step_borrowed (hstep : h.step action = some t)
    (hborrowed : ∀ store ∈ h.stores, ∀ c ∈ store.shared,
      c ∈ h.handed ∧ (store.conn = none ∨ store.conn = some c)) :
    ∀ store ∈ t.stores, ∀ c ∈ store.shared,
      c ∈ t.handed ∧ (store.conn = none ∨ store.conn = some c) := by
  cases action with
  | get path fault =>
    cases hstep
    intro store hstore c hc
    have hsame : (h.get path fault).stores = h.stores := by
      unfold get
      split
      · rfl
      · split <;> rfl
    rw [hsame] at hstore
    obtain ⟨hhanded, hconn⟩ := hborrowed store hstore c hc
    exact ⟨handed_get path fault hhanded, hconn⟩
  | create shared =>
    unfold step at hstep
    dsimp only at hstep
    split at hstep
    · rename_i hhanded
      cases hstep
      intro store hstore c hc
      obtain hold | hnew := List.mem_append.mp hstore
      · exact hborrowed store hold c hc
      · obtain rfl := List.mem_singleton.mp hnew
        exact ⟨hhanded c hc, .inl rfl⟩
    · cases hstep
  | openStore i fault =>
    obtain ⟨old, hold, rfl⟩ := Option.map_eq_some_iff.mp hstep
    intro store hstore c hc
    obtain hmem | rfl := List.mem_or_eq_of_mem_set hstore
    · exact hborrowed store hmem c hc
    · obtain ⟨hshared, hconn⟩ := openStore_shared h old fault
      rw [hshared] at hc
      exact ⟨(hborrowed old (List.mem_of_getElem? hold) c hc).1, hconn c hc⟩
  | closeStore i =>
    obtain ⟨old, hold, rfl⟩ := Option.map_eq_some_iff.mp hstep
    intro store hstore c hc
    obtain hmem | rfl := List.mem_or_eq_of_mem_set hstore
    · exact hborrowed store hmem c hc
    · exact ⟨(hborrowed old (List.mem_of_getElem? hold) c hc).1, .inl rfl⟩
  | closeAll =>
    cases hstep
    exact hborrowed

/-- Every operation keeps the connections accounted for. -/
theorem step_sound (hsound : h.Sound n) (hstep : h.step action = some t) :
    t.Sound (n + h.losses action) := by
  have hchange := step_change hstep
  obtain ⟨hdistinct, hbelow⟩ := hchange.distinct hsound.distinct hsound.below
  refine ⟨hdistinct, hbelow, hchange.count hsound.count, ?_, ?_, step_borrowed hstep hsound.borrowed⟩
  · cases action with
    | get path fault =>
      cases hstep
      exact get_paths path fault hsound.paths
    | create shared =>
      unfold step at hstep
      dsimp only at hstep
      split at hstep
      · cases hstep
        exact hsound.paths
      · cases hstep
    | openStore i fault =>
      obtain ⟨store, -, rfl⟩ := Option.map_eq_some_iff.mp hstep
      exact hsound.paths
    | closeStore i =>
      obtain ⟨store, -, rfl⟩ := Option.map_eq_some_iff.mp hstep
      exact hsound.paths
    | closeAll =>
      cases hstep
      exact List.nodup_nil
  · cases action with
    | get path fault =>
      cases hstep
      exact get_handed path fault hsound.handed
    | create shared =>
      unfold step at hstep
      dsimp only at hstep
      split at hstep
      · cases hstep
        exact hsound.handed
      · cases hstep
    | openStore i fault =>
      obtain ⟨store, -, rfl⟩ := Option.map_eq_some_iff.mp hstep
      exact hsound.handed
    | closeStore i =>
      obtain ⟨store, -, rfl⟩ := Option.map_eq_some_iff.mp hstep
      intro c hc
      obtain hclosed | hpool := List.mem_append.mp (hsound.handed c hc)
      · exact List.mem_append_left _ (List.mem_append_left _ hclosed)
      · exact List.mem_append_right _ hpool
    | closeAll =>
      cases hstep
      intro c hc
      exact List.mem_append_left _ (hsound.handed c hc)

theorem run_sound (hsound : h.Sound n) (hrun : run step h actions = some t) :
    t.Sound (n + h.lost actions) := by
  induction actions generalizing h n with
  | nil =>
    cases hrun
    exact hsound
  | cons action rest ih =>
    obtain ⟨next, hstep, hrest⟩ := run_cons hrun
    have hlost : h.lost (action :: rest) = h.losses action + next.lost rest := by
      rw [lost, hstep]
      rfl
    rw [hlost, ← Nat.add_assoc]
    exact ih (step_sound hsound hstep) hrest

theorem start_sound : Sound {} 0 := by
  constructor
  · exact List.nodup_nil
  · exact fun c hc => absurd hc List.not_mem_nil
  · rfl
  · exact List.nodup_nil
  · exact fun c hc => absurd hc List.not_mem_nil
  · exact fun store hstore => absurd hstore List.not_mem_nil

/-- Closing the pool closes every connection exactly when no store holds one of its own and
no operation has lost one. -/
theorem closeAll_closes_iff (actions : List Action) {h : Handles}
    (hrun : run step {} actions = some h) :
    (∀ c, c < h.closeAll.opened → c ∈ h.closeAll.closed) ↔ h.owned = [] ∧ lost {} actions = 0 := by
  have hsound := run_sound start_sound hrun
  obtain ⟨hknown, -, -⟩ := List.nodup_append.mp hsound.distinct
  have hcount := hsound.count
  have hbelow : ∀ c ∈ h.closeAll.closed, c < h.opened :=
    fun c hc => hsound.below c (List.mem_append_left _ hc)
  have hsubset : h.closeAll.closed ⊆ List.range h.opened :=
    fun c hc => List.mem_range.mpr (hbelow c hc)
  have hlength : h.known.length = h.closeAll.closed.length + h.owned.length := List.length_append
  rw [zero_add] at hcount
  constructor
  · intro hall
    have hrange : List.range h.opened ⊆ h.closeAll.closed :=
      fun c hc => hall c (List.mem_range.mp hc)
    have hle := (List.nodup_range.subperm hrange).length_le
    rw [List.length_range] at hle
    have hnone : h.owned.length = 0 := by omega
    exact ⟨List.eq_nil_of_length_eq_zero hnone, by omega⟩
  · rintro ⟨hnone, hlost⟩ c hc
    rw [hnone, List.length_nil] at hlength
    have hperm : h.closeAll.closed.Perm (List.range h.opened) := by
      refine (hknown.subperm hsubset).perm_of_length_le ?_
      have hsame : h.closeAll.closed.length = h.opened := by omega
      rw [List.length_range]
      exact hsame.ge
    exact hperm.mem_iff.mpr (List.mem_range.mpr hc)

/-- A `PRAGMA` raises behind the connect, and its connection is never closed. -/
theorem closeAll_closes_iff_pragma :
    ∃ h, run step {} [.get "memory.db".toList .statement] = some h ∧
      ¬ ∀ c, c < h.closeAll.opened → c ∈ h.closeAll.closed := by
  refine ⟨_, rfl, fun hall => ?_⟩
  have hlost := ((closeAll_closes_iff [.get "memory.db".toList .statement] rfl).mp hall).2
  exact absurd hlost (by decide)

end Handles

end Runs

end AiosDeck.Storage
