import AiosDeck.Telemetry.Batch

/-!
# Flushes return

Every step of a flush brings it nearer to its return, and each thread stays
in its own program. With the conservation of records this is kept by every
step, as long as the records so far are admissible to the store.
-/

namespace AiosDeck.Telemetry

open Python Machine

variable {maxlen : ℕ}

/-- Table and record of an entry. -/
def Entry.sent {R : Type} (entry : Entry R) : String × R := (entry.table, entry.record)

/-- What one action enqueues. -/
def Action.sent {R F : Type} : Action R F → List (String × R)
  | .enqueue table record => [(table, record)]
  | _ => []

/-- The condition on all records enqueued: the store takes each of them, or
refuses it with something that `flush` catches, and no event id comes twice. -/
structure Admissible (env : StoreEnv) (records : List (String × Record)) : Prop where
  storable : ∀ sent ∈ records, Storable env sent.1 sent.2
  distinct : (records.filterMap fun sent => recordKey env sent.1 sent.2).Nodup
  unseen : ∀ key ∈ records.filterMap (fun sent => recordKey env sent.1 sent.2), key ∉ env.present

theorem Admissible.of_append {env : StoreEnv} {first second : List (String × Record)}
    (h : Admissible env (first ++ second)) : Admissible env first := by
  have hdistinct := h.distinct
  have hunseen := h.unseen
  rw [List.filterMap_append] at hdistinct hunseen
  constructor
  · exact fun sent hsent => h.storable sent (List.mem_append_left _ hsent)
  · exact (List.nodup_append.mp hdistinct).1
  · exact fun key hkey => hunseen key (List.mem_append_left _ hkey)

theorem Admissible.fresh {env : StoreEnv} {s : Shared Record maxlen}
    (h : Admissible env (s.enqueued.map Entry.sent)) : Fresh env env.present s.enqueued := by
  have hkeys : keysOf env s.enqueued =
      (s.enqueued.map Entry.sent).filterMap fun sent => recordKey env sent.1 sent.2 := by
    rw [List.filterMap_map]
    rfl
  constructor
  · rw [hkeys]
    exact h.distinct
  · rw [hkeys]
    exact h.unseen

/-- The writes of the store are regular as long as the records are admissible. -/
theorem Admissible.regular {env : StoreEnv} {s : Shared Record maxlen} (hplaced : s.Accounted)
    (h : Admissible env (s.enqueued.map Entry.sent)) : Regular (telemetryStore env) s := by
  refine telemetryStore_regular hplaced (fun entry hentry => ?_) h.fresh
  exact h.storable entry.sent (List.mem_map_of_mem hentry)

section Growth

variable {R F : Type} {store : Store R F} {config : Config}

theorem flushStep_enqueued {thread : ThreadId} {fault : F} {s t : Shared R maxlen}
    {phase next : FlushPhase}
    (h : s.flushStep store config thread fault phase = some (next, t)) :
    t.enqueued = s.enqueued := by
  cases phase with
  | entering =>
    cases hlock : s.flushLock with
    | some owner => simp [Shared.flushStep, hlock] at h
    | none =>
      simp only [Shared.flushStep, hlock, Option.some.injEq, Prod.mk.injEq] at h
      rw [← h.2]
  | writing attempt =>
    cases hwrite : store.write s.committed (grouped s.inFlight) fault with
    | ok kept =>
      simp only [Shared.flushStep, hwrite, Option.some.injEq, Prod.mk.injEq] at h
      obtain ⟨-, rfl⟩ := h
      rfl
    | error exc =>
      simp only [Shared.flushStep, hwrite, Option.some.injEq, Prod.mk.injEq] at h
      rw [← h.2]
  | raising exc => simp [Shared.flushStep] at h
  | returned => simp [Shared.flushStep] at h
  | _ =>
    simp only [Shared.flushStep, Option.some.injEq, Prod.mk.injEq] at h
    obtain ⟨-, rfl⟩ := h
    rfl

theorem threadStep_enqueued {thread : ThreadId} {fault : F} {s t : Shared R maxlen} {pc next : Pc}
    (h : s.threadStep store config thread fault pc = some (next, t)) :
    t.enqueued = s.enqueued := by
  cases pc with
  | idle => simp [Shared.threadStep] at h
  | ended => simp [Shared.threadStep] at h
  | raised exc =>
    simp only [Shared.threadStep] at h
    split at h
    · cases h
    · cases h
      rfl
  | flushing caller since phase =>
    cases phase with
    | raising exc =>
      simp only [Shared.threadStep, Option.some.injEq, Prod.mk.injEq] at h
      rw [← h.2]
    | returned =>
      simp only [Shared.threadStep, Option.some.injEq, Prod.mk.injEq] at h
      rw [← h.2]
    | _ =>
      simp only [Shared.threadStep, Option.map_eq_some_iff, Prod.mk.injEq] at h
      obtain ⟨⟨phase', shared⟩, hflush, -, rfl⟩ := h
      exact flushStep_enqueued hflush
  | _ =>
    simp only [Shared.threadStep, Option.some.injEq, Prod.mk.injEq] at h
    rw [← h.2]

end Growth

/-- How many steps a flush that holds the lock has before it at most. -/
def FlushPhase.budget (config : Config) : FlushPhase → ℕ
  | .entering => 4 * config.retries + 5
  | .draining attempt => 4 * (config.retries - attempt) + 4
  | .writing attempt => 4 * (config.retries - attempt) + 3
  | .requeueing attempt => 4 * (config.retries - attempt) + 2
  | .sleeping attempt => 4 * (config.retries - attempt) + 1
  | .counting _ | .dropping => 2
  | .leaving => 1
  | .raising _ | .returned => 0

/-- A retry is under way only while retries are left. -/
def FlushPhase.Within (config : Config) : FlushPhase → Prop
  | .requeueing attempt | .sleeping attempt => attempt < config.retries
  | _ => True

/-- The program of the worker's loop. -/
def Pc.Loops : Pc → Prop
  | .loopTest | .loopWait | .loopClear | .loopRetest | .flushing .worker _ _ => True
  | _ => False

/-- Each thread is in its own program. -/
def Pc.Proper (config : Config) (thread : ThreadId) (pc : Pc) : Prop :=
  (thread = .worker → pc.Loops ∨ pc = .ended) ∧
    ∀ caller since phase, pc = .flushing caller since phase → phase.Within config

section Progress

variable {R F : Type} {store : Store R F} {config : Config}

/-- Every step of a flush brings it nearer to its return. -/
theorem flushStep_nearer {thread : ThreadId} {fault : F} {s t : Shared R maxlen}
    {phase next : FlushPhase} (hwithin : phase.Within config)
    (h : s.flushStep store config thread fault phase = some (next, t)) :
    next.Within config ∧ next.budget config < phase.budget config ∧
      (next.locked = true ∨ next = .returned) := by
  cases phase with
  | entering =>
    cases hlock : s.flushLock with
    | some owner => simp [Shared.flushStep, hlock] at h
    | none =>
      simp only [Shared.flushStep, hlock, Option.some.injEq, Prod.mk.injEq] at h
      obtain ⟨rfl, -⟩ := h
      refine ⟨trivial, ?_, .inl rfl⟩
      simp only [FlushPhase.budget]
      omega
  | draining attempt =>
    simp only [Shared.flushStep, Option.some.injEq, Prod.mk.injEq] at h
    obtain ⟨rfl, -⟩ := h
    by_cases hempty : s.buffer.items.isEmpty = true
    · rw [if_pos hempty]
      refine ⟨trivial, ?_, .inl rfl⟩
      simp only [FlushPhase.budget]
      omega
    · rw [if_neg hempty]
      refine ⟨trivial, ?_, .inl rfl⟩
      simp only [FlushPhase.budget]
      omega
  | writing attempt =>
    cases hwrite : store.write s.committed (grouped s.inFlight) fault with
    | ok kept =>
      simp only [Shared.flushStep, hwrite, Option.some.injEq, Prod.mk.injEq] at h
      obtain ⟨rfl, -⟩ := h
      refine ⟨trivial, ?_, .inl rfl⟩
      simp only [FlushPhase.budget]
      omega
    | error exc =>
      simp only [Shared.flushStep, hwrite, Option.some.injEq, Prod.mk.injEq] at h
      obtain ⟨rfl, -⟩ := h
      unfold Shared.handle
      split
      · split
        · rename_i hretry
          have hleft : attempt < config.retries := by
            have hboth := (Bool.and_eq_true _ _).mp hretry
            exact of_decide_eq_true hboth.2
          refine ⟨hleft, ?_, .inl rfl⟩
          simp only [FlushPhase.budget]
          omega
        · refine ⟨trivial, ?_, .inl rfl⟩
          simp only [FlushPhase.budget]
          omega
      · split
        · refine ⟨trivial, ?_, .inl rfl⟩
          simp only [FlushPhase.budget]
          omega
        · refine ⟨trivial, ?_, .inl rfl⟩
          simp only [FlushPhase.budget]
          omega
  | requeueing attempt =>
    simp only [Shared.flushStep, Option.some.injEq, Prod.mk.injEq] at h
    obtain ⟨rfl, -⟩ := h
    refine ⟨hwithin, ?_, .inl rfl⟩
    simp only [FlushPhase.budget]
    omega
  | sleeping attempt =>
    have hleft : attempt < config.retries := hwithin
    simp only [Shared.flushStep, Option.some.injEq, Prod.mk.injEq] at h
    obtain ⟨rfl, -⟩ := h
    refine ⟨trivial, ?_, .inl rfl⟩
    simp only [FlushPhase.budget]
    omega
  | counting written =>
    simp only [Shared.flushStep, Option.some.injEq, Prod.mk.injEq] at h
    obtain ⟨rfl, -⟩ := h
    exact ⟨trivial, Nat.one_lt_two, .inl rfl⟩
  | dropping =>
    simp only [Shared.flushStep, Option.some.injEq, Prod.mk.injEq] at h
    obtain ⟨rfl, -⟩ := h
    exact ⟨trivial, Nat.one_lt_two, .inl rfl⟩
  | leaving =>
    simp only [Shared.flushStep, Option.some.injEq, Prod.mk.injEq] at h
    obtain ⟨rfl, -⟩ := h
    exact ⟨trivial, Nat.one_pos, .inr rfl⟩
  | raising exc => simp [Shared.flushStep] at h
  | returned => simp [Shared.flushStep] at h

/-- A flush that holds the lock and does not raise can make its next step. -/
theorem flushStep_enabled {thread : ThreadId} {fault : F} {s : Shared R maxlen} {phase : FlushPhase}
    (hlocked : phase.locked = true) (hquiet : ∀ exc, phase ≠ .raising exc) :
    ∃ next t, s.flushStep store config thread fault phase = some (next, t) := by
  cases phase with
  | entering => cases hlocked
  | returned => cases hlocked
  | raising exc => exact absurd rfl (hquiet exc)
  | writing attempt =>
    cases hwrite : store.write s.committed (grouped s.inFlight) fault with
    | ok kept => exact ⟨.counting s.inFlight.length, s.commit kept, by rw [Shared.flushStep, hwrite]⟩
    | error exc => exact ⟨Shared.handle config attempt exc, s, by rw [Shared.flushStep, hwrite]⟩
  | _ => exact ⟨_, _, rfl⟩

/-- Each thread stays in its own program. -/
theorem threadStep_proper {thread : ThreadId} {fault : F} {s t : Shared R maxlen} {pc next : Pc}
    (hproper : pc.Proper config thread) (hfine : pc.Fine s)
    (h : s.threadStep store config thread fault pc = some (next, t)) :
    next.Proper config thread := by
  have hclient : pc.Loops = False → pc ≠ .ended → thread ≠ .worker := by
    intro hloops hended hworker
    rcases hproper.1 hworker with hl | he
    · rw [hloops] at hl
      exact hl
    · exact hended he
  cases pc with
  | idle => simp [Shared.threadStep] at h
  | ended => simp [Shared.threadStep] at h
  | raised exc => exact hfine.elim
  | loopTest =>
    simp only [Shared.threadStep, Option.some.injEq, Prod.mk.injEq] at h
    obtain ⟨rfl, -⟩ := h
    by_cases hstop : s.stop = true
    · rw [if_pos hstop]
      exact ⟨fun _ => .inr rfl, fun _ _ _ hpc => by cases hpc⟩
    · rw [if_neg hstop]
      exact ⟨fun _ => .inl trivial, fun _ _ _ hpc => by cases hpc⟩
  | loopWait =>
    simp only [Shared.threadStep, Option.some.injEq, Prod.mk.injEq] at h
    obtain ⟨rfl, -⟩ := h
    exact ⟨fun _ => .inl trivial, fun _ _ _ hpc => by cases hpc⟩
  | loopClear =>
    simp only [Shared.threadStep, Option.some.injEq, Prod.mk.injEq] at h
    obtain ⟨rfl, -⟩ := h
    exact ⟨fun _ => .inl trivial, fun _ _ _ hpc => by cases hpc⟩
  | loopRetest =>
    simp only [Shared.threadStep, Option.some.injEq, Prod.mk.injEq] at h
    obtain ⟨rfl, -⟩ := h
    by_cases hstop : s.stop = true
    · rw [if_pos hstop]
      exact ⟨fun _ => .inl trivial, fun _ _ _ hpc => by cases hpc⟩
    · rw [if_neg hstop]
      refine ⟨fun _ => .inl trivial, fun _ _ _ hpc => ?_⟩
      cases hpc
      trivial
  | stopTest =>
    have hne := hclient rfl (fun he => by cases he)
    simp only [Shared.threadStep, Option.some.injEq, Prod.mk.injEq] at h
    obtain ⟨rfl, -⟩ := h
    refine ⟨fun hworker => absurd hworker hne, fun caller since phase hpc => ?_⟩
    split at hpc <;> cases hpc
  | stopJoin =>
    have hne := hclient rfl (fun he => by cases he)
    simp only [Shared.threadStep, Option.some.injEq, Prod.mk.injEq] at h
    obtain ⟨rfl, -⟩ := h
    refine ⟨fun hworker => absurd hworker hne, fun caller since phase hpc => ?_⟩
    cases hpc
    trivial
  | flushing caller since phase =>
    have hwithin : phase.Within config := hproper.2 caller since phase rfl
    have hcaller : thread = .worker → caller = .worker := by
      intro hworker
      rcases hproper.1 hworker with hloops | hended
      · cases caller with
        | worker => rfl
        | client => exact hloops.elim
        | shutdown => exact hloops.elim
      · cases hended
    cases phase with
    | raising exc => exact hfine.2.elim
    | returned =>
      simp only [Shared.threadStep, Option.some.injEq, Prod.mk.injEq] at h
      obtain ⟨rfl, -⟩ := h
      constructor
      · intro hworker
        rw [hcaller hworker]
        exact .inl trivial
      · intro other since' phase' hpc
        cases caller <;> cases hpc
    | _ =>
      simp only [Shared.threadStep, Option.map_eq_some_iff, Prod.mk.injEq] at h
      obtain ⟨⟨phase', shared⟩, hflush, rfl, -⟩ := h
      have hnear := flushStep_nearer hwithin hflush
      constructor
      · intro hworker
        rw [hcaller hworker]
        exact .inl trivial
      · intro other since' later hpc
        cases hpc
        exact hnear.1
  | _ =>
    have hne := hclient rfl (fun he => by cases he)
    simp only [Shared.threadStep, Option.some.injEq, Prod.mk.injEq] at h
    obtain ⟨rfl, -⟩ := h
    exact ⟨fun hworker => absurd hworker hne, fun _ _ _ hpc => by cases hpc⟩

/-- Inside `flush` a thread steps as the flush does. -/
theorem threadStep_flushing {thread : ThreadId} {fault : F} {s : Shared R maxlen} {caller : Caller}
    {since : ℕ} {phase : FlushPhase} (hreturned : phase ≠ .returned)
    (hquiet : ∀ exc, phase ≠ .raising exc) :
    s.threadStep store config thread fault (.flushing caller since phase) =
      (s.flushStep store config thread fault phase).map fun next =>
        (.flushing caller since next.1, next.2) := by
  cases phase with
  | returned => exact absurd rfl hreturned
  | raising exc => exact absurd rfl (hquiet exc)
  | _ => rfl

/-- A thread makes its next step. -/
theorem advance_step {s : WriterState R maxlen} {thread : ThreadId} {fault : F} {pc next : Pc}
    {t : Shared R maxlen} (hpc : s.pc thread = pc)
    (h : s.shared.threadStep store config thread fault pc = some (next, t)) :
    ∃ u : WriterState R maxlen, s.step store config (.advance thread fault) = some u ∧
      u.shared = t ∧ u.pc thread = next := by
  refine ⟨⟨t, s.goto thread next⟩, ?_, rfl, WriterState.goto_self ..⟩
  simp only [WriterState.step, hpc, h, Option.map_some]

end Progress

namespace WriterState

variable {env : StoreEnv} {config : Config}

/-- The invariant behind a writer that goes on working. -/
structure Steady (config : Config) (s : WriterState Record maxlen) : Prop where
  inv : s.Inv
  proper : ∀ thread, (s.pc thread).Proper config thread

/-- A step keeps the writer steady when the records so far are admissible. -/
theorem Steady.step {s t : WriterState Record maxlen} {action : Action Record DbFault}
    (h : s.Steady config) (hrecords : Admissible env (s.shared.enqueued.map Entry.sent))
    (hstep : s.step (telemetryStore env) config action = some t) : t.Steady config := by
  have hinv : t.Inv := h.inv.step (hrecords.regular h.inv.accounted) hstep
  refine ⟨hinv, fun other => ?_⟩
  have hmoved : ∀ {thread : ThreadId} {shared : Shared Record maxlen} {next : Pc},
      t = ⟨shared, s.goto thread next⟩ → next.Proper config thread →
      (t.pc other).Proper config other := by
    intro thread shared next ht hnext
    rw [ht]
    by_cases hother : other = thread
    · rw [hother]
      change (s.goto thread next thread).Proper config thread
      rw [goto_self]
      exact hnext
    · change (s.goto thread next other).Proper config other
      rw [goto_other s hother]
      exact h.proper other
  cases action with
  | enqueue table record =>
    cases hstep
    exact h.proper other
  | flush client =>
    simp only [WriterState.step] at hstep
    split at hstep
    · refine hmoved (Option.some.inj hstep).symm ⟨(fun hworker => by cases hworker), ?_⟩
      intro _ _ _ hpc
      cases hpc
      trivial
    · cases hstep
  | shutdown client =>
    simp only [WriterState.step] at hstep
    split at hstep
    · exact hmoved (Option.some.inj hstep).symm
        ⟨(fun hworker => by cases hworker), fun _ _ _ hpc => by cases hpc⟩
    · cases hstep
  | advance thread fault =>
    simp only [WriterState.step, Option.map_eq_some_iff] at hstep
    obtain ⟨⟨next, shared⟩, hthread, ht⟩ := hstep
    exact hmoved ht.symm (threadStep_proper (h.proper thread) (h.inv.fine thread) hthread)

/-- A flush that no other thread keeps waiting returns by its own steps,
whatever the database does meanwhile. -/
theorem Steady.returns {s : WriterState Record maxlen} (h : s.Steady config)
    (hrecords : Admissible env (s.shared.enqueued.map Entry.sent)) {thread : ThreadId}
    {caller : Caller} {since : ℕ} {phase : FlushPhase}
    (hpc : s.pc thread = .flushing caller since phase)
    (hfree : ∀ other, s.shared.flushLock = some other → other = thread) (faults : List DbFault)
    (hlength : phase.budget config ≤ faults.length) :
    ∃ n t, run (WriterState.step (telemetryStore env) config) s
      ((faults.take n).map (.advance thread)) = some t ∧
        t.pc thread = .flushing caller since .returned := by
  have hquiet : ∀ exc, phase ≠ .raising exc := by
    rintro exc rfl
    have hfine := h.inv.fine thread
    rw [hpc] at hfine
    exact hfine.2
  by_cases hreturned : phase = .returned
  · rw [hreturned] at hpc
    exact ⟨0, s, rfl, hpc⟩
  induction faults generalizing s phase with
  | nil =>
    have hzero : phase.budget config = 0 := Nat.le_zero.mp hlength
    cases phase with
    | returned => exact absurd rfl hreturned
    | raising exc => exact absurd rfl (hquiet exc)
    | _ => simp [FlushPhase.budget] at hzero
  | cons fault rest ih =>
    have henabled : ∃ next t, s.shared.flushStep (telemetryStore env) config thread fault phase =
        some (next, t) := by
      by_cases hlocked : phase.locked = true
      · exact flushStep_enabled hlocked hquiet
      · have hentering : phase = .entering := by
          cases phase with
          | entering => rfl
          | returned => exact absurd rfl hreturned
          | _ => exact absurd rfl hlocked
        have hnone : s.shared.flushLock = none := by
          cases hlock : s.shared.flushLock with
          | none => rfl
          | some other =>
            have howner := (h.inv.lock thread).mpr (by rw [hlock, hfree other hlock])
            rw [hpc] at howner
            exact absurd howner hlocked
        rw [hentering]
        exact ⟨.draining 0, { s.shared with flushLock := some thread }, by
          simp only [Shared.flushStep, hnone]⟩
    obtain ⟨next, shared, hflush⟩ := henabled
    have hwithin : phase.Within config := (h.proper thread).2 caller since phase hpc
    obtain ⟨-, hbudget, hlocked⟩ := flushStep_nearer hwithin hflush
    have hthread : s.shared.threadStep (telemetryStore env) config thread fault
        (.flushing caller since phase) = some (.flushing caller since next, shared) := by
      rw [threadStep_flushing hreturned hquiet, hflush]
      rfl
    obtain ⟨u, hstep, hshared, hupc⟩ := advance_step hpc hthread
    have hsteady : u.Steady config := h.step hrecords hstep
    have hmore : Admissible env (u.shared.enqueued.map Entry.sent) := by
      rw [hshared, threadStep_enqueued hthread]
      exact hrecords
    have hadvance : ∀ n, run (WriterState.step (telemetryStore env) config) s
        (((fault :: rest).take (n + 1)).map (.advance thread)) =
          run (WriterState.step (telemetryStore env) config) u
            ((rest.take n).map (.advance thread)) := by
      intro n
      simp only [List.take_succ_cons, List.map_cons, run, hstep, Option.bind_some]
    by_cases hnext : next = .returned
    · refine ⟨1, u, ?_, ?_⟩
      · rw [hadvance 0]
        rfl
      · rw [hupc, hnext]
    · have hlocked' : next.locked = true := hlocked.resolve_right hnext
      have hown : u.shared.flushLock = some thread := by
        refine (hsteady.inv.lock thread).mp ?_
        rw [hupc]
        exact hlocked'
      have hfree' : ∀ other, u.shared.flushLock = some other → other = thread := by
        intro other hother
        rw [hown] at hother
        exact (Option.some.inj hother).symm
      have hshort : next.budget config ≤ rest.length := by
        rw [List.length_cons] at hlength
        omega
      have hquiet' : ∀ exc, next ≠ .raising exc := by
        rintro exc rfl
        have hfine := hsteady.inv.fine thread
        rw [hupc] at hfine
        exact hfine.2
      obtain ⟨n, t, hrun, htpc⟩ := ih hsteady hmore hupc hfree' hshort hquiet' hnext
      exact ⟨n + 1, t, (hadvance n).trans hrun, htpc⟩

end WriterState

end AiosDeck.Telemetry
