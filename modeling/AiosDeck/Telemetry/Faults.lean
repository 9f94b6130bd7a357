import AiosDeck.Storage.Transaction
import AiosDeck.Telemetry.Progress

/-!
# Records that the store cannot take

`flush` catches what SQLite and the store itself raise, and nothing else. As
long as every record is admissible, no exception leaves a flush, every
record is accounted for, and the worker goes on writing. A record that
cannot be written as JSON kills the worker with the batch in its hands.
-/

namespace AiosDeck.Telemetry

open Python Machine

variable {maxlen : ℕ} {env : StoreEnv} {config : Config}

namespace WriterState

/-- What producers may rely on. -/
structure Dependable (env : StoreEnv) (config : Config) (s : WriterState Record maxlen) :
    Prop where
  conserved : s.Conserved
  /-- No exception has left `flush`. -/
  quiet : ∀ thread exc, s.pc thread ≠ .raised exc
  /-- Whatever the database does, a flush that no other thread keeps waiting
  returns by its own steps. -/
  returns : ∀ thread caller since phase, s.pc thread = .flushing caller since phase →
    (∀ other, s.shared.flushLock = some other → other = thread) → ∀ faults : List DbFault,
    4 * config.retries + 5 ≤ faults.length →
    ∃ n t, run (WriterState.step (telemetryStore env) config) s
      ((faults.take n).map (.advance thread)) = some t ∧
        t.pc thread = .flushing caller since .returned
  /-- The worker stays in its loop until it is told to stop. -/
  alive : s.shared.stop = false → (s.pc .worker).Loops
  /-- Outside `flush` nothing keeps the worker waiting. -/
  proceeds : ∀ fault, (s.pc .worker).Loops → (∀ since phase, s.pc .worker ≠
    .flushing .worker since phase) →
    ∃ t, s.step (telemetryStore env) config (.advance .worker fault) = some t
  /-- The next round of the worker writes a buffer of valid records. -/
  writes : s.pc .worker = .loopTest → s.shared.stop = false → s.shared.flushLock = none →
    (∀ entry ∈ s.shared.buffer.items, Valid env entry.table entry.record) →
    ∃ n t, run (WriterState.step (telemetryStore env) config) s
      (List.replicate n (.advance .worker .none)) = some t ∧ t.pc .worker = .loopTest ∧
        t.shared.buffer.items = [] ∧ ∀ entry ∈ s.shared.buffer.items, entry ∈ t.shared.committed

/-- One more step of a run. -/
theorem run_step {R F : Type} {store : Store R F} {s t : WriterState R maxlen}
    {action : Action R F} (h : s.step store config action = some t) (rest : List (Action R F)) :
    run (WriterState.step store config) s (action :: rest) =
      run (WriterState.step store config) t rest := by
  rw [run, h, Option.bind_some]

/-- From the head of its loop to the drained buffer, in `flush`. -/
theorem worker_drains {R F : Type} (config : Config) (store : Store R F) (fault : F)
    {s : WriterState R maxlen} (hpc : s.pc .worker = .loopTest) (hstop : s.shared.stop = false)
    (hfree : s.shared.flushLock = none) :
    ∃ t : WriterState R maxlen, (∀ rest, run (WriterState.step store config) s
        (List.replicate 6 (.advance .worker fault) ++ rest) =
          run (WriterState.step store config) t rest) ∧
      t.shared = { s.shared with wake := false, flushLock := some .worker }.drain ∧
      t.pc .worker = .flushing .worker s.shared.enqueued.length
        (if s.shared.buffer.items.isEmpty then .leaving else .writing 0) := by
  have test : s.shared.threadStep store config .worker fault .loopTest =
      some (.loopWait, s.shared) := by
    simp [Shared.threadStep, hstop]
  obtain ⟨s1, h1, hs1, hp1⟩ := advance_step hpc test
  have wait : s1.shared.threadStep store config .worker fault .loopWait =
      some (.loopClear, s1.shared) := rfl
  obtain ⟨s2, h2, hs2, hp2⟩ := advance_step hp1 wait
  have clear : s2.shared.threadStep store config .worker fault .loopClear =
      some (.loopRetest, { s2.shared with wake := false }) := rfl
  obtain ⟨s3, h3, hs3, hp3⟩ := advance_step hp2 clear
  rw [hs2, hs1] at hs3
  have retest : s3.shared.threadStep store config .worker fault .loopRetest =
      some (.flushing .worker s3.shared.enqueued.length .entering, s3.shared) := by
    simp [Shared.threadStep, hs3, hstop]
  obtain ⟨s4, h4, hs4, hp4⟩ := advance_step hp3 retest
  have hfree4 : s4.shared.flushLock = none := by
    rw [hs4, hs3]
    exact hfree
  have enter : s4.shared.threadStep store config .worker fault
      (.flushing .worker s3.shared.enqueued.length .entering) =
        some (.flushing .worker s3.shared.enqueued.length (.draining 0),
          { s4.shared with flushLock := some .worker }) := by
    simp [Shared.threadStep, Shared.flushStep, hfree4]
  obtain ⟨s5, h5, hs5, hp5⟩ := advance_step hp4 enter
  have drains : s5.shared.threadStep store config .worker fault
      (.flushing .worker s3.shared.enqueued.length (.draining 0)) =
        some (.flushing .worker s3.shared.enqueued.length
          (if s5.shared.buffer.items.isEmpty then .leaving else .writing 0), s5.shared.drain) := rfl
  obtain ⟨s6, h6, hs6, hp6⟩ := advance_step hp5 drains
  rw [hs4, hs3] at hs5
  refine ⟨s6, fun rest => ?_, ?_, ?_⟩
  · change run (WriterState.step store config) s (_ :: _ :: _ :: _ :: _ :: _ :: rest) = _
    rw [run_step h1, run_step h2, run_step h3, run_step h4, run_step h5, run_step h6]
  · rw [hs6, hs5]
  · rw [hp6, hs5, hs3]

/-- From the end of a flush back to the head of the loop. -/
theorem worker_leaves {R F : Type} (config : Config) (store : Store R F) (fault : F)
    {s : WriterState R maxlen} {since : ℕ} (hpc : s.pc .worker = .flushing .worker since .leaving) :
    ∃ t : WriterState R maxlen, run (WriterState.step store config) s
        (List.replicate 2 (.advance .worker fault)) = some t ∧
      t.shared = { s.shared with flushLock := none } ∧ t.pc .worker = .loopTest := by
  have leave : s.shared.threadStep store config .worker fault (.flushing .worker since .leaving) =
      some (.flushing .worker since .returned, { s.shared with flushLock := none }) := rfl
  obtain ⟨s1, h1, hs1, hp1⟩ := advance_step hpc leave
  have back : s1.shared.threadStep store config .worker fault
      (.flushing .worker since .returned) = some (.loopTest, s1.shared) := rfl
  obtain ⟨s2, h2, hs2, hp2⟩ := advance_step hp1 back
  refine ⟨s2, ?_, hs2.trans hs1, hp2⟩
  change run (WriterState.step store config) s [_, _] = _
  rw [run_step h1, run_step h2]
  rfl

/-- A round of the worker writes a buffer of valid records. -/
theorem Steady.writes {s : WriterState Record maxlen} (h : s.Steady config)
    (hrecords : Admissible env (s.shared.enqueued.map Entry.sent))
    (hpc : s.pc .worker = .loopTest) (hstop : s.shared.stop = false)
    (hfree : s.shared.flushLock = none)
    (hvalid : ∀ entry ∈ s.shared.buffer.items, Valid env entry.table entry.record) :
    ∃ n t, run (WriterState.step (telemetryStore env) config) s
      (List.replicate n (.advance .worker .none)) = some t ∧ t.pc .worker = .loopTest ∧
        t.shared.buffer.items = [] ∧
          ∀ entry ∈ s.shared.buffer.items, entry ∈ t.shared.committed := by
  have hnone : s.shared.inFlight = [] := by
    refine h.inv.batch fun thread => ?_
    by_contra hcarries
    have hlocked := Pc.locked_of_carries (by simpa using hcarries)
    have howner := (h.inv.lock thread).mp hlocked
    rw [hfree] at howner
    cases howner
  obtain ⟨u, hrun, hshared, hupc⟩ :=
    worker_drains config (telemetryStore env) .none hpc hstop hfree
  by_cases hempty : s.shared.buffer.items.isEmpty = true
  · rw [if_pos hempty] at hupc
    obtain ⟨t, hleave, ht, htpc⟩ := worker_leaves config (telemetryStore env) .none hupc
    refine ⟨6 + 2, t, ?_, htpc, ?_, ?_⟩
    · rw [List.replicate_add, hrun, hleave]
    · rw [ht, hshared]
      rfl
    · rw [List.isEmpty_iff.mp hempty]
      exact fun _ hentry => nomatch hentry
  · rw [if_neg hempty] at hupc
    have hplaced : u.shared.Accounted := by
      rw [hshared]
      have hacc := h.inv.accounted
      exact Shared.drain_accounted ⟨hacc.numbered, hacc.placed, hacc.counted, hacc.ordered⟩ hnone
    have hflight : u.shared.inFlight = s.shared.buffer.items := by
      rw [hshared]
      rfl
    have hmore : Admissible env (u.shared.enqueued.map Entry.sent) := by
      rw [hshared]
      exact hrecords
    have hwrite : (telemetryStore env).write u.shared.committed (grouped u.shared.inFlight) .none =
        .ok (rowsOf (grouped u.shared.inFlight)) := by
      have hall : ∀ entry ∈ u.shared.inFlight, Valid env entry.table entry.record := by
        rw [hflight]
        exact hvalid
      have hspec := writeBatch_spec (fun entry hentry => (hall entry hentry).storable)
        (hmore.fresh.inFlight hplaced) .none
      change writeBatch env u.shared.committed (grouped u.shared.inFlight) .none = _
      cases hresult : writeBatch env u.shared.committed (grouped u.shared.inFlight) .none with
      | error exc =>
        rw [hresult] at hspec
        obtain ⟨entry, hentry, hinvalid⟩ := hspec.2 rfl
        exact absurd (hall entry hentry) hinvalid
      | ok kept =>
        rw [hresult] at hspec
        rw [hspec]
    have write : u.shared.threadStep (telemetryStore env) config .worker .none
        (.flushing .worker s.shared.enqueued.length (.writing 0)) =
          some (.flushing .worker s.shared.enqueued.length (.counting u.shared.inFlight.length),
            u.shared.commit (rowsOf (grouped u.shared.inFlight))) := by
      simp [Shared.threadStep, Shared.flushStep, hwrite]
    obtain ⟨v, hv, hvshared, hvpc⟩ := advance_step hupc write
    have count : v.shared.threadStep (telemetryStore env) config .worker .none
        (.flushing .worker s.shared.enqueued.length (.counting u.shared.inFlight.length)) =
          some (.flushing .worker s.shared.enqueued.length .leaving,
            v.shared.count u.shared.inFlight.length) := rfl
    obtain ⟨w, hw, hwshared, hwpc⟩ := advance_step hvpc count
    obtain ⟨t, hleave, ht, htpc⟩ := worker_leaves config (telemetryStore env) .none hwpc
    rw [hwshared, hvshared] at ht
    refine ⟨6 + 4, t, ?_, htpc, ?_, fun entry hentry => ?_⟩
    · rw [List.replicate_add, hrun]
      change run (WriterState.step (telemetryStore env) config) u (_ :: _ :: List.replicate 2 _) = _
      rw [run_step hv, run_step hw, hleave]
    · rw [ht, hshared]
      rfl
    · rw [ht]
      refine List.mem_append_right _ ?_
      obtain ⟨-, hperm, -⟩ := grouped_spec u.shared.inFlight
      rw [hperm.mem_iff, hflight]
      exact hentry

end WriterState

/-- Behind a `COMMIT` that failed as locked, the retry of the flush cannot
begin its transaction, and the batch is dropped. -/
theorem flush_after_failed_commit {D : Type} {block : Storage.Block D} {c : Storage.Connection D}
    (hopen : c.pending = none) (hfails : block.FailsToCommit c) (retry : Storage.Block D)
    (config : Config) (attempt : ℕ) :
    ∃ exc c', Storage.atomic retry (c.use (.atomic block)) = .error exc c' ∧
      Shared.handle config attempt exc = .dropping := by
  obtain ⟨hbegins, ⟨db, hbody⟩, hcommits⟩ := hfails
  obtain ⟨message, hmessage⟩ := Option.isSome_iff_exists.mp hcommits
  have hexits := Storage.atomic_exits block hopen
  rw [hbegins] at hexits
  dsimp only at hexits
  rw [hbody, hmessage] at hexits
  have hpending : (c.use (.atomic block)).pending = some db := by
    have huse : c.use (.atomic block) = Program.after (Storage.atomic block) c := rfl
    rw [huse]
    unfold Program.after
    rw [hexits]
  have hlocked : isLocked (Storage.sqlError "cannot start a transaction within a transaction") =
      false := by decide
  refine ⟨_, _, Storage.atomic_refused retry hpending, ?_⟩
  unfold Shared.handle
  rw [hlocked]
  rfl

end AiosDeck.Telemetry
