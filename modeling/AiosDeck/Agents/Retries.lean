import AiosDeck.Agents.Observers

/-!
# Retries as an outcome reports them

An outcome says how many attempts there were and whether one of them was a retry,
and a bus hears of each retry. The three agree but for an execution that is
cancelled between two attempts, or has no bus.
-/

namespace AiosDeck.Agents

open Python Security Program

namespace AgentExecutor

variable {executor : AgentExecutor} {request : ExecutionRequest} {run : AgentRun}

theorem Accounted.of_quiet {outcome : ExecutionOutcome} {s : ExecState}
    (h : Accounted executor (quiet request) run outcome s) :
    Accounted executor request run outcome s := by
  rcases h with hrefused | ⟨hadm, n, hfinishes⟩
  · exact Or.inl hrefused
  · exact Or.inr ⟨hadm, n, hfinishes.retries, hfinishes.last, hfinishes.ends⟩

/-- An execution that returns is accounted for, observed or not. -/
theorem execute_accounted {outcome : ExecutionOutcome} {s : ExecState}
    (h : execute executor request run {} = .ok outcome s) :
    Accounted executor request run outcome s := by
  have htally := execute_tally executor (quiet request) run rfl {} rfl
  rw [(execute_undisturbed h).1] at htally
  exact Accounted.of_quiet htally

/-- The three reports of a retry agree. -/
structure Agrees (outcome : ExecutionOutcome) (events : List ExecEvent) : Prop where
  attempts : outcome.retried = true ↔ 1 < outcome.attempts
  announced : 1 < outcome.attempts ↔ ∃ event ∈ events, event.isRetry = true

/-- What an accounted execution reports. -/
theorem Accounted.agrees_iff {outcome : ExecutionOutcome} {s : ExecState}
    (h : Accounted executor request run outcome s) :
    Agrees outcome s.events ↔
      (Admitted executor request → ∀ n, Retries request run n → ¬RetriesAfter request run (n + 1) →
        0 < n → executor.bus = true ∧ run.cancelled (n + 1) = false) := by
  have hevents : (∃ event ∈ s.events, event.isRetry = true) ↔ 0 < s.tally.retried := by
    unfold ExecState.tally
    rw [List.countP_pos_iff]
  have hagrees : Agrees outcome s.events ↔ (outcome.retried = true ↔ 1 < outcome.attempts) ∧
      (1 < outcome.attempts ↔ 0 < s.tally.retried) := by
    rw [← hevents]
    exact ⟨fun h => ⟨h.attempts, h.announced⟩, fun h => ⟨h.1, h.2⟩⟩
  rw [hagrees]
  rcases h with ⟨hnot, hrefused⟩ | ⟨hadm, n, hfinishes⟩
  · rw [hrefused.outcome.attempts, hrefused.outcome.retried, hrefused.tally]
    exact iff_of_true ⟨by decide, iff_of_false (lt_irrefl 1) (lt_irrefl 0)⟩ fun hadm => absurd hadm hnot
  · have hone : (Admitted executor request → ∀ m, Retries request run m →
        ¬RetriesAfter request run (m + 1) → 0 < m →
          executor.bus = true ∧ run.cancelled (m + 1) = false) ↔
        (0 < n → executor.bus = true ∧ run.cancelled (n + 1) = false) := by
      constructor
      · exact fun h => h hadm n hfinishes.retries hfinishes.last
      · intro h _ m hretries hlast
        rw [hretries.unique hlast hfinishes.retries hfinishes.last]
        exact h
    rw [hone, hfinishes.ends.outcome.attempts, hfinishes.ends.outcome.retried, hfinishes.ends.tally]
    unfold told retriedTally seen
    dsimp only
    cases hb : executor.bus with
    | true => cases hc : run.cancelled (n + 1) with
      | true => simp
      | false => simp
    | false => cases hc : run.cancelled (n + 1) with
      | true => simp
      | false => simp

/-- The reports of retries agree in every execution that returns exactly when an
execution with a retry has a bus and is not cancelled before its last attempt. -/
theorem execute_agrees_iff (executor : AgentExecutor) (request : ExecutionRequest)
    (run : AgentRun) :
    (∀ outcome s, execute executor request run {} = .ok outcome s → Agrees outcome s.events) ↔
      (Undisturbed executor request run → Admitted executor request → ∀ n, Retries request run n →
        ¬RetriesAfter request run (n + 1) → 0 < n →
        executor.bus = true ∧ run.cancelled (n + 1) = false) := by
  constructor
  · intro h hreturns
    obtain ⟨outcome, s, hrun, -⟩ := hreturns.execute_eq
    exact (execute_accounted hrun).agrees_iff.mp (h outcome s hrun)
  · intro h outcome s hrun
    exact (execute_accounted hrun).agrees_iff.mpr (h (execute_undisturbed hrun).2)

/-- An agent that raises, and a cancellation behind its first attempt. -/
def cancelledBetween : AgentRun where
  behaviour := fun _ => .raised ⟨.runtimeError, "boom"⟩
  cancelled := fun attempt => decide (attempt = 2)

/-- The outcome of the second attempt says that nothing was retried. -/
theorem cancelledBetween_disagrees :
    ¬∀ outcome s, execute {} (oneRetry (.int 0)) cancelledBetween {} = .ok outcome s →
      Agrees outcome s.events := by
  intro h
  have hagrees := h _ _ rfl
  exact absurd (hagrees.attempts.mpr (by decide)) (by decide)

end AgentExecutor

end AiosDeck.Agents
