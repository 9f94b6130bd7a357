import AiosDeck.Agents.ExecutorRuns

/-!
# What an execution counts

The events, retries and delays of an execution are determined by the number of
attempts that are tried again. An execution without an observer ends after the
first attempt that is not, or raises at the first delay that is rejected.
-/

namespace AiosDeck.Agents

open Python Security Program

namespace ExecEvent

/-- Publication of `agent.execution.retried`. -/
def isRetry : ExecEvent → Bool
  | .published (.execution _ .retried _ _ _ _ _ _) => true
  | _ => false

/-- The delay that was slept. -/
def slept? : ExecEvent → Option PyNum
  | .slept delay => some delay
  | _ => none

end ExecEvent

/-- Numbered events, announced retries, and delays slept. -/
structure Tally where
  sequence : ℕ := 0
  retried : ℕ := 0
  sleeps : List PyNum := []

/-- The tally of an execution so far. -/
def ExecState.tally (s : ExecState) : Tally where
  sequence := s.sequence
  retried := s.events.countP ExecEvent.isRetry
  sleeps := s.events.filterMap ExecEvent.slept?

namespace AgentExecutor

variable {executor : AgentExecutor} {request : ExecutionRequest} {run : AgentRun}
variable {state current : AgentState} {tally : Tally}

/-- What only an attached bus sees. -/
def seen (executor : AgentExecutor) (n : ℕ) : ℕ := if executor.bus = true then n else 0

/-- More numbered events. -/
def told (executor : AgentExecutor) (n : ℕ) (tally : Tally) : Tally :=
  { tally with sequence := tally.sequence + seen executor n }

/-- One more attempt that is tried again after this delay: it is started,
announced as retried, and the lifecycle goes on running. -/
def again (executor : AgentExecutor) (delay : PyNum) (tally : Tally) : Tally where
  sequence := tally.sequence + seen executor 3
  retried := tally.retried + seen executor 1
  sleeps := tally.sleeps ++ [delay]

theorem told_told (m n : ℕ) : told executor n (told executor m tally) = told executor (m + n) tally := by
  unfold told seen
  split
  · rw [Nat.add_assoc]
  · rfl

/-- The execution is in this state of the lifecycle, with this tally. -/
structure At (state : AgentState) (tally : Tally) (s : ExecState) : Prop where
  lifecycle : s.lifecycle = state
  tally : s.tally = tally

/-- One more event on the bus, which announces a retry or does not. -/
theorem At.publishNext (hp : request.onProgress = none) (event : EventIdentity → Published)
    (retry : Bool)
    (hretry : ∀ identity, ExecEvent.isRetry (.published (event identity)) = retry) :
    Triple (At state tally) (publishNext request event)
      (fun _ => At state { tally with
        sequence := tally.sequence + 1
        retried := tally.retried + retry.toNat }) (fun _ _ => False) := by
  intro s h
  rw [publishNext_run hp]
  refine ⟨h.lifecycle, ?_⟩
  have hone : [ExecEvent.published (event (eventIdentity request (s.sequence + 1)))].countP
      ExecEvent.isRetry = retry.toNat := by
    rw [List.countP_singleton, hretry]
    cases retry <;> rfl
  rw [← h.tally]
  unfold ExecState.tally
  simp only [List.countP_append, List.filterMap_append, hone]
  congr 1
  exact List.append_nil _

theorem At.publishLifecycle (hp : request.onProgress = none) (previous current : AgentState) :
    Triple (At state tally) (publishLifecycle executor request previous current)
      (fun _ => At state (told executor 1 tally)) (fun _ _ => False) := by
  unfold told seen
  by_cases hb : executor.bus = true
  · refine Triple.ite (fun _ => ?_) (fun hnone => absurd hb hnone)
    rw [if_pos hb]
    exact At.publishNext hp _ false fun _ => rfl
  · refine Triple.ite (fun hsome => absurd hsome hb) (fun _ => ?_)
    rw [if_neg hb]
    exact Triple.pure fun s h => h

theorem At.hop (hp : request.onProgress = none) (hn : current ∈ state.next) :
    Triple (At state tally) (hop executor request state current)
      (fun _ => At current (told executor 1 tally)) (fun _ _ => False) := by
  refine Triple.bind (R := fun _ => At current tally) ?_ fun _ => At.publishLifecycle hp _ _
  intro s h
  rw [transition_run (by rw [h.lifecycle]; exact hn)]
  exact ⟨rfl, h.tally⟩

/-- An execution event: one more retry is announced when this is its topic. -/
theorem At.publishExecution (hp : request.onProgress = none) (topic : ExecutionTopic)
    (status : AgentState) (attempt : ℕ) (error : Option AgentError) (usage : Option Json)
    (observability : Option Observability) :
    Triple (At state tally)
      (publishExecution executor request topic status attempt error usage observability)
      (fun _ => At state { told executor 1 tally with
        retried := tally.retried + seen executor (decide (topic = .retried)).toNat })
      (fun _ _ => False) := by
  unfold told seen
  by_cases hb : executor.bus = true
  · refine Triple.ite (fun _ => ?_) (fun hnone => absurd hb hnone)
    rw [if_pos hb, if_pos hb]
    exact At.publishNext hp _ _ fun _ => by cases topic <;> rfl
  · refine Triple.ite (fun hsome => absurd hsome hb) (fun _ => ?_)
    rw [if_neg hb, if_neg hb]
    exact Triple.pure fun s h => h

/-- Any execution event but a retry. -/
theorem At.tell (hp : request.onProgress = none) {topic : ExecutionTopic}
    (htopic : topic ≠ .retried) (status : AgentState) (attempt : ℕ) (error : Option AgentError)
    (usage : Option Json) (observability : Option Observability) :
    Triple (At state tally)
      (AgentExecutor.publishExecution executor request topic status attempt error usage observability)
      (fun _ => At state (told executor 1 tally)) (fun _ _ => False) := by
  have hspec := @At.publishExecution executor request state tally hp topic status attempt error usage
    observability
  rw [decide_eq_false htopic] at hspec
  have hnone : seen executor false.toNat = 0 := by
    unfold seen
    split
    · rfl
    · rfl
  rw [hnone] at hspec
  exact hspec

/-- The delay before the next attempt is slept. -/
theorem At.sleep (delay : PyNum) :
    Triple (At state tally) (record (.slept delay))
      (fun _ => At state { tally with sleeps := tally.sleeps ++ [delay] }) (fun _ _ => False) := by
  refine Triple.modify fun s h => ⟨h.lifecycle, ?_⟩
  rw [← h.tally]
  unfold ExecState.tally
  simp only [List.countP_append, List.filterMap_append]
  rfl

/-- A step that is not counted. -/
theorem At.record {event : ExecEvent} (hretry : event.isRetry = false) (hslept : event.slept? = none) :
    Triple (At state tally) (record event) (fun _ => At state tally) (fun _ _ => False) := by
  refine Triple.modify fun s h => ⟨h.lifecycle, ?_⟩
  rw [← h.tally]
  unfold ExecState.tally
  simp only [List.countP_append, List.filterMap_append, List.countP_singleton, hretry,
    List.filterMap_cons, hslept, List.filterMap_nil, List.append_nil]
  rfl

/-- The outcome of this attempt. -/
structure OutcomeOf (attempt : ℕ) (retried : Bool) (outcome : ExecutionOutcome) : Prop where
  attempts : outcome.attempts = attempt
  retried : outcome.retried = retried

theorem conclude_tally (hp : request.onProgress = none) (attempt : ℕ) (retried : Bool)
    (result : AgentResult) :
    Triple (At .running tally) (conclude executor request attempt retried result)
      (fun outcome s => OutcomeOf attempt retried outcome ∧ s.tally = told executor 2 tally)
      (fun _ _ => False) := by
  refine Triple.ite (fun _ => ?_) (fun _ => ?_)
  · refine (At.hop hp (by simp [AgentState.next])).bind fun _ => ?_
    refine (At.tell hp (by decide) _ _ _ _ _).bind fun _ => ?_
    refine Triple.pure fun s hs => ⟨⟨rfl, rfl⟩, ?_⟩
    rw [hs.tally, told_told]
  · refine (At.hop hp (by simp [AgentState.next])).bind fun _ => ?_
    refine (At.tell hp (by decide) _ _ _ _ _).bind fun _ => ?_
    refine Triple.pure fun s hs => ⟨⟨rfl, rfl⟩, ?_⟩
    rw [hs.tally, told_told]

/-- An attempt returns with its outcome, or hands over its exception. -/
theorem tryAttempt_tally (hp : request.onProgress = none) (attempt : ℕ) (retried : Bool) :
    Triple (At .running tally) (tryAttempt executor request run attempt retried)
      (fun outcome s => failure (run.behaviour attempt) = none ∧
        OutcomeOf attempt retried outcome ∧ s.tally = told executor 2 tally)
      (fun exc s => failure (run.behaviour attempt) = some exc ∧ At .running tally s) := by
  refine (At.record rfl rfl).total.bind fun _ => ?_
  cases hb : run.behaviour attempt with
  | returned result =>
    refine (conclude_tally hp attempt retried _).conseq (fun _ h => h) (fun _ _ h => ⟨rfl, h⟩) ?_
    exact fun _ _ h => h.elim
  | raised exc => exact Triple.throw fun _ h => ⟨rfl, h⟩
  | timedOut => exact Triple.throw fun _ h => ⟨rfl, h⟩

/-- The handlers end the execution, leave it for another attempt, or raise what
the delay raises. -/
theorem retryOrEnd_tally (hp : request.onProgress = none) (attempt : ℕ) (retried : Bool)
    (error : AgentError) {topic : ExecutionTopic} {status : AgentState}
    (htopic : topic ≠ .retried) (hnext : status ∈ AgentState.running.next) :
    Triple (At .running tally)
      (retryOrEnd executor request attempt retried error topic status)
      (fun ended s => match ended with
        | some outcome => shouldRetry error (resolveRetryPolicy request) attempt = false ∧
            OutcomeOf attempt retried outcome ∧ s.tally = told executor 2 tally
        | none => shouldRetry error (resolveRetryPolicy request) attempt = true ∧ ∃ delay,
            pause (resolveRetryPolicy request) (attempt + 1) = .ok delay ∧
            At .running { told executor 2 tally with
              retried := tally.retried + seen executor 1
              sleeps := tally.sleeps ++ [delay] } s)
      (fun exc _ => shouldRetry error (resolveRetryPolicy request) attempt = true ∧
        pause (resolveRetryPolicy request) (attempt + 1) = .error exc) := by
  refine Triple.ite (fun hretry => ?_) (fun hretry => ?_)
  · refine (At.publishExecution hp _ _ _ _ _ _).total.bind fun _ => ?_
    refine (At.hop hp (by simp [AgentState.next])).total.bind fun _ => ?_
    cases hpause : pause (resolveRetryPolicy request) (attempt + 1) with
    | ok delay =>
      refine (At.sleep delay).total.bind fun _ => ?_
      refine Triple.pure fun s hs => ⟨hretry, delay, rfl, hs.lifecycle, ?_⟩
      rw [hs.tally]
      unfold told seen
      split
      · rfl
      · rfl
    | error exc =>
      refine Triple.bind (R := fun _ _ => False) (Triple.throw fun s hs => ⟨hretry, rfl⟩)
        fun _ => fun s hs => hs.elim
  · refine (At.hop hp hnext).total.bind fun _ => ?_
    refine (At.tell hp htopic _ _ _ _ _).total.bind fun _ => ?_
    refine Triple.pure fun s hs => ⟨by simpa using hretry, ⟨rfl, rfl⟩, ?_⟩
    rw [hs.tally, told_told]

/-- How an execution ends in this attempt. -/
structure EndsIn (executor : AgentExecutor) (run : AgentRun) (tally : Tally) (attempt : ℕ)
    (retried : Bool) (outcome : ExecutionOutcome) (s : ExecState) : Prop where
  outcome : OutcomeOf attempt (retried && !run.cancelled attempt) outcome
  tally : s.tally = told executor (if run.cancelled attempt then 2 else 3) tally

/-- What a turn of the loop leaves behind. -/
def TurnTally (executor : AgentExecutor) (request : ExecutionRequest) (run : AgentRun)
    (tally : Tally) (attempt : ℕ) (retried : Bool) (ended : Option ExecutionOutcome)
    (s : ExecState) : Prop :=
  match ended with
  | some outcome => ¬RetriesAfter request run attempt ∧
      EndsIn executor run tally attempt retried outcome s
  | none => RetriesAfter request run attempt ∧ ∃ delay,
      pause (resolveRetryPolicy request) (attempt + 1) = .ok delay ∧
      At .running (again executor delay tally) s

/-- The handlers of a failed attempt, which was announced as started. -/
theorem handle_tally (hp : request.onProgress = none) (attempt : ℕ) (retried : Bool) (exc : PyExc)
    (hc : run.cancelled attempt = false) (hf : failure (run.behaviour attempt) = some exc) :
    Triple (At .running (told executor 1 tally)) (handle executor request attempt retried exc)
      (TurnTally executor request run tally attempt retried)
      (fun exc _ => RetriesAfter request run attempt ∧
        pause (resolveRetryPolicy request) (attempt + 1) = .error exc) := by
  have hretries : RetriesAfter request run attempt ↔
      shouldRetry (handledError request exc) (resolveRetryPolicy request) attempt = true := by
    constructor
    · rintro ⟨-, exc', hf', hs⟩
      rw [hf] at hf'
      cases hf'
      exact hs
    · exact fun hs => ⟨hc, exc, hf, hs⟩
  have hspec : ∀ topic status, topic ≠ ExecutionTopic.retried →
      status ∈ AgentState.running.next →
      Triple (At .running (told executor 1 tally))
        (retryOrEnd executor request attempt retried (handledError request exc) topic status)
        (TurnTally executor request run tally attempt retried)
        (fun exc _ => RetriesAfter request run attempt ∧
          pause (resolveRetryPolicy request) (attempt + 1) = .error exc) := by
    intro topic status htopic hnext
    refine (retryOrEnd_tally hp attempt retried _ htopic hnext).conseq (fun _ h => h) ?_ ?_
    · intro ended s hs
      cases ended with
      | some outcome =>
        refine ⟨by rw [hretries, hs.1]; exact Bool.false_ne_true, ?_, ?_⟩
        · rw [hc, Bool.not_false, Bool.and_true]
          exact hs.2.1
        · rw [hc, hs.2.2, told_told]
          rfl
      | none =>
        obtain ⟨hretry, delay, hpause, hat⟩ := hs
        refine ⟨hretries.mpr hretry, delay, hpause, hat.lifecycle, ?_⟩
        rw [hat.tally, told_told]
        rfl
    · exact fun _ _ hs => ⟨hretries.mpr hs.1, hs.2⟩
  unfold handle
  unfold handledError at hspec
  by_cases ht : exc.cls = .timeoutError
  · rw [if_pos ht]
    rw [if_pos ht] at hspec
    exact hspec _ _ (by simp) (by simp [AgentState.next])
  · rw [if_neg ht]
    rw [if_neg ht] at hspec
    exact hspec _ _ (by simp) (by simp [AgentState.next])

/-- One turn of the attempt loop. -/
theorem turn_tally (hp : request.onProgress = none) (attempt : ℕ) (retried : Bool) :
    Triple (At .running tally) (turn executor request run attempt retried)
      (TurnTally executor request run tally attempt retried)
      (fun exc _ => RetriesAfter request run attempt ∧
        pause (resolveRetryPolicy request) (attempt + 1) = .error exc) := by
  refine Triple.ite (fun hc => ?_) (fun hc => ?_)
  · have hnot : ¬RetriesAfter request run attempt := fun h => by simp [h.1] at hc
    refine (At.hop hp (by simp [AgentState.next])).total.bind fun _ => ?_
    refine (At.tell hp (by decide) _ _ _ _ _).total.bind fun _ => ?_
    refine Triple.pure fun s hs => ⟨hnot, ⟨rfl, ?_⟩, ?_⟩
    · rw [hc, Bool.not_true, Bool.and_false]
    · rw [hs.tally, told_told, hc]
      rfl
  · have hc' : run.cancelled attempt = false := by simpa using hc
    refine (At.tell hp (by decide) _ _ _ _ _).total.bind fun _ => ?_
    refine Triple.tryCatch (R := fun exc s => failure (run.behaviour attempt) = some exc ∧
      At .running (told executor 1 tally) s) ?_ fun exc => ?_
    · refine Triple.map ((tryAttempt_tally hp _ _).strengthen_post fun outcome s hs => ?_)
      refine ⟨?_, ?_, ?_⟩
      · rintro ⟨-, exc, hf, -⟩
        rw [hs.1] at hf
        cases hf
      · rw [hc', Bool.not_false, Bool.and_true]
        exact hs.2.1
      · rw [hs.2.2, told_told, hc']
        rfl
    · intro s hs
      exact handle_tally hp _ _ exc hc' hs.1 s hs.2

/-- The delays before the first retries. -/
def delays (policy : Option RetryPolicy) (n : ℕ) : List PyNum :=
  (List.range n).filterMap fun k => (pause policy (k + 2)).toOption

/-- The tally of a running execution after this many retries. -/
def retriedTally (executor : AgentExecutor) (policy : Option RetryPolicy) (n : ℕ) : Tally where
  sequence := seen executor (4 + 3 * n)
  retried := seen executor n
  sleeps := delays policy n

theorem again_retriedTally {policy : Option RetryPolicy} {n : ℕ} {delay : PyNum}
    (h : pause policy (n + 2) = .ok delay) :
    again executor delay (retriedTally executor policy n) = retriedTally executor policy (n + 1) := by
  have hdelays : delays policy (n + 1) = delays policy n ++ [delay] := by
    unfold delays
    rw [List.range_succ, List.filterMap_append, List.filterMap_cons, h]
    rfl
  unfold again retriedTally seen
  rw [hdelays]
  split
  · congr 1
  · rfl

/-- The first attempts were tried again, each after an accepted delay. -/
def Retries (request : ExecutionRequest) (run : AgentRun) (n : ℕ) : Prop :=
  ∀ k, k < n → RetriesAfter request run (k + 1) ∧ PauseAccepted request (k + 2)

/-- An execution ends after this many retries. -/
structure Finishes (executor : AgentExecutor) (request : ExecutionRequest) (run : AgentRun)
    (n : ℕ) (outcome : ExecutionOutcome) (s : ExecState) : Prop where
  retries : Retries request run n
  last : ¬RetriesAfter request run (n + 1)
  ends : EndsIn executor run (retriedTally executor (resolveRetryPolicy request) n) (n + 1)
    (decide (0 < n)) outcome s

/-- The loop behind the first retries ends after some more, or raises at the first
delay that is rejected. -/
theorem attemptLoop_tally (hp : request.onProgress = none) (fuel : ℕ) :
    ∀ n : ℕ, maxAttempts (resolveRetryPolicy request) ≤ (fuel + (n + 1) : ℕ) → Retries request run n →
      Triple (At .running (retriedTally executor (resolveRetryPolicy request) n))
        (attemptLoop executor request run fuel (n + 1) (decide (0 < n)))
        (fun outcome s => ∃ n, Finishes executor request run n outcome s)
        (fun exc _ => ∃ n, Retries request run n ∧ RetriesAfter request run (n + 1) ∧
          pause (resolveRetryPolicy request) (n + 2) = .error exc) := by
  have hmore : ∀ n, Retries request run n → RetriesAfter request run (n + 1) →
      PauseAccepted request (n + 2) → Retries request run (n + 1) := by
    intro n hretries hafter hpause k hk
    rcases Nat.lt_succ_iff_lt_or_eq.mp hk with hlt | rfl
    · exact hretries k hlt
    · exact ⟨hafter, hpause⟩
  induction fuel with
  | zero =>
    intro n hmax hretries
    refine ((turn_tally hp (n + 1) (decide (0 < n))).conseq (fun _ h => h) (fun _ _ h => h)
      fun exc s h => ⟨n, hretries, h⟩).bind fun ended => ?_
    cases ended with
    | some outcome => exact Triple.pure fun s h => ⟨n, hretries, h.1, h.2⟩
    | none =>
      intro s h
      have hlt := h.1.lt_maxAttempts
      omega
  | succ fuel ih =>
    intro n hmax hretries
    refine ((turn_tally hp (n + 1) (decide (0 < n))).conseq (fun _ h => h) (fun _ _ h => h)
      fun exc s h => ⟨n, hretries, h⟩).bind fun ended => ?_
    cases ended with
    | some outcome => exact Triple.pure fun s h => ⟨n, hretries, h.1, h.2⟩
    | none =>
      rintro s ⟨hafter, delay, hpause, hat⟩
      rw [again_retriedTally hpause] at hat
      have hrest := ih (n + 1) (by omega) (hmore n hretries hafter ⟨delay, hpause⟩)
      rw [decide_eq_true (Nat.succ_pos n)] at hrest
      exact hrest s hat

/-- A refused execution ends with three events. -/
structure Refused (executor : AgentExecutor) (outcome : ExecutionOutcome) (s : ExecState) : Prop where
  outcome : OutcomeOf 1 false outcome
  tally : s.tally = told executor 3 {}

theorem refuse_tally (hp : request.onProgress = none) (error : AgentError) :
    Triple (At .created (told executor 1 {})) (refuse executor request error)
      (fun outcome s => Refused executor outcome s) (fun _ _ => False) := by
  refine (At.hop hp (by simp [AgentState.next])).bind fun _ => ?_
  refine (At.tell hp (by decide) _ _ _ _ _).bind fun _ => ?_
  refine Triple.pure fun s hs => ⟨⟨rfl, rfl⟩, ?_⟩
  rw [hs.tally, told_told, told_told]

/-- The outcome of an admitted execution, and what it raises. -/
theorem proceed_tally (hp : request.onProgress = none) :
    Triple (At .created (told executor 1 {})) (proceed executor request run)
      (fun outcome s => ∃ n, Finishes executor request run n outcome s)
      (fun exc _ => ∃ n, Retries request run n ∧ RetriesAfter request run (n + 1) ∧
        pause (resolveRetryPolicy request) (n + 2) = .error exc) := by
  refine (At.hop hp (by simp [AgentState.next])).total.bind fun _ => ?_
  refine (At.hop hp (by simp [AgentState.next])).total.bind fun _ => ?_
  refine (At.hop hp (by simp [AgentState.next])).total.bind fun _ => ?_
  have hstart : told executor 1 (told executor 1 (told executor 1 (told executor 1 {}))) =
      retriedTally executor (resolveRetryPolicy request) 0 := by
    rw [told_told, told_told, told_told]
    unfold told retriedTally seen
    split
    · rfl
    · rfl
  rw [hstart]
  exact attemptLoop_tally hp _ 0 (by omega) fun k hk => absurd hk (Nat.not_lt_zero k)

theorem publishSecurity_tally (topic : SecurityTopic) (action : String) (allowed : Bool)
    (reason : String) (violations : List String) :
    Triple (At state tally) (publishSecurity executor request topic action allowed reason violations)
      (fun _ => At state tally) (fun _ _ => False) := by
  unfold publishSecurity
  refine Triple.ite (fun _ => At.record rfl rfl) (fun _ => ?_)
  exact Triple.pure fun s hs => hs

/-- How an execution without an observer ends. -/
def Accounted (executor : AgentExecutor) (request : ExecutionRequest) (run : AgentRun)
    (outcome : ExecutionOutcome) (s : ExecState) : Prop :=
  (¬Admitted executor request ∧ Refused executor outcome s) ∨
    (Admitted executor request ∧ ∃ n, Finishes executor request run n outcome s)

/-- Why an execution without an observer raises. -/
def Aborted (executor : AgentExecutor) (request : ExecutionRequest) (run : AgentRun)
    (exc : PyExc) : Prop :=
  Admitted executor request ∧ ∃ n, Retries request run n ∧ RetriesAfter request run (n + 1) ∧
    pause (resolveRetryPolicy request) (n + 2) = .error exc

theorem execute_tally (executor : AgentExecutor) (request : ExecutionRequest) (run : AgentRun)
    (hp : request.onProgress = none) :
    Triple (fun s => s = {}) (execute executor request run) (Accounted executor request run)
      (fun exc _ => Aborted executor request run exc) := by
  have hrefuse : ∀ error, ¬Admitted executor request →
      Triple (At .created (told executor 1 {})) (refuse executor request error)
        (Accounted executor request run) (fun exc _ => Aborted executor request run exc) :=
    fun error hnot => (refuse_tally hp error).total.strengthen_post fun _ _ h => Or.inl ⟨hnot, h⟩
  have hproceed : Admitted executor request →
      Triple (At .created (told executor 1 {})) (proceed executor request run)
        (Accounted executor request run) (fun exc _ => Aborted executor request run exc) :=
    fun hadm => (proceed_tally hp).conseq (fun _ h => h) (fun _ _ h => Or.inr ⟨hadm, h⟩)
      fun _ _ h => ⟨hadm, h⟩
  have hcreated : Triple (fun s => s = {})
      (publishLifecycle executor request .created .created)
      (fun _ => At .created (told executor 1 {})) (fun _ _ => False) :=
    (At.publishLifecycle hp _ _).weaken_pre fun s hs => by rw [hs]; exact ⟨rfl, rfl⟩
  refine hcreated.total.bind fun _ => ?_
  cases htask : validateAgentTask request.task with
  | cons first rest =>
    refine hrefuse _ fun hadm => ?_
    rw [hadm.1] at htask
    cases htask
  | nil =>
    cases hcap : enforceCapabilities executor request with
    | error exc =>
      dsimp only
      refine hrefuse _ fun hadm => ?_
      rw [hadm.2.1] at hcap
      cases hcap
    | ok _ =>
      dsimp only
      cases hintent : request.intent with
      | none => exact hproceed ⟨htask, hcap, by simp [hintent]⟩
      | some intent =>
        refine (At.record rfl rfl).total.bind fun _ => ?_
        refine (publishSecurity_tally _ _ _ _ _).total.bind fun _ => ?_
        refine Triple.ite (fun hallowed => ?_) (fun hdenied => ?_)
        · refine (publishSecurity_tally _ _ _ _ _).total.bind fun _ => ?_
          refine hproceed ⟨htask, hcap, fun other hother => ?_⟩
          rw [hintent] at hother
          cases hother
          exact hallowed
        · refine (publishSecurity_tally _ _ _ _ _).total.bind fun _ => ?_
          exact hrefuse _ fun hadm => hdenied (hadm.2.2 intent hintent)

end AgentExecutor

end AiosDeck.Agents
