import AiosDeck.Agents.ExecutorRuns
import AiosDeck.Logic.Trace

/-!
# When an execution reaches the agent

The events of an execution only grow. The agent is invoked exactly when the
request is admitted and the execution was not cancelled before its first
attempt, and the intent is checked exactly when the task and the
capabilities passed their own checks.
-/

namespace AiosDeck.Agents

open Python Security Program Trace

namespace ExecEvent

/-- Publication on the bus. -/
def isPublished : ExecEvent → Bool
  | .published _ => true
  | _ => false

/-- Submission of `agent.execute`. -/
def isInvoked : ExecEvent → Bool
  | .invoked _ => true
  | _ => false

/-- Validation of the intent. -/
def isChecked : ExecEvent → Bool
  | .checked _ _ => true
  | _ => false

end ExecEvent

namespace AgentExecutor

/-- The recorded events grew by allowed ones. -/
def Grows (allowed : ExecEvent → Prop) (s t : ExecState) : Prop :=
  Appends allowed s.events t.events

instance (allowed : ExecEvent → Prop) : Std.Refl (Grows allowed) where
  refl s := Appends.refl s.events

instance (allowed : ExecEvent → Prop) : IsTrans ExecState (Grows allowed) where
  trans _ _ _ h h' := h.trans h'

variable {executor : AgentExecutor} {request : ExecutionRequest} {run : AgentRun}
variable {allowed : ExecEvent → Prop}

theorem record_grows {event : ExecEvent} (h : allowed event) :
    Framed (Grows allowed) (record event) :=
  fun s => Appends.single s.events h

theorem transition_grows (nextState : AgentState) :
    Framed (Grows allowed) (transition nextState) := by
  intro s
  have hevents : (after (transition nextState) s).events = s.events := by
    cases ht : s.lifecycle.transition nextState with
    | ok state =>
      simp only [after, transition, bind, EStateM.bind, get, getThe, MonadStateOf.get, EStateM.get, ht]
      rfl
    | error exc =>
      simp only [after, transition, bind, EStateM.bind, get, getThe, MonadStateOf.get, EStateM.get, ht]
      rfl
  unfold Grows
  rw [hevents]
  exact Appends.refl s.events

section Published

variable (hpub : ∀ event, allowed (.published event))
include hpub

theorem publishNext_grows (event : EventIdentity → Published) :
    Framed (Grows allowed) (publishNext request event) := by
  refine Framed.bind (fun s => Appends.single s.events (hpub _)) fun _ => ?_
  unfold progress
  cases request.onProgress with
  | none => exact Framed.pure _
  | some handler =>
    refine Framed.get.bind fun s => ?_
    cases handler s.sequence with
    | none => exact Framed.pure _
    | some exc => exact Framed.throw _

theorem publishLifecycle_grows (previous current : AgentState) :
    Framed (Grows allowed) (publishLifecycle executor request previous current) :=
  Framed.ite (publishNext_grows hpub _) (Framed.pure _)

theorem publishExecution_grows (topic : ExecutionTopic) (status : AgentState) (attempt : ℕ)
    (error : Option AgentError) (usage : Option Json) (observability : Option Observability) :
    Framed (Grows allowed)
      (publishExecution executor request topic status attempt error usage observability) :=
  Framed.ite (publishNext_grows hpub _) (Framed.pure _)

theorem publishSecurity_grows (topic : SecurityTopic) (action : String) (granted : Bool)
    (reason : String) (violations : List String) :
    Framed (Grows allowed)
      (publishSecurity executor request topic action granted reason violations) :=
  Framed.ite (record_grows (hpub _)) (Framed.pure _)

theorem hop_grows (previous current : AgentState) :
    Framed (Grows allowed) (hop executor request previous current) :=
  (transition_grows current).bind fun _ => publishLifecycle_grows hpub _ _

theorem conclude_grows (attempt : ℕ) (retried : Bool) (result : AgentResult) :
    Framed (Grows allowed) (conclude executor request attempt retried result) := by
  refine Framed.ite ?_ ?_
  · refine (hop_grows hpub _ _).bind fun _ => ?_
    exact (publishExecution_grows hpub _ _ _ _ _ _).bind fun _ => Framed.pure _
  · refine (hop_grows hpub _ _).bind fun _ => ?_
    exact (publishExecution_grows hpub _ _ _ _ _ _).bind fun _ => Framed.pure _

theorem refuse_grows (error : AgentError) :
    Framed (Grows allowed) (refuse executor request error) := by
  refine (hop_grows hpub _ _).bind fun _ => ?_
  exact (publishExecution_grows hpub _ _ _ _ _ _).bind fun _ => Framed.pure _

theorem handle_grows (hslept : ∀ delay, allowed (.slept delay)) (attempt : ℕ) (retried : Bool)
    (exc : PyExc) : Framed (Grows allowed) (handle executor request attempt retried exc) := by
  have hretry : ∀ error topic status, Framed (Grows allowed)
      (retryOrEnd executor request attempt retried error topic status) := by
    intro error topic status
    refine Framed.ite ?_ ?_
    · refine (publishExecution_grows hpub _ _ _ _ _ _).bind fun _ => ?_
      refine (hop_grows hpub _ _).bind fun _ => ?_
      cases pause (resolveRetryPolicy request) (attempt + 1) with
      | ok delay => exact (record_grows (hslept delay)).bind fun _ => Framed.pure _
      | error exc => exact (Framed.throw exc).bind fun _ => Framed.pure _
    · refine (hop_grows hpub _ _).bind fun _ => ?_
      exact (publishExecution_grows hpub _ _ _ _ _ _).bind fun _ => Framed.pure _
  exact Framed.ite (hretry _ _ _) (hretry _ _ _)

theorem tryAttempt_grows (attempt : ℕ) (retried : Bool) (hinvoked : allowed (.invoked attempt)) :
    Framed (Grows allowed) (tryAttempt executor request run attempt retried) := by
  refine (record_grows hinvoked).bind fun _ => ?_
  cases run.behaviour attempt with
  | returned result => exact conclude_grows hpub _ _ _
  | raised exc => exact Framed.throw _
  | timedOut => exact Framed.throw _

theorem attemptLoop_grows (hslept : ∀ delay, allowed (.slept delay))
    (hinvoked : ∀ attempt, allowed (.invoked attempt)) (fuel attempt : ℕ) (retried : Bool) :
    Framed (Grows allowed) (attemptLoop executor request run fuel attempt retried) := by
  have hturn : ∀ attempt retried,
      Framed (Grows allowed) (turn executor request run attempt retried) := by
    intro attempt retried
    refine Framed.ite ?_ ?_
    · refine (hop_grows hpub _ _).bind fun _ => ?_
      exact (publishExecution_grows hpub _ _ _ _ _ _).bind fun _ => Framed.pure _
    · refine (publishExecution_grows hpub _ _ _ _ _ _).bind fun _ => Framed.tryCatch ?_ fun exc => ?_
      · exact (tryAttempt_grows hpub _ _ (hinvoked attempt)).map
      · exact handle_grows hpub hslept _ _ exc
  induction fuel generalizing attempt retried with
  | zero =>
    refine (hturn attempt retried).bind fun ended => ?_
    cases ended with
    | some outcome => exact Framed.pure _
    | none => exact Framed.throw _
  | succ fuel ih =>
    refine (hturn attempt retried).bind fun ended => ?_
    cases ended with
    | some outcome => exact Framed.pure _
    | none => exact ih (attempt + 1) true

theorem proceed_grows (hslept : ∀ delay, allowed (.slept delay))
    (hinvoked : ∀ attempt, allowed (.invoked attempt)) :
    Framed (Grows allowed) (proceed executor request run) := by
  refine (hop_grows hpub _ _).bind fun _ => (hop_grows hpub _ _).bind fun _ => ?_
  exact (hop_grows hpub _ _).bind fun _ => attemptLoop_grows hpub hslept hinvoked _ _ _

/-- A cancelled execution ends before its first attempt. -/
theorem proceed_cancelled (hc : run.cancelled 1 = true) :
    Framed (Grows allowed) (proceed executor request run) := by
  refine (hop_grows hpub _ _).bind fun _ => (hop_grows hpub _ _).bind fun _ => ?_
  refine (hop_grows hpub _ _).bind fun _ => ?_
  intro s
  have hkeeps : ∀ {α : Type} {x : ExecM α}, Framed (Grows allowed) x →
      Keeps (Grows allowed s) x :=
    fun h => h.keeps fun _ _ hst hs => IsTrans.trans _ _ _ hs hst
  have hturn : Triple (Grows allowed s) (turn executor request run 1 false)
      (fun ended t => ended.isSome = true ∧ Grows allowed s t) (fun _ => Grows allowed s) := by
    refine Triple.ite (fun _ => ?_) (fun hnot => absurd hc hnot)
    refine (hkeeps (hop_grows hpub _ _)).bind fun _ => ?_
    refine (hkeeps (publishExecution_grows hpub _ _ _ _ _ _)).bind fun _ => ?_
    exact Triple.pure fun t h => ⟨rfl, h⟩
  have hloop : ∀ fuel, Keeps (Grows allowed s) (attemptLoop executor request run fuel 1 false) := by
    intro fuel
    cases fuel with
    | zero =>
      refine hturn.bind fun ended => ?_
      cases ended with
      | some outcome => exact Triple.pure fun t h => h.2
      | none => exact fun t h => nomatch h.1
    | succ fuel =>
      refine hturn.bind fun ended => ?_
      cases ended with
      | some outcome => exact Triple.pure fun t h => h.2
      | none => exact fun t h => nomatch h.1
  exact (hloop _).after (Std.Refl.refl s)

end Published

section Invoked

variable (hp : request.onProgress = none)
include hp

/-- The first attempt of an execution that is not cancelled is made. -/
theorem proceed_invokes (hc : run.cancelled 1 = false) :
    Triple (Recorded executor .created 0) (proceed executor request run)
      (fun _ s => .invoked 1 ∈ s.events) (fun _ s => .invoked 1 ∈ s.events) := by
  have hkeeps : ∀ {α : Type} {x : ExecM α}, Framed (Grows fun _ => True) x →
      Keeps (fun s => .invoked 1 ∈ s.events) x :=
    fun h => h.keeps fun _ _ hst hs => hst.subset hs
  have hpub : ∀ event, (fun _ => True : ExecEvent → Prop) (.published event) := fun _ => trivial
  refine (Recorded.hop hp (by simp [AgentState.next])).total.bind fun _ => ?_
  refine (Recorded.hop hp (by simp [AgentState.next])).total.bind fun _ => ?_
  refine (Recorded.hop hp (by simp [AgentState.next])).total.bind fun _ => ?_
  have hturn : Triple (Recorded executor .running 0) (turn executor request run 1 false)
      (fun _ s => .invoked 1 ∈ s.events) (fun _ s => .invoked 1 ∈ s.events) := by
    refine Triple.ite (fun hyes => by simp [hc] at hyes) (fun _ => ?_)
    refine (Recorded.publishExecution hp _ _ _ _ _ _).total.bind fun _ => ?_
    refine Triple.tryCatch (Triple.map ?_) fun exc => hkeeps (handle_grows hpub (fun _ => trivial) _ _ _)
    refine Triple.bind (R := fun _ s => .invoked 1 ∈ s.events) ?_ fun _ => ?_
    · exact Triple.modify fun s _ => by simp
    · cases run.behaviour 1 with
      | returned result => exact hkeeps (conclude_grows hpub _ _ _)
      | raised exc => exact Triple.throw fun _ h => h
      | timedOut => exact Triple.throw fun _ h => h
  generalize (maxAttempts (resolveRetryPolicy request) - 1).toNat = fuel
  cases fuel with
  | zero =>
    refine hturn.bind fun ended => ?_
    cases ended with
    | some outcome => exact Triple.pure fun _ h => h
    | none => exact Triple.throw fun _ h => h
  | succ fuel =>
    refine hturn.bind fun ended => ?_
    cases ended with
    | some outcome => exact Triple.pure fun _ h => h
    | none => exact hkeeps (attemptLoop_grows hpub (fun _ => trivial) (fun _ => trivial) _ _ _)

/-- A result that the first attempt returns is the result of the execution. -/
theorem proceed_returns (hc : run.cancelled 1 = false) {result : AgentResult}
    (hr : run.behaviour 1 = .returned result) :
    Triple (Recorded executor .created 0) (proceed executor request run)
      (fun outcome _ => outcome.result = some (stamp request result)) (fun _ _ => False) := by
  refine (Recorded.hop hp (by simp [AgentState.next])).bind fun _ => ?_
  refine (Recorded.hop hp (by simp [AgentState.next])).bind fun _ => ?_
  refine (Recorded.hop hp (by simp [AgentState.next])).bind fun _ => ?_
  have hconclude : ∀ result, Triple (Recorded executor .running 1)
      (conclude executor request 1 false result)
      (fun outcome _ => outcome.result = some result) (fun _ _ => False) := by
    intro result
    refine Triple.ite (fun _ => ?_) (fun _ => ?_)
    · refine (Recorded.hop hp (by simp [AgentState.next])).bind fun _ => ?_
      refine (Recorded.publishExecution hp _ _ _ _ _ _).bind fun _ => ?_
      exact Triple.pure fun s _ => rfl
    · refine (Recorded.hop hp (by simp [AgentState.next])).bind fun _ => ?_
      refine (Recorded.publishExecution hp _ _ _ _ _ _).bind fun _ => ?_
      exact Triple.pure fun s _ => rfl
  have hturn : Triple (Recorded executor .running 0) (turn executor request run 1 false)
      (fun ended _ => ∃ outcome, ended = some outcome ∧
        outcome.result = some (stamp request result)) (fun _ _ => False) := by
    refine Triple.ite (fun hyes => by simp [hc] at hyes) (fun _ => ?_)
    refine (Recorded.publishExecution hp _ _ _ _ _ _).bind fun _ => ?_
    refine Triple.tryCatch (R := fun _ _ => False) (Triple.map ?_) fun exc s h => h.elim
    refine (Recorded.record rfl rfl rfl).bind fun _ => ?_
    rw [hr]
    exact (hconclude _).strengthen_post fun outcome _ h => ⟨outcome, rfl, h⟩
  generalize (maxAttempts (resolveRetryPolicy request) - 1).toNat = fuel
  cases fuel with
  | zero =>
    refine hturn.bind fun ended => ?_
    cases ended with
    | some outcome => exact Triple.pure fun _ h => by simpa using h
    | none => exact fun t h => by simp at h
  | succ fuel =>
    refine hturn.bind fun ended => ?_
    cases ended with
    | some outcome => exact Triple.pure fun _ h => by simpa using h
    | none => exact fun t h => by simp at h

end Invoked

/-- An admitted execution does what its attempt loop does. -/
theorem execute_of_proceed (hp : request.onProgress = none) (hadm : Admitted executor request)
    {Q : ExecutionOutcome → ExecState → Prop} {E : PyExc → ExecState → Prop}
    (h : Triple (Recorded executor .created 0) (proceed executor request run) Q E) :
    Triple (fun s => s = {}) (execute executor request run) Q E := by
  obtain ⟨htask, hcap, hintent⟩ := hadm
  refine (publishLifecycle_created hp).total.bind fun _ => ?_
  rw [htask]
  dsimp only
  rw [hcap]
  dsimp only
  cases hi : request.intent with
  | none => exact h
  | some intent =>
    refine (Recorded.record rfl rfl rfl).total.bind fun _ => ?_
    refine (publishSecurity_spec _ _ _ _ _).total.bind fun _ => ?_
    refine Triple.ite (fun _ => ?_) (fun hdenied => absurd (hintent intent hi) hdenied)
    exact (publishSecurity_spec _ _ _ _ _).total.bind fun _ => h

/-- The result of an outcome, if it has one, is what an attempt returned. -/
def Supplied (request : ExecutionRequest) (run : AgentRun) (outcome : ExecutionOutcome) : Prop :=
  ∀ result, outcome.result = some result →
    ∃ attempt returned, run.behaviour attempt = .returned returned ∧
      result = stamp request returned

/-- An outcome without a result needs no attempt. -/
theorem Supplied.of_none {outcome : ExecutionOutcome} (h : outcome.result = none) :
    Supplied request run outcome := by
  intro result hresult
  rw [h] at hresult
  cases hresult

/-- A turn that ends the loop ends it with a supplied outcome. -/
theorem turn_supplied (attempt : ℕ) (retried : Bool) :
    Triple (fun _ => True) (turn executor request run attempt retried)
      (fun ended _ => ∀ outcome, ended = some outcome → Supplied request run outcome)
      (fun _ _ => True) := by
  have hend : ∀ outcome : ExecutionOutcome, outcome.result = none →
      ∀ final, some outcome = some final → Supplied request run final := by
    intro outcome hnone final hfinal
    cases hfinal
    exact Supplied.of_none hnone
  refine Triple.ite (fun _ => ?_) (fun _ => ?_)
  · refine (Triple.any _ _).bind fun _ => (Triple.any _ _).bind fun _ => ?_
    exact Triple.pure fun _ _ => hend _ rfl
  · refine (Triple.any _ _).bind fun _ => ?_
    refine Triple.tryCatch (R := fun _ _ => True) (Triple.map ?_) fun exc => ?_
    · refine (Triple.any _ _).bind fun _ => ?_
      cases hb : run.behaviour attempt with
      | raised exc => exact Triple.throw fun _ _ => trivial
      | timedOut => exact Triple.throw fun _ _ => trivial
      | returned returned =>
        have hsupplied : ∀ outcome : ExecutionOutcome,
            outcome.result = some (stamp request returned) →
            ∀ final, some outcome = some final → Supplied request run final := by
          intro outcome hresult final hfinal result hfound
          cases hfinal
          rw [hresult] at hfound
          cases hfound
          exact ⟨attempt, returned, hb, rfl⟩
        refine Triple.ite (fun _ => ?_) (fun _ => ?_)
        · refine (Triple.any _ _).bind fun _ => (Triple.any _ _).bind fun _ => ?_
          exact Triple.pure fun _ _ => hsupplied _ rfl
        · refine (Triple.any _ _).bind fun _ => (Triple.any _ _).bind fun _ => ?_
          exact Triple.pure fun _ _ => hsupplied _ rfl
    · have hretry : ∀ error topic status,
          Triple (fun _ => True)
            (retryOrEnd executor request attempt retried error topic status)
            (fun ended _ => ∀ outcome, ended = some outcome → Supplied request run outcome)
            (fun _ _ => True) := by
        intro error topic status
        refine Triple.ite (fun _ => ?_) (fun _ => ?_)
        · refine (Triple.any _ _).bind fun _ => (Triple.any _ _).bind fun _ => ?_
          have hnone : ∀ outcome, (none : Option ExecutionOutcome) = some outcome →
              Supplied request run outcome := by
            intro outcome heq
            cases heq
          cases pause (resolveRetryPolicy request) (attempt + 1) with
          | ok delay => exact (Triple.any _ _).bind fun _ => Triple.pure fun _ _ => hnone
          | error exc => exact (Triple.any _ _).bind fun _ => Triple.pure fun _ _ => hnone
        · refine (Triple.any _ _).bind fun _ => (Triple.any _ _).bind fun _ => ?_
          exact Triple.pure fun _ _ => hend _ rfl
      exact Triple.ite (fun _ => hretry _ _ _) (fun _ => hretry _ _ _)

theorem attemptLoop_supplied (fuel attempt : ℕ) (retried : Bool) :
    Triple (fun _ => True) (attemptLoop executor request run fuel attempt retried)
      (fun outcome _ => Supplied request run outcome) (fun _ _ => True) := by
  induction fuel generalizing attempt retried with
  | zero =>
    refine (turn_supplied attempt retried).bind fun ended => ?_
    cases ended with
    | some outcome => exact Triple.pure fun _ h => h outcome rfl
    | none => exact Triple.throw fun _ _ => trivial
  | succ fuel ih =>
    refine (turn_supplied attempt retried).bind fun ended => ?_
    cases ended with
    | some outcome => exact Triple.pure fun _ h => h outcome rfl
    | none => exact (ih (attempt + 1) true).weaken_pre fun _ _ => trivial

/-- An execution has a result only for a valid task, and then an attempt
returned it. -/
theorem execute_supplied (executor : AgentExecutor) (request : ExecutionRequest)
    (run : AgentRun) :
    Triple (fun _ => True) (execute executor request run)
      (fun outcome _ => Supplied request run outcome ∧
        (outcome.result.isSome = true → validateAgentTask request.task = []))
      (fun _ _ => True) := by
  have hrefuse : ∀ error, Triple (fun _ => True) (refuse executor request error)
      (fun outcome _ => Supplied request run outcome ∧
        (outcome.result.isSome = true → validateAgentTask request.task = []))
      (fun _ _ => True) := by
    intro error
    refine (Triple.any _ _).bind fun _ => (Triple.any _ _).bind fun _ => ?_
    exact Triple.pure fun _ _ => ⟨Supplied.of_none rfl, fun hsome => by cases hsome⟩
  have hproceed : validateAgentTask request.task = [] →
      Triple (fun _ => True) (proceed executor request run)
        (fun outcome _ => Supplied request run outcome ∧
          (outcome.result.isSome = true → validateAgentTask request.task = []))
        (fun _ _ => True) := by
    intro htask
    refine (Triple.any _ _).bind fun _ => (Triple.any _ _).bind fun _ => ?_
    refine (Triple.any _ _).bind fun _ => ?_
    exact ((attemptLoop_supplied _ _ _).weaken_pre fun _ _ => trivial).strengthen_post
      fun _ _ h => ⟨h, fun _ => htask⟩
  refine Triple.bind (R := fun _ _ => True) (Triple.any _ _) fun _ => ?_
  cases htask : validateAgentTask request.task with
  | cons first rest => simpa only [htask] using hrefuse _
  | nil =>
    simp only [htask] at hrefuse hproceed ⊢
    cases enforceCapabilities executor request with
    | error exc => exact hrefuse _
    | ok _ =>
      cases request.intent with
      | none => exact hproceed trivial
      | some intent =>
        refine Triple.bind (R := fun _ _ => True) (Triple.any _ _) fun _ => ?_
        refine Triple.bind (R := fun _ _ => True) (Triple.any _ _) fun _ => ?_
        refine Triple.ite (fun _ => ?_) (fun _ => ?_)
        · exact Triple.bind (R := fun _ _ => True) (Triple.any _ _) fun _ => hproceed trivial
        · exact Triple.bind (R := fun _ _ => True) (Triple.any _ _) fun _ => hrefuse _

/-- `time.sleep` accepts every delay that the retry policy of the agent asks for. -/
def Rests (agent : Agent) : Prop :=
  ∀ policy, agent.metadata.retryPolicy = some policy → ∀ attempt : ℕ, 1 ≤ attempt →
    (attempt : ℤ) < policy.maxAttempts → ∃ delay, pause (some policy) (attempt + 1) = .ok delay

/-- An execution of an agent whose delays are accepted has an outcome. -/
theorem execute_total (executor : AgentExecutor) (request : ExecutionRequest) (run : AgentRun)
    (hp : request.onProgress = none) (hpolicy : request.retryPolicy = none)
    (hrests : Rests request.agent) :
    ∃ outcome s, execute executor request run {} = .ok outcome s ∧
      Supplied request run outcome ∧
      (outcome.result.isSome = true → validateAgentTask request.task = []) := by
  have hresolved : resolveRetryPolicy request = request.agent.metadata.retryPolicy := by
    unfold resolveRetryPolicy
    rw [hpolicy]
  have hsleep : RetriesSleep executor request run := by
    intro _ last hlast hretries
    have hlt := (hretries last hlast le_rfl).lt_maxAttempts
    have hone : 1 ≤ last := hlast
    unfold PauseAccepted
    rw [hresolved] at hlt ⊢
    cases hfound : request.agent.metadata.retryPolicy with
    | none =>
      rw [hfound] at hlt
      have hbound : (last : ℤ) < 1 := hlt
      omega
    | some policy =>
      rw [hfound] at hlt
      exact hrests policy hfound last hone hlt
  have hspec := execute_spec executor request run hp {} rfl
  have hsupplied := execute_supplied executor request run {} trivial
  cases hrun : execute executor request run {} with
  | error exc s =>
    rw [hrun] at hspec
    exact absurd hsleep hspec
  | ok outcome s =>
    rw [hrun] at hsupplied
    exact ⟨outcome, s, rfl, hsupplied⟩

/-- A refused or cancelled execution never invokes the agent. -/
theorem execute_idle (h : Admitted executor request → run.cancelled 1 = true) :
    Framed (Grows fun e => e.isInvoked = false) (execute executor request run) := by
  have hpub : ∀ event, (fun e => e.isInvoked = false : ExecEvent → Prop) (.published event) :=
    fun _ => rfl
  refine (publishLifecycle_grows hpub _ _).bind fun _ => ?_
  cases htask : validateAgentTask request.task with
  | cons first rest => exact refuse_grows hpub _
  | nil =>
    dsimp only
    cases hcap : enforceCapabilities executor request with
    | error exc => exact refuse_grows hpub _
    | ok _ =>
      dsimp only
      cases hi : request.intent with
      | none => exact proceed_cancelled hpub (h ⟨htask, hcap, by simp [hi]⟩)
      | some intent =>
        refine Framed.bind (R := Grows fun e => e.isInvoked = false) (record_grows rfl) fun _ => ?_
        refine (publishSecurity_grows hpub _ _ _ _ _).bind fun _ => ?_
        by_cases hallowed : (validateIntent intent request.agent.capabilities).allowed = true
        · have hadm : Admitted executor request := by
            refine ⟨htask, hcap, fun other hother => ?_⟩
            rw [hi] at hother
            cases hother
            exact hallowed
          rw [if_pos hallowed]
          exact (publishSecurity_grows hpub _ _ _ _ _).bind fun _ => proceed_cancelled hpub (h hadm)
        · rw [if_neg hallowed]
          exact (publishSecurity_grows hpub _ _ _ _ _).bind fun _ => refuse_grows hpub _

/-- Without an invocation there is no result. -/
theorem execute_resultless (h : Admitted executor request → run.cancelled 1 = true) :
    Triple (fun _ => True) (execute executor request run)
      (fun outcome _ => outcome.result = none) (fun _ _ => True) := by
  have hrefuse : ∀ error, Triple (fun _ => True) (refuse executor request error)
      (fun outcome _ => outcome.result = none) (fun _ _ => True) := by
    intro error
    refine (Triple.any _ _).bind fun _ => (Triple.any _ _).bind fun _ => ?_
    exact Triple.pure fun _ _ => rfl
  have hproceed : run.cancelled 1 = true → Triple (fun _ => True) (proceed executor request run)
      (fun outcome _ => outcome.result = none) (fun _ _ => True) := by
    intro hc
    have hturn : Triple (fun _ => True) (turn executor request run 1 false)
        (fun ended _ => ∃ outcome : ExecutionOutcome, ended = some outcome ∧ outcome.result = none)
        (fun _ _ => True) := by
      refine Triple.ite (fun _ => ?_) (fun hnot => absurd hc hnot)
      refine (Triple.any _ _).bind fun _ => (Triple.any _ _).bind fun _ => ?_
      exact Triple.pure fun _ _ => ⟨_, rfl, rfl⟩
    refine (Triple.any _ _).bind fun _ => (Triple.any _ _).bind fun _ => ?_
    refine (Triple.any _ _).bind fun _ => Triple.weaken_pre (P := fun _ => True) ?_ fun _ _ => trivial
    cases (maxAttempts (resolveRetryPolicy request) - 1).toNat with
    | zero =>
      refine hturn.bind fun ended => ?_
      rintro s ⟨outcome, rfl, hnone⟩
      exact hnone
    | succ fuel =>
      refine hturn.bind fun ended => ?_
      rintro s ⟨outcome, rfl, hnone⟩
      exact hnone
  refine Triple.bind (R := fun _ _ => True) (Triple.any _ _) fun _ => ?_
  cases htask : validateAgentTask request.task with
  | cons first rest => exact hrefuse _
  | nil =>
    dsimp only
    cases hcap : enforceCapabilities executor request with
    | error exc => exact hrefuse _
    | ok _ =>
      dsimp only
      cases hi : request.intent with
      | none => exact hproceed (h ⟨htask, hcap, by simp [hi]⟩)
      | some intent =>
        refine Triple.bind (R := fun _ _ => True) (Triple.any _ _) fun _ => ?_
        refine Triple.bind (R := fun _ _ => True) (Triple.any _ _) fun _ => ?_
        refine Triple.ite (fun hallowed => ?_) (fun _ => ?_)
        · have hadm : Admitted executor request := by
            refine ⟨htask, hcap, fun other hother => ?_⟩
            rw [hi] at hother
            cases hother
            exact hallowed
          exact Triple.bind (R := fun _ _ => True) (Triple.any _ _) fun _ => hproceed (h hadm)
        · exact Triple.bind (R := fun _ _ => True) (Triple.any _ _) fun _ => hrefuse _

/-- The first attempt of an admitted execution is made, unless cancelled. -/
theorem execute_invokes (hp : request.onProgress = none) (hadm : Admitted executor request)
    (hc : run.cancelled 1 = false) :
    .invoked 1 ∈ (after (execute executor request run) {}).events :=
  (execute_of_proceed hp hadm (proceed_invokes hp hc)).after rfl

/-- The agent is invoked exactly when the request is admitted and the
execution was not cancelled before its first attempt. -/
theorem execute_invoked_iff (executor : AgentExecutor) (request : ExecutionRequest)
    (run : AgentRun) (hp : request.onProgress = none) :
    (∃ attempt, .invoked attempt ∈ (after (execute executor request run) {}).events) ↔
      Admitted executor request ∧ run.cancelled 1 = false := by
  constructor
  · rintro ⟨attempt, hmem⟩
    by_contra hnot
    have hidle : Admitted executor request → run.cancelled 1 = true := by
      intro hadm
      by_contra hc
      exact hnot ⟨hadm, by simpa using hc⟩
    rcases Appends.mem (execute_idle hidle {}) hmem with hold | hnew
    · cases hold
    · cases hnew
  · rintro ⟨hadm, hc⟩
    exact ⟨1, execute_invokes hp hadm hc⟩

/-- When the task and the capabilities pass, the intent of the request is
checked; no other check is ever recorded. -/
theorem execute_checked_iff (executor : AgentExecutor) (request : ExecutionRequest)
    (run : AgentRun) (hp : request.onProgress = none) (intent : IntentPolicy)
    (decision : SecurityDecision) :
    .checked intent decision ∈ (after (execute executor request run) {}).events ↔
      validateAgentTask request.task = [] ∧ enforceCapabilities executor request = .ok () ∧
        request.intent = some intent ∧
        decision = validateIntent intent request.agent.capabilities := by
  let allowed (e : ExecEvent) : Prop := e = .checked intent decision →
    validateAgentTask request.task = [] ∧ enforceCapabilities executor request = .ok () ∧
      request.intent = some intent ∧ decision = validateIntent intent request.agent.capabilities
  have hpub : ∀ event, allowed (.published event) := fun _ h => nomatch h
  have hproceed : Framed (Grows allowed) (proceed executor request run) :=
    proceed_grows hpub (fun _ h => nomatch h) (fun _ h => nomatch h)
  constructor
  · intro hmem
    have hgrows : Framed (Grows allowed) (execute executor request run) := by
      refine (publishLifecycle_grows hpub _ _).bind fun _ => ?_
      cases htask : validateAgentTask request.task with
      | cons first rest => exact refuse_grows hpub _
      | nil =>
        dsimp only
        cases hcap : enforceCapabilities executor request with
        | error exc => exact refuse_grows hpub _
        | ok _ =>
          dsimp only
          cases hi : request.intent with
          | none => exact hproceed
          | some other =>
            refine (record_grows ?_).bind fun _ => ?_
            · intro heq
              cases heq
              exact ⟨htask, hcap, hi, rfl⟩
            refine (publishSecurity_grows hpub _ _ _ _ _).bind fun _ => Framed.ite ?_ ?_
            · exact (publishSecurity_grows hpub _ _ _ _ _).bind fun _ => hproceed
            · exact (publishSecurity_grows hpub _ _ _ _ _).bind fun _ => refuse_grows hpub _
    rcases Appends.mem (hgrows {}) hmem with hold | hnew
    · cases hold
    · exact hnew rfl
  · rintro ⟨htask, hcap, hi, rfl⟩
    let Checked (s : ExecState) : Prop :=
      .checked intent (validateIntent intent request.agent.capabilities) ∈ s.events
    have hkeeps : ∀ {α : Type} {x : ExecM α}, Framed (Grows fun _ => True) x → Keeps Checked x :=
      fun h => h.keeps fun _ _ hst hs => hst.subset hs
    have hany : ∀ event, (fun _ => True : ExecEvent → Prop) (.published event) := fun _ => trivial
    suffices hrun : Triple (fun s => s = {}) (execute executor request run) (fun _ => Checked)
        (fun _ => Checked) from hrun.after rfl
    refine (publishLifecycle_created hp).total.bind fun _ => ?_
    rw [htask]
    dsimp only
    rw [hcap]
    dsimp only
    rw [hi]
    refine Triple.bind (R := fun _ => Checked) (Triple.modify fun s _ => by simp [Checked]) fun _ => ?_
    refine (hkeeps (publishSecurity_grows hany _ _ _ _ _)).bind fun _ => Triple.ite (fun _ => ?_) (fun _ => ?_)
    · refine (hkeeps (publishSecurity_grows hany _ _ _ _ _)).bind fun _ => ?_
      exact hkeeps (proceed_grows hany (fun _ => trivial) (fun _ => trivial))
    · exact (hkeeps (publishSecurity_grows hany _ _ _ _ _)).bind fun _ => hkeeps (refuse_grows hany _)

/-- An admitted execution that is not cancelled returns what its first
attempt returned. -/
theorem execute_returns (executor : AgentExecutor) (request : ExecutionRequest) (run : AgentRun)
    (hp : request.onProgress = none) (hadm : Admitted executor request)
    (hc : run.cancelled 1 = false) {result : AgentResult}
    (hr : run.behaviour 1 = .returned result) :
    ∃ outcome s, execute executor request run {} = .ok outcome s ∧
      outcome.result = some (stamp request result) :=
  (execute_of_proceed hp hadm (proceed_returns hp hc hr)).returns rfl

end AgentExecutor

end AiosDeck.Agents
