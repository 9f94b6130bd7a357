import AiosDeck.Agents.Executor
import AiosDeck.Logic.Program

/-!
# Runs of the agent executor

Every run of `execute` keeps one invariant about what it has published. The
attempt loop ends in a terminal state of the lifecycle unless a retry that
it reaches has a delay on which `time.sleep` raises: the delay is computed
and slept inside the exception handler, where nothing catches it.
-/

namespace AiosDeck.Agents

open Python Security Program

namespace ExecEvent

/-- The lifecycle hop that a step publishes. -/
def hop? : ExecEvent → Option (AgentState × AgentState)
  | .published (.lifecycle _ previous current) => some (previous, current)
  | _ => none

/-- The sequence number that a published agent event carries. -/
def sequence? : ExecEvent → Option ℕ
  | .published (.lifecycle identity _ _) => some identity.sequence
  | .published (.execution identity _ _ _ _ _ _ _) => some identity.sequence
  | _ => none

/-- Publication of `agent.execution.started`. -/
def isStart : ExecEvent → Bool
  | .published (.execution _ .started _ _ _ _ _ _) => true
  | _ => false

end ExecEvent

/-- Published lifecycle hops, oldest first. -/
def hops (events : List ExecEvent) : List (AgentState × AgentState) :=
  events.filterMap ExecEvent.hop?

/-- Sequence numbers of the published agent events, oldest first. -/
def sequences (events : List ExecEvent) : List ℕ := events.filterMap ExecEvent.sequence?

/-- Number of published `agent.execution.started` events. -/
def starts (events : List ExecEvent) : ℕ := events.countP ExecEvent.isStart

@[simp] theorem hops_append (events more : List ExecEvent) :
    hops (events ++ more) = hops events ++ hops more := List.filterMap_append

@[simp] theorem sequences_append (events more : List ExecEvent) :
    sequences (events ++ more) = sequences events ++ sequences more := List.filterMap_append

@[simp] theorem starts_append (events more : List ExecEvent) :
    starts (events ++ more) = starts events + starts more := List.countP_append

/-- In a path from a state that is not terminal only the last hop can enter
a terminal state. -/
theorem LifecyclePath.terminal_last {start : AgentState} {hops : List (AgentState × AgentState)}
    (h : LifecyclePath start hops) (hs : start.terminal = false)
    (ht : (lastState start hops).terminal = true) :
    ∃ init previous, hops = init ++ [(previous, lastState start hops)] ∧
      ∀ hop ∈ init, hop.2.terminal = false := by
  induction hops generalizing start with
  | nil => simp [lastState, hs] at ht
  | cons hop rest ih =>
    obtain ⟨-, -, hr⟩ := h
    have hlast : lastState start (hop :: rest) = lastState hop.2 rest := rfl
    rw [hlast] at ht ⊢
    by_cases hterm : hop.2.terminal = true
    · have hnil : rest = [] := by
        cases rest with
        | nil => rfl
        | cons second rest =>
          have hn := hr.2.1
          rw [AgentState.next_of_terminal hterm] at hn
          cases hn
      subst hnil
      exact ⟨[], hop.1, rfl, fun _ hmem => absurd hmem List.not_mem_nil⟩
    · obtain ⟨init, previous, heq, hinit⟩ := ih hr (by simpa using hterm) ht
      refine ⟨hop :: init, previous, congrArg (hop :: ·) heq, ?_⟩
      intro other hmem
      rcases List.mem_cons.mp hmem with rfl | hmem
      · simpa using hterm
      · exact hinit other hmem

namespace AgentExecutor

/-- What an execution in lifecycle state `state` has recorded after at most
`started` attempts. -/
structure Recorded (executor : AgentExecutor) (state : AgentState) (started : ℕ)
    (s : ExecState) : Prop where
  /-- The lifecycle object is in this state. -/
  lifecycle : s.lifecycle = state
  /-- The published hops lead from `created` to this state. -/
  path : executor.bus = true → ∃ rest, hops s.events = (.created, .created) :: rest ∧
    LifecyclePath .created rest ∧ lastState .created rest = state
  /-- Events are numbered from one without gaps. -/
  numbered : executor.bus = true → sequences s.events = List.range' 1 s.sequence
  /-- Attempts announced so far. -/
  announced : starts s.events ≤ started

variable {executor : AgentExecutor} {request : ExecutionRequest} {run : AgentRun}
variable {state current : AgentState} {started : ℕ}

theorem Recorded.mono {s : ExecState} (h : Recorded executor state started s) {later : ℕ}
    (hl : started ≤ later) : Recorded executor state later s :=
  ⟨h.lifecycle, h.path, h.numbered, h.announced.trans hl⟩

/-- A step that publishes no agent event changes nothing in the record. -/
theorem Recorded.record {event : ExecEvent} (hh : event.hop? = none) (hq : event.sequence? = none)
    (hs : event.isStart = false) :
    Triple (Recorded executor state started) (record event)
      (fun _ => Recorded executor state started) (fun _ _ => False) := by
  refine Triple.modify fun s h => ⟨h.lifecycle, ?_, ?_, ?_⟩
  · have hnone : hops [event] = [] := by simp [hops, hh]
    simpa [hnone] using h.path
  · have hnone : sequences [event] = [] := by simp [sequences, hq]
    simpa [hnone] using h.numbered
  · have hzero : starts [event] = 0 := by simp [starts, hs]
    simpa [hzero] using h.announced

/-- `publishNext` without a progress hook only appends the numbered event. -/
theorem publishNext_run (hp : request.onProgress = none) (event : EventIdentity → Published)
    (s : ExecState) :
    publishNext request event s = .ok () { s with
      sequence := s.sequence + 1
      events := s.events ++ [.published (event (eventIdentity request (s.sequence + 1)))] } := by
  simp only [publishNext, progress, hp]
  rfl

theorem transition_run {s : ExecState} (h : current ∈ s.lifecycle.next) :
    transition current s = .ok () { s with lifecycle := current } := by
  have ht : s.lifecycle.transition current = .ok current := by
    simp [AgentState.transition, h]
  simp only [transition, bind, EStateM.bind, get, getThe, MonadStateOf.get, EStateM.get, ht]
  rfl

/-- A permitted hop advances the record along the lifecycle. -/
theorem Recorded.hop (hp : request.onProgress = none) (hn : current ∈ state.next) :
    Triple (Recorded executor state started) (hop executor request state current)
      (fun _ => Recorded executor current started) (fun _ _ => False) := by
  intro s h
  have hl : current ∈ s.lifecycle.next := by rw [h.lifecycle]; exact hn
  unfold AgentExecutor.hop publishLifecycle
  simp only [bind, EStateM.bind, transition_run hl]
  by_cases hb : executor.bus = true
  · rw [if_pos hb, publishNext_run hp]
    obtain ⟨rest, hr, hpath, hlast⟩ := h.path hb
    refine ⟨rfl, fun _ => ⟨rest ++ [(state, current)], ?_, ?_, ?_⟩, fun _ => ?_, ?_⟩
    · rw [hops_append, hr]
      rfl
    · rw [← hlast] at hn ⊢
      exact hpath.append hn
    · simp
    · rw [sequences_append, h.numbered hb, List.range'_1_concat, Nat.add_comm 1]
      rfl
    · rw [starts_append]
      exact h.announced
  · rw [if_neg hb]
    exact ⟨rfl, fun hb' => absurd hb' hb, fun hb' => absurd hb' hb, h.announced⟩

/-- Publishing an execution event: one more attempt is announced when its
topic is `started`. -/
theorem Recorded.publishExecution (hp : request.onProgress = none) (topic : ExecutionTopic)
    (status : AgentState) (attempt : ℕ) (error : Option AgentError) (usage : Option Json)
    (observability : Option Observability) :
    Triple (Recorded executor state started)
      (publishExecution executor request topic status attempt error usage observability)
      (fun _ => Recorded executor state (if topic = .started then started + 1 else started))
      (fun _ _ => False) := by
  intro s h
  unfold AgentExecutor.publishExecution
  by_cases hb : executor.bus = true
  · rw [if_pos hb, publishNext_run hp]
    obtain ⟨rest, hr, hpath⟩ := h.path hb
    refine ⟨h.lifecycle, fun _ => ⟨rest, ?_, hpath⟩, fun _ => ?_, ?_⟩
    · rw [hops_append, hr]
      simp [hops, ExecEvent.hop?]
    · rw [sequences_append, h.numbered hb, List.range'_1_concat, Nat.add_comm 1]
      rfl
    · have ha := h.announced
      rw [starts_append]
      cases topic <;> simp [starts, ExecEvent.isStart] at ha ⊢ <;> omega
  · rw [if_neg hb]
    refine h.mono ?_
    split <;> omega

/-- The exception that reaches the handlers of an attempt. -/
def failure : Attempt → Option PyExc
  | .returned _ => none
  | .raised exc => some exc
  | .timedOut => some ⟨.timeoutError, ""⟩

/-- The error that the handlers make of an exception. -/
def handledError (request : ExecutionRequest) (exc : PyExc) : AgentError :=
  if exc.cls = .timeoutError then timeoutError request else errorFromException exc

/-- An attempt that is made, fails, and may be tried again. -/
def RetriesAfter (request : ExecutionRequest) (run : AgentRun) (attempt : ℕ) : Prop :=
  run.cancelled attempt = false ∧ ∃ exc, failure (run.behaviour attempt) = some exc ∧
    shouldRetry (handledError request exc) (resolveRetryPolicy request) attempt = true

/-- `time.sleep` accepts the delay computed before this attempt. -/
def PauseAccepted (request : ExecutionRequest) (attempt : ℕ) : Prop :=
  ∃ delay, pause (resolveRetryPolicy request) attempt = .ok delay

/-- Every retry reached from this attempt on has an accepted delay. -/
def DelaysAccepted (request : ExecutionRequest) (run : AgentRun) (attempt : ℕ) : Prop :=
  ∀ last, attempt ≤ last → (∀ k, attempt ≤ k → k ≤ last → RetriesAfter request run k) →
    PauseAccepted request (last + 1)

/-- Without a retry no delay is computed. -/
theorem DelaysAccepted.of_not_retries {attempt : ℕ} (h : ¬RetriesAfter request run attempt) :
    DelaysAccepted request run attempt :=
  fun _ hle hall => absurd (hall attempt le_rfl hle) h

/-- The delays from an attempt that retries: its own, then the later ones. -/
theorem DelaysAccepted.step {attempt : ℕ} (h : RetriesAfter request run attempt) :
    DelaysAccepted request run attempt ↔
      PauseAccepted request (attempt + 1) ∧ DelaysAccepted request run (attempt + 1) := by
  constructor
  · intro hall
    refine ⟨hall attempt le_rfl fun k hk hk' => ?_, fun last hlast hretry => ?_⟩
    · have heq : k = attempt := by omega
      rw [heq]
      exact h
    · refine hall last (by omega) fun k hk hk' => ?_
      rcases Nat.eq_or_lt_of_le hk with rfl | hlt
      · exact h
      · exact hretry k hlt hk'
  · rintro ⟨hown, hrest⟩ last hlast hretry
    rcases Nat.eq_or_lt_of_le hlast with rfl | hlt
    · exact hown
    · exact hrest last hlt fun k hk hk' => hretry k (by omega) hk'

/-- The record of an execution that has ended with this outcome. -/
def Concluded (executor : AgentExecutor) (started : ℕ) (outcome : ExecutionOutcome)
    (s : ExecState) : Prop :=
  outcome.status.terminal = true ∧ Recorded executor outcome.status started s

/-- A returned result ends the execution. -/
theorem conclude_spec (hp : request.onProgress = none) (attempt : ℕ) (retried : Bool)
    (result : AgentResult) :
    Triple (Recorded executor .running started) (conclude executor request attempt retried result)
      (Concluded executor started) (fun _ _ => False) := by
  refine Triple.ite (fun _ => ?_) (fun _ => ?_)
  · refine (Recorded.hop hp (by simp [AgentState.next])).bind fun _ => ?_
    refine (Recorded.publishExecution hp _ _ _ _ _ _).bind fun _ => ?_
    exact Triple.pure fun s hs => ⟨rfl, hs⟩
  · refine (Recorded.hop hp (by simp [AgentState.next])).bind fun _ => ?_
    refine (Recorded.publishExecution hp _ _ _ _ _ _).bind fun _ => ?_
    exact Triple.pure fun s hs => ⟨rfl, hs⟩

/-- An attempt returns with a result, or hands its exception to the
handlers with the record as it was. -/
theorem tryAttempt_spec (hp : request.onProgress = none) (attempt : ℕ) (retried : Bool) :
    Triple (Recorded executor .running started) (tryAttempt executor request run attempt retried)
      (fun outcome s => Concluded executor started outcome s ∧
        failure (run.behaviour attempt) = none)
      (fun exc s => Recorded executor .running started s ∧
        failure (run.behaviour attempt) = some exc) := by
  refine (Recorded.record rfl rfl rfl).total.bind fun _ => ?_
  cases hb : run.behaviour attempt with
  | returned result =>
    refine (conclude_spec hp attempt retried _).conseq (fun _ h => h) (fun _ _ h => ⟨h, rfl⟩) ?_
    exact fun _ _ h => h.elim
  | raised exc => exact Triple.throw fun _ h => ⟨h, rfl⟩
  | timedOut => exact Triple.throw fun _ h => ⟨h, rfl⟩

/-- The handlers either end the execution or leave it running for a retry
whose delay was slept; they raise exactly when that delay is rejected. -/
theorem retryOrEnd_spec (hp : request.onProgress = none) (attempt : ℕ) (retried : Bool)
    (error : AgentError) {topic : ExecutionTopic} {status : AgentState}
    (htopic : topic ≠ .started) (hnext : status ∈ AgentState.running.next)
    (hterm : status.terminal = true) :
    Triple (Recorded executor .running started)
      (retryOrEnd executor request attempt retried error topic status)
      (fun ended s => match ended with
        | some outcome => Concluded executor started outcome s ∧
            shouldRetry error (resolveRetryPolicy request) attempt = false
        | none => Recorded executor .running started s ∧
            shouldRetry error (resolveRetryPolicy request) attempt = true ∧
            PauseAccepted request (attempt + 1))
      (fun _ _ => shouldRetry error (resolveRetryPolicy request) attempt = true ∧
        ¬PauseAccepted request (attempt + 1)) := by
  refine Triple.ite (fun hretry => ?_) (fun hretry => ?_)
  · refine (Recorded.publishExecution hp _ _ _ _ _ _).total.bind fun _ => ?_
    refine (Recorded.hop hp (by simp [AgentState.next])).total.bind fun _ => ?_
    cases hpause : pause (resolveRetryPolicy request) (attempt + 1) with
    | ok delay =>
      refine (Recorded.record rfl rfl rfl).total.bind fun _ => ?_
      exact Triple.pure fun s hs => ⟨hs, hretry, delay, hpause⟩
    | error exc =>
      refine Triple.bind (R := fun _ _ => False) (Triple.throw fun s hs => ⟨hretry, ?_⟩)
        fun _ => fun s hs => hs.elim
      rintro ⟨delay, hok⟩
      rw [hpause] at hok
      cases hok
  · refine (Recorded.hop hp hnext).total.bind fun _ => ?_
    refine (Recorded.publishExecution hp _ _ _ _ _ _).total.bind fun _ => ?_
    refine Triple.pure fun s hs => ⟨⟨hterm, ?_⟩, by simpa using hretry⟩
    rw [if_neg htopic] at hs
    exact hs

/-- What one turn of the loop establishes. -/
def TurnDone (executor : AgentExecutor) (request : ExecutionRequest) (run : AgentRun)
    (attempt : ℕ) (ended : Option ExecutionOutcome) (s : ExecState) : Prop :=
  match ended with
  | some outcome => Concluded executor attempt outcome s ∧ ¬RetriesAfter request run attempt
  | none => Recorded executor .running attempt s ∧ RetriesAfter request run attempt ∧
      PauseAccepted request (attempt + 1)

/-- The handlers of a failed attempt. -/
theorem handle_spec (hp : request.onProgress = none) (attempt : ℕ) (retried : Bool) (exc : PyExc)
    (hc : run.cancelled attempt = false) (hf : failure (run.behaviour attempt) = some exc) :
    Triple (Recorded executor .running attempt) (handle executor request attempt retried exc)
      (TurnDone executor request run attempt)
      (fun _ _ => RetriesAfter request run attempt ∧ ¬PauseAccepted request (attempt + 1)) := by
  have hretries : RetriesAfter request run attempt ↔
      shouldRetry (handledError request exc) (resolveRetryPolicy request) attempt = true := by
    constructor
    · rintro ⟨-, exc', hf', hs⟩
      rw [hf] at hf'
      cases hf'
      exact hs
    · exact fun hs => ⟨hc, exc, hf, hs⟩
  have hspec : ∀ topic status, topic ≠ ExecutionTopic.started →
      status ∈ AgentState.running.next → status.terminal = true →
      Triple (Recorded executor .running attempt)
        (retryOrEnd executor request attempt retried (handledError request exc) topic status)
        (TurnDone executor request run attempt)
        (fun _ _ => RetriesAfter request run attempt ∧ ¬PauseAccepted request (attempt + 1)) := by
    intro topic status htopic hnext hterm
    refine (retryOrEnd_spec hp attempt retried _ htopic hnext hterm).conseq (fun _ h => h) ?_ ?_
    · intro ended s hs
      cases ended with
      | some outcome => exact ⟨hs.1, by rw [hretries, hs.2]; exact Bool.false_ne_true⟩
      | none => exact ⟨hs.1, hretries.mpr hs.2.1, hs.2.2⟩
    · exact fun _ _ hs => ⟨hretries.mpr hs.1, hs.2⟩
  unfold handle
  unfold handledError at hspec
  by_cases ht : exc.cls = .timeoutError
  · rw [if_pos ht]
    rw [if_pos ht] at hspec
    exact hspec _ _ (by simp) (by simp [AgentState.next]) rfl
  · rw [if_neg ht]
    rw [if_neg ht] at hspec
    exact hspec _ _ (by simp) (by simp [AgentState.next]) rfl

/-- One turn of the attempt loop. -/
theorem turn_spec (hp : request.onProgress = none) (attempt : ℕ) (retried : Bool) :
    Triple (Recorded executor .running attempt) (turn executor request run (attempt + 1) retried)
      (TurnDone executor request run (attempt + 1))
      (fun _ _ => RetriesAfter request run (attempt + 1) ∧
        ¬PauseAccepted request (attempt + 2)) := by
  refine Triple.ite (fun hc => ?_) (fun hc => ?_)
  · have hnot : ¬RetriesAfter request run (attempt + 1) := fun h => by simp [h.1] at hc
    refine (Recorded.hop hp (by simp [AgentState.next])).total.bind fun _ => ?_
    refine (Recorded.publishExecution hp _ _ _ _ _ _).total.bind fun _ => ?_
    exact Triple.pure fun s hs => ⟨⟨rfl, hs.mono (by simp)⟩, hnot⟩
  · refine (Recorded.publishExecution hp _ _ _ _ _ _).total.bind fun _ => ?_
    have hc' : run.cancelled (attempt + 1) = false := by simpa using hc
    refine Triple.tryCatch (R := fun exc s => Recorded executor .running (attempt + 1) s ∧
      failure (run.behaviour (attempt + 1)) = some exc) ?_ fun exc => ?_
    · refine Triple.map ((tryAttempt_spec hp _ _).strengthen_post fun outcome s hs => ?_)
      refine ⟨hs.1, ?_⟩
      rintro ⟨-, exc, hf, -⟩
      rw [hs.2] at hf
      cases hf
    · intro s hs
      exact handle_spec hp _ _ exc hc' hs.2 s hs.1

/-- A retry needs an attempt below the maximum. -/
theorem RetriesAfter.lt_maxAttempts {attempt : ℕ} (h : RetriesAfter request run attempt) :
    (attempt : ℤ) < maxAttempts (resolveRetryPolicy request) := by
  obtain ⟨-, exc, -, hs⟩ := h
  unfold shouldRetry at hs
  cases hpolicy : resolveRetryPolicy request with
  | none => simp [hpolicy] at hs
  | some policy =>
    rw [hpolicy] at hs
    by_cases hle : policy.maxAttempts ≤ attempt
    · simp [hle] at hs
    · simpa [maxAttempts] using hle

/-- The whole loop: it ends in a terminal state when every delay it reaches
is accepted, and otherwise raises. The fuel covers the attempts left. -/
theorem attemptLoop_spec (hp : request.onProgress = none) (limit : ℕ)
    (hlimit : maxAttempts (resolveRetryPolicy request) ≤ limit) (fuel attempt : ℕ)
    (hfuel : fuel + (attempt + 1) = limit) (retried : Bool) :
    Triple (Recorded executor .running attempt)
      (attemptLoop executor request run fuel (attempt + 1) retried)
      (fun outcome s => Concluded executor limit outcome s ∧
        DelaysAccepted request run (attempt + 1))
      (fun _ _ => ¬DelaysAccepted request run (attempt + 1)) := by
  have hturn : ∀ attempt retried, Triple (Recorded executor .running attempt)
      (turn executor request run (attempt + 1) retried) (TurnDone executor request run (attempt + 1))
      (fun _ _ => ¬DelaysAccepted request run (attempt + 1)) := by
    intro attempt retried
    refine (turn_spec hp attempt retried).conseq (fun _ h => h) (fun _ _ h => h) ?_
    exact fun _ _ h hall => h.2 ((DelaysAccepted.step h.1).mp hall).1
  have hended : ∀ attempt outcome s, attempt + 1 ≤ limit →
      TurnDone executor request run (attempt + 1) (some outcome) s →
      Concluded executor limit outcome s ∧ DelaysAccepted request run (attempt + 1) := by
    intro attempt outcome s hle h
    exact ⟨⟨h.1.1, h.1.2.mono hle⟩, DelaysAccepted.of_not_retries h.2⟩
  induction fuel generalizing attempt retried with
  | zero =>
    refine (hturn attempt retried).bind fun ended => ?_
    cases ended with
    | some outcome => exact Triple.pure fun s h => hended attempt outcome s (by omega) h
    | none =>
      intro s h
      have hlt := h.2.1.lt_maxAttempts
      omega
  | succ fuel ih =>
    refine (hturn attempt retried).bind fun ended => ?_
    cases ended with
    | some outcome => exact Triple.pure fun s h => hended attempt outcome s (by omega) h
    | none =>
      intro s h
      have hstep := DelaysAccepted.step h.2.1
      refine (ih (attempt + 1) (by omega) true).conseq (fun _ hs => hs) ?_ ?_ s h.1
      · exact fun _ _ hs => ⟨hs.1, hstep.mpr ⟨h.2.2, hs.2⟩⟩
      · exact fun _ _ hs hall => hs (hstep.mp hall).2

/-- The request passes the task, capability and intent checks. -/
def Admitted (executor : AgentExecutor) (request : ExecutionRequest) : Prop :=
  validateAgentTask request.task = [] ∧ enforceCapabilities executor request = .ok () ∧
    ∀ intent, request.intent = some intent →
      (validateIntent intent request.agent.capabilities).allowed = true

/-- Bound on the attempts of an execution: `max(1, max_attempts)`. -/
def attemptBound (request : ExecutionRequest) : ℕ :=
  (max 1 (maxAttempts (resolveRetryPolicy request))).toNat

/-- Every retry that the execution reaches has an accepted delay. -/
def RetriesSleep (executor : AgentExecutor) (request : ExecutionRequest) (run : AgentRun) : Prop :=
  Admitted executor request → DelaysAccepted request run 1

/-- A refused execution ends in `failed` without an attempt. -/
theorem refuse_spec (hp : request.onProgress = none) (error : AgentError) :
    Triple (Recorded executor .created started) (refuse executor request error)
      (Concluded executor started) (fun _ _ => False) := by
  refine (Recorded.hop hp (by simp [AgentState.next])).bind fun _ => ?_
  refine (Recorded.publishExecution hp _ _ _ _ _ _).bind fun _ => ?_
  exact Triple.pure fun s hs => ⟨rfl, hs⟩

/-- An admitted execution runs its attempts. -/
theorem proceed_spec (hp : request.onProgress = none) :
    Triple (Recorded executor .created 0) (proceed executor request run)
      (fun outcome s => Concluded executor (attemptBound request) outcome s ∧
        DelaysAccepted request run 1)
      (fun _ _ => ¬DelaysAccepted request run 1) := by
  refine (Recorded.hop hp (by simp [AgentState.next])).total.bind fun _ => ?_
  refine (Recorded.hop hp (by simp [AgentState.next])).total.bind fun _ => ?_
  refine (Recorded.hop hp (by simp [AgentState.next])).total.bind fun _ => ?_
  have hbound : maxAttempts (resolveRetryPolicy request) ≤ attemptBound request := by
    unfold attemptBound
    omega
  have hfuel : (maxAttempts (resolveRetryPolicy request) - 1).toNat + (0 + 1) =
      attemptBound request := by
    unfold attemptBound
    omega
  exact attemptLoop_spec hp _ hbound _ 0 hfuel false

theorem publishSecurity_spec (topic : SecurityTopic) (action : String) (allowed : Bool)
    (reason : String) (violations : List String) :
    Triple (Recorded executor state started)
      (publishSecurity executor request topic action allowed reason violations)
      (fun _ => Recorded executor state started) (fun _ _ => False) := by
  unfold publishSecurity
  refine Triple.ite (fun _ => Recorded.record rfl rfl rfl) (fun _ => ?_)
  exact Triple.pure fun s hs => hs

/-- The intent check: refused exactly when it is not allowed. -/
theorem enforceIntent_spec (hp : request.onProgress = none) (intent : IntentPolicy) :
    Triple (Recorded executor .created 0) (enforceIntent executor request run intent)
      (fun outcome s => Concluded executor (attemptBound request) outcome s ∧
        ((validateIntent intent request.agent.capabilities).allowed = true →
          DelaysAccepted request run 1))
      (fun _ _ => (validateIntent intent request.agent.capabilities).allowed = true ∧
        ¬DelaysAccepted request run 1) := by
  refine (Recorded.record rfl rfl rfl).total.bind fun _ => ?_
  refine (publishSecurity_spec _ _ _ _ _).total.bind fun _ => ?_
  refine Triple.ite (fun hallowed => ?_) (fun hdenied => ?_)
  · refine (publishSecurity_spec _ _ _ _ _).total.bind fun _ => ?_
    refine (proceed_spec hp).conseq (fun _ h => h) ?_ ?_
    · exact fun _ _ h => ⟨h.1, fun _ => h.2⟩
    · exact fun _ _ h => ⟨hallowed, h⟩
  · refine (publishSecurity_spec _ _ _ _ _).total.bind fun _ => ?_
    refine (refuse_spec hp _).total.conseq (fun _ h => h) ?_ (fun _ _ h => h)
    intro outcome s h
    exact ⟨⟨h.1, h.2.mono (Nat.zero_le _)⟩, fun hallowed => absurd hallowed hdenied⟩

/-- The initialization event starts the record. -/
theorem publishLifecycle_created (hp : request.onProgress = none) :
    Triple (fun s => s = {}) (publishLifecycle executor request .created .created)
      (fun _ => Recorded executor .created 0) (fun _ _ => False) := by
  rintro s rfl
  unfold publishLifecycle
  by_cases hb : executor.bus = true
  · rw [if_pos hb, publishNext_run hp]
    exact ⟨rfl, fun _ => ⟨[], rfl, trivial, rfl⟩, fun _ => rfl, le_rfl⟩
  · rw [if_neg hb]
    exact ⟨rfl, fun hb' => absurd hb' hb, fun hb' => absurd hb' hb, le_rfl⟩

/-- `execute` concludes when every reached retry can sleep, and otherwise raises. -/
theorem execute_spec (executor : AgentExecutor) (request : ExecutionRequest) (run : AgentRun)
    (hp : request.onProgress = none) :
    Triple (fun s => s = {}) (execute executor request run)
      (fun outcome s => Concluded executor (attemptBound request) outcome s ∧
        RetriesSleep executor request run)
      (fun _ _ => ¬RetriesSleep executor request run) := by
  have hrefuse : ∀ error, ¬Admitted executor request →
      Triple (Recorded executor .created 0) (refuse executor request error)
        (fun outcome s => Concluded executor (attemptBound request) outcome s ∧
          RetriesSleep executor request run)
        (fun _ _ => ¬RetriesSleep executor request run) := by
    intro error hnot
    refine (refuse_spec hp error).total.conseq (fun _ h => h) ?_ (fun _ _ h => h)
    exact fun _ _ h => ⟨⟨h.1, h.2.mono (Nat.zero_le _)⟩, fun hadm => absurd hadm hnot⟩
  refine (publishLifecycle_created hp).total.bind fun _ => ?_
  cases htask : validateAgentTask request.task with
  | cons first rest =>
    have hnot : ¬Admitted executor request := by
      rintro ⟨hnil, -⟩
      rw [htask] at hnil
      cases hnil
    exact hrefuse _ hnot
  | nil =>
    cases hcap : enforceCapabilities executor request with
    | error exc =>
      have hnot : ¬Admitted executor request := by
        rintro ⟨-, hok, -⟩
        rw [hcap] at hok
        cases hok
      simpa only [hcap] using hrefuse _ hnot
    | ok _ =>
      cases hintent : request.intent with
      | none =>
        have hadm : Admitted executor request := ⟨htask, hcap, by simp [hintent]⟩
        refine (proceed_spec hp).conseq (fun _ h => h) ?_ ?_
        · exact fun _ _ h => ⟨h.1, fun _ => h.2⟩
        · exact fun _ _ h hall => h (hall hadm)
      | some intent =>
        have hiff : Admitted executor request ↔
            (validateIntent intent request.agent.capabilities).allowed = true := by
          refine ⟨fun hadm => hadm.2.2 intent hintent, fun hallowed => ⟨htask, hcap, ?_⟩⟩
          intro other hother
          rw [hintent] at hother
          cases hother
          exact hallowed
        refine (enforceIntent_spec hp intent).conseq (fun _ h => h) ?_ ?_
        · exact fun _ _ h => ⟨h.1, fun hadm => h.2 (hiff.mp hadm)⟩
        · exact fun _ _ h hall => h.2 (hall (hiff.mpr h.1))

/-- What an execution must have published when it returns `outcome`. -/
structure Reported (request : ExecutionRequest) (outcome : ExecutionOutcome)
    (events : List ExecEvent) : Prop where
  /-- The initialization event, then a path of the transition relation. -/
  path : ∃ rest, hops events = (.created, .created) :: rest ∧ LifecyclePath .created rest
  /-- Agent events are numbered exactly `1 .. n`. -/
  numbered : sequences events = List.range' 1 (sequences events).length
  /-- The outcome's status is terminal. -/
  terminal : outcome.status.terminal = true
  /-- The last hop, and no other, enters a terminal state: the outcome's. -/
  last : ∃ init previous, hops events = init ++ [(previous, outcome.status)] ∧
    ∀ hop ∈ init, hop.2.terminal = false
  /-- At most `max(1, max_attempts)` attempts are announced. -/
  announced : (starts events : ℤ) ≤ max 1 (maxAttempts (resolveRetryPolicy request))

/-- The contract of the executor: it returns an outcome, and an attached bus
has seen it reported. -/
def Honours (executor : AgentExecutor) (request : ExecutionRequest) (run : AgentRun) : Prop :=
  ∃ outcome s, execute executor request run {} = .ok outcome s ∧
    (executor.bus = true → Reported request outcome s.events)

/-- The record of an ended execution is what must be reported. -/
theorem Concluded.reported {outcome : ExecutionOutcome} {s : ExecState}
    (h : Concluded executor (attemptBound request) outcome s) (hb : executor.bus = true) :
    Reported request outcome s.events := by
  obtain ⟨hterm, hrec⟩ := h
  obtain ⟨rest, hr, hpath, hlast⟩ := hrec.path hb
  have hnum := hrec.numbered hb
  refine ⟨⟨rest, hr, hpath⟩, ?_, hterm, ?_, ?_⟩
  · rw [hnum, List.length_range']
  · rw [← hlast] at hterm
    obtain ⟨init, previous, heq, hinit⟩ := hpath.terminal_last rfl hterm
    refine ⟨(.created, .created) :: init, previous, ?_, ?_⟩
    · rw [hr, ← hlast]
      exact congrArg ((.created, .created) :: ·) heq
    · intro hop hmem
      rcases List.mem_cons.mp hmem with rfl | hmem
      · rfl
      · exact hinit hop hmem
  · have hann := hrec.announced
    unfold attemptBound at hann
    omega

/-- The executor honours its contract exactly when `time.sleep` accepts the
delay of every retry that the execution reaches. -/
theorem execute_honours_iff (executor : AgentExecutor) (request : ExecutionRequest)
    (run : AgentRun) (hp : request.onProgress = none) :
    Honours executor request run ↔ RetriesSleep executor request run := by
  have hspec := execute_spec executor request run hp {} rfl
  constructor
  · rintro ⟨outcome, s, hrun, -⟩
    rw [hrun] at hspec
    exact hspec.2
  · intro hall
    cases hrun : execute executor request run {} with
    | ok outcome s =>
      rw [hrun] at hspec
      exact ⟨outcome, s, hrun, fun hb => hspec.1.reported hb⟩
    | error exc s =>
      rw [hrun] at hspec
      exact absurd hall hspec

/-- A request that allows one retry after this base delay. -/
def oneRetry (baseDelay : PyNum) : ExecutionRequest :=
  { agent := { name := "agent", metadata := { name := "agent" }, capabilities := {} }
    task := { description := "task", taskId := "t1" }
    retryPolicy := some { maxAttempts := 2, baseDelay := baseDelay } }

/-- An agent that raises at every attempt. -/
def alwaysRaises : AgentRun where
  behaviour := fun _ => .raised ⟨.runtimeError, "boom"⟩
  cancelled := fun _ => false

/-- The delay before the first retry is the base delay itself. -/
theorem backoff_oneRetry {q : ℚ} (hlow : -1 ≤ q) (hhigh : q ≤ 1) :
    backoff (resolveRetryPolicy (oneRetry (.float (.finite q)))) 2 = .ok (.float (.finite q)) := by
  have hbig : (1 : ℚ) < 2 ^ 1024 := one_lt_pow₀ (by norm_num) (by norm_num)
  have hpos : ¬(2 : ℚ) ^ 1024 ≤ q := not_le.mpr (hhigh.trans_lt hbig)
  have hneg : ¬q ≤ -(2 : ℚ) ^ 1024 := not_le.mpr ((neg_lt_neg hbig).trans_le hlow)
  simp only [oneRetry, resolveRetryPolicy, backoff, timesPowerOfTwo, Nat.sub_self, pow_zero,
    mul_one, if_neg hpos, if_neg hneg]
  rfl

/-- The default delay of half a second is accepted before the one retry. -/
theorem execute_honours_half_second :
    (oneRetry (.float (.finite (1 / 2)))).onProgress = none ∧
      Honours {} (oneRetry (.float (.finite (1 / 2)))) alwaysRaises := by
  refine ⟨rfl, (execute_honours_iff _ _ _ rfl).mpr fun _ last hlast hretry => ?_⟩
  have hlt := (hretry last hlast le_rfl).lt_maxAttempts
  have hone : last = 1 := by
    have hmax : maxAttempts (resolveRetryPolicy (oneRetry (.float (.finite (1 / 2))))) = 2 := rfl
    omega
  subst hone
  refine ⟨.float (.finite (1 / 2)), ?_⟩
  rw [pause, backoff_oneRetry (by norm_num) (by norm_num)]
  norm_num [sleep]

/-- A negative delay is rejected inside the handler, and `execute` raises. -/
theorem not_honours_negative_delay : ¬Honours {} (oneRetry (.float (.finite (-1)))) alwaysRaises := by
  rintro ⟨outcome, s, hrun, -⟩
  have hspec := execute_spec {} (oneRetry (.float (.finite (-1)))) alwaysRaises rfl {} rfl
  rw [hrun] at hspec
  have hadm : Admitted {} (oneRetry (.float (.finite (-1)))) := by
    refine ⟨by decide, rfl, fun intent hintent => ?_⟩
    cases hintent
  have hretries : RetriesAfter (oneRetry (.float (.finite (-1)))) alwaysRaises 1 :=
    ⟨rfl, _, rfl, by decide⟩
  obtain ⟨delay, hpause⟩ := ((DelaysAccepted.step hretries).mp (hspec.2 hadm)).1
  rw [pause, backoff_oneRetry (by norm_num) (by norm_num)] at hpause
  simp [sleep] at hpause

end AgentExecutor

end AiosDeck.Agents
