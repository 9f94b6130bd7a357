import AiosDeck.Agents.Retries

/-!
# Overrides that an agent permits

A request may carry a timeout and a retry policy. The timeout of the request counts
only with the permission of the agent; the retry policy counts always, so the
permission is honoured exactly when both policies try the same failures again after
the same delays.
-/

namespace AiosDeck.Agents

open Python Security Program

namespace AgentExecutor

variable {executor : AgentExecutor} {request : ExecutionRequest} {run : AgentRun}

/-- The request with the overrides that its agent permits, and no others. -/
def authorised (request : ExecutionRequest) : ExecutionRequest :=
  { request with
    timeout := if request.agent.metadata.allowTimeoutOverride then request.timeout else none
    retryPolicy :=
      if request.agent.metadata.allowRetryOverride then request.retryPolicy else none }

/-- The request with this observer. -/
def observed (request : ExecutionRequest) (onProgress : Option (ℕ → Option PyExc)) :
    ExecutionRequest :=
  { request with onProgress }

/-- The overrides need the permission of the agent: whatever an agent does under the
timeout that it is given, and whoever observes, the request is executed like the
one with the permitted overrides only. -/
structure Permitted (executor : AgentExecutor) (request : ExecutionRequest) : Prop where
  timeout : request.agent.metadata.allowTimeoutOverride = false →
    resolveTimeout request = request.agent.metadata.timeout
  execution : ∀ (world : Option PyNum → AgentRun) (onProgress : Option (ℕ → Option PyExc)),
    execute executor (observed request onProgress) (world (resolveTimeout request)) {} =
      execute executor (observed (authorised request) onProgress)
        (world (resolveTimeout (authorised request))) {}

/-- Two policies decide alike on a failure in this attempt, and pause alike. -/
def SameRetry (request : ExecutionRequest) (policy other : Option RetryPolicy) (exc : PyExc)
    (attempt : ℕ) : Prop :=
  shouldRetry (handledError request exc) policy attempt =
      shouldRetry (handledError request exc) other attempt ∧
    (shouldRetry (handledError request exc) policy attempt = true →
      pause policy (attempt + 1) = pause other (attempt + 1))

/-- The retry policies of both requests agree on every failure, up to the first delay
that is rejected. -/
def SameRetries (request : ExecutionRequest) : Prop :=
  ∀ n, (∀ k, k < n → PauseAccepted request (k + 2)) → ∀ exc,
    SameRetry request (resolveRetryPolicy request) (resolveRetryPolicy (authorised request)) exc
      (n + 1)

theorem resolveTimeout_authorised (request : ExecutionRequest) :
    resolveTimeout (authorised request) = resolveTimeout request := by
  unfold resolveTimeout authorised
  cases hallowed : request.agent.metadata.allowTimeoutOverride with
  | true => rfl
  | false =>
    cases htimeout : request.timeout with
    | none => rfl
    | some timeout => rfl

section Alike

variable {onProgress : Option (ℕ → Option PyExc)}

theorem retryOrEnd_alike {attempt : ℕ} {retried : Bool} {error : AgentError}
    {topic : ExecutionTopic} {status : AgentState}
    (hretry : shouldRetry error (resolveRetryPolicy request) attempt =
      shouldRetry error (resolveRetryPolicy (authorised request)) attempt)
    (hpause : shouldRetry error (resolveRetryPolicy request) attempt = true →
      pause (resolveRetryPolicy request) (attempt + 1) =
        pause (resolveRetryPolicy (authorised request)) (attempt + 1)) :
    retryOrEnd executor (observed request onProgress) attempt retried error topic status =
      retryOrEnd executor (observed (authorised request) onProgress) attempt retried error topic
        status := by
  have hpolicy : resolveRetryPolicy (observed request onProgress) = resolveRetryPolicy request := rfl
  have hother : resolveRetryPolicy (observed (authorised request) onProgress) =
      resolveRetryPolicy (authorised request) := rfl
  unfold retryOrEnd
  rw [hpolicy, hother]
  dsimp only
  rw [← hretry]
  by_cases hagain : shouldRetry error (resolveRetryPolicy request) attempt = true
  · rw [if_pos hagain, if_pos hagain, ← hpause hagain]
    rfl
  · rw [if_neg hagain, if_neg hagain]
    rfl

/-- A turn of the loop is the same under policies that agree on its failure. -/
theorem turn_alike {attempt : ℕ} (h : ∀ exc, SameRetry request (resolveRetryPolicy request)
    (resolveRetryPolicy (authorised request)) exc attempt) (retried : Bool) :
    turn executor (observed request onProgress) run attempt retried =
      turn executor (observed (authorised request) onProgress) run attempt retried := by
  have htimeout : timeoutError (observed (authorised request) onProgress) =
      timeoutError (observed request onProgress) := by
    have hresolved := resolveTimeout_authorised request
    unfold timeoutError
    rw [show resolveTimeout (observed (authorised request) onProgress) =
      resolveTimeout (authorised request) from rfl, hresolved]
    rfl
  have hhandle : handle executor (observed request onProgress) attempt retried =
      handle executor (observed (authorised request) onProgress) attempt retried := by
    funext exc
    obtain ⟨hretry, hpause⟩ := h exc
    unfold handledError at hretry hpause
    unfold handle
    rw [htimeout]
    split
    · rename_i hcls
      rw [if_pos hcls] at hretry hpause
      exact retryOrEnd_alike hretry hpause
    · rename_i hcls
      rw [if_neg hcls] at hretry hpause
      exact retryOrEnd_alike hretry hpause
  unfold turn
  rw [hhandle]
  rfl

/-- A turn that goes on was a failure that is tried again after an accepted delay. -/
theorem turn_continues {attempt : ℕ} {retried : Bool} {s t : ExecState}
    (hs : s.lifecycle = .running) (h : turn executor request run attempt retried s = .ok none t) :
    RetriesAfter request run attempt ∧ PauseAccepted request (attempt + 1) ∧
      t.lifecycle = .running := by
  have hshadowed := @turn_shadowed executor request run s attempt retried
  have hcalm : CalmBetween request s.sequence
      (after (turn executor (quiet request) run attempt retried) s).sequence := by
    by_contra hloud
    obtain ⟨exc, u, hraised, -⟩ := hshadowed.raises hloud
    rw [h] at hraised
    cases hraised
  have hquiet := (hshadowed.calm hcalm).symm.trans h
  have hturn := (@turn_tally executor (quiet request) run _ rfl attempt retried).of_ok ⟨hs, rfl⟩ hquiet
  obtain ⟨hretries, delay, hpause, hat⟩ := hturn
  exact ⟨hretries, ⟨delay, hpause⟩, hat.lifecycle⟩

theorem attemptLoop_next {fuel attempt : ℕ} {retried : Bool} {s t : ExecState}
    (h : turn executor request run attempt retried s = .ok none t) :
    attemptLoop executor request run (fuel + 1) attempt retried s =
      attemptLoop executor request run fuel (attempt + 1) true t := by
  rw [attemptLoop]
  change EStateM.bind _ _ s = _
  unfold EStateM.bind
  rw [h]

theorem attemptLoop_ends {fuel attempt : ℕ} {retried : Bool} {s t : ExecState}
    {outcome : ExecutionOutcome}
    (h : turn executor request run attempt retried s = .ok (some outcome) t) :
    attemptLoop executor request run fuel attempt retried s = .ok outcome t := by
  cases fuel with
  | zero =>
    rw [attemptLoop]
    change EStateM.bind _ _ s = _
    unfold EStateM.bind
    rw [h]
    rfl
  | succ fuel =>
    rw [attemptLoop]
    change EStateM.bind _ _ s = _
    unfold EStateM.bind
    rw [h]
    rfl

theorem attemptLoop_raises {fuel attempt : ℕ} {retried : Bool} {s t : ExecState} {exc : PyExc}
    (h : turn executor request run attempt retried s = .error exc t) :
    attemptLoop executor request run fuel attempt retried s = .error exc t := by
  cases fuel with
  | zero =>
    rw [attemptLoop]
    change EStateM.bind _ _ s = _
    unfold EStateM.bind
    rw [h]
  | succ fuel =>
    rw [attemptLoop]
    change EStateM.bind _ _ s = _
    unfold EStateM.bind
    rw [h]

/-- The loops of both requests run alike, each with the fuel that it needs. -/
theorem attemptLoop_alike (h : SameRetries request) (fuel : ℕ) :
    ∀ (other n : ℕ) (retried : Bool) (s : ExecState),
      maxAttempts (resolveRetryPolicy request) ≤ (fuel + (n + 1) : ℕ) →
      maxAttempts (resolveRetryPolicy (authorised request)) ≤ (other + (n + 1) : ℕ) →
      (∀ k, k < n → PauseAccepted request (k + 2)) → s.lifecycle = .running →
      attemptLoop executor (observed request onProgress) run fuel (n + 1) retried s =
        attemptLoop executor (observed (authorised request) onProgress) run other (n + 1) retried
          s := by
  induction fuel with
  | zero =>
    intro other n retried s hmax hother hpauses hs
    have hturn := @turn_alike executor request run onProgress _ (h n hpauses) retried
    cases hrun : turn executor (observed request onProgress) run (n + 1) retried s with
    | error exc t =>
      rw [attemptLoop_raises hrun, attemptLoop_raises (hturn ▸ hrun)]
    | ok ended t =>
      cases ended with
      | some outcome => rw [attemptLoop_ends hrun, attemptLoop_ends (hturn ▸ hrun)]
      | none =>
        have hlt := (turn_continues hs hrun).1.lt_maxAttempts
        change ((n + 1 : ℕ) : ℤ) < maxAttempts (resolveRetryPolicy request) at hlt
        omega
  | succ fuel ih =>
    intro other n retried s hmax hother hpauses hs
    have hturn := @turn_alike executor request run onProgress _ (h n hpauses) retried
    cases hrun : turn executor (observed request onProgress) run (n + 1) retried s with
    | error exc t =>
      rw [attemptLoop_raises hrun, attemptLoop_raises (hturn ▸ hrun)]
    | ok ended t =>
      cases ended with
      | some outcome => rw [attemptLoop_ends hrun, attemptLoop_ends (hturn ▸ hrun)]
      | none =>
        have hrun' := hrun
        rw [hturn] at hrun'
        obtain ⟨-, hpause, ht⟩ := turn_continues hs hrun
        have hlt := (turn_continues hs hrun').1.lt_maxAttempts
        change ((n + 1 : ℕ) : ℤ) < maxAttempts (resolveRetryPolicy (authorised request)) at hlt
        obtain ⟨other, rfl⟩ : ∃ k, other = k + 1 := ⟨other - 1, by omega⟩
        rw [attemptLoop_next hrun, attemptLoop_next hrun']
        refine ih other (n + 1) true t (by omega) (by omega) (fun k hk => ?_) ht
        rcases Nat.lt_succ_iff_lt_or_eq.mp hk with hlt | rfl
        · exact hpauses k hlt
        · exact hpause

theorem bind_alike {α β : Type} {x : ExecM α} {f g : α → ExecM β} {s : ExecState}
    (h : ∀ a t, x s = .ok a t → f a t = g a t) : (x >>= f) s = (x >>= g) s := by
  change EStateM.bind x f s = EStateM.bind x g s
  unfold EStateM.bind
  cases hx : x s with
  | ok a t => exact h a t hx
  | error exc t => rfl

theorem proceed_alike (h : SameRetries request) :
    proceed executor (observed request onProgress) run =
      proceed executor (observed (authorised request) onProgress) run := by
  funext s
  unfold proceed
  refine bind_alike fun _ t _ => bind_alike fun _ u _ => bind_alike fun _ v hv => ?_
  have hrunning := (hop_lifecycle _ _).of_ok trivial hv
  have hfuel : ∀ m : ℤ, m ≤ ((m - 1).toNat + (0 + 1) : ℕ) := fun m => by omega
  exact attemptLoop_alike h _ _ 0 false v (hfuel _) (hfuel _)
    (fun k hk => absurd hk (Nat.not_lt_zero k)) hrunning

/-- Requests whose retries agree are executed alike. -/
theorem execute_alike (h : Admitted executor request → SameRetries request) :
    execute executor (observed request onProgress) run =
      execute executor (observed (authorised request) onProgress) run := by
  funext s
  unfold execute
  refine bind_alike fun _ t _ => ?_
  have htask : validateAgentTask (observed (authorised request) onProgress).task =
      validateAgentTask (observed request onProgress).task := rfl
  have hcap : enforceCapabilities executor (observed (authorised request) onProgress) =
      enforceCapabilities executor (observed request onProgress) := rfl
  have hintent : (observed (authorised request) onProgress).intent =
      (observed request onProgress).intent := rfl
  rw [htask, hcap, hintent]
  cases hnil : validateAgentTask (observed request onProgress).task with
  | cons first rest => rfl
  | nil =>
    cases hok : enforceCapabilities executor (observed request onProgress) with
    | error exc => rfl
    | ok _ =>
      cases hsome : (observed request onProgress).intent with
      | none =>
        have hadm : Admitted executor request := by
          refine ⟨hnil, hok, fun intent hother => ?_⟩
          rw [show request.intent = none from hsome] at hother
          cases hother
        exact congrFun (proceed_alike (h hadm)) t
      | some intent =>
        dsimp only
        unfold enforceIntent
        refine bind_alike fun _ u _ => bind_alike fun _ v _ => ?_
        have hcapabilities : (observed (authorised request) onProgress).agent.capabilities =
            (observed request onProgress).agent.capabilities := rfl
        rw [hcapabilities]
        by_cases hallowed : (validateIntent intent
            (observed request onProgress).agent.capabilities).allowed = true
        · rw [if_pos hallowed, if_pos hallowed]
          have hadm : Admitted executor request := by
            refine ⟨hnil, hok, fun other hother => ?_⟩
            rw [show request.intent = some intent from hsome] at hother
            cases hother
            exact hallowed
          exact bind_alike fun _ w _ => congrFun (proceed_alike (h hadm)) w
        · rw [if_neg hallowed, if_neg hallowed]
          rfl

end Alike

section Courses

variable {n m : ℕ} {outcome : ExecutionOutcome} {s : ExecState} {exc : PyExc}

/-- The execution goes no farther than this many retries. -/
def Stops (request : ExecutionRequest) (run : AgentRun) (n : ℕ) : Prop :=
  Retries request run n ∧ (RetriesAfter request run (n + 1) → ¬PauseAccepted request (n + 2))

theorem Stops.unique (h : Stops request run n) (h' : Stops request run m) : n = m := by
  rcases lt_trichotomy n m with hlt | heq | hgt
  · exact absurd (h'.1 n hlt).2 (h.2 (h'.1 n hlt).1)
  · exact heq
  · exact absurd (h.1 m hgt).2 (h'.2 (h.1 m hgt).1)

/-- What an execution that returned went through. -/
structure Returned (request : ExecutionRequest) (run : AgentRun) (n : ℕ)
    (outcome : ExecutionOutcome) (s : ExecState) : Prop where
  stops : Stops request run n
  last : ¬RetriesAfter request run (n + 1)
  attempts : outcome.attempts = n + 1
  sleeps : s.tally.sleeps = delays (resolveRetryPolicy request) n

theorem returned_of_ok (hadm : Admitted executor request)
    (h : execute executor (quiet request) run {} = .ok outcome s) :
    ∃ n, Returned request run n outcome s := by
  rcases Accounted.of_quiet (execute_accounted h) with ⟨hnot, -⟩ | ⟨-, n, hfinishes⟩
  · exact absurd hadm hnot
  · refine ⟨n, ⟨hfinishes.retries, fun hafter => absurd hafter hfinishes.last⟩, hfinishes.last,
      hfinishes.ends.outcome.attempts, ?_⟩
    rw [hfinishes.ends.tally]
    rfl

/-- What an execution that raised went through. -/
structure Raised (request : ExecutionRequest) (run : AgentRun) (n : ℕ) (exc : PyExc) : Prop where
  stops : Stops request run n
  last : RetriesAfter request run (n + 1)
  pause : pause (resolveRetryPolicy request) (n + 2) = .error exc

theorem raised_of_error (h : execute executor (quiet request) run {} = .error exc s) :
    ∃ n, Raised request run n exc := by
  have htally := execute_tally executor (quiet request) run rfl {} rfl
  rw [h] at htally
  obtain ⟨-, n, hretries, hafter, hpause⟩ := htally
  have hpause' : pause (resolveRetryPolicy request) (n + 2) = .error exc := hpause
  refine ⟨n, ⟨hretries, fun _ haccepted => ?_⟩, hafter, hpause'⟩
  obtain ⟨delay, hdelay⟩ := haccepted
  rw [hpause'] at hdelay
  cases hdelay

/-- An agent that fails in the same way at every attempt, until it is cancelled. -/
def failing (exc : PyExc) (n : ℕ) : AgentRun where
  behaviour := fun _ => .raised exc
  cancelled := fun attempt => decide (attempt = n + 2)

theorem retriesAfter_failing (attempt : ℕ) :
    RetriesAfter request (failing exc n) attempt ↔ attempt ≠ n + 2 ∧
      shouldRetry (handledError request exc) (resolveRetryPolicy request) attempt = true := by
  unfold RetriesAfter failing
  constructor
  · rintro ⟨hcancelled, exc', hfailure, hretry⟩
    cases hfailure
    exact ⟨of_decide_eq_false hcancelled, hretry⟩
  · rintro ⟨hne, hretry⟩
    exact ⟨decide_eq_false hne, exc, rfl, hretry⟩

/-- What is tried again late is tried again early. -/
theorem shouldRetry_anti {error : AgentError} {policy : Option RetryPolicy} {early late : ℕ}
    (hle : early ≤ late) (h : shouldRetry error policy late = true) :
    shouldRetry error policy early = true := by
  unfold shouldRetry at h ⊢
  cases policy with
  | none => exact h
  | some policy =>
    dsimp only at h ⊢
    by_cases hlate : policy.maxAttempts ≤ late
    · rw [if_pos hlate] at h
      cases h
    · rw [if_neg hlate] at h
      rw [if_neg (by omega)]
      exact h

theorem handledError_authorised (exc : PyExc) :
    handledError (authorised request) exc = handledError request exc := by
  unfold handledError timeoutError
  rw [resolveTimeout_authorised]

theorem retries_failing (hpauses : ∀ k, k < n → PauseAccepted request (k + 2))
    (hretry : ∀ k, k < n →
      shouldRetry (handledError request exc) (resolveRetryPolicy request) (k + 1) = true) :
    Retries request (failing exc n) n := by
  intro k hk
  have hne : k + 1 ≠ n + 2 := by omega
  exact ⟨(retriesAfter_failing (k + 1)).mpr ⟨hne, hretry k hk⟩, hpauses k hk⟩

theorem not_retriesAfter_cancelled : ¬RetriesAfter request (failing exc n) (n + 2) :=
  fun h => ((retriesAfter_failing (n + 2)).mp h).1 rfl

theorem delays_succ {policy : Option RetryPolicy} {delay : PyNum}
    (h : pause policy (n + 2) = .ok delay) : delays policy (n + 1) = delays policy n ++ [delay] := by
  unfold delays
  rw [List.range_succ, List.filterMap_append]
  simp [h, Except.toOption]

end Courses

section Twins

variable {other : ExecutionRequest} {n : ℕ} {exc : PyExc}

/-- Both requests are admitted, an agent that fails in this way is tried again as
often under both, and its executions are the same. -/
structure Twins (executor : AgentExecutor) (request other : ExecutionRequest) (exc : PyExc)
    (n : ℕ) : Prop where
  admitted : Admitted executor request
  admittedOther : Admitted executor other
  retries : Retries request (failing exc n) n
  retriesOther : Retries other (failing exc n) n
  execution : execute executor (quiet request) (failing exc n) {} =
    execute executor (quiet other) (failing exc n) {}

theorem Twins.symm (h : Twins executor request other exc n) : Twins executor other request exc n :=
  ⟨h.admittedOther, h.admitted, h.retriesOther, h.retries, h.execution.symm⟩

/-- Where one of them gives up, the other gives up. -/
theorem Twins.gives_up (h : Twins executor request other exc n)
    (hlast : ¬RetriesAfter request (failing exc n) (n + 1)) :
    ¬RetriesAfter other (failing exc n) (n + 1) := by
  have hstops : Stops request (failing exc n) n := ⟨h.retries, fun hafter => absurd hafter hlast⟩
  cases hrun : execute executor (quiet request) (failing exc n) {} with
  | error raised s =>
    obtain ⟨m, hraised⟩ := raised_of_error hrun
    have hm := hraised.stops.unique hstops
    subst hm
    exact absurd hraised.last hlast
  | ok outcome s =>
    obtain ⟨m, hreturned⟩ := returned_of_ok h.admitted hrun
    have hm := hreturned.stops.unique hstops
    subst hm
    obtain ⟨k, hother⟩ := returned_of_ok h.admittedOther (h.execution.symm.trans hrun)
    have hk : k = m := by
      have hattempts := hother.attempts.symm.trans hreturned.attempts
      omega
    exact hk ▸ hother.last

/-- Where both are tried again, they pause alike. -/
theorem Twins.pauses (h : Twins executor request other exc n)
    (hafter : RetriesAfter request (failing exc n) (n + 1))
    (hdelays : delays (resolveRetryPolicy request) n = delays (resolveRetryPolicy other) n) :
    pause (resolveRetryPolicy request) (n + 2) = pause (resolveRetryPolicy other) (n + 2) := by
  cases hpause : pause (resolveRetryPolicy request) (n + 2) with
  | ok delay =>
    -- One more retry, and then the cancellation: the last delays of both are the same.
    have hstops : Stops request (failing exc n) (n + 1) := by
      refine ⟨fun k hk => ?_, fun hcancelled => absurd hcancelled not_retriesAfter_cancelled⟩
      rcases Nat.lt_succ_iff_lt_or_eq.mp hk with hlt | rfl
      · exact h.retries k hlt
      · exact ⟨hafter, delay, hpause⟩
    cases hrun : execute executor (quiet request) (failing exc n) {} with
    | error raised s =>
      obtain ⟨m, hraised⟩ := raised_of_error hrun
      have hm := hraised.stops.unique hstops
      subst hm
      exact absurd hraised.last not_retriesAfter_cancelled
    | ok outcome s =>
      obtain ⟨m, hreturned⟩ := returned_of_ok h.admitted hrun
      have hm := hreturned.stops.unique hstops
      subst hm
      obtain ⟨k, hother⟩ := returned_of_ok h.admittedOther (h.execution.symm.trans hrun)
      have hk : k = n + 1 := by
        have hattempts := hother.attempts.symm.trans hreturned.attempts
        omega
      subst hk
      obtain ⟨delay', hpause'⟩ := (hother.stops.1 n (Nat.lt_succ_self n)).2
      have hsleeps := hreturned.sleeps.symm.trans hother.sleeps
      rw [delays_succ hpause, delays_succ hpause', hdelays] at hsleeps
      have hsame : delay = delay' := by simpa using hsleeps
      rw [hpause', hsame]
  | error rejected =>
    have hstops : Stops request (failing exc n) n := by
      refine ⟨h.retries, fun _ haccepted => ?_⟩
      obtain ⟨delay, hdelay⟩ := haccepted
      rw [hpause] at hdelay
      cases hdelay
    cases hrun : execute executor (quiet request) (failing exc n) {} with
    | ok outcome s =>
      obtain ⟨m, hreturned⟩ := returned_of_ok h.admitted hrun
      have hm := hreturned.stops.unique hstops
      subst hm
      exact absurd hafter hreturned.last
    | error raised s =>
      obtain ⟨m, hraised⟩ := raised_of_error hrun
      have hm := hraised.stops.unique hstops
      subst hm
      have hsame : rejected = raised := by
        have hpause' := hpause.symm.trans hraised.pause
        cases hpause'
        rfl
      obtain ⟨k, hother⟩ := raised_of_error (h.execution.symm.trans hrun)
      have hk : k = m := by
        rcases lt_trichotomy k m with hlt | heq | hgt
        · exact absurd (h.retriesOther k hlt).2 (hother.stops.2 hother.last)
        · exact heq
        · -- Behind the cancelled attempt there is no further retry.
          have hcancelled : RetriesAfter other (failing exc m) (m + 2) := by
            rcases Nat.lt_or_ge (m + 1) k with hfar | hnear
            · exact (hother.stops.1 (m + 1) hfar).1
            · have hnext : m + 2 = k + 1 := by omega
              rw [hnext]
              exact hother.last
          exact absurd hcancelled not_retriesAfter_cancelled
      rw [hsame, ← hk]
      exact hother.pause.symm

end Twins

theorem retriesAfter_failing_last {n : ℕ} {exc : PyExc} :
    RetriesAfter request (failing exc n) (n + 1) ↔
      shouldRetry (handledError request exc) (resolveRetryPolicy request) (n + 1) = true := by
  rw [retriesAfter_failing]
  exact and_iff_right (by omega)

/-- A permitted request retries like the one with the permitted overrides only. -/
theorem Permitted.sameRetries (h : Permitted executor request)
    (hadm : Admitted executor request) : SameRetries request := by
  intro n
  induction n using Nat.strong_induction_on with
  | _ n ih =>
  intro hpauses exc
  have hbelow : ∀ k, k < n → SameRetry request (resolveRetryPolicy request)
      (resolveRetryPolicy (authorised request)) exc (k + 1) :=
    fun k hk => ih k hk (fun j hj => hpauses j (by omega)) exc
  have htwins : (∀ k, k < n →
      shouldRetry (handledError request exc) (resolveRetryPolicy request) (k + 1) = true) →
      Twins executor request (authorised request) exc n := by
    intro hretry
    refine ⟨hadm, hadm, retries_failing hpauses hretry,
      retries_failing (fun k hk => ?_) fun k hk => ?_, h.execution (fun _ => failing exc n) none⟩
    · obtain ⟨delay, hdelay⟩ := hpauses k hk
      exact ⟨delay, ((hbelow k hk).2 (hretry k hk)).symm.trans hdelay⟩
    · rw [handledError_authorised, ← (hbelow k hk).1]
      exact hretry k hk
  by_cases hsome : shouldRetry (handledError request exc) (resolveRetryPolicy request) (n + 1) = true ∨
      shouldRetry (handledError request exc) (resolveRetryPolicy (authorised request)) (n + 1) = true
  · have hretry : ∀ k, k < n →
        shouldRetry (handledError request exc) (resolveRetryPolicy request) (k + 1) = true := by
      intro k hk
      rcases hsome with hmine | hother
      · exact shouldRetry_anti (by omega) hmine
      · rw [(hbelow k hk).1]
        exact shouldRetry_anti (by omega) hother
    have hsame := htwins hretry
    have hafter : RetriesAfter request (failing exc n) (n + 1) ↔
        RetriesAfter (authorised request) (failing exc n) (n + 1) :=
      ⟨fun hmine => by_contra fun hnot => hsame.symm.gives_up hnot hmine,
        fun hother => by_contra fun hnot => hsame.gives_up hnot hother⟩
    have hdelays : delays (resolveRetryPolicy request) n =
        delays (resolveRetryPolicy (authorised request)) n := by
      unfold delays
      refine List.filterMap_congr fun k hk => ?_
      have hlt := List.mem_range.mp hk
      rw [(hbelow k hlt).2 (hretry k hlt)]
    refine ⟨?_, fun hmine => hsame.pauses (retriesAfter_failing_last.mpr hmine) hdelays⟩
    rw [retriesAfter_failing_last, retriesAfter_failing_last, handledError_authorised] at hafter
    exact Bool.eq_iff_iff.mpr hafter
  · push Not at hsome
    exact ⟨(Bool.eq_false_of_not_eq_true hsome.1).trans (Bool.eq_false_of_not_eq_true hsome.2).symm,
      fun hmine => absurd hmine hsome.1⟩

/-- The overrides need the permission of the agent exactly when a request that is
executed retries as it would with the permitted overrides only. -/
theorem execute_permitted_iff (executor : AgentExecutor) (request : ExecutionRequest) :
    Permitted executor request ↔ (Admitted executor request → SameRetries request) := by
  constructor
  · exact fun h hadm => h.sameRetries hadm
  · intro h
    refine ⟨fun hdenied => ?_, fun world onProgress => ?_⟩
    · unfold resolveTimeout
      rw [hdenied]
      cases request.timeout with
      | none => rfl
      | some timeout => rfl
    · rw [resolveTimeout_authorised, execute_alike h]

/-- One retry that the agent does not permit is made. -/
theorem oneRetry_not_permitted : ¬Permitted {} (oneRetry (.int 0)) := by
  intro h
  have hattempts : ∀ {outcome outcome' s s'},
      execute {} (oneRetry (.int 0)) alwaysRaises {} = .ok outcome s →
      execute {} (authorised (oneRetry (.int 0))) alwaysRaises {} = .ok outcome' s' →
      outcome.attempts = outcome'.attempts := by
    intro outcome outcome' s s' hrun hother
    have hsame := hrun.symm.trans ((h.execution (fun _ => alwaysRaises) none).trans hother)
    cases hsame
    rfl
  have htwo : 2 = 1 := hattempts rfl rfl
  omega

end AgentExecutor

end AiosDeck.Agents
