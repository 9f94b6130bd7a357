import AiosDeck.Agents.Tallies

/-!
# Observers of an execution

The executor calls the progress hook of the request behind every event and does
not catch what it raises. An execution with an observer is the one without it, up
to the first event at which the observer raises; from there on it raises as well.
-/

namespace AiosDeck.Agents

open Python Security Program

namespace AgentExecutor

/-- The request without its observer. -/
def quiet (request : ExecutionRequest) : ExecutionRequest := { request with onProgress := none }

/-- The observer does not raise on the event with this number. -/
def Calm (request : ExecutionRequest) (i : ℕ) : Prop :=
  ∀ handler, request.onProgress = some handler → handler i = none

/-- The observer does not raise on the events behind the first `m`, up to the `n`th. -/
def CalmBetween (request : ExecutionRequest) (m n : ℕ) : Prop :=
  ∀ i, m < i → i ≤ n → Calm request i

/-- From this state the first program runs like the second, or raises because the
observer does on one of the events that the second publishes; then `R` holds. -/
structure Shadowed {α : Type} (request : ExecutionRequest) (R : ExecState → Prop)
    (x unobserved : ExecM α) (s : ExecState) : Prop where
  mono : s.sequence ≤ (after unobserved s).sequence
  calm : CalmBetween request s.sequence (after unobserved s).sequence → x s = unobserved s
  raises : ¬CalmBetween request s.sequence (after unobserved s).sequence →
    ∃ exc t, x s = .error exc t ∧ R t

section Rules

variable {α β : Type} {request : ExecutionRequest} {R : ExecState → Prop} {s : ExecState}

theorem CalmBetween.split {l m n : ℕ} (hlm : l ≤ m) (hmn : m ≤ n) :
    CalmBetween request l n ↔ CalmBetween request l m ∧ CalmBetween request m n := by
  constructor
  · exact fun h => ⟨fun i hl hm => h i hl (hm.trans hmn), fun i hm hn => h i (hlm.trans_lt hm) hn⟩
  · rintro ⟨hfirst, hsecond⟩ i hl hn
    rcases le_or_gt i m with hm | hm
    · exact hfirst i hl hm
    · exact hsecond i hm hn

theorem CalmBetween.self (n : ℕ) : CalmBetween request n n :=
  fun _ hlt hle => absurd hle (not_le.mpr hlt)

/-- A program that publishes no numbered event. -/
theorem Shadowed.same {x : ExecM α} (h : (after x s).sequence = s.sequence) :
    Shadowed request R x x s := by
  refine ⟨h.ge, fun _ => rfl, fun hnot => ?_⟩
  rw [h] at hnot
  exact absurd (CalmBetween.self _) hnot

theorem Shadowed.pure (a : α) : Shadowed request R (Pure.pure a) (Pure.pure a) s :=
  Shadowed.same rfl

theorem Shadowed.throw (exc : PyExc) :
    Shadowed request R (throw exc : ExecM α) (throw exc) s :=
  Shadowed.same rfl

theorem Shadowed.record (event : ExecEvent) :
    Shadowed request R (record event) (record event) s :=
  Shadowed.same rfl

theorem Shadowed.transition (current : AgentState) :
    Shadowed request R (transition current) (transition current) s := by
  refine Shadowed.same ?_
  unfold after AgentExecutor.transition
  simp only [bind, EStateM.bind, get, getThe, MonadStateOf.get, EStateM.get]
  cases s.lifecycle.transition current with
  | ok state => rfl
  | error exc => rfl

theorem Shadowed.bind {x unobserved : ExecM α} {f unobservedRest : α → ExecM β}
    (hx : Shadowed request R x unobserved s)
    (hf : ∀ a t, unobserved s = .ok a t → Shadowed request R (f a) (unobservedRest a) t) :
    Shadowed request R (x >>= f) (unobserved >>= unobservedRest) s := by
  have hstep : ∀ {y : ExecM α} {g : α → ExecM β} {a t}, y s = .ok a t → (y >>= g) s = g a t := by
    intro y g a t hy
    change EStateM.bind y g s = g a t
    unfold EStateM.bind
    rw [hy]
  have hstop : ∀ {y : ExecM α} {g : α → ExecM β} {exc t}, y s = .error exc t →
      (y >>= g) s = .error exc t := by
    intro y g exc t hy
    change EStateM.bind y g s = .error exc t
    unfold EStateM.bind
    rw [hy]
  cases hrun : unobserved s with
  | ok a t =>
    have hmid : (after unobserved s).sequence = t.sequence := by
      unfold after
      rw [hrun]
    obtain ⟨hmono, hcalm, hraises⟩ := hx
    obtain ⟨hmono', hcalm', hraises'⟩ := hf a t hrun
    rw [hmid] at hmono hcalm hraises
    refine ⟨?_, fun h => ?_, fun h => ?_⟩
    · rw [after_bind_ok hrun]
      exact hmono.trans hmono'
    · rw [after_bind_ok hrun, CalmBetween.split hmono hmono'] at h
      rw [hstep (hcalm h.1 |>.trans hrun), hstep hrun]
      exact hcalm' h.2
    · rw [after_bind_ok hrun, CalmBetween.split hmono hmono', not_and_or] at h
      by_cases hfirst : CalmBetween request s.sequence t.sequence
      · rw [hstep (hcalm hfirst |>.trans hrun)]
        exact hraises' (h.resolve_left (not_not.mpr hfirst))
      · obtain ⟨exc, u, hraise, hR⟩ := hraises hfirst
        exact ⟨exc, u, hstop hraise, hR⟩
  | error exc t =>
    have hlast : after (unobserved >>= unobservedRest) s = after unobserved s := by
      rw [after_bind_error hrun]
      unfold after
      rw [hrun]
    refine ⟨?_, fun h => ?_, fun h => ?_⟩
    · rw [hlast]
      exact hx.mono
    · rw [hlast] at h
      rw [hstop (hx.calm h |>.trans hrun), hstop hrun]
    · rw [hlast] at h
      obtain ⟨exc, u, hraise, hR⟩ := hx.raises h
      exact ⟨exc, u, hstop hraise, hR⟩

theorem Shadowed.map {x unobserved : ExecM α} (f : α → β)
    (hx : Shadowed request R x unobserved s) :
    Shadowed request R (f <$> x) (f <$> unobserved) s := by
  have hbind := hx.bind fun a t _ => @Shadowed.pure _ request R t (f a)
  rw [bind_pure_comp, bind_pure_comp] at hbind
  exact hbind

/-- A handler that raises wherever the observer interrupted the body. -/
theorem Shadowed.catching {I : ExecState → Prop} {x unobserved : ExecM α}
    {h unobservedHandler : PyExc → ExecM α} (hx : Shadowed request I x unobserved s)
    (hh : ∀ exc t, unobserved s = .error exc t →
      Shadowed request R (h exc) (unobservedHandler exc) t)
    (hraise : ∀ exc t, I t → ∃ exc' t', h exc t = .error exc' t' ∧ R t') :
    Shadowed request R (tryCatch x h) (tryCatch unobserved unobservedHandler) s := by
  have hreturn : ∀ {y : ExecM α} {g : PyExc → ExecM α} {a t}, y s = .ok a t →
      (tryCatch y g : ExecM α) s = .ok a t := by
    intro y g a t hy
    change EStateM.tryCatch y g s = .ok a t
    unfold EStateM.tryCatch
    rw [hy]
  have hcatch : ∀ {y : ExecM α} {g : PyExc → ExecM α} {exc t}, y s = .error exc t →
      (tryCatch y g : ExecM α) s = g exc t := by
    intro y g exc t hy
    change EStateM.tryCatch y g s = g exc t
    unfold EStateM.tryCatch
    rw [hy]
    rfl
  have hinterrupted : ¬CalmBetween request s.sequence (after unobserved s).sequence →
      ∃ exc t, (tryCatch x h : ExecM α) s = .error exc t ∧ R t := by
    intro hnot
    obtain ⟨exc, t, hx, hI⟩ := hx.raises hnot
    rw [hcatch hx]
    exact hraise exc t hI
  cases hrun : unobserved s with
  | ok a t =>
    have hlast : after (tryCatch unobserved unobservedHandler : ExecM α) s = after unobserved s := by
      unfold after
      rw [hreturn hrun, hrun]
    refine ⟨?_, fun hcalm => ?_, fun hnot => ?_⟩
    · rw [hlast]
      exact hx.mono
    · rw [hlast] at hcalm
      rw [hreturn ((hx.calm hcalm).trans hrun), hreturn hrun]
    · rw [hlast] at hnot
      exact hinterrupted hnot
  | error exc t =>
    have hmid : (after unobserved s).sequence = t.sequence := by
      unfold after
      rw [hrun]
    have hlast : after (tryCatch unobserved unobservedHandler : ExecM α) s =
        after (unobservedHandler exc) t := by
      unfold after
      rw [hcatch hrun]
    obtain ⟨hmono, hcalm, -⟩ := hx
    obtain ⟨hmono', hcalm', hraises'⟩ := hh exc t hrun
    rw [hmid] at hmono hcalm hinterrupted
    refine ⟨?_, fun hall => ?_, fun hnot => ?_⟩
    · rw [hlast]
      exact hmono.trans hmono'
    · rw [hlast, CalmBetween.split hmono hmono'] at hall
      rw [hcatch ((hcalm hall.1).trans hrun), hcatch hrun]
      exact hcalm' hall.2
    · rw [hlast, CalmBetween.split hmono hmono', not_and_or] at hnot
      by_cases hfirst : CalmBetween request s.sequence t.sequence
      · rw [hcatch ((hcalm hfirst).trans hrun)]
        exact hraises' (hnot.resolve_left (not_not.mpr hfirst))
      · exact hinterrupted hfirst

end Rules

section Steps

variable {executor : AgentExecutor} {request : ExecutionRequest} {run : AgentRun}
  {R : ExecState → Prop} {s : ExecState}

/-- An event reaches the observer behind the bus. -/
theorem publishNext_shadowed {event : EventIdentity → Published}
    (hR : ∀ t : ExecState, t.lifecycle = s.lifecycle → R t) :
    Shadowed request R (publishNext request event) (publishNext (quiet request) event) s := by
  have hquiet := @publishNext_run (quiet request) rfl event s
  have hlast : (after (publishNext (quiet request) event) s).sequence = s.sequence + 1 := by
    unfold after
    rw [hquiet]
  have hone : CalmBetween request s.sequence (s.sequence + 1) ↔ Calm request (s.sequence + 1) := by
    constructor
    · exact fun h => h _ (Nat.lt_succ_self _) (le_refl _)
    · intro h i hlow hhigh
      rw [show i = s.sequence + 1 by omega]
      exact h
  have hobserve : publishNext request event s =
      progress request (after (publishNext (quiet request) event) s) := by
    unfold after
    rw [hquiet]
    rfl
  unfold progress at hobserve
  refine ⟨?_, fun h => ?_, fun h => ?_⟩
  · rw [hlast]
    exact Nat.le_succ _
  · rw [hlast, hone] at h
    rw [hobserve, hquiet]
    unfold after
    rw [hquiet]
    cases hhandler : request.onProgress with
    | none => rfl
    | some handler =>
      have hcalm := h handler hhandler
      simp only [bind, EStateM.bind, get, getThe, MonadStateOf.get, EStateM.get, hcalm]
      rfl
  · rw [hlast, hone] at h
    unfold Calm at h
    simp only [not_forall] at h
    obtain ⟨handler, hhandler, hloud⟩ := h
    obtain ⟨exc, hexc⟩ := Option.ne_none_iff_exists'.mp hloud
    refine ⟨exc, after (publishNext (quiet request) event) s, ?_, hR _ ?_⟩
    · rw [hobserve, hhandler]
      simp only [bind, EStateM.bind, get, getThe, MonadStateOf.get, EStateM.get, hlast, hexc]
      rfl
    · unfold after
      rw [hquiet]

theorem publishLifecycle_shadowed (previous current : AgentState)
    (hR : ∀ t : ExecState, t.lifecycle = s.lifecycle → R t) :
    Shadowed request R (publishLifecycle executor request previous current)
      (publishLifecycle executor (quiet request) previous current) s := by
  unfold publishLifecycle
  split
  · exact publishNext_shadowed hR
  · exact Shadowed.pure _

theorem publishExecution_shadowed (topic : ExecutionTopic) (status : AgentState) (attempt : ℕ)
    (error : Option AgentError) (usage : Option Json) (observability : Option Observability)
    (hR : ∀ t : ExecState, t.lifecycle = s.lifecycle → R t) :
    Shadowed request R
      (publishExecution executor request topic status attempt error usage observability)
      (publishExecution executor (quiet request) topic status attempt error usage observability)
      s := by
  unfold publishExecution
  split
  · exact publishNext_shadowed hR
  · exact Shadowed.pure _

theorem publishSecurity_shadowed (topic : SecurityTopic) (action : String) (allowed : Bool)
    (reason : String) (violations : List String) :
    Shadowed request R
      (publishSecurity executor request topic action allowed reason violations)
      (publishSecurity executor (quiet request) topic action allowed reason violations) s := by
  unfold publishSecurity
  split
  · exact Shadowed.record _
  · exact Shadowed.pure _

theorem transition_lifecycle (current : AgentState) :
    Triple (fun _ => True) (transition current) (fun _ t => t.lifecycle = current)
      (fun _ _ => True) := by
  refine Triple.bind (R := fun _ _ => True) (Triple.get fun _ h => h) fun t => ?_
  unfold AgentState.transition
  by_cases hnext : current ∈ t.lifecycle.next
  · rw [if_pos hnext]
    exact fun _ _ => rfl
  · rw [if_neg hnext]
    exact fun _ _ => trivial

/-- Publishing leaves the lifecycle where it is. -/
theorem publishNext_lifecycle (state : AgentState) (event : EventIdentity → Published) :
    Triple (fun s => s.lifecycle = state) (publishNext request event)
      (fun _ s => s.lifecycle = state) (fun _ s => s.lifecycle = state) := by
  refine Triple.bind (R := fun _ s => s.lifecycle = state) (Triple.modify fun s h => h) fun _ => ?_
  unfold progress
  split
  · exact Triple.pure fun s h => h
  · refine Triple.bind (R := fun _ s => s.lifecycle = state) (Triple.get fun s h => h) fun t => ?_
    split
    · exact Triple.pure fun s h => h
    · exact Triple.throw fun s h => h

theorem publishExecution_lifecycle (state : AgentState) (topic : ExecutionTopic)
    (status : AgentState) (attempt : ℕ) (error : Option AgentError) (usage : Option Json)
    (observability : Option Observability) :
    Triple (fun s => s.lifecycle = state)
      (publishExecution executor request topic status attempt error usage observability)
      (fun _ s => s.lifecycle = state) (fun _ s => s.lifecycle = state) :=
  Triple.ite (fun _ => publishNext_lifecycle state _) (fun _ => Triple.pure fun _ h => h)

theorem hop_lifecycle (previous current : AgentState) :
    Triple (fun _ => True) (hop executor request previous current)
      (fun _ t => t.lifecycle = current) (fun _ _ => True) := by
  refine (transition_lifecycle current).bind fun _ => ?_
  refine Triple.ite (fun _ => ?_) (fun _ => Triple.pure fun _ h => h)
  exact (publishNext_lifecycle current _).conseq (fun _ h => h) (fun _ _ h => h)
    fun _ _ _ => trivial

/-- The observer may interrupt a hop once the lifecycle has made it. -/
theorem hop_shadowed (previous current : AgentState)
    (hR : ∀ t : ExecState, t.lifecycle = current → R t) :
    Shadowed request R (hop executor request previous current)
      (hop executor (quiet request) previous current) s := by
  refine (Shadowed.transition current).bind fun _ t ht => ?_
  have hlifecycle := (transition_lifecycle current).of_ok trivial ht
  exact publishLifecycle_shadowed previous current fun u hu => hR u (hu.trans hlifecycle)

/-- A hop and the execution event behind it. -/
theorem ending_shadowed {α : Type} (current : AgentState) (topic : ExecutionTopic) (attempt : ℕ)
    (error : Option AgentError) (usage : Option Json) (observability : Option Observability)
    (outcome : α) (hR : ∀ t : ExecState, t.lifecycle = current → R t) (previous : AgentState) :
    Shadowed request R
      (do
        hop executor request previous current
        publishExecution executor request topic current attempt error usage observability
        return outcome)
      (do
        hop executor (quiet request) previous current
        publishExecution executor (quiet request) topic current attempt error usage observability
        return outcome) s := by
  refine (hop_shadowed previous current hR).bind fun _ t ht => ?_
  have hlifecycle := (hop_lifecycle previous current).of_ok trivial ht
  refine (publishExecution_shadowed topic current attempt error usage observability
    fun u hu => hR u (hu.trans hlifecycle)).bind fun _ u _ => ?_
  exact Shadowed.pure outcome

/-- No hop leaves a terminal state. -/
theorem hop_terminal {state : AgentState} (hstate : state.terminal = true)
    (previous current : AgentState) :
    Triple (fun s => s.lifecycle = state) (hop executor request previous current)
      (fun _ _ => False) (fun _ _ => True) := by
  have htransition : Triple (fun s => s.lifecycle = state) (transition current)
      (fun _ _ => False) (fun _ _ => True) := by
    refine Triple.bind (R := fun t _ => t.lifecycle = state) (Triple.get fun s h => h) fun t => ?_
    refine Triple.fix fun s hs => ?_
    unfold AgentState.transition
    rw [hs, AgentState.next_of_terminal hstate, if_neg List.not_mem_nil]
    exact fun _ _ => trivial
  exact htransition.bind fun _ s hs => hs.elim

/-- The handlers raise in a terminal state of the lifecycle. -/
theorem handle_terminal {state : AgentState} (hstate : state.terminal = true) (attempt : ℕ)
    (retried : Bool) (exc : PyExc) :
    Triple (fun s => s.lifecycle = state) (handle executor request attempt retried exc)
      (fun _ _ => False) (fun _ _ => True) := by
  have hends : ∀ error topic status, Triple (fun s => s.lifecycle = state)
      (retryOrEnd executor request attempt retried error topic status)
      (fun _ _ => False) (fun _ _ => True) := by
    intro error topic status
    refine Triple.ite (fun _ => ?_) (fun _ => ?_)
    · refine Triple.bind ((publishExecution_lifecycle state _ _ _ _ _ _).conseq (fun _ h => h)
        (fun _ _ h => h) fun _ _ _ => trivial) fun _ => ?_
      exact (hop_terminal hstate _ _).bind fun _ s hs => hs.elim
    · exact (hop_terminal hstate _ _).bind fun _ s hs => hs.elim
  exact Triple.ite (fun _ => hends _ _ _) (fun _ => hends _ _ _)

theorem conclude_shadowed (attempt : ℕ) (retried : Bool) (result : AgentResult) :
    Shadowed request (fun t => t.lifecycle.terminal = true)
      (conclude executor request attempt retried result)
      (conclude executor (quiet request) attempt retried result) s := by
  unfold conclude
  split
  · exact ending_shadowed _ _ _ _ _ _ _ (fun t ht => by rw [ht]; rfl) _
  · exact ending_shadowed _ _ _ _ _ _ _ (fun t ht => by rw [ht]; rfl) _

theorem tryAttempt_shadowed (attempt : ℕ) (retried : Bool) :
    Shadowed request (fun t => t.lifecycle.terminal = true)
      (tryAttempt executor request run attempt retried)
      (tryAttempt executor (quiet request) run attempt retried) s := by
  refine (Shadowed.record _).bind fun _ t _ => ?_
  cases run.behaviour attempt with
  | returned result => exact conclude_shadowed attempt retried _
  | raised exc => exact Shadowed.throw exc
  | timedOut => exact Shadowed.throw _

/-- The observer may raise anywhere. -/
def anywhere (_ : ExecState) : Prop := True

theorem retryOrEnd_shadowed (attempt : ℕ) (retried : Bool) (error : AgentError)
    (topic : ExecutionTopic) (status : AgentState) :
    Shadowed request anywhere (retryOrEnd executor request attempt retried error topic status)
      (retryOrEnd executor (quiet request) attempt retried error topic status) s := by
  have hpolicy : resolveRetryPolicy (quiet request) = resolveRetryPolicy request := rfl
  unfold retryOrEnd
  rw [hpolicy]
  dsimp only
  by_cases hretry : shouldRetry error (resolveRetryPolicy request) attempt = true
  · rw [if_pos hretry, if_pos hretry]
    refine (publishExecution_shadowed _ _ _ _ _ _ fun _ _ => trivial).bind fun _ t _ => ?_
    refine (hop_shadowed _ _ fun _ _ => trivial).bind fun _ u _ => ?_
    cases pause (resolveRetryPolicy request) (attempt + 1) with
    | ok delay => exact (Shadowed.record _).bind fun _ _ _ => Shadowed.pure none
    | error exc => exact (Shadowed.throw exc).bind fun _ _ _ => Shadowed.pure none
  · rw [if_neg hretry, if_neg hretry]
    exact ending_shadowed _ _ _ _ _ _ _ (fun _ _ => trivial) _

theorem handle_shadowed (attempt : ℕ) (retried : Bool) (exc : PyExc) :
    Shadowed request anywhere (handle executor request attempt retried exc)
      (handle executor (quiet request) attempt retried exc) s := by
  unfold handle
  split
  · exact retryOrEnd_shadowed attempt retried _ _ _
  · exact retryOrEnd_shadowed attempt retried _ _ _

/-- A turn of the loop: an observer that interrupts the attempt makes the handler
raise, because the lifecycle has ended. -/
theorem turn_shadowed (attempt : ℕ) (retried : Bool) :
    Shadowed request anywhere (turn executor request run attempt retried)
      (turn executor (quiet request) run attempt retried) s := by
  unfold turn
  split
  · exact ending_shadowed _ _ _ _ _ _ _ (fun _ _ => trivial) _
  · refine (publishExecution_shadowed _ _ _ _ _ _ fun _ _ => trivial).bind fun _ t _ => ?_
    refine Shadowed.catching ((tryAttempt_shadowed attempt retried).map some)
      (fun exc u _ => handle_shadowed attempt retried exc) fun exc u hu => ?_
    have hterminal := @handle_terminal executor request _ hu attempt retried exc
    cases hrun : handle executor request attempt retried exc u with
    | ok ended v => exact (hterminal.of_ok rfl hrun).elim
    | error later v => exact ⟨later, v, rfl, trivial⟩

theorem attemptLoop_shadowed (fuel : ℕ) : ∀ attempt retried s,
    Shadowed request anywhere (attemptLoop executor request run fuel attempt retried)
      (attemptLoop executor (quiet request) run fuel attempt retried) s := by
  induction fuel with
  | zero =>
    intro attempt retried s
    refine (turn_shadowed attempt retried).bind fun ended t _ => ?_
    cases ended with
    | some outcome => exact Shadowed.pure outcome
    | none => exact Shadowed.throw _
  | succ fuel ih =>
    intro attempt retried s
    refine (turn_shadowed attempt retried).bind fun ended t _ => ?_
    cases ended with
    | some outcome => exact Shadowed.pure outcome
    | none => exact ih (attempt + 1) true t

theorem refuse_shadowed (error : AgentError) :
    Shadowed request anywhere (refuse executor request error)
      (refuse executor (quiet request) error) s :=
  ending_shadowed _ _ _ _ _ _ _ (fun _ _ => trivial) _

theorem proceed_shadowed :
    Shadowed request anywhere (proceed executor request run)
      (proceed executor (quiet request) run) s := by
  refine (hop_shadowed _ _ fun _ _ => trivial).bind fun _ t _ => ?_
  refine (hop_shadowed _ _ fun _ _ => trivial).bind fun _ u _ => ?_
  refine (hop_shadowed _ _ fun _ _ => trivial).bind fun _ v _ => ?_
  exact attemptLoop_shadowed _ _ _ _

theorem enforceIntent_shadowed (intent : IntentPolicy) :
    Shadowed request anywhere (enforceIntent executor request run intent)
      (enforceIntent executor (quiet request) run intent) s := by
  refine (Shadowed.record _).bind fun _ t _ => ?_
  refine (publishSecurity_shadowed _ _ _ _ _).bind fun _ u _ => ?_
  by_cases hallowed : (validateIntent intent request.agent.capabilities).allowed = true
  · have hquiet : (validateIntent intent (quiet request).agent.capabilities).allowed = true := hallowed
    rw [if_pos hallowed, if_pos hquiet]
    exact (publishSecurity_shadowed _ _ _ _ _).bind fun _ v _ => proceed_shadowed
  · have hquiet : ¬(validateIntent intent (quiet request).agent.capabilities).allowed = true :=
      hallowed
    rw [if_neg hallowed, if_neg hquiet]
    exact (publishSecurity_shadowed _ _ _ _ _).bind fun _ v _ => refuse_shadowed _

/-- An execution with an observer is the one without it, or raises because the
observer does. -/
theorem execute_shadowed :
    Shadowed request anywhere (execute executor request run)
      (execute executor (quiet request) run) s := by
  refine (publishLifecycle_shadowed _ _ fun _ _ => trivial).bind fun _ t _ => ?_
  have htask : validateAgentTask (quiet request).task = validateAgentTask request.task := rfl
  have hcap : enforceCapabilities executor (quiet request) = enforceCapabilities executor request :=
    rfl
  have hintent : (quiet request).intent = request.intent := rfl
  rw [htask, hcap, hintent]
  cases validateAgentTask request.task with
  | cons first rest => exact refuse_shadowed _
  | nil =>
    cases enforceCapabilities executor request with
    | error exc => exact refuse_shadowed _
    | ok _ =>
      cases request.intent with
      | none => exact proceed_shadowed
      | some intent => exact enforceIntent_shadowed intent

end Steps

section Unshaken

variable {executor : AgentExecutor} {request : ExecutionRequest} {run : AgentRun}

/-- The event with this number is published, when nobody observes it. -/
def Delivered (executor : AgentExecutor) (request : ExecutionRequest) (run : AgentRun) (i : ℕ) :
    Prop :=
  executor.bus = true ∧ 1 ≤ i ∧
    (¬Admitted executor request ∧ i ≤ 3 ∨
      Admitted executor request ∧ ∃ n, Retries request run n ∧ ¬RetriesAfter request run (n + 1) ∧
        i ≤ 4 + 3 * n + if run.cancelled (n + 1) then 2 else 3)

/-- Published lifecycle hops that enter a terminal state. -/
def terminalHops (events : List ExecEvent) : List (AgentState × AgentState) :=
  (hops events).filter fun hop => hop.2.terminal

/-- The observer does not matter: the execution returns what it returns without
it, and one terminal event of the lifecycle is published. -/
def Unshaken (executor : AgentExecutor) (request : ExecutionRequest) (run : AgentRun) : Prop :=
  ∃ outcome s, execute executor request run {} = .ok outcome s ∧
    (∃ unobserved t, execute executor (quiet request) run {} = .ok unobserved t ∧
      outcome.status = unobserved.status ∧ outcome.result = unobserved.result) ∧
    (executor.bus = true → (terminalHops s.events).length = 1)

theorem Retries.unique {n m : ℕ} (hn : Retries request run n)
    (hn' : ¬RetriesAfter request run (n + 1)) (hm : Retries request run m)
    (hm' : ¬RetriesAfter request run (m + 1)) : n = m := by
  rcases lt_trichotomy n m with hlt | heq | hgt
  · exact absurd (hm n hlt).1 hn'
  · exact heq
  · exact absurd (hn m hgt).1 hm'

/-- The events of an execution without an observer. -/
theorem delivered_iff {outcome : ExecutionOutcome} {s : ExecState}
    (h : Accounted executor request run outcome s) (i : ℕ) :
    Delivered executor request run i ↔ 0 < i ∧ i ≤ s.sequence := by
  have hsequence : s.sequence = s.tally.sequence := rfl
  rw [hsequence]
  unfold Delivered
  rcases h with ⟨hnot, hrefused⟩ | ⟨hadm, n, hfinishes⟩
  · rw [hrefused.tally]
    unfold told seen
    by_cases hb : executor.bus = true
    · simp only [hb, hnot, if_pos, true_and, false_and, not_false_eq_true, or_false, Nat.zero_add]
      rfl
    · simp only [hb, if_neg, false_and, false_iff, not_and, Bool.false_eq_true, not_false_eq_true]
      omega
  · have hone : (∃ m, Retries request run m ∧ ¬RetriesAfter request run (m + 1) ∧
        i ≤ 4 + 3 * m + if run.cancelled (m + 1) then 2 else 3) ↔
        i ≤ 4 + 3 * n + if run.cancelled (n + 1) then 2 else 3 := by
      constructor
      · rintro ⟨m, hretries, hlast, hle⟩
        rw [hretries.unique hlast hfinishes.retries hfinishes.last] at hle
        exact hle
      · exact fun hle => ⟨n, hfinishes.retries, hfinishes.last, hle⟩
    rw [hfinishes.ends.tally, hone]
    unfold told retriedTally seen
    by_cases hb : executor.bus = true
    · simp only [hb, hadm, if_pos, true_and, not_true_eq_false, false_and, false_or]
      rfl
    · simp only [hb, if_neg, false_and, false_iff, not_and, Bool.false_eq_true, not_false_eq_true]
      omega

theorem terminalHops_reported {outcome : ExecutionOutcome} {events : List ExecEvent}
    (h : Reported request outcome events) : (terminalHops events).length = 1 := by
  obtain ⟨init, previous, heq, hinit⟩ := h.last
  unfold terminalHops
  rw [heq, List.filter_append, List.filter_eq_nil_iff.mpr fun hop hmem => by simp [hinit hop hmem]]
  simp [h.terminal]

/-- Every reached retry can sleep, and the observer raises on no event. -/
def Undisturbed (executor : AgentExecutor) (request : ExecutionRequest) (run : AgentRun) : Prop :=
  RetriesSleep executor request run ∧ ∀ i, Delivered executor request run i → Calm request i

/-- An undisturbed execution returns what it returns without its observer. -/
theorem Undisturbed.execute_eq (h : Undisturbed executor request run) :
    ∃ outcome s, execute executor request run {} = .ok outcome s ∧
      execute executor (quiet request) run {} = .ok outcome s := by
  have hspec := execute_spec executor (quiet request) run rfl {} rfl
  have htally := execute_tally executor (quiet request) run rfl {} rfl
  cases hquiet : execute executor (quiet request) run {} with
  | error exc t =>
    rw [hquiet] at hspec
    exact absurd h.1 hspec
  | ok outcome t =>
    rw [hquiet] at htally
    have hlast : (after (execute executor (quiet request) run) {}).sequence = t.sequence := by
      unfold after
      rw [hquiet]
    have hcalm := (@execute_shadowed executor request run {}).calm
    rw [hlast] at hcalm
    refine ⟨outcome, t, (hcalm fun i hpos hle => ?_).trans hquiet, rfl⟩
    exact h.2 i ((delivered_iff htally i).mpr ⟨hpos, hle⟩)

/-- An execution that returns is undisturbed, and the same without its observer. -/
theorem execute_undisturbed {outcome : ExecutionOutcome} {s : ExecState}
    (h : execute executor request run {} = .ok outcome s) :
    execute executor (quiet request) run {} = .ok outcome s ∧ Undisturbed executor request run := by
  have hshadowed := @execute_shadowed executor request run {}
  have hcalm : CalmBetween request ({} : ExecState).sequence
      (after (execute executor (quiet request) run) {}).sequence := by
    by_contra hloud
    obtain ⟨exc, t, hraised, -⟩ := hshadowed.raises hloud
    rw [h] at hraised
    cases hraised
  have hquiet := (hshadowed.calm hcalm).symm.trans h
  have hspec := execute_spec executor (quiet request) run rfl {} rfl
  have htally := execute_tally executor (quiet request) run rfl {} rfl
  have hlast : (after (execute executor (quiet request) run) {}).sequence = s.sequence := by
    unfold after
    rw [hquiet]
  rw [hquiet] at hspec htally
  rw [hlast] at hcalm
  refine ⟨hquiet, hspec.2, fun i hi => ?_⟩
  obtain ⟨hpos, hle⟩ := (delivered_iff htally i).mp hi
  exact hcalm i hpos hle

/-- An observer does not matter exactly when it raises on no event that is
published without it, and every retry that is reached can sleep. -/
theorem execute_unshaken_iff (executor : AgentExecutor) (request : ExecutionRequest)
    (run : AgentRun) :
    Unshaken executor request run ↔
      RetriesSleep executor request run ∧
        ∀ i, Delivered executor request run i → Calm request i := by
  constructor
  · rintro ⟨outcome, s, hrun, -, -⟩
    exact (execute_undisturbed hrun).2
  · intro h
    obtain ⟨outcome, s, hrun, hquiet⟩ := Undisturbed.execute_eq h
    have hspec := execute_spec executor (quiet request) run rfl {} rfl
    rw [hquiet] at hspec
    refine ⟨outcome, s, hrun, ⟨outcome, s, hquiet, rfl, rfl⟩, fun hb => ?_⟩
    exact terminalHops_reported (hspec.1.reported hb)

/-- A request whose observer raises on the sixth event. -/
def rattled : ExecutionRequest :=
  { agent := { name := "agent", metadata := { name := "agent" }, capabilities := {} }
    task := { description := "task", taskId := "t1" }
    onProgress := some fun i => if i = 6 then some ⟨.valueError, "observer"⟩ else none }

/-- An agent that succeeds at once. -/
def succeedsAtOnce : AgentRun where
  behaviour := fun _ => .returned {}
  cancelled := fun _ => false

/-- The agent succeeded, and the execution raises. -/
theorem rattled_shaken : ¬Unshaken {} rattled succeedsAtOnce := by
  rintro ⟨outcome, s, hrun, -⟩
  cases hrun

end Unshaken

end AgentExecutor

end AiosDeck.Agents
