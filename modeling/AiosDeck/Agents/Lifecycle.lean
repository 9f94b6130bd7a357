import AiosDeck.Agents.Contracts

/-!
# Agent execution lifecycle

The validated state machine of one execution. `created → created` is the
initialization event and not a transition; `running → running` is a retry.
-/

namespace AiosDeck.Agents

open Python

/-- `TERMINAL_STATES`. -/
def AgentState.terminal : AgentState → Bool
  | .succeeded | .failed | .timedOut | .cancelled => true
  | _ => false

/-- `_TRANSITIONS`. -/
def AgentState.next : AgentState → List AgentState
  | .created => [.validated, .failed, .cancelled]
  | .validated => [.queued, .failed, .cancelled]
  | .queued => [.running, .failed, .cancelled]
  | .running => [.succeeded, .failed, .timedOut, .cancelled, .running]
  | .succeeded | .failed | .timedOut | .cancelled => []

/-- `LifecycleError`. -/
abbrev lifecycleError : ExcClass := .user "LifecycleError"

/-- `AgentLifecycle.transition`: the next state, or `LifecycleError`. -/
def AgentState.transition (state nextState : AgentState) : Except PyExc AgentState :=
  if nextState ∈ state.next then .ok nextState
  else .error ⟨lifecycleError, "Invalid transition"⟩

/-- No transition leaves a terminal state. -/
theorem AgentState.next_of_terminal {state : AgentState} (h : state.terminal = true) :
    state.next = [] := by
  cases state <;> simp_all [AgentState.terminal, AgentState.next]

/-- A path of the transition relation, read off consecutive hops. -/
def LifecyclePath : AgentState → List (AgentState × AgentState) → Prop
  | _, [] => True
  | state, hop :: rest => hop.1 = state ∧ hop.2 ∈ state.next ∧ LifecyclePath hop.2 rest

/-- State at the end of a sequence of hops. -/
def lastState (start : AgentState) (hops : List (AgentState × AgentState)) : AgentState :=
  hops.foldl (fun _ hop => hop.2) start

@[simp] theorem lastState_append (start : AgentState) (hops : List (AgentState × AgentState))
    (hop : AgentState × AgentState) : lastState start (hops ++ [hop]) = hop.2 := by
  simp [lastState]

/-- A path grows at its end by one permitted hop. -/
theorem LifecyclePath.append {start : AgentState} {hops : List (AgentState × AgentState)}
    (h : LifecyclePath start hops) {nextState : AgentState}
    (hn : nextState ∈ (lastState start hops).next) :
    LifecyclePath start (hops ++ [(lastState start hops, nextState)]) := by
  induction hops generalizing start with
  | nil => exact ⟨rfl, hn, trivial⟩
  | cons hop rest ih =>
    obtain ⟨hs, ht, hr⟩ := h
    exact ⟨hs, ht, ih hr hn⟩

end AiosDeck.Agents
