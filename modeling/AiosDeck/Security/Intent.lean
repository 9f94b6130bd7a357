import AiosDeck.Agents.Contracts

/-!
# Intents, capabilities and effective permissions

A coarse capability expands to granular actions. An intent asks for a set
of actions and may deny some. What a run may do is the intersection; an
action absent from either side is denied.
-/

namespace AiosDeck.Security

open Agents

instance instTransName : IsTrans String fun a b => a ≤ b := inferInstance

instance instAntisymmName : Std.Antisymm fun a b : String => a ≤ b := inferInstance

abbrev FILESYSTEM_READ_ACTION : String := "filesystem.read"
abbrev FILESYSTEM_WRITE_ACTION : String := "filesystem.write"
abbrev SHELL_EXECUTE : String := "shell.execute"
abbrev GIT_BRANCH : String := "git.branch"
abbrev GIT_COMMIT : String := "git.commit"
abbrev NETWORK_ACCESS : String := "network.access"
abbrev ASK_USER_ACTION : String := "ask_user"

/-- `CAPABILITY_ACTIONS`: the actions that a coarse capability grants. A
capability with no entry grants nothing. -/
def CAPABILITY_ACTIONS (capability : String) : Finset String :=
  if capability = "filesystem_read" then {FILESYSTEM_READ_ACTION}
  else if capability = "filesystem_write" then {FILESYSTEM_WRITE_ACTION}
  else if capability = "shell" then {SHELL_EXECUTE}
  else if capability = "git" then {GIT_BRANCH, GIT_COMMIT}
  else if capability = "internet" then {NETWORK_ACCESS}
  else if capability = "ask_user" then {ASK_USER_ACTION}
  else ∅

/-- Additive union of what every declared capability grants. -/
def expand (capabilities : AgentCapabilities) : Finset String :=
  capabilities.permissions.foldl (fun granted capability => granted ∪ CAPABILITY_ACTIONS capability) ∅

/-- Explicit action vocabulary of a run. -/
structure IntentPolicy where
  actions : Finset String := ∅
  deny : Finset String := ∅
  name : String := ""
  source : String := "default"
  deriving DecidableEq

/-- `effective = (intent.actions - intent.deny) ∩ expand(capabilities)`. -/
def effectivePermissions (intent : IntentPolicy) (capabilities : AgentCapabilities) : Finset String :=
  (intent.actions \ intent.deny) ∩ expand capabilities

/-- Auditable verdict of an intent against an agent's capabilities. -/
structure SecurityDecision where
  action : String := ""
  allowed : Bool := false
  reason : String := ""
  violations : List String := []
  effective : Finset String := ∅
  deriving DecidableEq

/-- `intent.name or "unknown"`. -/
def IntentPolicy.label (intent : IntentPolicy) : String :=
  if intent.name = "" then "unknown" else intent.name

/-- An intent passes against capabilities when some action survives both;
otherwise every granted action is reported as a violation. -/
def validateIntent (intent : IntentPolicy) (capabilities : AgentCapabilities) : SecurityDecision :=
  let granted := expand capabilities
  let effective := (intent.actions \ intent.deny) ∩ granted
  if effective = ∅ then
    { action := intent.label, allowed := false,
      reason := "intent '" ++ intent.label ++ "' grants no action",
      violations := granted.sort (· ≤ ·), effective := ∅ }
  else
    { action := intent.label, allowed := true,
      reason := "intent '" ++ intent.label ++ "' grants actions", effective := effective }

/-- The verdict tests only that the effective set is inhabited. -/
theorem validateIntent_allowed (intent : IntentPolicy) (capabilities : AgentCapabilities) :
    (validateIntent intent capabilities).allowed = true ↔
      effectivePermissions intent capabilities ≠ ∅ := by
  unfold validateIntent effectivePermissions
  by_cases h : (intent.actions \ intent.deny) ∩ expand capabilities = ∅ <;> simp [h]

/-- The `develop` defaults plus `ask_user`, for the workflow pipeline. -/
def WORKFLOW_INTENT : IntentPolicy :=
  { name := "develop"
    actions := {FILESYSTEM_READ_ACTION, FILESYSTEM_WRITE_ACTION, SHELL_EXECUTE, GIT_BRANCH,
      GIT_COMMIT, ASK_USER_ACTION} }

/-- Capability enforcement at the executor: a canonical grant per agent name. -/
structure CapabilityEnforcer where
  policy : List (String × List String)
  deriving DecidableEq, Repr

/-- Declared capabilities that the policy does not grant to the agent. -/
def CapabilityEnforcer.extra (enforcer : CapabilityEnforcer) (agent : Agent) : Finset String :=
  agent.capabilities.permissions.toFinset \ ((enforcer.policy.lookup agent.name).getD []).toFinset

/-- `validate`: `PermissionError` when the agent declares what is not granted. -/
def CapabilityEnforcer.validate (enforcer : CapabilityEnforcer) (agent : Agent) :
    Except Python.PyExc Unit :=
  if enforcer.extra agent = ∅ then .ok ()
  else .error ⟨.permissionError, "agent '" ++ agent.name ++
    "' declares capabilities not granted by policy: [" ++
    Python.join ", " (((enforcer.extra agent).sort (· ≤ ·)).map fun name => "'" ++ name ++ "'") ++ "]"⟩

end AiosDeck.Security
