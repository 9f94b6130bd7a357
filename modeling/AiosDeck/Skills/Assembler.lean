import AiosDeck.Skills.Retrieval
import AiosDeck.Telemetry.Batch

/-!
# The skills of a prompt

Discovery and retrieval behind one call that never raises, and the records of what was
considered and used.
-/

namespace AiosDeck.Skills

open Python Knowledge Retrieval Telemetry

section Recorder

/-- `SkillUsageRecorder`. -/
structure SkillUsageRecorder where
  /-- Whether there is a telemetry engine. -/
  telemetry : Bool
  executionId : Text := []
  correlationId : Text := []

/-- The last context of a skill: the later of two entries of a dictionary stays. -/
def contextNamed (contexts : List SkillContext) (name : Text) : Option SkillContext :=
  contexts.reverse.find? fun c => c.skill.skill.name = name

/-- `_tokens_map(contexts).get(name, 0)`. -/
def tokensMap (contexts : List SkillContext) (name : Text) : ℤ :=
  ((contextNamed contexts name).map SkillContext.tokensUsed).getD 0

/-- `name in _used_names(contexts)`. -/
def isUsed (contexts : List SkillContext) (name : Text) : Bool :=
  contexts.any fun c => c.skill.skill.name = name

/-- What `record_skill_usage` is told about one skill. -/
def skillRecord (recorder : SkillUsageRecorder) (contexts : List SkillContext) (intent agent : Text)
    (s : ScoredSkill) : Record :=
  [("execution_id", textVal recorder.executionId),
   ("correlation_id", textVal recorder.correlationId),
   ("skill_name", textVal s.skill.name),
   ("skill_version", textVal s.skill.version),
   ("intent", textVal intent),
   ("agent", textVal agent),
   ("considered", .int 1),
   ("selected", .int 1),
   ("used", .int (if isUsed contexts s.skill.name then 1 else 0)),
   ("relevance_score", .float s.score),
   ("tokens_contributed", .int (tokensMap contexts s.skill.name)),
   ("downstream_success", .none)]

/-- `SkillUsageRecorder.record_pipeline`, as what the telemetry engine is told. -/
def SkillUsageRecorder.recordPipeline (recorder : SkillUsageRecorder)
    (contexts : List SkillContext) (considered : List ScoredSkill) (intent agent : Text) :
    List Record :=
  if recorder.telemetry then considered.map (skillRecord recorder contexts intent agent) else []

end Recorder

section Assembler

/-- `SkillAssembler`. -/
structure SkillAssembler where
  discovery : Option SkillDiscoveryService := none
  retrieval : Option SkillRetrievalService := none
  recorder : Option SkillUsageRecorder := none

/-- `SkillAssembler.assemble`, with what is recorded. -/
def SkillAssembler.assemble (assembler : SkillAssembler) (lower : Text → Text) (intent : Text)
    (context : ContextPacket) (agent : Text) : List SkillContext × List Record :=
  match assembler.discovery, assembler.retrieval with
  | some discovery, some retrieval =>
    let considered := discovery.discover lower intent (some context)
    if considered = [] then ([], [])
    else
      match retrieval.retrieve considered intent agent 2 with
      | .error _ => ([], [])
      | .ok contexts =>
        (contexts, (assembler.recorder.map fun recorder =>
          recorder.recordPipeline contexts considered intent agent).getD [])
  | _, _ => ([], [])

end Assembler

section Records

variable {contexts : List SkillContext} {considered : List ScoredSkill} {name : Text}

/-- The tokens that a record tells. -/
def recordTokens (record : Record) : ℤ :=
  match record.get "tokens_contributed" with
  | .int n => n
  | _ => 0

/-- The record tells that the skill is used. -/
def tellsUse (record : Record) : Bool :=
  match record.get "used" with
  | .int n => decide (n = 1)
  | _ => false

@[simp] theorem recordTokens_skillRecord (recorder : SkillUsageRecorder) (intent agent : Text)
    (s : ScoredSkill) : recordTokens (skillRecord recorder contexts intent agent s) =
      tokensMap contexts s.skill.name := rfl

variable (hconsidered : (considered.map fun s => s.skill.name).Nodup)
  (hskills : ∀ c ∈ contexts, c.skill ∈ considered)
  (honce : (contexts.map fun c => c.skill.skill.name).Nodup)
include hconsidered hskills honce

end Records

section Rows

variable {contexts : List SkillContext}

end Rows

section Accounting

/-- One record for each considered skill, in order. The used ones are those of the contexts,
and together they tell the tokens of the contexts, which are within the budget. -/
structure Accounted (env : StoreEnv) (budget : ℤ) (considered : List ScoredSkill)
    (contexts : List SkillContext) (records : List Record) : Prop where
  names : records.map (fun record => record.get "skill_name") =
    considered.map fun s => textVal s.skill.name
  used : (records.filter tellsUse).length = contexts.length
  tokens : (records.map recordTokens).sum = (contexts.map SkillContext.tokensUsed).sum
  within : (contexts.map SkillContext.tokensUsed).sum ≤ max 0 budget
  valid : ∀ record ∈ records, Valid env "skills" record

variable {env : StoreEnv} {assembler : SkillAssembler} {discovery : SkillDiscoveryService}
  {retrieval : SkillRetrievalService} {recorder : SkillUsageRecorder}

end Accounting

end AiosDeck.Skills
