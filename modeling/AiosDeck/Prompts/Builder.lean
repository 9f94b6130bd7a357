import AiosDeck.Context.Assembler
import AiosDeck.Skills.Assembler

/-!
# The prompt

Task and context as one text. A prompt of layers shows those that the assembler has kept, a
plain one shows the packet.
-/

namespace AiosDeck.Prompts

open Python Retrieval Context Skills Knowledge

section Sections

/-- `"\n\n".join(s for s in sections if s)`. -/
def joinSections (sections : List Text) : Text :=
  "\n\n".toList.intercalate (sections.filter fun s => s ≠ [])

/-- A text below its heading. -/
def headed (heading : String) (content : Text) : Text := heading.toList ++ ['\n'] ++ content

/-- A label and its items, where there are some. -/
def itemLines (label : String) (items : List Text) : List Text :=
  if items = [] then [] else label.toList :: items.map fun item => "- ".toList ++ item

/-- `_task_section`. -/
def plainTaskSection (description : Text) : Text := headed "## Task" description

/-- `_context_section`. -/
def contextSection (packet : Context.ContextPacket) : Text :=
  joinLines ["## Project Context".toList, "- Language: ".toList ++ packet.language,
    "- Linter: ".toList ++ orText packet.linter "none",
    "- Formatter: ".toList ++ orText packet.formatter "none",
    "- Test runner: ".toList ++ orText packet.testRunner "none"]

/-- `_git_section`. -/
def gitSection (packet : Context.ContextPacket) : Text :=
  if packet.gitBranch = [] then "## Git Status\n- Status: unknown".toList
  else joinLines ["## Git Status".toList, "- Branch: ".toList ++ packet.gitBranch,
    "- Status: ".toList ++ packet.gitStatus]

/-- `_research_section`. -/
def plainResearchSection (packet : Context.ContextPacket) : Except PyExc Text := do
  let summary ← packet.summary
  if summary.truthy then return headed "## Research" summary.text.toList else return []

/-- `_memory_section`. -/
def memorySection (packet : Context.ContextPacket) : Text :=
  match packet.memory with
  | none => []
  | some k =>
    if k.isEmpty then []
    else joinLines ("## Memory".toList :: (itemLines "Conventions:" k.conventions ++
      itemLines "Decisions:" k.decisions ++ itemLines "Patterns:" k.patterns ++
      itemLines "Mistakes to avoid:" k.mistakes))

/-- `_skills_section`. -/
def skillsSection (packet : Context.ContextPacket) : Text :=
  joinLines (itemLines "## Skills Loaded" packet.skills)

/-- `_smart_skills_section`. -/
def smartSkillsSection (contexts : List SkillContext) : Text :=
  let selected := ", ".toList.intercalate (contexts.map fun c =>
    c.skill.skill.name ++ " (".toList ++ (formatTwo c.relevanceScore).toList ++ ")".toList)
  let tokens := (toString (contexts.map SkillContext.tokensUsed).sum).toList
  joinLines ("## Relevant Skills".toList :: (contexts.map fun c => formatSkillHeader c.skill) ++
    [] :: (contexts.flatMap fun c => c.chunks.map fun chunk => chunk.result.content) ++
    [[], "[Audit]".toList, "- selected: ".toList ++ selected, "- tokens used: ".toList ++ tokens,
      "- budget: ".toList ++ tokens ++ " tokens".toList])

/-- The skills that were found for the task, or else those of the packet. -/
def skillPart (packet : Context.ContextPacket) (contexts : List SkillContext) : Text :=
  if contexts = [] then skillsSection packet else smartSkillsSection contexts

end Sections

section Layers

/-- `by_type.get(type)`: the first layer of a type. -/
def ofType (type : LayerType) (layers : List TracedLayer) : Option TracedLayer :=
  layers.find? fun l => l.layer.type = type

/-- The section of a type that shows one layer. -/
def typeSection (heading : String) (type : LayerType) (layers : List TracedLayer) : Text :=
  match ofType type layers with
  | none => []
  | some l => headed heading l.layer.content

/-- `task_section`. -/
def taskSection (layers : List TracedLayer) : Text := typeSection "## Task" .task layers

/-- `project_section`. -/
def projectSection (layers : List TracedLayer) : Text :=
  typeSection "## Project Context" .project layers

/-- `research_section`. -/
def researchSection (layers : List TracedLayer) : Text := typeSection "## Research" .research layers

/-- The retrieved layers that have something to show. -/
def retrievedLayers (layers : List TracedLayer) : List TracedLayer :=
  layers.filter fun l => l.layer.type = .retrieved ∧ l.layer.content ≠ []

-- `str` of a float, by the digits of the interpreter
variable (floatText : PyFloat → Text)

/-- `"(score=…) [pos=…]"`, where there is a score other than zero. -/
def metaText : Option LayerTrace → Text
  | none => []
  | some trace =>
    if (PyNum.float trace.score).isZero then []
    else "(score=".toList ++ floatText trace.score ++ ") [pos=".toList ++
      (toString trace.position).toList ++ "]".toList

/-- `"retrieved/…"`, with the path of the source where there is one. -/
def sourceText (trace : Option LayerTrace) : Text :=
  match trace.map LayerTrace.sourcePath with
  | none | some [] => "retrieved".toList
  | some path => "retrieved/".toList ++ path

/-- The lines of one retrieved layer. -/
def knowledgeLines (i : ℕ) (l : TracedLayer) : List Text :=
  ["[".toList ++ (toString i).toList ++ "] source=".toList ++ sourceText l.trace ++ [' '] ++
    metaText floatText l.trace, l.layer.content, []]

/-- `knowledge_section`. -/
def knowledgeSection (layers : List TracedLayer) : Text :=
  if retrievedLayers layers = [] then []
  else joinLines ("[Knowledge]".toList ::
    ((retrievedLayers layers).zipIdx 1).flatMap fun l => knowledgeLines floatText l.2 l.1)

/-- `str` of a truth value. -/
def boolText (b : Bool) : Text := (if b then "True" else "False").toList

/-- The line of the audit on one layer. -/
def auditLine (l : TracedLayer) : Text :=
  "- ".toList ++ l.layer.type.value.toList ++ " (source=".toList ++ l.layer.source ++
    ") tokens=".toList ++ (toString l.layer.tokens).toList ++
    (if l.layer.isGuardrail then " [guardrail]".toList else [])

/-- `audit_section`. -/
def auditSection (layered : LayeredContext) : Text :=
  joinLines ("[Audit]".toList :: layered.layers.map auditLine ++
    ["- total: ".toList ++ (toString layered.totalTokens).toList ++ " tokens".toList,
      "- budget: ".toList ++ (toString layered.budgetTokens).toList ++ " tokens".toList,
      "- truncated: ".toList ++ boolText layered.truncated,
      "- dropped_duplicates: ".toList ++ (toString layered.droppedDuplicates).toList])

/-- `_build_layered`. -/
def buildLayered (packet : Context.ContextPacket) (layered : LayeredContext)
    (contexts : List SkillContext) : Text :=
  joinSections [taskSection layered.layers, projectSection layered.layers, memorySection packet,
    researchSection layered.layers, knowledgeSection floatText layered.layers,
    skillPart packet contexts, auditSection layered]

/-- `_build_default`. -/
def buildDefault (description : Text) (packet : Context.ContextPacket)
    (contexts : List SkillContext) : Except PyExc Text := do
  let research ← plainResearchSection packet
  return joinSections [plainTaskSection description, contextSection packet, gitSection packet,
    research, memorySection packet, skillPart packet contexts]

/-- `PromptBuilder.build`. -/
def build (description : Text) (packet : Context.ContextPacket) (contexts : List SkillContext)
    (layered : Option LayeredContext) : Except PyExc Text :=
  match layered with
  | none => buildDefault description packet contexts
  | some layered =>
    if layered.layers.isEmpty then buildDefault description packet contexts
    else .ok (buildLayered floatText packet layered contexts)

end Layers

section Agent

/-- `DeveloperAgent`, as far as its prompt goes. -/
structure DeveloperAgent where
  skills : Option SkillAssembler := none
  assembler : Option ContextAssembler := none

namespace DeveloperAgent

variable (agent : DeveloperAgent)

/-- `self.name`. -/
def name : Text := "developer".toList

/-- The skills for the task. -/
def skillContexts (lower : Text → Text) (description : Text) (packet : Context.ContextPacket) :
    List SkillContext :=
  match agent.skills with
  | none => []
  | some skills => (skills.assemble lower description packet.toContextPacket name).1

/-- The layers for the task. -/
def layered (lower : Text → Text) (description : Text) (packet : Context.ContextPacket) :
    Option LayeredContext :=
  agent.assembler.map fun assembler => assembler.assemble lower description (some packet) name

/-- The prompt that `execute` gives to the runtime. -/
def prompt (lower : Text → Text) (floatText : PyFloat → Text) (description : Text)
    (packet : Context.ContextPacket) : Except PyExc Text :=
  build floatText description packet (agent.skillContexts lower description packet)
    (agent.layered lower description packet)

end DeveloperAgent

end Agent

end AiosDeck.Prompts
