import AiosDeck.Research.Contracts

/-!
# Reading a research result back

A result is read from a dictionary field by field, with a default for each that is
missing. What `to_dict` writes is read back as it was.
-/

namespace AiosDeck.Research

open Python

section Reading

/-- The text of a field. -/
def readText : Json → Option Text
  | .str s => some s.toList
  | _ => none

/-- The name in a field. -/
def readName : Json → Option String
  | .str s => some s
  | _ => none

/-- The names in a field. -/
def readNames : Json → Option (List String)
  | .arr items => items.mapM readName
  | _ => none

end Reading

section RoundTrip

@[simp] theorem readText_textJson (text : Text) : readText (textJson text) = some text := by
  simp [readText, textJson]

@[simp] theorem readNames_namesJson (names : List String) :
    readNames (namesJson names) = some names := by
  unfold readNames namesJson
  induction names with
  | nil => rfl
  | cons name names ih =>
    dsimp only at ih ⊢
    rw [List.map_cons, List.mapM_cons, ih]
    rfl

theorem getD_obj (fields : List (String × Json)) (key : String) (default : Json) :
    (Json.obj fields).getD key default = .ok ((fields.lookup key).getD default) := rfl

/-- The two fields of a task that are declared as dictionaries are. -/
structure ResearchTask.Plain (task : ResearchTask) : Prop where
  constraints : ∃ fields, task.constraints = .obj fields
  contextPacket : ∃ fields, task.contextPacket = .obj fields

theorem ResearchTask.Plain.toDict {task : ResearchTask} (h : task.Plain) :
    task.toDict = .ok (.obj [("question", textJson task.question), ("scope", .str task.scope),
      ("constraints", task.constraints), ("context_packet", task.contextPacket)]) := by
  obtain ⟨⟨constraints, hconstraints⟩, ⟨packet, hpacket⟩⟩ := h
  unfold ResearchTask.toDict
  rw [hconstraints, hpacket]
  rfl

end RoundTrip

end AiosDeck.Research
