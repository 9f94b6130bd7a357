import Mathlib
import AiosDeck.Python.Objects

/-!
# The settings of the user interface

The `ui` section of the configuration file is written back into what the file is
read as. A file that is not read as a mapping is read as an empty one, and its
contents are replaced.
-/

namespace AiosDeck.Ui

open Python

/-- The items of a dictionary. -/
abbrev Items := List (DictKey × PyVal)

/-- The functions of PyYAML. -/
structure Yaml where
  safeLoad : String → Except PyExc PyVal
  safeDump : Items → Except PyExc String

/-- The configuration file of the user. -/
inductive ConfigFile where
  | absent
  /-- Opening, reading or decoding it raises. -/
  | unreadable
  | text (content : String)
  deriving DecidableEq

/-- What a save finds around it. -/
structure Desk where
  yamlAvailable : Bool := true
  yaml : Yaml
  /-- Making the directory, writing the temporary file and replacing the other. -/
  write : String → Except PyExc Unit

/-- `_load_yaml`. -/
def loadYaml (desk : Desk) (file : ConfigFile) : Items :=
  if !desk.yamlAvailable then []
  else
    match file with
    | .absent => []
    | .unreadable => []
    | .text content =>
      match desk.yaml.safeLoad content with
      | .ok (.dict items) => items
      | .ok _ => []
      | .error _ => []

/-- The sections of a file, when it has a mapping of sections or nothing at all. -/
def sections (yaml : Yaml) : ConfigFile → Option Items
  | .absent => some []
  | .unreadable => none
  | .text content =>
    match yaml.safeLoad content with
    | .ok (.dict items) => some items
    | .ok .none => some []
    | _ => none

variable {desk : Desk} {file : ConfigFile} {value : PyVal} {data : Items}

end AiosDeck.Ui
