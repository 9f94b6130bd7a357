import AiosDeck.Python.JsonWriting

/-!
# `json.dumps` with sorted keys

Only ASCII is written. The digits of a finite float are left to a parameter.
-/

namespace AiosDeck.Python

namespace JsonText

/-- The escape of a code unit. -/
def unitEscape (n : ℕ) : Text :=
  ['\\', 'u', hexDigit (n / 4096), hexDigit (n / 256 % 16), hexDigit (n / 16 % 16),
    hexDigit (n % 16)]

/-- A character inside of an ASCII string; one outside of the basic plane is
written as two surrogates. -/
def asciiChar (c : Char) : Text :=
  let n := c.toNat
  if n = 34 then ['\\', '"']
  else if n = 92 then ['\\', '\\']
  else if n = 8 then ['\\', 'b']
  else if n = 12 then ['\\', 'f']
  else if n = 10 then ['\\', 'n']
  else if n = 13 then ['\\', 'r']
  else if n = 9 then ['\\', 't']
  else if 32 ≤ n ∧ n ≤ 126 then [c]
  else if n < 0x10000 then unitEscape n
  else unitEscape (0xD800 + (n - 0x10000) / 0x400) ++ unitEscape (0xDC00 + (n - 0x10000) % 0x400)

/-- An ASCII string. -/
def asciiText (text : String) : Text := '"' :: text.toList.flatMap asciiChar ++ ['"']

/-- Texts between brackets, separated by `", "`. -/
def enclosed (first last : Char) (parts : List Text) : Text :=
  first :: (parts.intersperse [',', ' ']).flatten ++ [last]

variable (digits : ℚ → Text)

/-- A number. -/
def dumpsNum : PyNum → Text
  | .int n => (toString n).toList
  | .float (.finite q) => digits q
  | .float .posInf => "Infinity".toList
  | .float .negInf => "-Infinity".toList
  | .float .nan => "NaN".toList

mutual

/-- `json.dumps(value, sort_keys=True)`. -/
def dumpsSorted : Json → Text
  | .null => "null".toList
  | .bool true => "true".toList
  | .bool false => "false".toList
  | .num x => dumpsNum digits x
  | .str s => asciiText s
  | .arr items => enclosed '[' ']' (dumpsItems items)
  | .obj fields =>
    enclosed '\x7b' '\x7d' (((dumpsFields fields).insertionSort fun a b => a.1 ≤ b.1).map
      fun field => asciiText field.1 ++ [':', ' '] ++ field.2)

/-- The items of a list. -/
def dumpsItems : List Json → List Text
  | [] => []
  | item :: rest => dumpsSorted item :: dumpsItems rest

/-- The fields of a dictionary. -/
def dumpsFields : List (String × Json) → List (String × Text)
  | [] => []
  | field :: rest => (field.1, dumpsSorted field.2) :: dumpsFields rest

end

end JsonText

end AiosDeck.Python
