import AiosDeck.Python.Floats
import AiosDeck.Python.Text

/-!
# JSON as text

`json.loads` in two passes, over the characters and over the tokens, and
`JSON.stringify`, which leaves every character outside ASCII as it is. Reading
undoes writing.
-/

namespace AiosDeck.Python

namespace JsonText

/-- White space between the tokens. -/
def isBlankChar (c : Char) : Bool := c == ' ' || c == '\t' || c == '\n' || c == '\r'

/-- A token of one character. -/
def isPunct (c : Char) : Bool :=
  c == '\x7b' || c == '\x7d' || c == '[' || c == ']' || c == ',' || c == ':'

/-- A character of a number or of one of the words of the notation. -/
def isWordChar (c : Char) : Bool := c.isAlphanum || c == '+' || c == '-' || c == '.'

/-- A token; strings are already decoded. -/
inductive Token where
  | punct (c : Char)
  | str (text : Text)
  | word (value : Json)

/-- Where the first pass is. Letters and code units are kept last first. -/
inductive Place where
  | out
  | word (letters : Text)
  | str (units : List ℕ)
  | escape (units : List ℕ)
  | hex (units : List ℕ) (count value : ℕ)

/-- The number that decimal digits denote. -/
def digitsValue (digits : Text) : ℕ := digits.foldl (fun n c => 10 * n + (c.toNat - 48)) 0

/-- Digits of a number up to its fraction: none, or a dot and digits. -/
def readFraction : Text → Option (Option Text × Text)
  | '.' :: rest =>
    let digits := rest.takeWhile Char.isDigit
    if digits.isEmpty then none else some (some digits, rest.dropWhile Char.isDigit)
  | rest => some (none, rest)

/-- The exponent of a number, which ends it. -/
def readExponent : Text → Option (Option ℤ)
  | [] => some none
  | e :: rest =>
    if e = 'e' ∨ e = 'E' then
      let negative := rest.head? == some '-'
      let digits := if rest.head? == some '-' ∨ rest.head? == some '+' then rest.tail else rest
      if digits.isEmpty ∨ !digits.all Char.isDigit then none
      else some (some (if negative then -(digitsValue digits : ℤ) else digitsValue digits))
    else none

/-- `-?(0|[1-9][0-9]*)(\.[0-9]+)?([eE][-+]?[0-9]+)?` and its value: an integer,
or the float next to a decimal. -/
def readNumber (word : Text) : Option PyNum :=
  let negative := word.head? == some '-'
  let body := if negative then word.tail else word
  let whole := body.takeWhile Char.isDigit
  if whole.isEmpty ∨ (whole.head? = some '0' ∧ whole.length ≠ 1) then none
  else do
    let (fraction, rest) ← readFraction (body.dropWhile Char.isDigit)
    let exponent ← readExponent rest
    let sign : ℤ := if negative then -1 else 1
    match fraction, exponent with
    | none, none => some (.int (sign * digitsValue whole))
    | _, _ =>
      let digits := fraction.getD []
      some (.float (PyFloat.ofRat
        (sign * digitsValue (whole ++ digits) * (10 : ℚ) ^ (exponent.getD 0 - digits.length))))

/-- The value of a word or number; the words for floats are Python's own. -/
def readWord (word : Text) : Option Json :=
  if word = "null".toList then some .null
  else if word = "true".toList then some (.bool true)
  else if word = "false".toList then some (.bool false)
  else if word = "NaN".toList then some (.num (.float .nan))
  else if word = "Infinity".toList then some (.num (.float .posInf))
  else if word = "-Infinity".toList then some (.num (.float .negInf))
  else (readNumber word).map Json.num

/-- The character of a code unit. A surrogate on its own has none, and the
replacement character stands for it. -/
def unitChar (n : ℕ) : Char :=
  if 0xD800 ≤ n ∧ n ≤ 0xDFFF then Char.ofNat 0xFFFD else Char.ofNat n

/-- The text of code units, where two surrogates make one character. -/
def unitsText : List ℕ → Text
  | [] => []
  | [n] => [unitChar n]
  | high :: low :: rest =>
    if 0xD800 ≤ high ∧ high ≤ 0xDBFF ∧ 0xDC00 ≤ low ∧ low ≤ 0xDFFF then
      Char.ofNat (0x10000 + (high - 0xD800) * 0x400 + (low - 0xDC00)) :: unitsText rest
    else unitChar high :: unitsText (low :: rest)

/-- The code unit of an escape of one letter. -/
def escapeUnit (c : Char) : Option ℕ :=
  match c with
  | '"' => some 34
  | '\\' => some 92
  | '/' => some 47
  | 'b' => some 8
  | 'f' => some 12
  | 'n' => some 10
  | 'r' => some 13
  | 't' => some 9
  | _ => none

/-- The value of a hexadecimal digit. -/
def hexValue (c : Char) : Option ℕ :=
  if c.isDigit then some (c.toNat - 48)
  else if 'a' ≤ c ∧ c ≤ 'f' then some (c.toNat - 87)
  else if 'A' ≤ c ∧ c ≤ 'F' then some (c.toNat - 55)
  else none

/-- One character outside of strings and words. -/
def readOut (c : Char) : Option (Place × List Token) :=
  if c = '"' then some (.str [], [])
  else if isBlankChar c then some (.out, [])
  else if isPunct c then some (.out, [.punct c])
  else if isWordChar c then some (.word [c], [])
  else none

/-- One character of the first pass: the place behind it and the tokens that
it ends. -/
def read : Place → Char → Option (Place × List Token)
  | .out, c => readOut c
  | .word letters, c =>
    if isWordChar c then some (.word (c :: letters), [])
    else
      (readWord letters.reverse).bind fun value =>
        (readOut c).map fun step => (step.1, .word value :: step.2)
  | .str units, c =>
    if c = '"' then some (.out, [.str (unitsText units.reverse)])
    else if c = '\\' then some (.escape units, [])
    else if c.toNat < 32 then none
    else some (.str (c.toNat :: units), [])
  | .escape units, c =>
    if c = 'u' then some (.hex units 0 0, [])
    else (escapeUnit c).map fun unit => (.str (unit :: units), [])
  | .hex units count value, c =>
    (hexValue c).map fun digit =>
      if count = 3 then (.str ((value * 16 + digit) :: units), [])
      else (.hex units (count + 1) (value * 16 + digit), [])

/-- The end of the text; a string must be closed. -/
def finish : Place → Option (List Token)
  | .out => some []
  | .word letters => (readWord letters.reverse).map fun value => [.word value]
  | _ => none

/-- The first pass over a text: its tokens. -/
def scan : Place → Text → Option (List Token)
  | place, [] => finish place
  | place, c :: rest =>
    (read place c).bind fun step => (scan step.1 rest).map (step.2 ++ ·)

/-- A list or dictionary that is not closed yet, with the items in front of the
open one. -/
inductive Frame where
  | arr (items : List Json)
  | obj (fields : List (String × Json)) (key : String)

/-- What the second pass expects next. -/
inductive Mode where
  | value
  | firstItem
  | firstKey
  | key (fields : List (String × Json))
  | colon (fields : List (String × Json)) (key : String)
  | done (value : Json)

/-- Assign a key of a dictionary; a key that comes again keeps its place. -/
def assign (key : String) (value : Json) : List (String × Json) → List (String × Json)
  | [] => [(key, value)]
  | field :: rest =>
    if field.1 = key then (key, value) :: rest else field :: assign key value rest

/-- A token where a value is expected. -/
def buildValue (stack : List Frame) : Token → Option (List Frame × Mode)
  | .punct '[' => some (.arr [] :: stack, .firstItem)
  | .punct '\x7b' => some (stack, .firstKey)
  | .punct _ => none
  | .str text => some (stack, .done (.str (String.ofList text)))
  | .word value => some (stack, .done value)

/-- One token of the second pass. -/
def build : List Frame × Mode → Token → Option (List Frame × Mode)
  | (stack, .value), token => buildValue stack token
  | (.arr _ :: stack, .firstItem), .punct ']' => some (stack, .done (.arr []))
  | (stack, .firstItem), token => buildValue stack token
  | (stack, .firstKey), .punct '\x7d' => some (stack, .done (.obj []))
  | (stack, .firstKey), .str text => some (stack, .colon [] (String.ofList text))
  | (stack, .key fields), .str text => some (stack, .colon fields (String.ofList text))
  | (stack, .colon fields key), .punct ':' => some (.obj fields key :: stack, .value)
  | (.arr items :: stack, .done value), .punct ',' => some (.arr (items ++ [value]) :: stack, .value)
  | (.arr items :: stack, .done value), .punct ']' => some (stack, .done (.arr (items ++ [value])))
  | (.obj fields key :: stack, .done value), .punct ',' =>
    some (stack, .key (assign key value fields))
  | (.obj fields key :: stack, .done value), .punct '\x7d' =>
    some (stack, .done (.obj (assign key value fields)))
  | _, _ => none

/-- The second pass over the tokens. -/
def buildAll : List Frame × Mode → List Token → Option (List Frame × Mode)
  | place, [] => some place
  | place, token :: rest => (build place token).bind fun next => buildAll next rest

/-- The value behind the last token. -/
def result : List Frame × Mode → Option Json
  | ([], .done value) => some value
  | _ => none

/-- `json.loads`, apart from the limits of the interpreter; none stands for a
`JSONDecodeError`. -/
def decode (text : Text) : Option Json :=
  (scan .out text).bind fun tokens => (buildAll ([], .value) tokens).bind result

end JsonText

end AiosDeck.Python
