import AiosDeck.Python.Values

/-!
# Text operations

The string methods of the modelled code, on lists of characters: splitting
into lines, stripping, partitioning, and reading decimal integers.
-/

namespace AiosDeck.Python

/-- Text as a list of its code points. -/
abbrev Text := List Char

instance : LawfulBEq Text := List.instLawfulBEq

/-- Line boundaries of `str.splitlines`. -/
def isLineBreak (c : Char) : Bool :=
  let n := c.toNat
  (10 ≤ n && n ≤ 13) || (28 ≤ n && n ≤ 30) || n == 0x85 || n == 0x2028 || n == 0x2029

/-- `text.splitlines()`: a final line break opens no further line. -/
def splitlines : Text → List Text
  | [] => []
  | '\r' :: '\n' :: rest => [] :: splitlines rest
  | c :: rest =>
    if isLineBreak c then [] :: splitlines rest
    else
      match splitlines rest with
      | [] => [[c]]
      | line :: lines => (c :: line) :: lines

/-- `text.strip()`. -/
def strip (text : Text) : Text :=
  ((text.dropWhile isSpace).reverse.dropWhile isSpace).reverse

/-- `text.rstrip()`. -/
def rstrip (text : Text) : Text := (text.reverse.dropWhile isSpace).reverse

/-- `text[start:stop]`. -/
def slice (text : Text) (start stop : ℕ) : Text := (text.take stop).drop start

/-- The words of a text behind the letters of an unfinished one, last letter
first. -/
def wordsFrom : Text → Text → List Text
  | word, [] => if word.isEmpty then [] else [word.reverse]
  | word, c :: rest =>
    if isSpace c then
      if word.isEmpty then wordsFrom [] rest else word.reverse :: wordsFrom [] rest
    else wordsFrom (c :: word) rest

/-- `text.split()`. -/
def words (text : Text) : List Text := wordsFrom [] text

/-- `text.rfind(part, start, stop)`. -/
def rfind (text part : Text) (start stop : ℕ) : Option ℕ :=
  ((List.range' start (stop + 1 - part.length - start)).filter fun i =>
    part.isPrefixOf (text.drop i)).getLast?

/-- Strip one character, as `text.strip("-")`. -/
def stripChar (c : Char) (text : Text) : Text :=
  ((text.dropWhile (· == c)).reverse.dropWhile (· == c)).reverse

/-- The part of `text.partition(sep)` behind the first separator. -/
def afterFirst (sep : Char) (text : Text) : Text :=
  (text.dropWhile (· != sep)).drop 1

/-- Code points of the decimal digit zero, in every script. -/
def decimalZeros : List ℕ :=
  [0x30, 0x660, 0x6F0, 0x7C0, 0x966, 0x9E6, 0xA66, 0xAE6, 0xB66, 0xBE6, 0xC66, 0xCE6, 0xD66, 0xDE6,
    0xE50, 0xED0, 0xF20, 0x1040, 0x1090, 0x17E0, 0x1810, 0x1946, 0x19D0, 0x1A80, 0x1A90, 0x1B50,
    0x1BB0, 0x1C40, 0x1C50, 0xA620, 0xA8D0, 0xA900, 0xA9D0, 0xA9F0, 0xAA50, 0xABF0, 0xFF10,
    0x104A0, 0x10D30, 0x11066, 0x110F0, 0x11136, 0x111D0, 0x112F0, 0x11450, 0x114D0, 0x11650,
    0x116C0, 0x11730, 0x118E0, 0x11950, 0x11C50, 0x11D50, 0x11DA0, 0x11F50, 0x16A60, 0x16AC0,
    0x16B50, 0x1D7CE, 0x1D7D8, 0x1D7E2, 0x1D7EC, 0x1D7F6, 0x1E140, 0x1E2F0, 0x1E4F0, 0x1E950,
    0x1FBF0]

/-- Value of a decimal digit of any script, as `\d` and `int` read it. -/
def digitValue (c : Char) : Option ℕ :=
  (decimalZeros.find? fun first => first ≤ c.toNat && c.toNat < first + 10).map (c.toNat - ·)

/-- `\d`. -/
def isDecimal (c : Char) : Bool := (digitValue c).isSome

/-- `int(digits)` for a run of digits; the interpreter refuses to convert
more than 4300 of them. -/
def parseDigits (digits : Text) : Except PyExc ℕ :=
  if 4300 < digits.length then
    .error ⟨.valueError, "Exceeds the limit (4300 digits) for integer string conversion"⟩
  else .ok (digits.foldl (fun value c => 10 * value + (digitValue c).getD 0) 0)

end AiosDeck.Python
