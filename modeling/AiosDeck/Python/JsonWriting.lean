import AiosDeck.Python.JsonText

/-!
# Writing JSON

`JSON.stringify` without spaces. It escapes quotes, backslashes and control
characters, and leaves every other character as it is. What it writes is read
back as it was.
-/

namespace AiosDeck.Python

namespace JsonText

/-- The last digit of a hexadecimal number. -/
def hexDigit (n : ℕ) : Char := "0123456789abcdef".toList.getD n '0'

/-- A character inside of a string. -/
def escapeChar (c : Char) : Text :=
  if c = '"' then ['\\', '"']
  else if c = '\\' then ['\\', '\\']
  else if c.toNat = 8 then ['\\', 'b']
  else if c.toNat = 12 then ['\\', 'f']
  else if c.toNat = 10 then ['\\', 'n']
  else if c.toNat = 13 then ['\\', 'r']
  else if c.toNat = 9 then ['\\', 't']
  else if c.toNat < 32 then ['\\', 'u', '0', '0', hexDigit (c.toNat / 16), hexDigit (c.toNat % 16)]
  else [c]

/-- A character of a number. -/
def isNumeralChar (c : Char) : Bool :=
  c.isDigit || c == '+' || c == '-' || c == '.' || c == 'e' || c == 'E'

/-- How numbers are written: those that are printable are read back. -/
structure Numerals where
  text : PyNum → Text
  printable : PyNum → Prop
  read : ∀ x, printable x → readWord (text x) = some (.num x)
  chars : ∀ x, printable x → ∀ c ∈ text x, isNumeralChar c = true

/-- The text of a word or number. -/
def wordText (numerals : Numerals) : Json → Text
  | .null => "null".toList
  | .bool true => "true".toList
  | .bool false => "false".toList
  | .num x => numerals.text x
  | _ => []

/-- The text of a token. -/
def Token.text (numerals : Numerals) : Token → Text
  | .punct c => [c]
  | .str text => '"' :: text.flatMap escapeChar ++ ['"']
  | .word value => wordText numerals value

mutual

/-- The tokens of a value. -/
def tokensOf : Json → List Token
  | .null => [.word .null]
  | .bool b => [.word (.bool b)]
  | .num x => [.word (.num x)]
  | .str s => [.str s.toList]
  | .arr [] => [.punct '[', .punct ']']
  | .arr (item :: rest) => .punct '[' :: (tokensOf item ++ itemTokens rest)
  | .obj [] => [.punct '\x7b', .punct '\x7d']
  | .obj (field :: rest) =>
    .punct '\x7b' :: .str field.1.toList :: .punct ':' :: (tokensOf field.2 ++ fieldTokens rest)

/-- The items behind the first, and the end of the list. -/
def itemTokens : List Json → List Token
  | [] => [.punct ']']
  | item :: rest => .punct ',' :: (tokensOf item ++ itemTokens rest)

/-- The fields behind the first, and the end of the dictionary. -/
def fieldTokens : List (String × Json) → List Token
  | [] => [.punct '\x7d']
  | field :: rest =>
    .punct ',' :: .str field.1.toList :: .punct ':' :: (tokensOf field.2 ++ fieldTokens rest)

end

/-- `JSON.stringify(value)`. -/
def stringify (numerals : Numerals) (value : Json) : Text :=
  (tokensOf value).flatMap (Token.text numerals)

mutual

/-- The value can be written: its numbers are printable, and no key comes twice
in one dictionary. -/
def Writable (numerals : Numerals) : Json → Prop
  | .num x => numerals.printable x
  | .arr items => WritableItems numerals items
  | .obj fields => (fields.map Prod.fst).Nodup ∧ WritableFields numerals fields
  | _ => True

def WritableItems (numerals : Numerals) : List Json → Prop
  | [] => True
  | item :: rest => Writable numerals item ∧ WritableItems numerals rest

def WritableFields (numerals : Numerals) : List (String × Json) → Prop
  | [] => True
  | field :: rest => Writable numerals field.2 ∧ WritableFields numerals rest

end

/-- A new key comes last. -/
theorem assign_new {key : String} {fields : List (String × Json)}
    (h : key ∉ fields.map Prod.fst) (value : Json) :
    assign key value fields = fields ++ [(key, value)] := by
  induction fields with
  | nil => rfl
  | cons field rest ih =>
    have hne : field.1 ≠ key := fun heq => h (by rw [← heq]; exact List.mem_cons_self)
    have hrest : key ∉ rest.map Prod.fst := fun hmem => h (List.mem_cons_of_mem _ hmem)
    rw [assign, if_neg hne, ih hrest]
    rfl

theorem not_mem_of_nodup {α : Type} {front rest : List α} {a : α}
    (h : (front ++ a :: rest).Nodup) : a ∉ front := fun hmem =>
  (List.nodup_append.mp h).2.2 a hmem a List.mem_cons_self rfl

/-- The first item of a list is read like any value. -/
theorem buildAll_firstItem (value : Json) (stack : List Frame) (rest : List Token) :
    buildAll (.arr [] :: stack, .firstItem) (tokensOf value ++ rest) =
      buildAll (.arr [] :: stack, .value) (tokensOf value ++ rest) := by
  cases value with
  | arr items =>
    cases items with
    | nil => rfl
    | cons item others => rfl
  | obj fields =>
    cases fields with
    | nil => rfl
    | cons field others => rfl
  | _ => rfl

section RoundTrip

variable {numerals : Numerals}

mutual

/-- The tokens of a value are read as that value, whatever is still open. -/
theorem buildAll_tokensOf : ∀ (value : Json), Writable numerals value →
    ∀ (stack : List Frame) (rest : List Token),
      buildAll (stack, .value) (tokensOf value ++ rest) = buildAll (stack, .done value) rest
  | .null, _, _, _ => rfl
  | .bool _, _, _, _ => rfl
  | .num _, _, _, _ => rfl
  | .str s, _, stack, rest => by
    change buildAll (stack, .done (.str (String.ofList s.toList))) rest = _
    rw [String.ofList_toList]
  | .arr [], _, _, _ => rfl
  | .arr (item :: others), h, stack, rest => by
    rw [Writable, WritableItems] at h
    have hitem := buildAll_tokensOf item h.1 (.arr [] :: stack) (itemTokens others ++ rest)
    have hothers := buildAll_itemTokens others h.2 [] item stack rest
    change buildAll (.arr [] :: stack, .firstItem)
      (tokensOf item ++ itemTokens others ++ rest) = _
    rw [List.append_assoc, buildAll_firstItem, hitem, hothers]
    rfl
  | .obj [], _, _, _ => rfl
  | .obj (field :: others), h, stack, rest => by
    rw [Writable, WritableFields] at h
    obtain ⟨hkeys, hfield, hothers⟩ := h
    have hvalue := buildAll_tokensOf field.2 hfield (.obj [] field.1 :: stack)
      (fieldTokens others ++ rest)
    have hrest := buildAll_fieldTokens others hothers [] field.1 field.2 hkeys stack rest
    change buildAll (.obj [] (String.ofList field.1.toList) :: stack, .value)
      (tokensOf field.2 ++ fieldTokens others ++ rest) = _
    rw [String.ofList_toList, List.append_assoc, hvalue, hrest]
    rfl

/-- The items behind an item that was just read. -/
theorem buildAll_itemTokens : ∀ (items : List Json), WritableItems numerals items →
    ∀ (front : List Json) (value : Json) (stack : List Frame) (rest : List Token),
      buildAll (.arr front :: stack, .done value) (itemTokens items ++ rest) =
        buildAll (stack, .done (.arr (front ++ value :: items))) rest
  | [], _, _, _, _, _ => rfl
  | item :: others, h, front, value, stack, rest => by
    rw [WritableItems] at h
    have hitem := buildAll_tokensOf item h.1 (.arr (front ++ [value]) :: stack)
      (itemTokens others ++ rest)
    have hothers := buildAll_itemTokens others h.2 (front ++ [value]) item stack rest
    change buildAll (.arr (front ++ [value]) :: stack, .value)
      (tokensOf item ++ itemTokens others ++ rest) = _
    rw [List.append_assoc, hitem, hothers, List.append_assoc]
    rfl

/-- The fields behind a field whose value was just read. -/
theorem buildAll_fieldTokens : ∀ (fields : List (String × Json)), WritableFields numerals fields →
    ∀ (front : List (String × Json)) (key : String) (value : Json),
      (front.map Prod.fst ++ key :: fields.map Prod.fst).Nodup →
      ∀ (stack : List Frame) (rest : List Token),
        buildAll (.obj front key :: stack, .done value) (fieldTokens fields ++ rest) =
          buildAll (stack, .done (.obj (front ++ (key, value) :: fields))) rest
  | [], _, front, key, value, hkeys, stack, rest => by
    change buildAll (stack, .done (.obj (assign key value front))) rest = _
    rw [assign_new (not_mem_of_nodup hkeys)]
  | field :: others, h, front, key, value, hkeys, stack, rest => by
    rw [WritableFields] at h
    have hnext : ((front ++ [(key, value)]).map Prod.fst ++
        field.1 :: others.map Prod.fst).Nodup := by
      rw [List.map_append, List.append_assoc]
      exact hkeys
    have hvalue := buildAll_tokensOf field.2 h.1 (.obj (front ++ [(key, value)]) field.1 :: stack)
      (fieldTokens others ++ rest)
    have hothers := buildAll_fieldTokens others h.2 (front ++ [(key, value)]) field.1 field.2 hnext
      stack rest
    change buildAll (.obj (assign key value front) (String.ofList field.1.toList) :: stack, .value)
      (tokensOf field.2 ++ fieldTokens others ++ rest) = _
    rw [assign_new (not_mem_of_nodup hkeys), String.ofList_toList, List.append_assoc, hvalue,
      hothers, List.append_assoc]
    rfl

end

end RoundTrip

/-- A code point is no surrogate. -/
theorem toNat_not_surrogate (c : Char) : ¬(0xD800 ≤ c.toNat ∧ c.toNat ≤ 0xDFFF) := by
  have hvalid := c.valid
  unfold UInt32.isValidChar Nat.isValidChar at hvalid
  have hval : c.toNat = c.val.toNat := rfl
  omega

theorem unitChar_toNat (c : Char) : unitChar c.toNat = c := by
  unfold unitChar
  rw [if_neg (toNat_not_surrogate c), Char.ofNat_toNat]

/-- The code units of plain characters are those characters. -/
theorem unitsText_toNat (text : Text) : unitsText (text.map Char.toNat) = text := by
  induction text with
  | nil => rfl
  | cons c rest ih =>
    cases rest with
    | nil =>
      change [unitChar c.toNat] = [c]
      rw [unitChar_toNat]
    | cons d others =>
      have hplain : ¬(0xD800 ≤ c.toNat ∧ c.toNat ≤ 0xDBFF ∧ 0xDC00 ≤ d.toNat ∧
          d.toNat ≤ 0xDFFF) := by
        have hc := toNat_not_surrogate c
        omega
      change unitsText (c.toNat :: d.toNat :: others.map Char.toNat) = _
      rw [unitsText, if_neg hplain, unitChar_toNat]
      exact congrArg (c :: ·) ih

section Scanning

variable {numerals : Numerals}

theorem scan_cons (place : Place) (c : Char) (rest : Text) :
    scan place (c :: rest) =
      (read place c).bind fun step => (scan step.1 rest).map (step.2 ++ ·) := rfl

/-- A character that ends no token only moves the place. -/
theorem scan_move {place : Place} {c : Char} (next : Place) (h : read place c = some (next, []))
    (rest : Text) : scan place (c :: rest) = scan next rest := by
  rw [scan_cons, h]
  change (scan next rest).map ([] ++ ·) = scan next rest
  simp

/-- Characters of which none ends a token. -/
theorem scan_hexDigits {high low : ℕ} (hhigh : high < 16) (hlow : low < 16) (units : List ℕ)
    (rest : Text) :
    scan (.hex units 0 0) ('0' :: '0' :: hexDigit high :: hexDigit low :: rest) =
      scan (.str ((high * 16 + low) :: units)) rest := by
  have hvalue : ∀ n, n < 16 → hexValue (hexDigit n) = some n := by decide
  have hthird : read (.hex units 2 0) (hexDigit high) = some (.hex units 3 high, []) := by
    rw [read, hvalue high hhigh]
    simp
  have hlast : read (.hex units 3 high) (hexDigit low) =
      some (.str ((high * 16 + low) :: units), []) := by
    rw [read, hvalue low hlow]
    rfl
  rw [scan_move (.hex units 1 0) rfl, scan_move (.hex units 2 0) rfl, scan_move _ hthird,
    scan_move _ hlast]

/-- An escaped character is read back. -/
theorem scan_escapeChar (c : Char) (units : List ℕ) (rest : Text) :
    scan (.str units) (escapeChar c ++ rest) = scan (.str (c.toNat :: units)) rest := by
  have hletter : ∀ (letter : Char) (unit : ℕ), letter ≠ 'u' → escapeUnit letter = some unit →
      c.toNat = unit → scan (.str units) ('\\' :: letter :: rest) =
        scan (.str (c.toNat :: units)) rest := by
    intro letter unit hu hescape hunit
    have hread : read (.escape units) letter = some (.str (unit :: units), []) := by
      rw [read, if_neg hu, hescape]
      rfl
    rw [scan_move (.escape units) rfl, scan_move _ hread, hunit]
  unfold escapeChar
  by_cases hquote : c = '"'
  · rw [if_pos hquote]
    exact hletter '"' 34 (by decide) rfl (by rw [hquote]; rfl)
  rw [if_neg hquote]
  by_cases hbackslash : c = '\\'
  · rw [if_pos hbackslash]
    exact hletter '\\' 92 (by decide) rfl (by rw [hbackslash]; rfl)
  rw [if_neg hbackslash]
  by_cases hb : c.toNat = 8
  · rw [if_pos hb]
    exact hletter 'b' 8 (by decide) rfl hb
  rw [if_neg hb]
  by_cases hf : c.toNat = 12
  · rw [if_pos hf]
    exact hletter 'f' 12 (by decide) rfl hf
  rw [if_neg hf]
  by_cases hn : c.toNat = 10
  · rw [if_pos hn]
    exact hletter 'n' 10 (by decide) rfl hn
  rw [if_neg hn]
  by_cases hr : c.toNat = 13
  · rw [if_pos hr]
    exact hletter 'r' 13 (by decide) rfl hr
  rw [if_neg hr]
  by_cases ht : c.toNat = 9
  · rw [if_pos ht]
    exact hletter 't' 9 (by decide) rfl ht
  rw [if_neg ht]
  by_cases hcontrol : c.toNat < 32
  · rw [if_pos hcontrol]
    have hdigits := @scan_hexDigits (c.toNat / 16) (c.toNat % 16) (by omega)
      (Nat.mod_lt _ (by decide)) units rest
    have hsplit : c.toNat / 16 * 16 + c.toNat % 16 = c.toNat := Nat.div_add_mod' _ _
    rw [hsplit] at hdigits
    change scan (.str units) ('\\' :: 'u' :: '0' :: '0' :: _) = _
    rw [scan_move (.escape units) rfl, scan_move (.hex units 0 0) rfl]
    exact hdigits
  · rw [if_neg hcontrol]
    refine scan_move _ ?_ rest
    rw [read, if_neg hquote, if_neg hbackslash, if_neg hcontrol]

/-- The characters of a string are read back. -/
theorem scan_escaped (text : Text) (units : List ℕ) (rest : Text) :
    scan (.str units) (text.flatMap escapeChar ++ rest) =
      scan (.str ((text.map Char.toNat).reverse ++ units)) rest := by
  induction text generalizing units with
  | nil => rfl
  | cons c others ih =>
    rw [List.flatMap_cons, List.append_assoc, scan_escapeChar, ih, List.map_cons,
      List.reverse_cons, List.append_assoc]
    rfl

/-- A written string is one token. -/
theorem scan_str (text rest : Text) :
    scan .out (Token.text numerals (.str text) ++ rest) =
      (scan .out rest).map (Token.str text :: ·) := by
  have hopen : read .out '"' = some (.str [], []) := rfl
  have hclose : read (.str (text.map Char.toNat).reverse) '"' = some (.out, [.str text]) := by
    have hunits : unitsText (text.map Char.toNat).reverse.reverse = text := by
      rw [List.reverse_reverse, unitsText_toNat]
    change some (Place.out, [Token.str (unitsText (text.map Char.toNat).reverse.reverse)]) = _
    rw [hunits]
  change scan .out ('"' :: (text.flatMap escapeChar ++ ['"']) ++ rest) = _
  rw [List.cons_append, scan_move _ hopen, List.append_assoc, scan_escaped, List.append_nil]
  change scan _ ('"' :: rest) = _
  rw [scan_cons, hclose]
  rfl

/-- A token of one character. -/
theorem scan_punct {c : Char} (h : isPunct c = true) (rest : Text) :
    scan .out (c :: rest) = (scan .out rest).map (Token.punct c :: ·) := by
  have hread : read .out c = some (.out, [.punct c]) := by
    unfold isPunct at h
    simp only [Bool.or_eq_true, beq_iff_eq] at h
    obtain ((((rfl | rfl) | rfl) | rfl) | rfl) | rfl := h
    all_goals rfl
  rw [scan_cons, hread]
  rfl

/-- The text does not go on with a character of a word. -/
def Ends (rest : Text) : Prop := ∀ c others, rest = c :: others → isWordChar c = false

/-- A character of a word is read as such. -/
theorem readOut_wordChar {c : Char} (h : isWordChar c = true) : readOut c = some (.word [c], []) := by
  have hother : ∀ d : Char, isWordChar d = false → c ≠ d := by
    rintro d hd rfl
    rw [hd] at h
    cases h
  have hblank : isBlankChar c = false := by
    unfold isBlankChar
    simp [hother ' ' (by decide), hother '\t' (by decide), hother '\n' (by decide),
      hother '\r' (by decide)]
  have hpunct : isPunct c = false := by
    unfold isPunct
    simp [hother '\x7b' (by decide), hother '\x7d' (by decide), hother '[' (by decide),
      hother ']' (by decide), hother ',' (by decide), hother ':' (by decide)]
  unfold readOut
  rw [if_neg (hother '"' (by decide)), hblank, hpunct, h]
  rfl

/-- The letters of a word. -/
theorem scan_letters {word : Text} (h : ∀ c ∈ word, isWordChar c = true) (letters rest : Text) :
    scan (.word letters) (word ++ rest) = scan (.word (word.reverse ++ letters)) rest := by
  induction word generalizing letters with
  | nil => rfl
  | cons c others ih =>
    have hread : read (.word letters) c = some (.word (c :: letters), []) := by
      rw [read, if_pos (h c List.mem_cons_self)]
    rw [List.cons_append, scan_move _ hread, ih fun d hd => h d (List.mem_cons_of_mem _ hd),
      List.reverse_cons, List.append_assoc]
    rfl

/-- A word that ends is one token. -/
theorem scan_word {word : Text} {value : Json} (hchars : ∀ c ∈ word, isWordChar c = true)
    (hread : readWord word = some value) {rest : Text} (hends : Ends rest) :
    scan .out (word ++ rest) = (scan .out rest).map (Token.word value :: ·) := by
  cases word with
  | nil => cases hread
  | cons c others =>
    have hfirst : read .out c = some (.word [c], []) := readOut_wordChar (hchars c List.mem_cons_self)
    have hletters : (others.reverse ++ [c]).reverse = c :: others := by simp
    rw [List.cons_append, scan_move _ hfirst,
      scan_letters fun d hd => hchars d (List.mem_cons_of_mem _ hd)]
    cases rest with
    | nil =>
      change (readWord (others.reverse ++ [c]).reverse).map _ = _
      rw [hletters, hread]
      rfl
    | cons d more =>
      have hstep : read (.word (others.reverse ++ [c])) d =
          (readOut d).map fun step => (step.1, .word value :: step.2) := by
        rw [read, if_neg (by rw [hends d more rfl]; exact Bool.false_ne_true), hletters, hread]
        rfl
      rw [scan_cons, scan_cons, hstep]
      change ((readOut d).map _).bind _ = ((readOut d).bind _).map _
      cases readOut d with
      | none => rfl
      | some step =>
        change (scan step.1 more).map _ = ((scan step.1 more).map _).map _
        rw [Option.map_map]
        rfl

end Scanning

/-- The token is written as it is read. -/
def Token.Proper (numerals : Numerals) : Token → Prop
  | .punct c => isPunct c = true
  | .str _ => True
  | .word .null | .word (.bool _) => True
  | .word (.num x) => numerals.printable x
  | .word _ => False

/-- The token is no word, and nothing of a word can be read at its start. -/
def Token.Parts : Token → Prop
  | .word _ => False
  | _ => True

/-- No word directly follows another. -/
def Separated : List Token → Prop
  | [] => True
  | .word _ :: rest => (∀ token ∈ rest.head?, token.Parts) ∧ Separated rest
  | _ :: rest => Separated rest

section Tokens

variable {numerals : Numerals}

theorem isWordChar_of_numeral {c : Char} (h : isNumeralChar c = true) : isWordChar c = true := by
  unfold isNumeralChar at h
  simp only [Bool.or_eq_true, beq_iff_eq] at h
  obtain ((((hdigit | rfl) | rfl) | rfl) | rfl) | rfl := h
  · unfold isWordChar Char.isAlphanum
    rw [hdigit]
    simp
  all_goals rfl

theorem wordText_read {value : Json} (h : (Token.word value).Proper numerals) :
    readWord (wordText numerals value) = some value ∧
      ∀ c ∈ wordText numerals value, isWordChar c = true := by
  cases value with
  | null => exact ⟨rfl, List.all_eq_true.mp (rfl : "null".toList.all isWordChar = true)⟩
  | bool b =>
    cases b with
    | false => exact ⟨rfl, List.all_eq_true.mp (rfl : "false".toList.all isWordChar = true)⟩
    | true => exact ⟨rfl, List.all_eq_true.mp (rfl : "true".toList.all isWordChar = true)⟩
  | num x => exact ⟨numerals.read x h, fun c hc => isWordChar_of_numeral (numerals.chars x h c hc)⟩
  | _ => exact h.elim

/-- The text of tokens that begin with no word ends a word. -/
theorem ends_flatMap {ts : List Token} (hproper : ∀ token ∈ ts, token.Proper numerals)
    (hparts : ∀ token ∈ ts.head?, token.Parts) : Ends (ts.flatMap (Token.text numerals)) := by
  intro c others heq
  cases ts with
  | nil => cases heq
  | cons token rest =>
    have hfirst := hproper token List.mem_cons_self
    cases token with
    | punct d =>
      cases heq
      unfold Token.Proper isPunct at hfirst
      simp only [Bool.or_eq_true, beq_iff_eq] at hfirst
      obtain ((((rfl | rfl) | rfl) | rfl) | rfl) | rfl := hfirst
      all_goals rfl
    | str text =>
      cases heq
      rfl
    | word value => exact (hparts _ rfl).elim

/-- Written tokens are read back. -/
theorem scan_flatMap {ts : List Token} (hproper : ∀ token ∈ ts, token.Proper numerals)
    (hseparated : Separated ts) : scan .out (ts.flatMap (Token.text numerals)) = some ts := by
  induction ts with
  | nil => rfl
  | cons token rest ih =>
    have hfirst := hproper token List.mem_cons_self
    have hrest : ∀ other ∈ rest, other.Proper numerals := fun other hother =>
      hproper other (List.mem_cons_of_mem _ hother)
    rw [List.flatMap_cons]
    cases token with
    | punct c =>
      change scan .out (c :: rest.flatMap (Token.text numerals)) = _
      rw [scan_punct hfirst, ih hrest hseparated]
      rfl
    | str text =>
      rw [scan_str, ih hrest hseparated]
      rfl
    | word value =>
      obtain ⟨hread, hchars⟩ := wordText_read hfirst
      change scan .out (wordText numerals value ++ _) = _
      rw [scan_word hchars hread (ends_flatMap hrest hseparated.1), ih hrest hseparated.2]
      rfl

mutual

/-- The tokens of a value are proper. -/
theorem tokensOf_proper : ∀ (value : Json), Writable numerals value →
    ∀ token ∈ tokensOf value, token.Proper numerals
  | .null, _, token, h => by
    rw [List.mem_singleton.mp h]
    exact True.intro
  | .bool b, _, token, h => by
    rw [List.mem_singleton.mp h]
    exact True.intro
  | .num x, hx, token, h => by
    rw [List.mem_singleton.mp h]
    exact hx
  | .str s, _, token, h => by
    rw [List.mem_singleton.mp h]
    exact True.intro
  | .arr [], _, token, h => by
    obtain rfl | h := List.mem_cons.mp h
    · rfl
    · rw [List.mem_singleton.mp h]
      rfl
  | .arr (item :: others), hwritable, token, h => by
    rw [Writable, WritableItems] at hwritable
    obtain rfl | h := List.mem_cons.mp h
    · rfl
    obtain h | h := List.mem_append.mp h
    · exact tokensOf_proper item hwritable.1 token h
    · exact itemTokens_proper others hwritable.2 token h
  | .obj [], _, token, h => by
    obtain rfl | h := List.mem_cons.mp h
    · rfl
    · rw [List.mem_singleton.mp h]
      rfl
  | .obj (field :: others), hwritable, token, h => by
    rw [Writable, WritableFields] at hwritable
    obtain rfl | h := List.mem_cons.mp h
    · rfl
    obtain rfl | h := List.mem_cons.mp h
    · exact True.intro
    obtain rfl | h := List.mem_cons.mp h
    · rfl
    obtain h | h := List.mem_append.mp h
    · exact tokensOf_proper field.2 hwritable.2.1 token h
    · exact fieldTokens_proper others hwritable.2.2 token h

theorem itemTokens_proper : ∀ (items : List Json), WritableItems numerals items →
    ∀ token ∈ itemTokens items, token.Proper numerals
  | [], _, token, h => by
    rw [List.mem_singleton.mp h]
    rfl
  | item :: others, hwritable, token, h => by
    rw [WritableItems] at hwritable
    obtain rfl | h := List.mem_cons.mp h
    · rfl
    obtain h | h := List.mem_append.mp h
    · exact tokensOf_proper item hwritable.1 token h
    · exact itemTokens_proper others hwritable.2 token h

theorem fieldTokens_proper : ∀ (fields : List (String × Json)), WritableFields numerals fields →
    ∀ token ∈ fieldTokens fields, token.Proper numerals
  | [], _, token, h => by
    rw [List.mem_singleton.mp h]
    rfl
  | field :: others, hwritable, token, h => by
    rw [WritableFields] at hwritable
    obtain rfl | h := List.mem_cons.mp h
    · rfl
    obtain rfl | h := List.mem_cons.mp h
    · exact True.intro
    obtain rfl | h := List.mem_cons.mp h
    · rfl
    obtain h | h := List.mem_append.mp h
    · exact tokensOf_proper field.2 hwritable.1 token h
    · exact fieldTokens_proper others hwritable.2 token h

end

mutual

/-- No words follow each other in the tokens of a value, before a token that
is no word. -/
theorem tokensOf_separated : ∀ (value : Json) (rest : List Token),
    (∀ token ∈ rest.head?, token.Parts) → Separated rest → Separated (tokensOf value ++ rest)
  | .null, _, hparts, hrest => ⟨hparts, hrest⟩
  | .bool _, _, hparts, hrest => ⟨hparts, hrest⟩
  | .num _, _, hparts, hrest => ⟨hparts, hrest⟩
  | .str _, _, _, hrest => hrest
  | .arr [], _, _, hrest => hrest
  | .arr (item :: others), rest, _, hrest => by
    change Separated (tokensOf item ++ itemTokens others ++ rest)
    rw [List.append_assoc]
    obtain ⟨hparts, hseparated⟩ := itemTokens_separated others rest hrest
    exact tokensOf_separated item _ hparts hseparated
  | .obj [], _, _, hrest => hrest
  | .obj (field :: others), rest, _, hrest => by
    change Separated (tokensOf field.2 ++ fieldTokens others ++ rest)
    rw [List.append_assoc]
    obtain ⟨hparts, hseparated⟩ := fieldTokens_separated others rest hrest
    exact tokensOf_separated field.2 _ hparts hseparated

theorem itemTokens_separated : ∀ (items : List Json) (rest : List Token), Separated rest →
    (∀ token ∈ (itemTokens items ++ rest).head?, token.Parts) ∧
      Separated (itemTokens items ++ rest)
  | [], _, hrest => by
    refine ⟨fun token h => ?_, hrest⟩
    cases h
    exact True.intro
  | item :: others, rest, hrest => by
    obtain ⟨hparts, hseparated⟩ := itemTokens_separated others rest hrest
    refine ⟨fun token h => ?_, ?_⟩
    · cases h
      exact True.intro
    · change Separated (tokensOf item ++ itemTokens others ++ rest)
      rw [List.append_assoc]
      exact tokensOf_separated item _ hparts hseparated

theorem fieldTokens_separated : ∀ (fields : List (String × Json)) (rest : List Token),
    Separated rest → (∀ token ∈ (fieldTokens fields ++ rest).head?, token.Parts) ∧
      Separated (fieldTokens fields ++ rest)
  | [], _, hrest => by
    refine ⟨fun token h => ?_, hrest⟩
    cases h
    exact True.intro
  | field :: others, rest, hrest => by
    obtain ⟨hparts, hseparated⟩ := fieldTokens_separated others rest hrest
    refine ⟨fun token h => ?_, ?_⟩
    · cases h
      exact True.intro
    · change Separated (tokensOf field.2 ++ fieldTokens others ++ rest)
      rw [List.append_assoc]
      exact tokensOf_separated field.2 _ hparts hseparated

end

/-- What is written is read back as it was. -/
theorem decode_stringify {value : Json} (h : Writable numerals value) :
    decode (stringify numerals value) = some value := by
  have hseparated : Separated (tokensOf value) := by
    have hend := tokensOf_separated value [] (fun token htoken => by cases htoken) True.intro
    rw [List.append_nil] at hend
    exact hend
  have hbuilt : buildAll ([], .value) (tokensOf value) = some ([], .done value) := by
    have hall := buildAll_tokensOf value h [] []
    rw [List.append_nil] at hall
    exact hall
  unfold decode stringify
  rw [scan_flatMap (tokensOf_proper value h) hseparated]
  change (buildAll ([], .value) (tokensOf value)).bind result = some value
  rw [hbuilt]
  rfl

end Tokens

end JsonText

end AiosDeck.Python
