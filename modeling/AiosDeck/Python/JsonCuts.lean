import AiosDeck.Python.JsonWriting
import AiosDeck.Python.Lines

/-!
# Written JSON that is cut into lines

Outside of its strings, written JSON has no line break; inside, the line breaks
beyond ASCII are not escaped. A piece that ends inside of a string is no JSON. In
a piece that begins inside of one, what was inside of strings is outside and the
other way round, and no string has a letter that is never written outside.
-/

namespace AiosDeck.Python

namespace JsonText

/-- A character that is written outside of strings. -/
def isPlain (c : Char) : Bool :=
  isPunct c || isNumeralChar c || "nulltruefalse".toList.contains c

/-- A character behind a backslash. -/
def isEscapeLetter (c : Char) : Bool := "\"\\bfnrtu".toList.contains c

/-- On which side of the quotes a text is. -/
inductive Side where
  | out
  | str
  | esc
  deriving DecidableEq

/-- One character of written JSON. -/
def Side.next : Side → Char → Option Side
  | .out, c => if c = '"' then some .str else if isPlain c then some .out else none
  | .str, c => if c = '"' then some .out else if c = '\\' then some .esc else some .str
  | .esc, c => if isEscapeLetter c then some .str else none

/-- The side behind a text. -/
def walk : Side → Text → Option Side
  | side, [] => some side
  | side, c :: rest => (side.next c).bind fun next => walk next rest

theorem walk_append (side : Side) (text rest : Text) :
    walk side (text ++ rest) = (walk side text).bind fun next => walk next rest := by
  induction text generalizing side with
  | nil => rfl
  | cons c text ih =>
    rw [List.cons_append, walk, walk]
    cases side.next c with
    | none => rfl
    | some next => exact ih next

/-- Parts of a text that is walked are walked. -/
theorem walk_of_append {side last : Side} {text rest : Text}
    (h : walk side (text ++ rest) = some last) :
    ∃ next, walk side text = some next ∧ walk next rest = some last := by
  rw [walk_append] at h
  exact Option.bind_eq_some_iff.mp h

theorem hexDigit_ne (n : ℕ) : hexDigit n ≠ '"' ∧ hexDigit n ≠ '\\' := by
  unfold hexDigit
  rw [List.getD_eq_getElem?_getD]
  cases hdigit : "0123456789abcdef".toList[n]? with
  | none => exact ⟨by decide, by decide⟩
  | some c =>
    have hc := List.mem_of_getElem? hdigit
    have hall : "0123456789abcdef".toList.all (fun d => d != '"' && d != '\\') = true := rfl
    have hne := List.all_eq_true.mp hall c hc
    rw [Bool.and_eq_true, bne_iff_ne, bne_iff_ne] at hne
    exact hne

theorem walk_str_cons {c : Char} (hquote : c ≠ '"') (hbackslash : c ≠ '\\') (rest : Text) :
    walk .str (c :: rest) = walk .str rest := by
  rw [walk, Side.next, if_neg hquote, if_neg hbackslash]
  rfl

theorem walk_escapeChar (c : Char) : walk .str (escapeChar c) = some .str := by
  unfold escapeChar
  split_ifs with hquote hbackslash h8 h12 h10 h13 h9 hcontrol
  · rfl
  · rfl
  · rfl
  · rfl
  · rfl
  · rfl
  · rfl
  · change walk .str ['0', '0', hexDigit (c.toNat / 16), hexDigit (c.toNat % 16)] = _
    have hzero : '0' ≠ '"' ∧ '0' ≠ '\\' := by decide
    have hhigh := hexDigit_ne (c.toNat / 16)
    have hlow := hexDigit_ne (c.toNat % 16)
    rw [walk_str_cons hzero.1 hzero.2, walk_str_cons hzero.1 hzero.2,
      walk_str_cons hhigh.1 hhigh.2, walk_str_cons hlow.1 hlow.2]
    rfl
  · exact walk_str_cons hquote hbackslash []

theorem walk_escaped (text : Text) : walk .str (text.flatMap escapeChar) = some .str := by
  induction text with
  | nil => rfl
  | cons c text ih =>
    rw [List.flatMap_cons, walk_append, walk_escapeChar]
    exact ih

theorem walk_out_cons {c : Char} (h : isPlain c = true) (rest : Text) :
    walk .out (c :: rest) = walk .out rest := by
  have hquote : c ≠ '"' := by
    rintro rfl
    exact absurd h (by decide)
  rw [walk, Side.next, if_neg hquote, if_pos h]
  rfl

theorem walk_plain {text : Text} (h : ∀ c ∈ text, isPlain c = true) :
    walk .out text = some .out := by
  induction text with
  | nil => rfl
  | cons c text ih =>
    rw [List.forall_mem_cons] at h
    rw [walk_out_cons h.1]
    exact ih h.2

section Written

variable {numerals : Numerals}

theorem plain_word {value : Json} (h : (Token.word value).Proper numerals) :
    ∀ c ∈ wordText numerals value, isPlain c = true := by
  cases value with
  | null => exact List.all_eq_true.mp (rfl : "null".toList.all isPlain = true)
  | bool b =>
    cases b with
    | false => exact List.all_eq_true.mp (rfl : "false".toList.all isPlain = true)
    | true => exact List.all_eq_true.mp (rfl : "true".toList.all isPlain = true)
  | num x =>
    intro c hc
    unfold isPlain
    rw [numerals.chars x h c hc, Bool.or_true, Bool.true_or]
  | _ => exact h.elim

theorem walk_token {token : Token} (h : token.Proper numerals) :
    walk .out (token.text numerals) = some .out := by
  cases token with
  | punct c =>
    refine walk_plain fun d hd => ?_
    rw [List.mem_singleton.mp hd]
    unfold isPlain
    have hpunct : isPunct c = true := h
    rw [hpunct, Bool.true_or, Bool.true_or]
  | str text =>
    change walk .out ('"' :: text.flatMap escapeChar ++ ['"']) = _
    rw [List.cons_append, walk]
    change walk .str (text.flatMap escapeChar ++ ['"']) = _
    rw [walk_append, walk_escaped]
    rfl
  | word value => exact walk_plain (plain_word h)

theorem walk_flatMap {ts : List Token} (h : ∀ token ∈ ts, token.Proper numerals) :
    walk .out (ts.flatMap (Token.text numerals)) = some .out := by
  induction ts with
  | nil => rfl
  | cons token rest ih =>
    rw [List.forall_mem_cons] at h
    rw [List.flatMap_cons, walk_append, walk_token h.1]
    exact ih h.2

/-- Written JSON ends outside of its strings. -/
theorem walk_stringify {value : Json} (h : Writable numerals value) :
    walk .out (stringify numerals value) = some .out :=
  walk_flatMap (tokensOf_proper value h)

end Written

/-- A place inside of a string. -/
def Place.inString : Place → Bool
  | .str _ | .escape _ | .hex _ _ _ => true
  | _ => false

/-- Reading JSON keeps to the sides of the quotes, where it does not fail. -/
def Sides : Side → Place → Prop
  | .out, place => place.inString = false
  | .str, .str _ | .str, .hex _ _ _ => True
  | .esc, .escape _ => True
  | _, _ => False

theorem readOut_sides {c : Char} {step : Place × List Token} (h : readOut c = some step) :
    c ≠ '\\' ∧ (∀ text, Token.str text ∉ step.2) ∧
      ((c = '"' ∧ step.1 = .str []) ∨ (c ≠ '"' ∧ step.1.inString = false)) := by
  have hbackslash : c ≠ '\\' := by
    rintro rfl
    cases h
  refine ⟨hbackslash, ?_⟩
  unfold readOut at h
  split_ifs at h with hquote
  · cases h
    exact ⟨fun _ hmem => absurd hmem List.not_mem_nil, Or.inl ⟨hquote, rfl⟩⟩
  · cases h
    exact ⟨fun _ hmem => absurd hmem List.not_mem_nil, Or.inr ⟨hquote, rfl⟩⟩
  · cases h
    exact ⟨fun _ hmem => absurd (List.mem_singleton.mp hmem) (by simp), Or.inr ⟨hquote, rfl⟩⟩
  · cases h
    exact ⟨fun _ hmem => absurd hmem List.not_mem_nil, Or.inr ⟨hquote, rfl⟩⟩

/-- One character outside of strings, as the reader sees it. -/
theorem read_sides {place : Place} {c : Char} {step : Place × List Token}
    (hplace : place.inString = false) (h : read place c = some step) :
    c ≠ '\\' ∧ (∀ text, Token.str text ∉ step.2) ∧
      ((c = '"' ∧ step.1 = .str []) ∨ (c ≠ '"' ∧ step.1.inString = false)) := by
  cases place with
  | out => exact readOut_sides h
  | word letters =>
    rw [read] at h
    split_ifs at h with hword
    · cases h
      refine ⟨?_, fun _ hmem => absurd hmem List.not_mem_nil, Or.inr ⟨?_, rfl⟩⟩
      · rintro rfl
        cases hword
      · rintro rfl
        cases hword
    · obtain ⟨value, -, hmap⟩ := Option.bind_eq_some_iff.mp h
      obtain ⟨first, hfirst, rfl⟩ := Option.map_eq_some_iff.mp hmap
      obtain ⟨hbackslash, htokens, hside⟩ := readOut_sides hfirst
      refine ⟨hbackslash, fun text hmem => ?_, hside⟩
      rcases List.mem_cons.mp hmem with hmem | hmem
      · cases hmem
      · exact htokens text hmem
  | _ => cases hplace

theorem hexValue_ne {c : Char} {n : ℕ} (h : hexValue c = some n) : c ≠ '"' ∧ c ≠ '\\' := by
  constructor
  · rintro rfl
    cases h
  · rintro rfl
    cases h

theorem Sides.step {side next : Side} {place : Place} {c : Char} {step : Place × List Token}
    (h : Sides side place) (hside : side.next c = some next) (hread : read place c = some step) :
    Sides next step.1 := by
  cases side with
  | out =>
    have hplace : place.inString = false := by
      cases place <;> first | exact h | rfl
    obtain ⟨-, -, hout⟩ := read_sides hplace hread
    rw [Side.next] at hside
    rcases hout with ⟨hquote, hstep⟩ | ⟨hquote, hstep⟩
    · rw [if_pos hquote] at hside
      cases hside
      rw [hstep]
      trivial
    · rw [if_neg hquote] at hside
      split_ifs at hside
      cases hside
      exact hstep
  | str =>
    rw [Side.next] at hside
    cases place with
    | str units =>
      rw [read] at hread
      split_ifs at hside hread <;> cases hside <;> cases hread <;> trivial
    | hex units count value =>
      rw [read] at hread
      obtain ⟨digit, hdigit, rfl⟩ := Option.map_eq_some_iff.mp hread
      obtain ⟨hquote, hbackslash⟩ := hexValue_ne hdigit
      rw [if_neg hquote, if_neg hbackslash] at hside
      cases hside
      split_ifs <;> trivial
    | _ => exact h.elim
  | esc =>
    rw [Side.next] at hside
    split_ifs at hside
    cases hside
    cases place with
    | escape units =>
      rw [read] at hread
      split_ifs at hread
      · cases hread
        trivial
      · obtain ⟨unit, -, rfl⟩ := Option.map_eq_some_iff.mp hread
        trivial
    | _ => exact h.elim

/-- A text that ends inside of a string is not read. -/
theorem scan_open {text : Text} :
    ∀ {side : Side} {place : Place}, Sides side place → walk side text = some .str →
      scan place text = none := by
  induction text with
  | nil =>
    intro side place h hwalk
    cases hwalk
    cases place with
    | str units => rfl
    | hex units count value => rfl
    | _ => exact h.elim
  | cons c text ih =>
    intro side place h hwalk
    rw [walk] at hwalk
    obtain ⟨next, hnext, hrest⟩ := Option.bind_eq_some_iff.mp hwalk
    rw [scan]
    cases hread : read place c with
    | none => rfl
    | some step =>
      rw [Option.bind_some, ih (h.step hnext hread) hrest]
      rfl

/-- What the reader makes of a text whose sides are swapped: outside of strings
where the text is inside, and inside of a string with no letter that is not plain. -/
def Flipped : Side → Place → Prop
  | .str, place => place.inString = false
  | .out, .str units => ∃ letters : Text, units = letters.map Char.toNat ∧ 'y' ∉ letters
  | _, _ => False

theorem Flipped.step {side next : Side} {place : Place} {c : Char} {step : Place × List Token}
    (h : Flipped side place) (hside : side.next c = some next) (hread : read place c = some step) :
    Flipped next step.1 ∧ ∀ text, Token.str text ∈ step.2 → 'y' ∉ text := by
  cases side with
  | str =>
    obtain ⟨hbackslash, htokens, hstep⟩ := read_sides h hread
    refine ⟨?_, fun text hmem => absurd hmem (htokens text)⟩
    rw [Side.next, if_neg hbackslash] at hside
    rcases hstep with ⟨hquote, hstep⟩ | ⟨hquote, hstep⟩
    · rw [if_pos hquote] at hside
      cases hside
      rw [hstep]
      exact ⟨[], rfl, List.not_mem_nil⟩
    · rw [if_neg hquote] at hside
      cases hside
      exact hstep
  | out =>
    cases place with
    | str units =>
      obtain ⟨letters, rfl, hletters⟩ := h
      rw [Side.next] at hside
      rw [read] at hread
      by_cases hquote : c = '"'
      · rw [if_pos hquote] at hside hread
        cases hside
        cases hread
        refine ⟨rfl, fun text hmem => ?_⟩
        rw [List.mem_singleton, Token.str.injEq] at hmem
        rw [hmem, ← List.map_reverse, unitsText_toNat, List.mem_reverse]
        exact hletters
      · rw [if_neg hquote] at hside hread
        split_ifs at hside with hplain
        cases hside
        have hy : 'y' ≠ c := by
          rintro rfl
          exact absurd hplain (by decide)
        split_ifs at hread with hbackslash
        · rw [hbackslash] at hplain
          exact absurd hplain (by decide)
        · cases hread
          refine ⟨⟨c :: letters, rfl, ?_⟩, fun text hmem => absurd hmem List.not_mem_nil⟩
          exact List.not_mem_cons_of_ne_of_not_mem hy hletters
    | _ => exact h.elim
  | esc => exact h.elim

/-- Strings of a text whose sides are swapped have no letter that is not plain. -/
theorem scan_flipped {text : Text} {last : Side} :
    ∀ {side : Side} {place : Place} {tokens : List Token}, Flipped side place →
      walk side text = some last → scan place text = some tokens →
      ∀ content, Token.str content ∈ tokens → 'y' ∉ content := by
  induction text with
  | nil =>
    intro side place tokens h hwalk hscan content hmem
    cases place with
    | out =>
      cases hscan
      cases hmem
    | word letters =>
      obtain ⟨value, -, rfl⟩ := Option.map_eq_some_iff.mp hscan
      cases List.mem_singleton.mp hmem
    | _ => cases hscan
  | cons c text ih =>
    intro side place tokens h hwalk hscan content hmem
    rw [walk] at hwalk
    rw [scan] at hscan
    obtain ⟨next, hnext, hrest⟩ := Option.bind_eq_some_iff.mp hwalk
    obtain ⟨step, hstep, hmap⟩ := Option.bind_eq_some_iff.mp hscan
    obtain ⟨more, hmore, rfl⟩ := Option.map_eq_some_iff.mp hmap
    obtain ⟨hflipped, htokens⟩ := h.step hnext hstep
    rcases List.mem_append.mp hmem with hmem | hmem
    · exact htokens content hmem
    · exact ih hflipped hrest hmore content hmem

section Keys

variable (P : String → Prop)

/-- The outermost of the open containers is a dictionary, with keys in `P`. -/
def RootOf (stack : List Frame) : Prop :=
  ∃ fields key, stack.getLast? = some (.obj fields key) ∧ (∀ field ∈ fields, P field.1) ∧ P key

/-- The value that is built is a dictionary, with keys in `P`. -/
def Rooted : List Frame × Mode → Prop
  | ([], .firstKey) => True
  | ([], .key fields) => ∀ field ∈ fields, P field.1
  | ([], .colon fields key) => (∀ field ∈ fields, P field.1) ∧ P key
  | ([], .done (.obj fields)) => ∀ field ∈ fields, P field.1
  | ([], _) => False
  | (frame :: stack, _) => RootOf P (frame :: stack)

variable {P}

theorem RootOf.push {stack : List Frame} (h : RootOf P stack) (frame : Frame) :
    RootOf P (frame :: stack) := by
  obtain ⟨fields, key, hlast, hkeys⟩ := h
  refine ⟨fields, key, ?_, hkeys⟩
  rw [List.getLast?_cons, hlast]
  rfl

theorem RootOf.rooted {stack : List Frame} (h : RootOf P stack) (mode : Mode) :
    Rooted P (stack, mode) := by
  cases stack with
  | nil =>
    obtain ⟨fields, key, hlast, -⟩ := h
    cases hlast
  | cons frame stack => exact h

theorem RootOf.swap {frame other : Frame} {stack : List Frame} (hstack : stack ≠ [])
    (h : RootOf P (frame :: stack)) : RootOf P (other :: stack) := by
  obtain ⟨fields, key, hlast, hkeys⟩ := h
  refine ⟨fields, key, ?_, hkeys⟩
  rw [List.getLast?_cons_of_ne_nil hstack] at hlast ⊢
  exact hlast

theorem RootOf.pop {frame : Frame} {stack : List Frame} (hstack : stack ≠ [])
    (h : RootOf P (frame :: stack)) : RootOf P stack := by
  obtain ⟨fields, key, hlast, hkeys⟩ := h
  rw [List.getLast?_cons_of_ne_nil hstack] at hlast
  exact ⟨fields, key, hlast, hkeys⟩

/-- A list is never the outermost container. -/
theorem RootOf.arr_ne {items : List Json} {stack : List Frame}
    (h : RootOf P (.arr items :: stack)) : stack ≠ [] := by
  rintro rfl
  obtain ⟨fields, key, hlast, -⟩ := h
  cases hlast

theorem mem_assign {key : String} {value : Json} {fields : List (String × Json)}
    (hfields : ∀ field ∈ fields, P field.1) (hkey : P key) :
    ∀ field ∈ assign key value fields, P field.1 := by
  induction fields with
  | nil =>
    rintro field hfield
    rw [assign, List.mem_singleton] at hfield
    rw [hfield]
    exact hkey
  | cons first rest ih =>
    rw [List.forall_mem_cons] at hfields
    rw [assign]
    split_ifs
    · exact List.forall_mem_cons.mpr ⟨hkey, hfields.2⟩
    · exact List.forall_mem_cons.mpr ⟨hfields.1, ih hfields.2⟩

/-- A value in an open container. -/
theorem buildValue_rooted {stack : List Frame} {token : Token} {next : List Frame × Mode}
    (h : RootOf P stack) (hbuild : buildValue stack token = some next) : Rooted P next := by
  unfold buildValue at hbuild
  split at hbuild
  · cases hbuild
    exact (h.push _).rooted _
  · cases hbuild
    exact h.rooted _
  · cases hbuild
  · cases hbuild
    exact h.rooted _
  · cases hbuild
    exact h.rooted _

theorem Rooted.root {stack : List Frame} {mode : Mode} (h : Rooted P (stack, mode))
    (hmode : mode = .value ∨ mode = .firstItem) : RootOf P stack := by
  cases stack with
  | nil => rcases hmode with rfl | rfl <;> exact h.elim
  | cons frame stack => exact h

/-- A dictionary is done. -/
theorem rooted_done {stack : List Frame} {fields : List (String × Json)}
    (h : stack ≠ [] → RootOf P stack) (hfields : stack = [] → ∀ field ∈ fields, P field.1) :
    Rooted P (stack, .done (.obj fields)) := by
  cases stack with
  | nil => exact hfields rfl
  | cons frame stack => exact h (List.cons_ne_nil frame stack)

/-- One token of the second pass. -/
theorem Rooted.step {place next : List Frame × Mode} {token : Token} (h : Rooted P place)
    (htoken : ∀ text, token = .str text → P (String.ofList text))
    (hbuild : build place token = some next) : Rooted P next := by
  unfold build at hbuild
  split at hbuild
  · exact buildValue_rooted (h.root (Or.inl rfl)) hbuild
  · rename_i items stack
    cases hbuild
    have hroot : RootOf P (.arr items :: stack) := h
    exact (hroot.pop hroot.arr_ne).rooted _
  · exact buildValue_rooted (h.root (Or.inr rfl)) hbuild
  · rename_i stack
    cases hbuild
    refine rooted_done (fun hstack => ?_) fun _ field hfield => absurd hfield List.not_mem_nil
    obtain ⟨frame, rest, rfl⟩ := List.exists_cons_of_ne_nil hstack
    exact h
  · rename_i stack text
    cases hbuild
    cases stack with
    | nil => exact ⟨fun field hfield => absurd hfield List.not_mem_nil, htoken text rfl⟩
    | cons frame rest => exact h
  · rename_i stack fields text
    cases hbuild
    cases stack with
    | nil => exact ⟨h, htoken text rfl⟩
    | cons frame rest => exact h
  · rename_i stack fields key
    cases hbuild
    cases stack with
    | nil => exact ⟨fields, key, rfl, h⟩
    | cons frame rest =>
      have hroot : RootOf P (frame :: rest) := h
      exact hroot.push _
  · rename_i items stack value
    cases hbuild
    have hroot : RootOf P (.arr items :: stack) := h
    exact hroot.swap hroot.arr_ne
  · rename_i items stack value
    cases hbuild
    have hroot : RootOf P (.arr items :: stack) := h
    exact (hroot.pop hroot.arr_ne).rooted _
  · rename_i fields key stack value
    cases hbuild
    have hroot : RootOf P (.obj fields key :: stack) := h
    cases stack with
    | nil =>
      obtain ⟨found, name, hlast, hfields, hname⟩ := hroot
      cases hlast
      exact mem_assign hfields hname
    | cons frame rest => exact hroot.pop (List.cons_ne_nil frame rest)
  · rename_i fields key stack value
    cases hbuild
    have hroot : RootOf P (.obj fields key :: stack) := h
    refine rooted_done (fun hstack => hroot.pop hstack) ?_
    rintro rfl
    obtain ⟨found, name, hlast, hfields, hname⟩ := hroot
    cases hlast
    exact mem_assign hfields hname
  · cases hbuild

theorem Rooted.all {tokens : List Token} (htokens : ∀ text, Token.str text ∈ tokens →
    P (String.ofList text)) :
    ∀ {place last : List Frame × Mode}, Rooted P place → buildAll place tokens = some last →
      Rooted P last := by
  induction tokens with
  | nil =>
    intro place last h hbuild
    cases hbuild
    exact h
  | cons token tokens ih =>
    intro place last h hbuild
    rw [buildAll] at hbuild
    obtain ⟨next, hnext, hrest⟩ := Option.bind_eq_some_iff.mp hbuild
    have hstep := h.step
      (fun text htext => htokens text (htext ▸ List.mem_cons_self)) hnext
    exact ih (fun text htext => htokens text (List.mem_cons_of_mem _ htext)) hstep hrest

/-- A text that begins like a dictionary is read as one, and its keys are among
the strings of the text. -/
theorem decode_object {rest : Text} {value : Json}
    (h : decode ('\x7b' :: rest) = some value)
    (hstrings : ∀ tokens, scan .out ('\x7b' :: rest) = some tokens →
      ∀ text, Token.str text ∈ tokens → P (String.ofList text)) :
    ∃ fields, value = .obj fields ∧ ∀ field ∈ fields, P field.1 := by
  unfold decode at h
  obtain ⟨tokens, htokens, hbuild⟩ := Option.bind_eq_some_iff.mp h
  obtain ⟨last, hlast, hresult⟩ := Option.bind_eq_some_iff.mp hbuild
  have hall := hstrings tokens htokens
  rw [scan_punct (by decide)] at htokens
  obtain ⟨more, -, rfl⟩ := Option.map_eq_some_iff.mp htokens
  have hrooted : Rooted P last := by
    rw [buildAll] at hlast
    exact Rooted.all (fun text htext => hall text (List.mem_cons_of_mem _ htext))
      (show Rooted P ([], .firstKey) from trivial) hlast
  unfold result at hresult
  split at hresult
  · cases hresult
    cases value with
    | obj fields => exact ⟨fields, rfl, hrooted⟩
    | _ => exact hrooted.elim
  · cases hresult

end Keys

/-- Nothing blank is written outside of strings. -/
theorem not_isSpace_of_plain {c : Char} (h : isPlain c = true) : isSpace c = false := by
  unfold isPlain isPunct isNumeralChar at h
  simp only [Bool.or_eq_true, beq_iff_eq] at h
  rcases h with ((((((rfl | rfl) | rfl) | rfl) | rfl) | rfl) | h) | h
  iterate 6 rfl
  · rcases h with ((((hdigit | rfl) | rfl) | rfl) | rfl) | rfl
    · unfold Char.isDigit at hdigit
      simp only [Bool.and_eq_true, decide_eq_true_eq] at hdigit
      have hlow : 48 ≤ c.toNat := hdigit.1
      have hhigh : c.toNat ≤ 57 := hdigit.2
      unfold isSpace
      simp only [Bool.or_eq_false_iff, Bool.and_eq_false_iff, decide_eq_false_iff_not,
        beq_eq_false_iff_ne]
      omega
    all_goals rfl
  · have hall : "nulltruefalse".toList.all (fun d => !isSpace d) = true := rfl
    have hc := List.all_eq_true.mp hall c (List.contains_iff_mem.mp h)
    simpa using hc

theorem not_isSpace_of_escapeLetter {c : Char} (h : isEscapeLetter c = true) :
    isSpace c = false := by
  have hall : "\"\\bfnrtu".toList.all (fun d => !isSpace d) = true := rfl
  have hc := List.all_eq_true.mp hall c (List.contains_iff_mem.mp h)
  simpa using hc

/-- Something blank is written inside of strings only. -/
theorem next_blank {side next : Side} {c : Char} (hblank : isSpace c = true)
    (h : side.next c = some next) : side = .str ∧ next = .str := by
  have hquote : c ≠ '"' := by
    rintro rfl
    cases hblank
  have hbackslash : c ≠ '\\' := by
    rintro rfl
    cases hblank
  cases side with
  | out =>
    rw [Side.next, if_neg hquote] at h
    split_ifs at h with hplain
    rw [not_isSpace_of_plain hplain] at hblank
    cases hblank
  | str =>
    rw [Side.next, if_neg hquote, if_neg hbackslash] at h
    cases h
    exact ⟨rfl, rfl⟩
  | esc =>
    rw [Side.next] at h
    split_ifs at h with hletter
    rw [not_isSpace_of_escapeLetter hletter] at hblank
    cases hblank

theorem walk_blanks {text : Text} (hblank : ∀ c ∈ text, isSpace c = true) :
    ∀ {side last : Side}, walk side text = some last → last = side ∧ (text ≠ [] → side = .str) := by
  induction text with
  | nil =>
    intro side last h
    cases h
    exact ⟨rfl, fun hne => absurd rfl hne⟩
  | cons c text ih =>
    intro side last h
    rw [List.forall_mem_cons] at hblank
    rw [walk] at h
    obtain ⟨next, hnext, hrest⟩ := Option.bind_eq_some_iff.mp h
    obtain ⟨rfl, rfl⟩ := next_blank hblank.1 hnext
    exact ⟨(ih hblank.2 hrest).1, fun _ => rfl⟩

/-- The blanks around a text do not change its sides. -/
theorem walk_strip {text : Text} {side last : Side} (h : walk side text = some last) :
    walk side (strip text) = some last := by
  obtain ⟨before, behind, htext, hbefore, hbehind⟩ := strip_spec text
  rw [htext] at h
  obtain ⟨next, hfront, hlast⟩ := walk_of_append h
  obtain ⟨middle, hblanks, hstrip⟩ := walk_of_append hfront
  have hmiddle := (walk_blanks hbefore hblanks).1
  have hnext := (walk_blanks hbehind hlast).1
  rw [hmiddle, ← hnext] at hstrip
  exact hstrip

/-- Where written JSON is cut, every piece but the last ends inside of a string,
and every piece but the first begins there. -/
theorem walk_pieces {text : Text} {last : Side} :
    ∀ {side : Side}, walk side text = some last →
      ∃ first others next, pieces text = first :: others ∧ walk side first = some next ∧
        (IsLine text ∨ next = .str) ∧ ∀ piece ∈ others, ∃ next, walk .str piece = some next := by
  induction text with
  | nil =>
    intro side h
    exact ⟨[], [], side, rfl, rfl, Or.inl IsLine.nil, fun _ h => absurd h List.not_mem_nil⟩
  | cons c text ih =>
    intro side h
    rw [walk] at h
    obtain ⟨middle, hmiddle, hrest⟩ := Option.bind_eq_some_iff.mp h
    obtain ⟨first, others, next, hpieces, hfirst, hopen, hothers⟩ := ih hrest
    cases hc : isLineBreak c with
    | true =>
      obtain ⟨rfl, rfl⟩ := next_blank (isSpace_of_lineBreak hc) hmiddle
      refine ⟨[], pieces text, .str, pieces_break hc text, rfl, Or.inr rfl, ?_⟩
      rw [hpieces]
      exact List.forall_mem_cons.mpr ⟨⟨next, hfirst⟩, hothers⟩
    | false =>
      refine ⟨c :: first, others, next, pieces_cons hc hpieces, ?_, ?_, hothers⟩
      · rw [walk, hmiddle]
        exact hfirst
      · refine hopen.imp_left fun hline => ?_
        exact List.forall_mem_cons.mpr ⟨hc, hline⟩

/-- A first piece, which ends inside of a string, is not read. -/
theorem decode_open {piece : Text} (h : walk .out piece = some .str) :
    decode (strip piece) = none := by
  unfold decode
  rw [scan_open (show Sides .out .out from rfl) (walk_strip h)]
  rfl

/-- A later piece, which begins inside of a string, is read as a dictionary
without the letter y in its keys, if it begins like one and is read at all. -/
theorem decode_flipped {piece : Text} {next : Side} (h : walk .str piece = some next)
    (hhead : (strip piece).head? = some '\x7b') {value : Json}
    (hdecode : decode (strip piece) = some value) :
    ∃ fields, value = .obj fields ∧ ∀ field ∈ fields, 'y' ∉ field.1.toList := by
  have hstrip := walk_strip h
  obtain ⟨rest, hrest⟩ := List.head?_eq_some_iff.mp hhead
  rw [hrest] at hstrip hdecode
  refine @decode_object (fun key => 'y' ∉ key.toList) _ _ hdecode fun tokens htokens text hmem => ?_
  rw [String.toList_ofList]
  exact scan_flipped (show Flipped .str .out from rfl) hstrip htokens text hmem

/-- Written JSON has no blanks around it. -/
theorem strip_written {text : Text} (h : walk .out text = some .out) : strip text = text := by
  obtain ⟨before, behind, htext, hbefore, hbehind⟩ := strip_spec text
  rw [htext] at h
  obtain ⟨next, hfront, hlast⟩ := walk_of_append h
  obtain ⟨middle, hblanks, -⟩ := walk_of_append hfront
  have hnil : before = [] := by
    by_contra hne
    cases (walk_blanks hbefore hblanks).2 hne
  have hend : behind = [] := by
    by_contra hne
    have hboth := walk_blanks hbehind hlast
    rw [hboth.2 hne] at hboth
    cases hboth.1
  rw [hnil, hend, List.nil_append, List.append_nil] at htext
  exact htext.symm

theorem hexDigit_not_return (n : ℕ) : hexDigit n ≠ '\r' := by
  unfold hexDigit
  rw [List.getD_eq_getElem?_getD]
  cases hdigit : "0123456789abcdef".toList[n]? with
  | none => decide
  | some c =>
    have hall : "0123456789abcdef".toList.all (fun d => d != '\r') = true := rfl
    exact bne_iff_ne.mp (List.all_eq_true.mp hall c (List.mem_of_getElem? hdigit))

theorem escapeChar_not_return (c : Char) : '\r' ∉ escapeChar c := by
  unfold escapeChar
  split_ifs with hquote hbackslash h8 h12 h10 h13 h9 hcontrol
  iterate 7 decide
  · simp only [List.mem_cons, List.not_mem_nil, or_false, not_or]
    exact ⟨by decide, by decide, by decide, by decide, (hexDigit_not_return _).symm,
      (hexDigit_not_return _).symm⟩
  · intro hmem
    rw [List.mem_singleton] at hmem
    rw [← hmem] at h13
    exact h13 rfl

theorem plain_not_return {text : Text} (h : ∀ c ∈ text, isPlain c = true) : '\r' ∉ text := by
  intro hmem
  have hblank := not_isSpace_of_plain (h _ hmem)
  exact absurd hblank (by decide)

section Returns

variable {numerals : Numerals}

/-- Carriage returns are escaped. -/
theorem stringify_not_return {value : Json} (h : Writable numerals value) :
    '\r' ∉ stringify numerals value := by
  unfold stringify
  rw [List.mem_flatMap]
  rintro ⟨token, htoken, hmem⟩
  have hproper := tokensOf_proper value h token htoken
  cases token with
  | punct c =>
    rw [Token.text, List.mem_singleton] at hmem
    rw [← hmem] at hproper
    have hpunct : isPunct '\r' = true := hproper
    exact absurd hpunct (by decide)
  | str text =>
    rw [Token.text, List.mem_append, List.mem_cons, List.mem_singleton, List.mem_flatMap] at hmem
    rcases hmem with (hmem | ⟨c, -, hmem⟩) | hmem
    · exact absurd hmem (by decide)
    · exact escapeChar_not_return c hmem
    · exact absurd hmem (by decide)
  | word word => exact plain_not_return (plain_word hproper) hmem

theorem head_stringify_obj (fields : List (String × Json)) :
    (stringify numerals (.obj fields)).head? = some '\x7b' := by
  cases fields with
  | nil => rfl
  | cons field rest => rfl

end Returns

end JsonText

end AiosDeck.Python
