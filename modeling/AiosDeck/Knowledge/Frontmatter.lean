import AiosDeck.Knowledge.Storable
import AiosDeck.Python.LineEnds

/-!
# Writing and reading frontmatter

Metadata written line by line is read back exactly when no value contains the three
dashes that end the block, and no item a colon. A line is read for its own key only.
-/

namespace AiosDeck.Knowledge

open Python

section Writing

/-- The lines of a field. -/
def fieldLines : Text × FieldValue → List Text
  | (key, .scalar value) => [key ++ ':' :: ' ' :: value]
  | (key, .block items) => (key ++ [':']) :: items.map fun item => ' ' :: ' ' :: '-' :: ' ' :: item

/-- The fields between their dashes, with a text behind. -/
def written (fields : List (Text × FieldValue)) (body : Text) : Text :=
  "---\n".toList ++ unlines (fields.flatMap fieldLines) ++ "---".toList ++ body

namespace SkillMetadata

/-- `str(n)`. -/
def intText : ℤ → Text
  | .ofNat n => Nat.toDigits 10 n
  | .negSucc n => '-' :: Nat.toDigits 10 (n + 1)

/-- The keys of texts, with their defaults and values. -/
def texts (metadata : SkillMetadata) : List (String × String × Text) :=
  [("name", "", metadata.name), ("description", "", metadata.description),
    ("version", "1", metadata.version), ("owner", "", metadata.owner),
    ("updated_at", "", metadata.updatedAt), ("status", "active", metadata.status),
    ("schema_version", "1", metadata.schemaVersion)]

/-- The keys of lists, with their items. -/
def blocks (metadata : SkillMetadata) : List (String × List Text) :=
  [("triggers", metadata.triggers), ("scope", metadata.scope),
    ("dependencies", metadata.dependencies)]

/-- All fields. -/
def fields (metadata : SkillMetadata) : List (Text × FieldValue) :=
  metadata.texts.map (fun entry => (entry.1.toList, .scalar entry.2.2)) ++
    metadata.blocks.map (fun entry => (entry.1.toList, .block entry.2)) ++
      [("priority".toList, .scalar (intText metadata.priority))]

end SkillMetadata

/-- A trimmed line that does not begin like a comment, a quotation or an item. -/
structure PlainValue (value : Text) : Prop where
  filled : value ≠ []
  stripped : strip value = value
  line : IsLine value
  start : ∀ c ∈ ['"', '\'', '#', '|'], value.head? ≠ some c
  dash : "- ".toList.isPrefixOf value = false

/-- A key of lower-case letters and underscores. -/
structure IsKey (key : Text) : Prop where
  filled : key ≠ []
  letters : ∀ c ∈ key, ('a' ≤ c ∧ c ≤ 'z') ∨ c = '_'

end Writing

section Keys

theorem keyLetter_plain {c : Char} (h : ('a' ≤ c ∧ c ≤ 'z') ∨ c = '_') :
    isSpace c = false ∧ isLineBreak c = false ∧ c ≠ ':' ∧ c ≠ '-' ∧ c ≠ '#' := by
  have hcode : (97 ≤ c.toNat ∧ c.toNat ≤ 122) ∨ c.toNat = 95 := by
    rcases h with h | rfl
    · exact .inl h
    · exact .inr rfl
  refine ⟨?_, ?_, ?_, ?_, ?_⟩
  · unfold isSpace
    simp only [Bool.or_eq_false_iff, Bool.and_eq_false_iff, decide_eq_false_iff_not,
      beq_eq_false_iff_ne]
    omega
  · unfold isLineBreak
    simp only [Bool.or_eq_false_iff, Bool.and_eq_false_iff, decide_eq_false_iff_not,
      beq_eq_false_iff_ne]
    omega
  all_goals
    rintro rfl
    revert hcode
    decide

variable {key : Text}

theorem IsKey.cons (h : IsKey key) : ∃ c rest, key = c :: rest ∧ isSpace c = false ∧ c ≠ '-' ∧
    c ≠ '#' := by
  cases key with
  | nil => exact absurd rfl h.filled
  | cons c rest =>
    obtain ⟨hspace, -, -, hdash, hhash⟩ := keyLetter_plain (h.letters c List.mem_cons_self)
    exact ⟨c, rest, rfl, hspace, hdash, hhash⟩

theorem IsKey.colon (h : IsKey key) : ':' ∉ key :=
  fun hmem => (keyLetter_plain (h.letters _ hmem)).2.2.1 rfl

theorem IsKey.dash (h : IsKey key) : '-' ∉ key :=
  fun hmem => (keyLetter_plain (h.letters _ hmem)).2.2.2.1 rfl

theorem IsKey.line (h : IsKey key) : IsLine key :=
  fun c hc => (keyLetter_plain (h.letters c hc)).2.1

theorem IsKey.stripped (h : IsKey key) : strip key = key := by
  obtain ⟨c, rest, rfl, hspace, -⟩ := h.cons
  have hlast := List.getLast?_eq_some_getLast (List.cons_ne_nil c rest)
  exact strip_eq_self rfl hlast hspace
    (keyLetter_plain (h.letters _ (List.getLast_mem _))).1

theorem IsKey.head (h : IsKey key) : key.head? ≠ some '-' := by
  obtain ⟨c, rest, rfl, -, hdash, -⟩ := h.cons
  exact fun heq => hdash (Option.some.inj heq)

end Keys

section Values

theorem length_strip_rstrip_le (text : Text) : (rstrip text).length ≤ text.length :=
  (List.rdropWhile_prefix isSpace text).length_le

theorem length_quotedWith_lt {quote : Char} {value inner : Text}
    (h : quotedWith quote value = some inner) : inner.length ≤ value.length := by
  unfold quotedWith at h
  split_ifs at h
  cases h
  rw [List.length_dropLast, List.length_drop]
  omega

theorem length_rawValue_le (raw : Text) : (rawValue raw).length ≤ raw.length := by
  have hraw := length_strip_le raw
  unfold rawValue stripQuotes
  split
  · rename_i inner hinner
    have hle : inner.length ≤ (strip raw).length := by
      cases hdouble : quotedWith '"' (strip raw) with
      | some found =>
        rw [hdouble] at hinner
        cases hinner
        exact length_quotedWith_lt hdouble
      | none =>
        rw [hdouble] at hinner
        exact length_quotedWith_lt hinner
    split_ifs
    · exact (length_strip_le _).trans hraw
    · exact (length_strip_le _).trans (hle.trans hraw)
  · exact (length_strip_le _).trans hraw

theorem quotedWith_none {quote : Char} {value : Text} (h : value.head? ≠ some quote) :
    quotedWith quote value = none := by
  unfold quotedWith
  rw [if_neg fun hquoted => h hquoted.2.1]

/-- A value that does not begin with a quote is only stripped. -/
theorem rawValue_unquoted {value : Text} (hdouble : (strip value).head? ≠ some '"')
    (hsingle : (strip value).head? ≠ some '\'') : rawValue value = strip (strip value) := by
  unfold rawValue stripQuotes
  rw [quotedWith_none hdouble, quotedWith_none hsingle]
  rfl

theorem strip_strip (text : Text) : strip (strip text) = strip text := by
  cases hstrip : strip text with
  | nil => rfl
  | cons c rest =>
    have hhead : isSpace c = false := @head_strip text c (by rw [hstrip]; rfl)
    have hlast := List.getLast?_eq_some_getLast (List.cons_ne_nil c rest)
    exact strip_eq_self rfl hlast hhead (@last_strip text _ (by rw [hstrip, hlast]))

theorem PlainValue.rawValue {value : Text} (h : PlainValue value) : rawValue value = value := by
  rw [rawValue_unquoted, strip_strip, h.stripped]
  · rw [h.stripped]
    exact h.start _ (by decide)
  · rw [h.stripped]
    exact h.start _ (by decide)

theorem lookup_setField (key : Text) (value : FieldValue) (fields : List (Text × FieldValue))
    (other : Text) :
    (setField key value fields).lookup other =
      if other = key then some value else fields.lookup other := by
  have hmap : ∀ fields : List (Text × FieldValue),
      (fields.map fun field => if field.1 = key then (key, value) else field).lookup other =
        if other = key then if fields.any (fun field => field.1 = key) then some value else none
        else fields.lookup other := by
    intro fields
    induction fields with
    | nil => split_ifs <;> simp_all
    | cons field rest ih =>
      obtain ⟨name, found⟩ := field
      rw [List.map_cons]
      by_cases hname : name = key
      · subst hname
        by_cases hother : other = name
        · simp [List.lookup_cons, hother]
        · simp only [List.lookup_cons, if_true]
          rw [beq_false_of_ne hother]
          simpa [hother] using ih
      · by_cases hother : other = key
        · subst hother
          simp only [hname, if_false, List.lookup_cons, List.any_cons, decide_false, Bool.false_or]
          rw [beq_false_of_ne (Ne.symm hname)]
          simpa using ih
        · rw [if_neg hname, List.lookup_cons, List.lookup_cons]
          split
          · simp [hother]
          · simpa [hother] using ih
  have hnone : ¬(fields.any fun field => field.1 = key) = true → fields.lookup key = none := by
    intro hany
    refine List.lookup_eq_none_iff.mpr fun field hfield => ?_
    by_contra hkey
    have hsame : key = field.1 := by simpa using hkey
    exact hany (List.any_eq_true.mpr ⟨field, hfield, decide_eq_true hsame.symm⟩)
  unfold setField
  split_ifs with hany hother hother
  · rw [hmap, if_pos hother, if_pos hany]
  · rw [hmap, if_neg hother]
  · rw [List.lookup_append, hother, hnone hany, List.lookup_cons, beq_self_eq_true]
    rfl
  · rw [List.lookup_append, List.lookup_cons, beq_false_of_ne hother]
    exact Option.or_none

end Values

section Lines

variable (parsing : Parsing)

theorem line_nil : parsing.line [] = parsing := rfl

/-- A line with a key is read for it. -/
theorem line_key {key : Text} (hkey : IsKey key) (behind : Text) :
    parsing.line (key ++ ':' :: behind) =
      if strip behind = [] ∨ strip behind = ['|'] then { parsing with key := some key }
      else match listItem (strip behind) with
        | some item => ⟨setField key (.block [rawValue item]) parsing.result, some key⟩
        | none => ⟨setField key (.scalar (rawValue (strip behind))) parsing.result, some key⟩ := by
  obtain ⟨c, rest, hcons, hspace, hdash, hhash⟩ := hkey.cons
  have hraw : rstrip (key ++ ':' :: behind) = key ++ ':' :: rstrip behind :=
    rstrip_append_cons key (by decide) behind
  have hstart : ¬(key ++ ':' :: rstrip behind = [] ∨
      ((key ++ ':' :: rstrip behind).dropWhile isSpace).head? = some '#') := by
    rw [hcons, List.cons_append, List.dropWhile_cons, if_neg (by simp [hspace])]
    rintro (hnil | hhead)
    · cases hnil
    · exact hhash (Option.some.inj hhead)
  have hcolon : ':' ∈ key ++ ':' :: rstrip behind :=
    List.mem_append_right key List.mem_cons_self
  have htake : (key ++ ':' :: rstrip behind).takeWhile (· ≠ ':') = key := by
    have hletters : ∀ c ∈ key, decide (c ≠ ':') = true :=
      fun c hc => decide_eq_true fun heq => hkey.colon (heq ▸ hc)
    rw [List.takeWhile_append_of_pos hletters, List.takeWhile_cons_of_neg (by simp),
      List.append_nil]
  have hafter : afterFirst ':' (key ++ ':' :: rstrip behind) = rstrip behind := by
    have hletters : ∀ c ∈ key, (c != ':') = true :=
      fun c hc => bne_iff_ne.mpr fun heq => hkey.colon (heq ▸ hc)
    unfold afterFirst
    rw [List.dropWhile_append_of_pos hletters, List.dropWhile_cons_of_neg (by simp)]
    rfl
  have hnoitem : ¬"- ".toList.isPrefixOf key = true := by
    intro hitem
    rw [hcons] at hitem
    simp [List.isPrefixOf] at hitem
    exact hdash hitem.1.symm
  unfold Parsing.line
  dsimp only
  rw [hraw, if_neg hstart, if_pos hcolon, htake, hafter, hkey.stripped, strip_rstrip,
    if_neg hnoitem]
  cases listItem (strip behind) with
  | none => rfl
  | some item =>
    dsimp only
    rw [if_neg hkey.filled]

/-- An item is appended to the list of a key. -/
def addItem (key item : Text) (fields : List (Text × FieldValue)) : List (Text × FieldValue) :=
  setField key (match fields.lookup key with
    | some (.block items) => .block (items ++ [item])
    | _ => .block [item]) fields

/-- What a line with the mark of an item can do. -/
inductive ItemRead (item : Text) : Parsing → Prop where
  | unread : ItemRead item parsing
  /-- A colon in the item makes what is before it a key. -/
  | key {key : Text} {result : List (Text × FieldValue)} (hcolon : ':' ∈ item)
      (hkey : key.head? = some '-')
      (hresult : result = parsing.result ∨ ∃ value, result = setField key value parsing.result) :
      ItemRead item ⟨result, some key⟩
  | item {key value : Text} (hcolon : ':' ∉ item) (hkey : parsing.key = some key)
      (hvalue : value.length ≤ item.length) :
      ItemRead item ⟨addItem key value parsing.result, parsing.key⟩

theorem line_item (item : Text) :
    ItemRead parsing item (parsing.line (' ' :: ' ' :: '-' :: ' ' :: item)) := by
  have hraw : rstrip (' ' :: ' ' :: '-' :: ' ' :: item) = ' ' :: ' ' :: '-' :: rstrip (' ' :: item) :=
    rstrip_append_cons [' ', ' '] (by decide) (' ' :: item)
  have hstrip : strip (' ' :: ' ' :: '-' :: rstrip (' ' :: item)) = '-' :: rstrip (' ' :: item) := by
    rw [strip_space rfl, strip_space rfl, strip_cons (by decide), rstrip_rstrip]
  have hmem : ':' ∈ ' ' :: ' ' :: '-' :: rstrip (' ' :: item) ↔ ':' ∈ item := by
    have hbehind : ':' ∈ rstrip (' ' :: item) ↔ ':' ∈ ' ' :: item := mem_rstrip (by decide)
    simpa using hbehind
  unfold Parsing.line
  dsimp only
  rw [hraw, if_neg (by
    rintro (hnil | hhead)
    · cases hnil
    · cases hhead)]
  by_cases hcolon : ':' ∈ item
  · rw [if_pos (hmem.mpr hcolon)]
    have hkey : (strip ((' ' :: ' ' :: '-' :: rstrip (' ' :: item)).takeWhile (· ≠ ':'))).head? =
        some '-' := by
      rw [List.takeWhile_cons_of_pos (by decide), List.takeWhile_cons_of_pos (by decide),
        List.takeWhile_cons_of_pos (by decide), strip_space rfl, strip_space rfl,
        strip_cons (by decide)]
      rfl
    split_ifs
    · exact .key hcolon hkey (.inl rfl)
    · exact .unread
    · split
      · exact .unread
      · exact .key hcolon hkey (.inr ⟨_, rfl⟩)
    · split
      · exact .key hcolon hkey (.inr ⟨_, rfl⟩)
      · exact .key hcolon hkey (.inr ⟨_, rfl⟩)
  · rw [if_neg fun h => hcolon (hmem.mp h), hstrip]
    split_ifs with hmark
    · obtain ⟨result, current⟩ := parsing
      cases current with
      | none => exact .unread
      | some key =>
        refine @ItemRead.item ⟨result, some key⟩ item key _ hcolon rfl ?_
        refine (length_rawValue_le _).trans ?_
        have hle := length_strip_rstrip_le (' ' :: item)
        rw [List.length_drop, List.length_cons]
        rw [List.length_cons] at hle
        omega
    · exact .unread

/-- An item without a colon is added to the list of the current key. -/
theorem line_plainItem {key item : Text} (h : PlainValue item) (hcolon : ':' ∉ item)
    (hkey : parsing.key = some key) :
    parsing.line (' ' :: ' ' :: '-' :: ' ' :: item) =
      ⟨addItem key item parsing.result, parsing.key⟩ := by
  have hrest : rstrip item = item := rstrip_strip h.stripped
  have hbehind : rstrip (' ' :: item) = ' ' :: item := by
    rw [rstrip_eq, rdropWhile_cons, ← rstrip_eq, hrest, if_neg fun hnil => h.filled hnil.2]
  have hraw : rstrip (' ' :: ' ' :: '-' :: ' ' :: item) = ' ' :: ' ' :: '-' :: ' ' :: item := by
    have hmark := @rstrip_append_cons [' ', ' '] '-' (by decide) (' ' :: item)
    rwa [hbehind] at hmark
  have hstrip : strip (' ' :: ' ' :: '-' :: ' ' :: item) = '-' :: ' ' :: item := by
    rw [strip_space rfl, strip_space rfl, strip_cons (by decide), hbehind]
  unfold Parsing.line
  dsimp only
  rw [hraw, if_neg (by
    rintro (hnil | hhead)
    · cases hnil
    · cases hhead), if_neg (by simpa using hcolon), hstrip, if_pos (by rfl), hkey]
  dsimp only
  rw [show ('-' :: ' ' :: item).drop 2 = item from rfl, h.rawValue]
  rfl

end Lines

section Fields

/-- The lines read so far. -/
def parse (parsing : Parsing) (lines : List Text) : Parsing := lines.foldl Parsing.line parsing

theorem parse_append (parsing : Parsing) (lines more : List Text) :
    parse parsing (lines ++ more) = parse (parse parsing lines) more := List.foldl_append

theorem lookup_addItem_other {key other : Text} (h : other ≠ key) (item : Text)
    (fields : List (Text × FieldValue)) :
    (addItem key item fields).lookup other = fields.lookup other := by
  unfold addItem
  rw [lookup_setField, if_neg h]

/-- A line with the mark of an item leaves other keys alone. -/
theorem ItemRead.other {parsing next : Parsing} {item other : Text} (h : ItemRead parsing item next)
    (hother : other.head? ≠ some '-') (hkey : parsing.key ≠ some other) :
    next.result.lookup other = parsing.result.lookup other ∧ next.key ≠ some other := by
  cases h with
  | unread => exact ⟨rfl, hkey⟩
  | @key name result hcolon hname hresult =>
    have hne : other ≠ name := fun heq => hother (heq ▸ hname)
    refine ⟨?_, fun heq => hne (Option.some.inj heq).symm⟩
    rcases hresult with rfl | ⟨value, rfl⟩
    · rfl
    · exact (lookup_setField name value parsing.result other).trans (if_neg hne)
  | @item name value hcolon hname hvalue =>
    have hne : other ≠ name := fun heq => hkey (hname.trans (congrArg some heq.symm))
    exact ⟨lookup_addItem_other hne value parsing.result, hkey⟩

/-- The letters and items of a list. -/
def weight : Option FieldValue → ℕ
  | some (.block items) => (items.map fun item => item.length + 1).sum
  | _ => 0

/-- What an item may add to the weight of a list. -/
def share (item : Text) : ℕ := if ':' ∈ item then 0 else item.length + 1

theorem weight_addItem (key item other : Text) (fields : List (Text × FieldValue)) :
    weight ((addItem key item fields).lookup other) ≤
      weight (fields.lookup other) + (item.length + 1) := by
  unfold addItem
  rw [lookup_setField]
  split_ifs with heq
  · subst heq
    cases hfound : fields.lookup other with
    | none => simp [weight]
    | some value =>
      cases value with
      | scalar text => simp [weight]
      | block items => simp [weight]
  · omega

/-- A line with the mark of an item adds at most the share of the item. -/
theorem ItemRead.weight_le {parsing next : Parsing} {item other : Text}
    (h : ItemRead parsing item next) (hother : other.head? ≠ some '-') :
    weight (next.result.lookup other) ≤ weight (parsing.result.lookup other) + share item := by
  cases h with
  | unread => omega
  | @key name result hcolon hname hresult =>
    have hne : other ≠ name := fun heq => hother (heq ▸ hname)
    rcases hresult with rfl | ⟨value, rfl⟩
    · exact Nat.le_add_right _ _
    · rw [lookup_setField name value parsing.result other, if_neg hne]
      exact Nat.le_add_right _ _
  | @item name value hcolon hname hvalue =>
    have hle := weight_addItem name value other parsing.result
    have hshare : share item = item.length + 1 := if_neg hcolon
    dsimp only
    omega

/-- The lines of items. -/
def itemLines (items : List Text) : List Text :=
  items.map fun item => ' ' :: ' ' :: '-' :: ' ' :: item

theorem parse_itemLines_other {other : Text} (hother : other.head? ≠ some '-')
    (items : List Text) : ∀ {parsing : Parsing}, parsing.key ≠ some other →
      (parse parsing (itemLines items)).result.lookup other = parsing.result.lookup other := by
  induction items with
  | nil => exact fun _ => rfl
  | cons item rest ih =>
    intro parsing hkey
    obtain ⟨hsame, hnext⟩ := (line_item parsing item).other hother hkey
    exact (ih hnext).trans hsame

theorem parse_itemLines_weight {other : Text} (hother : other.head? ≠ some '-')
    (items : List Text) : ∀ parsing : Parsing,
      weight ((parse parsing (itemLines items)).result.lookup other) ≤
        weight (parsing.result.lookup other) + (items.map share).sum := by
  induction items with
  | nil => exact fun parsing => Nat.le_refl _
  | cons item rest ih =>
    intro parsing
    have hfirst := (line_item parsing item).weight_le hother
    have hrest := ih (parsing.line (' ' :: ' ' :: '-' :: ' ' :: item))
    rw [List.map_cons, List.sum_cons]
    calc weight ((parse parsing (itemLines (item :: rest))).result.lookup other)
        ≤ weight ((parsing.line (' ' :: ' ' :: '-' :: ' ' :: item)).result.lookup other) +
            (rest.map share).sum := hrest
      _ ≤ weight (parsing.result.lookup other) + (share item + (rest.map share).sum) := by omega

/-- Items without colons make up the list of their key. -/
theorem parse_itemLines {key : Text} {items : List Text} (h : ∀ item ∈ items, PlainValue item)
    (hcolon : ∀ item ∈ items, ':' ∉ item) : ∀ {parsing : Parsing} (before : List Text),
    parsing.key = some key →
      (before ≠ [] → parsing.result.lookup key = some (.block before)) →
      (before = [] → parsing.result.lookup key = none) → before ++ items ≠ [] →
      (parse parsing (itemLines items)).result.lookup key = some (.block (before ++ items)) := by
  induction items with
  | nil =>
    intro parsing before _ hsome _ hne
    rw [List.append_nil] at hne ⊢
    exact hsome hne
  | cons item rest ih =>
    intro parsing before hkey hsome hnone _
    rw [List.forall_mem_cons] at h hcolon
    have hline := line_plainItem parsing h.1 hcolon.1 hkey
    have hadded : (addItem key item parsing.result).lookup key =
        some (.block (before ++ [item])) := by
      unfold addItem
      rw [lookup_setField, if_pos rfl]
      by_cases hbefore : before = []
      · rw [hnone hbefore, hbefore]
        rfl
      · rw [hsome hbefore]
    have hrest := @ih h.2 hcolon.2 ⟨addItem key item parsing.result, parsing.key⟩ (before ++ [item])
      hkey (fun _ => hadded) (fun hnil => absurd hnil (by simp)) (by simp)
    rw [List.append_assoc, List.singleton_append] at hrest
    rw [← hrest, itemLines, List.map_cons]
    exact congrArg (fun next => (parse next (itemLines rest)).result.lookup key) hline

/-- The lines of a field are read for its own key only. -/
theorem parse_field_other {field : Text × FieldValue} (hkey : IsKey field.1) {other : Text}
    (hother : other.head? ≠ some '-') (hne : other ≠ field.1) (parsing : Parsing) :
    (parse parsing (fieldLines field)).result.lookup other = parsing.result.lookup other := by
  have hline : ∀ behind, (parsing.line (field.1 ++ ':' :: behind)).result.lookup other =
      parsing.result.lookup other := by
    intro behind
    rw [line_key parsing hkey]
    split_ifs
    · rfl
    · split
      · exact (lookup_setField _ _ _ _).trans (if_neg hne)
      · exact (lookup_setField _ _ _ _).trans (if_neg hne)
  obtain ⟨key, value⟩ := field
  cases value with
  | scalar text => exact hline (' ' :: text)
  | block items =>
    have hstart : (parsing.line (key ++ [':'])).key ≠ some other := by
      rw [line_key parsing hkey []]
      exact fun heq => hne (Option.some.inj heq).symm
    exact (parse_itemLines_other hother items hstart).trans (hline [])

theorem parse_fields_other {fields : List (Text × FieldValue)} (hkeys : ∀ field ∈ fields,
    IsKey field.1) {other : Text} (hother : other.head? ≠ some '-')
    (hne : ∀ field ∈ fields, other ≠ field.1) : ∀ parsing : Parsing,
    (parse parsing (fields.flatMap fieldLines)).result.lookup other =
      parsing.result.lookup other := by
  induction fields with
  | nil => exact fun _ => rfl
  | cons field rest ih =>
    intro parsing
    rw [List.forall_mem_cons] at hkeys hne
    rw [List.flatMap_cons, parse_append, ih hkeys.2 hne.2,
      parse_field_other hkeys.1 hother hne.1]

/-- A value on the line of its key. -/
theorem parse_scalar {key : Text} (hkey : IsKey key) (parsing : Parsing) (behind : Text) :
    (parsing.line (key ++ ':' :: ' ' :: behind)).result.lookup key =
      if strip behind = [] ∨ strip behind = ['|'] then parsing.result.lookup key
      else match listItem (strip behind) with
        | some item => some (.block [rawValue item])
        | none => some (.scalar (rawValue (strip behind))) := by
  rw [line_key parsing hkey, strip_space rfl]
  split_ifs
  · rfl
  · split
    · exact (lookup_setField _ _ _ _).trans (if_pos rfl)
    · exact (lookup_setField _ _ _ _).trans (if_pos rfl)

end Fields

section Cuts

/-- The mark of the end. -/
def dashes : Text := "---".toList

theorem prefix_of_append_cons {part text behind : Text} {c : Char} (hc : c ∉ part)
    (h : part <+: text ++ c :: behind) : part <+: text := by
  induction text generalizing part with
  | nil =>
    cases part with
    | nil => exact List.nil_prefix
    | cons d part =>
      obtain ⟨rfl, -⟩ := List.cons_prefix_cons.mp h
      exact absurd List.mem_cons_self hc
  | cons d text ih =>
    cases part with
    | nil => exact List.nil_prefix
    | cons e part =>
      obtain ⟨rfl, hrest⟩ := List.cons_prefix_cons.mp h
      exact List.cons_prefix_cons.mpr ⟨rfl, ih (fun hmem => hc (List.mem_cons_of_mem e hmem)) hrest⟩

/-- A line without the mark is before the end. -/
theorem untilDashes_line {line : Text} (h : ¬dashes <:+: line) (rest : Text) :
    untilDashes (line ++ '\n' :: rest) =
      (untilDashes rest).map fun before => line ++ '\n' :: before := by
  induction line with
  | nil => rfl
  | cons c line ih =>
    have hstart : ¬"---".toList.isPrefixOf (c :: (line ++ '\n' :: rest)) = true := by
      intro hmark
      have hfront : dashes <+: (c :: line) ++ '\n' :: rest := List.isPrefixOf_iff_prefix.mp hmark
      exact h (prefix_of_append_cons (by decide) hfront).isInfix
    rw [List.cons_append, untilDashes, if_neg hstart,
      ih fun hinner => h (hinner.trans (List.suffix_cons c line).isInfix), Option.map_map]
    rfl

/-- A line with the mark is cut there. -/
theorem untilDashes_cut {line : Text} (h : dashes <:+: line) :
    ∃ front behind, line = front ++ dashes ++ behind ∧
      ∀ rest, untilDashes (line ++ rest) = some front := by
  induction line with
  | nil => exact absurd (List.infix_nil.mp h) (by decide)
  | cons c line ih =>
    by_cases hstart : dashes <+: c :: line
    · obtain ⟨behind, hbehind⟩ := hstart
      refine ⟨[], behind, by rw [List.nil_append, hbehind], fun rest => ?_⟩
      have hmark : "---".toList.isPrefixOf (c :: (line ++ rest)) = true :=
        List.isPrefixOf_iff_prefix.mpr ⟨behind ++ rest, by
          rw [← List.append_assoc, ← List.cons_append, ← hbehind]
          rfl⟩
      rw [List.cons_append, untilDashes, if_pos hmark]
    · have hinner : dashes <:+: line := (List.infix_cons_iff.mp h).resolve_left hstart
      obtain ⟨front, behind, hline, hcut⟩ := ih hinner
      refine ⟨c :: front, behind, by rw [hline]; rfl, fun rest => ?_⟩
      have hnomark : ¬"---".toList.isPrefixOf (c :: (line ++ rest)) = true := by
        intro hmark
        have hwhole : dashes <+: (c :: line) ++ rest := List.isPrefixOf_iff_prefix.mp hmark
        have hlong : dashes.length ≤ (c :: line).length :=
          hinner.length_le.trans (Nat.le_succ line.length)
        exact hstart (List.prefix_of_prefix_length_le hwhole (List.prefix_append _ rest) hlong)
      rw [List.cons_append, untilDashes, if_neg hnomark, hcut]
      rfl

/-- The lines before the end are all lines, or those before the first mark. -/
theorem untilDashes_lines (lines : List Text) :
    ((∀ line ∈ lines, ¬dashes <:+: line) ∧
        ∀ rest, untilDashes (unlines lines ++ (dashes ++ rest)) = some (unlines lines)) ∨
      ∃ before front behind after, lines = before ++ (front ++ dashes ++ behind) :: after ∧
        ∀ rest, untilDashes (unlines lines ++ rest) = some (unlines before ++ front) := by
  induction lines with
  | nil =>
    refine .inl ⟨fun line hline => absurd hline List.not_mem_nil, fun rest => ?_⟩
    rfl
  | cons line lines ih =>
    by_cases hline : dashes <:+: line
    · obtain ⟨front, behind, heq, hcut⟩ := untilDashes_cut hline
      refine .inr ⟨[], front, behind, lines, by rw [← heq]; rfl, fun rest => ?_⟩
      rw [unlines_cons, List.append_assoc]
      exact hcut _
    · rcases ih with ⟨hnone, hall⟩ | ⟨before, front, behind, after, heq, hcut⟩
      · refine .inl ⟨List.forall_mem_cons.mpr ⟨hline, hnone⟩, fun rest => ?_⟩
        rw [unlines_cons, List.append_assoc, List.cons_append, untilDashes_line hline, hall]
        rfl
      · refine .inr ⟨line :: before, front, behind, after, by rw [heq]; rfl, fun rest => ?_⟩
        rw [unlines_cons, List.append_assoc, List.cons_append, untilDashes_line hline, hcut,
          unlines_cons, List.append_assoc]
        rfl

theorem splitlines_unlines_append {lines : List Text} (h : ∀ line ∈ lines, IsLine line)
    (last : Text) : splitlines (unlines lines ++ last) = lines ++ splitlines last := by
  induction lines with
  | nil => rfl
  | cons line lines ih =>
    rw [List.forall_mem_cons] at h
    rw [unlines_cons, List.append_assoc, List.cons_append, splitlines_append_newline h.1, ih h.2]
    rfl

theorem parse_splitlines {last : Text} (h : IsLine last) (parsing : Parsing) :
    parse parsing (splitlines last) = parsing.line last := by
  by_cases hnil : last = []
  · rw [hnil]
    rfl
  · rw [splitlines_line h hnil]
    rfl

/-- What is written is read line by line, up to the first mark. -/
theorem parseFrontmatter_written {fields : List (Text × FieldValue)}
    (h : ∀ line ∈ fields.flatMap fieldLines, IsLine line) (body : Text) :
    ((∀ line ∈ fields.flatMap fieldLines, ¬dashes <:+: line) ∧
        parseFrontmatter (written fields body) = (parse {} (fields.flatMap fieldLines)).result) ∨
      ∃ before front behind after,
        fields.flatMap fieldLines = before ++ (front ++ dashes ++ behind) :: after ∧
          parseFrontmatter (written fields body) = (parse {} (before ++ [front])).result := by
  have hread : ∀ {block : Text}, untilDashes (unlines (fields.flatMap fieldLines) ++
      (dashes ++ body)) = some block → parseFrontmatter (written fields body) =
        (parse {} (splitlines block)).result := by
    intro block hblock
    have htext : written fields body =
        dashes ++ '\n' :: (unlines (fields.flatMap fieldLines) ++ (dashes ++ body)) := by
      unfold written
      rw [List.append_assoc, List.append_assoc]
      rfl
    have huntil := @untilDashes_line [] (by decide)
      (unlines (fields.flatMap fieldLines) ++ (dashes ++ body))
    rw [hblock] at huntil
    have hstart : "---".toList.isPrefixOf (dashes ++ '\n' ::
        (unlines (fields.flatMap fieldLines) ++ (dashes ++ body))) = true :=
      List.isPrefixOf_iff_prefix.mpr (List.prefix_append dashes _)
    rw [htext]
    unfold parseFrontmatter
    rw [if_pos hstart, show (dashes ++ '\n' :: (unlines (fields.flatMap fieldLines) ++ (dashes ++ body))).drop 3 =
      [] ++ '\n' :: (unlines (fields.flatMap fieldLines) ++ (dashes ++ body)) from rfl, huntil]
    rfl
  rcases untilDashes_lines (fields.flatMap fieldLines) with
    ⟨hnone, hall⟩ | ⟨before, front, behind, after, heq, hcut⟩
  · refine .inl ⟨hnone, ?_⟩
    rw [hread (hall body), splitlines_unlines h]
  · refine .inr ⟨before, front, behind, after, heq, ?_⟩
    have hbefore : ∀ line ∈ before, IsLine line :=
      fun line hline => h line (heq ▸ List.mem_append_left _ hline)
    have hfront : IsLine front := by
      have hwhole := h (front ++ dashes ++ behind)
        (heq ▸ List.mem_append_right _ List.mem_cons_self)
      exact fun c hc => hwhole c (List.mem_append_left _ (List.mem_append_left _ hc))
    rw [hread (hcut (dashes ++ body)), splitlines_unlines_append hbefore, parse_append,
      parse_append, parse_splitlines hfront]
    rfl

end Cuts

section Places

/-- An element that is listed for some item comes from one of them. -/
theorem flatMap_split {α β : Type*} (g : α → List β) {items : List α} {before after : List β}
    {x : β} (h : items.flatMap g = before ++ x :: after) :
    ∃ first item last b a, items = first ++ item :: last ∧ g item = b ++ x :: a ∧
      before = first.flatMap g ++ b := by
  induction items generalizing before with
  | nil => exact absurd h (by simp)
  | cons item rest ih =>
    rw [List.flatMap_cons] at h
    rcases List.append_eq_append_iff.mp h with ⟨more, hbefore, hrest⟩ | ⟨more, hitem, hrest⟩
    · obtain ⟨first, found, last, b, a, hitems, hfound, hmore⟩ := ih hrest
      exact ⟨item :: first, found, last, b, a, by rw [hitems]; rfl, hfound, by
        rw [hbefore, hmore, List.flatMap_cons, List.append_assoc]⟩
    · cases more with
      | nil =>
        obtain ⟨first, found, last, b, a, hitems, hfound, hmore⟩ := @ih [] hrest.symm
        refine ⟨item :: first, found, last, b, a, by rw [hitems]; rfl, hfound, ?_⟩
        rw [List.flatMap_cons, List.append_assoc, ← hmore, hitem, List.append_nil, List.append_nil]
      | cons y more =>
        obtain ⟨rfl, -⟩ := List.cons.inj hrest
        exact ⟨[], item, rest, before, more, rfl, hitem, rfl⟩

/-- A mark behind a text without dashes is in what follows. -/
theorem cut_behind {start front behind value : Text} (hstart : '-' ∉ start)
    (h : front ++ dashes ++ behind = start ++ value) :
    ∃ part, front = start ++ part ∧ value = part ++ dashes ++ behind := by
  rw [List.append_assoc] at h
  rcases List.append_eq_append_iff.mp h with ⟨more, hmore, hrest⟩ | ⟨more, hmore, hrest⟩
  · cases more with
    | nil => exact ⟨[], by simpa using hmore.symm, by simpa using hrest.symm⟩
    | cons c more =>
      obtain ⟨rfl, -⟩ := List.cons.inj hrest
      exact absurd (hmore ▸ List.mem_append_right front List.mem_cons_self) hstart
  · exact ⟨more, hmore, by rw [hrest, List.append_assoc]⟩

/-- A mark in the line of an item is in the item. -/
theorem cut_item {front behind item : Text}
    (h : front ++ dashes ++ behind = ' ' :: ' ' :: '-' :: ' ' :: item) :
    ∃ part, front = ' ' :: ' ' :: '-' :: ' ' :: part ∧ item = part ++ dashes ++ behind := by
  match front with
  | [] => simp [dashes] at h
  | [_] => simp [dashes] at h
  | [_, _] => simp [dashes] at h
  | [_, _, _] => simp [dashes] at h
  | a :: b :: c :: d :: part =>
    simp only [List.cons_append, List.cons.injEq] at h
    obtain ⟨rfl, rfl, rfl, rfl, hitem⟩ := h
    exact ⟨part, rfl, hitem.symm⟩

theorem infix_dashes {text : Text} :
    dashes <:+: text ↔ ∃ front behind, front ++ dashes ++ behind = text := Iff.rfl

variable {fields : List (Text × FieldValue)}

/-- Before its field no key is set, and behind it the value stays. -/
theorem lookup_own (hkeys : ∀ field ∈ fields, IsKey field.1)
    (hnodup : (fields.map Prod.fst).Nodup) {first last : List (Text × FieldValue)}
    {field : Text × FieldValue} (hfields : fields = first ++ field :: last) :
    (parse {} (first.flatMap fieldLines)).result.lookup field.1 = none ∧
      (parse {} (fields.flatMap fieldLines)).result.lookup field.1 =
        (parse (parse {} (first.flatMap fieldLines)) (fieldLines field)).result.lookup field.1 := by
  have hown : IsKey field.1 := hkeys field (by rw [hfields]; simp)
  rw [hfields, List.map_append, List.map_cons, List.nodup_append, List.nodup_cons] at hnodup
  obtain ⟨-, ⟨hlast, -⟩, hfirst⟩ := hnodup
  refine ⟨parse_fields_other (fun other hother => hkeys other (by simp [hfields, hother])) hown.head
    (fun other hother heq => ?_) {}, ?_⟩
  · exact hfirst other.1 (List.mem_map_of_mem hother) field.1 List.mem_cons_self heq.symm
  · rw [hfields, List.flatMap_append, List.flatMap_cons, parse_append, parse_append]
    refine parse_fields_other (fun other hother => hkeys other (by simp [hfields, hother])) hown.head
      (fun other hother heq => ?_) _
    exact hlast (heq ▸ List.mem_map_of_mem hother)

end Places

namespace SkillMetadata

variable {metadata : SkillMetadata}

section Metadata

/-- The keys of the fields. -/
def keys : List Text :=
  ["name", "description", "version", "owner", "updated_at", "status", "schema_version", "triggers",
    "scope", "dependencies", "priority"].map String.toList

theorem map_fields (metadata : SkillMetadata) : metadata.fields.map Prod.fst = keys := by
  simp [fields, texts, blocks, keys]

theorem isKey_keys : ∀ key ∈ keys, IsKey key := by
  have hall : (keys.all fun key => !key.isEmpty &&
      key.all fun c => ('a' ≤ c && c ≤ 'z') || c == '_') = true := rfl
  intro key hkey
  have hletters := List.all_eq_true.mp hall key hkey
  rw [Bool.and_eq_true, List.all_eq_true] at hletters
  refine ⟨by simpa using hletters.1, fun c hc => ?_⟩
  simpa using hletters.2 c hc

theorem nodup_keys : keys.Nodup := by
  refine List.Nodup.map (fun a b h => String.ext h) ?_
  simp

/-- All texts and items are plain values. -/
structure Plain (metadata : SkillMetadata) : Prop where
  texts : ∀ entry ∈ metadata.texts, PlainValue entry.2.2
  items : ∀ entry ∈ metadata.blocks, ∀ item ∈ entry.2, PlainValue item

/-- The fields of the metadata are what is read. -/
structure Recovered (listText : List Text → Text) (metadata : SkillMetadata)
    (data : List (Text × FieldValue)) : Prop where
  texts : ∀ entry ∈ metadata.texts, fieldText listText data entry.1 entry.2.1 = entry.2.2
  blocks : ∀ entry ∈ metadata.blocks, fieldList data entry.1 = entry.2
  priority : fieldInt data "priority" = metadata.priority

/-- What `validate` accepts has a name and no negative priority. -/
theorem valid_name (h : metadata.validate = .ok metadata) :
    metadata.name ≠ [] ∧ 0 ≤ metadata.priority := by
  unfold validate at h
  simp only [bind, Except.bind, pure, Except.pure, throw, throwThe, MonadExceptOf.throw] at h
  refine ⟨fun hname => ?_, ?_⟩
  · rw [hname] at h
    simp [isSlug] at h
  · by_contra hnegative
    rw [not_le] at hnegative
    simp only [hnegative, if_true] at h
    repeat' split at h
    all_goals cases h

/-- Metadata is recovered when it is valid and every field is read. -/
theorem fromFrontmatter_eq_iff (listText : List Text → Text) (text : Text) :
    fromFrontmatter listText text = .ok metadata ↔
      metadata.validate = .ok metadata ∧ Recovered listText metadata (parseFrontmatter text) := by
  unfold fromFrontmatter
  dsimp only
  constructor
  · intro h
    split_ifs at h
    have heq := validate_eq h
    subst heq
    refine ⟨h, ?_, ?_, rfl⟩
    · intro entry hentry
      simp only [texts, List.mem_cons, List.not_mem_nil, or_false] at hentry
      rcases hentry with rfl | rfl | rfl | rfl | rfl | rfl | rfl <;> rfl
    · intro entry hentry
      simp only [blocks, List.mem_cons, List.not_mem_nil, or_false] at hentry
      rcases hentry with rfl | rfl | rfl <;> rfl
  · rintro ⟨hvalid, htexts, hblocks, hpriority⟩
    simp only [texts, List.forall_mem_cons] at htexts
    simp only [blocks, List.forall_mem_cons] at hblocks
    obtain ⟨hname, hdescription, hversion, howner, hupdated, hstatus, hschema, -⟩ := htexts
    obtain ⟨htriggers, hscope, hdependencies, -⟩ := hblocks
    rw [hname, hdescription, hversion, howner, hupdated, hstatus, hschema, htriggers, hscope,
      hdependencies, hpriority, if_neg (valid_name hvalid).1]
    exact hvalid

end Metadata

section Priority

theorem digit_digitValue {c : Char} (h : c.isDigit = true) : digitValue c = some (c.toNat - 48) := by
  unfold Char.isDigit at h
  simp only [Bool.and_eq_true, decide_eq_true_eq, ge_iff_le, UInt32.le_iff_toNat_le] at h
  have hcode : 48 ≤ c.toNat ∧ c.toNat ≤ 57 := h
  unfold digitValue decimalZeros
  rw [List.find?_cons_of_pos (by
    simp only [Bool.and_eq_true, decide_eq_true_eq]
    omega)]
  rfl

theorem digit_toDigits {n : ℕ} {c : Char} (h : c ∈ Nat.toDigits 10 n) : c.isDigit = true :=
  Nat.isDigit_of_mem_toDigits (by decide) (by decide) h

theorem dash_toDigits (n : ℕ) : '-' ∉ Nat.toDigits 10 n :=
  fun hmem => absurd (digit_toDigits hmem) (by decide)

theorem digit_not_space {c : Char} (h : c.isDigit = true) : isSpace c = false := by
  unfold Char.isDigit at h
  simp only [Bool.and_eq_true, decide_eq_true_eq, ge_iff_le, UInt32.le_iff_toNat_le] at h
  have hcode : 48 ≤ c.toNat ∧ c.toNat ≤ 57 := h
  unfold isSpace
  simp only [Bool.or_eq_false_iff, Bool.and_eq_false_iff, decide_eq_false_iff_not,
    beq_eq_false_iff_ne]
  omega

/-- The digits of a number are a plain value. -/
theorem plainValue_toDigits (n : ℕ) : PlainValue (Nat.toDigits 10 n) := by
  have hne : Nat.toDigits 10 n ≠ [] := Nat.toDigits_ne_nil
  obtain ⟨c, rest, hcons⟩ := List.exists_cons_of_ne_nil hne
  have hdigits : ∀ d ∈ c :: rest, d.isDigit = true := fun d hd => digit_toDigits (hcons ▸ hd)
  have hfirst := hdigits c List.mem_cons_self
  refine ⟨hne, ?_, isLine_digits n, ?_, ?_⟩
  · rw [hcons]
    exact strip_eq_self rfl (List.getLast?_eq_some_getLast (List.cons_ne_nil c rest))
      (digit_not_space hfirst) (digit_not_space (hdigits _ (List.getLast_mem _)))
  · intro d hd heq
    rw [hcons] at heq
    have hsame : c = d := Option.some.inj heq
    have hnone : ∀ d ∈ ['"', '\'', '#', '|'], d.isDigit = false := by
      intro d hd
      simp only [List.mem_cons, List.not_mem_nil, or_false] at hd
      rcases hd with rfl | rfl | rfl | rfl <;> rfl
    rw [hsame, hnone d hd] at hfirst
    cases hfirst
  · by_contra hdash
    have hfront := List.isPrefixOf_iff_prefix.mp (Bool.eq_true_of_not_eq_false hdash)
    exact dash_toDigits n (hfront.subset List.mem_cons_self)

theorem foldl_toDigits (n : ℕ) : (Nat.toDigits 10 n).foldl
    (fun value c => 10 * value + (digitValue c).getD 0) 0 = n := by
  have hsame : ∀ (digits : Text) (value : ℕ), (∀ c ∈ digits, c.isDigit = true) →
      digits.foldl (fun value c => 10 * value + (digitValue c).getD 0) value =
        Nat.ofDigitChars 10 digits value := by
    intro digits
    induction digits with
    | nil => exact fun _ _ => (Nat.ofDigitChars_nil).symm
    | cons c rest ih =>
      intro value hdigits
      rw [List.forall_mem_cons] at hdigits
      rw [List.foldl_cons, Nat.ofDigitChars_cons, digit_digitValue hdigits.1, Option.getD_some,
        ih _ hdigits.2]
      rfl
  rw [hsame _ 0 fun c hc => digit_toDigits hc]
  exact Nat.ofDigitChars_toDigits (by decide) (by decide)

/-- `int(str(n))`, where the interpreter converts as many digits. -/
theorem coerceInt_toDigits {n : ℕ} (h : n < intLimit) : coerceInt (Nat.toDigits 10 n) = n := by
  obtain ⟨c, rest, hcons⟩ := List.exists_cons_of_ne_nil (@Nat.toDigits_ne_nil n 10)
  have hfirst : c.isDigit = true := digit_toDigits (hcons ▸ List.mem_cons_self)
  have hminus : c ≠ '-' := by
    rintro rfl
    exact absurd hfirst (by decide)
  have hplus : c ≠ '+' := by
    rintro rfl
    exact absurd hfirst (by decide)
  have hrun : digitRun (Nat.toDigits 10 n) = some (Nat.toDigits 10 n) := by
    have hgroups : (Nat.toDigits 10 n).splitOn '_' = [Nat.toDigits 10 n] := by
      have hfree : ∀ digits ∈ [Nat.toDigits 10 n], '_' ∉ digits := by
        intro digits hdigits hmem
        rw [List.mem_singleton.mp hdigits] at hmem
        exact absurd (digit_toDigits hmem) (by decide)
      have hsplit := List.splitOn_intercalate '_' hfree (by simp)
      rwa [List.intercalate_singleton] at hsplit
    have hall : (Nat.toDigits 10 n).all isDecimal = true := by
      refine List.all_eq_true.mpr fun d hd => ?_
      unfold isDecimal
      rw [digit_digitValue (digit_toDigits hd)]
      rfl
    unfold digitRun
    rw [hgroups]
    simp [hall, Nat.toDigits_ne_nil]
  have hparse : parseDigits (Nat.toDigits 10 n) = .ok n := by
    have hshort : (Nat.toDigits 10 n).length ≤ 4300 :=
      (Nat.length_toDigits_le_iff (by decide) (by decide)).mpr h
    unfold parseDigits
    rw [if_neg (by omega), foldl_toDigits]
  rw [hcons] at hrun hparse
  unfold coerceInt
  rw [(plainValue_toDigits n).stripped, hcons]
  simp [hminus, hplus, hrun, hparse]

end Priority

section Recovery

variable {fields : List (Text × FieldValue)}

/-- Metadata that frontmatter can carry. -/
structure Readable (metadata : SkillMetadata) : Prop where
  valid : metadata.validate = .ok metadata
  priority : metadata.priority.natAbs < intLimit
  texts : ∀ entry ∈ metadata.texts, ¬dashes <:+: entry.2.2 ∧ listItem entry.2.2 = none
  items : ∀ entry ∈ metadata.blocks, ∀ item ∈ entry.2, ¬dashes <:+: item ∧ ':' ∉ item

theorem mem_fields {field : Text × FieldValue} : field ∈ metadata.fields ↔
    (∃ entry ∈ metadata.texts, field = (entry.1.toList, .scalar entry.2.2)) ∨
      (∃ entry ∈ metadata.blocks, field = (entry.1.toList, .block entry.2)) ∨
        field = ("priority".toList, .scalar (intText metadata.priority)) := by
  unfold fields
  rw [List.mem_append, List.mem_append, List.mem_map, List.mem_map, List.mem_singleton, or_assoc]
  simp only [eq_comm]

theorem isKey_of_perm (h : fields.Perm metadata.fields) : ∀ field ∈ fields, IsKey field.1 := by
  intro field hfield
  refine isKey_keys field.1 ?_
  rw [← map_fields metadata]
  exact List.mem_map_of_mem (h.subset hfield)

theorem nodup_of_perm (h : fields.Perm metadata.fields) : (fields.map Prod.fst).Nodup := by
  rw [(h.map Prod.fst).nodup_iff, map_fields]
  exact nodup_keys

/-- The values of the fields are plain, and so are the items of its lists. -/
theorem plain_of_perm (h : fields.Perm metadata.fields) (hplain : metadata.Plain)
    (hpositive : 0 ≤ metadata.priority) :
    (∀ key value, (key, .scalar value) ∈ fields → PlainValue value) ∧
      ∀ key items, (key, .block items) ∈ fields → ∀ item ∈ items, PlainValue item := by
  constructor
  · intro key value hfield
    rcases mem_fields.mp (h.subset hfield) with ⟨entry, hentry, heq⟩ | ⟨entry, hentry, heq⟩ | heq
    · cases heq
      exact hplain.texts entry hentry
    · cases heq
    · cases heq
      obtain ⟨n, hn⟩ := Int.eq_ofNat_of_zero_le hpositive
      rw [hn]
      exact plainValue_toDigits n
  · intro key items hfield
    rcases mem_fields.mp (h.subset hfield) with ⟨entry, hentry, heq⟩ | ⟨entry, hentry, heq⟩ | heq
    · cases heq
    · cases heq
      exact hplain.items entry hentry
    · cases heq

theorem isLine_fieldLines {field : Text × FieldValue} (hkey : IsKey field.1)
    (hscalar : ∀ value, field.2 = .scalar value → IsLine value)
    (hblock : ∀ items, field.2 = .block items → ∀ item ∈ items, IsLine item) :
    ∀ line ∈ fieldLines field, IsLine line := by
  obtain ⟨key, value⟩ := field
  cases value with
  | scalar value =>
    refine List.forall_mem_singleton.mpr (IsLine.append hkey.line ?_)
    exact IsLine.cons (by decide) (IsLine.cons (by decide) (hscalar value rfl))
  | block items =>
    refine List.forall_mem_cons.mpr
      ⟨IsLine.append hkey.line (IsLine.cons (by decide) IsLine.nil), ?_⟩
    intro line hline
    obtain ⟨item, hitem, rfl⟩ := List.mem_map.mp hline
    exact IsLine.cons (by decide) (IsLine.cons (by decide) (IsLine.cons (by decide)
      (IsLine.cons (by decide) (hblock items rfl item hitem))))

/-- The value of a scalar field. -/
theorem lookup_scalar (hkeys : ∀ field ∈ fields, IsKey field.1)
    (hnodup : (fields.map Prod.fst).Nodup) {key value : Text} (hfield : (key, .scalar value) ∈ fields)
    (hvalue : PlainValue value) :
    (parse {} (fields.flatMap fieldLines)).result.lookup key = match listItem value with
      | some item => some (.block [rawValue item])
      | none => some (.scalar value) := by
  obtain ⟨first, last, heq⟩ := List.append_of_mem hfield
  obtain ⟨-, hown⟩ := lookup_own hkeys hnodup heq
  refine hown.trans ?_
  have hread := parse_scalar (hkeys _ hfield) (parse {} (first.flatMap fieldLines)) value
  have hmark : value ≠ ['|'] := by
    rintro rfl
    exact hvalue.start '|' (by decide) rfl
  rw [hvalue.stripped, if_neg (by
    rintro (hnil | hbar)
    · exact hvalue.filled hnil
    · exact hmark hbar), hvalue.rawValue] at hread
  exact hread

/-- The list of a block field has at most the shares of its items. -/
theorem lookup_weight (hkeys : ∀ field ∈ fields, IsKey field.1)
    (hnodup : (fields.map Prod.fst).Nodup) {key : Text} {items : List Text}
    (hfield : (key, .block items) ∈ fields) :
    weight ((parse {} (fields.flatMap fieldLines)).result.lookup key) ≤ (items.map share).sum := by
  obtain ⟨first, last, heq⟩ := List.append_of_mem hfield
  obtain ⟨hnone, hown⟩ := lookup_own hkeys hnodup heq
  have hkey : IsKey key := hkeys _ hfield
  have hweight := parse_itemLines_weight hkey.head items
    ((parse {} (first.flatMap fieldLines)).line (key ++ [':']))
  have hstart : ((parse {} (first.flatMap fieldLines)).line (key ++ [':'])).result.lookup key =
      none := by
    rw [line_key _ hkey []]
    exact hnone
  rw [hstart] at hweight
  rw [hown]
  exact hweight.trans (by simp [weight])

/-- The list of a block field whose items have no colons. -/
theorem lookup_block (hkeys : ∀ field ∈ fields, IsKey field.1)
    (hnodup : (fields.map Prod.fst).Nodup) {key : Text} {items : List Text}
    (hfield : (key, .block items) ∈ fields) (hitems : ∀ item ∈ items, PlainValue item)
    (hcolon : ∀ item ∈ items, ':' ∉ item) :
    (parse {} (fields.flatMap fieldLines)).result.lookup key =
      if items = [] then none else some (.block items) := by
  obtain ⟨first, last, heq⟩ := List.append_of_mem hfield
  obtain ⟨hnone, hown⟩ := lookup_own hkeys hnodup heq
  have hkey : IsKey key := hkeys _ hfield
  have hstart : (parse {} (first.flatMap fieldLines)).line (key ++ [':']) =
      { parse {} (first.flatMap fieldLines) with key := some key } := line_key _ hkey []
  refine hown.trans ?_
  show (parse ((parse {} (first.flatMap fieldLines)).line (key ++ [':']))
    (itemLines items)).result.lookup key = _
  rw [hstart]
  by_cases hnil : items = []
  · rw [if_pos hnil, hnil]
    exact hnone
  · rw [if_neg hnil]
    exact @parse_itemLines key items hitems hcolon _ [] rfl (fun h => absurd rfl h)
      (fun _ => hnone) hnil

/-- All items have their whole share only when none has a colon. -/
theorem colon_of_share {items : List Text}
    (h : (items.map fun item => item.length + 1).sum ≤ (items.map share).sum) :
    ∀ item ∈ items, ':' ∉ item := by
  have hle : ∀ items : List Text,
      (items.map share).sum ≤ (items.map fun item => item.length + 1).sum := by
    intro items
    refine List.sum_le_sum fun item _ => ?_
    unfold share
    split_ifs <;> omega
  induction items with
  | nil => exact fun item hitem => absurd hitem List.not_mem_nil
  | cons item rest ih =>
    have hrest := hle rest
    rw [List.map_cons, List.map_cons, List.sum_cons, List.sum_cons] at h
    have hshare : share item ≤ item.length + 1 := by
      unfold share
      split_ifs <;> omega
    refine List.forall_mem_cons.mpr ⟨fun hcolon => ?_, ih (by omega)⟩
    have hzero : share item = 0 := if_pos hcolon
    omega

theorem weight_fieldList (data : List (Text × FieldValue)) (key : String) :
    ((fieldList data key).map fun item => item.length + 1).sum = weight (data.lookup key.toList) := by
  unfold fieldList
  cases data.lookup key.toList with
  | none => rfl
  | some value => cases value <;> rfl

theorem dashes_value {start value : Text} (hstart : '-' ∉ start) (h : dashes <:+: start ++ value) :
    dashes <:+: value := by
  obtain ⟨front, behind, heq⟩ := h
  obtain ⟨part, -, hvalue⟩ := cut_behind hstart heq
  exact ⟨part, behind, hvalue.symm⟩

theorem dashes_item {item : Text} (h : dashes <:+: ' ' :: ' ' :: '-' :: ' ' :: item) :
    dashes <:+: item := by
  obtain ⟨front, behind, heq⟩ := h
  obtain ⟨part, -, hitem⟩ := cut_item heq
  exact ⟨part, behind, hitem.symm⟩

theorem key_dash {key : Text} (hkey : IsKey key) : '-' ∉ key ++ [':', ' '] := by
  simpa using hkey.dash

theorem dashes_intText (h : 0 ≤ metadata.priority) :
    ¬dashes <:+: intText metadata.priority := by
  obtain ⟨n, hn⟩ := Int.eq_ofNat_of_zero_le h
  rw [hn]
  exact fun hmark => dash_toDigits n (hmark.subset List.mem_cons_self)

/-- The lines of a field have the mark only in its value or items. -/
theorem dashes_fieldLines {field : Text × FieldValue} (hkey : IsKey field.1)
    (hscalar : ∀ value, field.2 = .scalar value → ¬dashes <:+: value)
    (hblock : ∀ items, field.2 = .block items → ∀ item ∈ items, ¬dashes <:+: item) :
    ∀ line ∈ fieldLines field, ¬dashes <:+: line := by
  obtain ⟨key, value⟩ := field
  cases value with
  | scalar value =>
    refine List.forall_mem_singleton.mpr fun hmark => ?_
    have hline : key ++ ':' :: ' ' :: value = (key ++ [':', ' ']) ++ value := by simp
    rw [hline] at hmark
    exact hscalar value rfl (dashes_value (key_dash hkey) hmark)
  | block items =>
    refine List.forall_mem_cons.mpr ⟨fun hmark => ?_, fun line hline hmark => ?_⟩
    · have hdash : '-' ∉ key ++ [':'] := by simpa using hkey.dash
      exact hdash (hmark.subset List.mem_cons_self)
    · obtain ⟨item, hitem, rfl⟩ := List.mem_map.mp hline
      exact hblock items rfl item hitem (dashes_item hmark)

variable {listText : List Text → Text}

/-- Fields that are all read give back what frontmatter can carry. -/
theorem recovered_of_readable (hfields : fields.Perm metadata.fields) (hplain : metadata.Plain)
    (h : metadata.Readable) :
    Recovered listText metadata (parse {} (fields.flatMap fieldLines)).result := by
  have hkeys := isKey_of_perm hfields
  have hnodup := nodup_of_perm hfields
  have hpositive := (valid_name h.valid).2
  obtain ⟨hscalars, hblocks⟩ := plain_of_perm hfields hplain hpositive
  have hmem := fun field => (hfields.mem_iff (a := field)).trans mem_fields
  refine ⟨fun entry hentry => ?_, fun entry hentry => ?_, ?_⟩
  · have hfield := (hmem _).mpr (.inl ⟨entry, hentry, rfl⟩)
    have hread := lookup_scalar hkeys hnodup hfield (hscalars _ _ hfield)
    rw [(h.texts entry hentry).2] at hread
    unfold fieldText
    rw [hread]
  · have hfield := (hmem _).mpr (.inr (.inl ⟨entry, hentry, rfl⟩))
    have hread := lookup_block hkeys hnodup hfield (hblocks _ _ hfield)
      fun item hitem => (h.items entry hentry item hitem).2
    unfold fieldList
    rw [hread]
    split_ifs with hnil
    · exact hnil.symm
    · rfl
  · have hfield := (hmem _).mpr (.inr (.inr rfl))
    have hread := lookup_scalar hkeys hnodup hfield (hscalars _ _ hfield)
    obtain ⟨n, hn⟩ := Int.eq_ofNat_of_zero_le hpositive
    have hlimit := h.priority
    have hdigits : intText metadata.priority = Nat.toDigits 10 n := by
      rw [hn]
      rfl
    have hnoitem : listItem (Nat.toDigits 10 n) = none := by
      obtain ⟨c, rest, hcons⟩ := List.exists_cons_of_ne_nil (@Nat.toDigits_ne_nil n 10)
      have hdash : c ≠ '-' := fun heq =>
        dash_toDigits n (by rw [hcons, heq]; exact List.mem_cons_self)
      rw [hcons]
      unfold listItem
      split
      · rename_i heq
        exact absurd (List.cons.inj heq).1 hdash
      · rfl
    rw [hdigits, hnoitem] at hread
    rw [hn, Int.natAbs_natCast] at hlimit
    unfold fieldInt
    rw [hread]
    dsimp only
    rw [coerceInt_toDigits hlimit, hn]

/-- When all fields are read, what is recovered is what frontmatter can carry. -/
theorem items_of_recovered (hfields : fields.Perm metadata.fields) (hplain : metadata.Plain)
    (hpositive : 0 ≤ metadata.priority)
    (hlist : ∀ items, (listText items).head? = some '[')
    (h : Recovered listText metadata (parse {} (fields.flatMap fieldLines)).result) :
    (∀ entry ∈ metadata.texts, listItem entry.2.2 = none) ∧
      ∀ entry ∈ metadata.blocks, ∀ item ∈ entry.2, ':' ∉ item := by
  have hkeys := isKey_of_perm hfields
  have hnodup := nodup_of_perm hfields
  obtain ⟨hscalars, -⟩ := plain_of_perm hfields hplain hpositive
  have hmem := fun field => (hfields.mem_iff (a := field)).trans mem_fields
  constructor
  · intro entry hentry
    have hfield := (hmem _).mpr (.inl ⟨entry, hentry, rfl⟩)
    have hread := lookup_scalar hkeys hnodup hfield (hscalars _ _ hfield)
    have htext := h.texts entry hentry
    by_contra hsome
    obtain ⟨item, hitem⟩ := Option.ne_none_iff_exists'.mp hsome
    rw [hitem] at hread
    unfold fieldText at htext
    rw [hread] at htext
    dsimp only at htext
    have hhead := hlist [rawValue item]
    rw [htext] at hhead
    unfold listItem at hitem
    split at hitem
    · rename_i heq
      rw [heq] at hhead
      exact absurd (Option.some.inj hhead) (by decide)
    · cases hitem
  · intro entry hentry
    have hfield := (hmem _).mpr (.inr (.inl ⟨entry, hentry, rfl⟩))
    have hread := lookup_weight hkeys hnodup hfield
    rw [← weight_fieldList, h.blocks entry hentry] at hread
    exact colon_of_share hread

/-- A text that is cut at its mark is not given back. -/
theorem fieldText_cut (hlist : ∀ items, (listText items).head? = some '[')
    {data : List (Text × FieldValue)} {key : String} {default value part behind : Text}
    (hvalue : PlainValue value) (hcut : value = part ++ dashes ++ behind)
    (hdefault : ¬dashes <:+: default)
    (hread : data.lookup key.toList = if strip part = [] ∨ strip part = ['|'] then none
      else match listItem (strip part) with
        | some item => some (.block [rawValue item])
        | none => some (.scalar (rawValue (strip part)))) :
    (match data.lookup key.toList with
      | none => default
      | some (.scalar found) => found
      | some (.block items) => listText items) ≠ value := by
  have hmark : dashes <:+: value := ⟨part, behind, hcut.symm⟩
  have hshort : part.length < value.length := by
    rw [hcut, List.length_append, List.length_append]
    have hthree : dashes.length = 3 := rfl
    omega
  rw [hread]
  split_ifs with hnone
  · intro heq
    have hsame : default = value := heq
    exact hdefault (hsame ▸ hmark)
  · intro heq
    rw [not_or] at hnone
    cases hitem : listItem (strip part) with
    | none =>
      rw [hitem] at heq
      have hle := (length_rawValue_le (strip part)).trans (length_strip_le part)
      have hlength := congrArg List.length heq
      dsimp only at hlength
      omega
    | some item =>
      rw [hitem] at heq
      have hhead : value.head? = some '[' := by
        rw [← heq]
        exact hlist _
      -- the value begins as its part does, which begins with a dash
      cases hpart : part with
      | nil => exact hnone.1 (by rw [hpart]; rfl)
      | cons c rest =>
        have hfirst : value.head? = some c := by
          rw [hcut, hpart]
          rfl
        have hspace : isSpace c = false :=
          @head_strip value c (by rw [hvalue.stripped, hfirst])
        rw [hpart, strip_cons hspace] at hitem
        rw [hfirst] at hhead
        rw [Option.some.inj hhead] at hitem
        cases hitem

/-- A list that is cut in one of its items is not given back. -/
theorem weight_cut {key : Text} (hkey : IsKey key) {parsing : Parsing}
    (hnone : parsing.result.lookup key = none) {items before after : List Text}
    {part behind : Text} (hitems : items = before ++ (part ++ dashes ++ behind) :: after) :
    weight ((parse (parsing.line (key ++ [':'])) (itemLines (before ++ [part]))).result.lookup key) <
      (items.map fun item => item.length + 1).sum := by
  have hstart : (parsing.line (key ++ [':'])).result.lookup key = none := by
    rw [line_key _ hkey []]
    exact hnone
  have hweight := parse_itemLines_weight hkey.head (before ++ [part]) (parsing.line (key ++ [':']))
  rw [hstart] at hweight
  have hle : ((before ++ [part]).map share).sum ≤
      ((before ++ [part]).map fun item => item.length + 1).sum := by
    refine List.sum_le_sum fun item _ => ?_
    unfold share
    split_ifs <;> omega
  have hzero : weight none = 0 := rfl
  have hthree : dashes.length = 3 := rfl
  have hsplit : ((before ++ [part]).map fun item => item.length + 1).sum =
      (before.map fun item => item.length + 1).sum + (part.length + 1) := by
    rw [List.map_append, List.sum_append, List.map_singleton, List.sum_singleton]
  rw [hitems, List.map_append, List.sum_append, List.map_cons, List.sum_cons,
    List.length_append, List.length_append]
  omega

theorem defaults_no_dashes : ∀ entry ∈ metadata.texts, ¬dashes <:+: entry.2.1.toList := by
  have hnone : ∀ default ∈ ["", "1", "active"], ¬dashes <:+: default.toList := by decide
  intro entry hentry
  refine hnone _ ?_
  simp only [texts, List.mem_cons, List.not_mem_nil, or_false] at hentry
  rcases hentry with rfl | rfl | rfl | rfl | rfl | rfl | rfl <;> simp

/-- When the fields are cut in one of their lines, something is not recovered. -/
theorem not_recovered_of_cut (hfields : fields.Perm metadata.fields) (hplain : metadata.Plain)
    (hpositive : 0 ≤ metadata.priority) (hlist : ∀ items, (listText items).head? = some '[')
    {before after : List Text} {front behind : Text}
    (hlines : fields.flatMap fieldLines = before ++ (front ++ dashes ++ behind) :: after) :
    ¬Recovered listText metadata (parse {} (before ++ [front])).result := by
  intro h
  obtain ⟨first, field, last, b, a, heq, hfield, hbefore⟩ := flatMap_split fieldLines hlines
  have hkeys := isKey_of_perm hfields
  have hnodup := nodup_of_perm hfields
  obtain ⟨hscalars, -⟩ := plain_of_perm hfields hplain hpositive
  obtain ⟨hnone, -⟩ := lookup_own hkeys hnodup heq
  have hmember : field ∈ fields := by
    rw [heq]
    exact List.mem_append_right _ List.mem_cons_self
  have hkey := hkeys field hmember
  rw [hbefore, List.append_assoc, parse_append] at h
  generalize hparsing : parse {} (first.flatMap fieldLines) = parsing at h hnone
  obtain ⟨key, value⟩ := field
  cases value with
  | scalar value =>
    have hline : b = [] ∧ front ++ dashes ++ behind = key ++ ':' :: ' ' :: value := by
      cases b with
      | nil => exact ⟨rfl, (List.cons.inj hfield).1.symm⟩
      | cons c b => exact absurd (List.cons.inj hfield).2 (by simp)
    have hmore : key ++ ':' :: ' ' :: value = (key ++ [':', ' ']) ++ value := by simp
    obtain ⟨part, hfront, hcut⟩ := cut_behind (key_dash hkey) (hline.2.trans hmore)
    rcases mem_fields.mp (hfields.subset hmember) with ⟨entry, hentry, hsame⟩ | ⟨_, _, hsame⟩ | hsame
    · cases hsame
      have hread := parse_scalar hkey parsing part
      have hlookup : parsing.result.lookup entry.1.toList = none := hnone
      rw [hlookup] at hread
      rw [hline.1, hfront, List.nil_append] at h
      have hline' : entry.1.toList ++ [':', ' '] ++ part = entry.1.toList ++ ':' :: ' ' :: part := by
        simp
      rw [hline'] at h
      exact fieldText_cut hlist (hplain.texts entry hentry) hcut (defaults_no_dashes entry hentry)
        hread (h.texts entry hentry)
    · cases hsame
    · cases hsame
      exact dashes_intText hpositive ⟨part, behind, hcut.symm⟩
  | block items =>
    cases b with
    | nil =>
      have hheader : key ++ [':'] = front ++ dashes ++ behind := (List.cons.inj hfield).1
      have hdash : '-' ∉ key ++ [':'] := by simpa using hkey.dash
      refine absurd ?_ hdash
      rw [hheader]
      exact List.mem_append_left _ (List.mem_append_right _ List.mem_cons_self)
    | cons c b =>
      obtain ⟨hheader, hitems⟩ := List.cons.inj hfield
      obtain ⟨items₁, rest, hsplit, hb, hrest⟩ := List.map_eq_append_iff.mp hitems
      obtain ⟨item, items₂, hcons, hitem, -⟩ := List.map_eq_cons_iff.mp hrest
      obtain ⟨part, hfront, hcut⟩ := cut_item hitem.symm
      rcases mem_fields.mp (hfields.subset hmember) with ⟨_, _, hsame⟩ | ⟨entry, hentry, hsame⟩ | hsame
      · cases hsame
      · cases hsame
        have hlist' : entry.2 = items₁ ++ (part ++ dashes ++ behind) :: items₂ := by
          rw [hsplit, hcons, hcut]
        have hless := weight_cut hkey hnone hlist'
        have hlines' : c :: b ++ [front] = (entry.1.toList ++ [':']) :: itemLines (items₁ ++ [part]) := by
          rw [← hheader, ← hb, hfront, itemLines, List.map_append]
          rfl
        rw [hlines'] at h
        have hwhole := weight_fieldList
          (parse parsing ((entry.1.toList ++ [':']) :: itemLines (items₁ ++ [part]))).result entry.1
        rw [h.blocks entry hentry] at hwhole
        exact absurd hwhole (Nat.ne_of_gt hless)
      · cases hsame

/-- Metadata is read back as it was written exactly when it is valid, no text or item contains
three dashes, no item a colon, and no text begins with a dash and white space. -/
theorem fromFrontmatter_written_iff (listText : List Text → Text)
    (hlist : ∀ items, (listText items).head? = some '[') (metadata : SkillMetadata)
    (hplain : metadata.Plain) (fields : List (Text × FieldValue))
    (hfields : fields.Perm metadata.fields) (body : Text) :
    fromFrontmatter listText (written fields body) = .ok metadata ↔ metadata.Readable := by
  rw [fromFrontmatter_eq_iff]
  have hlines : 0 ≤ metadata.priority → ∀ line ∈ fields.flatMap fieldLines, IsLine line := by
    intro hpositive line hline
    obtain ⟨hscalars, hblocks⟩ := plain_of_perm hfields hplain hpositive
    obtain ⟨field, hfield, hline⟩ := List.mem_flatMap.mp hline
    refine isLine_fieldLines (isKey_of_perm hfields field hfield) ?_ ?_ line hline
    · exact fun value heq => (hscalars field.1 value (heq ▸ hfield)).line
    · exact fun items heq item hitem => (hblocks field.1 items (heq ▸ hfield) item hitem).line
  constructor
  · rintro ⟨hvalid, h⟩
    have hpositive := (valid_name hvalid).2
    have hlimit : metadata.priority.natAbs < intLimit :=
      priority_lt ((fromFrontmatter_eq_iff listText _).mpr ⟨hvalid, h⟩)
    rcases parseFrontmatter_written (hlines hpositive) body with
      ⟨hnone, heq⟩ | ⟨before, front, behind, after, hcut, heq⟩
    · rw [heq] at h
      obtain ⟨htexts, hitems⟩ := items_of_recovered hfields hplain hpositive hlist h
      refine ⟨hvalid, hlimit, fun entry hentry => ⟨fun hmark => ?_, htexts entry hentry⟩,
        fun entry hentry item hitem => ⟨fun hmark => ?_, hitems entry hentry item hitem⟩⟩
      · have hfield := hfields.mem_iff.mpr (mem_fields.mpr (.inl ⟨entry, hentry, rfl⟩))
        refine hnone _ (List.mem_flatMap.mpr ⟨_, hfield, List.mem_cons_self⟩) (hmark.trans ?_)
        exact ((List.suffix_cons ' ' _).trans (List.suffix_cons ':' _)).trans
          (List.suffix_append _ _) |>.isInfix
      · have hfield := hfields.mem_iff.mpr (mem_fields.mpr (.inr (.inl ⟨entry, hentry, rfl⟩)))
        refine hnone _ (List.mem_flatMap.mpr ⟨_, hfield, List.mem_cons_of_mem _
          (List.mem_map_of_mem hitem)⟩) (hmark.trans ?_)
        exact (((List.suffix_cons ' ' item).trans (List.suffix_cons '-' _)).trans
          (List.suffix_cons ' ' _)).trans (List.suffix_cons ' ' _) |>.isInfix
    · rw [heq] at h
      exact absurd h (not_recovered_of_cut hfields hplain hpositive hlist hcut)
  · intro h
    have hpositive := (valid_name h.valid).2
    refine ⟨h.valid, ?_⟩
    rcases parseFrontmatter_written (hlines hpositive) body with
      ⟨-, heq⟩ | ⟨before, front, behind, after, hcut, -⟩
    · rw [heq]
      exact recovered_of_readable hfields hplain h
    · -- no line has the mark
      have hline : front ++ dashes ++ behind ∈ fields.flatMap fieldLines := by
        rw [hcut]
        exact List.mem_append_right _ List.mem_cons_self
      obtain ⟨field, hfield, hline⟩ := List.mem_flatMap.mp hline
      refine absurd ⟨front, behind, rfl⟩ (dashes_fieldLines (isKey_of_perm hfields field hfield)
        ?_ ?_ _ hline)
      · intro value hvalue
        rcases mem_fields.mp (hfields.subset hfield) with ⟨entry, hentry, rfl⟩ | ⟨_, _, rfl⟩ | rfl
        · cases hvalue
          exact (h.texts entry hentry).1
        · cases hvalue
        · cases hvalue
          exact dashes_intText hpositive
      · intro items hitems item hitem
        rcases mem_fields.mp (hfields.subset hfield) with ⟨_, _, rfl⟩ | ⟨entry, hentry, rfl⟩ | rfl
        · cases hitems
        · cases hitems
          exact (h.items entry hentry item hitem).1
        · cases hitems

end Recovery

section Samples

/-- A skill with two triggers. -/
def reviewSkill (trigger : String) : SkillMetadata where
  name := "review".toList
  description := "Reviews code: style and tests".toList
  triggers := ["review".toList, trigger.toList]
  owner := "core".toList
  updatedAt := "2026-01-01".toList

theorem plainValue_cons {c : Char} {rest : Text} (hstart : c ∉ ['"', '\'', '#', '|', '-'])
    (hstripped : strip (c :: rest) = c :: rest) (hline : IsLine (c :: rest)) :
    PlainValue (c :: rest) := by
  refine ⟨List.cons_ne_nil _ _, hstripped, hline, ?_, ?_⟩
  · rintro start hmem heq
    cases heq
    simp only [List.mem_cons, List.not_mem_nil, or_false] at hmem hstart
    tauto
  · have hdash : c ≠ '-' := by
      rintro rfl
      simp at hstart
    show (('-' == c) && _) = false
    rw [Bool.and_eq_false_iff]
    exact .inl (beq_false_of_ne hdash.symm)

theorem plain_reviewSkill {trigger : String} (h : PlainValue trigger.toList) :
    (reviewSkill trigger).Plain := by
  constructor
  · intro entry hentry
    simp only [texts, reviewSkill, List.mem_cons, List.not_mem_nil, or_false] at hentry
    rcases hentry with rfl | rfl | rfl | rfl | rfl | rfl | rfl <;>
      exact plainValue_cons (by decide) (by decide) (by decide)
  · intro entry hentry item hitem
    simp only [blocks, reviewSkill, List.mem_cons, List.not_mem_nil, or_false] at hentry
    rcases hentry with rfl | rfl | rfl
    · simp only [List.mem_cons, List.not_mem_nil, or_false] at hitem
      rcases hitem with rfl | rfl
      · exact plainValue_cons (by decide) (by decide) (by decide)
      · exact h
    · cases hitem
    · cases hitem

/-- The description with a colon is read back. -/
theorem fromFrontmatter_reviewSkill :
    fromFrontmatter (fun _ => ['[']) (written (reviewSkill "style").fields "\nSteps".toList) =
      .ok (reviewSkill "style") ↔ (reviewSkill "style").Readable :=
  fromFrontmatter_written_iff (fun _ => ['[']) (fun _ => rfl) (reviewSkill "style")
    (plain_reviewSkill (plainValue_cons (by decide) (by decide) (by decide)))
    (reviewSkill "style").fields (List.Perm.refl _) "\nSteps".toList

set_option maxRecDepth 20000 in
/-- A trigger with a colon is lost. -/
theorem fromFrontmatter_drops_trigger :
    (reviewSkill "docs:style").Plain ∧
      (reviewSkill "docs:style").validate = .ok (reviewSkill "docs:style") ∧
      (fromFrontmatter (fun _ => ['[']) (written (reviewSkill "docs:style").fields [])).toOption.map
        SkillMetadata.triggers = some ["review".toList] :=
  ⟨plain_reviewSkill (plainValue_cons (by decide) (by decide) (by decide)), rfl, by decide⟩

end Samples

end SkillMetadata

end AiosDeck.Knowledge
