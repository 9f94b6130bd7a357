import AiosDeck.Python.Objects
import AiosDeck.Python.Regex
import AiosDeck.Python.Sha256

/-!
# Chunking and hashing

Documents are cut at headings or at top-level symbols, and long pieces at a
window of fixed size. Boundaries are found in the raw text; what is stored
of a chunk is normalised afterwards.
-/

namespace AiosDeck.Knowledge

open Python

/-- `_MAX_CHUNK_CHARS`. -/
def maxChunkChars : ℕ := 4096

/-- `_OVERLAP_CHARS`. -/
def overlapChars : ℕ := 200

/-- `_MAX_BLANK_RUN`. -/
def maxBlankRun : ℕ := 2

section Normalization

/-- `.replace("\r\n", "\n").replace("\r", "\n")`. -/
def unifyNewlines : Text → Text
  | [] => []
  | '\r' :: '\n' :: rest => '\n' :: unifyNewlines rest
  | '\r' :: rest => '\n' :: unifyNewlines rest
  | c :: rest => c :: unifyNewlines rest

/-- Lines joined with newlines. -/
def joinLines (lines : List Text) : Text := ['\n'].intercalate lines

/-- Blank lines behind a run of `blankRun` blank lines. -/
def collapseRuns : ℕ → List Text → List Text
  | _, [] => []
  | blankRun, line :: rest =>
    if line = [] then
      if blankRun + 1 ≤ maxBlankRun then line :: collapseRuns (blankRun + 1) rest
      else collapseRuns (blankRun + 1) rest
    else line :: collapseRuns 0 rest

/-- `_collapse_blank_lines`. -/
def collapseBlankLines (text : Text) : Text :=
  let lines := (text.splitOn '\n').map rstrip
  let lines := (lines.reverse.dropWhile (· = [])).reverse
  joinLines ((collapseRuns 0 lines).dropWhile (· = []))

/-- `normalize_content`. -/
def normalizeContent (text : Text) : Text :=
  collapseBlankLines (joinLines ((splitlines text).map fun line => unifyNewlines (rstrip line)))

/-- `content_hash`. -/
def contentHash (text : Text) : Text := sha256 (normalizeContent text)

/-- `token_estimate`. -/
def tokenEstimate (text : Text) : ℕ := (words text).length

end Normalization

section Windows

/-- The end of a window that does not reach the end of the text: behind the
last paragraph, line or sentence that ends within the overlap. -/
def breakPoint (text : Text) (overlap start stop : ℕ) : ℕ :=
  let findFrom := max start (stop - overlap)
  let found := rfind text ['\n', '\n'] findFrom stop <|> rfind text ['\n'] findFrom stop <|>
    rfind text ['.', ' '] findFrom stop
  match found with
  | some i => if start < i then i + 1 else stop
  | none => stop

/-- The end of the window that starts here. -/
def windowEnd (text : Text) (maxChars overlap start : ℕ) : ℕ :=
  let stop := min (start + maxChars) text.length
  if stop < text.length then breakPoint text overlap start stop else stop

/-- The loop of `_chunk_by_size`, for at most `fuel` windows. -/
def windows (text : Text) (maxChars overlap : ℕ) : ℕ → ℕ → List Text
  | 0, _ => []
  | fuel + 1, start =>
    if start < text.length then
      let stop := windowEnd text maxChars overlap start
      let chunk := strip (slice text start stop)
      let next := if stop < text.length then stop - overlap else stop
      (if chunk = [] then [] else [chunk]) ++ windows text maxChars overlap fuel next
    else []

/-- `_chunk_by_size`. -/
def chunkBySize (text : Text) (maxChars overlap : ℕ) : List Text :=
  if text = [] ∨ strip text = [] then []
  else if text.length ≤ maxChars then [strip text]
  else windows text maxChars overlap text.length 0

end Windows

section Boundaries

/-- Up to `n` repetitions, as many as possible first. -/
def upTo (body : Regex) : ℕ → Regex
  | 0 => .empty
  | n + 1 => .optional (.seq body (upTo body n))

/-- `_HEADING_RE` behind its anchor. -/
def headingRe : Regex :=
  .all [.char '#', upTo (.char '#') 5, .plus .space, .plus .dot]

/-- `_SYMBOL_RE` behind its anchor. -/
def symbolRe : Regex :=
  .alt (.literal "class ".toList) (.alt (.literal "def ".toList) (.literal "async def ".toList))

/-- A match: where it starts and how long it is. -/
structure Span where
  start : ℕ
  length : ℕ
  deriving DecidableEq, Repr

/-- `pattern.finditer(text)` for a pattern anchored to the start of a line,
from a position on; the next `skip` characters belong to the last match. -/
def lineMatches (pattern : Regex) : ℕ → Bool → ℕ → Text → List Span
  | _, _, _, [] => []
  | pos, _, skip + 1, c :: rest => lineMatches pattern (pos + 1) (c = '\n') skip rest
  | pos, lineStart, 0, c :: rest =>
    match if lineStart then pattern.match? (c :: rest) else none with
    | some found =>
      let length := (c :: rest).length - found.rest.length
      ⟨pos, length⟩ :: lineMatches pattern (pos + 1) (c = '\n') (length - 1) rest
    | none => lineMatches pattern (pos + 1) (c = '\n') 0 rest

/-- The chunks of the section between a match and the next one. -/
def sectionChunks (text : Text) (found : Span) (stop : ℕ) : List Text :=
  let whole := strip (slice text found.start stop)
  if maxChunkChars < whole.length then
    let body := strip (slice text (found.start + found.length) stop)
    strip (slice text found.start (found.start + found.length)) ::
      chunkBySize body maxChunkChars overlapChars
  else [whole]

/-- Cut a text at the matches of a pattern; what stands before the first
match is cut by `preambleChunks`. -/
def chunkAtMatches (pattern : Regex) (preambleChunks : Text → List Text) (text : Text) :
    List Text :=
  match lineMatches pattern 0 true 0 text with
  | [] => chunkBySize text maxChunkChars overlapChars
  | first :: rest =>
    let preamble := strip (text.take first.start)
    let before := if 0 < first.start ∧ preamble ≠ [] then preambleChunks preamble else []
    let stops := rest.map Span.start ++ [text.length]
    let sections := ((first :: rest).zip stops).flatMap fun part =>
      sectionChunks text part.1 part.2
    (before ++ sections).filter fun chunk => strip chunk ≠ []

/-- `_chunk_markdown`. -/
def chunkMarkdown (text : Text) : List Text :=
  chunkAtMatches headingRe (fun preamble => chunkBySize preamble maxChunkChars overlapChars) text

/-- `_chunk_code`: a preamble is one chunk, however long. -/
def chunkCode (text : Text) : List Text := chunkAtMatches symbolRe (fun preamble => [preamble]) text

end Boundaries

/-- A dictionary with keys of any kind, in the order of insertion. -/
abbrev Metadata := List (DictKey × PyVal)

/-- A `str` as a value. -/
def textVal (text : Text) : PyVal := .str (text.map Char.toNat)

/-- Whether two keys are the same string. -/
def sameText : DictKey → DictKey → Bool
  | .str first, .str second => first = second
  | _, _ => false

/-- `dictionary[key] = value`: a string key that is there keeps its place. -/
def setKey (key : DictKey) (value : PyVal) (fields : Metadata) : Metadata :=
  if fields.any (fun field => sameText key field.1) then
    fields.map fun field => if sameText key field.1 then (field.1, value) else field
  else fields ++ [(key, value)]

/-- `{**first, **second}`. -/
def mergeFields (first second : Metadata) : Metadata :=
  second.foldl (fun fields field => setKey field.1 field.2 fields) first

/-- One chunk of a document, as `chunk_text` returns it. -/
structure Chunk where
  chunkId : Text
  content : Text
  contentHash : Text
  position : ℕ
  tokenEstimate : ℕ
  metadata : Metadata

/-- `deterministic_chunk_id`. -/
def deterministicChunkId (sourceId : Text) (position : ℕ) : Text :=
  sha256 (sourceId ++ [':'] ++ (toString position).toList)

/-- `chunk_text`. -/
def chunkText (content sourceType sourceId : Text) (docMetadata : Metadata) : List Chunk :=
  let raw := if sourceType = "code".toList then chunkCode content else chunkMarkdown content
  raw.mapIdx fun pos chunkContent =>
    let norm := normalizeContent chunkContent
    { chunkId := deterministicChunkId sourceId pos
      content := norm
      contentHash := sha256 norm
      position := pos
      tokenEstimate := tokenEstimate norm
      metadata := setKey (.str (points "position")) (.int pos) docMetadata }

end AiosDeck.Knowledge
