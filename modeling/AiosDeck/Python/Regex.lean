import AiosDeck.Python.Text

/-!
# Backtracking regular expressions

The fragment of `re` that the modelled patterns use. A pattern yields all
its matches at the start of a text in the order in which backtracking finds
them; the first one is the match. A capture is kept under its name.
-/

namespace AiosDeck.Python

/-- Patterns. -/
inductive Regex where
  | empty
  | chars (accepts : Char → Bool)
  | seq (first second : Regex)
  | alt (first second : Regex)
  /-- Repetition, greedy (`*`) or reluctant (`*?`). -/
  | star (greedy : Bool) (body : Regex)
  | capture (name : String) (body : Regex)
  /-- `$`: the end, or before a final newline. -/
  | textEnd

namespace Regex

/-- One way to match: the text left, and the captures made. -/
structure Match where
  rest : Text
  captures : List (String × Text) := []
  deriving DecidableEq, Repr

/-- Repetitions of `body`; each must consume, so `fuel` bounds their number. -/
def repeated (greedy : Bool) (body : Match → List Match) : ℕ → Match → List Match
  | 0, start => [start]
  | fuel + 1, start =>
    let more := (body start).flatMap fun next =>
      if next.rest.length < start.rest.length then repeated greedy body fuel next else []
    if greedy then more ++ [start] else start :: more

/-- All matches at the start, in backtracking order. -/
def successes : Regex → Match → List Match
  | .empty, start => [start]
  | .chars accepts, start =>
    match start.rest with
    | [] => []
    | c :: rest => if accepts c then [{ start with rest }] else []
  | .seq first second, start => (successes first start).flatMap (successes second)
  | .alt first second, start => successes first start ++ successes second start
  | .star greedy body, start => repeated greedy (successes body) start.rest.length start
  | .capture name body, start =>
    (successes body start).map fun found => { found with
      captures := (name, start.rest.take (start.rest.length - found.rest.length)) ::
        found.captures }
  | .textEnd, start => if start.rest = [] ∨ start.rest = ['\n'] then [start] else []

/-- `pattern.match(text)`. -/
def match? (pattern : Regex) (text : Text) : Option Match :=
  (successes pattern { rest := text }).head?

/-- `pattern.search(text)`: the match at the earliest position. -/
def search (pattern : Regex) : Text → Option Match
  | [] => pattern.match? []
  | c :: rest =>
    match pattern.match? (c :: rest) with
    | some found => some found
    | none => search pattern rest

/-- `match.group(name)`, empty when the group took no part. -/
def Match.group (found : Match) (name : String) : Text := (found.captures.lookup name).getD []

/-- One given character. -/
def char (c : Char) : Regex := .chars (· == c)

/-- A literal text. -/
def literal (text : Text) : Regex := text.foldr (fun c rest => .seq (char c) rest) .empty

/-- `body+`. -/
def plus (body : Regex) : Regex := .seq body (.star true body)

/-- `body?`. -/
def optional (body : Regex) : Regex := .alt body .empty

/-- Patterns one after the other. -/
def all (patterns : List Regex) : Regex := patterns.foldr .seq .empty

/-- `.`: any character but a newline. -/
def dot : Regex := .chars (· != '\n')

/-- `\d`. -/
def digit : Regex := .chars isDecimal

/-- `\s`. -/
def space : Regex := .chars isSpace

end Regex

end AiosDeck.Python
