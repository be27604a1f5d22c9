import StreamSql.Text.Blank

/-!
# Positions in YAML text

A cursor is what is left of a text, with the line and the column it begins at. The blocks of a
document are told apart by the columns of their first characters.
-/
namespace StreamSql.Yaml

structure Cursor where
  line : Nat
  column : Nat
  rest : List Char

def isSpace (c : Char) : Bool :=
  c == ' ' || c == '\t'

/-- Whether a word ends before these characters. -/
def endsWord : List Char → Bool
  | [] => true
  | c :: _ => isSpace c || c == '\n'

namespace Cursor

/-- The cursor behind `n` characters of one line. -/
def skip (c : Cursor) (n : Nat) : Cursor :=
  ⟨c.line, c.column + n, c.rest.drop n⟩

def skipSpaces (c : Cursor) : Cursor :=
  c.skip (c.rest.takeWhile isSpace).length

/-- Nothing but a comment may follow on the line. -/
def atLineEnd (c : Cursor) : Bool :=
  match c.rest with
  | [] => true
  | x :: _ => x == '\n' || x == '#'

/-- Skips spaces, line ends and comments. At the beginning of a line a tab counts as a space only
between brackets. -/
def skipGap (bracketed : Bool) : (inComment fresh : Bool) → (line column : Nat) → List Char → Cursor
  | _, _, line, column, [] => ⟨line, column, []⟩
  | inComment, fresh, line, column, c :: cs =>
    if c == '\n' then skipGap bracketed false true (line + 1) 0 cs
    else if inComment || c == ' ' || (c == '\t' && (bracketed || !fresh)) then
      skipGap bracketed inComment fresh line (column + 1) cs
    else if c == '#' then skipGap bracketed true fresh line (column + 1) cs
    else ⟨line, column, c :: cs⟩

/-- The cursor at what comes next. -/
def advance (bracketed : Bool) (c : Cursor) : Cursor :=
  skipGap bracketed false false c.line c.column c.rest

/-- A sequence item begins here. -/
def atItem (c : Cursor) : Bool :=
  match c.rest with
  | '-' :: cs => endsWord cs
  | _ => false

/-- A key has ended here, and its value follows the colon. -/
def atColon (c : Cursor) : Bool :=
  match c.rest with
  | ':' :: cs => endsWord cs
  | _ => false

end Cursor

/-- What stands between two words of a scalar comes to: one line end is a space, and of more line
ends all but one are kept. -/
def folded (lineEnds : Nat) (spaces : List Char) : List Char :=
  match lineEnds with
  | 0 => spaces
  | 1 => [' ']
  | n + 2 => List.replicate (n + 1) '\n'

end StreamSql.Yaml
