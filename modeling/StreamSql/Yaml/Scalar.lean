import StreamSql.Yaml.Cursor

/-!
# YAML scalars

A scalar is plain or stands between quotes. It may go on over several lines, which are folded.
-/
namespace StreamSql.Yaml

/-- The characters and the cursor behind them. -/
abbrev Scanned := Option (List Char × Cursor)

/-! ## Quoted scalars -/

def hexValue? (c : Char) : Option Nat :=
  if c.isDigit then some (c.toNat - '0'.toNat)
  else if 'a' ≤ c && c ≤ 'f' then some (c.toNat - 'a'.toNat + 10)
  else if 'A' ≤ c && c ≤ 'F' then some (c.toNat - 'A'.toNat + 10)
  else none

/-- The character of a code in hexadecimal digits. -/
def charOfHex? (digits : List Char) : Option Char := do
  let values ← digits.mapM hexValue?
  let code := values.foldl (fun code value => 16 * code + value) 0
  if code.isValidChar then some (Char.ofNat code) else none

/-- The characters that a letter behind a backslash stands for. -/
def escapes : List (Char × Char) :=
  [('0', '\x00'), ('a', '\x07'), ('b', '\x08'), ('t', '\t'), ('\t', '\t'), ('n', '\n'),
    ('v', '\x0b'), ('f', '\x0c'), ('r', '\r'), ('e', '\x1b'), (' ', ' '), ('"', '"'), ('/', '/'),
    ('\\', '\\'), ('N', '\u0085'), ('_', '\u00a0'), ('L', '\u2028'), ('P', '\u2029')]

/-- How many hexadecimal digits follow a letter behind a backslash. -/
def hexLength? : Char → Option Nat
  | 'x' => some 2
  | 'u' => some 4
  | 'U' => some 8
  | _ => none

/-- The character of an escape, and how many characters follow its letter. -/
def escape? (letter : Char) (rest : List Char) : Option (Char × Nat) :=
  match hexLength? letter with
  | some n =>
    if rest.length < n then none else (charOfHex? (rest.take n)).map (·, n)
  | none => (escapes.lookup letter).map (·, 0)

/-- The first piece of a quoted scalar: one character with what it takes in the text. -/
inductive Piece where
  | char (c : Char) (length : Nat)
  | closing

def singlePiece? : List Char → Option Piece
  | '\'' :: '\'' :: _ => some (.char '\'' 2)
  | '\'' :: _ => some .closing
  | c :: _ => some (.char c 1)
  | [] => none

def doublePiece? : List Char → Option Piece
  | '"' :: _ => some .closing
  | '\\' :: letter :: rest => (escape? letter rest).map fun (c, n) => .char c (n + 2)
  | '\\' :: [] => none
  | c :: _ => some (.char c 1)
  | [] => none

/-- Reads up to the closing quote. Spaces and line ends are held back until a piece follows. -/
def readQuoted (piece? : List Char → Option Piece) :
    (fuel lineEnds : Nat) → (spaces : List Char) → Cursor → Scanned
  | 0, _, _, _ => none
  | fuel + 1, lineEnds, spaces, cursor =>
    match cursor.rest with
    | [] => none
    | c :: cs =>
      if c == '\n' then readQuoted piece? fuel (lineEnds + 1) [] ⟨cursor.line + 1, 0, cs⟩
      else if isSpace c then readQuoted piece? fuel lineEnds (spaces ++ [c]) (cursor.skip 1)
      else
        match piece? (c :: cs) with
        | none => none
        | some .closing => some (folded lineEnds spaces, cursor.skip 1)
        | some (.char x n) =>
          (readQuoted piece? fuel 0 [] (cursor.skip n)).map fun (xs, behind) =>
            (folded lineEnds spaces ++ x :: xs, behind)

/-- The scalar behind an opening quote. -/
def quoted (double : Bool) (cursor : Cursor) : Scanned :=
  readQuoted (if double then doublePiece? else singlePiece?) (cursor.rest.length + 1) 0 [] cursor

/-! ## Plain scalars -/

def isBracket (c : Char) : Bool :=
  c == ',' || c == '[' || c == ']' || c == '\x7b' || c == '\x7d'

def indicators : List Char :=
  [',', '[', ']', '\x7b', '\x7d', '#', '&', '*', '!', '|', '>', '\'', '"', '%', '@', '\x60']

/-- Whether a plain scalar may begin here. -/
def beginsPlain (bracketed : Bool) : List Char → Bool
  | [] => false
  | c :: cs =>
    if c == '-' then !endsWord cs
    else if c == '?' || c == ':' then !bracketed && !endsWord cs
    else !indicators.contains c && !isSpace c && c != '\n'

/-- The length of a word of a plain scalar. Between brackets, a colon needs a space behind it. -/
def wordLength? (bracketed : Bool) : List Char → Option Nat
  | [] => some 0
  | c :: cs =>
    if isSpace c || c == '\n' then some 0
    else if c == ':' && endsWord cs then some 0
    else if bracketed && c == ':' && (cs.head?.any fun x => isBracket x || x == '?') then none
    else if bracketed && isBracket c then some 0
    else (wordLength? bracketed cs).map (· + 1)

/-- What stands between two words, and the cursor behind it. A tab may not stand where a line has
not reached its indentation yet. -/
def readBetween (indent : Nat) :
    (lineEnds : Nat) → (spaces : List Char) → (line column : Nat) → List Char → Scanned
  | lineEnds, spaces, line, column, [] => some (folded lineEnds spaces, ⟨line, column, []⟩)
  | lineEnds, spaces, line, column, c :: cs =>
    if c == '\n' then readBetween indent (lineEnds + 1) [] (line + 1) 0 cs
    else if isSpace c then
      if c == '\t' && lineEnds != 0 && column < indent then none
      else readBetween indent lineEnds (spaces ++ [c]) line (column + 1) cs
    else some (folded lineEnds spaces, ⟨line, column, c :: cs⟩)

/-- Reads a plain scalar. Its lines after the first one are indented. -/
def readPlain (bracketed : Bool) (indent : Nat) : (fuel : Nat) → Cursor → Scanned
  | 0, cursor => some ([], cursor)
  | fuel + 1, cursor => do
    let n ← wordLength? bracketed cursor.rest
    let word := cursor.rest.take n
    let behind := cursor.skip n
    if n == 0 || !endsWord behind.rest then
      some (word, behind)
    else
      let (between, next) ← readBetween indent 0 [] behind.line behind.column behind.rest
      if next.rest.head? == some '#' || (!bracketed && next.column < indent) then
        some (word, behind)
      else
        let (more, last) ← readPlain bracketed indent fuel next
        some (if more.isEmpty then (word, behind) else (word ++ between ++ more, last))

def plain (bracketed : Bool) (indent : Nat) (cursor : Cursor) : Scanned :=
  if beginsPlain bracketed cursor.rest then
    readPlain bracketed indent (cursor.rest.length + 1) cursor
  else
    none

end StreamSql.Yaml
