import StreamSql.Yaml.Scalar

/-!
# YAML nodes

The part of YAML that small documents are written in: blocks of keys and of items, the same between
brackets, scalars and comments. A text that uses anything else has no node here, although it may be
YAML.
-/
namespace StreamSql.Yaml

inductive Node where
  | scalar (text : String) (isPlain : Bool)
  | sequence (items : List Node)
  | mapping (entries : List (Node × Node))

namespace Node

/-- What is not written at all. -/
def absent : Node :=
  .scalar "" true

/-- The node at a cursor and the cursor behind it. -/
abbrev Read := Option (Node × Cursor)

def ofScanned (isPlain : Bool) (scanned : Scanned) : Read :=
  scanned.map fun (cs, behind) => (.scalar (String.ofList cs) isPlain, behind)

/-! ## Between brackets -/

mutual

/-- Reads a node that does not depend on its column: a scalar, or one in brackets. -/
def readInline : (fuel : Nat) → (bracketed : Bool) → (indent : Nat) → Cursor → Read
  | 0, _, _, _ => none
  | fuel + 1, bracketed, indent, cursor =>
    match cursor.rest with
    | '[' :: _ => do
      let (items, behind) ← readItems fuel indent (cursor.skip 1)
      pure (.sequence items, behind)
    | '\x7b' :: _ => do
      let (entries, behind) ← readEntries fuel indent (cursor.skip 1)
      pure (.mapping entries, behind)
    | '\'' :: _ => ofScanned false (quoted false (cursor.skip 1))
    | '"' :: _ => ofScanned false (quoted true (cursor.skip 1))
    | _ => ofScanned true (plain bracketed indent cursor)

/-- Reads the value behind a colon, up to the next comma or closing bracket. -/
def readValue : (fuel indent : Nat) → Cursor → Read
  | 0, _, _ => none
  | fuel + 1, indent, cursor =>
    let next := cursor.advance true
    match next.rest with
    | ',' :: _ | ']' :: _ | '\x7d' :: _ => some (absent, next)
    | _ => readInline fuel true indent next

/-- Reads a node and, on the same line, perhaps a colon and its value. -/
def readPair : (fuel indent : Nat) → Cursor → Option (Node × Option Node × Cursor)
  | 0, _, _ => none
  | fuel + 1, indent, cursor => do
    let (key, behind) ← readInline fuel true indent cursor
    let next := behind.advance true
    match next.rest with
    | ':' :: _ =>
      if next.line != cursor.line then none
      else do
        let (value, behind) ← readValue fuel indent (next.skip 1)
        pure (key, some value, behind)
    | _ => pure (key, none, behind)

/-- Reads items up to the closing bracket. A pair stands for a mapping with one entry. -/
def readItems : (fuel indent : Nat) → Cursor → Option (List Node × Cursor)
  | 0, _, _ => none
  | fuel + 1, indent, cursor =>
    let next := cursor.advance true
    match next.rest with
    | ']' :: _ => some ([], next.skip 1)
    | _ => do
      let (key, value?, behind) ← readPair fuel indent next
      let item := match value? with
        | some value => .mapping [(key, value)]
        | none => key
      let next := behind.advance true
      match next.rest with
      | ',' :: _ => do
        let (items, behind) ← readItems fuel indent (next.skip 1)
        pure (item :: items, behind)
      | ']' :: _ => some ([item], next.skip 1)
      | _ => none

/-- Reads entries up to the closing brace. -/
def readEntries : (fuel indent : Nat) → Cursor → Option (List (Node × Node) × Cursor)
  | 0, _, _ => none
  | fuel + 1, indent, cursor =>
    let next := cursor.advance true
    match next.rest with
    | '\x7d' :: _ => some ([], next.skip 1)
    | _ => do
      let (key, value?, behind) ← readPair fuel indent next
      let entry := (key, value?.getD absent)
      let next := behind.advance true
      match next.rest with
      | ',' :: _ => do
        let (entries, behind) ← readEntries fuel indent (next.skip 1)
        pure (entry :: entries, behind)
      | '\x7d' :: _ => some ([entry], next.skip 1)
      | _ => none

end

/-! ## Blocks -/

/-- Reads a key with its colon. The key stands on one line. -/
def readKey (fuel indent : Nat) (cursor : Cursor) : Read := do
  let (key, behind) ← readInline fuel false indent cursor
  let colon := behind.skipSpaces
  if colon.atColon && colon.line == cursor.line then some (key, colon.skip 1) else none

/-- Reads a node that ends with its line. -/
def readLineEnd (fuel indent : Nat) (cursor : Cursor) : Read := do
  let (node, behind) ← readInline fuel false indent cursor
  if behind.skipSpaces.atLineEnd then some (node, behind) else none

mutual

/-- Reads the node that begins at a column, whatever kind it is. -/
def readBlock : (fuel indent : Nat) → Cursor → Read
  | 0, _, _ => none
  | fuel + 1, indent, cursor =>
    if cursor.atItem then do
      let (items, behind) ← readBlockItems fuel cursor.column cursor
      pure (.sequence items, behind)
    else
      match readKey fuel indent cursor with
      | some _ => do
        let (entries, behind) ← readBlockEntries fuel cursor.column cursor
        pure (.mapping entries, behind)
      | none => readLineEnd fuel indent cursor

/-- Reads entries whose keys all begin at one column. -/
def readBlockEntries : (fuel column : Nat) → Cursor → Option (List (Node × Node) × Cursor)
  | 0, _, _ => none
  | fuel + 1, column, cursor => do
    let (key, behind) ← readKey fuel (column + 1) cursor
    let (value, behind) ← readBlockValue fuel column true behind
    let next := behind.advance false
    if next.rest.isEmpty || next.column < column then some ([(key, value)], behind)
    else if next.column == column then do
      let (entries, behind) ← readBlockEntries fuel column next
      pure ((key, value) :: entries, behind)
    else none

/-- Reads items whose dashes all stand at one column. -/
def readBlockItems : (fuel column : Nat) → Cursor → Option (List Node × Cursor)
  | 0, _, _ => none
  | fuel + 1, column, cursor => do
    let (item, behind) ← readBlockValue fuel column false (cursor.skip 1)
    let next := behind.advance false
    if next.rest.isEmpty || next.column < column then some ([item], behind)
    else if next.column == column then
      if next.atItem then do
        let (items, behind) ← readBlockItems fuel column next
        pure (item :: items, behind)
      else some ([item], behind)
    else none

/-- Reads what belongs to a key or a dash: on the same line, or deeper on the next ones. The items
of a key may stand at its own column. -/
def readBlockValue : (fuel column : Nat) → (keyed : Bool) → Cursor → Read
  | 0, _, _, _ => none
  | fuel + 1, column, keyed, cursor =>
    let here := cursor.skipSpaces
    if here.atLineEnd then
      let next := cursor.advance false
      if next.rest.isEmpty then some (absent, cursor)
      else if next.column > column then readBlock fuel (column + 1) next
      else if keyed && next.column == column && next.atItem then do
        let (items, behind) ← readBlockItems fuel column next
        pure (.sequence items, behind)
      else some (absent, cursor)
    else if keyed then readLineEnd fuel (column + 1) here
    else if (cursor.rest.takeWhile isSpace).contains '\t' then none
    else readBlock fuel (column + 1) here

end

/-! ## Documents -/

/-- The characters that may occur in a text. -/
def isAllowed (c : Char) : Bool :=
  let n := c.toNat
  n == 0x9 || n == 0xA || n == 0xD || (0x20 ≤ n && n ≤ 0x7E) || n == 0x85 ||
    (0xA0 ≤ n && n ≤ 0xD7FF) || (0xE000 ≤ n && n ≤ 0xFFFD && n != 0xFEFF) || 0x10000 ≤ n

/-- The lines of a text, ended by any of the characters that end one. -/
def lines (line : List Char) : List Char → List (List Char)
  | [] => [line.reverse]
  | '\r' :: '\n' :: cs => line.reverse :: lines [] cs
  | c :: cs =>
    if c == '\n' || c == '\r' || c == '\u0085' || c == '\u2028' || c == '\u2029' then
      line.reverse :: lines [] cs
    else lines (c :: line) cs

/-- A line that begins with a marker of three characters. -/
def isMarker (c : Char) (line : List Char) : Bool :=
  [c, c, c].isPrefixOf line && endsWord (line.drop 3)

def isContentless (line : List Char) : Bool :=
  match line.dropWhile isSpace with
  | [] => true
  | c :: _ => c == '#'

/-- Behind the end of a document there is nothing. -/
def isClosed (rest : List (List Char)) : Bool :=
  rest.all fun line => isContentless line || (isMarker '.' line && isContentless (line.drop 3))

/-- The lines of a text that holds at most one document. The document may stand between the
markers `---` and `...`. -/
def document? (all : List (List Char)) : Option (List (List Char)) :=
  let inside (line : List Char) : Bool := !isMarker '-' line && !isMarker '.' line
  let (head, rest) := all.span inside
  match head.all isContentless, rest with
  | true, first :: rest =>
    if isMarker '-' first then
      let (body, rest) := rest.span inside
      if isClosed rest then some ((' ' :: ' ' :: ' ' :: first.drop 3) :: body) else none
    else if isClosed (first :: rest) then some [] else none
  | _, rest => if isClosed rest then some head else none

/-- The node of a whole text. A text without content has the node that is not written. -/
def ofText? (text : String) : Option Node := do
  let cs := match text.toList with
    | '\uFEFF' :: cs => cs
    | cs => cs
  let body ← if cs.all isAllowed then document? (lines [] cs) else none
  let cs := (body.flatMap fun line => line ++ ['\n'])
  let start := Cursor.skipGap false false true 0 0 cs
  if start.rest.isEmpty then
    some absent
  else
    let (node, behind) ← readBlock (4 * cs.length + 8) 0 start
    if (behind.advance false).rest.isEmpty then some node else none

end Node

end StreamSql.Yaml
