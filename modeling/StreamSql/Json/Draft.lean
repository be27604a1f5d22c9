import StreamSql.Json.Lexeme

/-!
# Drafts of JSON documents

A draft is a document as far as its text makes sense. A list or a record that breaks off says
where; a value that cannot be read says why. Some flaws are latent: they matter only to a reader
that keeps the value. `value?` keeps everything and gives the first flaw in the order of the text;
`passed?` keeps nothing.
-/
namespace StreamSql.Json

/-- The number of containers that may stand inside each other. -/
def nestingLimit : Nat := 127

inductive Draft where
  | null
  | bool (value : Bool)
  | number (value : Number)
  | string (value : String)
  | list (items : List Draft) (flaw? : Option Flaw)
  | record (members : List (Except Flaw String × Draft)) (flaw? : Option Flaw)
  /-- A scalar with a latent flaw. -/
  | latent (flaw : Flaw)
  /-- A container below the nesting limit. -/
  | buried (content : Draft)
  /-- Nothing can be read here, nor behind it. -/
  | flawed (flaw : Flaw)

namespace Draft

mutual

/-- The value that is read in full. -/
def value? : Draft → Except Flaw Value
  | .null => .ok .null
  | .bool b => .ok (.bool b)
  | .number n => .ok (.number n)
  | .string s => .ok (.string s)
  | .list items flaw? => do
    let values ← valuesOfItems items
    match flaw? with
    | some flaw => .error flaw
    | none => .ok (.array values)
  | .record members flaw? => do
    let values ← valuesOfMembers members
    match flaw? with
    | some flaw => .error flaw
    | none => .ok (.object values)
  | .latent flaw => .error flaw
  | .buried _ => .error .tooDeep
  | .flawed flaw => .error flaw

def valuesOfItems : List Draft → Except Flaw (List Value)
  | [] => .ok []
  | item :: items => do
    let value ← item.value?
    let values ← valuesOfItems items
    .ok (value :: values)

def valuesOfMembers : List (Except Flaw String × Draft) → Except Flaw (List (String × Value))
  | [] => .ok []
  | (key, item) :: members => do
    let key ← key
    let value ← item.value?
    let values ← valuesOfMembers members
    .ok ((key, value) :: values)

end

mutual

/-- The flaw that ends a reading which goes past this draft. -/
def passed? : Draft → Option Flaw
  | .list items flaw? => (passedItems? items).or (flaw?.map Flaw.inPassing)
  | .record members flaw? => (passedMembers? members).or (flaw?.map Flaw.inPassing)
  | .buried content => content.passed?
  | .flawed flaw => some flaw.inPassing
  | _ => none

def passedItems? : List Draft → Option Flaw
  | [] => none
  | item :: items => item.passed?.or (passedItems? items)

def passedMembers? : List (Except Flaw String × Draft) → Option Flaw
  | [] => none
  | (_, item) :: members => item.passed?.or (passedMembers? members)

end

mutual

/-- A value that is complete as a draft. -/
def ofValue : Value → Draft
  | .null => .null
  | .bool b => .bool b
  | .number n => .number n
  | .string s => .string s
  | .array items => .list (ofItems items) none
  | .object members => .record (ofMembers members) none

def ofItems : List Value → List Draft
  | [] => []
  | item :: items => ofValue item :: ofItems items

def ofMembers : List (String × Value) → List (Except Flaw String × Draft)
  | [] => []
  | (key, value) :: members => (.ok key, ofValue value) :: ofMembers members

end

/-- A draft of a value, and the text after it unless the text breaks off. -/
abbrev Read := Draft × Option (List Char)

def ofLexeme {α : Type} (draft : α → Draft) : Lexeme α → Read
  | .complete value rest => (draft value, some rest)
  | .refused flaw rest => (.latent flaw, some rest)
  | .broken flaw => (.flawed flaw, none)

/-- Buries a container that has `depth` containers around it. -/
def bury (depth : Nat) (draft : Draft) : Draft :=
  if depth < nestingLimit then draft else .buried draft

/-- The items or members of a container, the flaw that ended them, and the text after it. -/
structure Body (α : Type) where
  parts : List α
  flaw? : Option Flaw
  rest : Option (List Char)

namespace Body

def closed {α : Type} (rest : List Char) : Body α :=
  ⟨[], none, some rest⟩

def broken {α : Type} (flaw : Flaw) : Body α :=
  ⟨[], some flaw, none⟩

/-- Puts a part in front. A part that breaks off has nothing behind it. -/
def after {α : Type} (part : α) (rest : Option (List Char)) (more : List Char → Body α) : Body α :=
  match rest with
  | none => ⟨[part], none, none⟩
  | some rest =>
    let body := more rest
    { body with parts := part :: body.parts }

end Body

/-- Reads what follows a member's key up to its value. -/
def readColon (cs : List Char) : Except Flaw (List Char) :=
  match skipBlank cs with
  | ':' :: rest => .ok rest
  | [] => .error .endsInObject
  | _ :: _ => .error .colonExpected

mutual

/-- Reads one value with `depth` containers around it. Every second call uses up a character,
which bounds the calls by `fuel`. -/
def readValue : (fuel depth : Nat) → List Char → Read
  | 0, _, _ => (.flawed .endsBeforeValue, none)
  | fuel + 1, depth, cs =>
    match skipBlank cs with
    | [] => (.flawed .endsBeforeValue, none)
    | 'n' :: rest => ofLexeme id (readLetters .null .null ['u', 'l', 'l'] rest)
    | 't' :: rest => ofLexeme id (readLetters .true (.bool true) ['r', 'u', 'e'] rest)
    | 'f' :: rest => ofLexeme id (readLetters .false (.bool false) ['a', 'l', 's', 'e'] rest)
    | '"' :: rest => ofLexeme .string (readString rest)
    | '-' :: rest => ofLexeme .number (readNumber true rest)
    | '[' :: rest =>
      let body := readItems fuel (depth + 1) true rest
      (bury depth (.list body.parts body.flaw?), body.rest)
    | '\x7b' :: rest =>
      let body := readMembers fuel (depth + 1) true rest
      (bury depth (.record body.parts body.flaw?), body.rest)
    | c :: rest =>
      if c.isDigit then ofLexeme .number (readNumber false (c :: rest))
      else (.flawed .valueExpected, none)

/-- Reads the items up to the closing bracket. -/
def readItems : (fuel depth : Nat) → (first : Bool) → List Char → Body Draft
  | 0, _, _, _ => .broken .endsInList
  | fuel + 1, depth, first, cs =>
    let item (cs : List Char) : Body Draft :=
      let (draft, rest) := readValue fuel depth cs
      .after draft rest (readItems fuel depth false)
    match skipBlank cs with
    | [] => .broken .endsInList
    | ']' :: rest => .closed rest
    | c :: rest =>
      if first then
        item (c :: rest)
      else if c == ',' then
        match skipBlank rest with
        | ']' :: _ => .broken .trailingCommaInList
        | rest => item rest
      else
        .broken .separatorExpectedInList

/-- Reads the members up to the closing brace. -/
def readMembers :
    (fuel depth : Nat) → (first : Bool) → List Char → Body (Except Flaw String × Draft)
  | 0, _, _, _ => .broken .endsInObject
  | fuel + 1, depth, first, cs =>
    let member (key : Except Flaw String) (cs : List Char) : Body (Except Flaw String × Draft) :=
      match readColon cs with
      | .error flaw => ⟨[(key, .flawed flaw)], none, none⟩
      | .ok cs =>
        let (draft, rest) := readValue fuel depth cs
        .after (key, draft) rest (readMembers fuel depth false)
    let keyed (cs : List Char) : Body (Except Flaw String × Draft) :=
      match readString cs with
      | .complete key rest => member (.ok key) rest
      | .refused flaw rest => member (.error flaw) rest
      | .broken flaw => .broken flaw
    match skipBlank cs with
    | [] => .broken .endsInObject
    | '\x7d' :: rest => .closed rest
    | c :: rest =>
      if first then
        if c == '"' then keyed rest else .broken .keyExpected
      else if c == ',' then
        match skipBlank rest with
        | [] => .broken .endsAfterComma
        | '"' :: rest => keyed rest
        | '\x7d' :: _ => .broken .trailingCommaInObject
        | _ :: _ => .broken .keyExpected
      else
        .broken .separatorExpectedInObject

end

end Draft

/-- A document as it is read: a draft, and the flaw of a text that goes on behind it. -/
structure Document where
  root : Draft
  flaw? : Option Flaw

def Document.ofText (text : String) : Document :=
  let cs := text.toList
  match Draft.readValue (2 * cs.length + 2) 0 cs with
  | (root, none) => ⟨root, none⟩
  | (root, some rest) =>
    ⟨root, if (skipBlank rest).isEmpty then none else some .trailingCharacters⟩

/-- The value of a text that is one complete document. -/
def Value.ofText (text : String) : Except Flaw Value := do
  let document := Document.ofText text
  let value ← document.root.value?
  match document.flaw? with
  | some flaw => .error flaw
  | none => .ok value

end StreamSql.Json
