import StreamSql.Json.Flaw
import StreamSql.Json.Value

/-!
# Lexemes of JSON

Words, numbers and strings at the head of a text. A flaw that breaks a lexeme off leaves no rest;
a number that is out of range and a string with half a surrogate pair are complete, and are only
refused by a reader that keeps them.
-/
namespace StreamSql.Json

/-- What a lexeme gives, and the text after it. -/
inductive Lexeme (α : Type) where
  | complete (value : α) (rest : List Char)
  | refused (flaw : Flaw) (rest : List Char)
  | broken (flaw : Flaw)

def isBlankChar (c : Char) : Bool :=
  c == ' ' || c == '\t' || c == '\n' || c == '\r'

def skipBlank (cs : List Char) : List Char :=
  cs.dropWhile isBlankChar

/-- Reads the letters that complete a word. -/
def readLetters {α : Type} (word : Word) (value : α) : List Char → List Char → Lexeme α
  | [], rest => .complete value rest
  | _ :: _, [] => .broken (.endsInWord word)
  | l :: letters, c :: rest =>
    if c == l then readLetters word value letters rest else .broken (.misspelled word)

/-! ## Numbers -/

def digitValue (c : Char) : Nat :=
  c.toNat - '0'.toNat

/-- Appends digits to a significand as long as it fits 64 bits; gives the count of digits left. -/
def fillSignificand (significand : Nat) : List Char → Nat × Nat
  | [] => (significand, 0)
  | c :: digits =>
    let next := significand * 10 + digitValue c
    if next < UInt64.size then fillSignificand next digits else (significand, digits.length + 1)

/-- Multiplies a double by a power of ten, in steps that are each rounded. Nothing is given where
the result is too large. -/
def scaleByTen (x : Binary64) (exponent : Int) : Option Binary64 :=
  let power (n : Nat) := Binary64.ofNat (Nat.pow 10 n)
  let scaled :=
    if x.isZero then x
    else if exponent > 308 then .infinite false
    else if exponent ≥ 0 then x.mul (power exponent.natAbs)
    else if exponent ≥ -308 then x.div (power exponent.natAbs)
    else if exponent ≥ -616 then (x.div (power 308)).div (power (exponent.natAbs - 308))
    else .finite false 0 0
  if scaled.isFinite then some scaled else none

/-- The parts of a number's text. -/
structure Numeral where
  negative : Bool
  whole : List Char
  fraction : List Char
  exponent : Int

/-- An integer within 64 bits is kept as one, except for minus zero. -/
def Numeral.integer? (n : Numeral) : Option Int :=
  let (significand, dropped) := fillSignificand 0 n.whole
  if dropped > 0 then none
  else if !n.negative then some significand
  else if 0 < significand && significand ≤ Int64.minValue.toInt.natAbs then
    some (-(significand : Int))
  else none

/-- Digits past the significand count toward the exponent before the point and are dropped after
it. -/
def Numeral.float? (n : Numeral) : Option Binary64 :=
  let (significand, dropped) := fillSignificand 0 n.whole
  let (significand, unread) := fillSignificand significand n.fraction
  let exponent := n.exponent + dropped - (n.fraction.length - unread : Nat)
  let magnitude := scaleByTen (Binary64.ofNat significand) exponent
  if n.negative then magnitude.map Binary64.negate else magnitude

def takeDigits (cs : List Char) : List Char × List Char :=
  (cs.takeWhile Char.isDigit, cs.dropWhile Char.isDigit)

def readDecimalNat (digits : List Char) : Nat :=
  digits.foldl (fun n c => n * 10 + digitValue c) 0

/-- At least one digit has to follow a point, an exponent mark and a minus sign. -/
def requireDigits (cs : List Char) : Except Flaw (List Char × List Char) :=
  match takeDigits cs with
  | ([], []) => .error .endsInNumber
  | ([], _ :: _) => .error .invalidNumber
  | digits => .ok digits

def readExponent : List Char → Except Flaw (Option Int × List Char)
  | c :: cs =>
    if c == 'e' || c == 'E' then do
      let (negative, cs) := match cs with
        | '-' :: cs => (true, cs)
        | '+' :: cs => (false, cs)
        | cs => (false, cs)
      let (digits, rest) ← requireDigits cs
      let n : Int := readDecimalNat digits
      pure (some (if negative then -n else n), rest)
    else
      pure (none, c :: cs)
  | [] => pure (none, [])

def readFraction : List Char → Except Flaw (Option (List Char) × List Char)
  | '.' :: cs => do
    let (digits, rest) ← requireDigits cs
    pure (some digits, rest)
  | cs => pure (none, cs)

/-- A leading zero stands alone before the point. -/
def readWhole (cs : List Char) : Except Flaw (List Char × List Char) := do
  let (digits, rest) ← requireDigits cs
  match digits with
  | '0' :: _ :: _ => .error .invalidNumber
  | _ => pure (digits, rest)

/-- Reads a number whose sign has been read. -/
def readNumber (negative : Bool) (cs : List Char) : Lexeme Number :=
  let parts := do
    let (whole, cs) ← readWhole cs
    let (fraction, cs) ← readFraction cs
    let (exponent, rest) ← readExponent cs
    pure (whole, fraction, exponent, rest)
  match parts with
  | .error flaw => .broken flaw
  | .ok (whole, fraction, exponent, rest) =>
    let numeral : Numeral := ⟨negative, whole, fraction.getD [], exponent.getD 0⟩
    let integer? := if fraction.isNone && exponent.isNone then numeral.integer? else none
    match integer?, numeral.float? with
    | some n, _ => .complete (.integer n) rest
    | none, some x => .complete (.float x) rest
    | none, none => .refused .numberOutOfRange rest

/-! ## Strings -/

def hexValue? (c : Char) : Option Nat :=
  if c.isDigit then some (digitValue c)
  else if 'a' ≤ c && c ≤ 'f' then some (c.toNat - 'a'.toNat + 10)
  else if 'A' ≤ c && c ≤ 'F' then some (c.toNat - 'A'.toNat + 10)
  else none

/-- Whether the text goes on for at least `n` bytes of UTF-8. -/
def hasBytes : Nat → List Char → Bool
  | 0, _ => true
  | _, [] => false
  | n, c :: cs => hasBytes (n - c.utf8Size) cs

/-- The code unit of the four hexadecimal digits after `\u`. -/
def readHex (cs : List Char) : Except Flaw (Nat × List Char) :=
  if !hasBytes 4 cs then
    .error .endsInString
  else
    match (cs.take 4).mapM hexValue? with
    | some [a, b, c, d] => .ok (((a * 16 + b) * 16 + c) * 16 + d, cs.drop 4)
    | _ => .error .invalidEscape

def isHighSurrogate (n : Nat) : Bool :=
  0xD800 ≤ n && n < 0xDC00

def isLowSurrogate (n : Nat) : Bool :=
  0xDC00 ≤ n && n < 0xE000

def escapedChar? : Char → Option Char
  | '"' => some '"'
  | '\\' => some '\\'
  | '/' => some '/'
  | 'b' => some '\x08'
  | 'f' => some '\x0c'
  | 'n' => some '\n'
  | 'r' => some '\r'
  | 't' => some '\t'
  | _ => none

/-- What one step inside a string comes to. -/
inductive StringStep where
  | closed (rest : List Char)
  | char (c : Char) (rest : List Char)
  /-- Half a surrogate pair, which a reader that keeps the string refuses. -/
  | half (flaw : Flaw) (rest : List Char)
  | broken (flaw : Flaw)

/-- The second half of a pair. It is read past only together with its own escape. -/
def readLowSurrogate (high : Nat) (cs : List Char) : StringStep :=
  match cs with
  | [] => .half .endsInString cs
  | '\\' :: [] => .half .endsInString cs
  | '\\' :: 'u' :: digits =>
    match readHex digits with
    | .error flaw => .half flaw cs
    | .ok (low, rest) =>
      if isLowSurrogate low then
        .char (Char.ofNat (0x10000 + (high - 0xD800) * 0x400 + (low - 0xDC00))) rest
      else
        .half .surrogateAlone cs
  | _ => .half .surrogateUnpaired cs

def readUnicodeEscape (cs : List Char) : StringStep :=
  match readHex cs with
  | .error flaw => .broken flaw
  | .ok (n, rest) =>
    if isLowSurrogate n then .half .surrogateAlone rest
    else if isHighSurrogate n then readLowSurrogate n rest
    else .char (Char.ofNat n) rest

def readStringStep : List Char → StringStep
  | [] => .broken .endsInString
  | '"' :: rest => .closed rest
  | '\\' :: [] => .broken .endsInString
  | '\\' :: 'u' :: rest => readUnicodeEscape rest
  | '\\' :: c :: rest =>
    match escapedChar? c with
    | some e => .char e rest
    | none => .broken .invalidEscape
  | c :: rest => if c.toNat < 0x20 then .broken .controlCharacter else .char c rest

/-- Reads a string whose opening quote has been read. The first half pair is remembered while the
reading goes on; each step uses up a character, which `fuel` counts. -/
def readStringFrom : (fuel : Nat) → Option Flaw → List Char → List Char → Lexeme String
  | 0, _, _, _ => .broken .endsInString
  | fuel + 1, half?, read, cs =>
    match readStringStep cs with
    | .closed rest =>
      match half? with
      | some flaw => .refused flaw rest
      | none => .complete (String.ofList read.reverse) rest
    | .char c rest => readStringFrom fuel half? (c :: read) rest
    | .half flaw rest => readStringFrom fuel (half?.or (some flaw)) read rest
    | .broken flaw => .broken (half?.elim flaw (.twofold · flaw))

def readString (cs : List Char) : Lexeme String :=
  readStringFrom (cs.length + 1) none [] cs

end StreamSql.Json
