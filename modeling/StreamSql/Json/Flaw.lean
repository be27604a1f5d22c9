/-!
# Flaws of JSON text

What can be wrong with a text, and how it is reported. A text that is read past without being
kept is looked at less closely, and a few of its flaws then go by another name.
-/
namespace StreamSql.Json

/-- The values that are spelled as words. -/
inductive Word where
  | null | true | false
  deriving DecidableEq

inductive Flaw where
  | endsBeforeValue
  | endsInWord (word : Word)
  | endsInNumber
  | endsInString
  | endsInList
  | endsInObject
  | endsAfterComma
  | valueExpected
  | misspelled (word : Word)
  | invalidNumber
  | numberOutOfRange
  | invalidEscape
  | surrogateUnpaired
  | surrogateAlone
  | controlCharacter
  | separatorExpectedInList
  | separatorExpectedInObject
  | colonExpected
  | keyExpected
  | trailingCommaInList
  | trailingCommaInObject
  | trailingCharacters
  | tooDeep
  /-- Two flaws of one string, of which the first is met only by a reader that keeps it. -/
  | twofold (kept passed : Flaw)
  deriving DecidableEq

namespace Flaw

def message : Flaw → String
  | endsBeforeValue | endsInWord _ | endsInNumber | endsAfterComma =>
    "EOF while parsing a value"
  | endsInString => "EOF while parsing a string"
  | endsInList => "EOF while parsing a list"
  | endsInObject => "EOF while parsing an object"
  | valueExpected => "expected value"
  | misspelled _ => "expected ident"
  | invalidNumber => "invalid number"
  | numberOutOfRange => "number out of range"
  | invalidEscape => "invalid escape"
  | surrogateUnpaired => "unexpected end of hex escape"
  | surrogateAlone => "lone leading surrogate in hex escape"
  | controlCharacter => "control character (\\u0000-\\u001F) found while parsing a string"
  | separatorExpectedInList => "expected `,` or `]`"
  | separatorExpectedInObject => "expected `,` or `\x7d`"
  | colonExpected => "expected `:`"
  | keyExpected => "key must be a string"
  | trailingCommaInList | trailingCommaInObject => "trailing comma"
  | trailingCharacters => "trailing characters"
  | tooDeep => "recursion limit exceeded"
  | twofold kept _ => kept.message

/-- The flaw that is met instead where the text is read past. -/
def inPassing : Flaw → Flaw
  | endsInNumber => invalidNumber
  | endsAfterComma => endsInObject
  | trailingCommaInList => valueExpected
  | trailingCommaInObject => keyExpected
  | twofold _ passed => passed
  | flaw => flaw

/-- Whether the flaw lies in a number or in a word. -/
def inScalar : Flaw → Bool
  | endsInWord _ | endsInNumber | misspelled _ | invalidNumber | numberOutOfRange => true
  | _ => false

/-- Whether the flaw lies in what begins like `null`. -/
def inNull : Flaw → Bool
  | endsInWord .null | misspelled .null => true
  | _ => false

end Flaw

end StreamSql.Json
