import CreationGate.Text.Quoted

/-!
# Why a JSON text is not read

A fault says what is wrong and where.  Its place is kept as the number of bytes that were
still left, because readers only know what is left of the text; faults of values that
were read completely have no place of their own until the reader of the value gives them
one.
-/

namespace CreationGate

namespace Json

/-- What a reader wants to see. -/
inductive Expected where
  /-- A byte string of a fixed length, in one of its forms. -/
  | fixedBytes (length : Nat)
  | byteCount (length : Nat)
  | byte
  | sequence
  | unit
  | genesis
  | eventBody (variant : String)
  | eventElement (variant : String)
  | newtypeVariant
  | structVariant
deriving DecidableEq

/-- What was wanted, as messages name it. -/
def Expected.text : Expected → String
  | fixedBytes n =>
    toString n ++ " bytes, represented as a hex string of length " ++ toString (2 * n)
      ++ ", an array of u8, or raw bytes"
  | byteCount n => "exactly " ++ toString n ++ " bytes"
  | byte => "u8"
  | sequence => "a sequence"
  | unit => "unit"
  | genesis => "struct GenesisConfig"
  | eventBody variant => "struct variant DeploymentEvent::" ++ variant
  | eventElement variant => "struct variant DeploymentEvent::" ++ variant ++ " with 1 element"
  | newtypeVariant => "newtype variant"
  | structVariant => "struct variant"

/-- What a reader sees instead. -/
inductive Found where
  | null
  | boolean (b : Bool)
  | integer (n : Int)
  /-- A number with a fraction or an exponent, as it is written back. -/
  | float (text : String)
  | string (text : String)
  | sequence
  | map
  | unitVariant
deriving DecidableEq

/-- What was seen, as messages name it. -/
def Found.text : Found → String
  | null => "null"
  | boolean b => "boolean \x60" ++ (if b then "true" else "false") ++ "\x60"
  | integer n => "integer \x60" ++ toString n ++ "\x60"
  | float text => "floating point \x60" ++ text ++ "\x60"
  | string text => "string " ++ Text.quoted text
  | sequence => "sequence"
  | map => "map"
  | unitVariant => "unit variant"

/-- What can be wrong with a text. -/
inductive Cause where
  | eofInValue
  | eofInList
  | eofInObject
  | eofInString
  | expectedValue
  | expectedIdent
  | expectedColon
  | expectedListEnd
  | expectedObjectEnd
  | trailingComma
  | trailingCharacters
  | keyMustBeString
  | invalidEscape
  | loneSurrogate
  | endOfHexEscape
  | invalidNumber
  | numberOutOfRange
  | controlCharacter
  | invalidType (found : Found) (expected : Expected)
  | invalidValue (found : Found) (expected : Expected)
  | invalidLength (length : Nat) (expected : Expected)
  | unknownField (name : String) (known : List String)
  | unknownVariant (name : String) (known : List String)
  | missingField (name : String)
  | duplicateField (name : String)
  | oddDigits
  | wrongStringLength
  /-- A byte that is no digit, and where it stands in the string. -/
  | invalidDigit (byte : UInt8) (position : Nat)
deriving DecidableEq

/-- The names that would have been known. -/
def alternatives (names : List String) : String :=
  let quoted := names.map fun name => "\x60" ++ name ++ "\x60"
  match quoted with
  | [a, b] => a ++ " or " ++ b
  | _ => "one of " ++ ", ".intercalate quoted

namespace Cause

/-- The text of a cause. -/
def message : Cause → String
  | eofInValue => "EOF while parsing a value"
  | eofInList => "EOF while parsing a list"
  | eofInObject => "EOF while parsing an object"
  | eofInString => "EOF while parsing a string"
  | expectedValue => "expected value"
  | expectedIdent => "expected ident"
  | expectedColon => "expected \x60:\x60"
  | expectedListEnd => "expected \x60,\x60 or \x60]\x60"
  | expectedObjectEnd => "expected \x60,\x60 or \x60\x7d\x60"
  | trailingComma => "trailing comma"
  | trailingCharacters => "trailing characters"
  | keyMustBeString => "key must be a string"
  | invalidEscape => "invalid escape"
  | loneSurrogate => "lone leading surrogate in hex escape"
  | endOfHexEscape => "unexpected end of hex escape"
  | invalidNumber => "invalid number"
  | numberOutOfRange => "number out of range"
  | controlCharacter => "control character (\\u0000-\\u001F) found while parsing a string"
  | invalidType found expected =>
    "invalid type: " ++ found.text ++ ", expected " ++ expected.text
  | invalidValue found expected =>
    "invalid value: " ++ found.text ++ ", expected " ++ expected.text
  | invalidLength length expected =>
    "invalid length " ++ toString length ++ ", expected " ++ expected.text
  | unknownField name known =>
    "unknown field \x60" ++ name ++ "\x60, expected " ++ alternatives known
  | unknownVariant name known =>
    "unknown variant \x60" ++ name ++ "\x60, expected " ++ alternatives known
  | missingField name => "missing field \x60" ++ name ++ "\x60"
  | duplicateField name => "duplicate field \x60" ++ name ++ "\x60"
  | oddDigits => "odd number of digits"
  | wrongStringLength => "invalid string length"
  | invalidDigit byte position =>
    "invalid character " ++ Text.quotedChar (Char.ofNat byte.toNat) ++ " at position "
      ++ toString position

end Cause

/-- What kind of trouble a text is in. -/
inductive Category where
  | malformed
  | data
  | eof
deriving DecidableEq

/-- The kind of trouble that a cause means: the text ends, is malformed, or holds something else. -/
def Cause.category : Cause → Category
  | eofInValue => .eof
  | eofInList => .eof
  | eofInObject => .eof
  | eofInString => .eof
  | invalidType _ _ => .data
  | invalidValue _ _ => .data
  | invalidLength _ _ => .data
  | unknownField _ _ => .data
  | unknownVariant _ _ => .data
  | missingField _ => .data
  | duplicateField _ => .data
  | oddDigits => .data
  | wrongStringLength => .data
  | invalidDigit _ _ => .data
  | _ => .malformed

/-- A cause and its place. -/
structure Fault where
  cause : Cause
  /-- How many bytes were left at the place of the fault, if it has one. -/
  left : Option Nat
deriving DecidableEq

namespace Fault

/-- The line and the column after some bytes.  Lines count from one, and a column is the
number of bytes of its line. -/
def lineColumn (taken : Bytes) : Nat × Nat :=
  (1 + taken.count 10, (taken.reverse.takeWhile (· != 10)).length)

/-- The message for a fault in a text: its cause, and its line and column if it has a place. -/
def message (fault : Fault) (text : Bytes) : String :=
  match fault.left with
  | none => fault.cause.message
  | some left =>
    let (line, column) := lineColumn (text.take (text.length - left))
    fault.cause.message ++ " at line " ++ toString line ++ " column " ++ toString column

end Fault

end Json

end CreationGate
