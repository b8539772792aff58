import CreationGate.Json.Brackets

/-!
# Ignored values

Taking a value whose content does not matter.  Open brackets are kept on a stack, so nesting
has no limit.
-/

namespace CreationGate

namespace Json

open Reader

/-! ## Numbers and strings -/

/-- Takes an exponent after its letter. -/
def skipExponent : Reader Unit := do
  let _ ← readExponentSign
  match ← next with
  | none => fail .invalidNumber
  | some b =>
    if isDigit b then do
      let _ ← takeDigits
      return ()
    else fail .invalidNumber

/-- Takes an exponent, if one comes next. -/
def skipExponent? : Reader Unit := do
  match ← peek with
  | some 101 => do
    skip
    skipExponent
  | some 69 => do
    skip
    skipExponent
  | _ => return ()

/-- Takes the decimal places and the exponent that may follow whole digits. -/
def skipFraction : Reader Unit := do
  match ← peek with
  | some 46 => do
    skip
    let digits ← takeDigits
    if digits.isEmpty then failNext .invalidNumber else skipExponent?
  | _ => skipExponent?

/-- Takes a number after its sign, if it has one. -/
def skipNumber : Reader Unit := do
  match ← next with
  | none => fail .invalidNumber
  | some b =>
    if b = 48 then
      if ← digitFollows then failNext .invalidNumber else skipFraction
    else if isDigit b then
      let _ ← takeDigits
      skipFraction
    else fail .invalidNumber

/-- Takes an escape after its backslash; surrogates need not come in pairs. -/
def skipEscape : Reader Unit := do
  match ← next with
  | none => fail .eofInString
  | some b =>
    if (escapeValue? b).isSome then return ()
    else if b = 117 then
      let _ ← readCodeUnit
      return ()
    else fail .invalidEscape

/-- Takes a string after its opening quote, with a bound on the number of its escapes. -/
def skipStringParts : (fuel : Nat) → Reader Unit
  | 0 => fail .eofInString
  | fuel + 1 => do
    let _ ← takePlain
    match ← peek with
    | none => fail .eofInString
    | some 34 => skip
    | some 92 => do
      skip
      skipEscape
      skipStringParts fuel
    | some _ => fail .controlCharacter

/-- Takes a string after its opening quote. -/
def skipString : Reader Unit := fun s => skipStringParts (s.length + 1) s

/-! ## Nested values -/

/-- An open bracket. -/
inductive Bracket where
  | list
  | object

namespace Bracket

/-- The byte that closes a bracket. -/
def close : Bracket → UInt8
  | list => 93
  | object => 125

/-- The fault of a text that ends inside a bracket. -/
def eof : Bracket → Cause
  | list => .eofInList
  | object => .eofInObject

/-- The fault of an item that neither another one nor the end follows. -/
def expectedEnd : Bracket → Cause
  | list => .expectedListEnd
  | object => .expectedObjectEnd

end Bracket

/-- What comes next while values are taken. -/
inductive Phase where
  | value
  /-- The first item of the innermost bracket, or its end. -/
  | opened
  | item
  | ended

/-- Takes a key and its colon. -/
def skipKey : Reader Unit := do
  let b ← tokenIn .eofInObject
  if b = 34 then
    skip
    skipString
    readColon
  else failNext .keyMustBeString

/-- Takes a value that holds no others, or the bracket that opens one that does. -/
def skipScalar (b : UInt8) : Reader Unit := do
  if b = 110 then
    skip
    readRest [117, 108, 108]
  else if b = 116 then
    skip
    readRest [114, 117, 101]
  else if b = 102 then
    skip
    readRest [97, 108, 115, 101]
  else if b = 45 then
    skip
    skipNumber
  else if isDigit b then skipNumber
  else if b = 34 then
    skip
    skipString
  else failNext .expectedValue

/-- Takes what is left of a value inside some open brackets, with a bound on the number of
its parts. -/
def skipParts : (fuel : Nat) → Phase → List Bracket → Reader Unit
  | 0, _, _ => fail .eofInValue
  | fuel + 1, .value, stack => do
    let b ← tokenIn .eofInValue
    if b = 91 then
      skip
      skipParts fuel .opened (.list :: stack)
    else if b = 123 then
      skip
      skipParts fuel .opened (.object :: stack)
    else
      skipScalar b
      skipParts fuel .ended stack
  | fuel + 1, .opened, bracket :: stack => do
    let b ← tokenIn bracket.eof
    if b = bracket.close then
      skip
      skipParts fuel .ended stack
    else skipParts fuel .item (bracket :: stack)
  | fuel + 1, .item, .object :: stack => do
    skipKey
    skipParts fuel .value (.object :: stack)
  | fuel + 1, .item, stack => skipParts fuel .value stack
  | fuel + 1, .ended, bracket :: stack => do
    let b ← tokenIn bracket.eof
    if b = 44 then
      skip
      skipParts fuel .item (bracket :: stack)
    else if b = bracket.close then
      skip
      skipParts fuel .ended stack
    else failNext bracket.expectedEnd
  | _, _, [] => pure ()

/-- Takes a value.  Each byte of it is at most three parts. -/
def skipValue : Reader Unit := fun s => skipParts (3 * s.length + 3) .value [] s

end Json

end CreationGate
