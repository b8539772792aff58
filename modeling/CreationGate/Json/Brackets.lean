import CreationGate.Json.Literal

/-!
# Lists and objects

What readers of lists and objects share: going from one element or key to the next, and the
end of the brackets.  The end is looked for even after a fault inside, whose place and cause
stand.
-/

namespace CreationGate

namespace Json

open Reader

variable {α : Type}

/-! ## Lists -/

/-- Reads the next element of a list, or nothing before its end. -/
def readElement? (first : Bool) (element : Reader α) : Reader (Option α) := do
  let b ← tokenIn .eofInList
  if b = 93 then return none
  else if first then some <$> element
  else if b = 44 then
    skip
    let b ← tokenIn .eofInValue
    if b = 93 then failNext .trailingComma else some <$> element
  else failNext .expectedListEnd

/-- Reads elements up to the end of a list, with a bound on their number. -/
def readElements (element : Reader α) : (fuel : Nat) → (first : Bool) → Reader (List α)
  | 0, _ => fail .eofInList
  | fuel + 1, first => do
    match ← readElement? first element with
    | none => return []
    | some a =>
      let rest ← readElements element fuel false
      return a :: rest

/-- Takes the end of a list, before which nothing is left. -/
def endList : Reader Unit := do
  let b ← tokenIn .eofInList
  if b = 93 then skip
  else if b = 44 then
    skip
    match ← token with
    | some 93 => failNext .trailingComma
    | _ => failNext .trailingCharacters
  else failNext .trailingCharacters

/-- Reads the inside of a list whose opening bracket comes next, and its end. -/
def inList (body : Reader α) : Reader α := do
  skip
  thenAlways body endList

/-! ## Objects -/

/-- Reads a key or a name; what stands before its first letter was looked at already. -/
def readName : Reader Bytes := do
  skip
  readString

/-- Reads the next key of an object, or nothing before its end. -/
def readKey? (first : Bool) : Reader (Option Bytes) := do
  let b ← tokenIn .eofInObject
  if b = 125 then return none
  else if first then
    if b = 34 then some <$> readName else failNext .keyMustBeString
  else if b = 44 then
    skip
    let b ← tokenIn .eofInValue
    if b = 34 then some <$> readName
    else if b = 125 then failNext .trailingComma
    else failNext .keyMustBeString
  else failNext .expectedObjectEnd

/-- Takes the colon behind a key. -/
def readColon : Reader Unit := do
  let b ← tokenIn .eofInObject
  if b = 58 then skip else failNext .expectedColon

/-- Takes the end of an object, before which nothing is left. -/
def endObject : Reader Unit := do
  let b ← tokenIn .eofInObject
  if b = 125 then skip
  else if b = 44 then failNext .trailingComma
  else failNext .trailingCharacters

/-- Reads the inside of an object whose opening bracket comes next, and its end. -/
def inObject (body : Reader α) : Reader α := do
  skip
  thenAlways body endObject

/-- Reads the fields of an object, which change a state one after the other, with a bound on
their number. -/
def readFields (field : α → Bytes → Reader α) : (fuel : Nat) → (first : Bool) → α → Reader α
  | 0, _, _ => fail .eofInObject
  | fuel + 1, first, state => do
    match ← readKey? first with
    | none => return state
    | some name =>
      let state ← field state name
      readFields field fuel false state

/-! ## Other values -/

/-- Refuses the value that comes next, which is not of the expected kind.  A word, a number or a
string is read first. -/
def refuse (expected : Expected) : Reader α := placed do
  match ← peek with
  | some 110 => do
    skip
    readRest [117, 108, 108]
    reject (.invalidType .null expected)
  | some 116 => do
    skip
    readRest [114, 117, 101]
    reject (.invalidType (.boolean true) expected)
  | some 102 => do
    skip
    readRest [97, 108, 115, 101]
    reject (.invalidType (.boolean false) expected)
  | some 45 => do
    skip
    let n ← readNumber false
    reject (.invalidType n.found expected)
  | some 34 => do
    let s ← readName
    reject (.invalidType (.string (textOf s)) expected)
  | some 91 => reject (.invalidType .sequence expected)
  | some 123 => reject (.invalidType .map expected)
  | some b =>
    if isDigit b then do
      let n ← readNumber true
      reject (.invalidType n.found expected)
    else failNext .expectedValue
  | none => failNext .expectedValue

/-- Checks that nothing but blanks is left. -/
def endOfText : Reader Unit := do
  match ← token with
  | none => return ()
  | some _ => failNext .trailingCharacters

/-- Reads a whole text. -/
def read (reader : Reader α) (text : Bytes) : Except Fault α :=
  (do
    let a ← reader
    endOfText
    return a : Reader α) text |>.1

end Json

end CreationGate
