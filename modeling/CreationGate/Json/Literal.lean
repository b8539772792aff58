import CreationGate.Decimal.Shortest
import CreationGate.Json.Reader

/-!
# Words, numbers and strings

The parts of a JSON text that hold no other values.
-/

namespace CreationGate

namespace Json

open Reader

/-! ## Words -/

/-- Reads the rest of a word whose first letter was taken. -/
def readRest : Bytes → Reader Unit
  | [] => pure ()
  | expected :: rest => do
    match ← next with
    | none => fail .eofInValue
    | some b => if b = expected then readRest rest else fail .expectedIdent

/-! ## Numbers -/

/-- A number. -/
inductive Number where
  | natural (n : Nat)
  /-- A negative integer, given without its sign. -/
  | negative (n : Nat)
  | float (f : Float)

/-- A number as messages name it. -/
def Number.found : Number → Found
  | natural n => .integer n
  | negative n => .integer (-n)
  | float f => .float (Decimal.floatText f)

def isDigit (b : UInt8) : Bool := 48 ≤ b && b ≤ 57

def digitValue (b : UInt8) : Nat := b.toNat - 48

/-- Takes digits, as many as there are. -/
def takeDigits : Reader Bytes := fun s => (.ok (s.takeWhile isDigit), s.dropWhile isDigit)

/-- Takes digits onto a number as long as it stays below `2 ^ 64`; gives the number and how
many digits were taken. -/
def takeSmallDigits (limit : Nat) (n count : Nat) : Bytes → (Nat × Nat) × Bytes
  | [] => ((n, count), [])
  | b :: rest =>
    if isDigit b && n * 10 + digitValue b < limit then
      takeSmallDigits limit (n * 10 + digitValue b) (count + 1) rest
    else ((n, count), b :: rest)

/-- Reads digits onto a number as long as it stays below a limit. -/
def readSmallDigits (limit n count : Nat) : Reader (Nat × Nat) := fun s =>
  let (x, s') := takeSmallDigits limit n count s
  (.ok x, s')

/-- Whether a digit comes next. -/
def digitFollows : Reader Bool := fun s => (.ok (s.head?.any isDigit), s)

/-- A float with a sign. -/
def signed (positive : Bool) (f : Float) : Float := if positive then f else -f

/-- A power of ten, rounded once. -/
def powerOfTen (n : Nat) : Float := Float.ofScientific 1 false n

/-- Divides by powers of ten until the exponent is small enough to be a power itself. -/
def scaleDown (f : Float) : (fuel : Nat) → (exponent : Nat) → Float
  | 0, _ => f
  | fuel + 1, exponent =>
    if exponent ≤ 308 then f / powerOfTen exponent
    else if f == 0 then f
    else scaleDown (f / powerOfTen 308) fuel (exponent - 308)

/-- The float `significand * 10 ^ exponent`, rounded once for the significand and once for
each power of ten. -/
def floatOfParts (positive : Bool) (significand : Nat) (exponent : Int) : Reader Number :=
  let f := Float.ofNat significand
  if exponent < 0 then
    let exponent := (-exponent).toNat
    return .float (signed positive (scaleDown f (exponent / 308 + 1) exponent))
  else if exponent ≤ 308 then
    let f := f * powerOfTen exponent.toNat
    if f.isInf then fail .numberOutOfRange else return .float (signed positive f)
  else if f == 0 then return .float (signed positive f)
  else fail .numberOutOfRange

/-- Takes the sign of an exponent; whether the exponent is not negative. -/
def readExponentSign : Reader Bool := do
  match ← peek with
  | some 43 => do
    skip
    return true
  | some 45 => do
    skip
    return false
  | _ => return true

/-- Reads an exponent after its letter.  One of 2 ^ 31 or more makes the number zero or too
large. -/
def readExponent (positive : Bool) (significand : Nat) (start : Int) : Reader Number := do
  let upward ← readExponentSign
  match ← next with
  | none => fail .eofInValue
  | some b =>
    if !isDigit b then fail .invalidNumber
    else
      let (exponent, _) ← readSmallDigits (1 <<< 31) (digitValue b) 1
      if ← digitFollows then
        skip
        if significand ≠ 0 && upward then fail .numberOutOfRange
        else
          let _ ← takeDigits
          return .float (signed positive 0)
      else
        floatOfParts positive significand (if upward then start + exponent else start - exponent)

/-- Reads an exponent, if one comes next, or ends the number. -/
def endDecimal (positive : Bool) (significand : Nat) (exponent : Int) : Reader Number := do
  match ← peek with
  | some 101 => do
    skip
    readExponent positive significand exponent
  | some 69 => do
    skip
    readExponent positive significand exponent
  | _ => floatOfParts positive significand exponent

/-- Reads the decimal places after a point; places that do not fit the significand are
dropped. -/
def readDecimal (positive : Bool) (significand : Nat) (start : Int) : Reader Number := do
  let (significand, count) ← readSmallDigits (1 <<< 64) significand 0
  if ← digitFollows then
    let _ ← takeDigits
    endDecimal positive significand (start - count)
  else if count = 0 then
    match ← peek with
    | some _ => failNext .invalidNumber
    | none => failNext .eofInValue
  else endDecimal positive significand (start - count)

/-- Ends a number that may have a point and an exponent; without them it is `whole`. -/
def endNumber (positive : Bool) (significand : Nat) (exponent : Int) (whole : Reader Number) :
    Reader Number := do
  match ← peek with
  | some 46 => do
    skip
    readDecimal positive significand exponent
  | some 101 => do
    skip
    readExponent positive significand exponent
  | some 69 => do
    skip
    readExponent positive significand exponent
  | _ => whole

/-- A whole number; negative zero and what does not fit 64 bits with a sign are floats. -/
def wholeNumber (positive : Bool) (n : Nat) : Number :=
  if positive then .natural n
  else if n = 0 ∨ 1 <<< 63 < n then .float (-Float.ofNat n)
  else .negative n

/-- Ends a number whose integer digits fit. -/
def endInteger (positive : Bool) (significand : Nat) : Reader Number :=
  endNumber positive significand 0 (pure (wholeNumber positive significand))

/-- Ends a number whose integer digits do not fit; the digits left only count. -/
def endLongInteger (positive : Bool) (significand : Nat) : Reader Number := do
  let dropped ← takeDigits
  endNumber positive significand dropped.length
    (floatOfParts positive significand dropped.length)

/-- Reads a number after its sign, if it has one. -/
def readNumber (positive : Bool) : Reader Number := do
  match ← next with
  | none => fail .eofInValue
  | some b =>
    if b = 48 then
      if ← digitFollows then failNext .invalidNumber else endInteger positive 0
    else if isDigit b then
      let (significand, _) ← readSmallDigits (1 <<< 64) (digitValue b) 1
      if ← digitFollows then endLongInteger positive significand
      else endInteger positive significand
    else fail .invalidNumber

/-! ## Strings -/

/-- The bytes of a code point. -/
def utf8 (n : Nat) : Bytes :=
  if n < 0x80 then [UInt8.ofNat n]
  else if n < 0x800 then [UInt8.ofNat (0xc0 + n / 64), UInt8.ofNat (0x80 + n % 64)]
  else if n < 0x10000 then
    [UInt8.ofNat (0xe0 + n / 4096), UInt8.ofNat (0x80 + n / 64 % 64), UInt8.ofNat (0x80 + n % 64)]
  else
    [UInt8.ofNat (0xf0 + n / 262144), UInt8.ofNat (0x80 + n / 4096 % 64),
      UInt8.ofNat (0x80 + n / 64 % 64), UInt8.ofNat (0x80 + n % 64)]

/-- Reads four hexadecimal digits. -/
def readCodeUnit : Reader Nat := fun s =>
  match s with
  | a :: b :: c :: d :: rest =>
    match Hex.value? a, Hex.value? b, Hex.value? c, Hex.value? d with
    | some a, some b, some c, some d => (.ok (((a * 16 + b) * 16 + c) * 16 + d), rest)
    | _, _, _, _ => fail .invalidEscape rest
  | _ => fail .eofInString []

/-- Takes one byte that the second half of a surrogate pair must have. -/
def pairByte (expected : UInt8) : Reader Unit := do
  match ← peek with
  | none => fail .eofInString
  | some b =>
    skip
    if b = expected then return () else fail .endOfHexEscape

/-- Reads an escaped code point after `\u`; a high surrogate takes its low one along. -/
def readCodePoint : Reader Bytes := do
  let high ← readCodeUnit
  if 0xdc00 ≤ high && high ≤ 0xdfff then fail .loneSurrogate
  else if high < 0xd800 || 0xdfff < high then return utf8 high
  else
    pairByte 92
    pairByte 117
    let low ← readCodeUnit
    if 0xdc00 ≤ low && low ≤ 0xdfff then
      return utf8 ((high - 0xd800) * 1024 + (low - 0xdc00) + 0x10000)
    else fail .loneSurrogate

/-- The byte that an escape of one letter stands for. -/
def escapeValue? (b : UInt8) : Option UInt8 :=
  if b = 34 ∨ b = 92 ∨ b = 47 then some b
  else if b = 98 then some 8
  else if b = 102 then some 12
  else if b = 110 then some 10
  else if b = 114 then some 13
  else if b = 116 then some 9
  else none

/-- Reads an escape after its backslash. -/
def readEscape : Reader Bytes := do
  match ← next with
  | none => fail .eofInString
  | some b =>
    match escapeValue? b with
    | some c => return [c]
    | none => if b = 117 then readCodePoint else fail .invalidEscape

/-- Whether a byte stands for itself in a string. -/
def isPlain (b : UInt8) : Bool := 32 ≤ b && b != 34 && b != 92

/-- Takes bytes that stand for themselves. -/
def takePlain : Reader Bytes := fun s => (.ok (s.takeWhile isPlain), s.dropWhile isPlain)

/-- Reads a string after its opening quote, with a bound on the number of its escapes. -/
def readStringParts : (fuel : Nat) → Reader Bytes
  | 0 => fail .eofInString
  | fuel + 1 => do
    let plain ← takePlain
    match ← next with
    | none => fail .eofInString
    | some 34 => return plain
    | some 92 =>
      let escape ← readEscape
      let rest ← readStringParts fuel
      return plain ++ escape ++ rest
    | some _ => fail .controlCharacter

/-- Reads a string after its opening quote. -/
def readString : Reader Bytes := fun s => readStringParts (s.length + 1) s

/-- The text of bytes that spell one. -/
def textOf (bytes : Bytes) : String :=
  (String.fromUTF8? ⟨bytes.toArray⟩).getD ""

end Json

end CreationGate
