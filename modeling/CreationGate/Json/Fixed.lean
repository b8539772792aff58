import CreationGate.Bytes.Fixed
import CreationGate.Json.Brackets

/-!
# Byte strings of a fixed length as JSON

Written as a string of lower-case digits behind `0x`.  Read from such a string, in either
case and with or without the marker, or from a list of numbers.
-/

namespace CreationGate

namespace Json

open Reader

/-- What digits are written behind. -/
def hexMarker : Bytes := [48, 120]

/-- A digit string without its marker, whose letter may be of either case. -/
def withoutMarker : Bytes → Bytes
  | 48 :: 120 :: digits => digits
  | 48 :: 88 :: digits => digits
  | digits => digits

/-- The first byte that is no digit, and where it stands. -/
def firstInvalidDigit (s : Bytes) : Cause :=
  let position := s.findIdx fun b => (Hex.value? b).isNone
  .invalidDigit (s[position]?.getD 0) position

/-- The byte string that a digit string spells.  Its length is looked at before its digits. -/
def fixedOfDigits (n : Nat) (s : Bytes) : Except Cause (FixedBytes n) :=
  if s.length % 2 ≠ 0 then .error .oddDigits
  else
    let digits := withoutMarker s
    if digits.length ≠ 2 * n then .error .wrongStringLength
    else
      match (Hex.decode digits).bind (FixedBytes.ofBytes? n) with
      | some bytes => .ok bytes
      | none => .error (firstInvalidDigit digits)

/-- What was found in a value that was read completely. -/
def ofExcept {α : Type} : Except Cause α → Reader α
  | .ok a => pure a
  | .error cause => reject cause

/-- A number that is a byte. -/
def byteOfNumber : Number → Except Cause UInt8
  | .natural n =>
    if n < 256 then .ok (UInt8.ofNat n) else .error (.invalidValue (.integer n) .byte)
  | .negative n => .error (.invalidValue (.integer (-n)) .byte)
  | .float f => .error (.invalidType (Number.float f).found .byte)

/-- Reads a byte, which is a number. -/
def readByte : Reader UInt8 := placed do
  let b ← tokenIn .eofInValue
  if b = 45 then
    skip
    ofExcept (byteOfNumber (← readNumber false))
  else if isDigit b then ofExcept (byteOfNumber (← readNumber true))
  else refuse .byte

/-- Reads the elements `i` up to `total` of a list of bytes. -/
def readByteElements (total : Nat) : (k i : Nat) → Reader { l : Bytes // l.length = k }
  | 0, _ => pure ⟨[], rfl⟩
  | k + 1, i => do
    match ← readElement? (i == 0) readByte with
    | none => reject (.invalidLength i (.byteCount total))
    | some b =>
      let rest ← readByteElements total k (i + 1)
      return ⟨b :: rest.val, by simp [rest.property]⟩

/-- Reads a byte string from the elements of a list.  One element more than there should be
is a fault only if it is a byte itself. -/
def readFixedElements (n : Nat) : Reader (FixedBytes n) := do
  let bytes ← readByteElements n n 0
  match ← attempt (readElement? (n == 0) readByte) with
  | some (some _) => reject (.invalidLength (n + 1) (.byteCount n))
  | _ => return ⟨bytes.val, bytes.property⟩

/-- Reads a byte string of a length: digits in quotes or a list of bytes. -/
def readFixed (n : Nat) : Reader (FixedBytes n) := placed do
  let b ← tokenIn .eofInValue
  if b = 34 then ofExcept (fixedOfDigits n (← readName))
  else if b = 91 then inList (readFixedElements n)
  else if b = 123 then inObject (reject (.invalidType .map (.fixedBytes n)))
  else refuse (.fixedBytes n)

/-- Reads a list of elements of one kind. -/
def readListOf {α : Type} (element : Reader α) : Reader (List α) := placed do
  let b ← tokenIn .eofInValue
  if b = 91 then inList fun s => readElements element (s.length + 1) true s
  else refuse .sequence

end Json

end CreationGate
