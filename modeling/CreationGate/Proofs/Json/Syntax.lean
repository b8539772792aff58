import CreationGate.Identity
import CreationGate.Json.Literal

/-!
# The grammar of JSON texts

Texts as trees that account for each of their bytes: the blanks between tokens, how each
character of a string is spelled, how each number is written.  `Value.text` lays a tree out, and
`unescape?` says what a string spells.
-/

namespace CreationGate

namespace Json

/-! ## Blanks and digits -/

/-- What may stand between tokens. -/
def blanks : Bytes := Bytes.ofAscii " \t\n\r"

/-- Blanks between tokens. -/
structure Gap where
  bytes : Bytes
  blank : bytes.all blanks.contains = true

theorem Gap.mem_blanks (gap : Gap) {b : UInt8} (h : b ∈ gap.bytes) : b ∈ blanks :=
  List.contains_iff_mem.mp (List.all_eq_true.mp gap.blank b h)

instance : EmptyCollection Gap := ⟨⟨[], rfl⟩⟩

@[simp] theorem Gap.bytes_empty : (∅ : Gap).bytes = [] := rfl

instance : Append Gap where
  append a b := ⟨a.bytes ++ b.bytes, by rw [List.all_append, a.blank, b.blank]; rfl⟩

@[simp] theorem Gap.bytes_append (a b : Gap) : (a ++ b).bytes = a.bytes ++ b.bytes := rfl

/-- The hexadecimal digits of both cases with their values. -/
def hexDigits : List (UInt8 × Nat) :=
  (Bytes.ofAscii "0123456789abcdef").zipIdx ++ (Bytes.ofAscii "0123456789ABCDEF").zipIdx

/-- A hexadecimal digit. -/
structure HexDigit where
  byte : UInt8
  value : Nat
  mem : (byte, value) ∈ hexDigits

def digitByte (d : Fin 10) : UInt8 := 48 + UInt8.ofNat d.val

def digitsText (digits : List (Fin 10)) : Bytes := digits.map digitByte

/-- The number that decimal digits spell behind a number already spelled. -/
def spelledFrom (n : Nat) (digits : List (Fin 10)) : Nat :=
  digits.foldl (fun n d => n * 10 + d.val) n

/-! ## Strings -/

/-- The letters that may follow a backslash, with the bytes they stand for. -/
def shortEscapes : List (UInt8 × UInt8) :=
  (Bytes.ofAscii "\"\\/bfnrt").zip [34, 92, 47, 8, 12, 10, 13, 9]

/-- Four hexadecimal digits behind a backslash and a letter `u`. -/
structure CodeUnit where
  (a b c d : HexDigit)

namespace CodeUnit

def text (unit : CodeUnit) : Bytes := [unit.a.byte, unit.b.byte, unit.c.byte, unit.d.byte]

def value (unit : CodeUnit) : Nat :=
  ((unit.a.value * 16 + unit.b.value) * 16 + unit.c.value) * 16 + unit.d.value

/-- Whether a unit is the first half of a surrogate pair. -/
def isHigh (unit : CodeUnit) : Bool := 0xd800 ≤ unit.value && unit.value ≤ 0xdbff

/-- Whether a unit is the second half of a surrogate pair. -/
def isLow (unit : CodeUnit) : Bool := 0xdc00 ≤ unit.value && unit.value ≤ 0xdfff

end CodeUnit

/-- A part of a string. -/
inductive StringPart where
  | plain (b : UInt8) (allowed : 32 ≤ b ∧ b ≠ 34 ∧ b ≠ 92)
  | short (letter value : UInt8) (mem : (letter, value) ∈ shortEscapes)
  | unit (unit : CodeUnit)

def StringPart.text : StringPart → Bytes
  | plain b _ => [b]
  | short letter _ _ => [92, letter]
  | unit u => 92 :: 117 :: u.text

def partsText (parts : List StringPart) : Bytes := parts.flatMap StringPart.text

/-- What a string spells, if its surrogates come in pairs. -/
def unescape? : List StringPart → Option Bytes
  | [] => some []
  | .plain b _ :: rest => (unescape? rest).map (b :: ·)
  | .short _ value _ :: rest => (unescape? rest).map (value :: ·)
  | .unit high :: .unit low :: rest =>
    if high.isLow then none
    else if high.isHigh then
      if low.isLow then
        (unescape? rest).map
          (utf8 ((high.value - 0xd800) * 1024 + (low.value - 0xdc00) + 0x10000) ++ ·)
      else none
    else (unescape? (.unit low :: rest)).map (utf8 high.value ++ ·)
  | .unit single :: rest =>
    if single.isLow || single.isHigh then none
    else (unescape? rest).map (utf8 single.value ++ ·)

/-! ## Numbers -/

/-- Digits of which there is at least one. -/
structure Digits where
  first : Fin 10
  rest : List (Fin 10)

def Digits.text (digits : Digits) : Bytes := digitByte digits.first :: digitsText digits.rest

/-- The exponent of a number: its letter, its sign and its digits. -/
structure Exponent where
  capital : Bool
  sign : Option Bool
  digits : Digits

def signText : Option Bool → Bytes
  | none => []
  | some true => [43]
  | some false => [45]

def Exponent.text (exponent : Exponent) : Bytes :=
  (if exponent.capital then 69 else 101) :: (signText exponent.sign ++ exponent.digits.text)

/-- A number as it is written. -/
structure Numeral where
  negative : Bool
  whole : Digits
  /-- Only zero begins with the digit zero. -/
  leading : whole.first = 0 → whole.rest = []
  fraction : Option Digits
  exponent : Option Exponent

namespace Numeral

def fractionText : Option Digits → Bytes
  | none => []
  | some digits => 46 :: digits.text

def exponentText : Option Exponent → Bytes
  | none => []
  | some exponent => exponent.text

/-- A number without its sign. -/
def unsignedText (n : Numeral) : Bytes :=
  n.whole.text ++ (fractionText n.fraction ++ exponentText n.exponent)

def text (n : Numeral) : Bytes := if n.negative then 45 :: n.unsignedText else n.unsignedText

/-- The natural number that digits alone spell. -/
def natural? (n : Numeral) : Option Nat :=
  if n.negative || n.fraction.isSome || n.exponent.isSome then none
  else some (spelledFrom 0 (n.whole.first :: n.whole.rest))

end Numeral

/-! ## Values -/

inductive Word where
  | null
  | yes
  | no

def Word.text : Word → Bytes
  | null => Bytes.ofAscii "null"
  | yes => Bytes.ofAscii "true"
  | no => Bytes.ofAscii "false"

/-- Something between blanks. -/
structure Spaced (α : Type) where
  before : Gap
  value : α
  after : Gap

/-- A member of an object: a key, a colon and a value, with the blanks around each. -/
structure Member (α : Type) where
  before : Gap
  key : List StringPart
  after : Gap
  value : Spaced α

/-- The name that the key of a member spells. -/
def Member.name? {α : Type} (member : Member α) : Option Bytes := unescape? member.key

/-- A JSON value as it is written. -/
inductive Value where
  | word (word : Word)
  | number (number : Numeral)
  | string (parts : List StringPart)
  | list (opening : Gap) (items : List (Spaced Value))
  | object (opening : Gap) (members : List (Member Value))

/-- What stands before an item: a comma, unless it is the first. -/
def separator (first : Bool) : Bytes := if first then [] else [44]

mutual

def Value.text : Value → Bytes
  | .word word => word.text
  | .number number => number.text
  | .string parts => 34 :: (partsText parts ++ [34])
  | .list opening items => 91 :: (opening.bytes ++ (itemsText true items ++ [93]))
  | .object opening members => 123 :: (opening.bytes ++ (membersText true members ++ [125]))

/-- Items of a list, from the first on or further on. -/
def itemsText (first : Bool) : List (Spaced Value) → Bytes
  | [] => []
  | ⟨before, value, after⟩ :: rest =>
    separator first ++ (before.bytes ++ (value.text ++ (after.bytes ++ itemsText false rest)))

/-- Members of an object, from the first on or further on. -/
def membersText (first : Bool) : List (Member Value) → Bytes
  | [] => []
  | ⟨before, key, middle, ⟨lead, value, after⟩⟩ :: rest =>
    separator first ++ (before.bytes ++ (34 :: (partsText key ++ (34 :: (middle.bytes ++
      (58 :: (lead.bytes ++ (value.text ++ (after.bytes ++ membersText false rest)))))))))

end

namespace Value

/-- The items of a list; other values have none. -/
def items : Value → List (Spaced Value)
  | list _ items => items
  | _ => []

/-- The natural number that a value spells with digits alone. -/
def natural? : Value → Option Nat
  | number n => n.natural?
  | _ => none

end Value

end Json

end CreationGate
