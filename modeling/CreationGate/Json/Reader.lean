import CreationGate.Json.Fault

/-!
# Readers

A reader takes bytes off the front of a text and gives a value or a fault.  What it has taken
stays taken when it fails, so that the reader of an enclosing value can go on from there.
-/

namespace CreationGate

namespace Json

/-- Takes a value off the front of a text, or finds a fault, and says what is left. -/
def Reader (α : Type) := Bytes → Except Fault α × Bytes

namespace Reader

variable {α β : Type}

instance : Monad Reader where
  pure a := fun s => (.ok a, s)
  bind r f := fun s =>
    match r s with
    | (.ok a, s') => f a s'
    | (.error e, s') => (.error e, s')

@[simp] theorem pure_apply (a : α) (s : Bytes) : (pure a : Reader α) s = (.ok a, s) := rfl

theorem bind_apply (r : Reader α) (f : α → Reader β) (s : Bytes) :
    (r >>= f) s = match r s with
      | (.ok a, s') => f a s'
      | (.error e, s') => (.error e, s') := rfl

/-- What follows a value that was read. -/
theorem bind_of_ok {r : Reader α} {f : α → Reader β} {s s' : Bytes} {a : α}
    (h : r s = (.ok a, s')) : (r >>= f) s = f a s' := by
  rw [bind_apply, h]

/-- A fault ends the reading. -/
theorem bind_of_error {r : Reader α} {f : α → Reader β} {s s' : Bytes} {e : Fault}
    (h : r s = (.error e, s')) : (r >>= f) s = (.error e, s') := by
  rw [bind_apply, h]

/-- A fault at the place reached. -/
def fail (cause : Cause) : Reader α := fun s => (.error ⟨cause, some s.length⟩, s)

/-- A fault at the byte that comes next, as if it were taken. -/
def failNext (cause : Cause) : Reader α := fun s => (.error ⟨cause, some (s.length - 1)⟩, s)

/-- A fault of a value that was read completely, which has no place yet. -/
def reject (cause : Cause) : Reader α := fun s => (.error ⟨cause, none⟩, s)

/-- Gives a fault without a place the place reached. -/
def placed (r : Reader α) : Reader α := fun s =>
  match r s with
  | (.error ⟨cause, none⟩, s') => (.error ⟨cause, some s'.length⟩, s')
  | result => result

/-- Runs one reader and then another even if the first fails; the fault of the first wins. -/
def thenAlways (r : Reader α) (last : Reader Unit) : Reader α := fun s =>
  match r s with
  | (.error e, s') => (.error e, (last s').2)
  | (.ok a, s') =>
    match last s' with
    | (.ok (), s'') => (.ok a, s'')
    | (.error e, s'') => (.error e, s'')

/-- The value if there is one; a fault is forgotten, but what was taken stays taken. -/
def attempt (r : Reader α) : Reader (Option α) := fun s =>
  match r s with
  | (.ok a, s') => (.ok (some a), s')
  | (.error _, s') => (.ok none, s')

/-- Looks at the next byte. -/
def peek : Reader (Option UInt8) := fun s => (.ok s.head?, s)

/-- Takes the next byte. -/
def skip : Reader Unit := fun s => (.ok (), s.tail)

/-- Takes the next byte and gives it, if there is one. -/
def next : Reader (Option UInt8) := fun s => (.ok s.head?, s.tail)

/-- Whether a byte is blank: a space, a tab, a line feed or a carriage return. -/
def isBlank (b : UInt8) : Bool := b == 32 || b == 9 || b == 10 || b == 13

/-- Takes blanks, then looks at the next byte. -/
def token : Reader (Option UInt8) := fun s =>
  let s' := s.dropWhile isBlank
  (.ok s'.head?, s')

/-- Takes blanks, then looks at the next byte of a text that must not end here. -/
def tokenIn (eof : Cause) : Reader UInt8 := do
  match ← token with
  | some b => return b
  | none => failNext eof

end Reader

end Json

end CreationGate
