import CreationGate.Json.Fixed
import CreationGate.Proofs.Json.Numbers
import CreationGate.Proofs.Json.Strings

/-!
# Reading lists, objects and bytes

Between the items of a list the reader stands before the next value (`readElement?_cons`), so
what is true of the reader of one item is true of all of them in turn.  A reader takes a value
whole if, where it accepts the value, it leaves exactly what follows (`TakesWhole`).
-/

namespace CreationGate

namespace Json

open Reader

variable {α : Type}

/-! ## The first byte of a value -/

namespace Value

/-- The first byte of a value. -/
def lead : Value → UInt8
  | word .null => 110
  | word .yes => 116
  | word .no => 102
  | number n => if n.negative then 45 else digitByte n.whole.first
  | string _ => 34
  | list _ _ => 91
  | object _ _ => 123

theorem lead_string (parts : List StringPart) : (string parts).lead = 34 := rfl

theorem lead_list (opening : Gap) (items : List (Spaced Value)) : (list opening items).lead = 91 :=
  rfl

theorem lead_object (opening : Gap) (members : List (Member Value)) :
    (object opening members).lead = 123 := rfl

theorem lead_of_negative {n : Numeral} (h : n.negative = true) : (number n).lead = 45 := by
  rw [lead, if_pos h]

theorem lead_of_unsigned {n : Numeral} (h : n.negative = false) :
    (number n).lead = digitByte n.whole.first := by
  rw [lead, if_neg (by rw [h]; decide)]

theorem string_text_append (parts : List StringPart) (rest : Bytes) :
    (string parts).text ++ rest = 34 :: (partsText parts ++ 34 :: rest) := by
  simp [text]

theorem text_eq_cons (value : Value) : ∃ more, value.text = value.lead :: more := by
  cases value with
  | word word => cases word <;> exact ⟨_, rfl⟩
  | number n =>
    cases hnegative : n.negative with
    | true =>
      rw [lead_of_negative hnegative, text, Numeral.text_of_negative hnegative]
      exact ⟨_, rfl⟩
    | false =>
      rw [lead_of_unsigned hnegative, text, Numeral.text_of_unsigned hnegative]
      exact ⟨_, rfl⟩
  | string parts => exact ⟨_, by rw [text, lead]⟩
  | list opening items => exact ⟨_, by rw [text, lead]⟩
  | object opening members => exact ⟨_, by rw [text, lead]⟩

theorem lead_stands (value : Value) :
    isBlank value.lead = false ∧ value.lead ≠ 93 ∧ value.lead ≠ 125 := by
  have hdigit : ∀ d, isBlank (digitByte d) = false ∧ digitByte d ≠ 93 ∧ digitByte d ≠ 125 := by
    decide
  cases value with
  | word word => cases word <;> decide
  | number n =>
    rw [lead]
    split
    · decide
    · exact hdigit _
  | _ => exact ⟨rfl, by simp [lead]⟩

theorem midway (value : Value) (rest : Bytes) : Midway (value.text ++ rest) := by
  obtain ⟨more, htext⟩ := value.text_eq_cons
  obtain ⟨hblank, hend, -⟩ := value.lead_stands
  exact ⟨value.lead, more ++ rest, by rw [htext]; rfl, hblank, hend⟩

end Value

theorem tokenIn_value (eof : Cause) (gap : Gap) (value : Value) (rest : Bytes) :
    tokenIn eof (gap.bytes ++ (value.text ++ rest)) = (.ok value.lead, value.text ++ rest) := by
  obtain ⟨more, htext⟩ := value.text_eq_cons
  rw [htext]
  exact tokenIn_gap eof gap value.lead_stands.1 (more ++ rest)

theorem tokenIn_text (eof : Cause) (value : Value) (rest : Bytes) :
    tokenIn eof (value.text ++ rest) = (.ok value.lead, value.text ++ rest) :=
  tokenIn_value eof ∅ value rest

/-! ## What follows a value -/

theorem delimited_gap (gap : Gap) {s : Bytes} (h : Delimited s) : Delimited (gap.bytes ++ s) := by
  have hblank : (blanks.all fun b => isDigit b = false ∧ b ≠ 46 ∧ b ≠ 101 ∧ b ≠ 69) = true := by
    decide
  cases hbytes : gap.bytes with
  | nil => exact h
  | cons b more =>
    intro c hc
    cases hc
    have hb : b ∈ blanks := gap.mem_blanks (hbytes ▸ List.mem_cons_self)
    exact of_decide_eq_true (List.all_eq_true.mp hblank b hb)

theorem delimited_cons {b : UInt8} (hb : isDigit b = false ∧ b ≠ 46 ∧ b ≠ 101 ∧ b ≠ 69)
    (s : Bytes) : Delimited (b :: s) := by
  intro c hc
  cases hc
  exact hb

theorem delimited_items (items : List (Spaced Value)) (tail : Bytes) :
    Delimited (itemsText false items ++ 93 :: tail) := by
  cases items with
  | nil => exact delimited_cons (by decide) _
  | cons item items =>
    obtain ⟨before, value, after⟩ := item
    rw [itemsText]
    exact delimited_cons (by decide) _

theorem delimited_members (members : List (Member Value)) (tail : Bytes) :
    Delimited (membersText false members ++ 125 :: tail) := by
  cases members with
  | nil => exact delimited_cons (by decide) _
  | cons member members =>
    obtain ⟨before, key, middle, lead, value, after⟩ := member
    rw [membersText]
    exact delimited_cons (by decide) _

/-! ## Lists -/

section Lists

variable (first : Bool) (r : Reader α) (gap : Gap)

theorem readElement?_nil (tail : Bytes) :
    readElement? first r (gap.bytes ++ (itemsText first [] ++ 93 :: tail))
      = (.ok none, 93 :: tail) := by
  have htoken := tokenIn_gap .eofInList gap (by decide : isBlank 93 = false) tail
  rw [itemsText, List.nil_append, readElement?, bind_of_ok htoken, if_pos rfl]
  rfl

/-- Before an item of a list its reader starts at its value. -/
theorem readElement?_cons (item : Spaced Value) (items : List (Spaced Value)) (tail : Bytes) :
    readElement? first r (gap.bytes ++ (itemsText first (item :: items) ++ tail))
      = (some <$> r)
        (item.value.text ++ (item.after.bytes ++ (itemsText false items ++ tail))) := by
  obtain ⟨before, value, after⟩ := item
  obtain ⟨-, hend, -⟩ := value.lead_stands
  cases first with
  | true =>
    simp only [itemsText, separator, if_true, List.nil_append, List.append_assoc]
    have htoken := tokenIn_value .eofInList (gap ++ before) value
      (after.bytes ++ (itemsText false items ++ tail))
    rw [Gap.bytes_append, List.append_assoc] at htoken
    rw [readElement?, bind_of_ok htoken, if_neg hend, if_pos rfl]
  | false =>
    simp only [itemsText, separator, Bool.false_eq_true, if_false, List.append_assoc,
      List.cons_append, List.nil_append]
    have hcomma := tokenIn_gap .eofInList gap (by decide : isBlank 44 = false)
      (before.bytes ++ (value.text ++ (after.bytes ++ (itemsText false items ++ tail))))
    have htoken := tokenIn_value .eofInValue before value
      (after.bytes ++ (itemsText false items ++ tail))
    rw [readElement?, bind_of_ok hcomma, if_neg (by decide), if_neg (by decide), if_pos rfl]
    exact (bind_of_ok htoken).trans (congrFun (if_neg hend) _)

theorem endList_nil (tail : Bytes) : endList (gap.bytes ++ 93 :: tail) = (.ok (), tail) := by
  have htoken := tokenIn_gap .eofInList gap (by decide : isBlank 93 = false) tail
  rw [endList, bind_of_ok htoken, if_pos rfl]
  rfl

/-- The end of a list is not found before another item. -/
theorem endList_cons (item : Spaced Value) (items : List (Spaced Value)) (tail : Bytes) :
    Fails endList (gap.bytes ++ (itemsText false (item :: items) ++ tail)) := by
  obtain ⟨before, value, after⟩ := item
  rw [itemsText]
  have hcomma := tokenIn_gap .eofInList gap (by decide : isBlank 44 = false)
    (before.bytes ++ (value.text ++ (after.bytes ++ itemsText false items)) ++ tail)
  refine .bind_of_ok hcomma ?_
  rw [if_neg (by decide), if_pos rfl]
  refine .bind_of_ok (rfl : skip _ = (.ok (), _)) (.bind_of_ok (rfl : token _ = (.ok _, _)) ?_)
  split
  · exact .failNext _ _
  · exact .failNext _ _

theorem endList_midway {s : Bytes} (h : Midway s) : Fails endList s := by
  obtain ⟨b, more, rfl, hblank, hend⟩ := h
  refine .bind_of_ok (tokenIn_cons .eofInList hblank more) ?_
  rw [if_neg hend]
  split
  · refine .bind_of_ok (rfl : skip _ = (.ok (), _)) (.bind_of_ok (rfl : token _ = (.ok _, _)) ?_)
    split
    · exact .failNext _ _
    · exact .failNext _ _
  · exact .failNext _ _

end Lists

/-! ## Values taken whole -/

/-- Where a reader accepts a value, it leaves what follows. -/
def TakesWhole (r : Reader α) (value : Value) : Prop :=
  ∀ rest, Delimited rest → ∀ a s', r (value.text ++ rest) = (.ok a, s') → s' = rest

/-- A reader reads a value as `a`, whatever follows. -/
def ReadsAs (r : Reader α) (value : Value) (a : α) : Prop :=
  ∀ rest, Delimited rest → r (value.text ++ rest) = (.ok a, rest)

theorem TakesWhole.of_fails {r : Reader α} {value : Value}
    (h : ∀ rest, Fails r (value.text ++ rest)) : TakesWhole r value :=
  fun rest _ a s' hr => absurd hr ((h rest).ne_ok a s')

theorem TakesWhole.placed {r : Reader α} {value : Value} (h : TakesWhole r value) :
    TakesWhole (placed r) value :=
  fun rest hrest a s' hr => h rest hrest a s' (placed_eq_ok hr)

theorem ReadsAs.placed {r : Reader α} {value : Value} {a : α} (h : ReadsAs r value a) :
    ReadsAs (placed r) value a :=
  fun rest hrest => placed_of_ok (h rest hrest)

/-! ## Refused values -/

/-- A value that spells its content: any but a string that spells nothing. -/
def Value.Unescapes : Value → Prop
  | string parts => (unescape? parts).isSome
  | _ => True

theorem refuse_fails (expected : Expected) (s : Bytes) : Fails (refuse expected : Reader α) s := by
  refine .placed (.bind_of_ok (rfl : peek s = (.ok s.head?, s)) ?_)
  have hskip : skip s = (.ok (), s.tail) := rfl
  split
  · exact .bind_of_ok hskip (.bind_always fun _ => .reject _)
  · exact .bind_of_ok hskip (.bind_always fun _ => .reject _)
  · exact .bind_of_ok hskip (.bind_always fun _ => .reject _)
  · exact .bind_of_ok hskip (.bind_always fun _ => .reject _)
  · exact .bind_always fun _ => .reject _
  · exact .reject _ _
  · exact .reject _ _
  · split
    · exact .bind_always fun _ => .reject _
    · exact .failNext _ _
  · exact .failNext _ _

/-- A refused value has been taken whole, or not at all. -/
theorem refuse_ends (expected : Expected) {value : Value} (h : value.Unescapes) {rest : Bytes}
    (hrest : Delimited rest) : Ends (refuse expected : Reader α) (value.text ++ rest) rest := by
  refine .placed ?_
  cases value with
  | word word => cases word <;> exact .inl rfl
  | number n =>
    cases hnegative : n.negative with
    | true =>
      rw [Value.text, Numeral.text_of_negative hnegative, List.cons_append]
      refine .bind_of_ok (peek_cons 45 _) (.bind_of_ok (skip_cons 45 _) ?_)
      exact (readNumber_ends hrest n false).bind fun _ => rfl
    | false =>
      have hbytes : ∀ d, digitByte d ≠ 110 ∧ digitByte d ≠ 116 ∧ digitByte d ≠ 102
          ∧ digitByte d ≠ 45 ∧ digitByte d ≠ 34 ∧ digitByte d ≠ 91 ∧ digitByte d ≠ 123 := by
        decide
      rw [Value.text, Numeral.text_of_unsigned hnegative]
      refine .bind_of_ok (peek_cons (digitByte n.whole.first) _) ?_
      obtain ⟨h₁, h₂, h₃, h₄, h₅, h₆, h₇⟩ := hbytes n.whole.first
      split
      next heq => exact absurd (Option.some.inj heq) h₁
      next heq => exact absurd (Option.some.inj heq) h₂
      next heq => exact absurd (Option.some.inj heq) h₃
      next heq => exact absurd (Option.some.inj heq) h₄
      next heq => exact absurd (Option.some.inj heq) h₅
      next heq => exact absurd (Option.some.inj heq) h₆
      next heq => exact absurd (Option.some.inj heq) h₇
      next heq =>
        obtain rfl := Option.some.inj heq
        rw [if_pos (isDigit_digitByte _)]
        exact (readNumber_ends hrest n true).bind fun _ => rfl
      next heq => cases heq
  | string parts =>
    obtain ⟨s, hs⟩ := Option.isSome_iff_exists.mp h
    have hname := readName_parts parts rest
    rw [hs] at hname
    rw [Value.string_text_append]
    exact .bind_of_ok (peek_cons 34 _) (.bind_of_ok hname (.inl rfl))
  | list opening items =>
    exact .inr ⟨_, _, rfl, Value.midway (.list opening items) rest⟩
  | object opening members =>
    exact .inr ⟨_, _, rfl, Value.midway (.object opening members) rest⟩

/-! ## Bytes -/

theorem readByte_number {rest : Bytes} (hrest : Delimited rest) (n : Numeral) :
    Ends readByte ((Value.number n).text ++ rest) rest := by
  refine .placed (.bind_of_ok (tokenIn_text .eofInValue (.number n) rest) ?_)
  cases hnegative : n.negative with
  | true =>
    rw [Value.lead_of_negative hnegative, if_pos rfl, Value.text,
      Numeral.text_of_negative hnegative, List.cons_append]
    refine .bind_of_ok (skip_cons 45 _) ?_
    exact (readNumber_ends hrest n false).bind fun a => by cases byteOfNumber a <;> rfl
  | false =>
    rw [Value.lead_of_unsigned hnegative, if_neg (digitByte_ne_sign _).2,
      if_pos (isDigit_digitByte _), Value.text, Numeral.text_of_unsigned hnegative]
    exact (readNumber_ends hrest n true).bind fun a => by cases byteOfNumber a <;> rfl

theorem readByte_other {value : Value} (h : ∀ n, value ≠ .number n) (rest : Bytes) :
    readByte (value.text ++ rest) = placed (refuse .byte) (value.text ++ rest) := by
  have hlead : value.lead ≠ 45 ∧ ¬isDigit value.lead = true := by
    cases value with
    | word word => cases word <;> decide
    | number n => exact absurd rfl (h n)
    | _ => exact ⟨by simp [Value.lead], by simp [Value.lead]; decide⟩
  refine placed_congr ((bind_of_ok (tokenIn_text .eofInValue value rest)).trans ?_)
  rw [if_neg hlead.1, if_neg hlead.2]

/-- A byte is taken whole, and so is what is refused as a byte. -/
theorem readByte_ends {value : Value} (h : value.Unescapes) {rest : Bytes}
    (hrest : Delimited rest) : Ends readByte (value.text ++ rest) rest := by
  by_cases hnumber : ∃ n, value = .number n
  · obtain ⟨n, rfl⟩ := hnumber
    exact readByte_number hrest n
  · have hother := readByte_other (fun n heq => hnumber ⟨n, heq⟩) rest
    exact .of_eq hother (refuse_ends .byte h hrest).placed

theorem readByte_takesWhole (value : Value) : TakesWhole readByte value := by
  by_cases hnumber : ∃ n, value = .number n
  · obtain ⟨n, rfl⟩ := hnumber
    exact fun rest hrest a s' hr => (readByte_number hrest n).eq_of_ok hr
  · refine .of_fails fun rest => ?_
    have hother := readByte_other (fun n heq => hnumber ⟨n, heq⟩) rest
    exact .of_eq hother (refuse_fails .byte _).placed

/-- Digits alone that spell a byte are read as this byte. -/
theorem readByte_readsAs {value : Value} {b : UInt8} (h : value.natural? = some b.toNat) :
    ReadsAs readByte value b := by
  cases value with
  | number n =>
    refine .placed fun rest hrest => ?_
    obtain ⟨hnegative, hnumber⟩ := readNumber_natural hrest n h
      (Nat.lt_trans b.toNat_lt (by decide))
    rw [bind_of_ok (tokenIn_text .eofInValue (.number n) rest), Value.lead_of_unsigned hnegative,
      if_neg (digitByte_ne_sign _).2, if_pos (isDigit_digitByte _), Value.text,
      Numeral.text_of_unsigned hnegative, bind_of_ok hnumber]
    simp only [byteOfNumber, b.toNat_lt, if_true, UInt8.ofNat_toNat]
    rfl
  | _ => cases h

end Json

end CreationGate
