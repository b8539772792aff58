import CreationGate.Proofs.Json.Outcome
import CreationGate.Proofs.Json.Syntax

/-!
# Reading numbers

A number may be refused, but then it has been taken whole, or the reader stands before one of
its digits (`readNumber_ends`).  Digits alone are read as the number they spell
(`readNumber_natural`).
-/

namespace CreationGate

namespace Json

open Reader

/-! ## Digits -/

/-- No number goes on with what is left. -/
def Delimited (s : Bytes) : Prop :=
  ∀ b ∈ s.head?, isDigit b = false ∧ b ≠ 46 ∧ b ≠ 101 ∧ b ≠ 69

theorem isDigit_digitByte (d : Fin 10) : isDigit (digitByte d) = true := by
  revert d
  decide

theorem digitValue_digitByte (d : Fin 10) : digitValue (digitByte d) = d.val := by
  revert d
  decide

/-- What is left does not begin with a digit. -/
def NoDigit (s : Bytes) : Prop := ∀ b ∈ s.head?, isDigit b = false

theorem le_spelledFrom (n : Nat) (digits : List (Fin 10)) : n ≤ spelledFrom n digits := by
  induction digits generalizing n with
  | nil => exact Nat.le_refl n
  | cons d digits ih =>
    have hstep : n * 10 + d.val ≤ spelledFrom n (d :: digits) := ih (n * 10 + d.val)
    omega

section Digits

variable {rest : Bytes} (hrest : NoDigit rest) (digits : List (Fin 10))
include hrest

theorem takeDigits_text :
    takeDigits (digitsText digits ++ rest) = (.ok (digitsText digits), rest) := by
  have hall : ∀ b ∈ digitsText digits, isDigit b = true := by
    intro b hb
    obtain ⟨d, -, rfl⟩ := List.mem_map.mp hb
    exact isDigit_digitByte d
  have hstop : rest.takeWhile isDigit = [] ∧ rest.dropWhile isDigit = rest := by
    cases rest with
    | nil => exact ⟨rfl, rfl⟩
    | cons b rest =>
      have hb : ¬isDigit b = true := Bool.eq_false_iff.mp (hrest b rfl)
      exact ⟨List.takeWhile_cons_of_neg hb, List.dropWhile_cons_of_neg hb⟩
  rw [takeDigits, List.takeWhile_append_of_pos hall, List.dropWhile_append_of_pos hall, hstop.1,
    hstop.2, List.append_nil]

theorem digitFollows_text :
    digitFollows (digitsText digits ++ rest)
      = (.ok !digits.isEmpty, digitsText digits ++ rest) := by
  cases digits with
  | nil =>
    cases rest with
    | nil => rfl
    | cons b rest => simp [digitFollows, digitsText, hrest b rfl]
  | cons d digits => simp [digitFollows, digitsText, isDigit_digitByte]

/-- Digits are taken as long as the number stays below the limit. -/
theorem takeSmallDigits_text (limit n count : Nat) :
    ∃ k ≤ digits.length, (spelledFrom n digits < limit → k = digits.length)
      ∧ takeSmallDigits limit n count (digitsText digits ++ rest)
        = ((spelledFrom n (digits.take k), count + k), digitsText (digits.drop k) ++ rest) := by
  induction digits generalizing n count with
  | nil =>
    refine ⟨0, Nat.le_refl 0, fun _ => rfl, ?_⟩
    cases rest with
    | nil => rfl
    | cons b rest => simp [takeSmallDigits, digitsText, spelledFrom, hrest b rfl]
  | cons d digits ih =>
    by_cases hsmall : n * 10 + d.val < limit
    · obtain ⟨k, hk, hfits, htake⟩ := ih (n * 10 + d.val) (count + 1)
      refine ⟨k + 1, Nat.succ_le_succ hk, fun h => congrArg (· + 1) (hfits h), ?_⟩
      have hstep : takeSmallDigits limit n count (digitsText (d :: digits) ++ rest)
          = takeSmallDigits limit (n * 10 + d.val) (count + 1) (digitsText digits ++ rest) := by
        simp [takeSmallDigits, digitsText, isDigit_digitByte, digitValue_digitByte, hsmall]
      rw [hstep, htake, Nat.add_assoc, Nat.add_comm 1 k]
      rfl
    · have hgrows : n * 10 + d.val ≤ spelledFrom n (d :: digits) := le_spelledFrom _ digits
      refine ⟨0, Nat.zero_le _, fun h => absurd (Nat.lt_of_le_of_lt hgrows h) hsmall, ?_⟩
      simp [takeSmallDigits, digitsText, isDigit_digitByte, digitValue_digitByte, hsmall,
        spelledFrom]

end Digits

/-! ## Fractions and exponents -/

theorem digitByte_ne_sign (d : Fin 10) : digitByte d ≠ 43 ∧ digitByte d ≠ 45 := by
  revert d
  decide

theorem midway_digitByte (d : Fin 10) (rest : Bytes) : Midway (digitByte d :: rest) := by
  have hall : ∀ d, isBlank (digitByte d) = false ∧ digitByte d ≠ 93 := by decide
  exact ⟨digitByte d, rest, rfl, hall d⟩

theorem Delimited.noDigit {rest : Bytes} (h : Delimited rest) : NoDigit rest :=
  fun b hb => (h b hb).1

theorem readSmallDigits_text {rest : Bytes} (hrest : NoDigit rest) (digits : List (Fin 10))
    (limit n count : Nat) :
    ∃ k ≤ digits.length, (spelledFrom n digits < limit → k = digits.length)
      ∧ readSmallDigits limit n count (digitsText digits ++ rest)
        = (.ok (spelledFrom n (digits.take k), count + k), digitsText (digits.drop k) ++ rest) := by
  obtain ⟨k, hk, hfits, htake⟩ := takeSmallDigits_text hrest digits limit n count
  exact ⟨k, hk, hfits, by rw [readSmallDigits, htake]⟩

theorem floatOfParts_left (positive : Bool) (significand : Nat) (exponent : Int) (s : Bytes) :
    (floatOfParts positive significand exponent s).2 = s := by
  unfold floatOfParts
  simp only []
  split
  · rfl
  split
  · split <;> rfl
  split <;> rfl

theorem readExponentSign_text (sign : Option Bool) (digits : Digits) (rest : Bytes) :
    ∃ upward, readExponentSign (signText sign ++ (digits.text ++ rest))
      = (.ok upward, digits.text ++ rest) := by
  match sign with
  | some true => exact ⟨true, rfl⟩
  | some false => exact ⟨false, rfl⟩
  | none =>
    obtain ⟨hplus, hminus⟩ := digitByte_ne_sign digits.first
    refine ⟨true, ?_⟩
    have hpeek := peek_cons (digitByte digits.first) (digitsText digits.rest ++ rest)
    refine bind_of_ok_of_eq hpeek (?_ : _ = (pure true : Reader Bool))
    split
    next heq => exact absurd (Option.some.inj heq) hplus
    next heq => exact absurd (Option.some.inj heq) hminus
    next => rfl

/-- A reader that fails before digits. -/
theorem fail_ends {α : Type} (cause : Cause) (digits : List (Fin 10)) (rest : Bytes) :
    Ends (fail cause : Reader α) (digitsText digits ++ rest) rest := by
  cases digits with
  | nil => exact .inl rfl
  | cons d digits => exact .inr ⟨_, _, rfl, midway_digitByte d _⟩

section Ends

variable {rest : Bytes} (positive : Bool) (significand : Nat) (start : Int)

/-- An exponent is taken whole unless it is too large. -/
theorem readExponent_ends (hrest : NoDigit rest) (sign : Option Bool) (digits : Digits) :
    Ends (readExponent positive significand start) (signText sign ++ (digits.text ++ rest))
      rest := by
  obtain ⟨upward, hsign⟩ := readExponentSign_text sign digits rest
  refine .bind_of_ok hsign (.bind_of_ok (next_cons (digitByte digits.first) _) ?_)
  simp only [isDigit_digitByte, Bool.not_true, Bool.false_eq_true, if_false]
  obtain ⟨k, -, -, hdigits⟩ := readSmallDigits_text hrest digits.rest (1 <<< 31)
    (digitValue (digitByte digits.first)) 1
  refine .bind_of_ok hdigits (.bind_of_ok (digitFollows_text hrest _) ?_)
  cases digits.rest.drop k with
  | nil => exact .inl (floatOfParts_left _ _ _ _)
  | cons d more =>
    refine .bind_of_ok (skip_cons (digitByte d) (digitsText more ++ rest)) ?_
    split
    · exact fail_ends _ more rest
    · exact .bind_of_ok (takeDigits_text hrest more) (.inl rfl)

/-- What a number may go on with after its digits: the exponent, or else what ends it. -/
theorem exponentText_cases (exponent : Option Exponent) (rest : Bytes) :
    (exponent = none ∧ Numeral.exponentText exponent ++ rest = rest)
      ∨ ∃ sign digits tail, tail = signText sign ++ (Digits.text digits ++ rest)
        ∧ (Numeral.exponentText exponent ++ rest = 101 :: tail
          ∨ Numeral.exponentText exponent ++ rest = 69 :: tail) := by
  match exponent with
  | none => exact .inl ⟨rfl, rfl⟩
  | some ⟨true, sign, digits⟩ =>
    exact .inr ⟨sign, digits, _, rfl, .inr (congrArg (69 :: ·) (List.append_assoc _ _ _))⟩
  | some ⟨false, sign, digits⟩ =>
    exact .inr ⟨sign, digits, _, rfl, .inl (congrArg (101 :: ·) (List.append_assoc _ _ _))⟩

theorem noDigit_exponent (hrest : Delimited rest) (exponent : Option Exponent) :
    NoDigit (Numeral.exponentText exponent ++ rest) := by
  obtain ⟨-, heq⟩ | ⟨sign, digits, tail, -, heq | heq⟩ := exponentText_cases exponent rest
  · rw [heq]
    exact hrest.noDigit
  all_goals
    rw [heq]
    intro b hb
    cases hb
    decide

theorem endDecimal_ends (hrest : Delimited rest) (exponent : Option Exponent) :
    Ends (endDecimal positive significand start) (Numeral.exponentText exponent ++ rest) rest := by
  obtain ⟨-, heq⟩ | ⟨sign, digits, tail, rfl, heq | heq⟩ := exponentText_cases exponent rest
  · rw [heq]
    have hpeek : peek rest = (.ok rest.head?, rest) := rfl
    refine .bind_of_ok hpeek ?_
    split
    next hhead => exact absurd rfl (hrest 101 hhead).2.2.1
    next hhead => exact absurd rfl (hrest 69 hhead).2.2.2
    next => exact .inl (floatOfParts_left _ _ _ _)
  · rw [heq]
    exact readExponent_ends positive significand start hrest.noDigit sign digits
  · rw [heq]
    exact readExponent_ends positive significand start hrest.noDigit sign digits

/-- Decimal places are taken whole, since there is at least one. -/
theorem readDecimal_ends (hrest : Delimited rest) (digits : Digits) (exponent : Option Exponent) :
    Ends (readDecimal positive significand start)
      (digits.text ++ (Numeral.exponentText exponent ++ rest)) rest := by
  have hexponent := noDigit_exponent hrest exponent
  obtain ⟨k, hk, -, hdigits⟩ := readSmallDigits_text hexponent (digits.first :: digits.rest)
    (1 <<< 64) significand 0
  have htext : digits.text ++ (Numeral.exponentText exponent ++ rest)
      = digitsText (digits.first :: digits.rest) ++ (Numeral.exponentText exponent ++ rest) := rfl
  rw [htext]
  refine .bind_of_ok hdigits (.bind_of_ok (digitFollows_text hexponent _) ?_)
  cases hleft : (digits.first :: digits.rest).drop k with
  | nil =>
    have hcount : k ≠ 0 := by
      rintro rfl
      cases hleft
    simp only [List.isEmpty_nil, Bool.not_true, Bool.false_eq_true, if_false, Nat.zero_add,
      if_neg hcount]
    exact endDecimal_ends _ _ _ hrest exponent
  | cons d more =>
    refine .bind_of_ok (takeDigits_text hexponent _) ?_
    exact endDecimal_ends _ _ _ hrest exponent

theorem endNumber_delimited (hrest : Delimited rest) (whole : Reader Number) :
    endNumber positive significand start whole rest = whole rest := by
  have hpeek : peek rest = (.ok rest.head?, rest) := rfl
  refine bind_of_ok_of_eq hpeek ?_
  split
  next hhead => exact absurd rfl (hrest 46 hhead).2.1
  next hhead => exact absurd rfl (hrest 101 hhead).2.2.1
  next hhead => exact absurd rfl (hrest 69 hhead).2.2.2
  next => rfl

theorem endNumber_ends (hrest : Delimited rest) {whole : Reader Number}
    (hwhole : ∀ s, (whole s).2 = s) (fraction : Option Digits) (exponent : Option Exponent) :
    Ends (endNumber positive significand start whole)
      (Numeral.fractionText fraction ++ (Numeral.exponentText exponent ++ rest)) rest := by
  cases fraction with
  | some digits => exact readDecimal_ends positive significand start hrest digits exponent
  | none =>
    obtain ⟨-, heq⟩ | ⟨sign, digits, tail, rfl, heq | heq⟩ := exponentText_cases exponent rest
    · rw [heq]
      refine .inl ?_
      rw [Numeral.fractionText, List.nil_append, endNumber_delimited _ _ _ hrest]
      exact hwhole rest
    · rw [heq]
      exact readExponent_ends positive significand start hrest.noDigit sign digits
    · rw [heq]
      exact readExponent_ends positive significand start hrest.noDigit sign digits

theorem noDigit_fraction (hrest : Delimited rest) (fraction : Option Digits)
    (exponent : Option Exponent) :
    NoDigit (Numeral.fractionText fraction ++ (Numeral.exponentText exponent ++ rest)) := by
  cases fraction with
  | none => exact noDigit_exponent hrest exponent
  | some digits =>
    intro b hb
    cases hb
    decide

end Ends

/-! ## Whole numbers -/

theorem Numeral.unsignedText_append (n : Numeral) (rest : Bytes) :
    n.unsignedText ++ rest = digitByte n.whole.first :: (digitsText n.whole.rest
      ++ (fractionText n.fraction ++ (exponentText n.exponent ++ rest))) := by
  simp [unsignedText, Digits.text]

theorem Numeral.text_of_negative {n : Numeral} (h : n.negative = true) :
    n.text = 45 :: n.unsignedText := by
  rw [text, if_pos h]

theorem Numeral.text_of_unsigned {n : Numeral} (h : n.negative = false) :
    n.text = n.unsignedText := by
  rw [text, if_neg (by rw [h]; decide)]

theorem digitByte_eq_zero_iff (d : Fin 10) : digitByte d = 48 ↔ d = 0 := by
  revert d
  decide

section Whole

variable {rest : Bytes} (hrest : Delimited rest) (n : Numeral)
include hrest

/-- A number is taken whole, unless its exponent is too large. -/
theorem readNumber_ends (positive : Bool) :
    Ends (readNumber positive) (n.unsignedText ++ rest) rest := by
  have hfraction := noDigit_fraction hrest n.fraction n.exponent
  rw [n.unsignedText_append]
  refine .bind_of_ok (next_cons _ _) ?_
  by_cases hzero : n.whole.first = 0
  · rw [n.leading hzero]
    simp only [(digitByte_eq_zero_iff _).mpr hzero, if_true]
    refine .bind_of_ok (digitFollows_text hfraction []) ?_
    exact endNumber_ends _ _ _ hrest (fun _ => rfl) _ _
  · have hbyte : digitByte n.whole.first ≠ 48 := fun h => hzero ((digitByte_eq_zero_iff _).mp h)
    simp only [if_neg hbyte, isDigit_digitByte, if_true]
    obtain ⟨k, -, -, hdigits⟩ := readSmallDigits_text hfraction n.whole.rest (1 <<< 64)
      (digitValue (digitByte n.whole.first)) 1
    refine .bind_of_ok hdigits (.bind_of_ok (digitFollows_text hfraction _) ?_)
    cases n.whole.rest.drop k with
    | nil => exact endNumber_ends _ _ _ hrest (fun _ => rfl) _ _
    | cons d more =>
      refine .bind_of_ok (takeDigits_text hfraction _) ?_
      exact endNumber_ends _ _ _ hrest (floatOfParts_left _ _ _) _ _

/-- Digits alone are read as the number they spell. -/
theorem readNumber_natural {value : Nat} (h : n.natural? = some value) (hvalue : value < 1 <<< 64) :
    n.negative = false
      ∧ readNumber true (n.unsignedText ++ rest) = (.ok (.natural value), rest) := by
  unfold Numeral.natural? at h
  split at h
  next => cases h
  next hplain =>
  obtain ⟨⟨hnegative, hfraction⟩, hexponent⟩ : (n.negative = false ∧ n.fraction = none)
      ∧ n.exponent = none := by
    simpa using hplain
  refine ⟨hnegative, ?_⟩
  obtain rfl := Option.some.inj h
  have htext : n.unsignedText ++ rest
      = digitByte n.whole.first :: (digitsText n.whole.rest ++ rest) := by
    rw [n.unsignedText_append, hfraction, hexponent]
    rfl
  have hend : ∀ v, endInteger true v rest = (.ok (.natural v), rest) := fun v =>
    endNumber_delimited true v 0 hrest (pure (wholeNumber true v))
  rw [htext, readNumber, bind_of_ok (next_cons _ _)]
  by_cases hzero : n.whole.first = 0
  · have hfollows := digitFollows_text hrest.noDigit []
    simp only [(digitByte_eq_zero_iff _).mpr hzero, if_true, n.leading hzero]
    rw [bind_of_ok hfollows, hzero]
    exact hend 0
  · have hbyte : digitByte n.whole.first ≠ 48 := fun h => hzero ((digitByte_eq_zero_iff _).mp h)
    have hspelled : spelledFrom (digitValue (digitByte n.whole.first)) n.whole.rest
        = spelledFrom 0 (n.whole.first :: n.whole.rest) := by
      rw [digitValue_digitByte]
      simp [spelledFrom]
    obtain ⟨k, -, hfits, hdigits⟩ := readSmallDigits_text hrest.noDigit n.whole.rest (1 <<< 64)
      (digitValue (digitByte n.whole.first)) 1
    have hk := hfits (hspelled ▸ hvalue)
    rw [hk, List.take_length, List.drop_length, hspelled] at hdigits
    have hfollows := digitFollows_text hrest.noDigit []
    simp only [if_neg hbyte, isDigit_digitByte, if_true]
    rw [bind_of_ok hdigits, bind_of_ok hfollows]
    exact hend _

end Whole

end Json

end CreationGate
