import CreationGate.Proofs.Json.Outcome
import CreationGate.Proofs.Json.Syntax

/-!
# Reading blanks and strings

Blanks are taken up to the next token, and a string is read as what it spells: exactly if its
surrogates come in pairs (`readString_parts`).
-/

namespace CreationGate

namespace Json

open Reader

/-! ## Blanks -/

theorem isBlank_of_mem_blanks {b : UInt8} (h : b ∈ blanks) : isBlank b = true := by
  have hall : blanks.all isBlank = true := by decide
  exact List.all_eq_true.mp hall b h

/-- Blanks are taken up to the next token. -/
theorem tokenIn_gap (eof : Cause) (gap : Gap) {b : UInt8} (hb : isBlank b = false)
    (rest : Bytes) : tokenIn eof (gap.bytes ++ b :: rest) = (.ok b, b :: rest) := by
  have hdrop : (gap.bytes ++ b :: rest).dropWhile isBlank = b :: rest := by
    rw [List.dropWhile_append_of_pos fun c hc => isBlank_of_mem_blanks (gap.mem_blanks hc),
      List.dropWhile_cons_of_neg (by simp [hb])]
  have htoken : token (gap.bytes ++ b :: rest) = (.ok (some b), b :: rest) := by
    simp only [token, hdrop, List.head?_cons]
  exact bind_of_ok htoken

theorem tokenIn_cons (eof : Cause) {b : UInt8} (hb : isBlank b = false) (rest : Bytes) :
    tokenIn eof (b :: rest) = (.ok b, b :: rest) :=
  tokenIn_gap eof ∅ hb rest

theorem endOfText_gap (gap : Gap) : endOfText gap.bytes = (.ok (), []) := by
  have hdrop : (gap.bytes ++ []).dropWhile isBlank = [] :=
    List.dropWhile_append_of_pos fun c hc => isBlank_of_mem_blanks (gap.mem_blanks hc)
  rw [List.append_nil] at hdrop
  have htoken : token gap.bytes = (.ok none, []) := by
    simp only [token, hdrop, List.head?_nil]
  exact bind_of_ok htoken

theorem readColon_gap (gap : Gap) (rest : Bytes) :
    readColon (gap.bytes ++ 58 :: rest) = (.ok (), rest) := by
  unfold readColon
  rw [bind_of_ok (tokenIn_gap _ gap (by decide) rest), if_pos rfl]
  rfl

/-! ## Hexadecimal digits -/

theorem HexDigit.value?_byte (d : HexDigit) : Hex.value? d.byte = some d.value := by
  have hall : (hexDigits.all fun p => Hex.value? p.1 = some p.2) = true := by decide
  exact of_decide_eq_true (List.all_eq_true.mp hall _ d.mem)

theorem readCodeUnit_text (unit : CodeUnit) (rest : Bytes) :
    readCodeUnit (unit.text ++ rest) = (.ok unit.value, rest) := by
  simp only [CodeUnit.text, List.cons_append, List.nil_append, readCodeUnit,
    HexDigit.value?_byte, CodeUnit.value]

/-! ## Strings -/

theorem escapeValue?_of_mem {letter value : UInt8} (h : (letter, value) ∈ shortEscapes) :
    escapeValue? letter = some value := by
  have hall : (shortEscapes.all fun p => escapeValue? p.1 = some p.2) = true := by decide
  exact of_decide_eq_true (List.all_eq_true.mp hall _ h)

theorem ne_of_mem_shortEscapes {letter value : UInt8} (h : (letter, value) ∈ shortEscapes) :
    letter ≠ 117 := by
  have hall : (shortEscapes.all fun p => p.1 ≠ 117) = true := by decide
  exact of_decide_eq_true (List.all_eq_true.mp hall _ h)

theorem isPlain_of_allowed {b : UInt8} (h : 32 ≤ b ∧ b ≠ 34 ∧ b ≠ 92) : isPlain b = true := by
  simp [isPlain, h.1, h.2.1, h.2.2]

theorem readStringParts_quote (fuel : Nat) (rest : Bytes) :
    readStringParts (fuel + 1) (34 :: rest) = (.ok [], rest) := rfl

theorem readStringParts_plain (fuel : Nat) {b : UInt8} (hb : isPlain b = true) (s : Bytes) :
    readStringParts (fuel + 1) (b :: s) = ((b :: ·) <$> readStringParts (fuel + 1)) s := by
  have hplain : takePlain (b :: s) = (.ok (b :: s.takeWhile isPlain), s.dropWhile isPlain) := by
    simp [takePlain, hb]
  have hrest : takePlain s = (.ok (s.takeWhile isPlain), s.dropWhile isPlain) := rfl
  rw [readStringParts, map_eq_pure_bind, bind_assoc, bind_of_ok hplain, bind_of_ok hrest,
    bind_assoc]
  refine congrFun (bind_congr fun following => ?_) _
  split
  · rfl
  · rfl
  · simp only [bind_assoc, pure_bind, List.cons_append]
  · rfl

theorem readStringParts_escape (fuel : Nat) {s s' c : Bytes} (h : readEscape s = (.ok c, s')) :
    readStringParts (fuel + 1) (92 :: s) = ((c ++ ·) <$> readStringParts fuel) s' := by
  have hplain : takePlain (92 :: s) = (.ok [], 92 :: s) := rfl
  rw [readStringParts, bind_of_ok hplain, bind_of_ok (next_cons 92 s), map_eq_pure_bind]
  exact bind_of_ok h

theorem readStringParts_escape_fails (fuel : Nat) {s : Bytes} (h : Fails readEscape s) :
    Fails (readStringParts (fuel + 1)) (92 :: s) := by
  have hplain : takePlain (92 :: s) = (.ok [], 92 :: s) := rfl
  rw [readStringParts]
  exact .bind_of_ok hplain (.bind_of_ok (next_cons 92 s) h.bind)

theorem readEscape_short {letter value : UInt8} (h : (letter, value) ∈ shortEscapes)
    (rest : Bytes) : readEscape (letter :: rest) = (.ok [value], rest) := by
  rw [readEscape, bind_of_ok (next_cons letter rest)]
  simp only [escapeValue?_of_mem h]
  rfl

section CodePoints

variable (unit : CodeUnit) (rest : Bytes)

theorem readCodePoint_low (h : unit.isLow = true) :
    Fails readCodePoint (unit.text ++ rest) := by
  have hlow : (decide (0xdc00 ≤ unit.value) && decide (unit.value ≤ 0xdfff)) = true := h
  refine .bind_of_ok (readCodeUnit_text unit rest) ?_
  rw [if_pos hlow]
  exact .fail _ _

theorem readCodePoint_scalar (hlow : unit.isLow = false) (hhigh : unit.isHigh = false) :
    readCodePoint (unit.text ++ rest) = (.ok (utf8 unit.value), rest) := by
  have hscalar : (decide (unit.value < 0xd800) || decide (0xdfff < unit.value)) = true := by
    simp only [CodeUnit.isLow, CodeUnit.isHigh, Bool.and_eq_false_iff, decide_eq_false_iff_not,
      Bool.or_eq_true, decide_eq_true_eq] at hlow hhigh ⊢
    omega
  rw [readCodePoint, bind_of_ok (readCodeUnit_text unit rest)]
  refine (congrFun (if_neg (Bool.eq_false_iff.mp hlow)) rest).trans ?_
  exact congrFun (if_pos hscalar) rest

/-- What happens after the first half of a pair. -/
theorem readCodePoint_high (h : unit.isHigh = true) :
    readCodePoint (unit.text ++ rest) = (do
      pairByte 92
      pairByte 117
      let low ← readCodeUnit
      if 0xdc00 ≤ low && low ≤ 0xdfff then
        return utf8 ((unit.value - 0xd800) * 1024 + (low - 0xdc00) + 0x10000)
      else fail .loneSurrogate : Reader Bytes) rest := by
  simp only [CodeUnit.isHigh, Bool.and_eq_true, decide_eq_true_eq] at h
  have hlow : ¬(decide (0xdc00 ≤ unit.value) && decide (unit.value ≤ 0xdfff)) = true := by
    simp only [Bool.and_eq_true, decide_eq_true_eq]
    omega
  have hscalar : ¬(decide (unit.value < 0xd800) || decide (0xdfff < unit.value)) = true := by
    simp only [Bool.or_eq_true, decide_eq_true_eq]
    omega
  rw [readCodePoint, bind_of_ok (readCodeUnit_text unit rest)]
  refine (congrFun (if_neg hlow) rest).trans ?_
  exact congrFun (if_neg hscalar) rest

theorem pairByte_self (b : UInt8) : pairByte b (b :: rest) = (.ok (), rest) := by
  rw [pairByte, bind_of_ok (peek_cons b rest)]
  simp only [bind_of_ok (skip_cons b rest), if_true]
  rfl

theorem pairByte_other {b c : UInt8} (h : c ≠ b) : Fails (pairByte b) (c :: rest) := by
  refine .bind_of_ok (peek_cons c rest) (.bind_of_ok (skip_cons c rest) ?_)
  rw [if_neg h]
  exact .fail _ _

end CodePoints

theorem partsText_unit (unit : CodeUnit) (parts : List StringPart) (rest : Bytes) :
    partsText (.unit unit :: parts) ++ rest
      = 92 :: 117 :: (unit.text ++ (partsText parts ++ rest)) := by
  simp [partsText, StringPart.text]

/-- After the first half of a pair nothing but the second will do. -/
theorem readCodePoint_high_parts {high : CodeUnit} (h : high.isHigh = true)
    (parts : List StringPart) (rest : Bytes)
    (hnext : ∀ low more, parts = .unit low :: more → False) :
    Fails readCodePoint (high.text ++ (partsText parts ++ 34 :: rest)) := by
  refine .of_eq (readCodePoint_high _ _ h) ?_
  cases parts with
  | nil => exact (pairByte_other rest (by decide : (34 : UInt8) ≠ 92)).bind
  | cons part more =>
    cases part with
    | plain b allowed => exact (pairByte_other _ allowed.2.2).bind
    | short letter value mem =>
      exact .bind_of_ok (pairByte_self _ 92) (pairByte_other _ (ne_of_mem_shortEscapes mem)).bind
    | unit low => exact absurd rfl (hnext low more)

theorem readCodePoint_high_unit {high : CodeUnit} (h : high.isHigh = true) (low : CodeUnit)
    (rest : Bytes) :
    Gives readCodePoint (high.text ++ (92 :: 117 :: (low.text ++ rest))) rest
      (if low.isLow then
        some (utf8 ((high.value - 0xd800) * 1024 + (low.value - 0xdc00) + 0x10000))
      else none) := by
  have hlow := readCodeUnit_text low rest
  split
  next hlow' =>
    have hcond : (decide (0xdc00 ≤ low.value) && decide (low.value ≤ 0xdfff)) = true := hlow'
    refine (readCodePoint_high _ _ h).trans ?_
    rw [bind_of_ok (pairByte_self _ 92), bind_of_ok (pairByte_self _ 117), bind_of_ok hlow,
      if_pos hcond]
    rfl
  next hlow' =>
    have hcond : ¬(decide (0xdc00 ≤ low.value) && decide (low.value ≤ 0xdfff)) = true := hlow'
    refine .of_eq (readCodePoint_high _ _ h) ?_
    refine .bind_of_ok (pairByte_self _ 92) (.bind_of_ok (pairByte_self _ 117) ?_)
    refine .bind_of_ok hlow ?_
    rw [if_neg hcond]
    exact .fail _ _

theorem Reader.Gives.escape {s s' c : Bytes} {fuel : Nat} {rest : Bytes} {o : Option Bytes}
    (hescape : readEscape s = (.ok c, s')) (h : Gives (readStringParts fuel) s' rest o) :
    Gives (readStringParts (fuel + 1)) (92 :: s) rest (o.map (c ++ ·)) :=
  .of_eq (readStringParts_escape fuel hescape) (h.map (c ++ ·))

/-- The parts of a string up to its closing quote, by induction on what they spell. -/
theorem readStringParts_parts (parts : List StringPart) (rest : Bytes) {fuel : Nat}
    (h : parts.length < fuel) :
    Gives (readStringParts fuel) (partsText parts ++ 34 :: rest) rest (unescape? parts) := by
  obtain ⟨fuel, rfl⟩ : ∃ k, fuel = k + 1 := ⟨fuel - 1, by omega⟩
  fun_induction unescape? parts generalizing fuel with
  | case1 => exact readStringParts_quote fuel rest
  | case2 b allowed more ih =>
    have hmore := ih fuel (by simp at h; omega)
    exact .of_eq (readStringParts_plain fuel (isPlain_of_allowed allowed) _) (hmore.map (b :: ·))
  | case3 letter value mem more ih =>
    obtain ⟨fuel, rfl⟩ : ∃ k, fuel = k + 1 := ⟨fuel - 1, by simp at h; omega⟩
    exact (ih fuel (by simp at h; omega)).escape (readEscape_short mem _)
  | case4 high low more hlow =>
    rw [partsText_unit]
    exact readStringParts_escape_fails fuel (readCodePoint_low high _ hlow)
  | case5 high low more hlow hhigh hpair ih =>
    obtain ⟨fuel, rfl⟩ : ∃ k, fuel = k + 1 := ⟨fuel - 1, by simp at h; omega⟩
    rw [partsText_unit, partsText_unit]
    have hread := readCodePoint_high_unit hhigh low (partsText more ++ 34 :: rest)
    rw [if_pos hpair] at hread
    exact (ih fuel (by simp at h; omega)).escape hread
  | case6 high low more hlow hhigh hpair =>
    rw [partsText_unit, partsText_unit]
    have hread := readCodePoint_high_unit hhigh low (partsText more ++ 34 :: rest)
    rw [if_neg hpair] at hread
    exact readStringParts_escape_fails fuel hread
  | case7 high low more hlow hhigh ih =>
    obtain ⟨fuel, rfl⟩ : ∃ k, fuel = k + 1 := ⟨fuel - 1, by simp at h; omega⟩
    rw [partsText_unit]
    have hread := readCodePoint_scalar high (partsText (.unit low :: more) ++ 34 :: rest)
      (Bool.eq_false_iff.mpr hlow) (Bool.eq_false_iff.mpr hhigh)
    exact (ih fuel (by simp at h ⊢; omega)).escape hread
  | case8 single more hnext hhalf =>
    rw [partsText_unit]
    refine readStringParts_escape_fails fuel ?_
    rcases Bool.or_eq_true_iff.mp hhalf with hlow | hhigh
    · exact readCodePoint_low single _ hlow
    · exact readCodePoint_high_parts hhigh more rest hnext
  | case9 single more hnext hhalf ih =>
    obtain ⟨fuel, rfl⟩ : ∃ k, fuel = k + 1 := ⟨fuel - 1, by simp at h; omega⟩
    obtain ⟨hlow, hhigh⟩ := Bool.or_eq_false_iff.mp (Bool.eq_false_iff.mpr hhalf)
    rw [partsText_unit]
    exact (ih fuel (by simp at h; omega)).escape (readCodePoint_scalar single _ hlow hhigh)

theorem length_le_partsText (parts : List StringPart) :
    parts.length ≤ (partsText parts).length := by
  induction parts with
  | nil => exact Nat.le_refl 0
  | cons part parts ih =>
    have hpart : 1 ≤ part.text.length := by
      cases part <;> simp [StringPart.text]
    simp only [partsText, List.flatMap_cons, List.length_append, List.length_cons] at ih ⊢
    omega

/-- A string is read as what it spells, and refused if it spells nothing. -/
theorem readString_parts (parts : List StringPart) (rest : Bytes) :
    Gives readString (partsText parts ++ 34 :: rest) rest (unescape? parts) := by
  have hlength := length_le_partsText parts
  exact readStringParts_parts parts rest (by simp only [List.length_append]; omega)

theorem readName_parts (parts : List StringPart) (rest : Bytes) :
    Gives readName (34 :: (partsText parts ++ 34 :: rest)) rest (unescape? parts) := by
  exact .of_eq (bind_of_ok (skip_cons 34 _)) (readString_parts parts rest)

end Json

end CreationGate
