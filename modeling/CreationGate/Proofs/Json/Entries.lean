import CreationGate.Proofs.Json.Values
import Mathlib.Data.List.Forall2

/-!
# Reading lists of byte strings

A byte string that is written as a list may go on after its last byte: one item more is read
and forgotten if it is no byte.  Unless it is a string that spells nothing, the reader is then
at the end of the item or stands before something that ends no list (`readByte_ends`), so that
an accepted byte string has been taken whole (`readFixed_takesWhole`).
-/

namespace CreationGate

namespace Json

open Reader

variable {α : Type}

/-! ## Lists -/

theorem length_le_itemsText (first : Bool) (items : List (Spaced Value)) :
    items.length ≤ (itemsText first items).length := by
  induction items generalizing first with
  | nil => exact Nat.zero_le _
  | cons item items ih =>
    obtain ⟨before, value, after⟩ := item
    obtain ⟨more, htext⟩ := value.text_eq_cons
    have hrest := ih false
    simp only [itemsText, htext, List.length_append, List.length_cons]
    omega

section Elements

variable {element : Reader α} (items : List (Spaced Value)) (tail : Bytes)

theorem readElements_readsAs {l : List α}
    (h : List.Forall₂ (fun item a => ReadsAs element item.value a) items l) {fuel : Nat}
    (hfuel : items.length < fuel) (first : Bool) (gap : Gap) :
    readElements element fuel first (gap.bytes ++ (itemsText first items ++ 93 :: tail))
      = (.ok l, 93 :: tail) := by
  induction h generalizing fuel first gap with
  | nil =>
    obtain ⟨fuel, rfl⟩ : ∃ k, fuel = k + 1 := ⟨fuel - 1, by omega⟩
    rw [readElements, bind_of_ok (readElement?_nil first element gap tail)]
    rfl
  | @cons item a items l hitem _ ih =>
    obtain ⟨fuel, rfl⟩ : ∃ k, fuel = k + 1 := ⟨fuel - 1, by omega⟩
    have hread := hitem _ (delimited_gap item.after (delimited_items items tail))
    have hnext := (readElement?_cons first element gap item items (93 :: tail)).trans
      (map_of_ok hread some)
    have hrest := ih (by simp at hfuel; omega) false item.after
    rw [readElements, bind_of_ok hnext]
    exact bind_of_ok hrest

theorem readElements_eq_ok (h : ∀ item ∈ items, TakesWhole element item.value) {fuel : Nat}
    {first : Bool} {gap : Gap} {l : List α} {s' : Bytes}
    (hread : readElements element fuel first (gap.bytes ++ (itemsText first items ++ 93 :: tail))
      = (.ok l, s')) : s' = 93 :: tail := by
  induction items generalizing fuel first gap l with
  | nil =>
    cases fuel with
    | zero => cases hread
    | succ fuel =>
      rw [readElements, bind_of_ok (readElement?_nil first element gap tail)] at hread
      cases hread
      rfl
  | cons item items ih =>
    cases fuel with
    | zero => cases hread
    | succ fuel =>
      obtain ⟨o, s₁, hnext, hrest⟩ := bind_eq_ok hread
      rw [readElement?_cons] at hnext
      obtain ⟨a, hitem, rfl⟩ := map_eq_ok hnext
      obtain rfl := h item List.mem_cons_self _
        (delimited_gap item.after (delimited_items items tail)) _ _ hitem
      obtain ⟨more, s₂, hmore, hlast⟩ := bind_eq_ok hrest
      cases hlast
      exact ih (fun item hmem => h item (List.mem_cons_of_mem _ hmem)) hmore

end Elements

theorem inList_readsAs {body : Reader α} {s tail : Bytes} {a : α}
    (h : body s = (.ok a, 93 :: tail)) : inList body (91 :: s) = (.ok a, tail) :=
  thenAlways_of_ok h (endList_nil ∅ tail)

theorem inList_eq_ok {body : Reader α} {s s' : Bytes} {a : α}
    (h : inList body (91 :: s) = (.ok a, s')) :
    ∃ s₁, body s = (.ok a, s₁) ∧ endList s₁ = (.ok (), s') :=
  thenAlways_eq_ok h

namespace Value

theorem list_text_append (opening : Gap) (items : List (Spaced Value)) (rest : Bytes) :
    (list opening items).text ++ rest
      = 91 :: (opening.bytes ++ (itemsText true items ++ 93 :: rest)) := by
  simp [text]

/-- Words and numbers. -/
def IsScalar : Value → Prop
  | word _ => True
  | number _ => True
  | _ => False

theorem lead_of_isScalar {value : Value} (h : value.IsScalar) :
    value.lead ≠ 34 ∧ value.lead ≠ 91 ∧ value.lead ≠ 123 := by
  have hdigit : ∀ d, digitByte d ≠ 34 ∧ digitByte d ≠ 91 ∧ digitByte d ≠ 123 := by
    decide
  cases value with
  | word word => cases word <;> decide
  | number n =>
    rw [lead]
    split
    · decide
    · exact hdigit _
  | _ => cases h

end Value

theorem readListOf_readsAs {element : Reader α} {opening : Gap} {items : List (Spaced Value)}
    {l : List α} (h : List.Forall₂ (fun item a => ReadsAs element item.value a) items l) :
    ReadsAs (readListOf element) (.list opening items) l := by
  refine .placed fun rest hrest => ?_
  have hlead : (Value.list opening items).lead = 91 := rfl
  rw [bind_of_ok (tokenIn_text .eofInValue (.list opening items) rest), if_pos hlead,
    Value.list_text_append]
  refine inList_readsAs (readElements_readsAs items rest h ?_ true opening)
  have hlength := length_le_itemsText true items
  simp only [List.length_append]
  omega

theorem readListOf_takesWhole {element : Reader α} {value : Value}
    (h : ∀ item ∈ value.items, TakesWhole element item.value) :
    TakesWhole (readListOf element) value := by
  refine .placed fun rest hrest l s' hread => ?_
  rw [bind_of_ok (tokenIn_text .eofInValue value rest)] at hread
  split at hread
  next hlead =>
    cases value with
    | list opening items =>
      rw [Value.list_text_append] at hread
      obtain ⟨s₁, hbody, hend⟩ := inList_eq_ok hread
      obtain rfl := readElements_eq_ok items rest h hbody
      have hlast := (endList_nil ∅ rest).symm.trans hend
      cases hlast
      rfl
    | word word => cases word <;> exact absurd hlead (by decide)
    | number n => exact absurd hlead (@Value.lead_of_isScalar (.number n) trivial).2.1
    | _ => exact absurd hlead (by simp [Value.lead])
  next hlead => exact absurd hread ((refuse_fails _ _).ne_ok _ _)

/-! ## Byte strings -/

section ByteElements

variable (total : Nat) (tail : Bytes)

theorem readByteElements_readsAs {items : List (Spaced Value)} {bytes : Bytes}
    (h : items.map (·.value.natural?) = bytes.map fun b => some b.toNat) {k : Nat}
    (hk : bytes.length = k) (i : Nat) (gap : Gap) :
    ∃ last, readByteElements total k i (gap.bytes ++ (itemsText (i == 0) items ++ 93 :: tail))
      = (.ok ⟨bytes, hk⟩, Gap.bytes last ++ 93 :: tail) := by
  induction bytes generalizing items k i gap with
  | nil =>
    obtain rfl : items = [] := by simpa using h
    cases hk
    exact ⟨gap, rfl⟩
  | cons b bytes ih =>
    cases items with
    | nil => cases h
    | cons item items =>
      obtain ⟨hitem, hitems⟩ := List.cons.inj h
      cases hk
      have hread := readByte_readsAs hitem _ (delimited_gap item.after (delimited_items items tail))
      have hnext := (readElement?_cons (i == 0) readByte gap item items (93 :: tail)).trans
        (map_of_ok hread some)
      obtain ⟨last, hrest⟩ := ih hitems rfl (i + 1) item.after
      refine ⟨last, ?_⟩
      have hcomma : (i + 1 == 0) = false := rfl
      rw [hcomma] at hrest
      change (readElement? (i == 0) readByte >>= _) _ = _
      rw [bind_of_ok hnext]
      exact bind_of_ok hrest

theorem readByteElements_eq_ok {k i : Nat} {items : List (Spaced Value)} {gap : Gap}
    {bytes : { l : Bytes // l.length = k }} {s' : Bytes}
    (h : readByteElements total k i (gap.bytes ++ (itemsText (i == 0) items ++ 93 :: tail))
      = (.ok bytes, s')) :
    ∃ last, s' = Gap.bytes last ++ (itemsText (i + k == 0) (items.drop k) ++ 93 :: tail) := by
  induction k generalizing i items gap s' with
  | zero =>
    cases h
    exact ⟨gap, rfl⟩
  | succ k ih =>
    obtain ⟨o, s₁, hnext, hrest⟩ := bind_eq_ok h
    cases items with
    | nil =>
      have hnil := (readElement?_nil (i == 0) readByte gap tail).symm.trans hnext
      cases hnil
      cases hrest
    | cons item items =>
      rw [readElement?_cons] at hnext
      obtain ⟨b, hitem, rfl⟩ := map_eq_ok hnext
      obtain rfl := readByte_takesWhole item.value _
        (delimited_gap item.after (delimited_items items tail)) _ _ hitem
      obtain ⟨more, s₂, hmore, hlast⟩ := bind_eq_ok hrest
      cases hlast
      obtain ⟨last, rfl⟩ := @ih (i + 1) items item.after more _ hmore
      have hcount : i + 1 + k = i + (k + 1) := by omega
      exact ⟨last, by rw [hcount, List.drop_succ_cons]⟩

end ByteElements

theorem readFixedElements_readsAs {n : Nat} {items : List (Spaced Value)} (a : FixedBytes n)
    (h : items.map (·.value.natural?) = a.bytes.map fun b => some b.toNat) (gap : Gap)
    (tail : Bytes) :
    readFixedElements n (gap.bytes ++ (itemsText true items ++ 93 :: tail))
      = (.ok a, 93 :: tail) := by
  obtain ⟨last, hbytes⟩ := readByteElements_readsAs n tail h a.length_eq 0 gap
  have hnone : attempt (readElement? (n == 0) readByte) (last.bytes ++ 93 :: tail)
      = (.ok (some none), 93 :: tail) := by
    rw [attempt, show readElement? (n == 0) readByte (last.bytes ++ 93 :: tail)
      = (.ok none, 93 :: tail) from readElement?_nil (n == 0) readByte last tail]
  exact (bind_of_ok hbytes).trans (bind_of_ok hnone)

/-- What comes after the last byte is forgotten if it is no byte, but the list has to end there. -/
theorem readFixedElements_eq_ok {n : Nat} {items : List (Spaced Value)}
    (h : ∀ item ∈ items[n]?, item.value.Unescapes) {gap : Gap} {tail s₁ s' : Bytes}
    {a : FixedBytes n}
    (hread : readFixedElements n (gap.bytes ++ (itemsText true items ++ 93 :: tail)) = (.ok a, s₁))
    (hend : endList s₁ = (.ok (), s')) : s' = tail := by
  obtain ⟨bytes, s₂, hbytes, hrest⟩ := bind_eq_ok hread
  obtain ⟨last, rfl⟩ := readByteElements_eq_ok n tail hbytes
  obtain ⟨o, s₃, hattempt, hreturn⟩ := bind_eq_ok hrest
  have hleft := attempt_left hattempt
  obtain rfl : s₃ = s₁ := by
    split at hreturn
    next => cases hreturn
    next => cases hreturn; rfl
  rw [Nat.zero_add] at hleft
  cases hitems : items.drop n with
  | nil =>
    rw [hitems, readElement?_nil] at hleft
    obtain rfl := hleft
    have hlast := (endList_nil ∅ tail).symm.trans hend
    cases hlast
    rfl
  | cons item more =>
    have hitem : items[n]? = some item := by
      rw [← List.head?_drop, hitems, List.head?_cons]
    have hafter := delimited_gap item.after (delimited_items more tail)
    rw [hitems, readElement?_cons] at hleft
    obtain hnext | ⟨e, s₄, he, hmidway⟩ := (readByte_ends (h item hitem) hafter).map some
    · rw [hnext] at hleft
      obtain rfl := hleft
      cases more with
      | nil =>
        have hlast := (endList_nil item.after tail).symm.trans hend
        cases hlast
        rfl
      | cons next more => exact absurd hend ((endList_cons item.after next more _).ne_ok _ _)
    · rw [he] at hleft
      obtain rfl := hleft
      exact absurd hend ((endList_midway hmidway).ne_ok _ _)

theorem ofExcept_eq_ok {x : Except Cause α} {s s' : Bytes} {a : α}
    (h : ofExcept x s = (.ok a, s')) : x = .ok a ∧ s' = s := by
  cases x with
  | ok b => cases h; exact ⟨rfl, rfl⟩
  | error cause => cases h

/-- A byte string is taken whole, unless it goes on with a string that spells nothing. -/
theorem readFixed_takesWhole (n : Nat) {value : Value}
    (h : ∀ item ∈ value.items[n]?, item.value.Unescapes) : TakesWhole (readFixed n) value := by
  refine .placed fun rest hrest a s' hread => ?_
  rw [bind_of_ok (tokenIn_text .eofInValue value rest)] at hread
  have hscalar : value.IsScalar → s' = rest := by
    intro hvalue
    obtain ⟨hquote, hlist, hobject⟩ := Value.lead_of_isScalar hvalue
    rw [if_neg hquote, if_neg hlist, if_neg hobject] at hread
    exact absurd hread ((refuse_fails _ _).ne_ok _ _)
  cases value with
  | string parts =>
    rw [Value.lead_string, if_pos rfl, Value.string_text_append] at hread
    obtain ⟨s, s₁, hname, hfixed⟩ := bind_eq_ok hread
    obtain ⟨-, rfl⟩ := (readName_parts parts rest).eq_of_ok hname
    exact (ofExcept_eq_ok hfixed).2
  | list opening items =>
    rw [Value.lead_list, if_neg (by decide), if_pos rfl, Value.list_text_append] at hread
    obtain ⟨s₁, hbody, hend⟩ := inList_eq_ok hread
    exact readFixedElements_eq_ok h hbody hend
  | object opening members =>
    rw [Value.lead_object, if_neg (by decide), if_neg (by decide), if_pos rfl] at hread
    obtain ⟨_, s₁, -, hobject⟩ := bind_eq_ok hread
    obtain ⟨s₂, hreject, -⟩ := thenAlways_eq_ok hobject
    exact absurd hreject ((Fails.reject _ _).ne_ok _ _)
  | word word => exact hscalar trivial
  | number n => exact hscalar trivial

/-! ## Spelled byte strings -/

/-- The bytes that pairs of digits spell. -/
def pairsValue (pairs : List (HexDigit × HexDigit)) : Bytes :=
  pairs.map fun pair => UInt8.ofNat (16 * pair.1.value + pair.2.value)

def pairsText (pairs : List (HexDigit × HexDigit)) : Bytes :=
  pairs.flatMap fun pair => [pair.1.byte, pair.2.byte]

/-- How a byte string may be written: as two digits for each byte, with a marker or without, or
as a list of as many numbers. -/
inductive SpellsFixed {n : Nat} : Value → FixedBytes n → Prop
  | digits {parts : List StringPart} {marker : Bytes} {pairs : List (HexDigit × HexDigit)}
      {a : FixedBytes n} (hmarker : marker = [] ∨ marker = Bytes.ofAscii "0x")
      (hparts : unescape? parts = some (marker ++ pairsText pairs))
      (hbytes : a.bytes = pairsValue pairs) : SpellsFixed (.string parts) a
  | numbers {opening : Gap} {items : List (Spaced Value)} {a : FixedBytes n}
      (hitems : items.map (·.value.natural?) = a.bytes.map fun b => some b.toNat) :
      SpellsFixed (.list opening items) a

/-- A list of byte strings, each in any of its spellings. -/
inductive SpellsList {n : Nat} : Value → List (FixedBytes n) → Prop
  | list {opening : Gap} {items : List (Spaced Value)} {l : List (FixedBytes n)}
      (h : List.Forall₂ (fun item a => SpellsFixed item.value a) items l) :
      SpellsList (.list opening items) l

theorem decode_pairsText (pairs : List (HexDigit × HexDigit)) :
    Hex.decode (pairsText pairs) = some (pairsValue pairs) := by
  induction pairs with
  | nil => rfl
  | cons pair pairs ih =>
    have htext : pairsText (pair :: pairs) = pair.1.byte :: pair.2.byte :: pairsText pairs := rfl
    rw [htext, Hex.decode, pair.1.value?_byte, pair.2.value?_byte, ih]
    rfl

theorem length_pairsText (pairs : List (HexDigit × HexDigit)) :
    (pairsText pairs).length = 2 * pairs.length := by
  induction pairs with
  | nil => rfl
  | cons pair pairs ih =>
    simp only [pairsText, List.flatMap_cons, List.length_append, List.length_cons,
      List.length_nil] at ih ⊢
    omega

theorem withoutMarker_pairsText (pairs : List (HexDigit × HexDigit)) :
    withoutMarker (pairsText pairs) = pairsText pairs := by
  have hdigit : ∀ d : HexDigit, d.byte ≠ 120 ∧ d.byte ≠ 88 := by
    have hall : (hexDigits.all fun p => p.1 ≠ 120 ∧ p.1 ≠ 88) = true := by decide
    exact fun d => of_decide_eq_true (List.all_eq_true.mp hall _ d.mem)
  cases pairs with
  | nil => rfl
  | cons pair pairs =>
    have htext : pairsText (pair :: pairs) = pair.1.byte :: pair.2.byte :: pairsText pairs := rfl
    rw [htext, withoutMarker.eq_def]
    split
    next heq => exact absurd (List.cons.inj (List.cons.inj heq).2).1 (hdigit _).1
    next heq => exact absurd (List.cons.inj (List.cons.inj heq).2).1 (hdigit _).2
    next => rfl

theorem fixedOfDigits_pairsText {n : Nat} {marker : Bytes}
    (hmarker : marker = [] ∨ marker = Bytes.ofAscii "0x") (pairs : List (HexDigit × HexDigit))
    {a : FixedBytes n} (h : a.bytes = pairsValue pairs) :
    fixedOfDigits n (marker ++ pairsText pairs) = .ok a := by
  have hlength : pairs.length = n := by
    rw [← a.length_eq, h, pairsValue, List.length_map]
  have htext := length_pairsText pairs
  have hwithout : withoutMarker (marker ++ pairsText pairs) = pairsText pairs := by
    rcases hmarker with rfl | rfl
    · exact withoutMarker_pairsText pairs
    · rfl
  have heven : (marker ++ pairsText pairs).length % 2 = 0 := by
    have hmarker' : marker.length % 2 = 0 := by
      rcases hmarker with rfl | rfl <;> rfl
    rw [List.length_append]
    omega
  have hdecode : (Hex.decode (pairsText pairs)).bind (FixedBytes.ofBytes? n) = some a := by
    rw [decode_pairsText, Option.bind_some, ← h, FixedBytes.ofBytes?_bytes]
  simp only [fixedOfDigits, heven, hwithout, htext, hlength, hdecode, ne_eq, not_true_eq_false,
    if_false]

theorem readFixed_readsAs {n : Nat} {value : Value} {a : FixedBytes n} (h : SpellsFixed value a) :
    ReadsAs (readFixed n) value a := by
  refine .placed fun rest hrest => ?_
  rw [bind_of_ok (tokenIn_text .eofInValue value rest)]
  cases h with
  | @digits parts marker pairs _ hmarker hparts hbytes =>
    have hname := readName_parts parts rest
    rw [hparts] at hname
    rw [Value.lead_string, if_pos rfl, Value.string_text_append, bind_of_ok hname,
      fixedOfDigits_pairsText hmarker pairs hbytes]
    rfl
  | @numbers opening items _ hitems =>
    rw [Value.lead_list, if_neg (by decide), if_pos rfl, Value.list_text_append]
    exact inList_readsAs (readFixedElements_readsAs a hitems opening rest)

theorem readListOf_readFixed_readsAs {n : Nat} {value : Value} {l : List (FixedBytes n)}
    (h : SpellsList value l) : ReadsAs (readListOf (readFixed n)) value l := by
  cases h with
  | list hitems => exact readListOf_readsAs (hitems.imp fun _ _ => readFixed_readsAs)

end Json

end CreationGate
