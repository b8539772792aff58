import CreationGate.Json.Governance
import CreationGate.Proofs.Json.Entries

/-!
# Written values in the grammar

What the writers produce are texts without blanks and without escapes.  Each is the text of a
tree, so it is read as any other text of the grammar.
-/

namespace CreationGate

namespace Json

/-! ## Names -/

/-- A name that needs no escapes. -/
def IsPlainName (name : Bytes) : Prop := ∀ b ∈ name, 32 ≤ b ∧ b ≠ 34 ∧ b ≠ 92

instance (name : Bytes) : Decidable (IsPlainName name) :=
  List.decidableBAll (fun b => 32 ≤ b ∧ b ≠ 34 ∧ b ≠ 92) name

/-- The parts of a name that needs no escapes. -/
def plainParts (name : Bytes) (h : IsPlainName name) : List StringPart :=
  name.pmap StringPart.plain h

theorem partsText_plainParts {name : Bytes} (h : IsPlainName name) :
    partsText (plainParts name h) = name := by
  induction name with
  | nil => rfl
  | cons b name ih =>
    have hrest := ih fun c hc => h c (List.mem_cons_of_mem b hc)
    exact congrArg (b :: ·) hrest

theorem unescape?_plainParts {name : Bytes} (h : IsPlainName name) :
    unescape? (plainParts name h) = some name := by
  induction name with
  | nil => rfl
  | cons b name ih =>
    have hrest := ih fun c hc => h c (List.mem_cons_of_mem b hc)
    exact congrArg (Option.map (b :: ·)) hrest

namespace Value

/-- A string that needs no escapes. -/
def ofName (name : Bytes) (h : IsPlainName name) : Value := string (plainParts name h)

theorem text_ofName {name : Bytes} (h : IsPlainName name) :
    (ofName name h).text = writeName name := by
  rw [ofName, text, partsText_plainParts]
  rfl

/-- A list without blanks. -/
def ofList (values : List Value) : Value := list ∅ (values.map fun value => ⟨∅, value, ∅⟩)

end Value

/-- A member without blanks. -/
def Member.ofName (name : Bytes) (h : IsPlainName name) (value : Value) : Member Value :=
  ⟨∅, plainParts name h, ∅, ⟨∅, value, ∅⟩⟩

theorem Member.name?_ofName {name : Bytes} (h : IsPlainName name) (value : Value) :
    (ofName name h value).name? = some name :=
  unescape?_plainParts h

/-! ## Lists and objects -/

/-- Texts with commas between them, from the first on or further on. -/
def joined (first : Bool) : List Bytes → Bytes
  | [] => []
  | text :: texts => separator first ++ (text ++ joined false texts)

theorem joined_eq_intersperse (texts : List Bytes) :
    joined true texts = (texts.intersperse [44]).flatten := by
  have hmore : ∀ (text : Bytes) texts,
      ((text :: texts).intersperse [44]).flatten = text ++ joined false texts := by
    intro text texts
    induction texts generalizing text with
    | nil => simp [joined]
    | cons next texts ih =>
      rw [List.intersperse_cons_cons, List.flatten_cons, List.flatten_cons, ih]
      rfl
  cases texts with
  | nil => rfl
  | cons text texts => exact (hmore text texts).symm

namespace Value

theorem itemsText_ofList (first : Bool) (values : List Value) :
    itemsText first (values.map fun value => ⟨∅, value, ∅⟩) = joined first (values.map text) := by
  induction values generalizing first with
  | nil => rfl
  | cons value values ih =>
    rw [List.map_cons, List.map_cons, itemsText, joined, ih]
    rfl

theorem text_ofList (values : List Value) :
    (ofList values).text = writeList (values.map text) := by
  rw [ofList, text, itemsText_ofList, joined_eq_intersperse]
  rfl

/-- A member as it is written. -/
theorem membersText_ofName (first : Bool) {name : Bytes} (h : IsPlainName name) (value : Value)
    (members : List (Member Value)) :
    membersText first (.ofName name h value :: members)
      = separator first ++ (writeName name ++ 58 :: value.text ++ membersText false members) := by
  rw [Member.ofName, membersText, partsText_plainParts]
  simp [writeName]

theorem text_object_one {name : Bytes} (h : IsPlainName name) (value : Value) :
    (object ∅ [.ofName name h value]).text = writeObject [(name, value.text)] := by
  rw [text, membersText_ofName]
  simp [membersText, writeObject, separator]

theorem text_object_two {name₁ name₂ : Bytes} (h₁ : IsPlainName name₁) (h₂ : IsPlainName name₂)
    (value₁ value₂ : Value) :
    (object ∅ [.ofName name₁ h₁ value₁, .ofName name₂ h₂ value₂]).text
      = writeObject [(name₁, value₁.text), (name₂, value₂.text)] := by
  rw [text, membersText_ofName, membersText_ofName]
  simp [membersText, writeObject, separator]

end Value

/-! ## Byte strings -/

/-- A hexadecimal digit of lower case. -/
def HexDigit.lower (n : Nat) : HexDigit where
  byte := Hex.digit n
  value := n % 16
  mem := by
    have hall : ∀ m : Fin 16, (Hex.digit m.val, m.val) ∈ hexDigits := by decide
    have hdigit : Hex.digit (n % 16) = Hex.digit n := by
      simp only [Hex.digit, Nat.mod_mod]
    exact hdigit ▸ hall ⟨n % 16, Nat.mod_lt n (by decide)⟩

/-- The digits of a byte string, two for each byte. -/
def lowerPairs (bytes : Bytes) : List (HexDigit × HexDigit) :=
  bytes.map fun b => (.lower (b.toNat / 16), .lower (b.toNat % 16))

theorem pairsText_lowerPairs (bytes : Bytes) : pairsText (lowerPairs bytes) = Hex.encode bytes := by
  rw [pairsText, lowerPairs, List.flatMap_map]
  rfl

theorem pairsValue_lowerPairs (bytes : Bytes) : pairsValue (lowerPairs bytes) = bytes := by
  induction bytes with
  | nil => rfl
  | cons b bytes ih =>
    have hb : 16 * (b.toNat / 16 % 16) + b.toNat % 16 % 16 = b.toNat := by
      have hlt := b.toNat_lt
      omega
    have hfirst : UInt8.ofNat (16 * (b.toNat / 16 % 16) + b.toNat % 16 % 16) = b := by
      rw [hb, UInt8.ofNat_toNat]
    exact congrArg₂ List.cons hfirst ih

theorem isPlainName_encode (bytes : Bytes) : IsPlainName (hexMarker ++ Hex.encode bytes) := by
  have hdigit : ∀ d : HexDigit, 32 ≤ d.byte ∧ d.byte ≠ 34 ∧ d.byte ≠ 92 := by
    have hall : (hexDigits.all fun p => 32 ≤ p.1 ∧ p.1 ≠ 34 ∧ p.1 ≠ 92) = true := by decide
    exact fun d => of_decide_eq_true (List.all_eq_true.mp hall _ d.mem)
  intro b hb
  rcases List.mem_append.mp hb with hmarker | hdigits
  · have hall : IsPlainName hexMarker := by decide
    exact hall b hmarker
  · rw [← pairsText_lowerPairs] at hdigits
    obtain ⟨pair, -, hpair⟩ := List.mem_flatMap.mp hdigits
    rcases List.mem_pair.mp hpair with rfl | rfl
    · exact hdigit pair.1
    · exact hdigit pair.2

/-- A byte string as it is written. -/
def Value.ofFixed {n : Nat} (a : FixedBytes n) : Value :=
  ofName (hexMarker ++ Hex.encode a.bytes) (isPlainName_encode a.bytes)

theorem Value.text_ofFixed {n : Nat} (a : FixedBytes n) : (ofFixed a).text = writeFixed a :=
  text_ofName _

theorem spellsFixed_ofFixed {n : Nat} (a : FixedBytes n) : SpellsFixed (.ofFixed a) a := by
  refine @SpellsFixed.digits n _ (Bytes.ofAscii "0x") (lowerPairs a.bytes) a (.inr rfl) ?_
    (pairsValue_lowerPairs a.bytes).symm
  rw [unescape?_plainParts, pairsText_lowerPairs]
  rfl

theorem spellsList_ofFixed {n : Nat} (l : List (FixedBytes n)) :
    SpellsList (.ofList (l.map .ofFixed)) l := by
  refine .list ?_
  induction l with
  | nil => exact .nil
  | cons a l ih => exact .cons (spellsFixed_ofFixed a) ih

theorem text_ofFixed_list {n : Nat} (l : List (FixedBytes n)) :
    (Value.ofList (l.map .ofFixed)).text = writeList (l.map writeFixed) := by
  rw [Value.text_ofList, List.map_map]
  exact congrArg writeList (List.map_congr_left fun a _ => Value.text_ofFixed a)

end Json

end CreationGate
