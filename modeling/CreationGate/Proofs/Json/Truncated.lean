import CreationGate.Proofs.Json.RoundTrip
import Mathlib.Data.List.TakeWhile

/-!
# Texts that are cut short

What is written for a value is taken to its last byte: whatever follows, the reader gives the
value, and of a text that was cut short it runs out (`Takes`).  This is put together as the
readers are: before a token a cut is seen at once, and where one reader follows another the cut
is in the text of the first or of the second.  By induction on the entries of a list and on the
fields of an object it holds of both brackets.
-/

namespace CreationGate

namespace Json

open Reader

variable {α β : Type}

/-! ## Cuts -/

/-- A text that was cut short: a prefix that is not the whole. -/
def IsCut (p text : Bytes) : Prop := p <+: text ∧ p ≠ text

theorem IsCut.not_isPrefix {p text : Bytes} (h : IsCut p text) : ¬text <+: p := by
  intro hback
  exact h.2 (h.1.eq_of_length (Nat.le_antisymm h.1.length_le hback.length_le))

theorem isCut_cons {p text : Bytes} {b : UInt8} :
    IsCut p (b :: text) ↔ p = [] ∨ ∃ q, p = b :: q ∧ IsCut q text := by
  constructor
  · rintro ⟨hfront, hne⟩
    rcases List.prefix_cons_iff.mp hfront with hnil | ⟨q, rfl, hq⟩
    · exact .inl hnil
    · exact .inr ⟨q, rfl, hq, fun heq => hne (heq ▸ rfl)⟩
  · rintro (rfl | ⟨q, rfl, hfront, hne⟩)
    · exact ⟨List.nil_prefix, List.cons_ne_nil b text ∘ Eq.symm⟩
    · exact ⟨List.cons_prefix_cons.mpr ⟨rfl, hfront⟩, fun heq => hne (List.cons.inj heq).2⟩

/-- Two texts are cut in the first or in the second. -/
theorem IsCut.of_append {p first second : Bytes} (h : IsCut p (first ++ second)) :
    IsCut p first ∨ ∃ q, p = first ++ q ∧ IsCut q second := by
  induction first generalizing p with
  | nil => exact .inr ⟨p, rfl, h⟩
  | cons b first ih =>
    rcases isCut_cons.mp h with rfl | ⟨p, rfl, hp⟩
    · exact .inl (isCut_cons.mpr (.inl rfl))
    rcases ih hp with hfirst | ⟨q, rfl, hq⟩
    · exact .inl (isCut_cons.mpr (.inr ⟨p, rfl, hfirst⟩))
    · exact .inr ⟨q, rfl, hq⟩

/-- A cut misses the last byte at least. -/
theorem IsCut.prefix_of_append_singleton {p text : Bytes} {c : UInt8}
    (h : IsCut p (text ++ [c])) : p <+: text := by
  rcases List.prefix_concat_iff.mp h.1 with heq | hfront
  · exact absurd heq h.2
  · exact hfront

/-! ## Readers that run out -/

/-- A reader ends in a fault of a text that ended too early, at the end of the text. -/
def RunsOut (r : Reader α) (s : Bytes) : Prop :=
  ∃ cause s', cause.category = .eof ∧ r s = (.error ⟨cause, some 0⟩, s')

namespace RunsOut

variable {r : Reader α} {s s' : Bytes}

theorem bind (h : RunsOut r s) (f : α → Reader β) : RunsOut (r >>= f) s := by
  obtain ⟨cause, left, hcause, hr⟩ := h
  exact ⟨cause, left, hcause, bind_of_error hr⟩

theorem bind_of_ok {f : α → Reader β} {a : α} (h : r s = (.ok a, s')) (hf : RunsOut (f a) s') :
    RunsOut (r >>= f) s := by
  obtain ⟨cause, left, hcause, hr⟩ := hf
  exact ⟨cause, left, hcause, (Reader.bind_of_ok h).trans hr⟩

theorem placed (h : RunsOut r s) : RunsOut (Reader.placed r) s := by
  obtain ⟨cause, left, hcause, hr⟩ := h
  refine ⟨cause, left, hcause, ?_⟩
  rw [Reader.placed, hr]

theorem thenAlways (h : RunsOut r s) (last : Reader Unit) :
    RunsOut (Reader.thenAlways r last) s := by
  obtain ⟨cause, left, hcause, hr⟩ := h
  refine ⟨cause, (last left).2, hcause, ?_⟩
  rw [Reader.thenAlways, hr]

theorem tokenIn_nil {eof : Cause} (h : eof.category = .eof) : RunsOut (tokenIn eof) [] :=
  ⟨eof, [], h, rfl⟩

end RunsOut

/-- A text is refused because it ends, with no byte left at the place of the fault. -/
def RefusedAtEnd (reader : Reader α) (text : Bytes) : Prop :=
  ∃ fault, read reader text = .error fault ∧ fault.cause.category = .eof ∧ fault.left = some 0

/-! ## Texts taken to the last byte -/

/-- A reader takes a text in front of bytes `ahead` that it only looks at.  If nothing is missing
it gives a value, whatever follows; of a cut that still has the bytes `seen` it runs out.  This is
said of fewer than `bound` bytes, since the readers of elements and fields get their fuel from the
number of bytes that are left. -/
structure Takes (bound : Nat) (r : Reader α) (seen text ahead : Bytes) (a : α) : Prop where
  whole : ∀ rest, (text ++ (ahead ++ rest)).length < bound →
    r (text ++ (ahead ++ rest)) = (.ok a, ahead ++ rest)
  cut : ∀ p, p.length < bound → IsCut p (text ++ ahead) → seen <+: p → RunsOut r p

namespace Takes

variable {bound : Nat} {r : Reader α} {f : α → Reader β} {seen text text' ahead : Bytes} {a : α}
  {b : β}

theorem zero : Takes 0 r seen text ahead a :=
  ⟨fun _ hlength => absurd hlength (Nat.not_lt_zero _),
    fun _ hlength => absurd hlength (Nat.not_lt_zero _)⟩

theorem pure (a : α) (ahead : Bytes) : Takes bound (Pure.pure a : Reader α) ahead [] ahead a := by
  refine ⟨fun rest _ => rfl, fun p _ hcut hseen => ?_⟩
  exact absurd hseen hcut.not_isPrefix

/-- One reader after another, which is left with fewer bytes. -/
theorem bind_of_le {bound' : Nat} (h : Takes bound r seen text [] a)
    (hf : Takes bound' (f a) [] text' ahead b) (hbound : bound ≤ bound' + text.length) :
    Takes bound (r >>= f) seen (text ++ text') ahead b := by
  constructor
  · intro rest hlength
    rw [List.append_assoc] at hlength ⊢
    have hfirst : r (text ++ (text' ++ (ahead ++ rest))) = (.ok a, text' ++ (ahead ++ rest)) :=
      h.whole (text' ++ (ahead ++ rest)) hlength
    rw [List.length_append] at hlength
    rw [bind_of_ok hfirst]
    exact hf.whole rest (by omega)
  · intro p hlength hcut hseen
    rw [List.append_assoc] at hcut
    -- Either the first reader runs out, or it gives its value and the second one runs out.
    rcases hcut.of_append with hfirst | ⟨q, rfl, hsecond⟩
    · have hcut' : IsCut p (text ++ []) := by rwa [List.append_nil]
      exact (h.cut p hlength hcut' hseen).bind f
    · rw [List.length_append] at hlength
      refine .bind_of_ok (h.whole q ?_) (hf.cut q (by omega) hsecond List.nil_prefix)
      rw [List.nil_append, List.length_append]
      exact hlength

theorem bind (h : Takes bound r seen text [] a) (hf : Takes bound (f a) [] text' ahead b) :
    Takes bound (r >>= f) seen (text ++ text') ahead b :=
  h.bind_of_le hf (Nat.le_add_right bound _)

theorem bind_pure (h : Takes bound r seen text ahead a) (hf : f a = Pure.pure b) :
    Takes bound (r >>= f) seen text ahead b := by
  refine ⟨fun rest hlength => ?_, fun p hlength hcut hseen => ?_⟩
  · rw [bind_of_ok (h.whole rest hlength), hf]
    rfl
  · exact (h.cut p hlength hcut hseen).bind f

theorem placed (h : Takes bound r seen text ahead a) :
    Takes bound (Reader.placed r) seen text ahead a :=
  ⟨fun rest hlength => placed_of_ok (h.whole rest hlength),
    fun p hlength hcut hseen => (h.cut p hlength hcut hseen).placed⟩

theorem thenAlways {last : Reader Unit} (h : Takes bound r seen text ahead a)
    (hlast : ∀ rest, last (ahead ++ rest) = (.ok (), rest)) :
    Takes bound (Reader.thenAlways r last) seen (text ++ ahead) [] a := by
  constructor
  · intro rest hlength
    rw [List.append_assoc] at hlength ⊢
    exact thenAlways_of_ok (h.whole rest hlength) (hlast rest)
  · intro p hlength hcut hseen
    rw [List.append_nil] at hcut
    exact (h.cut p hlength hcut hseen).thenAlways last

/-- A token is looked at: where there is none the text is missing. -/
theorem token {f : UInt8 → Reader β} {eof : Cause} {t : UInt8} {more : Bytes}
    (heof : eof.category = .eof) (htoken : isBlank t = false) (hfull : text ++ ahead = t :: more)
    (hf : Takes bound (f t) [t] text ahead b) :
    Takes bound (tokenIn eof >>= f) seen text ahead b := by
  constructor
  · intro rest hlength
    have hstarts : text ++ (ahead ++ rest) = t :: (more ++ rest) := by
      rw [← List.append_assoc, hfull, List.cons_append]
    have hread := hf.whole rest hlength
    rw [hstarts] at hread ⊢
    rw [bind_of_ok (tokenIn_cons eof htoken (more ++ rest)), hread]
  · intro p hlength hcut _
    rw [hfull] at hcut
    rcases isCut_cons.mp hcut with rfl | ⟨q, rfl, hq⟩
    · exact (RunsOut.tokenIn_nil heof).bind f
    · have hseen : [t] <+: t :: q := ⟨q, rfl⟩
      refine .bind_of_ok (tokenIn_cons eof htoken q) (hf.cut _ hlength ?_ hseen)
      rw [hfull]
      exact hcut

/-- A token that was looked at is taken. -/
theorem skip (t : UInt8) : Takes bound Reader.skip [t] [t] [] () := by
  refine ⟨fun rest _ => rfl, fun p _ hcut hseen => ?_⟩
  exact absurd hseen hcut.not_isPrefix

theorem skip_bind {f : Unit → Reader β} {t : UInt8} (hf : Takes bound (f ()) [] text ahead b) :
    Takes bound (Reader.skip >>= f) [t] (t :: text) ahead b :=
  (skip t).bind hf

/-- A bound on what is left is the length of what is left. -/
theorem ofLength {r : Nat → Reader α} (h : ∀ n, Takes n (r n) seen text ahead a) :
    Takes bound (fun s => r (s.length + 1) s) seen text ahead a :=
  ⟨fun rest _ => (h _).whole rest (Nat.lt_succ_self _),
    fun p _ hcut hseen => (h _).cut p (Nat.lt_succ_self _) hcut hseen⟩

end Takes

/-- What is written for a value is read as the value, and no less of it is read. -/
structure NeedsWhole (reader : Reader α) (write : α → Bytes) : Prop where
  read_write : ∀ a, read reader (write a) = .ok a
  refused_cut : ∀ a p, IsCut p (write a) → RefusedAtEnd reader p

theorem NeedsWhole.of_takes {reader : Reader α} {write : α → Bytes}
    (h : ∀ n a, Takes n reader [] (write a) [] a) : NeedsWhole reader write := by
  constructor
  · intro a
    have hread := (h ((write a).length + 1) a).whole []
    simp only [List.append_nil] at hread
    rw [read, bind_of_ok (hread (Nat.lt_succ_self _))]
    rfl
  · intro a p hcut
    rw [← List.append_nil (write a)] at hcut
    obtain ⟨cause, left, hcause, hr⟩ :=
      (h (p.length + 1) a).cut p (Nat.lt_succ_self _) hcut List.nil_prefix
    refine ⟨⟨cause, some 0⟩, ?_, hcause, rfl⟩
    rw [read, bind_of_error hr]

/-! ## Names and byte strings -/

variable {n : Nat}

/-- A string that ends in no quote is taken whole, and then the quote is missing. -/
theorem readString_takes {name : Bytes} (hname : IsPlainName name) :
    Takes n readString [] (name ++ [34]) [] name := by
  constructor
  · intro rest _
    have hread := readString_parts (plainParts name hname) rest
    rw [unescape?_plainParts, partsText_plainParts] at hread
    rw [List.append_assoc]
    exact hread
  · intro p _ hcut _
    rw [List.append_nil] at hcut
    have hplain : ∀ b ∈ p, isPlain b = true := fun b hb =>
      isPlain_of_allowed (hname b (hcut.prefix_of_append_singleton.subset hb))
    have htaken : takePlain p = (.ok p, []) := by
      rw [takePlain, List.takeWhile_eq_self_iff.mpr hplain, List.dropWhile_eq_nil_iff.mpr hplain]
    refine ⟨.eofInString, [], rfl, ?_⟩
    rw [readString, readStringParts, bind_of_ok htaken]
    rfl

theorem readName_takes {name : Bytes} (hname : IsPlainName name) :
    Takes n readName [34] (writeName name) [] name :=
  .skip_bind (readString_takes hname)

theorem fixedOfDigits_encode {k : Nat} (a : FixedBytes k) :
    fixedOfDigits k (hexMarker ++ Hex.encode a.bytes) = .ok a := by
  rw [← pairsText_lowerPairs]
  exact fixedOfDigits_pairsText (.inr rfl) (lowerPairs a.bytes) (pairsValue_lowerPairs a.bytes).symm

theorem readFixed_takes {k : Nat} (a : FixedBytes k) (seen : Bytes) :
    Takes n (readFixed k) seen (writeFixed a) [] a := by
  refine .placed (.token rfl (by decide : isBlank 34 = false) rfl ?_)
  rw [if_pos rfl]
  refine (readName_takes (isPlainName_encode a.bytes)).bind_pure ?_
  rw [fixedOfDigits_encode]
  rfl

theorem one_le_length_writeName (first : Bool) (name : Bytes) :
    1 ≤ (separator first ++ writeName name).length := by
  rw [List.length_append, writeName, List.cons_append, List.length_cons]
  omega

/-! ## Lists -/

section Lists

variable {k : Nat}

theorem readElement?_takes (first : Bool) (a : FixedBytes k) :
    Takes n (readElement? first (readFixed k)) [] (separator first ++ writeFixed a) []
      (some a) := by
  cases first with
  | true =>
    refine .token (t := 34) rfl (by decide) rfl ?_
    rw [if_neg (by decide), if_pos rfl]
    exact (readFixed_takes a [34]).bind_pure rfl
  | false =>
    refine .token (t := 44) rfl (by decide) rfl ?_
    rw [if_neg (by decide), if_neg (by decide), if_pos rfl]
    refine .skip_bind (.token (t := 34) rfl (by decide) rfl ?_)
    rw [if_neg (by decide)]
    exact (readFixed_takes a [34]).bind_pure rfl

theorem readElement?_takes_end (first : Bool) (element : Reader α) :
    Takes n (readElement? first element) [] [] [93] none := by
  refine .token (t := 93) rfl (by decide) rfl ?_
  rw [if_pos rfl]
  exact .pure none [93]

/-- By induction on the entries: each takes one off the fuel and at least one byte off the text. -/
theorem readElements_takes (l : List (FixedBytes k)) (first : Bool) :
    Takes n (readElements (readFixed k) n first) [] (joined first (l.map writeFixed)) [93] l := by
  induction l generalizing n first with
  | nil =>
    cases n with
    | zero => exact .zero
    | succ n => exact (readElement?_takes_end first (readFixed k)).bind_pure rfl
  | cons a l ih =>
    cases n with
    | zero => exact .zero
    | succ n =>
      have htext : joined first ((a :: l).map writeFixed)
          = (separator first ++ writeFixed a) ++ joined false (l.map writeFixed) := by
        rw [List.map_cons, joined, List.append_assoc]
      rw [readElements, htext]
      refine (readElement?_takes first a).bind_of_le ((ih false).bind_pure rfl) ?_
      exact Nat.add_le_add_left (one_le_length_writeName first _) n

theorem readListOf_takes (l : List (FixedBytes k)) (seen : Bytes) :
    Takes n (readListOf (readFixed k)) seen (writeList (l.map writeFixed)) [] l := by
  refine .placed (.token rfl (by decide : isBlank 91 = false) rfl ?_)
  rw [if_pos rfl, writeList, ← joined_eq_intersperse]
  refine .skip_bind (.thenAlways (.ofLength fun n => readElements_takes l true) ?_)
  intro rest
  exact endList_nil ∅ rest

end Lists

/-! ## Objects -/

theorem readColon_takes : Takes n readColon [] [58] [] () := by
  refine .token (t := 58) rfl (by decide) rfl ?_
  rw [if_pos rfl]
  exact .skip 58

theorem readKey?_takes {name : Bytes} (hname : IsPlainName name) (first : Bool) :
    Takes n (readKey? first) [] (separator first ++ writeName name) [] (some name) := by
  cases first with
  | true =>
    refine .token (t := 34) rfl (by decide) rfl ?_
    rw [if_neg (by decide), if_pos rfl, if_pos rfl]
    exact (readName_takes hname).bind_pure rfl
  | false =>
    refine .token (t := 44) rfl (by decide) rfl ?_
    rw [if_neg (by decide), if_neg (by decide), if_pos rfl]
    refine .skip_bind (.token (t := 34) rfl (by decide) rfl ?_)
    rw [if_pos rfl]
    exact (readName_takes hname).bind_pure rfl

theorem readKey?_takes_end (first : Bool) : Takes n (readKey? first) [] [] [125] none := by
  refine .token (t := 125) rfl (by decide) rfl ?_
  rw [if_pos rfl]
  exact .pure none [125]

/-- Fields that are taken one after the other lead from one state to another. -/
inductive TakesFields (field : α → Bytes → Reader α) : α → List (Bytes × Bytes) → α → Prop
  | nil (state : α) : TakesFields field state [] state
  | cons {state next last : α} {name text : Bytes} {fields : List (Bytes × Bytes)}
      (hname : IsPlainName name) (hfield : ∀ n, Takes n (field state name) [] (58 :: text) [] next)
      (hfields : TakesFields field next fields last) :
      TakesFields field state ((name, text) :: fields) last

/-- A field as it is written. -/
def writeField (field : Bytes × Bytes) : Bytes := writeName field.1 ++ 58 :: field.2

theorem readFields_takes {field : α → Bytes → Reader α} {state last : α}
    {fields : List (Bytes × Bytes)} (h : TakesFields field state fields last) (first : Bool) :
    Takes n (readFields field n first state) [] (joined first (fields.map writeField)) [125]
      last := by
  induction h generalizing n first with
  | nil state =>
    cases n with
    | zero => exact .zero
    | succ n => exact (readKey?_takes_end first).bind_pure rfl
  | @cons state next last name text fields hname hfield hfields ih =>
    cases n with
    | zero => exact .zero
    | succ n =>
      have htext : joined first (((name, text) :: fields).map writeField)
          = (separator first ++ writeName name)
            ++ ((58 :: text) ++ joined false (fields.map writeField)) := by
        rw [List.map_cons, joined, writeField, List.append_assoc, List.append_assoc]
      rw [readFields, htext]
      refine (readKey?_takes hname first).bind_of_le ((hfield n).bind (ih false)) ?_
      exact Nat.add_le_add_left (one_le_length_writeName first name) n

/-- An object whose fields are read up to its end, and what is made of them. -/
theorem inObject_takes {field : α → Bytes → Reader α} {state last : α} {finish : α → Reader β}
    {fields : List (Bytes × Bytes)} {b : β} (h : TakesFields field state fields last)
    (hfinish : finish last = pure b) :
    Takes n (inObject ((fun s => readFields field (s.length + 1) true state s) >>= finish)) [123]
      (writeObject fields) [] b := by
  have htext : writeObject fields = 123 :: (joined true (fields.map writeField) ++ [125]) := by
    rw [joined_eq_intersperse]
    rfl
  have hfields : Takes n (fun s => readFields field (s.length + 1) true state s) []
      (joined true (fields.map writeField)) [125] last := .ofLength fun _ => readFields_takes h true
  rw [htext]
  refine .skip_bind ((hfields.bind_pure hfinish).thenAlways ?_)
  intro rest
  exact endObject_nil ∅ rest

/-! ## Variants -/

section Variants

variable {variants : List (String × α)} {bare body : α → Reader β} {name : Bytes} {variant : α}
  {b : β}

theorem readVariant_takes (hvariant : variantOf variants name = .ok variant)
    (hname : IsPlainName name) :
    Takes n (readVariant variants) [34] (writeName name) [] variant := by
  refine .placed ((readName_takes hname).bind_pure ?_)
  rw [hvariant]
  rfl

theorem readTagged_takes_name (hvariant : variantOf variants name = .ok variant)
    (hname : IsPlainName name) (hbare : bare variant = pure b) :
    Takes n (readTagged variants bare body) [] (writeName name) [] b := by
  refine .token rfl (by decide : isBlank 34 = false) rfl ?_
  rw [if_neg (by decide), if_pos rfl]
  exact (readVariant_takes hvariant hname).bind_pure hbare

theorem readTagged_takes_object (hvariant : variantOf variants name = .ok variant)
    (hname : IsPlainName name) {text : Bytes} (hbody : ∀ n, Takes n (body variant) [] text [] b) :
    Takes n (readTagged variants bare body) [] (writeObject [(name, text)]) [] b := by
  have htext : writeObject [(name, text)]
      = 123 :: (writeName name ++ ([58] ++ (text ++ [125]))) := by
    simp [writeObject]
  rw [htext]
  refine .token rfl (by decide : isBlank 123 = false) rfl ?_
  rw [if_pos rfl]
  refine .skip_bind (.token (t := 34) rfl (by decide) rfl ?_)
  rw [if_pos rfl]
  refine (readVariant_takes hvariant hname).bind (readColon_takes.bind ((hbody n).bind ?_))
  refine .token (t := 125) rfl (by decide) rfl ?_
  rw [if_pos rfl]
  exact (Takes.skip 125).bind_pure rfl

end Variants

/-! ## Governance values -/

theorem readAccountSet_takes (set : AccountSet) :
    Takes n readAccountSet [] (writeAccountSet set) [] set := by
  refine (readListOf_takes set.keys []).bind_pure ?_
  rw [AccountSet.ofList_keys]

theorem readOrigin_takes (origin : Origin) :
    Takes n readOrigin [] (writeOrigin origin) [] origin := by
  cases origin with
  | root => exact readTagged_takes_name rfl (by decide) rfl
  | unsigned => exact readTagged_takes_name rfl (by decide) rfl
  | signed signer =>
    have hvariant : variantOf originVariants (Bytes.ofAscii "Signed") = .ok .signed := rfl
    exact readTagged_takes_object hvariant (by decide) fun _ =>
      (readFixed_takes signer []).bind_pure rfl

theorem readEventBody_takes (variant : EventVariant) (deployer : Account) :
    Takes n (readEventBody variant) []
      (writeObject [(Bytes.ofAscii deployerField, writeFixed deployer)]) [] deployer := by
  have hfield : ∀ n, Takes n (readEventField none (Bytes.ofAscii deployerField)) []
      (58 :: writeFixed deployer) [] (some deployer) := by
    intro n
    rw [readEventField, if_pos rfl]
    exact readColon_takes.bind ((readFixed_takes deployer []).bind_pure rfl)
  have hfields : TakesFields readEventField none
      [(Bytes.ofAscii deployerField, writeFixed deployer)] (some deployer) :=
    .cons (by decide) hfield (.nil (some deployer))
  refine .placed (.token (t := 123) rfl (by decide) rfl ?_)
  rw [if_neg (by decide), if_pos rfl]
  exact inObject_takes hfields rfl

theorem readEvent_takes (event : Event) : Takes n readEvent [] (writeEvent event) [] event := by
  -- Both events are written alike, but for the name of the variant.
  have hvariant : ∀ (name : String) (variant : EventVariant) (deployer : Account),
      variantOf eventVariants (Bytes.ofAscii name) = .ok variant →
      IsPlainName (Bytes.ofAscii name) →
      Takes n readEvent [] (writeEventAs name deployer) [] (variant.event deployer) := by
    intro name variant deployer hvariant hname
    exact readTagged_takes_object hvariant hname fun _ =>
      (readEventBody_takes variant deployer).bind_pure rfl
  cases event with
  | authorized deployer => exact hvariant _ .authorized deployer rfl (by decide)
  | revoked deployer => exact hvariant _ .revoked deployer rfl (by decide)

theorem readGenesis_takes (genesis : Genesis) :
    Takes n readGenesis [] (writeGenesis genesis) [] genesis := by
  have hlist : ∀ n {k : Nat} (l : List (FixedBytes k)),
      Takes n (readColon >>= fun _ => readListOf (readFixed k)) []
        (58 :: writeList (l.map writeFixed)) [] l := fun n k l =>
    readColon_takes.bind (readListOf_takes l [])
  have hfields : TakesFields readGenesisField {}
      [(deployersKey, writeList (genesis.deployers.map writeFixed)),
        (addressesKey, writeList (genesis.addresses.map writeFixed))]
      ⟨some genesis.deployers, some genesis.addresses⟩ := by
    have hdeployers : ∀ n, Takes n (readGenesisField {} deployersKey) []
        (58 :: writeList (genesis.deployers.map writeFixed)) [] ⟨some genesis.deployers, none⟩ := by
      intro n
      rw [readGenesisField_deployers rfl]
      exact (hlist n genesis.deployers).bind_pure rfl
    have haddresses : ∀ n, Takes n
        (readGenesisField ⟨some genesis.deployers, none⟩ addressesKey) []
        (58 :: writeList (genesis.addresses.map writeFixed)) []
        ⟨some genesis.deployers, some genesis.addresses⟩ := by
      intro n
      rw [readGenesisField_addresses rfl]
      exact (hlist n genesis.addresses).bind_pure rfl
    exact .cons (by decide) hdeployers (.cons (by decide) haddresses (.nil _))
  refine .placed (.token (t := 123) rfl (by decide) rfl ?_)
  rw [if_neg (by decide), if_pos rfl]
  exact inObject_takes hfields rfl

/-- **A text that was cut short is never read.**  What is written for an account or sudo key, an
origin, an event, a set of accounts or a genesis configuration is read as what it was written
for.  Cut anywhere, down to the empty text, it is refused because the text ends: so the fault
says, and it stands at the end. -/
theorem cut_texts_are_refused :
    NeedsWhole readAccount writeFixed ∧ NeedsWhole readOrigin writeOrigin
      ∧ NeedsWhole readEvent writeEvent ∧ NeedsWhole readAccountSet writeAccountSet
      ∧ NeedsWhole readGenesis writeGenesis := by
  refine ⟨.of_takes ?_, .of_takes ?_, .of_takes ?_, .of_takes ?_, .of_takes ?_⟩
  · intro n account
    exact readFixed_takes account []
  · intro n origin
    exact readOrigin_takes origin
  · intro n event
    exact readEvent_takes event
  · intro n set
    exact readAccountSet_takes set
  · intro n genesis
    exact readGenesis_takes genesis

/-- Two deployers, cut behind the first. -/
theorem cut_texts_are_refused_between_entries :
    let genesis : Genesis := ⟨[.repeated 32 1, .repeated 32 2], []⟩
    let cut := (writeGenesis genesis).take 92
    cut = Bytes.ofAscii "\x7b\"authorizedDeployers\":[" ++ writeFixed (.repeated 32 1 : Account)
      ∧ IsCut cut (writeGenesis genesis) ∧ RefusedAtEnd readGenesis cut := by
  intro genesis cut
  have hcut : IsCut cut (writeGenesis genesis) :=
    ⟨List.take_prefix 92 (writeGenesis genesis), by decide +kernel⟩
  obtain ⟨-, -, -, -, hgenesis⟩ := cut_texts_are_refused
  exact ⟨by decide +kernel, hcut, hgenesis.refused_cut genesis cut hcut⟩

end Json

end CreationGate
