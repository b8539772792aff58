import CreationGate.Json.Governance
import CreationGate.Proofs.Json.Members
import CreationGate.Proofs.Json.Written

/-!
# Genesis configurations as texts

A genesis text is an object with two fields, both of which may be missing.  Its members are read
one after the other, each into the field that its key names (`readFields_readsAs`); what is
accepted names no other fields and none twice (`readFields_eq_ok`).
-/

namespace CreationGate

namespace Json

open Reader

/-! ## Keys and entries -/

def deployersKey : Bytes := Bytes.ofAscii "authorizedDeployers"

def addressesKey : Bytes := Bytes.ofAscii "authorizedAddresses"

/-- The members whose key spells a name. -/
def membersOf (key : Bytes) (members : List (Member Value)) : List (Member Value) :=
  members.filter fun member => member.name? == some key

theorem membersOf_cons_of_eq {key : Bytes} {member : Member Value}
    (h : member.name? = some key) (members : List (Member Value)) :
    membersOf key (member :: members) = member :: membersOf key members :=
  List.filter_cons_of_pos (beq_iff_eq.mpr h)

theorem membersOf_cons_of_ne {key : Bytes} {member : Member Value}
    (h : member.name? ≠ some key) (members : List (Member Value)) :
    membersOf key (member :: members) = membersOf key members :=
  List.filter_cons_of_neg (by rwa [beq_iff_eq])

/-- A field that is missing or written once, with its entries in order. -/
inductive SpellsField {n : Nat} : List (Member Value) → List (FixedBytes n) → Prop
  | absent : SpellsField [] []
  | present {member : Member Value} {l : List (FixedBytes n)}
      (h : SpellsList member.value.value l) : SpellsField [member] l

/-- The members of an object spell a configuration: each of the two fields at most once, nothing
else, and in each field its entries in order. -/
structure SpellsGenesis (members : List (Member Value)) (genesis : Genesis) : Prop where
  known : ∀ member ∈ members, member.name? = some deployersKey ∨ member.name? = some addressesKey
  deployers : SpellsField (membersOf deployersKey members) genesis.deployers
  addresses : SpellsField (membersOf addressesKey members) genesis.addresses

/-- Some key is neither of the two names. -/
def HasUnknownKey (members : List (Member Value)) : Prop :=
  ∃ member ∈ members, member.name? ≠ some deployersKey ∧ member.name? ≠ some addressesKey

theorem not_hasUnknownKey_cons {member : Member Value} {members : List (Member Value)}
    (h : member.name? = some deployersKey ∨ member.name? = some addressesKey)
    (hrest : ¬HasUnknownKey members) : ¬HasUnknownKey (member :: members) := by
  rintro ⟨m, hm, hdeployers, haddresses⟩
  rcases List.mem_cons.mp hm with rfl | hm
  · exact h.elim hdeployers haddresses
  · exact hrest ⟨m, hm, hdeployers, haddresses⟩

/-- One of the two names occurs twice. -/
def HasRepeatedKey (members : List (Member Value)) : Prop :=
  2 ≤ (membersOf deployersKey members).length ∨ 2 ≤ (membersOf addressesKey members).length

/-- In the entries of a list, what stands behind `n` items is no string that spells nothing. -/
def SurplusUnescapes (n : Nat) (value : Value) : Prop :=
  ∀ entry ∈ value.items, ∀ item ∈ entry.value.items[n]?, item.value.Unescapes

/-- No entry goes on, behind as many items as it has bytes, with a string that spells nothing. -/
def EntriesUnescape (members : List (Member Value)) : Prop :=
  ∀ member ∈ members,
    (member.name? = some deployersKey → SurplusUnescapes 32 member.value.value)
      ∧ (member.name? = some addressesKey → SurplusUnescapes 20 member.value.value)

/-! ## One field -/

theorem deployersKey_ne : deployersKey ≠ addressesKey := by decide

section Fields

variable (member : Member Value) (rest : Bytes)

theorem readListOf_skipsBlanks {α : Type} (element : Reader α) :
    SkipsBlanks (readListOf element) :=
  ((tokenIn_skipsBlanks _).bind _).placed

/-- A list field behind its colon. -/
theorem readField_readsAs {n : Nat} {l : List (FixedBytes n)} (hrest : Delimited rest)
    (h : SpellsList member.value.value l) :
    (readColon >>= fun _ => readListOf (readFixed n)) (member.afterKey rest) = (.ok l, rest) := by
  rw [bind_of_ok (readColon_afterKey member rest), readListOf_skipsBlanks]
  exact readListOf_readFixed_readsAs h rest hrest

theorem readField_eq_ok {n : Nat} {l : List (FixedBytes n)} {s' : Bytes} (hrest : Delimited rest)
    (h : SurplusUnescapes n member.value.value)
    (hread : (readColon >>= fun _ => readListOf (readFixed n)) (member.afterKey rest)
      = (.ok l, s')) : s' = rest := by
  rw [bind_of_ok (readColon_afterKey member rest), readListOf_skipsBlanks] at hread
  exact readListOf_takesWhole (fun entry hentry => readFixed_takesWhole n (h entry hentry)) rest
    hrest l s' hread

end Fields

/-- A field that is read once goes into its place. -/
theorem readGenesisField_deployers {state : GenesisFields} (h : state.deployers = none) :
    readGenesisField state deployersKey
      = (fun l => { state with deployers := some l })
        <$> (readColon >>= fun _ => readListOf (readFixed 32)) := by
  simp only [readGenesisField, deployersKey, deployersField, if_true, h, map_eq_pure_bind,
    bind_assoc]
  rfl

theorem readGenesisField_addresses {state : GenesisFields} (h : state.addresses = none) :
    readGenesisField state addressesKey
      = (fun l => { state with addresses := some l })
        <$> (readColon >>= fun _ => readListOf (readFixed 20)) := by
  have hne : addressesKey ≠ Bytes.ofAscii deployersField := deployersKey_ne.symm
  simp only [readGenesisField, if_neg hne]
  simp only [addressesKey, addressesField, if_true, h, map_eq_pure_bind, bind_assoc]
  rfl

/-- Other names are refused, and so are names whose field has been read. -/
theorem readGenesisField_fails {state : GenesisFields} {name : Bytes}
    (hdeployers : name = deployersKey → state.deployers ≠ none)
    (haddresses : name = addressesKey → state.addresses ≠ none) (s : Bytes) :
    Fails (readGenesisField state name) s := by
  unfold readGenesisField
  by_cases hname : name = Bytes.ofAscii deployersField
  · rw [if_pos hname]
    cases hstate : state.deployers with
    | none => exact absurd hstate (hdeployers hname)
    | some l => exact .reject _ s
  rw [if_neg hname]
  by_cases hname' : name = Bytes.ofAscii addressesField
  · rw [if_pos hname']
    cases hstate : state.addresses with
    | none => exact absurd hstate (haddresses hname')
    | some l => exact .reject _ s
  rw [if_neg hname']
  exact .reject _ s

/-! ## All members -/

/-- What a field holds after some members of its name: what it held, or the entries of the one
member there is. -/
inductive FillsField {n : Nat} :
    Option (List (FixedBytes n)) → List (Member Value) → Option (List (FixedBytes n)) → Prop
  | kept (held : Option (List (FixedBytes n))) : FillsField held [] held
  | read {member : Member Value} {l : List (FixedBytes n)}
      (h : SpellsList member.value.value l) : FillsField none [member] (some l)

theorem FillsField.of_cons {n : Nat} {held filled : Option (List (FixedBytes n))}
    {member : Member Value} {members : List (Member Value)}
    (h : FillsField held (member :: members) filled) :
    held = none ∧ members = [] ∧ ∃ l, filled = some l ∧ SpellsList member.value.value l := by
  cases h with
  | read hlist => exact ⟨rfl, rfl, _, rfl, hlist⟩

theorem SpellsField.fills {n : Nat} {members : List (Member Value)} {l : List (FixedBytes n)}
    (h : SpellsField members l) : ∃ held, FillsField none members held ∧ held.getD [] = l := by
  cases h with
  | absent => exact ⟨none, .kept none, rfl⟩
  | present hlist => exact ⟨some _, .read hlist, rfl⟩

section Members

variable (tail : Bytes)

/-- By induction on the members: each goes to the field that its key names. -/
theorem readFields_readsAs {members : List (Member Value)} {state last : GenesisFields}
    (hknown : ∀ member ∈ members,
      member.name? = some deployersKey ∨ member.name? = some addressesKey)
    (hdeployers : FillsField state.deployers (membersOf deployersKey members) last.deployers)
    (haddresses : FillsField state.addresses (membersOf addressesKey members) last.addresses)
    {fuel : Nat} (hfuel : members.length < fuel) (first : Bool) (gap : Gap) :
    readFields readGenesisField fuel first state
        (gap.bytes ++ (membersText first members ++ 125 :: tail))
      = (.ok last, 125 :: tail) := by
  induction members generalizing state fuel first gap with
  | nil =>
    obtain ⟨fuel, rfl⟩ : ∃ k, fuel = k + 1 := ⟨fuel - 1, by omega⟩
    have hlast : state = last := by
      cases state
      cases last
      cases hdeployers
      cases haddresses
      rfl
    rw [readFields, bind_of_ok (readKey?_nil first gap tail), hlast]
    rfl
  | cons member members ih =>
    obtain ⟨fuel, rfl⟩ : ∃ k, fuel = k + 1 := ⟨fuel - 1, by omega⟩
    have hrest := delimited_gap member.value.after (delimited_members members tail)
    have hkey := readKey?_cons first gap member members (125 :: tail)
    have hmore := fun m hm => hknown m (List.mem_cons_of_mem member hm)
    have hshorter : members.length < fuel := by simp at hfuel; omega
    rw [readFields]
    rcases hknown member List.mem_cons_self with hname | hname
    · rw [membersOf_cons_of_eq hname] at hdeployers
      rw [membersOf_cons_of_ne (by rw [hname]; decide)] at haddresses
      obtain ⟨hnone, hnil, l, hl, hlist⟩ := hdeployers.of_cons
      rw [hname] at hkey
      have hfield := map_of_ok (readField_readsAs member _ hrest hlist)
        fun l => { state with deployers := some l }
      rw [← readGenesisField_deployers hnone] at hfield
      refine (bind_of_ok hkey).trans ((bind_of_ok hfield).trans ?_)
      refine @ih { state with deployers := some l } hmore ?_ haddresses fuel hshorter false _
      rw [hnil, hl]
      exact .kept (some l)
    · rw [membersOf_cons_of_ne (by rw [hname]; decide)] at hdeployers
      rw [membersOf_cons_of_eq hname] at haddresses
      obtain ⟨hnone, hnil, l, hl, hlist⟩ := haddresses.of_cons
      rw [hname] at hkey
      have hfield := map_of_ok (readField_readsAs member _ hrest hlist)
        fun l => { state with addresses := some l }
      rw [← readGenesisField_addresses hnone] at hfield
      refine (bind_of_ok hkey).trans ((bind_of_ok hfield).trans ?_)
      refine @ih { state with addresses := some l } hmore hdeployers ?_ fuel hshorter false _
      rw [hnil, hl]
      exact .kept (some l)

/-- A member that is read names a field that has not been read. -/
theorem readGenesisField_eq_ok {member : Member Value} {name : Bytes}
    (hname : member.name? = some name) (hentries : EntriesUnescape [member]) {rest : Bytes}
    (hrest : Delimited rest) {state state' : GenesisFields} {s' : Bytes}
    (hread : readGenesisField state name (member.afterKey rest) = (.ok state', s')) :
    s' = rest
      ∧ ((name = deployersKey ∧ state.deployers = none ∧ state'.deployers.isSome
          ∧ state'.addresses = state.addresses)
        ∨ (name = addressesKey ∧ state.addresses = none ∧ state'.addresses.isSome
          ∧ state'.deployers = state.deployers)) := by
  obtain ⟨hdeployersEnd, haddressesEnd⟩ := hentries member List.mem_cons_self
  by_cases hdeployers : name = deployersKey ∧ state.deployers = none
  · obtain ⟨rfl, hnone⟩ := hdeployers
    rw [readGenesisField_deployers hnone] at hread
    obtain ⟨l, hlist, rfl⟩ := map_eq_ok hread
    exact ⟨readField_eq_ok member rest hrest (hdeployersEnd hname) hlist,
      .inl ⟨rfl, hnone, rfl, rfl⟩⟩
  by_cases haddresses : name = addressesKey ∧ state.addresses = none
  · obtain ⟨rfl, hnone⟩ := haddresses
    rw [readGenesisField_addresses hnone] at hread
    obtain ⟨l, hlist, rfl⟩ := map_eq_ok hread
    exact ⟨readField_eq_ok member rest hrest (haddressesEnd hname) hlist,
      .inr ⟨rfl, hnone, rfl, rfl⟩⟩
  · have hfails := readGenesisField_fails (fun h hnone => hdeployers ⟨h, hnone⟩)
      (fun h hnone => haddresses ⟨h, hnone⟩) (member.afterKey rest)
    exact absurd hread (hfails.ne_ok _ _)

/-- What is accepted has no unknown keys and no repeated ones, by induction on the members. -/
theorem readFields_eq_ok {members : List (Member Value)} {state last : GenesisFields}
    (hentries : EntriesUnescape members) {fuel : Nat} {first : Bool} {gap : Gap} {s' : Bytes}
    (hread : readFields readGenesisField fuel first state
        (gap.bytes ++ (membersText first members ++ 125 :: tail)) = (.ok last, s')) :
    ¬HasUnknownKey members
      ∧ (membersOf deployersKey members).length + state.deployers.isSome.toNat ≤ 1
      ∧ (membersOf addressesKey members).length + state.addresses.isSome.toNat ≤ 1 := by
  induction members generalizing state fuel first gap with
  | nil =>
    have hnone : ¬HasUnknownKey [] := fun ⟨member, hmem, _⟩ => by cases hmem
    refine ⟨hnone, ?_, ?_⟩
    · rw [membersOf, List.filter_nil, List.length_nil, Nat.zero_add]
      exact Bool.toNat_le _
    · rw [membersOf, List.filter_nil, List.length_nil, Nat.zero_add]
      exact Bool.toNat_le _
  | cons member members ih =>
    cases fuel with
    | zero => cases hread
    | succ fuel =>
      have hrest := delimited_gap member.value.after (delimited_members members tail)
      obtain ⟨o, s₁, hkey, hfield⟩ := bind_eq_ok hread
      obtain ⟨ho, rfl⟩ := (readKey?_cons first gap member members (125 :: tail)).eq_of_ok hkey
      obtain ⟨name, hname, rfl⟩ := Option.map_eq_some_iff.mp ho
      obtain ⟨state', s₂, hone, hmore⟩ := bind_eq_ok hfield
      have hmember : EntriesUnescape [member] := fun m hm =>
        hentries m (List.mem_cons.mpr (.inl (List.mem_singleton.mp hm)))
      obtain ⟨rfl, hwhich⟩ := readGenesisField_eq_ok hname hmember hrest hone
      obtain ⟨hunknown, hdeployers, haddresses⟩ :=
        ih (fun m hm => hentries m (List.mem_cons_of_mem member hm)) hmore
      rcases hwhich with ⟨rfl, hnone, hread, hsame⟩ | ⟨rfl, hnone, hread, hsame⟩
      · rw [hread, Bool.toNat_true] at hdeployers
        rw [hsame] at haddresses
        rw [membersOf_cons_of_eq hname, membersOf_cons_of_ne (by rw [hname]; decide), hnone]
        exact ⟨not_hasUnknownKey_cons (.inl hname) hunknown, by simpa using hdeployers, haddresses⟩
      · rw [hread, Bool.toNat_true] at haddresses
        rw [hsame] at hdeployers
        rw [membersOf_cons_of_eq hname, membersOf_cons_of_ne (by rw [hname]; decide), hnone]
        exact ⟨not_hasUnknownKey_cons (.inr hname) hunknown, hdeployers, by simpa using haddresses⟩

end Members

/-! ## Whole configurations -/

theorem readGenesis_skipsBlanks : SkipsBlanks readGenesis :=
  ((tokenIn_skipsBlanks _).bind _).placed

/-- An object that spells a configuration is read as this configuration. -/
theorem readGenesis_readsAs {opening : Gap} {members : List (Member Value)}
    {genesis : Genesis} (h : SpellsGenesis members genesis) :
    ReadsAs readGenesis (.object opening members) genesis := by
  obtain ⟨deployers, hdeployers, hdeployersEq⟩ := h.deployers.fills
  obtain ⟨addresses, haddresses, haddressesEq⟩ := h.addresses.fills
  refine .placed fun rest hrest => ?_
  rw [bind_of_ok (tokenIn_text .eofInValue (.object opening members) rest), Value.lead_object,
    if_neg (by decide), if_pos rfl, Value.object_text_append]
  refine inObject_readsAs ?_
  have hfuel : members.length
      < (opening.bytes ++ (membersText true members ++ 125 :: rest)).length + 1 := by
    have hlength := length_le_membersText true members
    simp only [List.length_append]
    omega
  have hfields := @readFields_readsAs rest members {} ⟨deployers, addresses⟩ h.known hdeployers
    haddresses _ hfuel true opening
  refine (bind_of_ok hfields).trans ?_
  rw [GenesisFields.genesis, hdeployersEq, haddressesEq]
  rfl

theorem readGenesis_eq_ok {opening : Gap} {members : List (Member Value)} {rest s' : Bytes}
    {genesis : Genesis} (hentries : EntriesUnescape members)
    (hread : readGenesis ((Value.object opening members).text ++ rest) = (.ok genesis, s')) :
    ¬HasUnknownKey members ∧ ¬HasRepeatedKey members := by
  have hobject := placed_eq_ok hread
  rw [bind_of_ok (tokenIn_text .eofInValue (.object opening members) rest), Value.lead_object,
    if_neg (by decide), if_pos rfl, Value.object_text_append] at hobject
  obtain ⟨s₁, hbody⟩ := inObject_eq_ok hobject
  obtain ⟨fields, s₂, hfields, -⟩ := bind_eq_ok hbody
  obtain ⟨hunknown, hdeployers, haddresses⟩ := readFields_eq_ok rest hentries hfields
  refine ⟨hunknown, ?_⟩
  rintro (htwice | htwice)
  · omega
  · omega

/-- **A genesis text is what its entries spell.**  An object with the two fields, each at most
once and in any order, is read as the configuration that its entries spell, in their order,
however keys, entries and blanks are written.  An object with another key, or one of the two
keys twice, is refused whatever its values are, as long as no entry goes on behind its last byte
with a string that spells nothing. -/
theorem genesis_text_spells_its_entries (before opening after : Gap)
    (members : List (Member Value)) :
    let text := Spaced.text ⟨before, .object opening members, after⟩
    (∀ genesis, SpellsGenesis members genesis → read readGenesis text = .ok genesis)
      ∧ (EntriesUnescape members → HasUnknownKey members ∨ HasRepeatedKey members →
        ∃ fault, read readGenesis text = .error fault) := by
  intro text
  constructor
  · intro genesis h
    exact read_readsAs readGenesis_skipsBlanks (readGenesis_readsAs h)
  · intro hentries hkeys
    cases hread : read readGenesis text with
    | error fault => exact ⟨fault, rfl⟩
    | ok genesis =>
      obtain ⟨s', hvalue⟩ := read_eq_ok hread
      have hobject := (readGenesis_skipsBlanks before _).symm.trans hvalue
      obtain ⟨hunknown, hrepeated⟩ := readGenesis_eq_ok hentries hobject
      exact absurd hkeys (not_or.mpr ⟨hunknown, hrepeated⟩)

/-- A configuration between blanks whose one key has an escaped letter, and its member twice. -/
theorem genesis_text_with_escaped_key :
    let blank : Gap := ⟨[32, 10], by decide⟩
    let letter : CodeUnit := ⟨.lower 0, .lower 0, .lower 7, .lower 3⟩
    let key := plainParts (Bytes.ofAscii "authorizedDeployer") (by decide) ++ [.unit letter]
    let account : Account := .repeated 32 0xab
    let member : Member Value := ⟨blank, key, blank, ⟨blank, .ofList [.ofFixed account], blank⟩⟩
    let genesis : Genesis := ⟨[account], []⟩
    SpellsGenesis [member] genesis
      ∧ read readGenesis (Spaced.text ⟨blank, .object ∅ [member], blank⟩) = .ok genesis
      ∧ EntriesUnescape [member, member] ∧ HasRepeatedKey [member, member]
      ∧ ∃ fault, read readGenesis (Spaced.text ⟨blank, .object ∅ [member, member], blank⟩)
        = .error fault := by
  intro blank letter key account member genesis
  have hname : member.name? = some deployersKey := by decide
  have hother : member.name? ≠ some addressesKey := by decide
  have hspells : SpellsGenesis [member] genesis := by
    refine ⟨fun m hm => .inl (by rw [List.mem_singleton.mp hm, hname]), ?_, ?_⟩
    · rw [membersOf_cons_of_eq hname]
      exact .present (spellsList_ofFixed [account])
    · rw [membersOf_cons_of_ne hother]
      exact .absent
  have hentries : EntriesUnescape [member, member] := by
    have hstring : ∀ n, SurplusUnescapes n (.ofList [.ofFixed account]) := by
      intro n entry hentry item hitem
      obtain rfl : entry = ⟨∅, .ofFixed account, ∅⟩ := List.mem_singleton.mp hentry
      cases hitem
    intro m hm
    obtain rfl : m = member := by simpa using hm
    exact ⟨fun _ => hstring 32, fun _ => hstring 20⟩
  have hrepeated : HasRepeatedKey [member, member] := .inl (by decide)
  exact ⟨hspells, (genesis_text_spells_its_entries blank ∅ blank [member]).1 genesis hspells,
    hentries, hrepeated,
    (genesis_text_spells_its_entries blank ∅ blank [member, member]).2 hentries (.inr hrepeated)⟩

/-! ## Strings that spell nothing -/

/-- Twenty zeros with a comma behind each. -/
def zerosText : Bytes := (List.replicate 20 (Bytes.ofAscii "0,")).flatten

def zeroItem : Spaced Value := ⟨∅, .number ⟨false, ⟨0, []⟩, fun _ => rfl, none, none⟩, ∅⟩

/-- The second half of a surrogate pair. -/
def loneUnit : CodeUnit := ⟨.lower 13, .lower 12, .lower 0, .lower 0⟩

/-- After twenty bytes of an address a fault in a string is forgotten, and the reader goes on
inside the string.  So an object with an unknown key is read as three addresses: the quotes that
open strings close them, and the other way round. -/
theorem unknown_key_behind_lone_surrogate :
    let inside := Bytes.ofAscii "],[" ++ zerosText
    let entry : Value := .list ∅ (List.replicate 20 zeroItem
      ++ [⟨∅, .string (.unit loneUnit :: plainParts inside (by decide)), ∅⟩])
    let listed : Member Value := ⟨∅, plainParts addressesKey (by decide), ∅,
      ⟨∅, .list ∅ [⟨∅, entry, ∅⟩], ∅⟩⟩
    let unknown : Member Value := ⟨∅, plainParts inside (by decide), ∅,
      ⟨∅, .list ∅ [⟨∅, .list ∅ [{ zeroItem with after := ⟨[10], by decide⟩ }], ∅⟩], ∅⟩⟩
    HasUnknownKey [listed, unknown]
      ∧ read readGenesis (Spaced.text ⟨∅, .object ∅ [listed, unknown], ∅⟩)
        = .ok ⟨[], List.replicate 3 .zero⟩ := by
  intro inside entry listed unknown
  constructor
  · exact ⟨unknown, by simp, by decide, by decide⟩
  · decide +kernel

end Json

end CreationGate
