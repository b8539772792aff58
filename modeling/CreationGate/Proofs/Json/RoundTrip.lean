import CreationGate.Proofs.Json.GenesisText
import CreationGate.Proofs.SharedStore

/-!
# Written forms are read back

Each kind of governance value has one written form.  It is a text of the grammar without blanks
and escapes, so what reads all spellings of a value reads this one (`ReadsAs`).
-/

namespace CreationGate

/-! ## Sets of accounts -/

namespace AccountSet

theorem mem_keys_ofList {l : List Account} {account : Account} :
    account ∈ (ofList l).keys ↔ account ∈ l := by
  rw [← SortedMap.contains_iff_mem_keys]
  exact (@Registry.contains_iff (.memory (ofList l)) account).trans mem_accounts_ofList

/-- Lists of the same accounts are the same set. -/
theorem ofList_eq_iff {l₁ l₂ : List Account} : ofList l₁ = ofList l₂ ↔ ∀ a, a ∈ l₁ ↔ a ∈ l₂ := by
  constructor
  · intro h a
    rw [← mem_keys_ofList, h, mem_keys_ofList]
  · intro h
    refine @SortedMap.foldl_insert_const_congr _ _ _ _ _ _ _ id l₁ l₂ ?_ () ∅
    simpa using h

/-- A set is the set of the accounts that it lists. -/
theorem ofList_keys (set : AccountSet) : ofList set.keys = set := by
  refine SortedMap.ext_get? fun account => ?_
  have hcontains : ((ofList set.keys).get? account).isSome = (set.get? account).isSome := by
    rw [Bool.eq_iff_iff]
    exact SortedMap.contains_iff_mem_keys.trans
      (mem_keys_ofList.trans SortedMap.contains_iff_mem_keys.symm)
  revert hcontains
  cases (ofList set.keys).get? account <;> cases set.get? account <;> simp

end AccountSet

namespace Json

open Reader

variable {α β : Type}

/-- A value that is read from its tree is read from its written form. -/
theorem read_written {r : Reader α} (hskips : SkipsBlanks r) {value : Value} {a : α}
    (h : ReadsAs r value a) : read r value.text = .ok a := by
  have htext : Spaced.text ⟨∅, value, ∅⟩ = value.text := by
    simp [Spaced.text]
  rw [← htext]
  exact read_readsAs hskips h

/-! ## Variants -/

theorem readTagged_skipsBlanks (variants : List (String × α)) (bare body : α → Reader β) :
    SkipsBlanks (readTagged variants bare body) :=
  (tokenIn_skipsBlanks _).bind _

section Tagged

variable {variants : List (String × α)} {bare body : α → Reader β} {name : Bytes} {variant : α}
  {b : β} (hvariant : variantOf variants name = .ok variant)
include hvariant

theorem readVariant_parts {parts : List StringPart} (h : unescape? parts = some name)
    (rest : Bytes) :
    readVariant variants (34 :: (partsText parts ++ 34 :: rest)) = (.ok variant, rest) := by
  have hname := readName_parts parts rest
  rw [h] at hname
  refine placed_of_ok ((bind_of_ok hname).trans ?_)
  rw [hvariant]
  rfl

theorem readTagged_string {parts : List StringPart} (h : unescape? parts = some name)
    (hbare : ∀ s, bare variant s = (.ok b, s)) :
    ReadsAs (readTagged variants bare body) (.string parts) b := by
  intro rest hrest
  have hname := readVariant_parts hvariant h rest
  rw [readTagged, bind_of_ok (tokenIn_text .eofInValue (.string parts) rest), Value.lead_string,
    if_neg (by decide), if_pos rfl, Value.string_text_append, bind_of_ok hname]
  exact hbare rest

theorem readTagged_object {opening : Gap} {member : Member Value} (h : member.name? = some name)
    (hskips : SkipsBlanks (body variant)) (hbody : ReadsAs (body variant) member.value.value b) :
    ReadsAs (readTagged variants bare body) (.object opening [member]) b := by
  intro rest hrest
  have hdelimited : Delimited (member.value.after.bytes ++ 125 :: rest) :=
    delimited_gap _ (delimited_cons (by decide) rest)
  have hkey := tokenIn_gap .eofInObject (opening ++ member.before) (by decide : isBlank 34 = false)
    (partsText member.key ++ 34 :: member.afterKey (member.value.after.bytes ++ 125 :: rest))
  rw [Gap.bytes_append, List.append_assoc] at hkey
  have hname := readVariant_parts hvariant h
    (member.afterKey (member.value.after.bytes ++ 125 :: rest))
  have hvalue := (hskips member.value.before _).trans (hbody _ hdelimited)
  have hend := tokenIn_gap .eofInObject member.value.after (by decide : isBlank 125 = false) rest
  have htext : opening.bytes ++ (membersText true [member] ++ 125 :: rest)
      = opening.bytes ++ (member.before.bytes ++ 34 :: (partsText member.key ++ 34 ::
        member.afterKey (member.value.after.bytes ++ 125 :: rest))) := by
    rw [membersText_cons]
    rfl
  rw [readTagged, bind_of_ok (tokenIn_text .eofInValue (.object opening [member]) rest),
    Value.lead_object, if_pos rfl, Value.object_text_append, bind_of_ok (skip_cons _ _), htext,
    bind_of_ok hkey, if_pos rfl, bind_of_ok hname, bind_of_ok (readColon_afterKey member _),
    bind_of_ok hvalue, bind_of_ok hend, if_pos rfl]
  rfl

/-- A variant without content is written as its name. -/
theorem read_writeName (hname : IsPlainName name) (hbare : ∀ s, bare variant s = (.ok b, s)) :
    read (readTagged variants bare body) (writeName name) = .ok b := by
  have hvalue : ReadsAs (readTagged variants bare body) (.ofName name hname) b :=
    readTagged_string hvariant (unescape?_plainParts hname) hbare
  rw [← Value.text_ofName hname]
  exact read_written (readTagged_skipsBlanks variants bare body) hvalue

/-- A variant with content is written as an object whose one key is its name. -/
theorem read_writeObject (hname : IsPlainName name) {value : Value}
    (hskips : SkipsBlanks (body variant)) (hbody : ReadsAs (body variant) value b) :
    read (readTagged variants bare body) (writeObject [(name, value.text)]) = .ok b := by
  have hvalue : ReadsAs (readTagged variants bare body) (.object ∅ [.ofName name hname value]) b :=
    readTagged_object hvariant (Member.name?_ofName hname value) hskips hbody
  rw [← Value.text_object_one hname]
  exact read_written (readTagged_skipsBlanks variants bare body) hvalue

end Tagged

/-! ## Accounts and sets of accounts -/

theorem readFixed_skipsBlanks (n : Nat) : SkipsBlanks (readFixed n) :=
  ((tokenIn_skipsBlanks _).bind _).placed

theorem read_writeFixed {n : Nat} (a : FixedBytes n) :
    read (readFixed n) (writeFixed a) = .ok a := by
  rw [← Value.text_ofFixed]
  exact read_written (readFixed_skipsBlanks n) (readFixed_readsAs (spellsFixed_ofFixed a))

/-- A set is read from any list of its accounts. -/
theorem readAccountSet_readsAs {value : Value} {l : List Account} (h : SpellsList value l) :
    ReadsAs readAccountSet value (.ofList l) := fun rest hrest =>
  map_of_ok (readListOf_readFixed_readsAs h rest hrest) AccountSet.ofList

theorem readAccountSet_skipsBlanks : SkipsBlanks readAccountSet :=
  (readListOf_skipsBlanks readAccount).bind _

theorem read_writeAccountSet (set : AccountSet) :
    read readAccountSet (writeAccountSet set) = .ok set := by
  have h := read_written readAccountSet_skipsBlanks
    (readAccountSet_readsAs (spellsList_ofFixed set.keys))
  rw [text_ofFixed_list, AccountSet.ofList_keys] at h
  exact h

/-! ## Origins and events -/

theorem readAccount_ofFixed (a : Account) : ReadsAs readAccount (.ofFixed a) a :=
  readFixed_readsAs (spellsFixed_ofFixed a)

theorem read_writeOrigin (origin : Origin) : read readOrigin (writeOrigin origin) = .ok origin := by
  cases origin with
  | root => exact read_writeName rfl (by decide) fun _ => rfl
  | unsigned => exact read_writeName rfl (by decide) fun _ => rfl
  | signed signer =>
    have hvariant : variantOf originVariants (Bytes.ofAscii "Signed") = .ok .signed := rfl
    have hbody : ReadsAs (Origin.signed <$> readAccount) (.ofFixed signer) (.signed signer) :=
      fun rest hrest => map_of_ok (readAccount_ofFixed signer rest hrest) Origin.signed
    have hskips : SkipsBlanks (Origin.signed <$> readAccount) := (readFixed_skipsBlanks 32).bind _
    rw [writeOrigin, ← Value.text_ofFixed]
    exact read_writeObject hvariant (by decide) hskips hbody

/-- One field of an object, with whatever fields are read. -/
theorem readFields_singleton {field : α → Bytes → Reader α} {state last : α} {name : Bytes}
    {member : Member Value} (hname : member.name? = some name) {rest : Bytes}
    (hfield : field state name (member.afterKey (member.value.after.bytes ++ 125 :: rest))
      = (.ok last, member.value.after.bytes ++ 125 :: rest)) {fuel : Nat} (hfuel : 1 < fuel)
    (opening : Gap) :
    readFields field fuel true state (opening.bytes ++ (membersText true [member] ++ 125 :: rest))
      = (.ok last, 125 :: rest) := by
  obtain ⟨fuel, rfl⟩ : ∃ k, fuel = k + 2 := ⟨fuel - 2, by omega⟩
  have hkey := readKey?_cons true opening member [] (125 :: rest)
  rw [hname] at hkey
  have hend := readKey?_nil false member.value.after rest
  refine (bind_of_ok hkey).trans ((bind_of_ok hfield).trans ?_)
  exact bind_of_ok hend

/-- The body of an event, from an object with the one field. -/
theorem readEventBody_readsAs (variant : EventVariant) {opening : Gap} {member : Member Value}
    (hname : member.name? = some (Bytes.ofAscii deployerField)) {account : Account}
    (h : SpellsFixed member.value.value account) :
    ReadsAs (readEventBody variant) (.object opening [member]) account := by
  refine .placed fun rest hrest => ?_
  have hdelimited : Delimited (member.value.after.bytes ++ 125 :: rest) :=
    delimited_gap _ (delimited_cons (by decide) rest)
  have haccount := (readFixed_skipsBlanks 32 member.value.before _).trans
    (readFixed_readsAs h _ hdelimited)
  have hfield : readEventField none (Bytes.ofAscii deployerField)
      (member.afterKey (member.value.after.bytes ++ 125 :: rest))
        = (.ok (some account), member.value.after.bytes ++ 125 :: rest) := by
    rw [readEventField, if_pos rfl]
    exact (bind_of_ok (readColon_afterKey member _)).trans (map_of_ok haccount some)
  have hfuel : 1 < (opening.bytes ++ (membersText true [member] ++ 125 :: rest)).length + 1 := by
    simp only [List.length_append, List.length_cons]
    omega
  have hfields := readFields_singleton hname hfield hfuel opening
  rw [bind_of_ok (tokenIn_text .eofInValue (.object opening [member]) rest), Value.lead_object,
    if_neg (by decide), if_pos rfl, Value.object_text_append]
  exact inObject_readsAs (bind_of_ok hfields)

theorem read_writeEvent (event : Event) : read readEvent (writeEvent event) = .ok event := by
  have hdeployer : IsPlainName (Bytes.ofAscii deployerField) := by decide
  -- Both events are written alike, but for the name of the variant.
  have hvariant : ∀ (name : String) (variant : EventVariant) (deployer : Account),
      variantOf eventVariants (Bytes.ofAscii name) = .ok variant →
      IsPlainName (Bytes.ofAscii name) →
      read readEvent (writeEventAs name deployer) = .ok (variant.event deployer) := by
    intro name variant deployer hvariant hname
    have haccount : ReadsAs (readEventBody variant)
        (.object ∅ [.ofName _ hdeployer (.ofFixed deployer)]) deployer :=
      readEventBody_readsAs variant (Member.name?_ofName hdeployer _) (spellsFixed_ofFixed deployer)
    have hbody : ReadsAs (variant.event <$> readEventBody variant)
        (.object ∅ [.ofName _ hdeployer (.ofFixed deployer)]) (variant.event deployer) :=
      fun rest hrest => map_of_ok (haccount rest hrest) variant.event
    have hskips : SkipsBlanks (variant.event <$> readEventBody variant) :=
      ((tokenIn_skipsBlanks _).bind _).placed.bind _
    rw [writeEventAs, ← Value.text_ofFixed, ← Value.text_object_one hdeployer]
    exact read_writeObject hvariant hname hskips hbody
  cases event with
  | authorized deployer => exact hvariant _ .authorized deployer rfl (by decide)
  | revoked deployer => exact hvariant _ .revoked deployer rfl (by decide)

theorem read_writeGenesis (genesis : Genesis) :
    read readGenesis (writeGenesis genesis) = .ok genesis := by
  have hdeployers : IsPlainName deployersKey := by decide
  have haddresses : IsPlainName addressesKey := by decide
  let first := Member.ofName _ hdeployers (.ofList (genesis.deployers.map .ofFixed))
  let second := Member.ofName _ haddresses (.ofList (genesis.addresses.map .ofFixed))
  have hfirst : first.name? = some deployersKey := Member.name?_ofName hdeployers _
  have hsecond : second.name? = some addressesKey := Member.name?_ofName haddresses _
  have hspells : SpellsGenesis [first, second] genesis := by
    refine ⟨?_, ?_, ?_⟩
    · simp [hfirst, hsecond]
    · rw [membersOf_cons_of_eq hfirst, membersOf_cons_of_ne (by rw [hsecond]; decide)]
      exact .present (spellsList_ofFixed genesis.deployers)
    · rw [membersOf_cons_of_ne (by rw [hfirst]; decide), membersOf_cons_of_eq hsecond]
      exact .present (spellsList_ofFixed genesis.addresses)
  have hread := read_written readGenesis_skipsBlanks (@readGenesis_readsAs ∅ _ _ hspells)
  rw [Value.text_object_two, text_ofFixed_list, text_ofFixed_list] at hread
  exact hread

/-! ## Canonical forms -/

/-- What a text is written as when it has been read. -/
def rewrite (reader : Reader α) (write : α → Bytes) (text : Bytes) : Except Fault Bytes :=
  (read reader text).map write

/-- Values are read back from what is written for them, and rewriting an accepted text a second
time changes nothing. -/
structure RoundTrips (reader : Reader α) (write : α → Bytes) : Prop where
  read_write : ∀ a, read reader (write a) = .ok a
  rewrite_rewrite : ∀ text written, rewrite reader write text = .ok written →
    rewrite reader write written = .ok written

theorem RoundTrips.of_read_write {reader : Reader α} {write : α → Bytes}
    (h : ∀ a, read reader (write a) = .ok a) : RoundTrips reader write := by
  refine ⟨h, fun text written hwritten => ?_⟩
  unfold rewrite at hwritten ⊢
  cases hread : read reader text with
  | error fault =>
    rw [hread] at hwritten
    cases hwritten
  | ok a =>
    rw [hread] at hwritten
    cases hwritten
    rw [h a]
    rfl

theorem read_map (reader : Reader α) (f : α → β) (text : Bytes) :
    read (f <$> reader) text = (read reader text).map f := by
  unfold read
  cases hread : reader text with
  | mk result s =>
    cases result with
    | error e => rw [bind_of_error (map_of_error hread f), bind_of_error hread]; rfl
    | ok a =>
      rw [bind_of_ok (map_of_ok hread f), bind_of_ok hread, bind_apply, bind_apply]
      cases endOfText s with
      | mk result s => cases result <;> rfl

/-- A set is read as the accounts of a list. -/
theorem read_readAccountSet (text : Bytes) :
    read readAccountSet text = (read (readListOf readAccount) text).map AccountSet.ofList :=
  read_map (readListOf readAccount) AccountSet.ofList text

theorem rewrite_accountSet {text : Bytes} {l : List Account}
    (h : read (readListOf readAccount) text = .ok l) :
    rewrite readAccountSet writeAccountSet text = .ok (writeAccountSet (.ofList l)) := by
  rw [rewrite, read_readAccountSet, h]
  rfl

theorem writeAccountSet_inj {set₁ set₂ : AccountSet} :
    writeAccountSet set₁ = writeAccountSet set₂ ↔ set₁ = set₂ := by
  refine ⟨fun h => ?_, congrArg writeAccountSet⟩
  have hread := read_writeAccountSet set₁
  rw [h, read_writeAccountSet] at hread
  exact (Except.ok.inj hread).symm

/-- **Written forms are canonical.**  Accounts, which sudo keys are written as, origins, events,
sets of accounts and genesis configurations are read back from what is written for them, and
rewriting twice is rewriting once.  A text of a set is a list of accounts in any spelling; two
of them are rewritten alike exactly if they list the same accounts, namely as the ascending list
of these. -/
theorem written_forms_are_canonical :
    RoundTrips readAccount writeFixed ∧ RoundTrips readOrigin writeOrigin
      ∧ RoundTrips readEvent writeEvent ∧ RoundTrips readAccountSet writeAccountSet
      ∧ RoundTrips readGenesis writeGenesis
      ∧ (∀ (array : Spaced Value) l, SpellsList array.value l →
        read (readListOf readAccount) array.text = .ok l)
      ∧ (∀ text, read readAccountSet text
        = (read (readListOf readAccount) text).map AccountSet.ofList)
      ∧ (∀ text l, read (readListOf readAccount) text = .ok l →
        ∃ ascending : List Account, ascending.Pairwise (fun a b => compare a b = .lt)
          ∧ (∀ account, account ∈ ascending ↔ account ∈ l)
          ∧ rewrite readAccountSet writeAccountSet text
            = .ok (writeList (ascending.map writeFixed)))
      ∧ ∀ text₁ text₂ l₁ l₂, read (readListOf readAccount) text₁ = .ok l₁ →
        read (readListOf readAccount) text₂ = .ok l₂ →
        (rewrite readAccountSet writeAccountSet text₁ = rewrite readAccountSet writeAccountSet text₂
          ↔ ∀ account, account ∈ l₁ ↔ account ∈ l₂) := by
  refine ⟨.of_read_write read_writeFixed, .of_read_write read_writeOrigin,
    .of_read_write read_writeEvent, .of_read_write read_writeAccountSet,
    .of_read_write read_writeGenesis, ?_, read_readAccountSet, ?_, ?_⟩
  · intro array l h
    exact read_readsAs (readListOf_skipsBlanks readAccount) (readListOf_readFixed_readsAs h)
  · intro text l h
    exact ⟨(AccountSet.ofList l).keys, SortedMap.pairwise_keys _,
      fun account => AccountSet.mem_keys_ofList, rewrite_accountSet h⟩
  · intro text₁ text₂ l₁ l₂ h₁ h₂
    rw [rewrite_accountSet h₁, rewrite_accountSet h₂, Except.ok.injEq, writeAccountSet_inj,
      AccountSet.ofList_eq_iff]

/-- Two accounts in two orders, once with a repetition. -/
theorem written_forms_of_reordered_accounts :
    let one : Account := .repeated 32 1
    let two : Account := .repeated 32 2
    let array (l : List Account) : Spaced Value := ⟨⟨[32], by decide⟩, .ofList (l.map .ofFixed), ∅⟩
    let twice := (array [two, one, two]).text
    let once := (array [one, two]).text
    read (readListOf readAccount) twice = .ok [two, one, two]
      ∧ read (readListOf readAccount) once = .ok [one, two]
      ∧ rewrite readAccountSet writeAccountSet twice = rewrite readAccountSet writeAccountSet once
      ∧ ∃ written, rewrite readAccountSet writeAccountSet twice = .ok written
        ∧ rewrite readAccountSet writeAccountSet written = .ok written := by
  have hmembers : ∀ a b account : Account, account ∈ [b, a, b] ↔ account ∈ [a, b] := by
    intro a b account
    simp only [List.mem_cons, List.not_mem_nil, or_false]
    tauto
  intro one two array twice once
  obtain ⟨-, -, -, hset, -, hlist, -, hascending, hsame⟩ := written_forms_are_canonical
  have htwice := hlist (array [two, one, two]) _ (spellsList_ofFixed _)
  have honce := hlist (array [one, two]) _ (spellsList_ofFixed _)
  obtain ⟨ascending, -, -, hwritten⟩ := hascending twice _ htwice
  exact ⟨htwice, honce, (hsame twice once _ _ htwice honce).mpr (hmembers one two), _, hwritten,
    hset.rewrite_rewrite twice _ hwritten⟩

end Json

end CreationGate
