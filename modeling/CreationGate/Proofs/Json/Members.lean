import CreationGate.Proofs.Json.Values

/-!
# Reading objects and whole texts

Before a member of an object the reader takes the name that its key spells
(`readKey?_cons`), and stands before the colon.  A whole text is a value between blanks.
-/

namespace CreationGate

namespace Json

open Reader

variable {α β : Type}

/-! ## Blanks before a value -/

/-- A reader does the same behind blanks. -/
def SkipsBlanks (r : Reader α) : Prop := ∀ (gap : Gap) s, r (gap.bytes ++ s) = r s

theorem tokenIn_skipsBlanks (eof : Cause) : SkipsBlanks (tokenIn eof) := by
  intro gap s
  have hdrop : (gap.bytes ++ s).dropWhile isBlank = s.dropWhile isBlank :=
    List.dropWhile_append_of_pos fun c hc => isBlank_of_mem_blanks (gap.mem_blanks hc)
  have htoken : token (gap.bytes ++ s) = token s := by
    simp only [token, hdrop]
  rw [tokenIn, bind_apply, htoken, bind_apply]

theorem SkipsBlanks.bind {r : Reader α} (h : SkipsBlanks r) (f : α → Reader β) :
    SkipsBlanks (r >>= f) := by
  intro gap s
  rw [bind_apply, h gap s, bind_apply]

theorem SkipsBlanks.placed {r : Reader α} (h : SkipsBlanks r) : SkipsBlanks (placed r) := by
  intro gap s
  rw [Reader.placed, h gap s, Reader.placed]

/-! ## Objects -/

/-- A member behind its key, and what follows. -/
def Member.afterKey (member : Member Value) (rest : Bytes) : Bytes :=
  member.after.bytes ++ 58 :: (member.value.before.bytes ++ (member.value.value.text ++ rest))

theorem readColon_afterKey (member : Member Value) (rest : Bytes) :
    readColon (member.afterKey rest)
      = (.ok (), member.value.before.bytes ++ (member.value.value.text ++ rest)) :=
  readColon_gap member.after _

theorem membersText_cons (first : Bool) (member : Member Value) (members : List (Member Value))
    (tail : Bytes) :
    membersText first (member :: members) ++ tail
      = separator first ++ (member.before.bytes ++ 34 :: (partsText member.key ++ 34 ::
        member.afterKey (member.value.after.bytes ++ (membersText false members ++ tail)))) := by
  obtain ⟨before, key, middle, lead, value, after⟩ := member
  simp [membersText, Member.afterKey]

theorem length_le_membersText (first : Bool) (members : List (Member Value)) :
    members.length ≤ (membersText first members).length := by
  induction members generalizing first with
  | nil => exact Nat.zero_le _
  | cons member members ih =>
    obtain ⟨before, key, middle, lead, value, after⟩ := member
    have hrest := ih false
    simp only [membersText, List.length_append, List.length_cons]
    omega

section Keys

variable (first : Bool) (gap : Gap)

theorem readKey?_nil (tail : Bytes) :
    readKey? first (gap.bytes ++ (membersText first [] ++ 125 :: tail))
      = (.ok none, 125 :: tail) := by
  have htoken := tokenIn_gap .eofInObject gap (by decide : isBlank 125 = false) tail
  rw [membersText, List.nil_append, readKey?, bind_of_ok htoken, if_pos rfl]
  rfl

/-- Before a member the reader takes the name that its key spells. -/
theorem readKey?_cons (member : Member Value) (members : List (Member Value)) (tail : Bytes) :
    Gives (readKey? first) (gap.bytes ++ (membersText first (member :: members) ++ tail))
      (member.afterKey (member.value.after.bytes ++ (membersText false members ++ tail)))
      (member.name?.map some) := by
  have hname := (readName_parts member.key (member.afterKey (member.value.after.bytes
    ++ (membersText false members ++ tail)))).map some
  refine .of_eq ?_ hname
  rw [membersText_cons]
  generalize partsText member.key ++ 34 :: _ = more
  cases first with
  | true =>
    have htoken := tokenIn_gap .eofInObject (gap ++ member.before)
      (by decide : isBlank 34 = false) more
    rw [Gap.bytes_append, List.append_assoc] at htoken
    rw [separator, if_pos rfl, List.nil_append, readKey?, bind_of_ok htoken, if_neg (by decide),
      if_pos rfl, if_pos rfl]
  | false =>
    have hcomma := tokenIn_gap .eofInObject gap (by decide : isBlank 44 = false)
      (member.before.bytes ++ 34 :: more)
    have htoken := tokenIn_gap .eofInValue member.before (by decide : isBlank 34 = false) more
    rw [separator, if_neg Bool.false_ne_true, readKey?, List.cons_append, List.nil_append,
      bind_of_ok hcomma, if_neg (by decide), if_neg Bool.false_ne_true, if_pos rfl]
    exact (bind_of_ok htoken).trans (congrFun (if_pos rfl) _)

theorem endObject_nil (tail : Bytes) : endObject (gap.bytes ++ 125 :: tail) = (.ok (), tail) := by
  have htoken := tokenIn_gap .eofInObject gap (by decide : isBlank 125 = false) tail
  rw [endObject, bind_of_ok htoken, if_pos rfl]
  rfl

end Keys

theorem Value.object_text_append (opening : Gap) (members : List (Member Value)) (rest : Bytes) :
    (object opening members).text ++ rest
      = 123 :: (opening.bytes ++ (membersText true members ++ 125 :: rest)) := by
  simp [text]

theorem inObject_readsAs {body : Reader α} {s tail : Bytes} {a : α}
    (h : body s = (.ok a, 125 :: tail)) : inObject body (123 :: s) = (.ok a, tail) :=
  thenAlways_of_ok h (endObject_nil ∅ tail)

theorem inObject_eq_ok {body : Reader α} {s s' : Bytes} {a : α}
    (h : inObject body (123 :: s) = (.ok a, s')) : ∃ s₁, body s = (.ok a, s₁) := by
  obtain ⟨s₁, hbody, -⟩ := thenAlways_eq_ok h
  exact ⟨s₁, hbody⟩

/-! ## Whole texts -/

/-- A value between blanks. -/
def Spaced.text (spaced : Spaced Value) : Bytes :=
  spaced.before.bytes ++ (spaced.value.text ++ spaced.after.bytes)

theorem delimited_blanks (gap : Gap) : Delimited gap.bytes := by
  have h := @delimited_gap gap [] fun b hb => by cases hb
  rwa [List.append_nil] at h

theorem read_readsAs {r : Reader α} (hskips : SkipsBlanks r) {spaced : Spaced Value} {a : α}
    (h : ReadsAs r spaced.value a) : read r spaced.text = .ok a := by
  have hvalue : r spaced.text = (.ok a, spaced.after.bytes) :=
    (hskips spaced.before _).trans (h _ (delimited_blanks spaced.after))
  rw [read, bind_of_ok hvalue, bind_of_ok (endOfText_gap spaced.after)]
  rfl

theorem read_eq_ok {r : Reader α} {text : Bytes} {a : α} (h : read r text = .ok a) :
    ∃ s', r text = (.ok a, s') := by
  rw [read, bind_apply] at h
  split at h
  next b s' hr =>
    rw [bind_apply] at h
    split at h
    next => cases h; exact ⟨s', hr⟩
    next => cases h
  next => cases h

end Json

end CreationGate
