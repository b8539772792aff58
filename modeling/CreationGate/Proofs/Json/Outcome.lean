import CreationGate.Json.Brackets

/-!
# Outcomes of readers

How a reader ends on a text: it gives a value (`r s = (.ok a, s')`), it fails (`Fails`), or at
least what it leaves is known (`Ends`).  One lemma for each outcome and each way of putting
readers together.
-/

namespace CreationGate

namespace Json

namespace Reader

variable {α β : Type} {r r' : Reader α} {f : α → Reader β} {s s' rest : Bytes} {a : α}

instance : LawfulMonad Reader :=
  .mk' Reader
    (by
      intro α r
      funext s
      change (r >>= pure) s = r s
      rw [bind_apply]
      split
      next h => rw [h]; rfl
      next h => rw [h])
    (by intro α β a f; rfl)
    (by
      intro α β γ r f g
      funext s
      simp only [bind_apply]
      cases r s with
      | mk result left => cases result <;> rfl)

/-! ## Single bytes -/

theorem peek_cons (b : UInt8) (s : Bytes) : peek (b :: s) = (.ok (some b), b :: s) := rfl

theorem next_cons (b : UInt8) (s : Bytes) : next (b :: s) = (.ok (some b), s) := rfl

theorem skip_cons (b : UInt8) (s : Bytes) : skip (b :: s) = (.ok (), s) := rfl

/-! ## Values -/

theorem bind_of_ok_of_eq {g : Reader β} (h : r s = (.ok a, s')) (hf : f a = g) :
    (r >>= f) s = g s' := by
  rw [bind_of_ok h, hf]

theorem map_of_ok (h : r s = (.ok a, s')) (g : α → β) : (g <$> r) s = (.ok (g a), s') :=
  bind_of_ok h

theorem map_of_error {e : Fault} (h : r s = (.error e, s')) (g : α → β) :
    (g <$> r) s = (.error e, s') :=
  bind_of_error h

theorem bind_eq_ok {b : β} (h : (r >>= f) s = (.ok b, s')) :
    ∃ a s₁, r s = (.ok a, s₁) ∧ f a s₁ = (.ok b, s') := by
  rw [bind_apply] at h
  split at h
  next a s₁ hr => exact ⟨a, s₁, hr, h⟩
  next => cases h

theorem map_eq_ok {g : α → β} {b : β} (h : (g <$> r) s = (.ok b, s')) :
    ∃ a, r s = (.ok a, s') ∧ g a = b := by
  obtain ⟨a, s₁, hr, hg⟩ := bind_eq_ok h
  cases hg
  exact ⟨a, hr, rfl⟩

theorem thenAlways_of_ok {last : Reader Unit} {s₁ : Bytes} (h : r s = (.ok a, s₁))
    (hlast : last s₁ = (.ok (), s')) : thenAlways r last s = (.ok a, s') := by
  simp only [thenAlways, h, hlast]

theorem thenAlways_eq_ok {last : Reader Unit} (h : thenAlways r last s = (.ok a, s')) :
    ∃ s₁, r s = (.ok a, s₁) ∧ last s₁ = (.ok (), s') := by
  unfold thenAlways at h
  split at h
  next => cases h
  next b s₁ hr =>
    split at h
    next s₂ hlast =>
      cases h
      exact ⟨s₁, hr, hlast⟩
    next => cases h

theorem attempt_left {o : Option α} (h : attempt r s = (.ok o, s')) : s' = (r s).2 := by
  unfold attempt at h
  split at h
  next hr =>
    cases h
    rw [hr]
  next hr =>
    cases h
    rw [hr]

theorem placed_congr (h : r s = r' s) : placed r s = placed r' s := by
  rw [placed, placed, h]

theorem placed_of_ok (h : r s = (.ok a, s')) : placed r s = (.ok a, s') := by
  rw [placed, h]

/-- A fault may get a place, but it stays a fault and leaves the same. -/
theorem placed_of_error {e : Fault} (h : r s = (.error e, s')) :
    ∃ e', placed r s = (.error e', s') := by
  obtain ⟨cause, left⟩ := e
  rw [placed, h]
  cases left with
  | none => exact ⟨_, rfl⟩
  | some left => exact ⟨_, rfl⟩

theorem placed_eq_ok (h : placed r s = (.ok a, s')) : r s = (.ok a, s') := by
  cases hr : r s with
  | mk result left =>
    cases result with
    | ok b => exact (placed_of_ok hr).symm.trans h
    | error e =>
      obtain ⟨e', he⟩ := placed_of_error hr
      rw [he] at h
      cases h

/-! ## Faults -/

/-- A reader gives no value. -/
def Fails (r : Reader α) (s : Bytes) : Prop := ∃ e s', r s = (.error e, s')

namespace Fails

theorem ne_ok (h : Fails r s) (a : α) (s' : Bytes) : r s ≠ (.ok a, s') := by
  obtain ⟨e, s₁, hr⟩ := h
  rw [hr]
  exact fun heq => by cases heq

theorem of_eq (h : r s = r' s') (hr : Fails r' s') : Fails r s := by
  obtain ⟨e, s₁, he⟩ := hr
  exact ⟨e, s₁, h.trans he⟩

theorem bind (h : Fails r s) : Fails (r >>= f) s := by
  obtain ⟨e, s₁, hr⟩ := h
  exact ⟨e, s₁, bind_of_error hr⟩

theorem bind_of_ok (h : r s = (.ok a, s')) (hf : Fails (f a) s') : Fails (r >>= f) s := by
  obtain ⟨e, s₁, hr⟩ := hf
  exact ⟨e, s₁, (Reader.bind_of_ok h).trans hr⟩

/-- Whatever comes first, what always fails ends it. -/
theorem bind_always (h : ∀ a left, Fails (f a) left) : Fails (r >>= f) s := by
  cases hr : r s with
  | mk result left =>
    cases result with
    | ok a => exact bind_of_ok hr (h a left)
    | error e => exact bind ⟨e, left, hr⟩

theorem placed (h : Fails r s) : Fails (Reader.placed r) s := by
  obtain ⟨e, s', hr⟩ := h
  obtain ⟨e', he⟩ := placed_of_error hr
  exact ⟨e', s', he⟩

theorem reject (cause : Cause) (s : Bytes) : Fails (Reader.reject cause : Reader α) s :=
  ⟨_, _, rfl⟩

theorem fail (cause : Cause) (s : Bytes) : Fails (Reader.fail cause : Reader α) s :=
  ⟨_, _, rfl⟩

theorem failNext (cause : Cause) (s : Bytes) : Fails (Reader.failNext cause : Reader α) s :=
  ⟨_, _, rfl⟩

end Fails

/-- A reader gives a value and leaves `rest`, or fails where there is no value to give. -/
def Gives (r : Reader α) (s rest : Bytes) : Option α → Prop
  | some a => r s = (.ok a, rest)
  | none => Fails r s

namespace Gives

variable {o : Option α}

theorem of_eq (h : r s = r' s') (hr : Gives r' s' rest o) : Gives r s rest o := by
  cases o with
  | some a => exact h.trans hr
  | none => exact Fails.of_eq h hr

theorem eq_of_ok (h : Gives r s rest o) (hr : r s = (.ok a, s')) : o = some a ∧ s' = rest := by
  cases o with
  | some b =>
    have heq := h.symm.trans hr
    cases heq
    exact ⟨rfl, rfl⟩
  | none => exact absurd hr (Fails.ne_ok h a s')

theorem map (h : Gives r s rest o) (g : α → β) : Gives (g <$> r) s rest (o.map g) := by
  cases o with
  | some a => exact map_of_ok h g
  | none => exact Fails.bind h

end Gives

/-! ## What is left -/

/-- What is left begins neither with a blank nor with the end of a list. -/
def Midway (s : Bytes) : Prop := ∃ b rest, s = b :: rest ∧ isBlank b = false ∧ b ≠ 93

/-- A reader leaves `rest`, unless it fails in the middle of something. -/
def Ends (r : Reader α) (s rest : Bytes) : Prop :=
  (r s).2 = rest ∨ ∃ e s', r s = (.error e, s') ∧ Midway s'

namespace Ends

theorem of_eq (h : r s = r' s') (hr : Ends r' s' rest) : Ends r s rest := by
  rw [Ends, h]
  exact hr

theorem bind_of_ok (h : r s = (.ok a, s')) (hf : Ends (f a) s' rest) : Ends (r >>= f) s rest := by
  rw [Ends, Reader.bind_of_ok h]
  exact hf

/-- What comes after may take nothing. -/
theorem bind (h : Ends r s rest) (hf : ∀ a, (f a rest).2 = rest) : Ends (r >>= f) s rest := by
  rcases h with h | ⟨e, s', hr, hmidway⟩
  · cases hr : r s with
    | mk result left =>
      rw [hr] at h
      obtain rfl := h
      cases result with
      | ok a => exact .bind_of_ok hr (.inl (hf a))
      | error e => exact .inl (congrArg Prod.snd (bind_of_error hr))
  · exact .inr ⟨e, s', bind_of_error hr, hmidway⟩

theorem map (h : Ends r s rest) (g : α → β) : Ends (g <$> r) s rest := bind h fun _ => rfl

theorem placed (h : Ends r s rest) : Ends (Reader.placed r) s rest := by
  cases hr : r s with
  | mk result left =>
    cases result with
    | ok a =>
      rw [Ends, placed_of_ok hr, ← hr]
      exact h
    | error e =>
      obtain ⟨e', he⟩ := placed_of_error hr
      rcases h with h | ⟨e'', s', hr', hmidway⟩
      · rw [hr] at h
        exact .inl ((congrArg Prod.snd he).trans h)
      · rw [hr] at hr'
        cases hr'
        exact .inr ⟨e', left, he, hmidway⟩

theorem eq_of_ok (h : Ends r s rest) (hr : r s = (.ok a, s')) : s' = rest := by
  rcases h with h | ⟨e, s₁, he, -⟩
  · rw [hr] at h
    exact h
  · rw [hr] at he
    cases he

end Ends

end Reader

end Json

end CreationGate
