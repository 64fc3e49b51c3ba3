import Provision.Resource

/-!
# Chains of checks

A chain of checks passes iff each of its links passes, and fails with the error of the first link
that does not pass.

**Results.**
* `bind_eq_ok_iff`, `bind_eq_error_iff`: when a chain passes and with which error it fails.
* `FailsWith.bind`: errors of a chain are errors of its links.
-/

namespace Provision

theorem bind_eq_ok_iff
    {ε α β : Type}
    {x : Except ε α}
    {f : α → Except ε β}
    {b : β} :
    (x >>= f) = .ok b ↔ ∃ a, x = .ok a ∧ f a = .ok b := by
  cases x with
  | error e =>
      constructor
      · intro h
        cases h
      · rintro ⟨a, ha, _⟩
        cases ha
  | ok a =>
      constructor
      · intro h
        exact ⟨a, rfl, h⟩
      · rintro ⟨a', ha, h⟩
        cases ha
        exact h

theorem bind_eq_error_iff
    {ε α β : Type}
    {x : Except ε α}
    {f : α → Except ε β}
    {e : ε} :
    (x >>= f) = .error e ↔ x = .error e ∨ ∃ a, x = .ok a ∧ f a = .error e := by
  cases x with
  | error e' =>
      constructor
      · intro h
        cases h
        exact Or.inl rfl
      · rintro (h | ⟨a, ha, _⟩)
        · cases h
          rfl
        · cases ha
  | ok a =>
      constructor
      · exact fun h => Or.inr ⟨a, rfl, h⟩
      · rintro (h | ⟨a', ha, h⟩)
        · cases h
        · cases ha
          exact h

theorem map_eq_ok_iff
    {ε α β : Type}
    {x : Except ε α}
    {f : α → β}
    {b : β} :
    x.map f = .ok b ↔ ∃ a, x = .ok a ∧ f a = b := by
  cases x <;> simp [Except.map]

theorem map_eq_error_iff
    {ε α β : Type}
    {x : Except ε α}
    {f : α → β}
    {e : ε} :
    x.map f = .error e ↔ x = .error e := by
  cases x <;> simp [Except.map]

theorem mapError_eq_ok_iff
    {ε ε' α : Type}
    {x : Except ε α}
    {f : ε → ε'}
    {a : α} :
    x.mapError f = .ok a ↔ x = .ok a := by
  cases x with
  | error e => exact ⟨nofun, nofun⟩
  | ok b =>
      constructor
      · intro h
        cases h
        rfl
      · intro h
        cases h
        rfl

theorem mapError_eq_error_iff
    {ε ε' α : Type}
    {x : Except ε α}
    {f : ε → ε'}
    {e' : ε'} :
    x.mapError f = .error e' ↔ ∃ e, x = .error e ∧ f e = e' := by
  cases x with
  | error e =>
      constructor
      · intro h
        cases h
        exact ⟨e, rfl, rfl⟩
      · rintro ⟨_, he, rfl⟩
        cases he
        rfl
  | ok a => exact ⟨nofun, nofun⟩

theorem exists_ok_of_isSome
    {ε α : Type}
    {x : Except ε α}
    (h : x.toOption.isSome = true) :
    ∃ a, x = .ok a := by
  cases x with
  | error e => cases h
  | ok a => exact ⟨a, rfl⟩

theorem check_bind_eq_ok_iff
    {ε : Type}
    {x y : Except ε Unit} :
    (x >>= fun _ => y) = .ok () ↔ x = .ok () ∧ y = .ok () := by
  rw [bind_eq_ok_iff]
  constructor
  · rintro ⟨_, hx, hy⟩
    exact ⟨hx, hy⟩
  · rintro ⟨hx, hy⟩
    exact ⟨(), hx, hy⟩

theorem check_bind_eq_error
    {ε : Type}
    {x y : Except ε Unit}
    {e : ε}
    (h : (x >>= fun _ => y) = .error e) :
    x = .error e ∨ x = .ok () ∧ y = .error e := by
  rcases bind_eq_error_iff.mp h with hx | ⟨_, hx, hy⟩
  · exact Or.inl hx
  · exact Or.inr ⟨hx, hy⟩

/-! ## What errors there may be -/

/-- If the result is an error, the error has the property. -/
def FailsWith {ε α : Type} (p : ε → Prop) (x : Except ε α) : Prop := ∀ e, x = .error e → p e

namespace FailsWith

variable {ε ε' α β : Type} {p : ε → Prop} {p' : ε' → Prop} {x : Except ε α}

theorem ok
    (a : α) :
    FailsWith p (.ok a : Except ε α) :=
  fun _ h => nomatch h

theorem error
    {e : ε}
    (h : p e) :
    FailsWith p (.error e : Except ε α) := by
  rintro _ ⟨⟩
  exact h

theorem bind
    {f : α → Except ε β}
    (hx : FailsWith p x)
    (hf : ∀ a, x = .ok a → FailsWith p (f a)) :
    FailsWith p (x >>= f) := by
  intro e h
  rcases bind_eq_error_iff.mp h with he | ⟨a, ha, he⟩
  · exact hx e he
  · exact hf a ha e he

theorem map
    {f : α → β}
    (hx : FailsWith p x) :
    FailsWith p (x.map f) := by
  cases x with
  | error e => exact error (hx e rfl)
  | ok a => exact ok (f a)

theorem mapError
    {f : ε → ε'}
    (h : ∀ e, x = .error e → p' (f e)) :
    FailsWith p' (x.mapError f) := by
  cases x with
  | error e => exact error (h e rfl)
  | ok a => exact ok a

theorem mapM
    {f : α → Except ε β}
    {as : List α}
    (h : ∀ a ∈ as, FailsWith p (f a)) :
    FailsWith p (as.mapM f) := by
  induction as with
  | nil => exact ok []
  | cons a rest ih =>
      obtain ⟨ha, hrest⟩ := List.forall_mem_cons.mp h
      rw [List.mapM_cons]
      exact ha.bind fun b _ => (ih hrest).bind fun bs _ => ok (b :: bs)

theorem imp
    {q : ε → Prop}
    (hx : FailsWith p x)
    (h : ∀ e, p e → q e) :
    FailsWith q x :=
  fun e he => h e (hx e he)

end FailsWith

end Provision
