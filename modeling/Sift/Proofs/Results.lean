import Mathlib.Data.List.Basic

/-!
# Results

What it takes for a computation that may fail to give a result.

* `bind_eq_ok`, `map_eq_ok`: two steps have the result that the second one has
  on the result of the first one;
* `bind_eq_error`, `map_eq_error`: two steps fail as the first one of them that
  fails;
* `Sift.FirstOf`: the fault of the first faulty one of some things.
-/

namespace Except

variable {ε α β : Type}

theorem bind_eq_ok {x : Except ε α} {f : α → Except ε β} {b : β} :
    x >>= f = .ok b ↔ ∃ a, x = .ok a ∧ f a = .ok b := by
  cases x with
  | error e => simp [bind, Except.bind]
  | ok a => simp [bind, Except.bind]

theorem map_eq_ok {x : Except ε α} {f : α → β} {b : β} :
    x.map f = .ok b ↔ ∃ a, x = .ok a ∧ f a = b := by
  cases x with
  | error e => simp [Except.map]
  | ok a => simp [Except.map]

theorem bind_eq_error {x : Except ε α} {f : α → Except ε β} {e : ε} :
    x >>= f = .error e ↔ x = .error e ∨ ∃ a, x = .ok a ∧ f a = .error e := by
  cases x with
  | error e => simp [bind, Except.bind]
  | ok a => simp [bind, Except.bind]

theorem map_eq_error {x : Except ε α} {f : α → β} {e : ε} :
    x.map f = .error e ↔ x = .error e := by
  cases x with
  | error e => simp [Except.map]
  | ok a => simp [Except.map]

theorem map_map {γ : Type} (x : Except ε α) (f : α → β) (g : β → γ) :
    (x.map f).map g = x.map fun a => g (f a) := by
  cases x with
  | error e => rfl
  | ok a => rfl

theorem map_bind {γ : Type} (x : Except ε α) (f : α → Except ε β) (g : β → γ) :
    (x >>= f).map g = x >>= fun a => (f a).map g := by
  cases x with
  | error e => rfl
  | ok a => rfl

/-- A second step that cannot fail does not matter for how two steps fail. -/
theorem bind_pure_eq_error {x : Except ε α} {f : α → β} {e : ε} :
    (x >>= fun a => pure (f a)) = .error e ↔ x = .error e := by
  cases x with
  | error e => simp [bind, Except.bind]
  | ok a => simp [bind, Except.bind, pure, Except.pure]

/-- What does not fail has a result. -/
theorem exists_eq_ok_iff {x : Except ε α} : (∃ a, x = .ok a) ↔ ¬∃ e, x = .error e := by
  cases x with
  | error e => simp
  | ok a => simp

theorem pure_eq_ok {a b : α} : (pure a : Except ε α) = .ok b ↔ a = b :=
  ⟨Except.ok.inj, congrArg _⟩

end Except

namespace Sift

variable {α ε : Type} {fault : α → ε → Prop} {x : α} {xs : List α} {e : ε}

/-- Whether one of some things has this fault, and those before it have none. -/
def FirstOf (fault : α → ε → Prop) (xs : List α) (e : ε) : Prop :=
  ∃ before x after, xs = before ++ x :: after ∧ (∀ y ∈ before, ∀ e, ¬fault y e) ∧ fault x e

theorem not_firstOf_nil : ¬FirstOf fault [] e := by
  rintro ⟨before, x, after, h, -⟩
  exact absurd h (by simp)

theorem firstOf_cons :
    FirstOf fault (x :: xs) e ↔ fault x e ∨ (∀ e, ¬fault x e) ∧ FirstOf fault xs e := by
  constructor
  · rintro ⟨before, y, after, h, hbefore, hy⟩
    cases before with
    | nil =>
      cases h
      exact .inl hy
    | cons z before =>
      cases h
      rw [List.forall_mem_cons] at hbefore
      exact .inr ⟨hbefore.1, before, y, after, rfl, hbefore.2, hy⟩
  · rintro (h | ⟨hx, before, y, after, rfl, hbefore, hy⟩)
    · exact ⟨[], x, xs, rfl, fun _ hy => absurd hy List.not_mem_nil, h⟩
    · exact ⟨x :: before, y, after, rfl, List.forall_mem_cons.2 ⟨hx, hbefore⟩, hy⟩

/-- Some things have a first fault if any of them is faulty. -/
theorem exists_firstOf_iff : (∃ e, FirstOf fault xs e) ↔ ∃ x ∈ xs, ∃ e, fault x e := by
  induction xs with
  | nil => simp [not_firstOf_nil]
  | cons x xs ih =>
    rw [List.exists_mem_cons_iff, ← ih]
    simp only [firstOf_cons]
    constructor
    · rintro ⟨e, h | ⟨-, h⟩⟩
      · exact .inl ⟨e, h⟩
      · exact .inr ⟨e, h⟩
    · intro h
      by_cases hx : ∃ e, fault x e
      · obtain ⟨e, he⟩ := hx
        exact ⟨e, .inl he⟩
      · obtain ⟨e, he⟩ := h.resolve_left hx
        exact ⟨e, .inr ⟨not_exists.1 hx, he⟩⟩

end Sift
