import Mathlib

/-!
Edits that report whether they changed anything.

An edit takes a value to a new one and a flag. It establishes a goal when
the goal holds of every result, a value that meets the goal already is
left alone without raising the flag, and the flag goes up otherwise. The
three together make the flag exact and the edit settle after one
application, and they pass to sequences of edits in which no edit spoils
what an earlier one established.
-/

namespace DraEnv.Foundation

variable {α : Type}

/-- The edited value, and whether it was changed. -/
abbrev Edit (α : Type) := α → α × Bool

structure Establishes (e : Edit α) (goal : α → Prop) : Prop where
  reaches : ∀ x, goal (e x).1
  keeps : ∀ x, goal x → e x = (x, false)
  flags : ∀ x, ¬ goal x → (e x).2 = true

theorem Establishes.settled {e : Edit α} {goal : α → Prop} (h : Establishes e goal) (x : α) :
    e (e x).1 = ((e x).1, false) :=
  h.keeps _ (h.reaches x)

/-- What meets the goal is what the edit leaves alone. -/
theorem Establishes.fixed_iff {e : Edit α} {goal : α → Prop} (h : Establishes e goal) {x : α} :
    (e x).1 = x ↔ goal x := by
  refine ⟨fun heq => heq ▸ h.reaches x, fun hx => ?_⟩
  rw [h.keeps x hx]

/-- The flag is raised exactly when the value changes. -/
theorem Establishes.exact {e : Edit α} {goal : α → Prop} (h : Establishes e goal) (x : α) :
    (e x).2 = true ↔ (e x).1 ≠ x := by
  by_cases hx : goal x
  · simp [h.keeps x hx]
  · refine iff_of_true (h.flags x hx) fun heq => hx ?_
    rw [← heq]
    exact h.reaches x

/-- One edit after the other, with the flags joined. -/
def andThen (e₁ e₂ : Edit α) : Edit α := fun x =>
  let (y, m₁) := e₁ x
  let (z, m₂) := e₂ y
  (z, m₁ || m₂)

theorem Establishes.andThen {e₁ e₂ : Edit α} {goal₁ goal₂ : α → Prop}
    (h₁ : Establishes e₁ goal₁) (h₂ : Establishes e₂ goal₂)
    (hpreserves : ∀ x, goal₁ x → goal₁ (e₂ x).1) :
    Establishes (andThen e₁ e₂) (fun x => goal₁ x ∧ goal₂ x) where
  reaches x := ⟨hpreserves _ (h₁.reaches x), h₂.reaches _⟩
  keeps x hx := by
    simp only [Foundation.andThen, h₁.keeps x hx.1, h₂.keeps x hx.2, Bool.or_self]
  flags x hx := by
    simp only [Foundation.andThen, Bool.or_eq_true]
    by_cases hx₁ : goal₁ x
    · rw [h₁.keeps x hx₁]
      exact Or.inr (h₂.flags x fun hx₂ => hx ⟨hx₁, hx₂⟩)
    · exact Or.inl (h₁.flags x hx₁)

end DraEnv.Foundation
