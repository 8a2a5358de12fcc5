import Mathlib

/-!
Updating the first element that matches.

A list searched from the front is a map from predicates to elements: a
dictionary searched by key, a child list searched by tag. `updateFirst`
changes the element a search finds and `upsert` appends one where there
is none. The lemmas say what a search for the same thing finds
afterwards, what a search for anything else finds, and when the list is
left as it was.
-/

namespace DraEnv.Foundation

variable {α β : Type} {p q : α → Bool} {f : α → α}

/-- Replace the first element that satisfies `p` by its image. -/
def updateFirst (p : α → Bool) (f : α → α) : List α → List α
  | [] => []
  | a :: l => if p a then f a :: l else a :: updateFirst p f l

/-- Apply `f` to the first element that satisfies `p`, or append `f new` if there
is none. -/
def upsert (p : α → Bool) (new : α) (f : α → α) (l : List α) : List α :=
  match l.find? p with
  | some _ => updateFirst p f l
  | none => l ++ [f new]

theorem find?_updateFirst {l : List α} {a : α} (h : l.find? p = some a) (hfa : p (f a) = true) :
    (updateFirst p f l).find? p = some (f a) := by
  induction l with
  | nil => simp at h
  | cons b l ih =>
      by_cases hb : p b = true
      · rw [List.find?_cons_of_pos hb, Option.some.injEq] at h
        subst h
        rw [updateFirst, if_pos hb, List.find?_cons_of_pos hfa]
      · rw [List.find?_cons_of_neg hb] at h
        rw [updateFirst, if_neg hb, List.find?_cons_of_neg hb]
        exact ih h

/-- A selection that sees neither what is updated nor what it becomes. -/
theorem filter_updateFirst (hold : ∀ a, p a = true → q a = false)
    (hnew : ∀ a, p a = true → q (f a) = false) (l : List α) :
    (updateFirst p f l).filter q = l.filter q := by
  induction l with
  | nil => rfl
  | cons a l ih =>
      by_cases ha : p a = true
      · simp [updateFirst, ha, hold a ha, hnew a ha]
      · simp [updateFirst, ha, List.filter_cons, ih]

theorem updateFirst_eq_self {l : List α} (h : ∀ a, l.find? p = some a → f a = a) :
    updateFirst p f l = l := by
  induction l with
  | nil => rfl
  | cons a l ih =>
      by_cases ha : p a = true
      · rw [updateFirst, if_pos ha, h a (List.find?_cons_of_pos ha)]
      · rw [updateFirst, if_neg ha, ih]
        intro b hb
        exact h b (by rwa [List.find?_cons_of_neg ha])

theorem map_updateFirst {g : α → β} (hg : ∀ a, p a = true → g (f a) = g a) (l : List α) :
    (updateFirst p f l).map g = l.map g := by
  induction l with
  | nil => rfl
  | cons a l ih =>
      by_cases ha : p a = true
      · simp [updateFirst, ha, hg a ha]
      · simp [updateFirst, ha, ih]

theorem getElem?_updateFirst (l : List α) (i : Nat) :
    (updateFirst p f l)[i]? = if l.findIdx? p = some i then l[i]?.map f else l[i]? := by
  induction l generalizing i with
  | nil => simp [updateFirst]
  | cons a l ih =>
      by_cases ha : p a = true
      · cases i <;> simp [updateFirst, ha, List.findIdx?_cons]
      · cases i with
        | zero => simp [updateFirst, ha, List.findIdx?_cons]
        | succ i => simp [updateFirst, ha, List.findIdx?_cons, ih]

theorem length_updateFirst (l : List α) : (updateFirst p f l).length = l.length := by
  induction l with
  | nil => rfl
  | cons a l ih =>
      by_cases ha : p a = true
      · simp [updateFirst, ha]
      · simp [updateFirst, ha, ih]

/-- Two updates of the same element are one. -/
theorem updateFirst_updateFirst {g : α → α} (hp : ∀ a, p a = true → p (f a) = true) (l : List α) :
    updateFirst p g (updateFirst p f l) = updateFirst p (g ∘ f) l := by
  induction l with
  | nil => rfl
  | cons a l ih =>
      by_cases ha : p a = true
      · simp [updateFirst, ha, hp a ha]
      · simp [updateFirst, ha, ih]

theorem updateFirst_append_of_none {l : List α} {a : α} (h : l.find? p = none)
    (ha : p a = true) : updateFirst p f (l ++ [a]) = l ++ [f a] := by
  induction l with
  | nil => simp [updateFirst, ha]
  | cons b l ih =>
      by_cases hb : p b = true
      · simp [hb] at h
      · rw [List.find?_cons_of_neg hb] at h
        simp [updateFirst, hb, ih h]

/-- The search finds the image of what it found before, or of `new`. -/
theorem find?_upsert {new : α} (hp : ∀ a, p a = true → p (f a) = true) (hnew : p new = true)
    (l : List α) :
    (upsert p new f l).find? p = some (f ((l.find? p).getD new)) := by
  cases h : l.find? p with
  | some a =>
      have ha : p a = true := List.find?_some h
      simp only [upsert, h, Option.getD_some]
      exact find?_updateFirst h (hp a ha)
  | none =>
      simp only [upsert, h, Option.getD_none]
      rw [List.find?_append, h, Option.none_or, List.find?_cons_of_pos (hp new hnew)]

theorem filter_upsert {new : α} (hold : ∀ a, p a = true → q a = false)
    (hp : ∀ a, p a = true → p (f a) = true) (hnew : p new = true) (l : List α) :
    (upsert p new f l).filter q = l.filter q := by
  have hq : ∀ a, p a = true → q (f a) = false := fun a ha => hold _ (hp a ha)
  cases h : l.find? p with
  | some a =>
      simp only [upsert, h]
      exact filter_updateFirst hold hq l
  | none =>
      simp only [upsert, h, List.filter_append]
      simp [hq new hnew]

/-- A search for something else finds what it found. -/
theorem find?_eq_of_filter_eq {l l' : List α} (h : l.filter q = l'.filter q) :
    l.find? q = l'.find? q := by
  rw [← List.head?_filter, ← List.head?_filter, h]

/-- The first result behind the elements that satisfy `p` is behind the first of
them that has a result. -/
theorem head?_flatMap_filter (p : α → Bool) (g : α → List β) (l : List α) :
    ((l.filter p).flatMap g).head? =
      (l.find? fun a => p a && (g a).head?.isSome).bind fun a => (g a).head? := by
  induction l with
  | nil => rfl
  | cons a l ih =>
      cases hp : p a with
      | false => simp [hp, ih]
      | true =>
          cases hg : g a with
          | nil => simp [hp, hg, ih]
          | cons b bs => simp [hp, hg]

end DraEnv.Foundation
