import Mathlib

/-!
Pipelines of partial filters.

Each stage reads a value and may produce a new one; a stage that produces
none leaves the value to the next. `Chained` says this of a list of stages
as it was executed, one stage at a time. Its two consequences say the same
of the whole list at once: every stage read the latest value produced
before it, and the result is the latest value of all.
-/

namespace DraEnv.Foundation

variable {ι α : Type} {input : ι → α} {output : ι → Option α}

/-- The last value produced, or `x` if there is none. -/
def latest (x : α) (outs : List (Option α)) : α := outs.reduceOption.getLastD x

@[simp] theorem latest_nil (x : α) : latest x [] = x := rfl

theorem latest_cons (x : α) (o : Option α) (outs : List (Option α)) :
    latest x (o :: outs) = latest (o.getD x) outs := by
  cases o with
  | none => rfl
  | some y =>
      rw [latest, latest, List.reduceOption_cons_of_some, List.getLastD_cons, Option.getD_some]

/-- Only a value that was produced can be the latest. -/
theorem latest_mem (x : α) (outs : List (Option α)) :
    latest x outs = x ∨ some (latest x outs) ∈ outs := by
  induction outs generalizing x with
  | nil => exact Or.inl rfl
  | cons o outs ih =>
      rw [latest_cons]
      cases o with
      | none => exact (ih x).imp_right (List.mem_cons_of_mem _)
      | some y =>
          rcases ih y with hy | hmem
          · right
            rw [Option.getD_some, hy]
            exact List.mem_cons_self
          · exact Or.inr (List.mem_cons_of_mem _ hmem)

variable (input output)

/-- `stages` were executed one after the other from `x`, and `y` came out. -/
inductive Chained : α → List ι → α → Prop
  | nil (x : α) : Chained x [] x
  | cons {x y : α} {s : ι} {stages : List ι} :
      input s = x → Chained ((output s).getD x) stages y → Chained x (s :: stages) y

variable {input output}

theorem Chained.result {x y : α} {stages : List ι} (h : Chained input output x stages y) :
    y = latest x (stages.map output) := by
  induction h with
  | nil x => rfl
  | cons hs _ ih => rw [List.map_cons, latest_cons]; exact ih

theorem Chained.inputs {x y : α} {stages : List ι} (h : Chained input output x stages y) :
    ∀ i (hi : i < stages.length),
      input (stages[i]) = latest x ((stages.take i).map output) := by
  induction h with
  | nil x => intro i hi; exact absurd hi (Nat.not_lt_zero i)
  | @cons x y s stages hs _ ih =>
      intro i hi
      cases i with
      | zero => simpa using hs
      | succ i =>
          rw [List.getElem_cons_succ, List.take_succ_cons, List.map_cons, latest_cons]
          exact ih i (by simpa using hi)

end DraEnv.Foundation
