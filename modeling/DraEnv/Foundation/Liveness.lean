import DraEnv.Foundation.Transition

/-!
Infinite runs and what must happen on them.

Safety rules speak of finite runs. That something happens at all needs an
assumption about scheduling: a party that stays able to move is one day
allowed to (`Behaviour.Fair`). The one rule is `Behaviour.eventually`,
for several parties at once. Every step lowers a measure or leaves it
alone, a move of any party lowers it, some party is ready as long as the
goal is not reached, and a party stays ready until it moves. Which of the
parties moves first is left open.
-/

namespace DraEnv.Foundation

namespace System

variable {σ : Type} {M : System σ}

/-- An infinite run, which may also stand still, as it has to after its last step. -/
structure Behaviour (M : System σ) where
  state : ℕ → σ
  init : M.init (state 0)
  next : ∀ n, state (n + 1) = state n ∨ M.step (state n) (state (n + 1))

namespace Behaviour

variable (r : M.Behaviour)

theorem reachable (n : ℕ) : M.Reachable (r.state n) := by
  induction n with
  | zero => exact .of_init r.init
  | succ n ih =>
      obtain hsame | hstep := r.next n
      · rw [hsame]
        exact ih
      · exact ih.step hstep

theorem run {n m : ℕ} (h : n ≤ m) : M.Run (r.state n) (r.state m) := by
  induction m, h using Nat.le_induction with
  | base => exact Relation.ReflTransGen.refl
  | succ m _ ih =>
      obtain hsame | hstep := r.next m
      · rw [hsame]
        exact ih
      · exact ih.tail hstep

/-- Weak fairness: who is ready from some time on moves after that time. -/
def Fair (ready : σ → Prop) (moves : σ → σ → Prop) : Prop :=
  ∀ n, (∀ m, n ≤ m → ready (r.state m)) →
    ∃ m, n ≤ m ∧ M.step (r.state m) (r.state (m + 1)) ∧ moves (r.state m) (r.state (m + 1))

variable {r} {ι : Type} {ready : ι → σ → Prop} {moves : ι → σ → σ → Prop} {P Q : σ → Prop}

/-- Where the goal `Q` is never reached, `P` stays. -/
theorem stays (hstep : ∀ s s', M.Reachable s → P s → M.step s s' → P s' ∨ Q s') {n : ℕ}
    (hP : P (r.state n)) (hnever : ∀ m, n ≤ m → ¬ Q (r.state m)) {m : ℕ} (hm : n ≤ m) :
    P (r.state m) := by
  induction m, hm using Nat.le_induction with
  | base => exact hP
  | succ m hm ih =>
      obtain hsame | hnext := r.next m
      · rw [hsame]
        exact ih
      · exact (hstep _ _ (r.reachable m) ih hnext).resolve_right (hnever (m + 1) (by omega))

/-- A party stays ready until it moves, so in a fair run it moves, unless the goal
comes first. -/
theorem moves_of_ready {i : ι} (hfair : r.Fair (ready i) (moves i)) {n : ℕ}
    (hP : ∀ m, n ≤ m → P (r.state m)) (hnever : ∀ m, n ≤ m → ¬ Q (r.state m))
    (hkeeps : ∀ s s', M.Reachable s → P s → ready i s → M.step s s' →
      ready i s' ∨ moves i s s' ∨ Q s')
    (hready : ready i (r.state n)) :
    ∃ m, n ≤ m ∧ M.step (r.state m) (r.state (m + 1)) ∧
      moves i (r.state m) (r.state (m + 1)) := by
  by_contra hnone
  push Not at hnone
  refine absurd (hfair n fun m hm => ?_) (by push Not; exact hnone)
  induction m, hm using Nat.le_induction with
  | base => exact hready
  | succ m hm ih =>
      obtain hsame | hnext := r.next m
      · rw [hsame]
        exact ih
      obtain hstill | hmoves | hQ := hkeeps _ _ (r.reachable m) (hP m hm) ih hnext
      · exact hstill
      · exact absurd hmoves (hnone m hm hnext)
      · exact absurd hQ (hnever (m + 1) (by omega))

/-- The rule for several fair parties and a measure that their moves lower. -/
theorem eventually (μ : σ → ℕ) (hfair : ∀ i, r.Fair (ready i) (moves i))
    (hstep : ∀ s s', M.Reachable s → P s → M.step s s' → P s' ∨ Q s')
    (hle : ∀ s s', M.Reachable s → P s → M.step s s' → μ s' ≤ μ s)
    (hlt : ∀ i s s', M.Reachable s → P s → M.step s s' → moves i s s' → μ s' < μ s)
    (hready : ∀ s, M.Reachable s → P s → Q s ∨ ∃ i, ready i s)
    (hkeeps : ∀ i s s', M.Reachable s → P s → ready i s → M.step s s' →
      ready i s' ∨ moves i s s' ∨ Q s')
    {n : ℕ} (hP : P (r.state n)) : ∃ m, n ≤ m ∧ Q (r.state m) := by
  by_contra hnone
  push Not at hnone
  have hstays : ∀ m, n ≤ m → P (r.state m) := fun m hm => stays hstep hP hnone hm
  have hmono : ∀ m k, n ≤ m → m ≤ k → μ (r.state k) ≤ μ (r.state m) := by
    intro m k hm hk
    induction k, hk using Nat.le_induction with
    | base => exact le_rfl
    | succ k hk ih =>
        obtain hsame | hnext := r.next k
        · rw [hsame]
          exact ih
        · exact (hle _ _ (r.reachable k) (hstays k (by omega)) hnext).trans ih
  -- by strong induction no value of the measure is ever taken
  have hdescent : ∀ v m, n ≤ m → μ (r.state m) ≠ v := by
    intro v
    induction v using Nat.strong_induction_on with
    | _ v ih =>
        rintro m hm rfl
        obtain hQ | ⟨i, hi⟩ := hready _ (r.reachable m) (hstays m hm)
        · exact hnone m hm hQ
        obtain ⟨k, hk, hnext, hmoves⟩ := moves_of_ready (hfair i)
          (fun k hk => hstays k (by omega)) (fun k hk => hnone k (by omega)) (hkeeps i) hi
        have hdrop := hlt i _ _ (r.reachable k) (hstays k (by omega)) hnext hmoves
        exact ih _ (lt_of_lt_of_le hdrop (hmono m k hm hk)) (k + 1) (by omega) rfl
  exact hdescent _ n le_rfl rfl

end Behaviour

end System

end DraEnv.Foundation
