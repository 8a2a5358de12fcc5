import Mathlib

/-!
Transition systems: what holds in every state a run can reach.

A system is a set of initial states and a step relation, deterministic or
not; an interleaving of several parties is one such relation. Safety
comes from two rules. A property that holds initially and survives every
step from a reachable state holds of every reachable state
(`Reachable.invariant`), and a quantity no step changes while some stable
condition holds is the same at both ends of a run (`Run.constant`).
-/

namespace DraEnv.Foundation

/-- Initial states and steps. -/
structure System (σ : Type) where
  init : σ → Prop
  step : σ → σ → Prop

namespace System

variable {σ : Type} (M : System σ)

/-- Any number of steps. -/
def Run : σ → σ → Prop := Relation.ReflTransGen M.step

def Reachable (s : σ) : Prop := ∃ s₀, M.init s₀ ∧ M.Run s₀ s

variable {M}

theorem Reachable.of_init {s : σ} (h : M.init s) : M.Reachable s :=
  ⟨s, h, Relation.ReflTransGen.refl⟩

theorem Reachable.step {s s' : σ} (h : M.Reachable s) (hstep : M.step s s') :
    M.Reachable s' := by
  obtain ⟨s₀, hinit, hrun⟩ := h
  exact ⟨s₀, hinit, hrun.tail hstep⟩

/-- The invariant rule. The step may use that it starts in a reachable state, so
an invariant can rest on invariants proved before. -/
theorem Reachable.invariant {P : σ → Prop} (hinit : ∀ s, M.init s → P s)
    (hstep : ∀ s s', M.Reachable s → P s → M.step s s' → P s') {s : σ} (h : M.Reachable s) :
    P s := by
  obtain ⟨s₀, hs₀, hrun⟩ := h
  induction hrun with
  | refl => exact hinit s₀ hs₀
  | tail hprev hlast ih => exact hstep _ _ ⟨s₀, hs₀, hprev⟩ ih hlast

/-- While the stable condition `P` holds, no step changes `q`; then no run does. -/
theorem Run.constant {β : Type} {P : σ → Prop} {q : σ → β}
    (hstep : ∀ s s', P s → M.step s s' → P s' ∧ q s' = q s) {s s' : σ} (hrun : M.Run s s')
    (hP : P s) : q s' = q s := by
  have hboth : P s' ∧ q s' = q s := by
    induction hrun with
    | refl => exact ⟨hP, rfl⟩
    | tail _ hlast ih =>
        obtain ⟨hP', heq⟩ := hstep _ _ ih.1 hlast
        exact ⟨hP', heq.trans ih.2⟩
  exact hboth.2

end System

end DraEnv.Foundation
