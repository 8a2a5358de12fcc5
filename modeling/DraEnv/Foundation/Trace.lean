import DraEnv.Foundation.Effect

/-!
Programs on an environment that may do anything.

Of a program that only reads, what is sure is that it logs nothing
(`Silent`). Of a program that issues requests, that they follow a plan:
`Attempts` takes the requests of a plan one after the other, each from
the state the one before has left, up to the first that fails, and
`Performs` says that a program does that and returns an error just when
it had to stop. The rules follow the program text.
-/

namespace DraEnv.Foundation

namespace Effect

variable {σ ω ε ε' α β : Type}

/-! ### Programs that log nothing -/

def Silent (p : Effect σ ω ε α) : Prop := ∀ s, (p.run s).log = []

theorem silent_pure (a : α) : Silent (pure a : Effect σ ω ε α) := fun _ => rfl

theorem silent_fail (e : ε) : Silent (fail e : Effect σ ω ε α) := fun _ => rfl

theorem Silent.mapError {p : Effect σ ω ε α} (h : Silent p) (f : ε → ε') :
    Silent (mapError f p) := h

theorem Silent.attempt {p : Effect σ ω ε α} (h : Silent p) :
    Silent (attempt p : Effect σ ω ε' (Except ε α)) := h

theorem Silent.bind {p : Effect σ ω ε α} {f : α → Effect σ ω ε β} (hp : Silent p)
    (hf : ∀ a, Silent (f a)) : Silent (p >>= f) := by
  intro s
  have hs := hp s
  rcases hrun : p.run s with ⟨e | a, s', log⟩
  · rw [hrun] at hs
    rw [bind_error hrun]
    exact hs
  · rw [hrun] at hs
    rw [bind_ok hrun]
    exact List.append_eq_nil_iff.mpr ⟨hs, hf a s'⟩

/-- A program that logs nothing, before the rest. -/
theorem Silent.attempt_bind {p : Effect σ ω ε' α} (hp : Silent p)
    (f : Except ε' α → Effect σ ω ε β) (s : σ) :
    (Effect.attempt p >>= f).run s = (f (p.run s).result).run (p.run s).state := by
  rw [bind_ok (run_attempt p s), hp s]
  rfl

/-! ### Programs that follow a plan -/

section

variable {ρ δ : Type} (op : ρ → σ → Option δ × σ) (entry : σ → ρ → Option δ → ω)

/-- The requests of a plan up to the first that fails: whether all succeeded, the state
they leave, and an entry of the log for each. -/
inductive Attempts : List ρ → σ → Bool → σ → List ω → Prop
  | done (s : σ) : Attempts [] s true s []
  | succeeds {request : ρ} {plan : List ρ} {s s₁ s' : σ} {ok : Bool} {log : List ω}
      (hop : op request s = (none, s₁)) (hrest : Attempts plan s₁ ok s' log) :
      Attempts (request :: plan) s ok s' (entry s request none :: log)
  | fails {request : ρ} {plan : List ρ} {s s' : σ} {d : δ} (hop : op request s = (some d, s')) :
      Attempts (request :: plan) s false s' [entry s request (some d)]

/-- The program issues the requests of the plan, and fails if one of them does. -/
def Performs (plan : List ρ) (p : Effect σ ω ε Unit) : Prop :=
  ∀ s, Attempts op entry plan s (p.run s).result.isOk (p.run s).state (p.run s).log

variable {op entry} {plan plan₁ plan₂ : List ρ} {s s₁ s' : σ} {ok : Bool} {log log₁ log₂ : List ω}

theorem Attempts.append (h₁ : Attempts op entry plan₁ s true s₁ log₁)
    (h₂ : Attempts op entry plan₂ s₁ ok s' log₂) :
    Attempts op entry (plan₁ ++ plan₂) s ok s' (log₁ ++ log₂) := by
  generalize hdone : true = done at h₁
  induction h₁ with
  | done => exact h₂
  | succeeds hop _ ih => exact .succeeds hop (ih h₂ hdone)
  | fails => cases hdone

theorem Attempts.stop (h : Attempts op entry plan₁ s false s' log) (plan₂ : List ρ) :
    Attempts op entry (plan₁ ++ plan₂) s false s' log := by
  generalize hdone : false = done at h ⊢
  induction h with
  | done => cases hdone
  | succeeds hop _ ih => exact .succeeds hop (ih hdone)
  | fails hop => exact .fails hop

theorem performs_pure : Performs op entry [] (pure () : Effect σ ω ε Unit) :=
  fun s => .done s

theorem Performs.mapError {p : Effect σ ω ε Unit} (h : Performs op entry plan p) (f : ε → ε') :
    Performs op entry plan (mapError f p) := by
  intro s
  have hok : ((p.run s).result.mapError f).isOk = (p.run s).result.isOk := by
    cases (p.run s).result <;> rfl
  simp only [Effect.mapError, hok]
  exact h s

/-- One plan after the other. -/
theorem Performs.seq {p q : Effect σ ω ε Unit} (hp : Performs op entry plan₁ p)
    (hq : Performs op entry plan₂ q) : Performs op entry (plan₁ ++ plan₂) (do p; q) := by
  intro s
  have hs := hp s
  rcases hrun : p.run s with ⟨e | a, s', log⟩
  · rw [hrun] at hs
    rw [bind_error hrun]
    exact hs.stop plan₂
  · rw [hrun] at hs
    rw [bind_ok hrun]
    exact hs.append (hq s')

end

end Effect

end DraEnv.Foundation
