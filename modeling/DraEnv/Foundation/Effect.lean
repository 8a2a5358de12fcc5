import Mathlib

/-!
Programs that act on a state, may fail, and leave a log.

An effect runs from a state to a result or an error, with the state it
ends in and the log of what it did on the way; an error ends the program
and keeps both. Three things are said about effects here.

A run that succeeds is put together from runs of its parts that do
(`bind_run_ok`).

An effect that observes a view of the state neither changes the state
nor logs anything, and its result depends on the view alone. The class
is closed under sequencing, so what a program of reads depends on is
found by going through its text.

A lenient variant of a program carries on where the strict one fails. It
never fails itself, its log extends the log of the strict program, and
the two runs are the same where the strict one succeeds. Again the rules
follow the program text.
-/

namespace DraEnv.Foundation

/-- What is left of a run. -/
@[ext] structure Outcome (σ ω α : Type) where
  result : α
  state : σ
  log : List ω

structure Effect (σ ω ε α : Type) where
  run : σ → Outcome σ ω (Except ε α)

namespace Effect

variable {σ ω ε ε' α β τ : Type}

def fail (e : ε) : Effect σ ω ε α := ⟨fun s => ⟨.error e, s, []⟩⟩

def bind (p : Effect σ ω ε α) (f : α → Effect σ ω ε β) : Effect σ ω ε β where
  run s :=
    match p.run s with
    | ⟨.error e, s', log⟩ => ⟨.error e, s', log⟩
    | ⟨.ok a, s', log⟩ =>
        let rest := (f a).run s'
        ⟨rest.result, rest.state, log ++ rest.log⟩

instance : Monad (Effect σ ω ε) where
  pure a := ⟨fun s => ⟨.ok a, s, []⟩⟩
  bind := bind

/-- Run a program for its result, whether a value or an error. -/
def attempt (p : Effect σ ω ε α) : Effect σ ω ε' (Except ε α) where
  run s := ⟨.ok (p.run s).result, (p.run s).state, (p.run s).log⟩

/-- Replace the error of a program. -/
def mapError (f : ε → ε') (p : Effect σ ω ε α) : Effect σ ω ε' α where
  run s := ⟨(p.run s).result.mapError f, (p.run s).state, (p.run s).log⟩

/-! ### Runs and the runs of the parts -/

@[simp] theorem run_pure (a : α) (s : σ) :
    (pure a : Effect σ ω ε α).run s = ⟨.ok a, s, []⟩ := rfl

@[simp] theorem run_fail (e : ε) (s : σ) :
    (fail e : Effect σ ω ε α).run s = ⟨.error e, s, []⟩ := rfl

@[simp] theorem run_attempt (p : Effect σ ω ε α) (s : σ) :
    (attempt p : Effect σ ω ε' (Except ε α)).run s =
      ⟨.ok (p.run s).result, (p.run s).state, (p.run s).log⟩ := rfl

theorem bind_ok {p : Effect σ ω ε α} {f : α → Effect σ ω ε β} {s s' : σ} {a : α} {log : List ω}
    (h : p.run s = ⟨.ok a, s', log⟩) :
    (p >>= f).run s =
      ⟨((f a).run s').result, ((f a).run s').state, log ++ ((f a).run s').log⟩ := by
  change (bind p f).run s = _
  simp only [bind, h]

theorem bind_error {p : Effect σ ω ε α} {f : α → Effect σ ω ε β} {s s' : σ} {e : ε}
    {log : List ω} (h : p.run s = ⟨.error e, s', log⟩) :
    (p >>= f).run s = ⟨.error e, s', log⟩ := by
  change (bind p f).run s = _
  simp only [bind, h]

/-- A sequence succeeds where both parts do, and the logs add up. -/
theorem bind_run_ok {p : Effect σ ω ε α} {f : α → Effect σ ω ε β} {s s'' : σ} {b : β}
    {log : List ω} :
    (p >>= f).run s = ⟨.ok b, s'', log⟩ ↔
      ∃ a s' log₁ log₂, p.run s = ⟨.ok a, s', log₁⟩ ∧ (f a).run s' = ⟨.ok b, s'', log₂⟩ ∧
        log = log₁ ++ log₂ := by
  constructor
  · intro h
    rcases hp : p.run s with ⟨_ | a, s', log₁⟩
    · rw [bind_error hp] at h
      simp at h
    · rw [bind_ok hp, Outcome.mk.injEq] at h
      obtain ⟨hresult, hstate, hlog⟩ := h
      exact ⟨a, s', log₁, _, rfl, Outcome.ext hresult hstate rfl, hlog.symm⟩
  · rintro ⟨a, s', log₁, log₂, hp, hf, rfl⟩
    rw [bind_ok hp, hf]

theorem seq_run_ok {p : Effect σ ω ε Unit} {q : Effect σ ω ε β} {s s'' : σ} {b : β}
    {log : List ω} :
    (do p; q).run s = ⟨.ok b, s'', log⟩ ↔
      ∃ s' log₁ log₂, p.run s = ⟨.ok (), s', log₁⟩ ∧ q.run s' = ⟨.ok b, s'', log₂⟩ ∧
        log = log₁ ++ log₂ := by
  rw [bind_run_ok]
  exact ⟨fun ⟨_, h⟩ => h, fun h => ⟨(), h⟩⟩

theorem mapError_ok {f : ε → ε'} {p : Effect σ ω ε α} {s s' : σ} {a : α} {log : List ω} :
    (mapError f p).run s = ⟨.ok a, s', log⟩ ↔ p.run s = ⟨.ok a, s', log⟩ := by
  rcases hp : p.run s with ⟨_ | _, _, _⟩ <;> simp [mapError, hp, Except.mapError]

/-- A program that logs nothing, with its error replaced, before the rest. -/
theorem mapError_bind_ok {p : Effect σ ω ε α} {f : ε → ε'} {k : α → Effect σ ω ε' β} {s s' : σ}
    {a : α} (h : p.run s = ⟨.ok a, s', []⟩) : (mapError f p >>= k).run s = (k a).run s' :=
  bind_ok (mapError_ok.mpr h)

theorem mapError_bind_error {p : Effect σ ω ε α} {f : ε → ε'} {k : α → Effect σ ω ε' β} {s s' : σ}
    {e : ε} {log : List ω} (h : p.run s = ⟨.error e, s', log⟩) :
    (mapError f p >>= k).run s = ⟨.error (f e), s', log⟩ := by
  have hrun : (mapError f p).run s = ⟨.error (f e), s', log⟩ := by
    simp only [mapError, h, Except.mapError]
  exact bind_error hrun

/-! ### Observations -/

/-- The effect reads what `view` shows of the state and does nothing else. -/
structure Observes (view : σ → τ) (p : Effect σ ω ε α) : Prop where
  state : ∀ s, (p.run s).state = s
  log : ∀ s, (p.run s).log = []
  result : ∀ s s', view s = view s' → (p.run s).result = (p.run s').result

variable {view : σ → τ}

theorem Observes.run {p : Effect σ ω ε α} (h : Observes view p) (s : σ) :
    p.run s = ⟨(p.run s).result, s, []⟩ :=
  Outcome.ext rfl (h.state s) (h.log s)

theorem Observes.result_ok {p : Effect σ ω ε α} (h : Observes view p) {s : σ} {a : α} :
    (p.run s).result = .ok a ↔ p.run s = ⟨.ok a, s, []⟩ := by
  constructor
  · exact fun hresult => Outcome.ext hresult (h.state s) (h.log s)
  · intro hrun
    rw [hrun]

theorem Observes.pure (a : α) : Observes view (pure a : Effect σ ω ε α) :=
  ⟨fun _ => rfl, fun _ => rfl, fun _ _ _ => rfl⟩

theorem Observes.fail (e : ε) : Observes view (fail e : Effect σ ω ε α) :=
  ⟨fun _ => rfl, fun _ => rfl, fun _ _ _ => rfl⟩

theorem Observes.attempt {p : Effect σ ω ε α} (h : Observes view p) :
    Observes view (attempt p : Effect σ ω ε' (Except ε α)) :=
  ⟨h.state, h.log, fun s s' heq => congrArg Except.ok (h.result s s' heq)⟩

theorem Observes.mapError {p : Effect σ ω ε α} (f : ε → ε') (h : Observes view p) :
    Observes view (mapError f p) :=
  ⟨h.state, h.log, fun s s' heq => congrArg (Except.mapError f) (h.result s s' heq)⟩

theorem Observes.run_bind {p : Effect σ ω ε α} (hp : Observes view p)
    (f : α → Effect σ ω ε β) (s : σ) :
    (p >>= f).run s =
      match (p.run s).result with
      | .error e => ⟨.error e, s, []⟩
      | .ok a => (f a).run s := by
  rcases hresult : (p.run s).result with e | a
  · exact bind_error ((hp.run s).trans (by rw [hresult]))
  · exact bind_ok ((hp.run s).trans (by rw [hresult]))

/-- An observation whose failure is not recovered from. -/
theorem Observes.attempt_bind_ok {p : Effect σ ω ε' α} (hp : Observes view p)
    {k : Except ε' α → Effect σ ω ε β} (hk : ∀ e, ∃ e', k (.error e) = Effect.fail e')
    {s s' : σ} {b : β} {log : List ω} :
    (Effect.attempt p >>= k).run s = ⟨.ok b, s', log⟩ ↔
      ∃ a, (p.run s).result = .ok a ∧ (k (.ok a)).run s = ⟨.ok b, s', log⟩ := by
  rw [hp.attempt.run_bind, run_attempt]
  rcases hresult : (p.run s).result with e | a
  · obtain ⟨e', he'⟩ := hk e
    simp [he']
  · simp

theorem Observes.bind {p : Effect σ ω ε α} {f : α → Effect σ ω ε β} (hp : Observes view p)
    (hf : ∀ a, Observes view (f a)) : Observes view (p >>= f) where
  state s := by
    rw [hp.run_bind]
    rcases (p.run s).result with e | a
    · rfl
    · exact (hf a).state s
  log s := by
    rw [hp.run_bind]
    rcases (p.run s).result with e | a
    · rfl
    · exact (hf a).log s
  result s s' heq := by
    rw [hp.run_bind, hp.run_bind, hp.result s s' heq]
    rcases (p.run s').result with e | a
    · rfl
    · exact (hf a).result s s' heq

/-! ### Lenient programs -/

/-- The second program carries on where the first one fails. -/
def Lenient (strict lenient : Effect σ ω ε Unit) : Prop :=
  ∀ s, (lenient.run s).result = .ok () ∧ (strict.run s).log <+: (lenient.run s).log ∧
    ((strict.run s).result = .ok () → lenient.run s = strict.run s)

theorem Lenient.pure : Lenient (pure () : Effect σ ω ε Unit) (pure ()) :=
  fun _ => ⟨rfl, List.prefix_rfl, fun _ => rfl⟩

/-- Failing at once is the strict side of any program that has a lenient side. -/
theorem Lenient.fail {strict lenient : Effect σ ω ε Unit} (h : Lenient strict lenient) (e : ε) :
    Lenient (fail e) lenient :=
  fun s => ⟨(h s).1, List.nil_prefix, fun hresult => absurd hresult (by simp)⟩

/-- Where the first part of the strict program fails, the lenient one has at least
the log of that part. -/
theorem Lenient.seq {strict₁ lenient₁ strict₂ lenient₂ : Effect σ ω ε Unit}
    (h₁ : Lenient strict₁ lenient₁) (h₂ : Lenient strict₂ lenient₂) :
    Lenient (do strict₁; strict₂) (do lenient₁; lenient₂) := by
  intro s
  obtain ⟨hresult, hlog, hsame⟩ := h₁ s
  have hlenient : lenient₁.run s = ⟨.ok (), (lenient₁.run s).state, (lenient₁.run s).log⟩ :=
    Outcome.ext hresult rfl rfl
  rw [bind_ok hlenient]
  rcases hstrict : strict₁.run s with ⟨e | _, s', log⟩
  · rw [bind_error hstrict]
    rw [hstrict] at hlog
    exact ⟨(h₂ _).1, hlog.trans (List.prefix_append _ _), fun hok => absurd hok (by simp)⟩
  · rw [bind_ok hstrict, hsame (by rw [hstrict]), hstrict]
    obtain ⟨hresult₂, hlog₂, hsame₂⟩ := h₂ s'
    refine ⟨hresult₂, (List.prefix_append_right_inj _).mpr hlog₂, fun hok => ?_⟩
    rw [hsame₂ hok]

theorem Lenient.dite {c : Prop} [Decidable c] {strict₁ lenient₁ : c → Effect σ ω ε Unit}
    {strict₂ lenient₂ : ¬ c → Effect σ ω ε Unit} (h₁ : ∀ hc, Lenient (strict₁ hc) (lenient₁ hc))
    (h₂ : ∀ hc, Lenient (strict₂ hc) (lenient₂ hc)) :
    Lenient (if hc : c then strict₁ hc else strict₂ hc)
      (if hc : c then lenient₁ hc else lenient₂ hc) := by
  by_cases hc : c
  · rw [dif_pos hc, dif_pos hc]
    exact h₁ hc
  · rw [dif_neg hc, dif_neg hc]
    exact h₂ hc

theorem Lenient.ite {c : Prop} [Decidable c] {strict₁ lenient₁ strict₂ lenient₂ : Effect σ ω ε Unit}
    (h₁ : Lenient strict₁ lenient₁) (h₂ : Lenient strict₂ lenient₂) :
    Lenient (if c then strict₁ else strict₂) (if c then lenient₁ else lenient₂) :=
  Lenient.dite (fun _ => h₁) (fun _ => h₂)

/-- A common part whose errors are left to the rest. -/
theorem Lenient.attempt {p : Effect σ ω ε' α} {strict lenient : Except ε' α → Effect σ ω ε Unit}
    (h : ∀ r, Lenient (strict r) (lenient r)) :
    Lenient (attempt p >>= strict) (attempt p >>= lenient) := by
  intro s
  rw [bind_ok (run_attempt p s), bind_ok (run_attempt p s)]
  obtain ⟨hresult, hlog, hsame⟩ := h (p.run s).result (p.run s).state
  refine ⟨hresult, (List.prefix_append_right_inj _).mpr hlog, fun hok => ?_⟩
  rw [hsame hok]

end Effect

end DraEnv.Foundation
