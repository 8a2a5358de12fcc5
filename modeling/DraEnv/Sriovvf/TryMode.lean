import DraEnv.Sriovvf.Tool

/-!
Try mode against strict mode.

The two modes run the same text. They differ in what becomes of an error
that reaches `run`: strict mode returns it, try mode drops it and either
ends there or goes on with the next step. The run of try mode is thus a
lenient variant of the strict run, part by part.
-/

namespace DraEnv.Sriovvf

open DraEnv.Foundation DraEnv.GoStd Effect

variable {σ : Type} (fs : Filesystem σ) (size : IntSize) (cfg : Config)

def Config.strict (cfg : Config) : Config := { cfg with tryMode := false }

def Config.lenient (cfg : Config) : Config := { cfg with tryMode := true }

theorem lenient_handleFailure (err : ToolError) :
    Lenient (handleFailure cfg.strict err : Tool σ Unit) (handleFailure cfg.lenient err) :=
  Lenient.pure.fail err

theorem lenient_orHandle (p : Tool σ Unit) :
    Lenient (orHandle cfg.strict p) (orHandle cfg.lenient p) := by
  refine Lenient.attempt fun r => ?_
  cases r with
  | error err => exact lenient_handleFailure cfg err
  | ok _ => exact Lenient.pure

theorem lenient_assignPF (pf : PfDevice) :
    Lenient (assignPF fs cfg.strict pf) (assignPF fs cfg.lenient pf) :=
  Lenient.ite (lenient_orHandle cfg _) Lenient.pure

theorem lenient_assignVFs (pf : PfDevice) :
    Lenient (assignVFs fs size cfg.strict pf) (assignVFs fs size cfg.lenient pf) := by
  refine Lenient.attempt fun r => ?_
  cases r with
  | error err => exact lenient_handleFailure cfg _
  | ok vfPaths =>
      refine Lenient.ite Lenient.pure (Lenient.ite (lenient_orHandle cfg _) ?_)
      refine Lenient.attempt fun r => ?_
      cases r with
      | error err => exact lenient_handleFailure cfg _
      | ok nodes => exact Lenient.dite (fun _ => Lenient.pure) fun _ => lenient_orHandle cfg _

theorem lenient_setUp (pf : PfDevice) :
    Lenient (setUp fs size cfg.strict pf) (setUp fs size cfg.lenient pf) := by
  refine Lenient.ite (lenient_handleFailure cfg _) ?_
  exact (lenient_orHandle cfg _).seq
    ((lenient_assignPF fs cfg pf).seq (lenient_assignVFs fs size cfg pf))

theorem lenient_run : Lenient (run fs size cfg.strict) (run fs size cfg.lenient) := by
  refine Lenient.ite (lenient_handleFailure cfg _) ?_
  refine Lenient.attempt fun r => ?_
  cases r with
  | error err => exact lenient_handleFailure cfg _
  | ok _ =>
      refine Lenient.attempt fun r => ?_
      cases r with
      | error err => exact lenient_handleFailure cfg _
      | ok pf => exact lenient_setUp fs size cfg pf

/-- Try mode returns nil whatever happens, writes what strict mode writes before
anything else, and is strict mode where that succeeds. -/
theorem tryMode_extends (s : σ) :
    let strict := (run fs size cfg.strict).run s
    let lenient := (run fs size cfg.lenient).run s
    lenient.result = .ok () ∧ strict.log <+: lenient.log ∧
      (strict.result = .ok () → lenient.log = strict.log ∧ lenient.state = strict.state) := by
  intro strict lenient
  obtain ⟨hresult, hlog, hsame⟩ := lenient_run fs size cfg s
  refine ⟨hresult, hlog, fun hok => ?_⟩
  have heq : lenient = strict := hsame hok
  rw [heq]
  exact ⟨rfl, rfl⟩

end DraEnv.Sriovvf
