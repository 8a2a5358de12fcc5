import DraEnv.Foundation.Interleave
import DraEnv.Foundation.Liveness
import DraEnv.Virtinjectd.Connection

/-!
The daemon: the accept loop of `Proxy.Run`, the handlers it starts and the
shutdown of `main`.

A state holds the listener, where `main` stands behind `proxy.Run`, and one
connection for every client accepted so far. The handlers run beside the
loop; they share the hook chain, which nobody changes, and the process: a
panic of one ends all, and so does the return of `main`, which waits for
none of them.

`daemon_states` says what the sharing amounts to: the states the daemon can
be in are the combinations of states its connections can be in on their
own, all of them, with at most one panicked.
-/

namespace DraEnv.Virtinjectd

open DraEnv.GoStd DraEnv.Foundation

/-- Where `main` stands after `net.Listen`. -/
inductive Stage where
  /-- In the loop of `proxy.Run`. -/
  | accepting
  /-- `proxy.Run` has returned; the deferred function is next. -/
  | stopped
  | exited
  deriving DecidableEq, Repr

structure DaemonState where
  listening : Bool
  stage : Stage
  conns : List ConnState

def DaemonState.initial : DaemonState := ⟨true, .accepting, []⟩

def DaemonState.Alive (d : DaemonState) : Prop := ∀ s ∈ d.conns, s.Alive

/-- What the loop does with an error of `Accept`. -/
def afterAccept (err : GoError) : Stage :=
  if isConnectionClosed (some err) then .stopped else .accepting

inductive DaemonStep (processor : Direction → Header → Bytes → Bytes) :
    DaemonState → DaemonState → Prop
  /-- `Accept` returns a client, and a goroutine is started for it. -/
  | accept {d : DaemonState} (halive : d.Alive) (hstage : d.stage = .accepting)
      (hlistening : d.listening = true) :
      DaemonStep processor d { d with conns := d.conns ++ [.initial] }
  /-- `Accept` returns an error; on a listener that was closed it is, in some
  wrapping, `net.ErrClosed`. -/
  | acceptFails {d : DaemonState} (err : GoError) (halive : d.Alive)
      (hstage : d.stage = .accepting)
      (hclosed : d.listening = false → GoError.closed.error.toList <:+: err.error.toList) :
      DaemonStep processor d { d with stage := afterAccept err }
  /-- The signal handler closes the listener. -/
  | signal {d : DaemonState} (halive : d.Alive) (hstage : d.stage ≠ .exited) :
      DaemonStep processor d { d with listening := false }
  | handle {d : DaemonState} {conns : List ConnState} (hstage : d.stage ≠ .exited)
      (hconns : (connection processor).InterleavedStep ConnState.Alive d.conns conns) :
      DaemonStep processor d { d with conns := conns }
  /-- The deferred function runs and `main` returns. -/
  | exit {d : DaemonState} (halive : d.Alive) (hstage : d.stage = .stopped) :
      DaemonStep processor d { d with listening := false, stage := .exited }

def daemon (processor : Direction → Header → Bytes → Bytes) : System DaemonState where
  init d := d = .initial
  step := DaemonStep processor

/-! ### Every connection runs on its own -/

/-- What a run of the daemon does to its connections: those that were there run on
by themselves, new ones are added behind. -/
structure DaemonState.Continues (processor : Direction → Header → Bytes → Bytes)
    (d d' : DaemonState) (old new : List ConnState) : Prop where
  conns : d'.conns = old ++ new
  runs : List.Forall₂ (connection processor).Run d.conns old
  started : ∀ s ∈ new, (connection processor).Reachable s
  /-- Nobody is accepted once the listener is closed or the loop has ended. -/
  closed : d.stage ≠ .accepting ∨ d.listening = false →
    new = [] ∧ (d'.stage ≠ .accepting ∨ d'.listening = false)
  exited : d.stage = .exited → d' = d

theorem DaemonState.continues_refl (processor : Direction → Header → Bytes → Bytes)
    (d : DaemonState) : d.Continues processor d d.conns [] where
  conns := (List.append_nil _).symm
  runs := System.Run.forall₂_refl _
  started := by simp
  closed hclosed := ⟨rfl, hclosed⟩
  exited _ := rfl

theorem reachable_of_run {processor : Direction → Header → Bytes → Bytes} {s s' : ConnState}
    (h : (connection processor).Reachable s) (hrun : (connection processor).Run s s') :
    (connection processor).Reachable s' := by
  obtain ⟨s₀, hinit, hbefore⟩ := h
  exact ⟨s₀, hinit, Relation.ReflTransGen.trans hbefore hrun⟩

theorem reachable_of_runs {processor : Direction → Header → Bytes → Bytes}
    {l l' : List ConnState} (hruns : List.Forall₂ (connection processor).Run l l')
    (h : ∀ s ∈ l, (connection processor).Reachable s) :
    ∀ s ∈ l', (connection processor).Reachable s := by
  induction hruns with
  | nil => exact h
  | cons hrun _ ih =>
      obtain ⟨hhead, htail⟩ := List.forall_mem_cons.mp h
      exact List.forall_mem_cons.mpr ⟨reachable_of_run hhead hrun, ih htail⟩

theorem DaemonState.Continues.trans {processor : Direction → Header → Bytes → Bytes}
    {d d₁ d₂ : DaemonState} {old new old₁ new₁ : List ConnState}
    (h : d.Continues processor d₁ old new) (h₁ : d₁.Continues processor d₂ old₁ new₁) :
    ∃ old₂ new₂, d.Continues processor d₂ old₂ new₂ := by
  -- of the connections there were in between, the last ones are those just added
  have hruns := h₁.runs
  rw [h.conns] at hruns
  obtain ⟨old₂, more, hold₁, hold₂, hmore⟩ := System.Run.forall₂_split hruns
  refine ⟨old₂, more ++ new₁, ?_, ?_, ?_, ?_, ?_⟩
  · rw [h₁.conns, hold₁, List.append_assoc]
  · exact System.Run.forall₂_trans h.runs hold₂
  · exact List.forall_mem_append.mpr ⟨reachable_of_runs hmore h.started, h₁.started⟩
  · intro hclosed
    obtain ⟨rfl, hclosed₁⟩ := h.closed hclosed
    obtain ⟨rfl, hclosed₂⟩ := h₁.closed hclosed₁
    rw [List.forall₂_nil_left_iff.mp hmore]
    exact ⟨rfl, hclosed₂⟩
  · intro hexited
    obtain rfl := h.exited hexited
    exact h₁.exited hexited

theorem DaemonStep.continues {processor : Direction → Header → Bytes → Bytes} {d d' : DaemonState}
    (hstep : DaemonStep processor d d') : ∃ old new, d.Continues processor d' old new := by
  have hrefl := d.continues_refl processor
  cases hstep with
  | accept _ hstage hlistening =>
      refine ⟨d.conns, [.initial], rfl, hrefl.runs, ?_, ?_, ?_⟩
      · exact List.forall_mem_singleton.mpr (.of_init rfl)
      · simp [hstage, hlistening]
      · simp [hstage]
  | acceptFails err _ hstage _ =>
      refine ⟨d.conns, [], hrefl.conns, hrefl.runs, hrefl.started, ?_, ?_⟩
      · exact fun hclosed => ⟨rfl, Or.inr (hclosed.resolve_left (not_not.mpr hstage))⟩
      · simp [hstage]
  | signal _ hstage =>
      exact ⟨d.conns, [], hrefl.conns, hrefl.runs, hrefl.started, fun _ => ⟨rfl, Or.inr rfl⟩,
        fun hexited => absurd hexited hstage⟩
  | @handle conns hstage hconns =>
      exact ⟨conns, [], (List.append_nil _).symm, hconns.runs, hrefl.started,
        fun hclosed => ⟨rfl, hclosed⟩, fun hexited => absurd hexited hstage⟩
  | exit _ hstage =>
      exact ⟨d.conns, [], hrefl.conns, hrefl.runs, hrefl.started, fun _ => ⟨rfl, Or.inr rfl⟩,
        fun hexited => by simp [hstage] at hexited⟩

theorem continues_of_run {processor : Direction → Header → Bytes → Bytes} {d d' : DaemonState}
    (hrun : (daemon processor).Run d d') : ∃ old new, d.Continues processor d' old new := by
  induction hrun with
  | refl => exact ⟨d.conns, [], d.continues_refl processor⟩
  | tail _ hstep ih =>
      obtain ⟨old, new, hbefore⟩ := ih
      obtain ⟨old₁, new₁, hlast⟩ := DaemonStep.continues hstep
      exact hbefore.trans hlast

/-! ### The states of the daemon -/

/-- Each connection is in a state it could be in alone, at most one has panicked,
and none if `main` has returned, which leaves the listener closed. -/
structure DaemonState.Independent (processor : Direction → Header → Bytes → Bytes)
    (d : DaemonState) : Prop where
  conns : ∀ s ∈ d.conns, (connection processor).Reachable s
  oneDead : System.OneDead ConnState.Alive d.conns
  exited : d.stage = .exited → d.listening = false ∧ d.Alive

theorem alive_initial : ConnState.initial.Alive := by
  intro d
  simp [ConnState.initial, Link.initial]

theorem DaemonStep.oneDead {processor : Direction → Header → Bytes → Bytes} {d d' : DaemonState}
    (hstep : DaemonStep processor d d') (h : System.OneDead ConnState.Alive d.conns) :
    System.OneDead ConnState.Alive d'.conns := by
  cases hstep with
  | accept halive =>
      exact System.oneDead_of_live (List.forall_mem_append.mpr
        ⟨halive, List.forall_mem_singleton.mpr alive_initial⟩)
  | handle _ hconns => exact hconns.oneDead
  | acceptFails => exact h
  | signal => exact h
  | exit => exact h

theorem afterAccept_ne_exited (err : GoError) : afterAccept err ≠ .exited := by
  simp only [afterAccept]
  split <;> simp

theorem DaemonStep.exited {processor : Direction → Header → Bytes → Bytes} {d d' : DaemonState}
    (hstep : DaemonStep processor d d') (hexited : d'.stage = .exited) :
    d'.listening = false ∧ d'.Alive := by
  cases hstep with
  | accept _ hstage => simp [hstage] at hexited
  | acceptFails err => exact absurd hexited (afterAccept_ne_exited err)
  | signal _ hstage => exact absurd hexited hstage
  | handle hstage => exact absurd hexited hstage
  | exit halive => exact ⟨rfl, halive⟩

theorem reachable_independent {processor : Direction → Header → Bytes → Bytes} {d : DaemonState}
    (h : (daemon processor).Reachable d) : d.Independent processor where
  conns := by
    obtain ⟨d₀, rfl, hrun⟩ := h
    obtain ⟨old, new, hcontinues⟩ := continues_of_run hrun
    have hold : old = [] := List.forall₂_nil_left_iff.mp hcontinues.runs
    rw [hcontinues.conns, hold]
    exact hcontinues.started
  oneDead := by
    refine h.invariant (P := fun d => System.OneDead ConnState.Alive d.conns) ?_ ?_
    · rintro d rfl
      exact List.Pairwise.nil
    · intro d d' _ hdead hstep
      exact DaemonStep.oneDead hstep hdead
  exited := by
    refine h.invariant (P := fun d => d.stage = .exited → d.listening = false ∧ d.Alive) ?_ ?_
    · rintro d rfl hexited
      simp [DaemonState.initial] at hexited
    · intro d d' _ _ hstep
      exact DaemonStep.exited hstep

theorem alive_replicate (n : ℕ) : ∀ s ∈ List.replicate n ConnState.initial, s.Alive := by
  intro s hs
  rw [List.eq_of_mem_replicate hs]
  exact alive_initial

/-- Any number of clients can be accepted before anything else happens. -/
theorem reachable_accepted (processor : Direction → Header → Bytes → Bytes) (n : ℕ) :
    (daemon processor).Reachable ⟨true, .accepting, List.replicate n .initial⟩ := by
  induction n with
  | zero => exact .of_init rfl
  | succ n ih =>
      have hstep := ih.step (DaemonStep.accept (alive_replicate n) rfl rfl)
      rwa [← List.replicate_succ'] at hstep

/-- Before `main` has returned the connections run as far as they like. -/
theorem reachable_handled {processor : Direction → Header → Bytes → Bytes} {listening : Bool}
    {stage : Stage} {conns conns' : List ConnState} (hstage : stage ≠ .exited)
    (h : (daemon processor).Reachable ⟨listening, stage, conns⟩)
    (hrun : (connection processor).Interleaved ConnState.Alive conns conns') :
    (daemon processor).Reachable ⟨listening, stage, conns'⟩ := by
  induction hrun with
  | refl => exact h
  | tail _ hstep ih => exact ih.step (DaemonStep.handle hstage hstep)

theorem runs_replicate {processor : Direction → Header → Bytes → Bytes} {conns : List ConnState}
    (h : ∀ s ∈ conns, (connection processor).Reachable s) :
    List.Forall₂ (connection processor).Run (List.replicate conns.length .initial) conns := by
  induction conns with
  | nil => exact .nil
  | cons s conns ih =>
      obtain ⟨⟨s₀, rfl, hrun⟩, hrest⟩ := List.forall_mem_cons.mp h
      exact .cons hrun (ih hrest)

/-- With nothing but initial connections the loop and the listener can be brought
to any stage but the last. -/
theorem reachable_stage (processor : Direction → Header → Bytes → Bytes) (n : ℕ)
    (listening : Bool) {stage : Stage} (hstage : stage ≠ .exited) :
    (daemon processor).Reachable ⟨listening, stage, List.replicate n .initial⟩ := by
  have haccepted := reachable_accepted processor n
  have hlistener : (daemon processor).Reachable
      ⟨listening, .accepting, List.replicate n .initial⟩ := by
    cases listening with
    | true => exact haccepted
    | false => exact haccepted.step (DaemonStep.signal (alive_replicate n) (by simp))
  cases stage with
  | accepting => exact hlistener
  | stopped =>
      exact hlistener.step (DaemonStep.acceptFails .closed (alive_replicate n) rfl
        fun _ => List.infix_rfl)
  | exited => exact absurd rfl hstage

/-- The daemon serves its clients independently of one another: its reachable
states are exactly the combinations of reachable states of its connections,
as long as the process lives. -/
theorem daemon_states (processor : Direction → Header → Bytes → Bytes) (d : DaemonState) :
    (daemon processor).Reachable d ↔ d.Independent processor := by
  refine ⟨reachable_independent, fun h => ?_⟩
  obtain ⟨listening, stage, conns⟩ := d
  have hruns : (connection processor).Interleaved ConnState.Alive
      (List.replicate conns.length .initial) conns :=
    System.interleaved_of_runs (runs_replicate h.conns) (alive_replicate _) h.oneDead
  by_cases hexited : stage = .exited
  · subst hexited
    obtain ⟨hlistening, halive⟩ := h.exited rfl
    have hstage : Stage.stopped ≠ .exited := by simp
    have hstopped := reachable_handled hstage (reachable_stage processor _ false hstage) hruns
    have hexit := hstopped.step (DaemonStep.exit halive rfl)
    rw [show listening = false from hlistening]
    exact hexit
  · exact reachable_handled hexited (reachable_stage processor _ listening hexited) hruns

/-! ### Shutdown -/

/-- On a closed listener `Accept` returns, and the deferred function blocks on
nothing. -/
def DaemonState.Leaving (d : DaemonState) : Prop :=
  match d.stage with
  | .accepting => d.listening = false
  | .stopped => True
  | .exited => False

def Stage.rank : Stage → Nat
  | .accepting => 2
  | .stopped => 1
  | .exited => 0

/-- The scheduler lets the main goroutine of a living process go on. -/
def MainScheduled {processor : Direction → Header → Bytes → Bytes}
    (r : (daemon processor).Behaviour) : Prop :=
  r.Fair (fun d => d.Alive ∧ d.Leaving) fun d d' => d'.stage ≠ d.stage

/-- The error of a closed listener ends the loop. -/
theorem afterAccept_of_closed {err : GoError}
    (h : GoError.closed.error.toList <:+: err.error.toList) : afterAccept err = .stopped := by
  have hclosed : isConnectionClosed (some err) = true := by
    simp only [isConnectionClosed, Bool.or_eq_true, decide_eq_true_eq]
    exact Or.inr (Or.inl h)
  rw [afterAccept, if_pos hclosed]

theorem DaemonStep.closed {processor : Direction → Header → Bytes → Bytes} {d d' : DaemonState}
    (hstep : DaemonStep processor d d') (hclosed : d.listening = false) :
    d'.listening = false ∧ (d'.stage = d.stage ∨ d'.stage.rank < d.stage.rank) := by
  cases hstep with
  | accept _ _ hlistening => simp [hclosed] at hlistening
  | acceptFails err _ hstage herr =>
      refine ⟨hclosed, Or.inr ?_⟩
      simp [afterAccept_of_closed (herr hclosed), hstage, Stage.rank]
  | signal => exact ⟨rfl, Or.inl rfl⟩
  | handle => exact ⟨hclosed, Or.inl rfl⟩
  | exit _ hstage => exact ⟨rfl, Or.inr (by simp [hstage, Stage.rank])⟩

theorem exits {processor : Direction → Header → Bytes → Bytes}
    {r : (daemon processor).Behaviour} (hfair : MainScheduled r) {n : ℕ}
    (hclosed : (r.state n).listening = false) :
    ∃ m, n ≤ m ∧ (¬ (r.state m).Alive ∨ (r.state m).stage = .exited) := by
  refine System.Behaviour.eventually (ι := Unit) (P := fun d => d.listening = false)
    (Q := fun d => ¬ d.Alive ∨ d.stage = .exited) (fun d => d.stage.rank) (fun _ => hfair)
    ?_ ?_ ?_ ?_ ?_ hclosed
  · intro d d' _ hd hstep
    exact Or.inl (DaemonStep.closed hstep hd).1
  · intro d d' _ hd hstep
    obtain hsame | hlt := (DaemonStep.closed hstep hd).2
    · rw [hsame]
    · exact hlt.le
  · intro _ d d' _ hd hstep hmoves
    exact (DaemonStep.closed hstep hd).2.resolve_left hmoves
  · intro d _ hd
    by_cases halive : d.Alive
    · cases hstage : d.stage with
      | accepting => exact Or.inr ⟨(), halive, by simpa [DaemonState.Leaving, hstage] using hd⟩
      | stopped => exact Or.inr ⟨(), halive, by simp [DaemonState.Leaving, hstage]⟩
      | exited => exact Or.inl (Or.inr rfl)
    · exact Or.inl (Or.inl halive)
  · intro _ d d' _ hd hready hstep
    by_cases halive : d'.Alive
    · by_cases hsame : d'.stage = d.stage
      · refine Or.inl ⟨halive, ?_⟩
        have hleaving := hready.2
        simp only [DaemonState.Leaving, hsame, hd, (DaemonStep.closed hstep hd).1] at hleaving ⊢
        exact hleaving
      · exact Or.inr (Or.inl hsame)
    · exact Or.inr (Or.inr (Or.inl halive))

/-- After a signal the daemon accepts nobody, the connections it has run on by
themselves, and `main` returns without waiting for them, whatever the
clients do; after that nothing happens any more. Only a panic comes
before it. -/
theorem daemon_shutdown {processor : Direction → Header → Bytes → Bytes}
    (r : (daemon processor).Behaviour) (hfair : MainScheduled r) {n : ℕ}
    (hclosed : (r.state n).listening = false) :
    ∃ m, n ≤ m ∧
      List.Forall₂ (connection processor).Run (r.state n).conns (r.state m).conns ∧
      (¬ (r.state m).Alive ∨
        (r.state m).stage = .exited ∧ ∀ k, m ≤ k → r.state k = r.state m) := by
  obtain ⟨m, hm, hend⟩ := exits hfair hclosed
  refine ⟨m, hm, ?_, hend.imp_right fun hexited => ⟨hexited, fun k hk => ?_⟩⟩
  · obtain ⟨old, new, hcontinues⟩ := continues_of_run (r.run hm)
    have hnew : new = [] := (hcontinues.closed (Or.inr hclosed)).1
    rw [hcontinues.conns, hnew, List.append_nil]
    exact hcontinues.runs
  · obtain ⟨old, new, hcontinues⟩ := continues_of_run (r.run hk)
    exact hcontinues.exited hexited

/-- A daemon that is stopped while it serves one client. -/
def stopDaemon : ℕ → DaemonState
  | 0 => .initial
  | 1 => ⟨true, .accepting, [.initial]⟩
  | 2 => ⟨false, .accepting, [.initial]⟩
  | 3 => ⟨false, .stopped, [.initial]⟩
  | _ => ⟨false, .exited, [.initial]⟩

def stopDaemonRun (processor : Direction → Header → Bytes → Bytes) :
    (daemon processor).Behaviour where
  state := stopDaemon
  init := rfl
  next n :=
    have halive : ∀ s ∈ [ConnState.initial], s.Alive := List.forall_mem_singleton.mpr alive_initial
    match n with
    | 0 => Or.inr (.accept (by simp [DaemonState.Alive, DaemonState.initial, stopDaemon]) rfl rfl)
    | 1 => Or.inr (.signal halive (by simp [stopDaemon]))
    | 2 => Or.inr (.acceptFails (.wrap "accept unix" .closed) halive rfl fun _ => by decide)
    | 3 => Or.inr (.exit halive rfl)
    | _ + 4 => Or.inl rfl

theorem stopDaemonRun_scheduled (processor : Direction → Header → Bytes → Bytes) :
    MainScheduled (stopDaemonRun processor) := by
  intro n hready
  have hleaving : (stopDaemon (n + 4)).Leaving := (hready (n + 4) (by omega)).2
  simp [stopDaemon, DaemonState.Leaving] at hleaving

theorem daemon_shutdown_oneClient :
    ∃ m, 2 ≤ m ∧
      List.Forall₂ (connection fun _ => passthrough).Run [.initial] (stopDaemon m).conns ∧
      (¬ (stopDaemon m).Alive ∨
        (stopDaemon m).stage = .exited ∧ ∀ k, m ≤ k → stopDaemon k = stopDaemon m) :=
  daemon_shutdown (n := 2) (stopDaemonRun fun _ => passthrough) (stopDaemonRun_scheduled _) rfl

end DraEnv.Virtinjectd
