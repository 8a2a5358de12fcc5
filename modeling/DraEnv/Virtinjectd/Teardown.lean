import DraEnv.Foundation.Liveness
import DraEnv.Virtinjectd.Connection

/-!
How a proxied connection comes down.

A goroutine whose `forward` has returned closes both connections "to
unblock the other goroutine", and the handler waits for the two of them.
That this works is a statement about what must happen, and it rests on
which operations cannot block: a read or a write on a connection this
process has closed, a close, a signal, and a wait on a counter that is
zero. `Ready` is exactly these; a read on an open connection is not among
them, however long the peer says nothing.

Nor is a run of the hooks. `cmd.Run` returns when the hook has exited and
nobody holds its output any more, and the timeout kills the hook but not
what it has started, so closing the connections does not end it. That
hooks return is an assumption of its own (`HooksReturn`).

Nothing is asked of the peers, who may go on sending, nor of the order in
which the three parties get their turn. Both connections are closed
first (`closes`), and from then on every move of any party brings the
handler nearer to its return (`ConnState.distance`).
-/

namespace DraEnv.Virtinjectd

open DraEnv.GoStd DraEnv.Foundation

/-! ### Who can move -/

inductive Party where
  | goroutine (d : Direction)
  | handler
  deriving DecidableEq, Repr

/-- Whether a goroutine runs the hooks, which it does for the define calls of the
client. -/
def Phase.RunsHooks : Direction → Phase → Prop
  | .clientToServer, .processing header _ => isDomainDefineCall header = true
  | _, _ => False

def ConnState.RunsHooks (s : ConnState) : Prop :=
  (s.link .clientToServer).phase.RunsHooks .clientToServer

/-- The next operation of the party cannot block. -/
def Ready (s : ConnState) : Party → Prop
  | .goroutine d =>
      match (s.link d).phase with
      | .reading _ => s.isOpen d.src = false
      | .processing _ _ => ¬ (s.link d).phase.RunsHooks d
      | .writing _ _ => s.isOpen d.dst = false
      | .closingClient | .closingUpstream | .signalling => True
      | .idle | .finished | .panicked => False
  | .handler =>
      match s.handler with
      | .waiting => s.wg = 0
      | .starting _ | .closingUpstream | .closingClient => True
      | .dialing | .returned => False

def Moves : Party → ConnState → ConnState → Prop
  | .goroutine d, s, s' => (s'.link d).phase ≠ (s.link d).phase
  | .handler, s, s' => s'.handler ≠ s.handler

/-- The scheduler lets no party of a living process wait forever. -/
def FairlyScheduled {processor : Direction → Header → Bytes → Bytes}
    (r : (connection processor).Behaviour) : Prop :=
  ∀ party, r.Fair (fun s => s.Alive ∧ Ready s party) (Moves party)

/-- No run of the hooks lasts forever: its output is let go of one day, and the
goroutine gets its turn. -/
def HooksReturn {processor : Direction → Header → Bytes → Bytes}
    (r : (connection processor).Behaviour) : Prop :=
  r.Fair (fun s => s.Alive ∧ s.RunsHooks) (Moves (.goroutine .clientToServer))

@[simp] theorem ConnState.setPhase_handler (s : ConnState) (d : Direction) (phase : Phase) :
    (s.setPhase d phase).handler = s.handler := rfl

@[simp] theorem ConnState.close_handler (s : ConnState) (peer : Peer) :
    (s.close peer).handler = s.handler := rfl

theorem moves_setPhase {s s₁ : ConnState} {d : Direction} {phase : Phase}
    (h : (s.link d).phase ≠ phase) : Moves (.goroutine d) s (s₁.setPhase d phase) := by
  simpa only [Moves, ConnState.setPhase, ConnState.setLink_link_self] using Ne.symm h

/-- On a connection that is closed `WriteMessage` cannot succeed, and it returns. -/
theorem write_closed (processor : Header → Bytes → Bytes) (srcOpen dstOpen : Bool) {l : Link}
    {header : Header} {payload : Bytes} (hphase : l.phase = .writing header payload) :
    ∃ l', LinkStep processor srcOpen dstOpen l l' ∧ l'.phase ≠ l.phase := by
  let dst : Sink := ⟨fun _ _ => some (0, .closed)⟩
  rcases hwrite : writeMessage dst l.delivered header payload with ⟨outcome, delivered⟩
  have hfails : outcome ≠ .returned none ∧ delivered = l.delivered := by
    simp only [writeMessage, Sink.write, dst] at hwrite
    cases hbuf : messageBuffer header payload with
    | none =>
        rw [hbuf] at hwrite
        obtain ⟨rfl, rfl⟩ := Prod.mk.injEq .. ▸ hwrite
        exact ⟨by simp, rfl⟩
    | some buf =>
        rw [hbuf] at hwrite
        obtain ⟨rfl, rfl⟩ := Prod.mk.injEq .. ▸ hwrite
        exact ⟨by simp, by simp⟩
  refine ⟨_, .write hphase hwrite fun _ => hfails, ?_⟩
  rw [hphase]
  cases outcome with
  | panicked => simp [afterWrite]
  | returned err =>
      cases err with
      | none => exact absurd rfl hfails.1
      | some err => simp [afterWrite]

/-- A party that is ready has a move, whatever the peers do. -/
theorem Ready.moves (processor : Direction → Header → Bytes → Bytes) {s : ConnState} {party : Party}
    (h : Ready s party) (halive : s.Alive) : ∃ s', ConnStep processor s s' ∧ Moves party s s' := by
  cases party with
  | goroutine d =>
      cases hphase : (s.link d).phase with
      | idle => simp [Ready, hphase] at h
      | finished => simp [Ready, hphase] at h
      | panicked => simp [Ready, hphase] at h
      | reading acc =>
          refine ⟨_, .forward d halive (.readFails hphase), ?_⟩
          simp [Moves, hphase]
      | processing header payload =>
          refine ⟨_, .forward d halive (.process hphase), ?_⟩
          simp [Moves, hphase]
      | writing header payload =>
          obtain ⟨l, hstep, hmoves⟩ :=
            write_closed (processor d) (s.isOpen d.src) (s.isOpen d.dst) hphase
          refine ⟨_, .forward d halive hstep, ?_⟩
          simpa only [Moves, ConnState.setLink_link_self] using hmoves
      | closingClient =>
          exact ⟨_, .closeClient d halive hphase, moves_setPhase (by simp [hphase])⟩
      | closingUpstream =>
          exact ⟨_, .closeUpstream d halive hphase, moves_setPhase (by simp [hphase])⟩
      | signalling =>
          exact ⟨_, .done d halive hphase, moves_setPhase (by simp [hphase])⟩
  | handler =>
      cases hhandler : s.handler with
      | dialing => simp [Ready, hhandler] at h
      | returned => simp [Ready, hhandler] at h
      | starting d =>
          cases d with
          | clientToServer =>
              exact ⟨_, .startUp halive hhandler, by simp [Moves, hhandler]⟩
          | serverToClient =>
              exact ⟨_, .startDown halive hhandler, by simp [Moves, hhandler]⟩
      | waiting =>
          have hwg : s.wg = 0 := by simpa [Ready, hhandler] using h
          exact ⟨_, .waited halive hhandler hwg, by simp [Moves, hhandler]⟩
      | closingUpstream =>
          exact ⟨_, .deferUpstream halive hhandler, by simp [Moves, hhandler]⟩
      | closingClient =>
          exact ⟨_, .deferClient halive hhandler, by simp [Moves, hhandler]⟩

/-! ### What a step can change -/

/-- How far a goroutine is from its end once the connections are closed. -/
def Phase.rank : Phase → Nat
  | .idle => 6
  | .processing _ _ => 5
  | .reading _ | .writing _ _ => 4
  | .closingClient => 3
  | .closingUpstream => 2
  | .signalling => 1
  | .finished | .panicked => 0

def HandlerPhase.rank : HandlerPhase → Nat
  | .dialing => 6
  | .starting .clientToServer => 5
  | .starting .serverToClient => 4
  | .waiting => 3
  | .closingUpstream => 2
  | .closingClient => 1
  | .returned => 0

/-- Inside `forward`. -/
def Phase.Forwards : Phase → Prop
  | .reading _ | .processing _ _ | .writing _ _ => True
  | _ => False

/-- How a step can leave the goroutine of direction `d`. -/
inductive PhaseMove (s : ConnState) (d : Direction) : Phase → Prop
  | same : PhaseMove s d (s.link d).phase
  | start {d' : Direction} (hphase : (s.link d).phase = .idle)
      (hhandler : s.handler = .starting d') : PhaseMove s d (.reading [])
  /-- A read or a write that succeeds does so on an open connection. -/
  | works {phase : Phase} {peer : Peer} (hphase : (s.link d).phase.Forwards)
      (hopen : s.isOpen peer = true) (hstatus : phase.status = .running) : PhaseMove s d phase
  | processes {header : Header} {payload payload' : Bytes}
      (hphase : (s.link d).phase = .processing header payload) :
      PhaseMove s d (.writing header payload')
  | stops {phase : Phase} (hphase : (s.link d).phase.Forwards) (hto : phase.Stopped) :
      PhaseMove s d phase
  | leaves {phase : Phase} (hphase : (s.link d).phase.Stopped) (hto : phase.Stopped)
      (hrank : phase.rank < (s.link d).phase.rank) : PhaseMove s d phase

theorem Phase.rank_le_of_stopped {phase : Phase} (h : phase.Stopped) : phase.rank ≤ 3 := by
  cases phase with
  | idle => exact absurd h id
  | reading => exact absurd h id
  | processing => exact absurd h id
  | writing => exact absurd h id
  | _ => simp [Phase.rank]

theorem Phase.Forwards.le_rank {phase : Phase} (h : phase.Forwards) : 4 ≤ phase.rank := by
  cases phase with
  | reading => simp [Phase.rank]
  | processing => simp [Phase.rank]
  | writing => simp [Phase.rank]
  | _ => exact absurd h id

theorem LinkStep.phaseMove {processor : Header → Bytes → Bytes} {s : ConnState} {d : Direction}
    {l : Link} (hstep : LinkStep processor (s.isOpen d.src) (s.isOpen d.dst) (s.link d) l) :
    PhaseMove s d l.phase := by
  have hstatus := hstep.status.2
  cases hstep with
  | read hphase hopen => exact .works (by rw [hphase]; trivial) hopen hstatus
  | process hphase => exact .processes hphase
  | readFails hphase => exact .stops (by rw [hphase]; trivial) trivial
  | @write _ _ _ _ outcome hphase _ hclosed =>
      cases outcome with
      | panicked => exact .stops (by rw [hphase]; trivial) trivial
      | returned err =>
          cases err with
          | some err => exact .stops (by rw [hphase]; trivial) trivial
          | none =>
              -- the write succeeded, so it found the destination open
              have hopen : s.isOpen d.dst = true := by
                by_contra hnot
                exact (hclosed (Bool.eq_false_iff.mpr hnot)).1 rfl
              exact .works (by rw [hphase]; trivial) hopen hstatus

/-- A step that acts for one goroutine leaves the other where it was. -/
theorem phaseMove_setLink {s s₁ : ConnState} {d : Direction} {l : Link} (hlink : s₁.link = s.link)
    (h : PhaseMove s d l.phase) (d' : Direction) :
    PhaseMove s d' ((s₁.setLink d l).link d').phase := by
  by_cases heq : d' = d
  · subst heq
    rw [ConnState.setLink_link_self]
    exact h
  · rw [ConnState.setLink_link_of_ne s₁ l heq, hlink]
    exact .same

theorem phaseMove_setPhase {s s₁ : ConnState} {d : Direction} {phase : Phase}
    (hlink : s₁.link = s.link) (h : PhaseMove s d phase) (d' : Direction) :
    PhaseMove s d' ((s₁.setPhase d phase).link d').phase :=
  phaseMove_setLink hlink h d'

theorem ConnStep.phaseMove {processor : Direction → Header → Bytes → Bytes} {s s' : ConnState}
    (hstep : ConnStep processor s s') (hcounting : s.Counting) (d : Direction) :
    PhaseMove s d (s'.link d).phase := by
  cases hstep with
  | send d' bs =>
      have hsame : PhaseMove s d' ((s.link d').receive bs).phase := .same
      exact phaseMove_setLink rfl hsame d
  | forward d' _ hlink => exact phaseMove_setLink rfl hlink.phaseMove d
  | closeClient d' _ hphase =>
      have hleaves : PhaseMove s d' .closingUpstream :=
        .leaves (by rw [hphase]; trivial) trivial (by rw [hphase]; decide)
      exact phaseMove_setPhase (ConnState.close_link s .client) hleaves d
  | closeUpstream d' _ hphase =>
      have hleaves : PhaseMove s d' .signalling :=
        .leaves (by rw [hphase]; trivial) trivial (by rw [hphase]; decide)
      exact phaseMove_setPhase (ConnState.close_link s .upstream) hleaves d
  | done d' _ hphase =>
      have hleaves : PhaseMove s d' .finished :=
        .leaves (by rw [hphase]; trivial) trivial (by rw [hphase]; decide)
      refine phaseMove_setPhase ?_ hleaves d
      rfl
  | startUp _ hhandler =>
      rw [ConnState.Counting, hhandler] at hcounting
      have hstart := PhaseMove.start (phase_eq_idle (hcounting.1 .clientToServer)) hhandler
      refine phaseMove_setPhase ?_ hstart d
      rfl
  | startDown _ hhandler =>
      rw [ConnState.Counting, hhandler] at hcounting
      have hstart := PhaseMove.start (phase_eq_idle hcounting.2.1) hhandler
      refine phaseMove_setPhase ?_ hstart d
      rfl
  | dialFails => exact .same
  | dials => exact .same
  | waited => exact .same
  | deferUpstream => exact .same
  | deferClient => exact .same

/-- The handler stays where it is or goes on. -/
theorem ConnStep.handler_rank {processor : Direction → Header → Bytes → Bytes} {s s' : ConnState}
    (hstep : ConnStep processor s s') :
    s'.handler = s.handler ∨ s'.handler.rank < s.handler.rank := by
  cases hstep with
  | dialFails _ hhandler => exact Or.inr (by simp [hhandler, HandlerPhase.rank])
  | dials _ hhandler => exact Or.inr (by simp [hhandler, HandlerPhase.rank])
  | startUp _ hhandler => exact Or.inr (by simp [hhandler, HandlerPhase.rank])
  | startDown _ hhandler => exact Or.inr (by simp [hhandler, HandlerPhase.rank])
  | waited _ hhandler => exact Or.inr (by simp [hhandler, HandlerPhase.rank])
  | deferUpstream _ hhandler => exact Or.inr (by simp [hhandler, HandlerPhase.rank])
  | deferClient _ hhandler => exact Or.inr (by simp [hhandler, HandlerPhase.rank])
  | _ => exact Or.inl rfl

/-- Only the dial opens a connection or adds to the counter. -/
theorem ConnStep.closed {processor : Direction → Header → Bytes → Bytes} {s s' : ConnState}
    (hstep : ConnStep processor s s') (hhandler : s.handler ≠ .dialing) {peer : Peer}
    (hclosed : s.isOpen peer = false) : s'.isOpen peer = false := by
  cases hstep with
  | dials _ hdialing => exact absurd hdialing hhandler
  | closeClient => exact ConnState.close_isOpen_of_closed _ hclosed
  | closeUpstream => exact ConnState.close_isOpen_of_closed _ hclosed
  | deferUpstream => exact ConnState.close_isOpen_of_closed _ hclosed
  | deferClient => exact ConnState.close_isOpen_of_closed _ hclosed
  | _ => exact hclosed

theorem ConnStep.wg_le {processor : Direction → Header → Bytes → Bytes} {s s' : ConnState}
    (hstep : ConnStep processor s s') (hhandler : s.handler ≠ .dialing) : s'.wg ≤ s.wg := by
  cases hstep with
  | dials _ hdialing => exact absurd hdialing hhandler
  | done => exact Nat.sub_le _ _
  | _ => exact le_rfl

/-! ### Both connections get closed -/

theorem PhaseMove.of_stopped {s : ConnState} {d : Direction} {phase : Phase}
    (h : PhaseMove s d phase) (hstopped : (s.link d).phase.Stopped) :
    phase.Stopped ∧ (phase = (s.link d).phase ∨ phase.rank < (s.link d).phase.rank) := by
  have hrank := Phase.rank_le_of_stopped hstopped
  cases h with
  | same => exact ⟨hstopped, Or.inl rfl⟩
  | start hphase => simp [hphase, Phase.Stopped] at hstopped
  | works hphase => exact absurd hphase.le_rank (by omega)
  | processes hphase => simp [hphase, Phase.Stopped] at hstopped
  | stops hphase => exact absurd hphase.le_rank (by omega)
  | leaves _ hto hlt => exact ⟨hto, Or.inr hlt⟩

/-- Both connections are closed by this process, or were never opened. -/
def ConnState.Closed (s : ConnState) : Prop := ∀ peer, s.isOpen peer = false

/-- The connection is coming down: both sides are closed, or the handler is at its
last deferred call and no goroutine runs. -/
def ConnState.Torn (s : ConnState) : Prop :=
  s.handler ≠ .dialing ∧ (s.handler.rank ≤ 1 ∨ s.Closed)

theorem not_dialing_of_stopped {s : ConnState} (hcounting : s.Counting) {d : Direction}
    (hstopped : (s.link d).phase.Stopped) : s.handler ≠ .dialing := by
  intro hdialing
  rw [ConnState.Counting, hdialing] at hcounting
  simp [phase_eq_idle (hcounting d), Phase.Stopped] at hstopped

/-- A goroutine that has stopped has closed both connections or can close one. -/
theorem torn_or_ready {processor : Direction → Header → Bytes → Bytes} {s : ConnState}
    (h : (connection processor).Reachable s) (halive : s.Alive) {d : Direction}
    (hstopped : (s.link d).phase.Stopped) : s.Torn ∨ Ready s (.goroutine d) := by
  have hdialing := not_dialing_of_stopped (reachable_counting h) hstopped
  have hleaving := reachable_leaving h d
  cases hphase : (s.link d).phase with
  | idle => simp [hphase, Phase.Stopped] at hstopped
  | reading => simp [hphase, Phase.Stopped] at hstopped
  | processing => simp [hphase, Phase.Stopped] at hstopped
  | writing => simp [hphase, Phase.Stopped] at hstopped
  | panicked => exact absurd hphase (halive d)
  | closingClient => exact Or.inr (by simp [Ready, hphase])
  | closingUpstream => exact Or.inr (by simp [Ready, hphase])
  | signalling =>
      exact Or.inl ⟨hdialing, Or.inr fun peer => hleaving peer (by rw [hphase]; trivial)⟩
  | finished =>
      exact Or.inl ⟨hdialing, Or.inr fun peer => hleaving peer (by rw [hphase]; trivial)⟩

/-- What cannot block now cannot block later, so who is ready stays so until it
moves. -/
theorem Ready.keeps {processor : Direction → Header → Bytes → Bytes} {s s' : ConnState}
    {party : Party} (h : Ready s party) (hstep : ConnStep processor s s')
    (hdialing : s.handler ≠ .dialing) : Ready s' party ∨ Moves party s s' := by
  by_cases hmoves : Moves party s s'
  · exact Or.inr hmoves
  left
  cases party with
  | goroutine d =>
      have hsame : (s'.link d).phase = (s.link d).phase := not_not.mp hmoves
      simp only [Ready, hsame] at h ⊢
      cases hphase : (s.link d).phase with
      | reading acc =>
          rw [hphase] at h
          exact hstep.closed hdialing h
      | writing header payload =>
          rw [hphase] at h
          exact hstep.closed hdialing h
      | _ =>
          rw [hphase] at h
          exact h
  | handler =>
      have hsame : s'.handler = s.handler := not_not.mp hmoves
      simp only [Ready, hsame] at h ⊢
      cases hhandler : s.handler with
      | waiting =>
          rw [hhandler] at h
          exact Nat.le_zero.mp (h ▸ hstep.wg_le hdialing)
      | _ =>
          rw [hhandler] at h
          exact h

theorem Ready.keeps_alive {processor : Direction → Header → Bytes → Bytes} {s s' : ConnState}
    {party : Party} (h : s.Alive ∧ Ready s party) (hstep : ConnStep processor s s')
    (hdialing : s.handler ≠ .dialing) :
    (s'.Alive ∧ Ready s' party) ∨ Moves party s s' ∨ ¬ s'.Alive := by
  by_cases halive : s'.Alive
  · obtain hready | hmoves := h.2.keeps hstep hdialing
    · exact Or.inl ⟨halive, hready⟩
    · exact Or.inr (Or.inl hmoves)
  · exact Or.inr (Or.inr halive)

theorem closes {processor : Direction → Header → Bytes → Bytes}
    {r : (connection processor).Behaviour} (hfair : FairlyScheduled r) {n : ℕ} {d : Direction}
    (hstopped : ((r.state n).link d).phase.Stopped) :
    ∃ m, n ≤ m ∧ (¬ (r.state m).Alive ∨ (r.state m).Torn) := by
  have hmove : ∀ s s', (connection processor).Reachable s → (s.link d).phase.Stopped →
      ConnStep processor s s' → (s'.link d).phase.Stopped ∧
        ((s'.link d).phase = (s.link d).phase ∨
          (s'.link d).phase.rank < (s.link d).phase.rank) :=
    fun s s' hreach hs hstep =>
      (hstep.phaseMove (reachable_counting hreach) d).of_stopped hs
  refine System.Behaviour.eventually (ι := Unit) (P := fun s => (s.link d).phase.Stopped)
    (Q := fun s => ¬ s.Alive ∨ s.Torn) (fun s => (s.link d).phase.rank)
    (fun _ => hfair (.goroutine d)) ?_ ?_ ?_ ?_ ?_ hstopped
  · intro s s' hreach hs hstep
    exact Or.inl (hmove s s' hreach hs hstep).1
  · intro s s' hreach hs hstep
    obtain hsame | hlt := (hmove s s' hreach hs hstep).2
    · rw [hsame]
    · exact hlt.le
  · intro _ s s' hreach hs hstep hmoves
    exact (hmove s s' hreach hs hstep).2.resolve_left hmoves
  · intro s hreach hs
    by_cases halive : s.Alive
    · obtain htorn | hready := torn_or_ready hreach halive hs
      · exact Or.inl (Or.inr htorn)
      · exact Or.inr ⟨(), halive, hready⟩
    · exact Or.inl (Or.inl halive)
  · intro _ s s' hreach hs hready hstep
    have hdialing := not_dialing_of_stopped (reachable_counting hreach) hs
    exact (Ready.keeps_alive hready hstep hdialing).imp_right (Or.imp_right Or.inl)

/-! ### The handler returns -/

/-- How many moves are left, at most. -/
def ConnState.distance (s : ConnState) : Nat :=
  s.handler.rank + (s.link .clientToServer).phase.rank + (s.link .serverToClient).phase.rank

theorem HandlerPhase.rank_lt {handler : HandlerPhase} : handler ≠ .dialing ↔ handler.rank < 6 := by
  cases handler with
  | starting d => cases d <;> simp [HandlerPhase.rank]
  | _ => simp [HandlerPhase.rank]

theorem ConnState.Torn.step {processor : Direction → Header → Bytes → Bytes} {s s' : ConnState}
    (h : s.Torn) (hstep : ConnStep processor s s') : s'.Torn := by
  obtain ⟨hdialing, htorn⟩ := h
  have hrank : s'.handler.rank ≤ s.handler.rank := by
    obtain hsame | hlt := hstep.handler_rank
    · rw [hsame]
    · exact hlt.le
  refine ⟨HandlerPhase.rank_lt.mpr (hrank.trans_lt (HandlerPhase.rank_lt.mp hdialing)), ?_⟩
  obtain hlast | hclosed := htorn
  · exact Or.inl (hrank.trans hlast)
  · exact Or.inr fun peer => hstep.closed hdialing (hclosed peer)

/-- At its last deferred call the handler has waited for both goroutines or has
started none. -/
theorem phase_of_last {s : ConnState} (hcounting : s.Counting) (hlast : s.handler.rank ≤ 1)
    (d : Direction) : (s.link d).phase = .finished ∨ (s.link d).phase = .idle := by
  have hboth : (∀ d, s.status d = .finished) ∨ ∀ d, s.status d = .idle := by
    cases hhandler : s.handler with
    | closingClient =>
        rw [ConnState.Counting, hhandler] at hcounting
        exact hcounting
    | returned =>
        rw [ConnState.Counting, hhandler] at hcounting
        exact hcounting
    | starting d => cases d <;> simp [hhandler, HandlerPhase.rank] at hlast
    | _ => simp [hhandler, HandlerPhase.rank] at hlast
  obtain hfinished | hidle := hboth
  · exact Or.inl (phase_eq_finished (hfinished d))
  · exact Or.inr (phase_eq_idle (hidle d))

/-- While the connection comes down a goroutine stays or gets nearer to its end. -/
theorem PhaseMove.of_torn {s : ConnState} {d : Direction} {phase : Phase} (h : PhaseMove s d phase)
    (hcounting : s.Counting) (htorn : s.Torn) :
    phase = (s.link d).phase ∨ phase.rank < (s.link d).phase.rank := by
  cases h with
  | same => exact Or.inl rfl
  | start hphase _ => exact Or.inr (by rw [hphase]; decide)
  | processes hphase => exact Or.inr (by rw [hphase]; simp [Phase.rank])
  | stops hphase hto =>
      have hle := Phase.rank_le_of_stopped hto
      have hge := hphase.le_rank
      exact Or.inr (by omega)
  | leaves _ _ hrank => exact Or.inr hrank
  | @works _ peer hphase hopen _ =>
      exfalso
      obtain hlast | hclosed := htorn.2
      · obtain hend | hend := phase_of_last hcounting hlast d
        · simp [hend, Phase.Forwards] at hphase
        · simp [hend, Phase.Forwards] at hphase
      · simp [hclosed peer] at hopen

theorem ConnState.Torn.distance_le {processor : Direction → Header → Bytes → Bytes}
    {s s' : ConnState} (h : s.Torn) (hcounting : s.Counting) (hstep : ConnStep processor s s') :
    s'.distance ≤ s.distance ∧ ∀ party, Moves party s s' → s'.distance < s.distance := by
  have hhandler := hstep.handler_rank
  have hup := (hstep.phaseMove hcounting .clientToServer).of_torn hcounting h
  have hdown := (hstep.phaseMove hcounting .serverToClient).of_torn hcounting h
  have hle : ∀ {a b : Nat} {p : Prop}, p ∨ a < b → (p → a = b) → a ≤ b :=
    fun hor heq => hor.elim (fun hp => (heq hp).le) Nat.le_of_lt
  have hhandlerLe := hle hhandler fun heq => congrArg HandlerPhase.rank heq
  have hupLe := hle hup fun heq => congrArg Phase.rank heq
  have hdownLe := hle hdown fun heq => congrArg Phase.rank heq
  simp only [ConnState.distance]
  refine ⟨by omega, fun party hmoves => ?_⟩
  cases party with
  | handler =>
      have hlt := hhandler.resolve_left hmoves
      omega
  | goroutine d =>
      cases d with
      | clientToServer =>
          have hlt := hup.resolve_left hmoves
          omega
      | serverToClient =>
          have hlt := hdown.resolve_left hmoves
          omega

theorem ready_of_running {s : ConnState} (halive : s.Alive) (hclosed : s.Closed) {d : Direction}
    (hrunning : s.status d = .running) : Ready s (.goroutine d) ∨ s.RunsHooks := by
  simp only [ConnState.status] at hrunning
  cases hphase : (s.link d).phase with
  | idle => simp [hphase, Phase.status] at hrunning
  | finished => simp [hphase, Phase.status] at hrunning
  | panicked => exact absurd hphase (halive d)
  | reading => exact Or.inl (by simpa only [Ready, hphase] using hclosed d.src)
  | writing => exact Or.inl (by simpa only [Ready, hphase] using hclosed d.dst)
  | processing header payload =>
      by_cases hhooks : (s.link d).phase.RunsHooks d
      · cases d with
        | clientToServer => exact Or.inr hhooks
        | serverToClient => exact absurd hhooks (by rw [hphase]; exact id)
      · exact Or.inl (by simpa only [Ready, hphase] using hhooks)
  | _ => exact Or.inl (by simp only [Ready, hphase])

/-- While the connection comes down someone can move or the hooks run, until the
handler has returned. -/
theorem ConnState.Torn.ready {s : ConnState} (h : s.Torn) (hcounting : s.Counting)
    (halive : s.Alive) : s.handler = .returned ∨ (∃ party, Ready s party) ∨ s.RunsHooks := by
  cases hhandler : s.handler with
  | returned => exact Or.inl rfl
  | dialing => exact absurd hhandler h.1
  | starting d => exact Or.inr (Or.inl ⟨.handler, by simp only [Ready, hhandler]⟩)
  | closingUpstream => exact Or.inr (Or.inl ⟨.handler, by simp only [Ready, hhandler]⟩)
  | closingClient => exact Or.inr (Or.inl ⟨.handler, by simp only [Ready, hhandler]⟩)
  | waiting =>
      right
      have hclosed : s.Closed := h.2.resolve_left (by simp [hhandler, HandlerPhase.rank])
      rw [ConnState.Counting, hhandler] at hcounting
      obtain ⟨hstarted, hwg⟩ := hcounting
      by_cases hzero : s.wg = 0
      · exact Or.inl ⟨.handler, by simpa only [Ready, hhandler] using hzero⟩
      -- the counter is not zero, so one of the goroutines has not signalled
      have hrunning : ∃ d, s.status d = .running := by
        by_contra hnone
        push Not at hnone
        have hfinished : ∀ d, s.status d = .finished := fun d => by
          cases hstatus : s.status d with
          | idle => exact absurd hstatus (hstarted d)
          | running => exact absurd hstatus (hnone d)
          | finished => rfl
        simp [hfinished, Status.pending] at hwg
        exact hzero hwg
      obtain ⟨d, hd⟩ := hrunning
      exact (ready_of_running halive hclosed hd).imp_left fun hready => ⟨.goroutine d, hready⟩

/-- Those who bring the connection down: the parties, and the hooks. -/
def Progresses (s : ConnState) : Option Party → Prop
  | some party => s.Alive ∧ Ready s party
  | none => s.Alive ∧ s.RunsHooks

def Advances : Option Party → ConnState → ConnState → Prop
  | some party => Moves party
  | none => Moves (.goroutine .clientToServer)

theorem Progresses.keeps {processor : Direction → Header → Bytes → Bytes} {s s' : ConnState}
    {i : Option Party} (h : Progresses s i) (hstep : ConnStep processor s s')
    (hdialing : s.handler ≠ .dialing) : Progresses s' i ∨ Advances i s s' ∨ ¬ s'.Alive := by
  cases i with
  | some party => exact Ready.keeps_alive h hstep hdialing
  | none =>
      by_cases halive : s'.Alive
      · by_cases hmoves : Moves (.goroutine .clientToServer) s s'
        · exact Or.inr (Or.inl hmoves)
        · have hsame : (s'.link .clientToServer).phase = (s.link .clientToServer).phase :=
            not_not.mp hmoves
          refine Or.inl ⟨halive, ?_⟩
          rw [ConnState.RunsHooks, hsame]
          exact h.2
      · exact Or.inr (Or.inr halive)

theorem returns {processor : Direction → Header → Bytes → Bytes}
    {r : (connection processor).Behaviour} (hfair : FairlyScheduled r) (hhooks : HooksReturn r)
    {n : ℕ} (htorn : (r.state n).Torn) :
    ∃ m, n ≤ m ∧ (¬ (r.state m).Alive ∨ (r.state m).handler = .returned) := by
  have hall : ∀ i, r.Fair (fun s => Progresses s i) (Advances i) := by
    intro i
    cases i with
    | some party => exact hfair party
    | none => exact hhooks
  refine System.Behaviour.eventually (P := ConnState.Torn)
    (Q := fun s => ¬ s.Alive ∨ s.handler = .returned) ConnState.distance hall ?_ ?_ ?_ ?_ ?_ htorn
  · intro s s' _ hs hstep
    exact Or.inl (hs.step hstep)
  · intro s s' hreach hs hstep
    exact (hs.distance_le (reachable_counting hreach) hstep).1
  · intro i s s' hreach hs hstep hmoves
    have hlt := (hs.distance_le (reachable_counting hreach) hstep).2
    cases i with
    | some party => exact hlt party hmoves
    | none => exact hlt (.goroutine .clientToServer) hmoves
  · intro s hreach hs
    by_cases halive : s.Alive
    · obtain hreturned | ⟨party, hready⟩ | hruns := hs.ready (reachable_counting hreach) halive
      · exact Or.inl (Or.inr hreturned)
      · exact Or.inr ⟨some party, halive, hready⟩
      · exact Or.inr ⟨none, halive, hruns⟩
    · exact Or.inl (Or.inl halive)
  · intro i s s' _ hs hready hstep
    exact (hready.keeps hstep hs.1).imp_right (Or.imp_right Or.inl)

/-- What the handler has to close itself: the client by its last deferred call, and
the upstream only if it was dialed. -/
structure ConnState.Shut (s : ConnState) : Prop where
  client : s.handler = .returned → s.isOpen .client = false
  upstream : (∀ d, (s.link d).phase = .idle) → (∀ d, s.handler ≠ .starting d) →
    s.isOpen .upstream = false

theorem PhaseMove.idle {s : ConnState} {d : Direction} {phase : Phase} (h : PhaseMove s d phase)
    (hidle : phase = .idle) : (s.link d).phase = .idle := by
  cases h with
  | same => exact hidle
  | start => simp at hidle
  | works _ _ hstatus => simp [hidle, Phase.status] at hstatus
  | processes => simp at hidle
  | stops _ hto => simp [hidle, Phase.Stopped] at hto
  | leaves _ hto => simp [hidle, Phase.Stopped] at hto

theorem ConnStep.shut {processor : Direction → Header → Bytes → Bytes} {s s' : ConnState}
    (hstep : ConnStep processor s s') (hcounting : s.Counting) (h : s.Shut) : s'.Shut where
  client hreturned := by
    cases hstep with
    | deferClient => exact ConnState.close_isOpen_self _ .client
    | dialFails => simp at hreturned
    | dials => simp at hreturned
    | startUp => simp at hreturned
    | startDown => simp at hreturned
    | waited => simp at hreturned
    | deferUpstream => simp at hreturned
    | closeClient => exact ConnState.close_isOpen_self s .client
    | closeUpstream => exact ConnState.close_isOpen_of_closed .upstream (h.client hreturned)
    | _ => exact h.client hreturned
  upstream hidle hstarting := by
    have hidle' : ∀ d, (s.link d).phase = .idle := fun d =>
      (hstep.phaseMove hcounting d).idle (hidle d)
    cases hstep with
    | closeClient d _ hphase => simp [hidle' d] at hphase
    | closeUpstream d _ hphase => simp [hidle' d] at hphase
    | dialFails _ hhandler => exact h.upstream hidle' (by simp [hhandler])
    | dials => exact absurd rfl (hstarting .clientToServer)
    | startUp => exact absurd rfl (hstarting .serverToClient)
    | startDown =>
        have hdown := hidle .serverToClient
        simp [ConnState.setPhase] at hdown
    | waited _ hhandler hwg =>
        rw [ConnState.Counting, hhandler, hwg] at hcounting
        have hup := phase_eq_finished (Counts.waited hcounting .clientToServer)
        simp [hidle' .clientToServer] at hup
    | deferUpstream => exact ConnState.close_isOpen_self _ .upstream
    | deferClient _ hhandler =>
        exact ConnState.close_isOpen_of_closed .client (h.upstream hidle' (by simp [hhandler]))
    | _ => exact h.upstream hidle' hstarting

theorem reachable_shut {processor : Direction → Header → Bytes → Bytes} {s : ConnState}
    (h : (connection processor).Reachable s) : s.Shut := by
  refine h.invariant (P := ConnState.Shut) ?_ ?_
  · rintro s rfl
    exact ⟨fun hreturned => by simp [ConnState.initial] at hreturned, fun _ _ => rfl⟩
  · intro s s' hreach hshut hstep
    exact ConnStep.shut hstep (reachable_counting hreach) hshut

theorem closed_of_returned {processor : Direction → Header → Bytes → Bytes} {s : ConnState}
    (h : (connection processor).Reachable s) (hreturned : s.handler = .returned) : s.Closed := by
  obtain hfinished | hidle := handler_returned h hreturned
  · exact fun peer => closed_of_finished h (hfinished .clientToServer) peer
  · intro peer
    cases peer with
    | client => exact (reachable_shut h).client hreturned
    | upstream =>
        exact (reachable_shut h).upstream (fun d => (hidle d).1) (by simp [hreturned])

/-! ### Results -/

/-- A forwarder has stopped, or the dial has failed. -/
def ConnState.Ending (s : ConnState) : Prop :=
  (∃ d, (s.link d).phase.Stopped) ∨ s.handler = .closingClient

/-- The handler has returned, with nothing left open and no goroutine running. -/
def ConnState.Over (s : ConnState) : Prop :=
  s.handler = .returned ∧ s.Closed ∧
    ((∀ d, (s.link d).phase = .finished) ∨ ∀ d, (s.link d).phase = .idle)

theorem torn_of_closingClient {s : ConnState} (h : s.handler = .closingClient) : s.Torn :=
  ⟨by simp [h], Or.inl (by simp [h, HandlerPhase.rank])⟩

def definePayload : Bytes := encodeXDRString (lit "<a/>")

/-- The direction of a client that has sent a define call, or is about to. -/
def defineLink (unread : Bytes) (phase : Phase) (writeFailed : Bool) : Link :=
  ⟨frame defineFlagsCall definePayload, unread, phase, [], writeFailed⟩

def silentLink (phase : Phase) : Link := ⟨[], [], phase, [], false⟩

/-- One run to its end: libvirtd hangs up while the hooks run for a define call. Its
goroutine leaves and closes both connections; when the hooks have returned the
write fails, and the other one leaves too. -/
def hangup : ℕ → ConnState
  | 0 => .initial
  | 1 => .of .initial .initial true true (.starting .clientToServer) 2
  | 2 => .of (silentLink (.reading [])) .initial true true (.starting .serverToClient) 2
  | 3 => .of (silentLink (.reading [])) (silentLink (.reading [])) true true .waiting 2
  | 4 =>
      .of (defineLink (frame defineFlagsCall definePayload) (.reading []) false)
        (silentLink (.reading [])) true true .waiting 2
  | 5 =>
      .of (defineLink ((frame defineFlagsCall definePayload).drop 4)
          (.reading ((frame defineFlagsCall definePayload).take 4)) false)
        (silentLink (.reading [])) true true .waiting 2
  | 6 =>
      .of (defineLink [] (.processing defineFlagsCall definePayload) false)
        (silentLink (.reading [])) true true .waiting 2
  | 7 =>
      .of (defineLink [] (.processing defineFlagsCall definePayload) false)
        (silentLink .closingClient) true true .waiting 2
  | 8 =>
      .of (defineLink [] (.processing defineFlagsCall definePayload) false)
        (silentLink .closingUpstream) false true .waiting 2
  | 9 =>
      .of (defineLink [] (.processing defineFlagsCall definePayload) false)
        (silentLink .signalling) false false .waiting 2
  | 10 =>
      .of (defineLink [] (.processing defineFlagsCall definePayload) false)
        (silentLink .finished) false false .waiting 1
  | 11 =>
      .of (defineLink [] (.writing defineFlagsCall definePayload) false)
        (silentLink .finished) false false .waiting 1
  | 12 => .of (defineLink [] .closingClient true) (silentLink .finished) false false .waiting 1
  | 13 => .of (defineLink [] .closingUpstream true) (silentLink .finished) false false .waiting 1
  | 14 => .of (defineLink [] .signalling true) (silentLink .finished) false false .waiting 1
  | 15 => .of (defineLink [] .finished true) (silentLink .finished) false false .waiting 0
  | 16 => .of (defineLink [] .finished true) (silentLink .finished) false false .closingUpstream 0
  | 17 => .of (defineLink [] .finished true) (silentLink .finished) false false .closingClient 0
  | _ => .of (defineLink [] .finished true) (silentLink .finished) false false .returned 0

theorem ConnStep.to {processor : Direction → Header → Bytes → Bytes} {s s' t : ConnState}
    (hstep : ConnStep processor s s')
    (hparts : ConnState.of (s'.link .clientToServer) (s'.link .serverToClient) (s'.isOpen .client)
      (s'.isOpen .upstream) s'.handler s'.wg = t) : ConnStep processor s t := by
  rwa [← hparts, ConnState.of_parts]

def closedSink : Sink := ⟨fun _ _ => some (0, .closed)⟩

theorem hangup_step (n : ℕ) (hn : n < 18) :
    ConnStep (processors .w64 (filterHost id) oneHook) (hangup n) (hangup (n + 1)) := by
  have halive : (hangup n).Alive := by
    intro d
    interval_cases n <;> cases d <;> decide
  match n with
  | 0 => exact .to (.dials halive rfl) rfl
  | 1 => exact .to (.startUp halive rfl) rfl
  | 2 => exact .to (.startDown halive rfl) rfl
  | 3 => exact .to (.send .clientToServer (frame defineFlagsCall definePayload)) rfl
  | 4 =>
      exact .to (.forward .clientToServer halive
        (.read (c := (frame defineFlagsCall definePayload).take 4) (n := 4) rfl rfl rfl (by decide)
          rfl)) rfl
  | 5 =>
      exact .to (.forward .clientToServer halive
        (.read (c := (frame defineFlagsCall definePayload).drop 4) (n := 32) rfl rfl rfl
          (by decide) rfl)) rfl
  | 6 => exact .to (.forward .serverToClient halive (.readFails rfl)) rfl
  | 7 => exact .to (.closeClient .serverToClient halive rfl) rfl
  | 8 => exact .to (.closeUpstream .serverToClient halive rfl) rfl
  | 9 => exact .to (.done .serverToClient halive rfl) rfl
  | 10 => exact .to (.forward .clientToServer halive (.process rfl)) rfl
  | 11 =>
      exact .to (.forward .clientToServer halive
        (.write rfl (rfl : writeMessage closedSink _ _ _ = _) fun _ => ⟨nofun, rfl⟩)) rfl
  | 12 => exact .to (.closeClient .clientToServer halive rfl) rfl
  | 13 => exact .to (.closeUpstream .clientToServer halive rfl) rfl
  | 14 => exact .to (.done .clientToServer halive rfl) rfl
  | 15 => exact .to (.waited halive rfl rfl) rfl
  | 16 => exact .to (.deferUpstream halive rfl) rfl
  | 17 => exact .to (.deferClient halive rfl) rfl
  | n + 18 => omega

def hangupRun : (connection (processors .w64 (filterHost id) oneHook)).Behaviour where
  state := hangup
  init := rfl
  next n := by
    by_cases hn : n < 18
    · exact Or.inr (hangup_step n hn)
    · obtain ⟨k, rfl⟩ := Nat.exists_eq_add_of_le (Nat.not_lt.mp hn)
      rw [Nat.add_comm 18 k]
      exact Or.inl rfl

theorem hangupRun_fair : FairlyScheduled hangupRun := by
  intro party n hready
  have hlast := (hready (n + 18) (by omega)).2
  cases party with
  | goroutine d => cases d <;> exact absurd hlast id
  | handler => exact absurd hlast id

theorem hangupRun_hooksReturn : HooksReturn hangupRun := by
  intro n hruns
  exact absurd (hruns (n + 18) (by omega)).2 id

/-- No deadlock on the way down: as long as the handler has not returned and no hook
is run, someone has a move that waits for nobody. -/
theorem teardown_enabled {w : IntSize} {host : Host} {hooks : HookChain} {s : ConnState}
    (hs : (connection (processors w host hooks)).Reachable s) (halive : s.Alive)
    (hending : s.Ending) (hreturned : s.handler ≠ .returned) (hhooks : ¬ s.RunsHooks) :
    ∃ party s', Ready s party ∧ ConnStep (processors w host hooks) s s' ∧ Moves party s s' := by
  have hready : ∃ party, Ready s party := by
    have hsomeone : s.Torn → ∃ party, Ready s party := fun htorn =>
      ((htorn.ready (reachable_counting hs) halive).resolve_left hreturned).resolve_right hhooks
    obtain ⟨d, hstopped⟩ | hlast := hending
    · obtain htorn | hready := torn_or_ready hs halive hstopped
      · exact hsomeone htorn
      · exact ⟨.goroutine d, hready⟩
    · exact hsomeone (torn_of_closingClient hlast)
  obtain ⟨party, hparty⟩ := hready
  obtain ⟨s', hstep, hmoves⟩ := hparty.moves (processors w host hooks) halive
  exact ⟨party, s', hparty, hstep, hmoves⟩

/-- Here the hooks have just returned, after everything was closed. -/
theorem teardown_enabled_hangup :
    ∃ party s', Ready (hangup 11) party ∧
      ConnStep (processors .w64 (filterHost id) oneHook) (hangup 11) s' ∧
      Moves party (hangup 11) s' :=
  teardown_enabled (hangupRun.reachable 11) (by intro d; cases d <;> decide)
    (Or.inl ⟨.serverToClient, trivial⟩) (by decide) id

/-- However the peers behave and whatever order the parties are scheduled in: if
hooks return, then once one direction has stopped, or the dial has failed, the
handler returns with both connections closed and no goroutine left behind,
unless the process panics first. -/
theorem teardown_completes {w : IntSize} {host : Host} {hooks : HookChain}
    (r : (connection (processors w host hooks)).Behaviour) (hfair : FairlyScheduled r)
    (hhooks : HooksReturn r) {n : ℕ} (hending : (r.state n).Ending) :
    ∃ m, n ≤ m ∧ (¬ (r.state m).Alive ∨ (r.state m).Over) := by
  have hover : ∀ k, n ≤ k → (r.state k).Torn →
      ∃ m, n ≤ m ∧ (¬ (r.state m).Alive ∨ (r.state m).Over) := by
    intro k hk htorn
    obtain ⟨m, hm, hdead | hreturned⟩ := returns hfair hhooks htorn
    · exact ⟨m, hk.trans hm, Or.inl hdead⟩
    · have hreach := r.reachable m
      refine ⟨m, hk.trans hm, Or.inr ⟨hreturned, closed_of_returned hreach hreturned, ?_⟩⟩
      exact (handler_returned hreach hreturned).imp_right fun hidle d => (hidle d).1
  obtain ⟨d, hstopped⟩ | hlast := hending
  · obtain ⟨k, hk, hdead | htorn⟩ := closes hfair hstopped
    · exact ⟨k, hk, Or.inl hdead⟩
    · exact hover k hk htorn
  · exact hover n le_rfl (torn_of_closingClient hlast)

/-- The hooks still run when the other direction stops. -/
theorem teardown_completes_hangup :
    (hangup 7).RunsHooks ∧ ((hangup 7).link .serverToClient).phase = .closingClient ∧
      ∃ m, 7 ≤ m ∧ (¬ (hangup m).Alive ∨ (hangup m).Over) :=
  ⟨rfl, rfl, teardown_completes hangupRun hangupRun_fair hangupRun_hooksReturn
    (Or.inl ⟨.serverToClient, trivial⟩)⟩

end DraEnv.Virtinjectd
