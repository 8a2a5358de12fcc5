import DraEnv.Foundation.Transition
import DraEnv.Virtinjectd.Link

/-!
`handleConnection`: two forwarders, two connections and a wait group,
under any interleaving.

The handler dials the upstream, starts one goroutine a direction and
waits for both. Each goroutine runs `forward` until it fails, closes both
connections and signals the wait group; closing is how one direction
stops the other. A state holds the two directions, which connections are
open and where the handler stands, and a step is one action of one party.

The safety results fall into two groups. What is delivered comes from the
invariant of a single direction (`links_good`). Who is closed or finished
when comes from the order in which a goroutine leaves (`Leaving`) and
from what the counter counts (`Counting`).
-/

namespace DraEnv.Virtinjectd

open DraEnv.GoStd DraEnv.Foundation

inductive Direction where
  | clientToServer
  | serverToClient
  deriving DecidableEq, Repr

inductive Peer where
  | client
  | upstream
  deriving DecidableEq, Repr

def Direction.src : Direction → Peer
  | .clientToServer => .client
  | .serverToClient => .upstream

def Direction.dst : Direction → Peer
  | .clientToServer => .upstream
  | .serverToClient => .client

/-- Where `handleConnection` stands. -/
inductive HandlerPhase where
  | dialing
  /-- `wg.Add(2)` is done and the next `go` statement starts this direction. -/
  | starting (d : Direction)
  /-- In `wg.Wait()`. -/
  | waiting
  /-- The deferred calls, last one first. -/
  | closingUpstream
  | closingClient
  | returned
  deriving DecidableEq, Repr

structure ConnState where
  link : Direction → Link
  isOpen : Peer → Bool
  handler : HandlerPhase
  wg : Nat

namespace ConnState

def setLink (s : ConnState) (d : Direction) (l : Link) : ConnState :=
  { s with link := Function.update s.link d l }

def setPhase (s : ConnState) (d : Direction) (phase : Phase) : ConnState :=
  s.setLink d { s.link d with phase := phase }

def close (s : ConnState) (peer : Peer) : ConnState :=
  { s with isOpen := Function.update s.isOpen peer false }

/-- No goroutine has panicked. -/
def Alive (s : ConnState) : Prop := ∀ d, (s.link d).phase ≠ .panicked

/-- A client has been accepted and nothing has happened yet. -/
def initial : ConnState where
  link _ := Link.initial
  isOpen peer := peer == .client
  handler := .dialing
  wg := 0

end ConnState

/-- The steps of a connection whose directions process messages by
`processor`. -/
inductive ConnStep (processor : Direction → Header → Bytes → Bytes) :
    ConnState → ConnState → Prop
  /-- A peer sends bytes, at any time. -/
  | send {s : ConnState} (d : Direction) (bs : Bytes) :
      ConnStep processor s (s.setLink d ((s.link d).receive bs))
  | forward {s : ConnState} (d : Direction) {l : Link} (halive : s.Alive)
      (hstep : LinkStep (processor d) (s.isOpen d.src) (s.isOpen d.dst) (s.link d) l) :
      ConnStep processor s (s.setLink d l)
  /-- `clientConn.Close()` of a goroutine. -/
  | closeClient {s : ConnState} (d : Direction) (halive : s.Alive)
      (hphase : (s.link d).phase = .closingClient) :
      ConnStep processor s ((s.close .client).setPhase d .closingUpstream)
  /-- `upstreamConn.Close()` of a goroutine. -/
  | closeUpstream {s : ConnState} (d : Direction) (halive : s.Alive)
      (hphase : (s.link d).phase = .closingUpstream) :
      ConnStep processor s ((s.close .upstream).setPhase d .signalling)
  /-- `wg.Done()` -/
  | done {s : ConnState} (d : Direction) (halive : s.Alive)
      (hphase : (s.link d).phase = .signalling) :
      ConnStep processor s (({ s with wg := s.wg - 1 } : ConnState).setPhase d .finished)
  | dialFails {s : ConnState} (halive : s.Alive) (hhandler : s.handler = .dialing) :
      ConnStep processor s { s with handler := .closingClient }
  | dials {s : ConnState} (halive : s.Alive) (hhandler : s.handler = .dialing) :
      ConnStep processor s
        { s with
          isOpen := Function.update s.isOpen .upstream true
          handler := .starting .clientToServer
          wg := 2 }
  | startUp {s : ConnState} (halive : s.Alive)
      (hhandler : s.handler = .starting .clientToServer) :
      ConnStep processor s
        (({ s with handler := .starting .serverToClient } : ConnState).setPhase .clientToServer
          (.reading []))
  | startDown {s : ConnState} (halive : s.Alive)
      (hhandler : s.handler = .starting .serverToClient) :
      ConnStep processor s
        (({ s with handler := .waiting } : ConnState).setPhase .serverToClient (.reading []))
  /-- `wg.Wait()` returns. -/
  | waited {s : ConnState} (halive : s.Alive) (hhandler : s.handler = .waiting)
      (hwg : s.wg = 0) : ConnStep processor s { s with handler := .closingUpstream }
  | deferUpstream {s : ConnState} (halive : s.Alive) (hhandler : s.handler = .closingUpstream) :
      ConnStep processor s (({ s with handler := .closingClient } : ConnState).close .upstream)
  | deferClient {s : ConnState} (halive : s.Alive) (hhandler : s.handler = .closingClient) :
      ConnStep processor s (({ s with handler := .returned } : ConnState).close .client)

/-- The connection as a transition system. -/
def connection (processor : Direction → Header → Bytes → Bytes) : System ConnState where
  init s := s = ConnState.initial
  step := ConnStep processor

/-- The processors `handleConnection` hands to its two goroutines. -/
def processors (w : IntSize) (host : Host) (hooks : HookChain) :
    Direction → Header → Bytes → Bytes
  | .clientToServer => intercept w host hooks
  | .serverToClient => passthrough

namespace ConnState

@[simp] theorem setLink_link_self (s : ConnState) (d : Direction) (l : Link) :
    (s.setLink d l).link d = l := by
  simp only [setLink, Function.update_self]

theorem setLink_link_of_ne (s : ConnState) {d d' : Direction} (l : Link) (h : d' ≠ d) :
    (s.setLink d l).link d' = s.link d' := by
  simp only [setLink, Function.update_of_ne h]

@[simp] theorem close_link (s : ConnState) (peer : Peer) : (s.close peer).link = s.link := rfl

theorem close_isOpen_self (s : ConnState) (peer : Peer) : (s.close peer).isOpen peer = false := by
  simp only [close, Function.update_self]

/-- What is closed stays closed when something is closed. -/
theorem close_isOpen_of_closed {s : ConnState} {peer' : Peer} (peer : Peer)
    (h : s.isOpen peer' = false) : (s.close peer).isOpen peer' = false := by
  by_cases heq : peer' = peer
  · rw [heq, close_isOpen_self]
  · simpa only [close, Function.update_of_ne heq] using h

end ConnState

/-! ### Counting -/

inductive Status where
  | idle
  | running
  | finished
  deriving DecidableEq, Repr

def Phase.status : Phase → Status
  | .idle => .idle
  | .finished => .finished
  | _ => .running

theorem phase_eq_idle {phase : Phase} (h : phase.status = .idle) : phase = .idle := by
  cases phase with
  | idle => rfl
  | _ => simp [Phase.status] at h

theorem phase_eq_finished {phase : Phase} (h : phase.status = .finished) : phase = .finished := by
  cases phase with
  | finished => rfl
  | _ => simp [Phase.status] at h

/-- What a goroutine still contributes to the wait group. -/
def Status.pending : Status → Nat
  | .finished => 0
  | _ => 1

theorem status_of_pending {status : Status} (h : status.pending = 0) : status = .finished := by
  cases status with
  | finished => rfl
  | _ => simp [Status.pending] at h

def ConnState.status (s : ConnState) (d : Direction) : Status := (s.link d).phase.status

/-- How the goroutines and the counter stand for each stage of the handler. It
goes on behind `wg.Wait()` only when both have finished, and leaves without
waiting only when the dial failed and none was started. -/
def Counts (handler : HandlerPhase) (wg : Nat) (status : Direction → Status) : Prop :=
  match handler with
  | .dialing => ∀ d, status d = .idle
  | .starting .clientToServer => (∀ d, status d = .idle) ∧ wg = 2
  | .starting .serverToClient =>
      status .clientToServer ≠ .idle ∧ status .serverToClient = .idle ∧
        wg = (status .clientToServer).pending + 1
  | .waiting =>
      (∀ d, status d ≠ .idle) ∧
        wg = (status .clientToServer).pending + (status .serverToClient).pending
  | .closingUpstream => ∀ d, status d = .finished
  | .closingClient | .returned => (∀ d, status d = .finished) ∨ ∀ d, status d = .idle

def ConnState.Counting (s : ConnState) : Prop := Counts s.handler s.wg s.status

theorem LinkStep.status {processor : Header → Bytes → Bytes} {srcOpen dstOpen : Bool} {l l' : Link}
    (hstep : LinkStep processor srcOpen dstOpen l l') :
    l.phase.status = .running ∧ l'.phase.status = .running := by
  cases hstep with
  | @read acc c rest n hphase _ _ _ _ =>
      refine ⟨by rw [hphase]; rfl, ?_⟩
      simp only [afterRead]
      cases readProgress (acc ++ c) <;> rfl
  | readFails hphase => exact ⟨by rw [hphase]; rfl, rfl⟩
  | process hphase => exact ⟨by rw [hphase]; rfl, rfl⟩
  | @write _ _ _ _ outcome hphase _ _ =>
      refine ⟨by rw [hphase]; rfl, ?_⟩
      cases outcome with
      | returned err => cases err <;> rfl
      | panicked => rfl

theorem ConnState.status_setLink {s : ConnState} {d : Direction} {l : Link} :
    (s.setLink d l).status = Function.update s.status d l.phase.status := by
  funext d'
  by_cases heq : d' = d
  · subst heq
    rw [ConnState.status, ConnState.setLink_link_self, Function.update_self]
  · rw [ConnState.status, ConnState.setLink_link_of_ne s l heq, Function.update_of_ne heq,
      ConnState.status]

/-- A step that leaves the status of its direction alone leaves the counting
alone. -/
theorem ConnState.Counting.setLink {s : ConnState} {d : Direction} {l : Link} (h : s.Counting)
    (hstatus : l.phase.status = s.status d) : (s.setLink d l).Counting := by
  rw [ConnState.Counting, ConnState.status_setLink, hstatus, Function.update_eq_self]
  exact h

/-- One goroutine signals: the counter and what it counts go down together. -/
theorem Counts.done {handler : HandlerPhase} {wg : Nat} {status : Direction → Status}
    {d : Direction} (h : Counts handler wg status) (hd : status d = .running) :
    Counts handler (wg - 1) (Function.update status d .finished) := by
  have hnotIdle : ¬ ∀ d, status d = .idle := fun hall => by simp [hall d] at hd
  have hnotFinished : ¬ ∀ d, status d = .finished := fun hall => by simp [hall d] at hd
  cases handler with
  | dialing => exact absurd h hnotIdle
  | closingUpstream => exact absurd h hnotFinished
  | closingClient => exact (h.elim hnotFinished hnotIdle).elim
  | returned => exact (h.elim hnotFinished hnotIdle).elim
  | starting d' =>
      cases d' with
      | clientToServer => exact absurd h.1 hnotIdle
      | serverToClient =>
          obtain ⟨hup, hdown, rfl⟩ := h
          cases d with
          | serverToClient => simp [hdown] at hd
          | clientToServer => simp [Counts, hdown, hd, Status.pending]
  | waiting =>
      obtain ⟨hstarted, rfl⟩ := h
      refine ⟨fun d' => ?_, ?_⟩
      · by_cases heq : d' = d
        · rw [heq, Function.update_self]
          decide
        · rw [Function.update_of_ne heq]
          exact hstarted d'
      · cases d with
        | clientToServer => simp [hd, Status.pending]
        | serverToClient => simp [hd, Status.pending]

/-- The first goroutine starts. -/
theorem Counts.startUp {wg : Nat} {status : Direction → Status}
    (h : Counts (.starting .clientToServer) wg status) :
    Counts (.starting .serverToClient) wg (Function.update status .clientToServer .running) := by
  obtain ⟨hidle, hwg⟩ := h
  refine ⟨?_, ?_, ?_⟩
  · rw [Function.update_self]
    decide
  · rw [Function.update_of_ne (by decide)]
    exact hidle .serverToClient
  · rw [Function.update_self]
    exact hwg

/-- The second goroutine starts; the first may have run, and even finished. -/
theorem Counts.startDown {wg : Nat} {status : Direction → Status}
    (h : Counts (.starting .serverToClient) wg status) :
    Counts .waiting wg (Function.update status .serverToClient .running) := by
  obtain ⟨hup, -, hwg⟩ := h
  refine ⟨fun d => ?_, ?_⟩
  · cases d with
    | clientToServer =>
        rw [Function.update_of_ne (by decide)]
        exact hup
    | serverToClient =>
        rw [Function.update_self]
        decide
  · rw [Function.update_self, Function.update_of_ne (by decide)]
    exact hwg

/-- A counter at zero means that both goroutines have finished. -/
theorem Counts.waited {status : Direction → Status} (h : Counts .waiting 0 status) (d : Direction) :
    status d = .finished := by
  obtain ⟨-, hcount⟩ := h
  apply status_of_pending
  cases d with
  | clientToServer => omega
  | serverToClient => omega

/-- Every step keeps the counting. -/
theorem ConnStep.counting {processor : Direction → Header → Bytes → Bytes} {s s' : ConnState}
    (hstep : ConnStep processor s s') (h : s.Counting) : s'.Counting := by
  cases hstep with
  | send d bs => exact h.setLink rfl
  | forward d _ hlink => exact h.setLink (hlink.status.2.trans hlink.status.1.symm)
  | closeClient d _ hphase =>
      have hclosed : (s.close .client).Counting := h
      exact hclosed.setLink (by rw [ConnState.status, ConnState.close_link, hphase]; rfl)
  | closeUpstream d _ hphase =>
      have hclosed : (s.close .upstream).Counting := h
      exact hclosed.setLink (by rw [ConnState.status, ConnState.close_link, hphase]; rfl)
  | done d _ hphase =>
      rw [ConnState.Counting, ConnState.setPhase, ConnState.status_setLink]
      exact Counts.done h (by rw [ConnState.status, hphase]; rfl)
  | dialFails _ hhandler =>
      rw [ConnState.Counting, hhandler] at h
      exact Or.inr h
  | dials _ hhandler =>
      rw [ConnState.Counting, hhandler] at h
      exact ⟨h, rfl⟩
  | startUp _ hhandler =>
      rw [ConnState.Counting, hhandler] at h
      rw [ConnState.Counting, ConnState.setPhase, ConnState.status_setLink]
      exact Counts.startUp h
  | startDown _ hhandler =>
      rw [ConnState.Counting, hhandler] at h
      rw [ConnState.Counting, ConnState.setPhase, ConnState.status_setLink]
      exact Counts.startDown h
  | waited _ hhandler hwg =>
      rw [ConnState.Counting, hhandler, hwg] at h
      exact Counts.waited h
  | deferUpstream _ hhandler =>
      rw [ConnState.Counting, hhandler] at h
      exact Or.inl h
  | deferClient _ hhandler =>
      rw [ConnState.Counting, hhandler] at h
      exact h

theorem reachable_counting {processor : Direction → Header → Bytes → Bytes} {s : ConnState}
    (h : (connection processor).Reachable s) : s.Counting := by
  refine h.invariant (P := ConnState.Counting) ?_ ?_
  · rintro s rfl d
    rfl
  · intro s s' _ hcounting hstep
    exact ConnStep.counting hstep hcounting

/-! ### Leaving -/

/-- The connections a goroutine has closed by the time it is in a phase. -/
def Phase.Closed : Phase → Peer → Prop
  | .closingUpstream, .client => True
  | .signalling, _ | .finished, _ => True
  | _, _ => False

def ConnState.Leaving (s : ConnState) : Prop :=
  ∀ d peer, (s.link d).phase.Closed peer → s.isOpen peer = false

theorem ConnState.Leaving.close {s : ConnState} (h : s.Leaving) (peer : Peer) :
    (s.close peer).Leaving := fun d peer' hclosed =>
  ConnState.close_isOpen_of_closed peer (h d peer' hclosed)

/-- A direction may move to a phase if what that phase has closed is closed. -/
theorem ConnState.Leaving.setLink {s : ConnState} {d : Direction} {l : Link} (h : s.Leaving)
    (hl : ∀ peer, l.phase.Closed peer → s.isOpen peer = false) : (s.setLink d l).Leaving := by
  intro d' peer hclosed
  by_cases heq : d' = d
  · subst heq
    rw [ConnState.setLink_link_self] at hclosed
    exact hl peer hclosed
  · rw [ConnState.setLink_link_of_ne s l heq] at hclosed
    exact h d' peer hclosed

theorem LinkStep.not_closed {processor : Header → Bytes → Bytes} {srcOpen dstOpen : Bool}
    {l l' : Link} (hstep : LinkStep processor srcOpen dstOpen l l') (peer : Peer) :
    ¬ l'.phase.Closed peer := by
  cases hstep with
  | @read acc c rest n _ _ _ _ _ =>
      simp only [afterRead]
      cases readProgress (acc ++ c) <;> exact id
  | readFails hphase => exact id
  | process hphase => exact id
  | @write _ _ _ _ outcome _ _ _ =>
      cases outcome with
      | returned err => cases err <;> exact id
      | panicked => exact id

/-- Every step keeps closed what a leaving goroutine has closed. Only the dial
opens a connection, and no goroutine runs then. -/
theorem ConnStep.leaving {processor : Direction → Header → Bytes → Bytes} {s s' : ConnState}
    (hstep : ConnStep processor s s') (hcounting : s.Counting) (h : s.Leaving) : s'.Leaving := by
  cases hstep with
  | send d bs => exact h.setLink fun peer hclosed => h d peer hclosed
  | forward d _ hlink => exact h.setLink fun peer hclosed => absurd hclosed (hlink.not_closed peer)
  | closeClient d _ hphase =>
      refine (h.close .client).setLink fun peer hclosed => ?_
      cases peer with
      | client => exact ConnState.close_isOpen_self s .client
      | upstream => exact absurd hclosed id
  | closeUpstream d _ hphase =>
      refine (h.close .upstream).setLink fun peer _ => ?_
      cases peer with
      | client =>
          exact ConnState.close_isOpen_of_closed .upstream (h d .client (by rw [hphase]; trivial))
      | upstream => exact ConnState.close_isOpen_self s .upstream
  | done d _ hphase =>
      have hsame : ConnState.Leaving { s with wg := s.wg - 1 } := h
      exact hsame.setLink fun peer _ => h d peer (by rw [hphase]; trivial)
  | dialFails => exact h
  | dials _ hhandler =>
      rw [ConnState.Counting, hhandler] at hcounting
      intro d peer hclosed
      have hidle : (s.link d).phase = .idle := phase_eq_idle (hcounting d)
      change (s.link d).phase.Closed peer at hclosed
      rw [hidle] at hclosed
      exact absurd hclosed id
  | startUp _ hhandler =>
      have hsame : ConnState.Leaving { s with handler := .starting .serverToClient } := h
      exact hsame.setLink fun peer hclosed => absurd hclosed id
  | startDown _ hhandler =>
      have hsame : ConnState.Leaving { s with handler := .waiting } := h
      exact hsame.setLink fun peer hclosed => absurd hclosed id
  | waited => exact h
  | deferUpstream =>
      have hsame : ConnState.Leaving { s with handler := .closingClient } := h
      exact hsame.close .upstream
  | deferClient =>
      have hsame : ConnState.Leaving { s with handler := .returned } := h
      exact hsame.close .client

theorem reachable_leaving {processor : Direction → Header → Bytes → Bytes} {s : ConnState}
    (h : (connection processor).Reachable s) : s.Leaving := by
  refine h.invariant (P := ConnState.Leaving) ?_ ?_
  · rintro s rfl d peer hclosed
    exact absurd hclosed id
  · intro s s' hreach hleaving hstep
    exact ConnStep.leaving hstep (reachable_counting hreach) hleaving

/-! ### Delivering -/

/-- What a step of the connection can do to one direction. -/
inductive LinkMove (processor : Header → Bytes → Bytes) : Link → Link → Prop
  | same (l : Link) : LinkMove processor l l
  | receive (l : Link) (bs : Bytes) : LinkMove processor l (l.receive bs)
  | step {srcOpen dstOpen : Bool} {l l' : Link} :
      LinkStep processor srcOpen dstOpen l l' → LinkMove processor l l'
  | start {l : Link} : l.phase = .idle → LinkMove processor l { l with phase := .reading [] }
  | advance {l : Link} {phase : Phase} : l.phase.Stopped → phase.Stopped →
      LinkMove processor l { l with phase := phase }

theorem LinkMove.good {processor : Header → Bytes → Bytes} {l l' : Link}
    (hmove : LinkMove processor l l') (hgood : l.Good processor) : l'.Good processor := by
  cases hmove with
  | same => exact hgood
  | receive _ bs => exact hgood.receive bs
  | step hstep => exact hstep.good hgood
  | start hidle => exact hgood.start hidle
  | advance hfrom hto => exact hgood.advance hfrom hto

/-- A direction that has stopped delivers nothing more. -/
theorem LinkMove.frozen {processor : Header → Bytes → Bytes} {l l' : Link}
    (hmove : LinkMove processor l l') (hstopped : l.phase.Stopped) :
    l'.phase.Stopped ∧ l'.delivered = l.delivered := by
  cases hmove with
  | same => exact ⟨hstopped, rfl⟩
  | receive _ bs => exact ⟨hstopped, rfl⟩
  | step hstep => exact absurd hstopped hstep.not_stopped
  | start hidle => simp [hidle, Phase.Stopped] at hstopped
  | advance _ hto => exact ⟨hto, rfl⟩

theorem linkMove_setLink {processor : Direction → Header → Bytes → Bytes} {s : ConnState}
    {d : Direction} {l : Link} (hmove : LinkMove (processor d) (s.link d) l) (d' : Direction) :
    LinkMove (processor d') (s.link d') ((s.setLink d l).link d') := by
  by_cases heq : d' = d
  · subst heq
    rw [ConnState.setLink_link_self]
    exact hmove
  · rw [ConnState.setLink_link_of_ne s l heq]
    exact .same _

theorem ConnStep.linkMove {processor : Direction → Header → Bytes → Bytes} {s s' : ConnState}
    (hstep : ConnStep processor s s') (hcounting : s.Counting) (d : Direction) :
    LinkMove (processor d) (s.link d) (s'.link d) := by
  cases hstep with
  | send d' bs => exact linkMove_setLink (.receive _ bs) d
  | forward d' _ hlink => exact linkMove_setLink (.step hlink) d
  | closeClient d' _ hphase =>
      have hmove : LinkMove (processor d') ((s.close .client).link d')
          { (s.close .client).link d' with phase := .closingUpstream } :=
        .advance (by rw [ConnState.close_link, hphase]; trivial) trivial
      exact linkMove_setLink hmove d
  | closeUpstream d' _ hphase =>
      have hmove : LinkMove (processor d') ((s.close .upstream).link d')
          { (s.close .upstream).link d' with phase := .signalling } :=
        .advance (by rw [ConnState.close_link, hphase]; trivial) trivial
      exact linkMove_setLink hmove d
  | done d' _ hphase =>
      have hmove : LinkMove (processor d') (s.link d') { s.link d' with phase := .finished } :=
        .advance (by rw [hphase]; trivial) trivial
      exact linkMove_setLink (s := { s with wg := s.wg - 1 }) hmove d
  | startUp _ hhandler =>
      rw [ConnState.Counting, hhandler] at hcounting
      have hmove : LinkMove (processor .clientToServer) (s.link .clientToServer)
          { s.link .clientToServer with phase := .reading [] } :=
        .start (phase_eq_idle (hcounting.1 .clientToServer))
      exact linkMove_setLink (s := { s with handler := .starting .serverToClient }) hmove d
  | startDown _ hhandler =>
      rw [ConnState.Counting, hhandler] at hcounting
      have hmove : LinkMove (processor .serverToClient) (s.link .serverToClient)
          { s.link .serverToClient with phase := .reading [] } :=
        .start (phase_eq_idle hcounting.2.1)
      exact linkMove_setLink (s := { s with handler := .waiting }) hmove d
  | dialFails => exact .same _
  | dials => exact .same _
  | waited => exact .same _
  | deferUpstream => exact .same _
  | deferClient => exact .same _

theorem links_good {processor : Direction → Header → Bytes → Bytes} {s : ConnState}
    (h : (connection processor).Reachable s) (d : Direction) : (s.link d).Good (processor d) := by
  refine h.invariant (P := fun s => (s.link d).Good (processor d)) ?_ ?_
  · rintro s rfl
    exact Link.good_initial (processor d)
  · intro s s' hreach hgood hstep
    exact (ConnStep.linkMove hstep (reachable_counting hreach) d).good hgood

/-- Once a write has failed, nothing more is delivered in that direction. -/
theorem delivered_of_writeFailed {processor : Direction → Header → Bytes → Bytes}
    {s s' : ConnState} (h : (connection processor).Reachable s)
    (hrun : (connection processor).Run s s') {d : Direction}
    (hfailed : (s.link d).writeFailed = true) :
    (s'.link d).delivered = (s.link d).delivered := by
  refine System.Run.constant
    (P := fun s => (connection processor).Reachable s ∧ (s.link d).phase.Stopped)
    (q := fun s => (s.link d).delivered) ?_ hrun
    ⟨h, (links_good h d).stopped_of_writeFailed hfailed⟩
  intro s s' hs hstep
  obtain ⟨hstopped, hsame⟩ :=
    (ConnStep.linkMove hstep (reachable_counting hs.1) d).frozen hs.2
  exact ⟨⟨hs.1.step hstep, hstopped⟩, hsame⟩

theorem closed_of_finished {processor : Direction → Header → Bytes → Bytes} {s : ConnState}
    (h : (connection processor).Reachable s) {d : Direction}
    (hfinished : (s.link d).phase = .finished) (peer : Peer) : s.isOpen peer = false :=
  reachable_leaving h d peer (by rw [hfinished]; trivial)

theorem handler_returned {processor : Direction → Header → Bytes → Bytes} {s : ConnState}
    (h : (connection processor).Reachable s) (hreturned : s.handler = .returned) :
    (∀ d, (s.link d).phase = .finished) ∨
      ∀ d, (s.link d).phase = .idle ∧ (s.link d).delivered = [] := by
  have hcounting := reachable_counting h
  rw [ConnState.Counting, hreturned] at hcounting
  rcases hcounting with hfinished | hidle
  · exact Or.inl fun d => phase_eq_finished (hfinished d)
  · refine Or.inr fun d => ?_
    have hphase : (s.link d).phase = .idle := phase_eq_idle (hidle d)
    refine ⟨hphase, ?_⟩
    cases links_good h d with
    | idle _ _ hdelivered _ => exact hdelivered
    | reading h' => simp [h'] at hphase
    | processing h' => simp [h'] at hphase
    | writing h' => simp [h'] at hphase
    | stopped h' => simp [hphase, Phase.Stopped] at h'
    | cut h' => simp [hphase, Phase.Stopped] at h'

/-- A direction has delivered what goes out for a sequence of frames at the
front of what its sender sent, followed by part of what goes out for one more
if a write failed. -/
def Link.Relayed (processor : Header → Bytes → Bytes) (l : Link) : Prop :=
  (∃ frs, wire.Leads frs l.sent ∧ Emits processor frs l.delivered) ∨
    (l.writeFailed = true ∧ ∃ frs fr out buf part, wire.Leads (frs ++ [fr]) l.sent ∧
      Emits processor frs out ∧ image processor fr = some buf ∧ part <+: buf ∧
      l.delivered = out ++ part)

/-- The same without a processor: the frames are delivered as they are. -/
def Link.Verbatim (l : Link) : Prop :=
  (∃ frs, wire.Leads frs l.sent ∧ l.delivered = frs.flatten) ∨
    (l.writeFailed = true ∧ ∃ frs fr part, wire.Leads (frs ++ [fr]) l.sent ∧ part <+: fr ∧
      l.delivered = frs.flatten ++ part)

theorem Link.Relayed.verbatim {l : Link} (h : l.Relayed passthrough) : l.Verbatim := by
  have hself : ∀ {fr}, IsFrame fr → image passthrough fr = some fr := fun hfr =>
    image_of_unchanged hfr rfl
  rcases h with ⟨frs, hleads, hemits⟩ | ⟨hfailed, frs, fr, out, buf, part, hleads, hemits, hbuf,
    hpart, hdelivered⟩
  · exact Or.inl ⟨frs, hleads, hemits.eq_flatten fun fr hfr => hself (hleads.1 fr hfr)⟩
  · refine Or.inr ⟨hfailed, frs, fr, part, hleads, ?_, ?_⟩
    · rw [hself (hleads.1 fr (by simp)), Option.some.injEq] at hbuf
      rwa [hbuf]
    · rw [hdelivered, hemits.eq_flatten fun fr hfr => hself (hleads.1 fr (by simp [hfr]))]

/-- Safety of a proxied connection in every reachable state: what each side has
been delivered, that a failed write is the end of it, that it does not depend on
the other direction, that a goroutine that has signalled left both connections
closed, and that the handler returns only when both have. -/
theorem connection_safe {w : IntSize} {host : Host} {hooks : HookChain} {s : ConnState}
    (hs : (connection (processors w host hooks)).Reachable s) :
    (s.link .clientToServer).Relayed (intercept w host hooks) ∧
    (∀ fr, Sendable (intercept w host hooks) fr →
      image (intercept w host hooks) fr = some (relay (intercept w host hooks) fr)) ∧
    (s.link .serverToClient).Verbatim ∧
    (∀ d s', (connection (processors w host hooks)).Run s s' →
      (s.link d).writeFailed = true → (s'.link d).delivered = (s.link d).delivered) ∧
    (∀ d s', (connection (processors w host hooks)).Reachable s' →
      (s.link d).sent <+: (s'.link d).sent →
        (s.link d).delivered <+: (s'.link d).delivered ∨
          (s'.link d).delivered <+: (s.link d).delivered) ∧
    (∀ d, (s.link d).phase = .finished → ∀ peer, s.isOpen peer = false) ∧
    (∀ d d' acc, (s.link d).phase = .finished → (s.link d').phase = .reading acc →
      s.isOpen d'.src = false) ∧
    (s.handler = .returned →
      (∀ d, (s.link d).phase = .finished) ∨
        ∀ d, (s.link d).phase = .idle ∧ (s.link d).delivered = []) := by
  have hup : (s.link .clientToServer).Relayed (intercept w host hooks) :=
    (links_good hs .clientToServer).delivered
  have hdown : (s.link .serverToClient).Relayed passthrough :=
    (links_good hs .serverToClient).delivered
  refine ⟨hup, fun fr hfr => image_of_sendable hfr, hdown.verbatim, ?_, ?_, ?_, ?_,
    handler_returned hs⟩
  · intro d s' hrun hfailed
    exact delivered_of_writeFailed hs hrun hfailed
  · intro d s' hs' hsent
    exact (links_good hs d).comparable (links_good hs' d) hsent
  · intro d hfinished peer
    exact closed_of_finished hs hfinished peer
  · intro d d' acc hfinished _
    exact closed_of_finished hs hfinished d'.src

/-! ### A run to the end -/

theorem ConnState.Alive.setLink {s : ConnState} {d : Direction} {l : Link} (h : s.Alive)
    (hl : l.phase ≠ .panicked) : (s.setLink d l).Alive := by
  intro d'
  by_cases heq : d' = d
  · rw [heq, ConnState.setLink_link_self]
    exact hl
  · rw [ConnState.setLink_link_of_ne s l heq]
    exact h d'

/-- Where only one goroutine gets its turn, the connection runs as its direction
does. -/
theorem run_setLink {processor : Direction → Header → Bytes → Bytes} {s : ConnState}
    {d : Direction} {l : Link} (halive : s.Alive)
    (hrun : Relation.ReflTransGen (LinkStep (processor d) (s.isOpen d.src) (s.isOpen d.dst))
      (s.link d) l) : (connection processor).Run s (s.setLink d l) := by
  induction hrun with
  | refl =>
      rw [ConnState.setLink, Function.update_eq_self]
      exact Relation.ReflTransGen.refl
  | @tail l₁ l₂ _ hstep ih =>
      have halive₁ : (s.setLink d l₁).Alive := halive.setLink fun hpanicked =>
        hstep.not_stopped (by rw [hpanicked]; trivial)
      have hforward : ConnStep processor (s.setLink d l₁) ((s.setLink d l₁).setLink d l₂) :=
        .forward d halive₁ (by rw [ConnState.setLink_link_self]; exact hstep)
      have htwice : (s.setLink d l₁).setLink d l₂ = s.setLink d l₂ := by
        simp only [ConnState.setLink, Function.update_idem]
      exact htwice ▸ ih.tail hforward

/-- A state, part by part. -/
def ConnState.of (up down : Link) (client upstream : Bool) (handler : HandlerPhase) (wg : Nat) :
    ConnState where
  link
    | .clientToServer => up
    | .serverToClient => down
  isOpen
    | .client => client
    | .upstream => upstream
  handler := handler
  wg := wg

theorem ConnState.of_parts (s : ConnState) :
    .of (s.link .clientToServer) (s.link .serverToClient) (s.isOpen .client) (s.isOpen .upstream)
      s.handler s.wg = s := by
  obtain ⟨link, isOpen, handler, wg⟩ := s
  simp only [ConnState.of, ConnState.mk.injEq, and_true]
  constructor
  · funext d
    cases d <;> rfl
  · funext peer
    cases peer <;> rfl

theorem run_of {processor : Direction → Header → Bytes → Bytes} {s s' : ConnState}
    (hrun : (connection processor).Run s s') :
    (connection processor).Run s
      (.of (s'.link .clientToServer) (s'.link .serverToClient) (s'.isOpen .client)
        (s'.isOpen .upstream) s'.handler s'.wg) := by
  rw [ConnState.of_parts]
  exact hrun

/-- The upstream is dialed, and the client sends before the second goroutine
starts. -/
theorem run_sent (processor : Direction → Header → Bytes → Bytes) (bs : Bytes) :
    (connection processor).Run ConnState.initial
      (.of ⟨bs, bs, .reading [], [], false⟩ .initial true true (.starting .serverToClient) 2) := by
  have hdialed : (connection processor).Run ConnState.initial
      (.of .initial .initial true true (.starting .clientToServer) 2) :=
    run_of (.single (.dials (by intro d; cases d <;> decide) rfl))
  have hstarted : (connection processor).Run ConnState.initial
      (.of ⟨[], [], .reading [], [], false⟩ .initial true true (.starting .serverToClient) 2) :=
    run_of (hdialed.tail (.startUp (by intro d; cases d <;> decide) rfl))
  exact run_of (hstarted.tail (.send .clientToServer bs))

/-- A connection that takes five bytes of each message. -/
def brokenSink : Sink := ⟨fun _ _ => some (5, .eof)⟩

def openFrame : Bytes := frame openCall []

abbrev oneHookConnection : System ConnState := connection (processors .w64 (filterHost id) oneHook)

/-- The client sends one frame, which is relayed before the other goroutine
starts. -/
theorem run_relayedCall :
    oneHookConnection.Run ConnState.initial
      (.of ⟨openFrame, [], .reading [], openFrame, false⟩ ⟨[], [], .reading [], [], false⟩
        true true .waiting 2) := by
  have hprocessed : oneHookConnection.Run ConnState.initial
      (.of ⟨openFrame, [], .writing openCall [], [], false⟩ .initial true true
        (.starting .serverToClient) 2) :=
    run_of ((run_sent _ openFrame).trans (run_setLink (d := .clientToServer)
      (by intro d; cases d <;> decide) (link_processes (by decide) rfl (List.append_nil _).symm)))
  have hrelayed : oneHookConnection.Run ConnState.initial
      (.of ⟨openFrame, [], .reading [], openFrame, false⟩ .initial true true
        (.starting .serverToClient) 2) :=
    run_of (hprocessed.tail (.forward .clientToServer (by intro d; cases d <;> decide)
      (.write rfl (rfl : writeMessage Sink.reliable _ _ _ = _) (by decide))))
  exact run_of (hrelayed.tail (.startDown (by intro d; cases d <;> decide) rfl))

/-- The write of the reply fails inside its second word; the goroutine that wrote
it, up to where it has come. -/
def cutReply (phase : Phase) (client upstream : Bool) (wg : Nat) : ConnState :=
  .of ⟨openFrame, [], .reading [], openFrame, false⟩
    ⟨openFrame, [], phase, openFrame.take 5, true⟩ client upstream .waiting wg

theorem run_cutReply :
    oneHookConnection.Run ConnState.initial (cutReply .finished false false 1) := by
  have hsent : oneHookConnection.Run ConnState.initial
      (.of ⟨openFrame, [], .reading [], openFrame, false⟩
        ⟨openFrame, openFrame, .reading [], [], false⟩ true true .waiting 2) :=
    run_of (run_relayedCall.tail (.send .serverToClient openFrame))
  have hprocessed : oneHookConnection.Run ConnState.initial
      (.of ⟨openFrame, [], .reading [], openFrame, false⟩
        ⟨openFrame, [], .writing openCall [], [], false⟩ true true .waiting 2) :=
    run_of (hsent.trans (run_setLink (d := .serverToClient) (by intro d; cases d <;> decide)
      (link_processes (by decide) rfl (List.append_nil _).symm)))
  have hcut : oneHookConnection.Run ConnState.initial (cutReply .closingClient true true 2) :=
    run_of (hprocessed.tail (.forward .serverToClient (by intro d; cases d <;> decide)
      (.write rfl (rfl : writeMessage brokenSink _ _ _ = _) (by decide))))
  have hclient : oneHookConnection.Run ConnState.initial (cutReply .closingUpstream false true 2) :=
    run_of (hcut.tail (.closeClient .serverToClient (by intro d; cases d <;> decide) rfl))
  have hupstream : oneHookConnection.Run ConnState.initial (cutReply .signalling false false 2) :=
    run_of (hclient.tail (.closeUpstream .serverToClient (by intro d; cases d <;> decide) rfl))
  exact run_of (hupstream.tail (.done .serverToClient (by intro d; cases d <;> decide) rfl))

/-- The other goroutine and the handler after that, up to where they have come. -/
def comingDown (phase : Phase) (handler : HandlerPhase) (wg : Nat) : ConnState :=
  .of ⟨openFrame, [], phase, openFrame, false⟩
    ⟨openFrame, [], .finished, openFrame.take 5, true⟩ false false handler wg

theorem run_comingDown :
    oneHookConnection.Run (cutReply .finished false false 1)
      (comingDown .finished .returned 0) := by
  have hfailed : oneHookConnection.Run (cutReply .finished false false 1)
      (comingDown .closingClient .waiting 1) :=
    run_of (.single (.forward .clientToServer (by intro d; cases d <;> decide)
      (.readFails rfl)))
  have hclient : oneHookConnection.Run (cutReply .finished false false 1)
      (comingDown .closingUpstream .waiting 1) :=
    run_of (hfailed.tail (.closeClient .clientToServer (by intro d; cases d <;> decide) rfl))
  have hupstream : oneHookConnection.Run (cutReply .finished false false 1)
      (comingDown .signalling .waiting 1) :=
    run_of (hclient.tail (.closeUpstream .clientToServer (by intro d; cases d <;> decide) rfl))
  have hdone : oneHookConnection.Run (cutReply .finished false false 1)
      (comingDown .finished .waiting 0) :=
    run_of (hupstream.tail (.done .clientToServer (by intro d; cases d <;> decide) rfl))
  have hwaited : oneHookConnection.Run (cutReply .finished false false 1)
      (comingDown .finished .closingUpstream 0) :=
    run_of (hdone.tail (.waited (by intro d; cases d <;> decide) rfl rfl))
  have hdeferred : oneHookConnection.Run (cutReply .finished false false 1)
      (comingDown .finished .closingClient 0) :=
    run_of (hwaited.tail (.deferUpstream (by intro d; cases d <;> decide) rfl))
  exact run_of (hdeferred.tail (.deferClient (by intro d; cases d <;> decide) rfl))

/-- A call is relayed, the reply is cut off, and the connection comes down: seen
where one goroutine has finished while the other reads, and where the handler
has returned. -/
theorem connection_safe_cutReply :
    ((cutReply .finished false false 1).link .clientToServer).Relayed
        (intercept .w64 (filterHost id) oneHook) ∧
      image (intercept .w64 (filterHost id) oneHook) openFrame =
        some (relay (intercept .w64 (filterHost id) oneHook) openFrame) ∧
      ((cutReply .finished false false 1).link .serverToClient).Verbatim ∧
      ((comingDown .finished .returned 0).link .serverToClient).delivered = openFrame.take 5 ∧
      (∀ d, ((cutReply .finished false false 1).link d).delivered <+:
          ((comingDown .finished .returned 0).link d).delivered ∨
        ((comingDown .finished .returned 0).link d).delivered <+:
          ((cutReply .finished false false 1).link d).delivered) ∧
      (∀ peer, (cutReply .finished false false 1).isOpen peer = false) ∧
      (cutReply .finished false false 1).isOpen .client = false ∧
      ((∀ d, ((comingDown .finished .returned 0).link d).phase = .finished) ∨
        ∀ d, ((comingDown .finished .returned 0).link d).phase = .idle ∧
          ((comingDown .finished .returned 0).link d).delivered = []) := by
  have hcut : oneHookConnection.Reachable (cutReply .finished false false 1) :=
    ⟨_, rfl, run_cutReply⟩
  have hdown : oneHookConnection.Reachable (comingDown .finished .returned 0) :=
    ⟨_, rfl, run_cutReply.trans run_comingDown⟩
  obtain ⟨hrelayed, himage, hverbatim, hfrozen, hsame, hclosed, hunblocked, -⟩ :=
    connection_safe hcut
  obtain ⟨-, -, -, -, -, -, -, hreturned⟩ := connection_safe hdown
  have hsendable : Sendable (intercept .w64 (filterHost id) oneHook) openFrame :=
    sendable_of_eq (isFrame_frame openCall (by decide)) rfl
  refine ⟨hrelayed, himage openFrame hsendable, hverbatim,
    hfrozen .serverToClient _ run_comingDown rfl, fun d => hsame d _ hdown ?_,
    hclosed .serverToClient rfl, hunblocked .serverToClient .clientToServer [] rfl rfl,
    hreturned rfl⟩
  cases d with
  | clientToServer => exact List.prefix_rfl
  | serverToClient => exact List.prefix_rfl

end DraEnv.Virtinjectd
