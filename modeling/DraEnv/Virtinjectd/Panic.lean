import DraEnv.Virtinjectd.Daemon
import DraEnv.Virtinjectd.Patch

/-!
When the daemon cannot panic.

The one panic in its code is in `WriteMessage`, for a message whose length
wraps around the 32-bit length word. What is read is far below that, so
only a hook can bring it about, by printing gigabytes. Under a bound on
what the chain returns no goroutine of any connection ever panics, and the
escape clauses of the other results about the daemon are empty.
-/

namespace DraEnv.Virtinjectd

open DraEnv.GoStd DraEnv.Foundation

/-- A document that can be decoded is answered by one of at most two gigabytes. -/
def HookChain.Bounded (host : Host) (hc : HookChain) : Prop :=
  ∀ xml : GoString, xml.length ≤ xdrStringMaxLen → (hc.rewriter host xml).length ≤ 2 ^ 31

/-- What is written for any payload that can be read has a length the length word
can hold. -/
def Harmless (processor : Header → Bytes → Bytes) : Prop :=
  ∀ header payload, Fits payload →
    lengthPrefixSize + headerSize + (processor header payload).length < 2 ^ 32

theorem harmless_passthrough : Harmless passthrough := fun _ _ hfits => hfits.lt

/-- A message does not grow by more than the document that is put into it. -/
theorem intercept_length_le {host : Host} {hc : HookChain} (w : IntSize) (header : Header)
    {payload : Bytes}
    (hxml : ∀ {xml pad rest}, Splits payload xml pad rest →
      (hc.rewriter host xml).length ≤ 2 ^ 31) :
    (intercept w host hc header payload).length ≤ payload.length + 2 ^ 31 + 7 := by
  cases hcall : isDomainDefineCall header with
  | false =>
      rw [intercept_of_not_define w host hc payload hcall]
      omega
  | true =>
      cases hdecode : decodeXDRString w payload with
      | error err =>
          rw [intercept_of_decode_error host hc header hdecode]
          omega
      | ok result =>
          obtain ⟨pad, rest, hsplit⟩ := exists_splits_of_decode hdecode
          have hlen := hsplit.length
          have hrewritten := hxml hsplit
          have hpad := padLen_lt (hc.rewriter host result.1).length
          rw [intercept_splits w host hc hcall hsplit]
          split
          · omega
          · rw [List.length_append, encodeXDRString_length]
            omega

theorem intercept_lt (w : IntSize) (host : Host) (hc : HookChain) (header : Header)
    {payload : Bytes} (hfits : Fits payload)
    (hxml : ∀ {xml pad rest}, Splits payload xml pad rest →
      (hc.rewriter host xml).length ≤ 2 ^ 31) :
    lengthPrefixSize + headerSize + (intercept w host hc header payload).length < 2 ^ 32 := by
  have hlen := intercept_length_le w header hxml
  simp only [Fits, maxMessageSize, headerSize, lengthPrefixSize] at *
  omega

theorem harmless_intercept {host : Host} {hc : HookChain} (hbounded : hc.Bounded host)
    (w : IntSize) : Harmless (intercept w host hc) := fun header _ hfits =>
  intercept_lt w host hc header hfits fun hsplit => hbounded _ hsplit.length_le

/-! ### No step panics -/

theorem LinkStep.not_panicked {processor : Header → Bytes → Bytes} {srcOpen dstOpen : Bool}
    {l l' : Link} (hstep : LinkStep processor srcOpen dstOpen l l') (hharmless : Harmless processor)
    (hgood : l.Good processor) : l'.phase ≠ .panicked := by
  cases hstep with
  | @read acc c _ _ _ _ _ _ _ =>
      simp only [afterRead]
      cases readProgress (acc ++ c) <;> simp
  | readFails => simp
  | process => simp
  | @write header payload _ _ outcome hphase hwrite _ =>
      -- a message that is written was read, so it was within the reader's limits
      have hbuf : messageBuffer header payload = some (frame header payload) := by
        cases hgood with
        | idle h => simp [h] at hphase
        | reading h => simp [h] at hphase
        | processing h => simp [h] at hphase
        | stopped h => simp [hphase, Phase.Stopped] at h
        | cut h => simp [hphase, Phase.Stopped] at h
        | writing h _ _ hfits =>
            rw [h, Phase.writing.injEq] at hphase
            obtain ⟨rfl, rfl⟩ := hphase
            exact messageBuffer_eq _ (hharmless _ _ hfits)
      rcases writeMessage_cases hwrite with ⟨rfl, -⟩ | ⟨buf, -, ⟨rfl, -⟩ | ⟨err, n, rfl, -⟩⟩
      · simp only [writeMessage, hbuf] at hwrite
        split at hwrite <;> simp at hwrite
      · simp [afterWrite]
      · simp [afterWrite]

theorem ConnStep.alive {processor : Direction → Header → Bytes → Bytes} {s s' : ConnState}
    (hstep : ConnStep processor s s') (hharmless : ∀ d, Harmless (processor d))
    (hgood : ∀ d, (s.link d).Good (processor d)) (h : s.Alive) : s'.Alive := by
  have hsame : ∀ s₁ : ConnState, s₁.link = s.link → s₁.Alive := fun s₁ hlink d => hlink ▸ h d
  cases hstep with
  | send d bs => exact h.setLink (h d)
  | forward d _ hlink => exact h.setLink (hlink.not_panicked (hharmless d) (hgood d))
  | closeClient => exact (hsame _ rfl).setLink (by simp)
  | closeUpstream => exact (hsame _ rfl).setLink (by simp)
  | done => exact (hsame _ rfl).setLink (by simp)
  | startUp => exact (hsame _ rfl).setLink (by simp)
  | startDown => exact (hsame _ rfl).setLink (by simp)
  | _ => exact hsame _ rfl

theorem reachable_alive {processor : Direction → Header → Bytes → Bytes}
    (hharmless : ∀ d, Harmless (processor d)) {s : ConnState}
    (h : (connection processor).Reachable s) : s.Alive := by
  refine h.invariant (P := ConnState.Alive) ?_ ?_
  · rintro s rfl
    exact alive_initial
  · intro s s' hreach halive hstep
    exact ConnStep.alive hstep hharmless (links_good hreach) halive

/-- As long as no chain of hooks returns more than two gigabytes, no client and no
server can make the daemon panic. -/
theorem daemon_never_panics {w : IntSize} {host : Host} {hc : HookChain}
    (hbounded : hc.Bounded host) {d : DaemonState}
    (hd : (daemon (processors w host hc)).Reachable d) : d.Alive := by
  intro s hs
  refine reachable_alive (fun direction => ?_) ((reachable_independent hd).conns s hs)
  cases direction with
  | clientToServer => exact harmless_intercept hbounded w
  | serverToClient => exact harmless_passthrough

theorem daemon_never_panics_oneClient :
    ∃ d, (daemon (processors .w64 (filterHost id) oneHook)).Reachable d ∧
      d.conns = [.initial] ∧ d.Alive := by
  have hbounded : oneHook.Bounded (filterHost id) := by
    intro xml hxml
    have hsame : oneHook.rewriter (filterHost id) xml = xml := by
      rw [oneHook_rewriter, id, ite_self]
    rw [hsame]
    simp only [xdrStringMaxLen] at hxml
    omega
  have hd := reachable_accepted (processors .w64 (filterHost id) oneHook) 1
  exact ⟨_, hd, rfl, daemon_never_panics hbounded hd⟩

end DraEnv.Virtinjectd
