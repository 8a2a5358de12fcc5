import DraEnv.Virtinjectd.Proxy

/-!
One direction of a proxied connection, taken apart into the steps that
other goroutines can see.

`forward` blocks inside `ReadMessage` and inside `WriteMessage`, and
between any two of its reads and writes the connections may be closed
under it. Between the two the message is processed, and where that is a
run of hooks it may take as long as they do. Here `forward` is a
small-step machine: it collects the bytes of one message chunk by chunk,
processes it, and hands the result to `WriteMessage`. What it does is
decided by the functions of the sequential model: `readProgress` says where in `ReadMessage` the
bytes collected so far have got to, and a write is a call of
`writeMessage` on some sink.

`Link.Good` is the invariant of the machine, and `LinkStep.good` its one
proof. It mentions the bytes of this direction only.
-/

namespace DraEnv.Virtinjectd

open DraEnv.GoStd DraEnv.Foundation

/-! ### Reading in pieces -/

/-- Where a `ReadMessage` stands that has collected some bytes. -/
inductive Progress where
  /-- The current `io.ReadFull` lacks `n` bytes. -/
  | wants (n : Nat)
  | message (header : Header) (payload : Bytes)
  /-- The length word is outside the limits. -/
  | refused
  deriving DecidableEq, Repr

def readProgress (acc : Bytes) : Progress :=
  if acc.length < lengthPrefixSize then .wants (lengthPrefixSize - acc.length)
  else
    let totalLength := (uint32 acc).toNat
    if totalLength < lengthPrefixSize + headerSize then .refused
    else if totalLength - lengthPrefixSize > maxMessageSize then .refused
    else if acc.length < totalLength then .wants (totalLength - acc.length)
    else .message (headerOf acc) (payloadOf acc)

/-- A read that never asked for too much ends exactly at the end of a frame. -/
theorem readProgress_message {acc c : Bytes} {n : Nat} {h : Header} {p : Bytes}
    (hwants : readProgress acc = .wants n) (hc : c.length ≤ n)
    (hmessage : readProgress (acc ++ c) = .message h p) :
    Fits p ∧ acc ++ c = frame h p := by
  simp only [readProgress] at hmessage
  split at hmessage
  · simp at hmessage
  rename_i hlen
  split at hmessage
  · simp at hmessage
  rename_i hshort
  split at hmessage
  · simp at hmessage
  rename_i hlarge
  split at hmessage
  · simp at hmessage
  rename_i hfull
  have hexact : (acc ++ c).length = (uint32 (acc ++ c)).toNat := by
    simp only [readProgress] at hwants
    rw [List.length_append] at *
    split at hwants
    · -- the length word has just been completed, and no frame is that short
      rw [Progress.wants.injEq] at hwants
      simp only [lengthPrefixSize, headerSize] at *
      omega
    rename_i hfour
    have hword := uint32_append (Nat.not_lt.mp hfour) c
    rw [hword] at hfull ⊢
    split at hwants
    · simp at hwants
    split at hwants
    · simp at hwants
    split at hwants
    · rw [Progress.wants.injEq] at hwants
      omega
    · simp at hwants
  have hframe := isFrame_take (Nat.not_lt.mp hlen) (Nat.not_lt.mp hshort) (by omega)
    (Nat.not_lt.mp hfull)
  rw [← hexact, List.take_length] at hframe
  obtain ⟨h', p', hfits, heq⟩ := hframe.exists_message
  rw [heq, headerOf_frame, payloadOf_frame, Progress.message.injEq] at hmessage
  obtain ⟨rfl, rfl⟩ := hmessage
  exact ⟨hfits, heq⟩

/-! ### The machine -/

inductive Phase where
  /-- The goroutine has not been started. -/
  | idle
  /-- Inside `ReadMessage`, with these bytes of the message collected. -/
  | reading (acc : Bytes)
  /-- Inside `processor`, with the message that was read. -/
  | processing (header : Header) (payload : Bytes)
  /-- Inside `WriteMessage`, with the message to be written. -/
  | writing (header : Header) (payload : Bytes)
  /-- `forward` has returned; `clientConn.Close()` is next. -/
  | closingClient
  | closingUpstream
  /-- The deferred `wg.Done()` is next. -/
  | signalling
  | finished
  /-- `WriteMessage` has panicked, which ends the process. -/
  | panicked
  deriving DecidableEq, Repr

/-- One direction: the bytes its sender has sent, those of them not read yet,
the goroutine, and the bytes its receiver has been delivered. -/
structure Link where
  sent : Bytes
  unread : Bytes
  phase : Phase
  delivered : Bytes
  /-- A write has returned an error. -/
  writeFailed : Bool

def Link.initial : Link := ⟨[], [], .idle, [], false⟩

/-- The sender sends more bytes. -/
def Link.receive (l : Link) (bs : Bytes) : Link :=
  { l with sent := l.sent ++ bs, unread := l.unread ++ bs }

def afterRead (acc : Bytes) : Phase :=
  match readProgress acc with
  | .wants _ => .reading acc
  | .message header payload => .processing header payload
  | .refused => .closingClient

def afterWrite : Outcome → Phase
  | .returned none => .reading []
  | .returned (some _) => .closingClient
  | .panicked => .panicked

def Outcome.failed : Outcome → Bool
  | .returned (some _) => true
  | _ => false

/-- The steps of `forward` on one direction, with what it finds open. -/
inductive LinkStep (processor : Header → Bytes → Bytes) (srcOpen dstOpen : Bool) :
    Link → Link → Prop
  /-- A `Read` returns a chunk, of at most the bytes asked for. -/
  | read {l : Link} {acc c rest : Bytes} {n : Nat} (hphase : l.phase = .reading acc)
      (hopen : srcOpen = true) (hwants : readProgress acc = .wants n) (hc : c.length ≤ n)
      (hunread : l.unread = c ++ rest) :
      LinkStep processor srcOpen dstOpen l
        { l with unread := rest, phase := afterRead (acc ++ c) }
  /-- A `Read` fails: end of stream, a reset, or the connection was closed. -/
  | readFails {l : Link} {acc : Bytes} (hphase : l.phase = .reading acc) :
      LinkStep processor srcOpen dstOpen l { l with phase := .closingClient }
  /-- `processor` returns. -/
  | process {l : Link} {header : Header} {payload : Bytes}
      (hphase : l.phase = .processing header payload) :
      LinkStep processor srcOpen dstOpen l
        { l with phase := .writing header (processor header payload) }
  /-- `WriteMessage` returns; on a connection that is closed it fails and delivers
  nothing. -/
  | write {l : Link} {header : Header} {payload delivered : Bytes} {dst : Sink}
      {outcome : Outcome} (hphase : l.phase = .writing header payload)
      (hwrite : writeMessage dst l.delivered header payload = (outcome, delivered))
      (hclosed : dstOpen = false → outcome ≠ .returned none ∧ delivered = l.delivered) :
      LinkStep processor srcOpen dstOpen l
        { l with
          phase := afterWrite outcome
          delivered := delivered
          writeFailed := outcome.failed }

/-! ### What goes out -/

/-- What `WriteMessage` puts on the wire for a frame that came in; nothing if it
panics. -/
def image (processor : Header → Bytes → Bytes) (fr : Bytes) : Option Bytes :=
  messageBuffer (headerOf fr) (processor (headerOf fr) (payloadOf fr))

theorem image_of_sendable {processor : Header → Bytes → Bytes} {fr : Bytes}
    (h : Sendable processor fr) : image processor fr = some (relay processor fr) :=
  messageBuffer_eq _ h

theorem image_of_unchanged {processor : Header → Bytes → Bytes} {fr : Bytes} (hfr : IsFrame fr)
    (h : processor (headerOf fr) (payloadOf fr) = payloadOf fr) : image processor fr = some fr := by
  rw [image_of_sendable (sendable_of_eq hfr h), relay_eq_self hfr h]

theorem image_frame (processor : Header → Bytes → Bytes) (h : Header) (p : Bytes) :
    image processor (frame h p) = messageBuffer h (processor h p) := by
  rw [image, headerOf_frame, payloadOf_frame]

/-- `out` is what goes out for the frames `frs`, one after the other. -/
def Emits (processor : Header → Bytes → Bytes) (frs : List Bytes) (out : Bytes) : Prop :=
  ∃ bufs : List Bytes, frs.map (image processor) = bufs.map some ∧ out = bufs.flatten

theorem Emits.nil (processor : Header → Bytes → Bytes) : Emits processor [] [] :=
  ⟨[], rfl, rfl⟩

theorem Emits.snoc {processor : Header → Bytes → Bytes} {frs : List Bytes} {fr out buf : Bytes}
    (h : Emits processor frs out) (hbuf : image processor fr = some buf) :
    Emits processor (frs ++ [fr]) (out ++ buf) := by
  obtain ⟨bufs, hbufs, rfl⟩ := h
  exact ⟨bufs ++ [buf], by simp [hbufs, hbuf], by simp⟩

/-- More frames in, more bytes out. -/
theorem Emits.mono {processor : Header → Bytes → Bytes} {frs frs' : List Bytes} {out out' : Bytes}
    (h : Emits processor frs out) (h' : Emits processor frs' out') (hfrs : frs <+: frs') :
    out <+: out' := by
  obtain ⟨bufs, hbufs, rfl⟩ := h
  obtain ⟨bufs', hbufs', rfl⟩ := h'
  have hmap : bufs.map some <+: bufs'.map some := by
    rw [← hbufs, ← hbufs']
    exact hfrs.map _
  obtain ⟨more, hmore⟩ := hmap
  have hfront : bufs = bufs'.take bufs.length := by
    have htake := congrArg (List.take bufs.length) hmore
    rw [List.take_left' (List.length_map _), ← List.map_take] at htake
    exact List.map_injective_iff.mpr (Option.some_injective _) htake
  rw [← List.take_append_drop bufs.length bufs', ← hfront, List.flatten_append]
  exact List.prefix_append _ _

/-- On the passthrough side what goes out is what came in. -/
theorem Emits.eq_flatten {processor : Header → Bytes → Bytes} {frs : List Bytes} {out : Bytes}
    (h : Emits processor frs out) (hself : ∀ fr ∈ frs, image processor fr = some fr) :
    out = frs.flatten := by
  obtain ⟨bufs, hbufs, rfl⟩ := h
  rw [List.map_congr_left hself] at hbufs
  rw [List.map_injective_iff.mpr (Option.some_injective _) hbufs]

/-! ### The invariant -/

/-- `forward` has returned, or has taken the process down. -/
def Phase.Stopped : Phase → Prop
  | .closingClient | .closingUpstream | .signalling | .finished | .panicked => True
  | .idle | .reading _ | .processing _ _ | .writing _ _ => False

/-- The states one direction can be in. Before a write fails, what was delivered
is what goes out for the frames read so far; after that it ends inside the
frame that failed. -/
inductive Link.Good (processor : Header → Bytes → Bytes) (l : Link) : Prop
  | idle (hphase : l.phase = .idle) (hsent : l.sent = l.unread) (hdelivered : l.delivered = [])
      (hok : l.writeFailed = false)
  | reading {frs : List Bytes} {acc : Bytes} {n : Nat} (hphase : l.phase = .reading acc)
      (hframes : ∀ fr ∈ frs, IsFrame fr) (hemits : Emits processor frs l.delivered)
      (hsent : l.sent = frs.flatten ++ acc ++ l.unread) (hwants : readProgress acc = .wants n)
      (hok : l.writeFailed = false)
  | processing {frs : List Bytes} {h : Header} {p : Bytes} (hphase : l.phase = .processing h p)
      (hframes : ∀ fr ∈ frs, IsFrame fr) (hemits : Emits processor frs l.delivered)
      (hfits : Fits p) (hsent : l.sent = frs.flatten ++ frame h p ++ l.unread)
      (hok : l.writeFailed = false)
  | writing {frs : List Bytes} {h : Header} {p : Bytes}
      (hphase : l.phase = .writing h (processor h p))
      (hframes : ∀ fr ∈ frs, IsFrame fr) (hemits : Emits processor frs l.delivered)
      (hfits : Fits p) (hsent : l.sent = frs.flatten ++ frame h p ++ l.unread)
      (hok : l.writeFailed = false)
  | stopped {frs : List Bytes} (hphase : l.phase.Stopped) (hleads : wire.Leads frs l.sent)
      (hemits : Emits processor frs l.delivered) (hok : l.writeFailed = false)
  | cut {frs : List Bytes} {fr out buf part : Bytes} (hphase : l.phase.Stopped)
      (hleads : wire.Leads (frs ++ [fr]) l.sent) (hemits : Emits processor frs out)
      (hbuf : image processor fr = some buf) (hpart : part <+: buf)
      (hdelivered : l.delivered = out ++ part) (hfailed : l.writeFailed = true)

theorem Link.good_initial (processor : Header → Bytes → Bytes) : Link.initial.Good processor :=
  .idle rfl rfl rfl rfl

theorem Link.Good.receive {processor : Header → Bytes → Bytes} {l : Link} (h : l.Good processor)
    (bs : Bytes) : (l.receive bs).Good processor := by
  have hgrow : l.sent <+: (l.receive bs).sent := List.prefix_append _ _
  cases h with
  | idle hphase hsent hdelivered hok =>
      exact .idle hphase (congrArg (· ++ bs) hsent) hdelivered hok
  | reading hphase hframes hemits hsent hwants hok =>
      refine .reading hphase hframes hemits ?_ hwants hok
      simp only [Link.receive, hsent, List.append_assoc]
  | processing hphase hframes hemits hfits hsent hok =>
      refine .processing hphase hframes hemits hfits ?_ hok
      simp only [Link.receive, hsent, List.append_assoc]
  | writing hphase hframes hemits hfits hsent hok =>
      refine .writing hphase hframes hemits hfits ?_ hok
      simp only [Link.receive, hsent, List.append_assoc]
  | stopped hphase hleads hemits hok =>
      exact .stopped hphase (hleads.mono hgrow) hemits hok
  | cut hphase hleads hemits hbuf hpart hdelivered hfailed =>
      exact .cut hphase (hleads.mono hgrow) hemits hbuf hpart hdelivered hfailed

theorem Link.Good.start {processor : Header → Bytes → Bytes} {l : Link} (h : l.Good processor)
    (hidle : l.phase = .idle) : Link.Good processor { l with phase := .reading [] } := by
  cases h with
  | idle hphase hsent hdelivered hok =>
      have hemits : Emits processor [] l.delivered := hdelivered ▸ Emits.nil processor
      exact .reading rfl (by simp) hemits hsent rfl hok
  | reading hphase => simp [hphase] at hidle
  | processing hphase => simp [hphase] at hidle
  | writing hphase => simp [hphase] at hidle
  | stopped hphase => simp [hidle, Phase.Stopped] at hphase
  | cut hphase => simp [hidle, Phase.Stopped] at hphase

/-- The steps after `forward` has returned touch nothing here. -/
theorem Link.Good.advance {processor : Header → Bytes → Bytes} {l : Link} {phase : Phase}
    (h : l.Good processor) (hfrom : l.phase.Stopped) (hto : phase.Stopped) :
    Link.Good processor { l with phase := phase } := by
  cases h with
  | idle hphase => simp [hphase, Phase.Stopped] at hfrom
  | reading hphase => simp [hphase, Phase.Stopped] at hfrom
  | processing hphase => simp [hphase, Phase.Stopped] at hfrom
  | writing hphase => simp [hphase, Phase.Stopped] at hfrom
  | stopped _ hleads hemits hok => exact .stopped hto hleads hemits hok
  | cut _ hleads hemits hbuf hpart hdelivered hfailed =>
      exact .cut hto hleads hemits hbuf hpart hdelivered hfailed

theorem writeMessage_cases {dst : Sink} {delivered delivered' : Bytes} {header : Header}
    {payload : Bytes} {outcome : Outcome}
    (h : writeMessage dst delivered header payload = (outcome, delivered')) :
    (outcome = .panicked ∧ delivered' = delivered) ∨
      ∃ buf, messageBuffer header payload = some buf ∧
        ((outcome = .returned none ∧ delivered' = delivered ++ buf) ∨
          ∃ err n, outcome = .returned (some err) ∧ delivered' = delivered ++ buf.take n) := by
  simp only [writeMessage] at h
  cases hbuf : messageBuffer header payload with
  | none =>
      simp only [hbuf, Prod.mk.injEq] at h
      exact Or.inl ⟨h.1.symm, h.2.symm⟩
  | some buf =>
      refine Or.inr ⟨buf, rfl, ?_⟩
      simp only [hbuf, Sink.write] at h
      cases hfault : dst.fault delivered buf with
      | none =>
          simp only [hfault, Prod.mk.injEq] at h
          exact Or.inl ⟨h.1.symm, h.2.symm⟩
      | some fault =>
          simp only [hfault, Prod.mk.injEq] at h
          exact Or.inr ⟨_, fault.1, h.1.symm, h.2.symm⟩

theorem Link.Good.read {processor : Header → Bytes → Bytes} {l : Link} {acc c rest : Bytes}
    {n : Nat} (hgood : l.Good processor) (hphase : l.phase = .reading acc)
    (hwants : readProgress acc = .wants n) (hc : c.length ≤ n) (hunread : l.unread = c ++ rest) :
    Link.Good processor { l with unread := rest, phase := afterRead (acc ++ c) } := by
  cases hgood with
  | idle h => simp [h] at hphase
  | processing h => simp [h] at hphase
  | writing h => simp [h] at hphase
  | stopped h => simp [hphase, Phase.Stopped] at h
  | cut h => simp [hphase, Phase.Stopped] at h
  | @reading frs acc' m h hframes hemits hsent _ hok =>
      rw [h, Phase.reading.injEq] at hphase
      subst hphase
      rw [hunread, ← List.append_assoc, List.append_assoc frs.flatten] at hsent
      cases hprogress : readProgress (acc' ++ c) with
      | wants k =>
          simp only [afterRead, hprogress]
          exact .reading rfl hframes hemits hsent hprogress hok
      | message header payload =>
          obtain ⟨hfits, hframe⟩ := readProgress_message hwants hc hprogress
          simp only [afterRead, hprogress]
          exact .processing rfl hframes hemits hfits (hframe ▸ hsent) hok
      | refused =>
          simp only [afterRead, hprogress]
          exact .stopped trivial ⟨hframes, hsent ▸ by simp⟩ hemits hok

theorem Link.Good.process {processor : Header → Bytes → Bytes} {l : Link} {header : Header}
    {payload : Bytes} (hgood : l.Good processor) (hphase : l.phase = .processing header payload) :
    Link.Good processor { l with phase := .writing header (processor header payload) } := by
  cases hgood with
  | idle h => simp [h] at hphase
  | reading h => simp [h] at hphase
  | writing h => simp [h] at hphase
  | stopped h => simp [hphase, Phase.Stopped] at h
  | cut h => simp [hphase, Phase.Stopped] at h
  | processing h hframes hemits hfits hsent hok =>
      rw [h, Phase.processing.injEq] at hphase
      obtain ⟨rfl, rfl⟩ := hphase
      exact .writing rfl hframes hemits hfits hsent hok

theorem Link.Good.write {processor : Header → Bytes → Bytes} {l : Link} {header : Header}
    {payload delivered : Bytes} {dst : Sink} {outcome : Outcome} (hgood : l.Good processor)
    (hphase : l.phase = .writing header payload)
    (hwrite : writeMessage dst l.delivered header payload = (outcome, delivered)) :
    Link.Good processor
      { l with
        phase := afterWrite outcome
        delivered := delivered
        writeFailed := outcome.failed } := by
  cases hgood with
  | idle h => simp [h] at hphase
  | reading h => simp [h] at hphase
  | processing h => simp [h] at hphase
  | stopped h => simp [hphase, Phase.Stopped] at h
  | cut h => simp [hphase, Phase.Stopped] at h
  | @writing frs header' payload' h hframes hemits hfits hsent hok =>
      rw [h, Phase.writing.injEq] at hphase
      obtain ⟨rfl, rfl⟩ := hphase
      have hframe : wire.IsFrame (frame header' payload') := isFrame_frame header' hfits
      have hleads : wire.Leads (frs ++ [frame header' payload']) l.sent :=
        hsent ▸ Framing.Leads.snoc hframes hframe
      rcases writeMessage_cases hwrite with ⟨rfl, rfl⟩ | ⟨buf, hbuf, hcase⟩
      · exact .stopped trivial ⟨hframes, hsent ▸ by simp⟩ hemits rfl
      rw [← image_frame] at hbuf
      rcases hcase with ⟨rfl, rfl⟩ | ⟨err, n, rfl, rfl⟩
      · refine .reading rfl hleads.1 (hemits.snoc hbuf) ?_ rfl rfl
        simpa using hsent
      · exact .cut trivial hleads hemits hbuf (List.take_prefix n buf) rfl rfl

/-- Every step of the machine keeps the invariant, whatever is open. -/
theorem LinkStep.good {processor : Header → Bytes → Bytes} {srcOpen dstOpen : Bool} {l l' : Link}
    (hstep : LinkStep processor srcOpen dstOpen l l') (hgood : l.Good processor) :
    l'.Good processor := by
  cases hstep with
  | read hphase _ hwants hc hunread => exact hgood.read hphase hwants hc hunread
  | process hphase => exact hgood.process hphase
  | write hphase hwrite _ => exact hgood.write hphase hwrite
  | readFails hphase =>
      cases hgood with
      | idle h => simp [h] at hphase
      | processing h => simp [h] at hphase
      | writing h => simp [h] at hphase
      | stopped h => simp [hphase, Phase.Stopped] at h
      | cut h => simp [hphase, Phase.Stopped] at h
      | reading _ hframes hemits hsent _ hok =>
          exact .stopped trivial ⟨hframes, hsent ▸ by simp⟩ hemits hok

/-! ### What the invariant says -/

/-- The frames delivered, and part of one more if a write failed. -/
theorem Link.Good.delivered {processor : Header → Bytes → Bytes} {l : Link}
    (h : l.Good processor) :
    (∃ frs, wire.Leads frs l.sent ∧ Emits processor frs l.delivered) ∨
      (l.writeFailed = true ∧ ∃ frs fr out buf part, wire.Leads (frs ++ [fr]) l.sent ∧
        Emits processor frs out ∧ image processor fr = some buf ∧ part <+: buf ∧
        l.delivered = out ++ part) := by
  cases h with
  | idle _ _ hdelivered _ =>
      exact Or.inl ⟨[], Framing.leads_nil _, hdelivered ▸ Emits.nil processor⟩
  | reading _ hframes hemits hsent _ _ =>
      exact Or.inl ⟨_, ⟨hframes, hsent ▸ by simp⟩, hemits⟩
  | processing _ hframes hemits _ hsent _ =>
      exact Or.inl ⟨_, ⟨hframes, hsent ▸ by simp⟩, hemits⟩
  | writing _ hframes hemits _ hsent _ =>
      exact Or.inl ⟨_, ⟨hframes, hsent ▸ by simp⟩, hemits⟩
  | stopped _ hleads hemits _ => exact Or.inl ⟨_, hleads, hemits⟩
  | cut _ hleads hemits hbuf hpart hdelivered hfailed =>
      exact Or.inr ⟨hfailed, _, _, _, _, _, hleads, hemits, hbuf, hpart, hdelivered⟩

/-- Either way it is the beginning of what goes out for frames that were sent. -/
theorem Link.Good.delivered_front {processor : Header → Bytes → Bytes} {l : Link}
    (h : l.Good processor) :
    ∃ frs out, wire.Leads frs l.sent ∧ Emits processor frs out ∧ l.delivered <+: out := by
  rcases h.delivered with ⟨frs, hleads, hemits⟩ | ⟨-, frs, fr, out, buf, part, hleads, hemits,
    hbuf, hpart, hdelivered⟩
  · exact ⟨frs, _, hleads, hemits, List.prefix_rfl⟩
  · refine ⟨frs ++ [fr], out ++ buf, hleads, hemits.snoc hbuf, ?_⟩
    rw [hdelivered]
    exact (List.prefix_append_right_inj _).mpr hpart

/-- What is delivered for a longer stream and for a shorter one differs only in
where it stops. -/
theorem Link.Good.comparable {processor : Header → Bytes → Bytes} {l l' : Link}
    (h : l.Good processor) (h' : l'.Good processor) (hsent : l.sent <+: l'.sent) :
    l.delivered <+: l'.delivered ∨ l'.delivered <+: l.delivered := by
  obtain ⟨frs, out, hleads, hemits, hout⟩ := h.delivered_front
  obtain ⟨frs', out', hleads', hemits', hout'⟩ := h'.delivered_front
  rcases (hleads.mono hsent).comparable hleads' with hfrs | hfrs
  · exact List.prefix_or_prefix_of_prefix (hout.trans (hemits.mono hemits' hfrs)) hout'
  · exact List.prefix_or_prefix_of_prefix hout (hout'.trans (hemits'.mono hemits hfrs))

theorem Link.Good.stopped_of_writeFailed {processor : Header → Bytes → Bytes} {l : Link}
    (h : l.Good processor) (hfailed : l.writeFailed = true) : l.phase.Stopped := by
  cases h with
  | idle _ _ _ hok => simp [hok] at hfailed
  | reading _ _ _ _ _ hok => simp [hok] at hfailed
  | processing _ _ _ _ _ hok => simp [hok] at hfailed
  | writing _ _ _ _ _ hok => simp [hok] at hfailed
  | stopped hphase => exact hphase
  | cut hphase => exact hphase

/-- A stopped direction takes no step of `forward`. -/
theorem LinkStep.not_stopped {processor : Header → Bytes → Bytes} {srcOpen dstOpen : Bool}
    {l l' : Link} (hstep : LinkStep processor srcOpen dstOpen l l') : ¬ l.phase.Stopped := by
  cases hstep with
  | read hphase => simp [hphase, Phase.Stopped]
  | readFails hphase => simp [hphase, Phase.Stopped]
  | process hphase => simp [hphase, Phase.Stopped]
  | write hphase => simp [hphase, Phase.Stopped]

/-! ### A frame goes through -/

theorem readProgress_word {p : Bytes} (hp : Fits p) :
    readProgress (putUint32 (UInt32.ofNat (lengthPrefixSize + headerSize + p.length))) =
      .wants (headerSize + p.length) := by
  have hword := frame_lengthWord hp
  have hsmall : ¬ lengthPrefixSize + headerSize + p.length - lengthPrefixSize > maxMessageSize := by
    simp only [Fits, maxMessageSize, headerSize, lengthPrefixSize] at *
    omega
  simp only [readProgress, putUint32_length, uint32_putUint32, hword]
  rw [if_neg (by simp only [lengthPrefixSize]; omega), if_neg (by omega), if_neg hsmall,
    if_pos (by simp only [lengthPrefixSize, headerSize]; omega), Progress.wants.injEq]
  simp only [lengthPrefixSize]
  omega

theorem readProgress_frame (h : Header) {p : Bytes} (hp : Fits p) :
    readProgress (frame h p) = .message h p := by
  have hword := frame_lengthWord hp
  have hsmall : ¬ lengthPrefixSize + headerSize + p.length - lengthPrefixSize > maxMessageSize := by
    simp only [Fits, maxMessageSize, headerSize, lengthPrefixSize] at *
    omega
  have huint : uint32 (frame h p) =
      UInt32.ofNat (lengthPrefixSize + headerSize + p.length) := by
    rw [frame, List.append_assoc, uint32_putUint32_append]
  simp only [readProgress, frame_length, huint, hword, headerOf_frame, payloadOf_frame]
  rw [if_neg (by omega), if_neg (by omega), if_neg hsmall, if_neg (by omega)]

/-- A frame that has arrived can be read, the length word first, and processed. -/
theorem link_processes {processor : Header → Bytes → Bytes} {dstOpen : Bool} {l : Link}
    {h : Header} {p rest : Bytes} (hp : Fits p) (hphase : l.phase = .reading [])
    (hunread : l.unread = frame h p ++ rest) :
    Relation.ReflTransGen (LinkStep processor true dstOpen) l
      { l with unread := rest, phase := .writing h (processor h p) } := by
  have hframe : frame h p = putUint32 (UInt32.ofNat (lengthPrefixSize + headerSize + p.length)) ++
      (marshalHeader h ++ p) := List.append_assoc _ _ _
  have hword := readProgress_word hp
  have hmessage := readProgress_frame h hp
  have hwordLen : (putUint32 (UInt32.ofNat (lengthPrefixSize + headerSize + p.length))).length ≤
      4 := (putUint32_length _).le
  have hbodyLen : (marshalHeader h ++ p).length ≤ headerSize + p.length := by simp
  generalize putUint32 (UInt32.ofNat (lengthPrefixSize + headerSize + p.length)) = word at *
  generalize marshalHeader h ++ p = body at *
  have hhead : LinkStep processor true dstOpen l
      { l with unread := body ++ rest, phase := afterRead ([] ++ word) } :=
    .read hphase rfl rfl hwordLen (by rw [hunread, hframe, List.append_assoc])
  rw [List.nil_append, afterRead, hword] at hhead
  have hbody : LinkStep processor true dstOpen
      { l with unread := body ++ rest, phase := .reading word }
      { l with unread := rest, phase := afterRead (word ++ body) } :=
    .read rfl rfl hword hbodyLen rfl
  rw [← hframe, afterRead, hmessage] at hbody
  exact ((Relation.ReflTransGen.single hhead).tail hbody).tail (.process rfl)

end DraEnv.Virtinjectd
