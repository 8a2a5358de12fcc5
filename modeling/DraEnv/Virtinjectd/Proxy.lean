import DraEnv.Virtinjectd.Chain
import DraEnv.Virtinjectd.Protocol
import DraEnv.Virtinjectd.Xdr

/-!
The message path of `virtinjectd/proxy.go`: the loop that relays one
direction of a connection, and the closure that rewrites the domain XML of
a define call on its way to the server.

`forward` reads, processes and writes until something fails. It terminates
because every message it reads takes bytes off a finite stream, and its
behaviour on a stream is `forward_leads` and `forward_longest`: one frame
out for each frame in, in order, and nothing else.
-/

namespace DraEnv.Virtinjectd

open DraEnv.GoStd DraEnv.Foundation

/-- The error of `patchDefineXML`, from the codec or from the hooks. -/
inductive PatchError where
  | xdr (err : GoError)
  | hooks (err : HookError)
  deriving DecidableEq, Repr

def patchDefineXML (w : IntSize) (host : Host) (payload : Bytes) (hooks : HookChain) :
    Bytes × Option PatchError :=
  match decodeXDRString w payload with
  | .error err => (payload, some (.xdr err))
  | .ok (xmlStr, _) =>
      let patched := hooks.run host xmlStr
      match patched.err with
      | some err => (payload, some (.hooks err))
      | none =>
          if patched.output = xmlStr then (payload, none)
          else
            match replaceXDRString w payload patched.output with
            | (_, some err) => (payload, some (.xdr err))
            | (newPayload, none) => (newPayload, none)

/-- The client-to-server processor. -/
def intercept (w : IntSize) (host : Host) (hooks : HookChain) (header : Header)
    (payload : Bytes) : Bytes :=
  if !isDomainDefineCall header then payload
  else
    match patchDefineXML w host payload hooks with
    | (_, some _) => payload
    | (updatedPayload, none) => updatedPayload

/-- The server-to-client processor. -/
def passthrough (_ : Header) (payload : Bytes) : Bytes := payload

theorem intercept_of_not_define (w : IntSize) (host : Host) (hooks : HookChain) {header : Header}
    (payload : Bytes) (h : isDomainDefineCall header = false) :
    intercept w host hooks header payload = payload := by
  simp only [intercept, h, Bool.not_false, if_true]

def isConnectionClosed : Option GoError → Bool
  | none => false
  | some err =>
      err == .eof || err == .closed ||
        (decide ("use of closed network connection".toList <:+: err.error.toList) ||
          decide ("connection reset by peer".toList <:+: err.error.toList))

theorem readMessage_shrinks {src src' : Conn} {m : Header × Bytes}
    (h : readMessage src = (.ok m, src')) : src'.bytes.length < src.bytes.length := by
  obtain ⟨-, hbytes, -⟩ := readMessage_ok h
  rw [hbytes, List.length_append, frame_length]
  simp only [lengthPrefixSize]
  omega

/-- The relay loop from `src` to `dst`, which has delivered `delivered` so far:
how it ends and what has been delivered then. -/
def forward (processor : Header → Bytes → Bytes) (dst : Sink) (src : Conn) (delivered : Bytes) :
    Outcome × Bytes :=
  match _hread : readMessage src with
  | (.error err, _) => (.returned (some err), delivered)
  | (.ok (header, payload), src') =>
      match writeMessage dst delivered header (processor header payload) with
      | (.returned none, delivered) => forward processor dst src' delivered
      | (.returned (some err), delivered) => (.returned (some err), delivered)
      | (.panicked, delivered) => (.panicked, delivered)
termination_by src.bytes.length
decreasing_by exact readMessage_shrinks _hread

/-! ### The loop -/

theorem forward_error {processor : Header → Bytes → Bytes} {dst : Sink} {src src' : Conn}
    {delivered : Bytes} {err : GoError} (h : readMessage src = (.error err, src')) :
    forward processor dst src delivered = (.returned (some err), delivered) := by
  rw [forward]
  split
  · rename_i heq
    rw [h, Prod.mk.injEq, Except.error.injEq] at heq
    rw [heq.1]
  · rename_i heq
    rw [h] at heq
    simp at heq

theorem forward_ok {processor : Header → Bytes → Bytes} {dst : Sink} {src src' : Conn}
    {delivered delivered' : Bytes} {header : Header} {payload : Bytes}
    (h : readMessage src = (.ok (header, payload), src'))
    (hwrite : writeMessage dst delivered header (processor header payload) =
      (.returned none, delivered')) :
    forward processor dst src delivered = forward processor dst src' delivered' := by
  rw [forward]
  split
  · rename_i heq
    rw [h] at heq
    simp at heq
  · rename_i heq
    rw [h, Prod.mk.injEq, Except.ok.injEq, Prod.mk.injEq] at heq
    obtain ⟨⟨rfl, rfl⟩, rfl⟩ := heq
    rw [hwrite]

/-- The words of the header in a frame. -/
def headerOf (fr : Bytes) : Header where
  program := uint32 (slice fr 4 8)
  version := uint32 (slice fr 8 12)
  procedure := uint32 (slice fr 12 16)
  type := uint32 (slice fr 16 20)
  serial := uint32 (slice fr 20 24)
  status := uint32 (slice fr 24 28)

/-- What follows the header in a frame. -/
def payloadOf (fr : Bytes) : Bytes := fr.drop (lengthPrefixSize + headerSize)

@[simp] theorem headerOf_frame (h : Header) (p : Bytes) : headerOf (frame h p) = h := by
  change Header.mk (uint32 (putUint32 h.program)) (uint32 (putUint32 h.version))
    (uint32 (putUint32 h.procedure)) (uint32 (putUint32 h.type)) (uint32 (putUint32 h.serial))
    (uint32 (putUint32 h.status)) = h
  simp only [uint32_putUint32]

@[simp] theorem payloadOf_frame (h : Header) (p : Bytes) : payloadOf (frame h p) = p := rfl

/-- The frame that goes out for a frame that came in: the same header words and
the processed payload. -/
def relay (processor : Header → Bytes → Bytes) (fr : Bytes) : Bytes :=
  frame (headerOf fr) (processor (headerOf fr) (payloadOf fr))

/-- The outgoing frame of `fr` has a length that fits the length word. -/
def Sendable (processor : Header → Bytes → Bytes) (fr : Bytes) : Prop :=
  lengthPrefixSize + headerSize + (processor (headerOf fr) (payloadOf fr)).length < 2 ^ 32

/-- A frame whose payload is left alone is relayed byte for byte. -/
theorem relay_eq_self {processor : Header → Bytes → Bytes} {fr : Bytes} (hfr : IsFrame fr)
    (h : processor (headerOf fr) (payloadOf fr) = payloadOf fr) : relay processor fr = fr := by
  obtain ⟨h', p, -, rfl⟩ := hfr.exists_message
  rw [relay, h, headerOf_frame, payloadOf_frame]

theorem sendable_of_eq {processor : Header → Bytes → Bytes} {fr : Bytes} (hfr : IsFrame fr)
    (h : processor (headerOf fr) (payloadOf fr) = payloadOf fr) : Sendable processor fr := by
  obtain ⟨h', p, hp, rfl⟩ := hfr.exists_message
  rw [Sendable, h, payloadOf_frame]
  exact hp.lt

theorem writeMessage_reliable {delivered : Bytes} {h : Header} {p : Bytes}
    (hp : lengthPrefixSize + headerSize + p.length < 2 ^ 32) :
    writeMessage Sink.reliable delivered h p = (.returned none, delivered ++ frame h p) := by
  simp only [writeMessage, messageBuffer_eq h hp, Sink.write_reliable]

/-- The frames at the front of the stream are relayed one by one, and the loop
then stands before the rest. -/
theorem forward_leads {processor : Header → Bytes → Bytes} (frs : List Bytes) (rest : Bytes)
    (src : Conn) (delivered : Bytes) (hframes : ∀ fr ∈ frs, IsFrame fr)
    (hsend : ∀ fr ∈ frs, Sendable processor fr) (hbytes : src.bytes = frs.flatten ++ rest) :
    ∃ src', src'.bytes = rest ∧ src'.fin = src.fin ∧
      forward processor Sink.reliable src delivered =
        forward processor Sink.reliable src'
          (delivered ++ (frs.map (relay processor)).flatten) := by
  induction frs generalizing src delivered with
  | nil => exact ⟨src, by simpa using hbytes, rfl, by simp⟩
  | cons fr frs ih =>
      obtain ⟨h, p, hp, rfl⟩ := (hframes fr (by simp)).exists_message
      rw [List.flatten_cons, List.append_assoc] at hbytes
      obtain ⟨src₁, hread, hbytes₁, hfin₁⟩ := readMessage_frame hp hbytes
      have hfits : Sendable processor (frame h p) := hsend _ (by simp)
      rw [Sendable, headerOf_frame, payloadOf_frame] at hfits
      obtain ⟨src', hrest, hfin, hloop⟩ := ih src₁ (delivered ++ frame h (processor h p))
        (fun fr hfr => hframes fr (by simp [hfr])) (fun fr hfr => hsend fr (by simp [hfr])) hbytes₁
      refine ⟨src', hrest, hfin.trans hfin₁, ?_⟩
      rw [forward_ok hread (writeMessage_reliable hfits), hloop]
      simp [relay]

/-- On the longest sequence of frames the loop delivers the relayed frames and
then fails on the rest. -/
theorem forward_longest {processor : Header → Bytes → Bytes} {frs : List Bytes} {src : Conn}
    (hlongest : wire.Longest frs src.bytes) (hsend : ∀ fr ∈ frs, Sendable processor fr) :
    ∃ rest, src.bytes = frs.flatten ++ rest ∧ (∀ f, IsFrame f → ¬ f <+: rest) ∧
      forward processor Sink.reliable src [] =
        (.returned (some (readError rest src.fin)), (frs.map (relay processor)).flatten) := by
  obtain ⟨hframes, rest, hbytes, hend⟩ := Framing.longest_iff.mp hlongest
  obtain ⟨src', hrest, hfin, hloop⟩ := forward_leads frs rest src [] hframes hsend hbytes
  rw [← hrest] at hend
  obtain ⟨src'', hread⟩ := readMessage_error hend
  refine ⟨rest, hbytes, hrest ▸ hend, ?_⟩
  rw [hloop, forward_error hread, hrest, hfin, List.nil_append]

end DraEnv.Virtinjectd
