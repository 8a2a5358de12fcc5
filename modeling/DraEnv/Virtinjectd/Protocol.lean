import DraEnv.GoStd.Stream
import DraEnv.Foundation.Framing

/-!
The libvirt RPC wire protocol as `virtinjectd/protocol.go` reads and
writes it: a four-byte length word that counts itself, a header of six
words, and a payload.

The reader enforces two limits on the length word and the writer enforces
none. What the reader does on a stream is one statement, `readMessage_spec`:
either the stream starts with a frame and that frame is taken off, or it
starts with none and the error says why. What the writer builds is
`messageBuffer`, whose length word is computed modulo `2 ^ 32`; below that
it is the frame of its arguments (`messageBuffer_eq`).
-/

namespace DraEnv.Virtinjectd

open DraEnv.GoStd DraEnv.Foundation

def remoteProgram : UInt32 := 0x20008086

def remoteProtocolVersion : UInt32 := 1

def procDomainDefineXML : UInt32 := 11

def procDomainDefineXMLFlags : UInt32 := 350

def typeCall : UInt32 := 0

def headerSize : Nat := 24

def lengthPrefixSize : Nat := 4

def maxMessageSize : Nat := 33554432

/-- The six words of `virNetMessageHeader`. -/
structure Header where
  program : UInt32
  version : UInt32
  procedure : UInt32
  type : UInt32
  serial : UInt32
  status : UInt32
  deriving DecidableEq, Repr

def parseHeader (buf : Bytes) : Except GoError Header :=
  if buf.length < headerSize then
    .error (.msg s!"header buffer too short: {buf.length} < {headerSize}")
  else
    .ok {
      program := uint32 (slice buf 0 4)
      version := uint32 (slice buf 4 8)
      procedure := uint32 (slice buf 8 12)
      type := uint32 (slice buf 12 16)
      serial := uint32 (slice buf 16 20)
      status := uint32 (slice buf 20 24) }

def marshalHeader (h : Header) : Bytes :=
  putUint32 h.program ++ putUint32 h.version ++ putUint32 h.procedure ++
    putUint32 h.type ++ putUint32 h.serial ++ putUint32 h.status

def readMessage (conn : Conn) : Except GoError (Header × Bytes) × Conn :=
  match conn.readFull lengthPrefixSize with
  | (.error err, conn) => (.error (.wrap "reading message length" err), conn)
  | (.ok lengthBuf, conn) =>
      let totalLength := (uint32 lengthBuf).toNat
      if totalLength < lengthPrefixSize + headerSize then
        (.error (.msg s!"message too short: {totalLength} bytes"), conn)
      else
        let dataLength := totalLength - lengthPrefixSize
        if dataLength > maxMessageSize then
          (.error (.msg s!"message too large: {dataLength} > {maxMessageSize}"), conn)
        else
          match conn.readFull dataLength with
          | (.error err, conn) =>
              (.error (.wrap s!"reading message data ({dataLength} bytes)" err), conn)
          | (.ok data, conn) =>
              match parseHeader (data.take headerSize) with
              | .error err => (.error (.wrap "parsing header" err), conn)
              | .ok header => (.ok (header, data.drop headerSize), conn)

/-- The buffer `WriteMessage` builds. The length is converted to `uint32` before
the buffer is made, so it wraps; `none` is the slice-bounds panic of
`buf[4:28]` on a buffer that came out shorter than that. The wrapped length is
at most the real one, so the last `copy` fills the buffer to its end. -/
def messageBuffer (header : Header) (payload : Bytes) : Option Bytes :=
  let totalLength := UInt32.ofNat (lengthPrefixSize + headerSize + payload.length)
  if totalLength.toNat < lengthPrefixSize + headerSize then none
  else some (putUint32 totalLength ++ marshalHeader header ++
    payload.take (totalLength.toNat - (lengthPrefixSize + headerSize)))

/-- How a call that may panic ends. -/
inductive Outcome where
  | returned (err : Option GoError)
  | panicked
  deriving DecidableEq, Repr

/-- `WriteMessage` on a connection that has delivered `delivered` so far. -/
def writeMessage (dst : Sink) (delivered : Bytes) (header : Header) (payload : Bytes) :
    Outcome × Bytes :=
  match messageBuffer header payload with
  | none => (.panicked, delivered)
  | some buf =>
      match dst.write delivered buf with
      | (.ok (), delivered) => (.returned none, delivered)
      | (.error err, delivered) =>
          (.returned (some (.wrap s!"writing message ({buf.length} bytes)" err)), delivered)

def isDomainDefineCall (h : Header) : Bool :=
  h.program == remoteProgram && h.version == remoteProtocolVersion && h.type == typeCall &&
    (h.procedure == procDomainDefineXML || h.procedure == procDomainDefineXMLFlags)

/-- A `REMOTE_PROC_CONNECT_OPEN` call. -/
def openCall : Header := ⟨remoteProgram, remoteProtocolVersion, 1, typeCall, 7, 0⟩

def defineFlagsCall : Header :=
  ⟨remoteProgram, remoteProtocolVersion, procDomainDefineXMLFlags, typeCall, 5, 0⟩

/-! ### The header codec -/

@[simp] theorem marshalHeader_length (h : Header) : (marshalHeader h).length = headerSize := rfl

@[simp] theorem parseHeader_marshalHeader (h : Header) :
    parseHeader (marshalHeader h) = .ok h := by
  rw [parseHeader, if_neg (by simp)]
  change Except.ok (Header.mk (uint32 (putUint32 h.program)) (uint32 (putUint32 h.version))
    (uint32 (putUint32 h.procedure)) (uint32 (putUint32 h.type)) (uint32 (putUint32 h.serial))
    (uint32 (putUint32 h.status))) = Except.ok h
  simp only [uint32_putUint32]

theorem marshalHeader_of_parseHeader {buf : Bytes} {h : Header}
    (hlen : buf.length = headerSize) (hparse : parseHeader buf = .ok h) :
    marshalHeader h = buf := by
  rw [parseHeader, if_neg (by omega), Except.ok.injEq] at hparse
  subst hparse
  simp only [headerSize] at hlen
  simp only [marshalHeader]
  rw [putUint32_uint32_slice (by omega) rfl, putUint32_uint32_slice (by omega) rfl,
    putUint32_uint32_slice (by omega) rfl, putUint32_uint32_slice (by omega) rfl,
    putUint32_uint32_slice (by omega) rfl, putUint32_uint32_slice (by omega) rfl,
    slice_append_slice _ (by omega) (by omega), slice_append_slice _ (by omega) (by omega),
    slice_append_slice _ (by omega) (by omega), slice_append_slice _ (by omega) (by omega),
    slice_append_slice _ (by omega) (by omega)]
  simpa only [hlen] using slice_zero_length buf

/-! ### Frames -/

/-- A four-byte length word `L` within the limits, followed by `L - 4` bytes. -/
def IsFrame (b : Bytes) : Prop :=
  ∃ (length : UInt32) (body : Bytes), b = putUint32 length ++ body ∧
    lengthPrefixSize + headerSize ≤ length.toNat ∧
    length.toNat ≤ maxMessageSize + lengthPrefixSize ∧
    body.length = length.toNat - lengthPrefixSize

/-- The frame of a message. -/
def frame (header : Header) (payload : Bytes) : Bytes :=
  putUint32 (UInt32.ofNat (lengthPrefixSize + headerSize + payload.length)) ++
    marshalHeader header ++ payload

/-- A payload the reader's limits leave room for. -/
def Fits (payload : Bytes) : Prop := payload.length ≤ maxMessageSize - headerSize

instance (payload : Bytes) : Decidable (Fits payload) :=
  inferInstanceAs (Decidable (_ ≤ _))

/-- The error a read ends with when no frame starts `b`. -/
def readError (b : Bytes) (fin : GoError) : GoError :=
  let totalLength := (uint32 b).toNat
  let dataLength := totalLength - lengthPrefixSize
  if b.length < lengthPrefixSize then .wrap "reading message length" (shortRead b fin)
  else if totalLength < lengthPrefixSize + headerSize then
    .msg s!"message too short: {totalLength} bytes"
  else if dataLength > maxMessageSize then
    .msg s!"message too large: {dataLength} > {maxMessageSize}"
  else .wrap s!"reading message data ({dataLength} bytes)"
    (shortRead (b.drop lengthPrefixSize) fin)

@[simp] theorem frame_length (h : Header) (p : Bytes) :
    (frame h p).length = lengthPrefixSize + headerSize + p.length := by
  simp only [frame, List.length_append, putUint32_length, marshalHeader_length, lengthPrefixSize]

theorem frame_lengthWord {p : Bytes} (hp : Fits p) :
    (UInt32.ofNat (lengthPrefixSize + headerSize + p.length)).toNat =
      lengthPrefixSize + headerSize + p.length := by
  simp only [Fits, maxMessageSize, headerSize, lengthPrefixSize] at *
  rw [UInt32.toNat_ofNat', Nat.mod_eq_of_lt (by omega)]

theorem isFrame_frame (h : Header) {p : Bytes} (hp : Fits p) : IsFrame (frame h p) := by
  refine ⟨_, marshalHeader h ++ p, by rw [frame, List.append_assoc], ?_⟩
  rw [frame_lengthWord hp, List.length_append, marshalHeader_length]
  simp only [Fits, maxMessageSize, headerSize, lengthPrefixSize] at *
  omega

/-- Every frame is the frame of exactly the message its bytes spell. -/
theorem IsFrame.exists_message {b : Bytes} (hb : IsFrame b) :
    ∃ h p, Fits p ∧ b = frame h p := by
  obtain ⟨length, body, rfl, hlo, hhi, hbody⟩ := hb
  have hcut : (body.take headerSize).length = headerSize := by
    rw [List.length_take]
    simp only [headerSize, lengthPrefixSize] at *
    omega
  have hparse : ∃ h, parseHeader (body.take headerSize) = .ok h := by
    rw [parseHeader, if_neg (by omega)]
    exact ⟨_, rfl⟩
  obtain ⟨h, hh⟩ := hparse
  have hlength : lengthPrefixSize + headerSize + (body.drop headerSize).length = length.toNat := by
    rw [List.length_drop, hbody]
    simp only [headerSize, lengthPrefixSize] at *
    omega
  refine ⟨h, body.drop headerSize, ?_, ?_⟩
  · simp only [Fits, List.length_drop, maxMessageSize, headerSize, lengthPrefixSize] at *
    omega
  · rw [frame, marshalHeader_of_parseHeader hcut hh, hlength, UInt32.ofNat_toNat,
      List.append_assoc, List.take_append_drop]

theorem IsFrame.eq_of_prefix {f g : Bytes} (hf : IsFrame f) (hg : IsFrame g)
    (hp : f <+: g) : f = g := by
  apply hp.eq_of_length
  obtain ⟨length, body, rfl, hlo, -, hbody⟩ := hf
  obtain ⟨length', body', rfl, hlo', -, hbody'⟩ := hg
  obtain ⟨more, hmore⟩ := hp
  -- the length words agree, and the length word decides the length
  have hword : length = length' := by
    rw [← uint32_putUint32_append length (body ++ more), ← List.append_assoc, hmore,
      uint32_putUint32_append]
  subst hword
  simp only [List.length_append, putUint32_length, hbody, hbody']

/-- The frames of the protocol are a prefix-free set. -/
def wire : Framing UInt8 where
  IsFrame := IsFrame
  ne_nil := by
    rintro f ⟨length, body, rfl, -, -, -⟩
    simp [putUint32]
  prefix_free := IsFrame.eq_of_prefix

/-- A frame spells one message only. -/
theorem frame_inj {h h' : Header} {p p' : Bytes} (heq : frame h p = frame h' p') :
    h = h' ∧ p = p' := by
  have hlen : p.length = p'.length := by
    have := congrArg List.length heq
    simpa using this
  rw [frame, frame, hlen] at heq
  have htail := List.append_cancel_left (by simpa only [List.append_assoc] using heq)
  obtain ⟨hh, hp⟩ := List.append_inj htail (by simp)
  refine ⟨?_, hp⟩
  have := congrArg parseHeader hh
  rwa [parseHeader_marshalHeader, parseHeader_marshalHeader, Except.ok.injEq] at this

/-! ### Reading -/

/-- A stream that starts with a frame: the message is returned and exactly the
rest of the stream is left. -/
theorem readMessage_frame {conn : Conn} {h : Header} {p rest : Bytes} (hp : Fits p)
    (hbytes : conn.bytes = frame h p ++ rest) :
    ∃ conn', readMessage conn = (.ok (h, p), conn') ∧ conn'.bytes = rest ∧
      conn'.fin = conn.fin := by
  have hword := frame_lengthWord hp
  rw [frame, List.append_assoc, List.append_assoc] at hbytes
  obtain ⟨conn₁, hread₁, hbytes₁, hfin₁⟩ := readFull_ok conn lengthPrefixSize
    (by simp [hbytes, lengthPrefixSize])
  rw [hbytes, List.take_left' (by rfl)] at hread₁
  rw [hbytes, List.drop_left' (by rfl), ← List.append_assoc] at hbytes₁
  have hdata : lengthPrefixSize + headerSize + p.length - lengthPrefixSize =
      (marshalHeader h ++ p).length := by
    simp only [List.length_append, marshalHeader_length]
    omega
  obtain ⟨conn₂, hread₂, hbytes₂, hfin₂⟩ := readFull_ok conn₁
    (lengthPrefixSize + headerSize + p.length - lengthPrefixSize)
    (by rw [hbytes₁, hdata]; simp)
  rw [hbytes₁, hdata, List.take_left, ← hdata] at hread₂
  rw [hbytes₁, hdata, List.drop_left] at hbytes₂
  refine ⟨conn₂, ?_, hbytes₂, hfin₂.trans hfin₁⟩
  have hshort : ¬ lengthPrefixSize + headerSize + p.length < lengthPrefixSize + headerSize := by
    omega
  have hlarge : ¬ lengthPrefixSize + headerSize + p.length - lengthPrefixSize > maxMessageSize := by
    simp only [Fits, headerSize, lengthPrefixSize, maxMessageSize] at *
    omega
  simp only [readMessage, hread₁, uint32_putUint32, hword, if_neg hshort, if_neg hlarge, hread₂]
  rw [List.take_left' (marshalHeader_length h), List.drop_left' (marshalHeader_length h),
    parseHeader_marshalHeader]

/-- A length word within the limits and enough bytes behind it are a frame. -/
theorem isFrame_take {b : Bytes} (hlen : lengthPrefixSize ≤ b.length)
    (hlo : lengthPrefixSize + headerSize ≤ (uint32 b).toNat)
    (hhi : (uint32 b).toNat ≤ maxMessageSize + lengthPrefixSize)
    (hfull : (uint32 b).toNat ≤ b.length) : IsFrame (b.take (uint32 b).toNat) := by
  simp only [lengthPrefixSize, headerSize] at hlen hlo
  refine ⟨uint32 b, slice b 4 (uint32 b).toNat, ?_, hlo, hhi, ?_⟩
  · have hhead : putUint32 (uint32 b) = slice b 0 4 := by
      have hfour := putUint32_uint32_slice hlen (i := 0) rfl
      rwa [show uint32 (slice b 0 4) = uint32 b from uint32_take b] at hfour
    rw [hhead, slice_append_slice _ (by omega) (by omega)]
    simp [slice]
  · rw [slice_length (by omega) hfull, lengthPrefixSize]

/-- A stream that starts with no frame: the read fails, and how it fails is
decided by the bytes that are there. -/
theorem readMessage_error {conn : Conn} (hno : ∀ f, IsFrame f → ¬ f <+: conn.bytes) :
    ∃ conn', readMessage conn = (.error (readError conn.bytes conn.fin), conn') := by
  by_cases hlen : conn.bytes.length < lengthPrefixSize
  · obtain ⟨conn₁, hread, -, -⟩ := readFull_error conn lengthPrefixSize hlen
    exact ⟨conn₁, by simp only [readMessage, hread, readError, if_pos hlen]⟩
  obtain ⟨conn₁, hread₁, hbytes₁, hfin₁⟩ := readFull_ok conn lengthPrefixSize (Nat.not_lt.mp hlen)
  have hword : uint32 (conn.bytes.take lengthPrefixSize) = uint32 conn.bytes :=
    uint32_take conn.bytes
  by_cases hshort : (uint32 conn.bytes).toNat < lengthPrefixSize + headerSize
  · exact ⟨conn₁, by
      simp only [readMessage, hread₁, hword, readError, if_neg hlen, if_pos hshort]⟩
  by_cases hlarge : (uint32 conn.bytes).toNat - lengthPrefixSize > maxMessageSize
  · exact ⟨conn₁, by
      simp only [readMessage, hread₁, hword, readError, if_neg hlen, if_neg hshort, if_pos hlarge]⟩
  -- the length word is within the limits, so the body must be cut short
  have hcut : conn₁.bytes.length < (uint32 conn.bytes).toNat - lengthPrefixSize := by
    by_contra hfull
    rw [hbytes₁, List.length_drop] at hfull
    exact hno _ (isFrame_take (Nat.not_lt.mp hlen) (by omega) (by omega) (by omega))
      (List.take_prefix _ _)
  obtain ⟨conn₂, hread₂, -, -⟩ := readFull_error conn₁ _ hcut
  rw [hbytes₁, hfin₁] at hread₂
  exact ⟨conn₂, by
    simp only [readMessage, hread₁, hword, readError, if_neg hlen, if_neg hshort, if_neg hlarge,
      hread₂]⟩

/-- What the reader does on any stream, in any chunking. -/
theorem readMessage_spec (conn : Conn) :
    (∃ h p conn', Fits p ∧ conn.bytes = frame h p ++ conn'.bytes ∧ conn'.fin = conn.fin ∧
      readMessage conn = (.ok (h, p), conn')) ∨
    ((∀ f, IsFrame f → ¬ f <+: conn.bytes) ∧
      ∃ conn', readMessage conn = (.error (readError conn.bytes conn.fin), conn')) := by
  by_cases hex : ∃ f, IsFrame f ∧ f <+: conn.bytes
  · obtain ⟨f, hf, rest, hrest⟩ := hex
    obtain ⟨h, p, hp, rfl⟩ := hf.exists_message
    obtain ⟨conn', hread, hbytes, hfin⟩ := readMessage_frame hp hrest.symm
    exact Or.inl ⟨h, p, conn', hp, by rw [hbytes, hrest], hfin, hread⟩
  · have hno : ∀ f, IsFrame f → ¬ f <+: conn.bytes := fun f hf hp => hex ⟨f, hf, hp⟩
    exact Or.inr ⟨hno, readMessage_error hno⟩

/-- What is known of a stream from which a message was read. -/
theorem readMessage_ok {conn conn' : Conn} {h : Header} {p : Bytes}
    (hread : readMessage conn = (.ok (h, p), conn')) :
    Fits p ∧ conn.bytes = frame h p ++ conn'.bytes ∧ conn'.fin = conn.fin := by
  rcases readMessage_spec conn with ⟨h₁, p₁, conn₁, hp, hbytes, hfin, hread₁⟩ | ⟨-, conn₁, hread₁⟩
  · rw [hread₁] at hread
    simp only [Prod.mk.injEq, Except.ok.injEq] at hread
    obtain ⟨⟨rfl, rfl⟩, rfl⟩ := hread
    exact ⟨hp, hbytes, hfin⟩
  · rw [hread₁] at hread
    simp at hread

/-! ### Writing -/

/-- Below `2 ^ 32` the writer builds the frame of its arguments. -/
theorem messageBuffer_eq (h : Header) {p : Bytes}
    (hp : lengthPrefixSize + headerSize + p.length < 2 ^ 32) :
    messageBuffer h p = some (frame h p) := by
  have hword : (UInt32.ofNat (lengthPrefixSize + headerSize + p.length)).toNat =
      lengthPrefixSize + headerSize + p.length := by
    rw [UInt32.toNat_ofNat', Nat.mod_eq_of_lt hp]
  rw [messageBuffer, hword, if_neg (by omega), frame, List.take_of_length_le (by omega)]

theorem Fits.lt {p : Bytes} (hp : Fits p) :
    lengthPrefixSize + headerSize + p.length < 2 ^ 32 := by
  simp only [Fits, lengthPrefixSize, headerSize, maxMessageSize] at *
  omega

end DraEnv.Virtinjectd
