import DraEnv.Virtinjectd.Proxy

/-!
Whole sessions: a list of messages written to a connection and read back,
and a stream of frames relayed from one connection to the other.

Both results are inductions over the messages that rest on one fact about
a single message each: the reader returns exactly the frame that starts
the stream (`readMessage_frame`), and fails exactly when none does
(`readMessage_error`).
-/

namespace DraEnv.Virtinjectd

open DraEnv.GoStd DraEnv.Foundation

/-- A sequence of `WriteMessage` calls that stops at the first failure. -/
def writeMessages (dst : Sink) (delivered : Bytes) : List (Header × Bytes) → Outcome × Bytes
  | [] => (.returned none, delivered)
  | (header, payload) :: messages =>
      match writeMessage dst delivered header payload with
      | (.returned none, delivered) => writeMessages dst delivered messages
      | result => result

/-- `ReadMessage` called until it fails: the messages and the error. -/
def readMessages (conn : Conn) : List (Header × Bytes) × GoError :=
  match _hread : readMessage conn with
  | (.error err, _) => ([], err)
  | (.ok message, conn') =>
      let (messages, err) := readMessages conn'
      (message :: messages, err)
termination_by conn.bytes.length
decreasing_by exact readMessage_shrinks _hread

theorem readMessages_error {conn conn' : Conn} {err : GoError}
    (h : readMessage conn = (.error err, conn')) : readMessages conn = ([], err) := by
  rw [readMessages]
  split
  · rename_i heq
    rw [h, Prod.mk.injEq, Except.error.injEq] at heq
    rw [heq.1]
  · rename_i heq
    rw [h] at heq
    simp at heq

theorem readMessages_ok {conn conn' : Conn} {m : Header × Bytes}
    (h : readMessage conn = (.ok m, conn')) :
    readMessages conn = (m :: (readMessages conn').1, (readMessages conn').2) := by
  rw [readMessages]
  split
  · rename_i heq
    rw [h] at heq
    simp at heq
  · rename_i heq
    rw [h, Prod.mk.injEq, Except.ok.injEq] at heq
    obtain ⟨rfl, rfl⟩ := heq
    rfl

theorem writeMessages_eq (messages : List (Header × Bytes)) (delivered : Bytes)
    (hfits : ∀ m ∈ messages, Fits m.2) :
    writeMessages Sink.reliable delivered messages =
      (.returned none, delivered ++ (messages.map (fun m => frame m.1 m.2)).flatten) := by
  induction messages generalizing delivered with
  | nil => simp [writeMessages]
  | cons m messages ih =>
      have hm : Fits m.2 := hfits m (by simp)
      simp only [writeMessages, writeMessage_reliable hm.lt]
      rw [ih _ (fun m' hm' => hfits m' (by simp [hm']))]
      simp

theorem readMessages_eq (messages : List (Header × Bytes)) (conn : Conn)
    (hfits : ∀ m ∈ messages, Fits m.2)
    (hbytes : conn.bytes = (messages.map (fun m => frame m.1 m.2)).flatten) :
    readMessages conn =
      (messages, .wrap "reading message length" (shortRead [] conn.fin)) := by
  induction messages generalizing conn with
  | nil =>
      have hno : ∀ f, IsFrame f → ¬ f <+: conn.bytes := by
        intro f hf hp
        rw [hbytes] at hp
        exact wire.ne_nil hf (List.prefix_nil.mp hp)
      obtain ⟨conn', hread⟩ := readMessage_error hno
      rw [readMessages_error hread, hbytes]
      rfl
  | cons m messages ih =>
      rw [List.map_cons, List.flatten_cons] at hbytes
      obtain ⟨conn', hread, hbytes', hfin⟩ := readMessage_frame (hfits m (by simp)) hbytes
      rw [readMessages_ok hread, ih conn' (fun m' hm' => hfits m' (by simp [hm'])) hbytes', hfin]

/-- The codec over single messages and over whole sessions. -/
theorem message_roundTrip :
    (∀ (h : Header) (p r : Bytes),
      (∃ buf, writeMessage Sink.reliable [] h p = (.returned none, buf) ∧
        ∀ conn : Conn, conn.bytes = buf ++ r →
          ∃ conn', readMessage conn = (.ok (h, p), conn') ∧ conn'.bytes = r) ↔
      p.length ≤ maxMessageSize - headerSize) ∧
    (∀ (h : Header) (p r buf : Bytes), maxMessageSize - headerSize < p.length →
      writeMessage Sink.reliable [] h p = (.returned none, buf) →
      ∀ conn conn' : Conn, conn.bytes = buf ++ r → readMessage conn ≠ (.ok (h, p), conn')) ∧
    (∀ messages : List (Header × Bytes),
      (∀ m ∈ messages, m.2.length ≤ maxMessageSize - headerSize) →
      ∃ buf, writeMessages Sink.reliable [] messages = (.returned none, buf) ∧
        ∀ conn : Conn, conn.bytes = buf → conn.fin = .eof →
          readMessages conn = (messages, .wrap "reading message length" .eof)) := by
  refine ⟨fun h p r => ⟨?_, fun hp => ?_⟩, ?_, ?_⟩
  · rintro ⟨buf, -, hread⟩
    obtain ⟨conn', hok, -⟩ := hread ⟨[buf ++ r], .eof⟩ (by simp [Conn.bytes])
    exact (readMessage_ok hok).1
  · refine ⟨frame h p, ?_, fun conn hbytes => ?_⟩
    · rw [writeMessage_reliable (Fits.lt hp), List.nil_append]
    · obtain ⟨conn', hread, hrest, -⟩ := readMessage_frame hp hbytes
      exact ⟨conn', hread, hrest⟩
  · intro h p r buf hp _ conn conn' _ hread
    have hfits : p.length ≤ maxMessageSize - headerSize := (readMessage_ok hread).1
    omega
  · intro messages hfits
    refine ⟨_, writeMessages_eq messages [] hfits, fun conn hbytes hfin => ?_⟩
    rw [List.nil_append] at hbytes
    rw [readMessages_eq messages conn hfits hbytes, hfin]
    rfl

/-! ### Transparency -/

/-- The stream ends inside a frame: inside the length word, or after a length
word within the limits and before the last byte it announces. -/
def Truncated (rest : Bytes) : Prop :=
  (0 < rest.length ∧ rest.length < lengthPrefixSize) ∨
    (lengthPrefixSize ≤ rest.length ∧ lengthPrefixSize + headerSize ≤ (uint32 rest).toNat ∧
      (uint32 rest).toNat ≤ maxMessageSize + lengthPrefixSize ∧
      rest.length < (uint32 rest).toNat)

/-- The stream goes on with a length word the reader does not accept. -/
def LengthOutsideLimits (rest : Bytes) : Prop :=
  lengthPrefixSize ≤ rest.length ∧
    ((uint32 rest).toNat < lengthPrefixSize + headerSize ∨
      maxMessageSize + lengthPrefixSize < (uint32 rest).toNat)

theorem rest_cases {rest : Bytes} (hno : ∀ f, IsFrame f → ¬ f <+: rest) :
    rest = [] ∨ Truncated rest ∨ LengthOutsideLimits rest := by
  by_cases hlen : rest.length < lengthPrefixSize
  · rcases Nat.eq_zero_or_pos rest.length with hzero | hpos
    · exact Or.inl (List.length_eq_zero_iff.mp hzero)
    · exact Or.inr (Or.inl (Or.inl ⟨hpos, hlen⟩))
  by_cases hlimits : lengthPrefixSize + headerSize ≤ (uint32 rest).toNat ∧
      (uint32 rest).toNat ≤ maxMessageSize + lengthPrefixSize
  · refine Or.inr (Or.inl (Or.inr ⟨Nat.not_lt.mp hlen, hlimits.1, hlimits.2, ?_⟩))
    by_contra hfull
    exact hno _ (isFrame_take (Nat.not_lt.mp hlen) hlimits.1 hlimits.2 (Nat.not_lt.mp hfull))
      (List.take_prefix _ _)
  · exact Or.inr (Or.inr ⟨Nat.not_lt.mp hlen, by omega⟩)

/-- The relay loop over a whole stream, with every write succeeding. The frames
`frs` at the front of the stream come out one by one in order, each with its
own header words and its processed payload, and the loop then fails on what
follows them; a frame whose payload is left alone comes out as it went in. -/
theorem forward_transparent {src : Conn} {frs : List Bytes}
    (hlongest : wire.Longest frs src.bytes) :
    ∃ rest, src.bytes = frs.flatten ++ rest ∧
      (rest = [] ∨ Truncated rest ∨ LengthOutsideLimits rest) ∧
      (∀ processor, (∀ fr ∈ frs, Sendable processor fr) →
        forward processor Sink.reliable src [] =
          (.returned (some (readError rest src.fin)), (frs.map (relay processor)).flatten)) ∧
      forward passthrough Sink.reliable src [] =
        (.returned (some (readError rest src.fin)), frs.flatten) ∧
      (∀ processor, ∀ fr ∈ frs, processor (headerOf fr) (payloadOf fr) = payloadOf fr →
        relay processor fr = fr) ∧
      (∀ w host hooks, ∀ fr ∈ frs, isDomainDefineCall (headerOf fr) = false →
        relay (intercept w host hooks) fr = fr) := by
  have hframes : ∀ fr ∈ frs, IsFrame fr := hlongest.1.1
  have hpass : ∀ fr ∈ frs, Sendable passthrough fr :=
    fun fr hfr => sendable_of_eq (hframes fr hfr) rfl
  obtain ⟨rest, hbytes, hno, hforward⟩ := forward_longest hlongest hpass
  refine ⟨rest, hbytes, rest_cases hno, ?_, ?_, ?_, ?_⟩
  · intro processor hsend
    obtain ⟨rest', hbytes', -, hloop⟩ := forward_longest hlongest hsend
    obtain rfl : rest' = rest := List.append_cancel_left (hbytes'.symm.trans hbytes)
    exact hloop
  · have hself : frs.map (relay passthrough) = frs.map id :=
      List.map_congr_left (fun fr hfr => relay_eq_self (hframes fr hfr) rfl)
    rw [hforward, hself, List.map_id]
  · intro processor fr hfr hpayload
    exact relay_eq_self (hframes fr hfr) hpayload
  · intro w host hooks fr hfr hcall
    exact relay_eq_self (hframes fr hfr) (intercept_of_not_define w host hooks _ hcall)

/-- One frame in two chunks, the second of which also brings half a length word. -/
def splitStream : Conn :=
  ⟨[(frame openCall []).take 3, (frame openCall []).drop 3 ++ [0, 0]], .eof⟩

theorem forward_transparent_splitStream :
    wire.Longest [frame openCall []] splitStream.bytes ∧
      forward passthrough Sink.reliable splitStream [] =
        (.returned (some (.wrap "reading message length" .unexpectedEOF)), frame openCall []) := by
  have hbytes : splitStream.bytes = [frame openCall []].flatten ++ [0, 0] := by decide
  have hno : ∀ f, IsFrame f → ¬ f <+: [0, 0] := by
    intro f hf hp
    obtain ⟨h, p, -, rfl⟩ := hf.exists_message
    have hlen := hp.length_le
    rw [frame_length] at hlen
    simp only [lengthPrefixSize, headerSize, List.length_cons, List.length_nil] at hlen
    omega
  have hframe : wire.IsFrame (frame openCall []) := isFrame_frame openCall (by decide)
  have hlongest : wire.Longest [frame openCall []] splitStream.bytes :=
    Framing.longest_iff.mpr ⟨by simpa using hframe, [0, 0], hbytes, hno⟩
  obtain ⟨rest, hrest, -, -, hforward, -⟩ := forward_transparent hlongest
  obtain rfl : rest = [0, 0] := List.append_cancel_left (hrest.symm.trans hbytes)
  exact ⟨hlongest, hforward⟩

end DraEnv.Virtinjectd
