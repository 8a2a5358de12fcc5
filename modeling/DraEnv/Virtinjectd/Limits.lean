import DraEnv.Virtinjectd.Patch

/-!
Whether a rewritten define call stays within the limits of the protocol.

The reader and the decoder check lengths, the writer and the encoder do
not: both convert a length to `uint32` and go on. The buffer the writer
builds is therefore always a frame, but of a payload cut to the wrapped
length (`messageBuffer_eq_frame`), and the string that decodes from an
encoded one is a prefix of it, again of the wrapped length
(`string_of_splits_take`). Put together these give the exact condition
under which the call that goes out is one the proxy itself would accept.
-/

namespace DraEnv.Virtinjectd

open DraEnv.GoStd DraEnv.Foundation

/-! ### The writer past its limit -/

/-- The value of the length word `WriteMessage` computes. -/
def wireLength (payload : Bytes) : Nat :=
  (lengthPrefixSize + headerSize + payload.length) % 2 ^ 32

/-- The part of the payload the buffer has room for. -/
def carried (payload : Bytes) : Bytes :=
  payload.take (wireLength payload - (lengthPrefixSize + headerSize))

theorem carried_length {payload : Bytes}
    (h : lengthPrefixSize + headerSize ≤ wireLength payload) :
    lengthPrefixSize + headerSize + (carried payload).length = wireLength payload := by
  have hle : wireLength payload ≤ lengthPrefixSize + headerSize + payload.length :=
    Nat.mod_le _ _
  rw [carried, List.length_take]
  omega

theorem messageBuffer_eq_none (header : Header) {payload : Bytes}
    (h : wireLength payload < lengthPrefixSize + headerSize) :
    messageBuffer header payload = none := by
  rw [messageBuffer, UInt32.toNat_ofNat']
  exact if_pos h

theorem messageBuffer_eq_frame (header : Header) {payload : Bytes}
    (h : lengthPrefixSize + headerSize ≤ wireLength payload) :
    messageBuffer header payload = some (frame header (carried payload)) := by
  have hword : (UInt32.ofNat (lengthPrefixSize + headerSize + payload.length)).toNat =
      wireLength payload := UInt32.toNat_ofNat'
  rw [messageBuffer, hword, if_neg (Nat.not_lt.mpr h), frame, carried_length h, ← hword,
    UInt32.ofNat_toNat, hword, carried]

/-- The frame sent for a message is one `ReadMessage` accepts, with the same
header and the payload `payload'`. -/
def SentAs (header : Header) (payload payload' : Bytes) : Prop :=
  ∃ buf, writeMessage Sink.reliable [] header payload = (.returned none, buf) ∧
    ∀ conn : Conn, conn.bytes = buf →
      ∃ conn', readMessage conn = (.ok (header, payload'), conn') ∧ conn'.bytes = []

theorem sentAs_iff {header : Header} {payload payload' : Bytes} :
    SentAs header payload payload' ↔
      lengthPrefixSize + headerSize ≤ wireLength payload ∧ Fits (carried payload) ∧
        payload' = carried payload := by
  by_cases hpanic : wireLength payload < lengthPrefixSize + headerSize
  · have hnone := messageBuffer_eq_none header hpanic
    constructor
    · rintro ⟨buf, hwrite, -⟩
      simp [writeMessage, hnone] at hwrite
    · rintro ⟨hle, -⟩
      omega
  have hle := Nat.not_lt.mp hpanic
  have hwrite : writeMessage Sink.reliable [] header payload =
      (.returned none, frame header (carried payload)) := by
    simp only [writeMessage, messageBuffer_eq_frame header hle, Sink.write_reliable,
      List.nil_append]
  constructor
  · rintro ⟨buf, hbuf, hread⟩
    rw [hwrite, Prod.mk.injEq] at hbuf
    obtain ⟨conn', hok, hrest⟩ := hread ⟨[buf], .eof⟩ (by simp [Conn.bytes])
    obtain ⟨hfits, hbytes, -⟩ := readMessage_ok hok
    rw [hrest, List.append_nil, ← hbuf.2] at hbytes
    have hframe : frame header (carried payload) = frame header payload' := by
      simpa [Conn.bytes] using hbytes
    obtain ⟨-, rfl⟩ := frame_inj hframe
    exact ⟨hle, hfits, rfl⟩
  · rintro ⟨-, hfits, rfl⟩
    refine ⟨_, hwrite, fun conn hbytes => ?_⟩
    obtain ⟨conn', hread, hrest, -⟩ := readMessage_frame hfits
      (hbytes.trans (List.append_nil _).symm)
    exact ⟨conn', hread, hrest⟩

theorem sentAs_of_fits (header : Header) {payload : Bytes} (hfits : Fits payload) :
    SentAs header payload payload := by
  have hlt := hfits.lt
  have hword : wireLength payload = lengthPrefixSize + headerSize + payload.length :=
    Nat.mod_eq_of_lt hlt
  have hcarried : carried payload = payload := by
    rw [carried, hword, Nat.add_sub_cancel_left, List.take_length]
  exact sentAs_iff.mpr ⟨by omega, hcarried.symm ▸ hfits, hcarried.symm⟩

/-! ### The encoder past its limit -/

/-- A string that decodes from the front of an encoded one is the prefix of the
length its length word has kept. -/
theorem string_of_splits_take {y rest s pad rest' : Bytes} {k : Nat}
    (h : Splits ((encodeXDRString y ++ rest).take k) s pad rest') :
    s.length = y.length % 2 ^ 32 ∧ s = y.take (y.length % 2 ^ 32) := by
  have hs := h.length_le
  simp only [xdrStringMaxLen] at hs
  have hwhole : putUint32 (UInt32.ofNat s.length) ++
      (s ++ (pad ++ (rest' ++ (encodeXDRString y ++ rest).drop k))) =
      putUint32 (UInt32.ofNat y.length) ++ (y ++ (List.replicate (padLen y.length) 0 ++ rest)) := by
    have hcut := List.take_append_drop k (encodeXDRString y ++ rest)
    rw [h.eq] at hcut
    nth_rewrite 2 [encodeXDRString_eq] at hcut
    simpa only [List.append_assoc] using hcut
  obtain ⟨hword, htail⟩ := List.append_inj hwhole rfl
  have hlen : s.length = y.length % 2 ^ 32 := by
    have hnat := congrArg UInt32.toNat (putUint32_injective hword)
    rwa [UInt32.toNat_ofNat', UInt32.toNat_ofNat', Nat.mod_eq_of_lt (by omega)] at hnat
  refine ⟨hlen, ?_⟩
  have hle : s.length ≤ y.length := hlen ▸ Nat.mod_le _ _
  have htake := congrArg (List.take s.length) htail
  rw [List.take_left, List.take_append_of_le_length hle] at htake
  rw [← hlen]
  exact htake

/-- That prefix does decode when its length is within the limit and enough of
the bytes are there. -/
theorem splits_take_encode {y : Bytes} (rest : Bytes) {k : Nat}
    (hmax : y.length % 2 ^ 32 ≤ xdrStringMaxLen)
    (hk : 4 + y.length % 2 ^ 32 + padLen (y.length % 2 ^ 32) ≤ k)
    (hle : k ≤ (encodeXDRString y ++ rest).length) :
    ∃ pad rest', Splits ((encodeXDRString y ++ rest).take k) (y.take (y.length % 2 ^ 32))
      pad rest' := by
  set m := y.length % 2 ^ 32 with hm
  have hmy : m ≤ y.length := Nat.mod_le _ _
  have hslen : (y.take m).length = m := by rw [List.length_take, Nat.min_eq_left hmy]
  set tail := y ++ (List.replicate (padLen y.length) 0 ++ rest) with htail
  have hwhole : encodeXDRString y ++ rest = putUint32 (UInt32.ofNat y.length) ++ tail := by
    rw [encodeXDRString_eq, htail, List.append_assoc, List.append_assoc]
  have hword : UInt32.ofNat y.length = UInt32.ofNat m := by
    rw [← UInt32.toNat_inj, UInt32.toNat_ofNat', UInt32.toNat_ofNat', hm, Nat.mod_mod]
  have htailLen : k ≤ 4 + tail.length := by
    rw [hwhole, List.length_append, putUint32_length] at hle
    exact hle
  obtain ⟨j, rfl⟩ := Nat.exists_eq_add_of_le hk
  refine ⟨(tail.drop m).take (padLen m), (tail.drop (m + padLen m)).take j, ?_, ?_, ?_⟩
  · have hfour : (putUint32 (UInt32.ofNat m)).length = 4 := rfl
    have hsplit : tail.take (m + padLen m + j) =
        y.take m ++ (tail.drop m).take (padLen m) ++ (tail.drop (m + padLen m)).take j := by
      rw [List.take_add, List.take_add, htail, List.take_append_of_le_length hmy]
    rw [hslen, hwhole, hword, show 4 + m + padLen m + j = 4 + (m + padLen m + j) by omega,
      ← hfour, List.take_length_add_append, hsplit]
    simp only [List.append_assoc]
  · rw [hslen]
    exact hmax
  · rw [hslen, List.length_take, List.length_drop]
    omega

theorem padLen_mod (n : Nat) : padLen (n % 2 ^ 32) = padLen n := by
  simp only [padLen]
  omega

/-- The length word of a message whose payload is an encoded string and a
trailer, when what the encoder's length word has kept is small. -/
theorem wireLength_encode {y rest : Bytes} (hmax : y.length % 2 ^ 32 ≤ xdrStringMaxLen)
    (hrest : rest.length ≤ maxMessageSize) :
    wireLength (encodeXDRString y ++ rest) = lengthPrefixSize + headerSize +
      (4 + y.length % 2 ^ 32 + padLen (y.length % 2 ^ 32) + rest.length) := by
  have hpad := padLen_lt y.length
  rw [wireLength, List.length_append, encodeXDRString_length, padLen_mod]
  simp only [xdrStringMaxLen, maxMessageSize, lengthPrefixSize, headerSize] at *
  omega

/-! ### Rewritten define calls -/

/-- The call that goes out for a define call carrying `xml` is accepted again,
with the same header, and carries `xml` or the whole output of the chain. -/
def StaysWithinLimits (w : IntSize) (host : Host) (hc : HookChain) (header : Header)
    (payload : Bytes) (xml : GoString) : Prop :=
  ∃ payload', SentAs header (intercept w host hc header payload) payload' ∧
    ∃ s n, decodeXDRString w payload' = .ok (s, n) ∧ (s = xml ∨ s = (hc.run host xml).output)

theorem staysWithinLimits_of_unchanged {w : IntSize} {host : Host} {hc : HookChain}
    {header : Header} {payload xml pad rest : Bytes} (hfits : Fits payload)
    (hsplit : Splits payload xml pad rest)
    (hsame : intercept w host hc header payload = payload) :
    StaysWithinLimits w host hc header payload xml := by
  refine ⟨payload, ?_, xml, _, hsplit.decode w, Or.inl rfl⟩
  rw [hsame]
  exact sentAs_of_fits header hfits

/-- An output whose kept length is within the limits goes out as the prefix of
that length. -/
theorem sentAs_encode (header : Header) {y rest : Bytes}
    (hmax : y.length % 2 ^ 32 ≤ xdrStringMaxLen)
    (hroom : 4 + y.length % 2 ^ 32 + padLen (y.length % 2 ^ 32) + rest.length ≤
      maxMessageSize - headerSize) :
    ∃ payload' pad rest', SentAs header (encodeXDRString y ++ rest) payload' ∧
      Splits payload' (y.take (y.length % 2 ^ 32)) pad rest' := by
  have hrest : rest.length ≤ maxMessageSize := by omega
  have hword := wireLength_encode hmax hrest
  have hlong : lengthPrefixSize + headerSize ≤ wireLength (encodeXDRString y ++ rest) := by omega
  have hlen := carried_length hlong
  have hle : (carried (encodeXDRString y ++ rest)).length ≤ (encodeXDRString y ++ rest).length :=
    List.length_take_le' _ _
  obtain ⟨pad, rest', hsplit⟩ := splits_take_encode rest hmax
    (Nat.le_add_right _ rest.length) (by omega)
  refine ⟨_, pad, rest', sentAs_iff.mpr ⟨hlong, ?_, rfl⟩, ?_⟩
  · rw [Fits]
    omega
  · rw [carried, hword, Nat.add_sub_cancel_left]
    exact hsplit

/-- What decodes from the call that goes out, if it is accepted at all. -/
theorem decoded_of_sentAs {w : IntSize} {header : Header} {y rest payload' s : Bytes} {n : Int}
    (hsent : SentAs header (encodeXDRString y ++ rest) payload')
    (hdecode : decodeXDRString w payload' = .ok (s, n)) :
    s.length = y.length % 2 ^ 32 ∧ s = y.take (y.length % 2 ^ 32) ∧
      s.length ≤ xdrStringMaxLen := by
  obtain ⟨-, -, rfl⟩ := sentAs_iff.mp hsent
  obtain ⟨pad, rest', hsplit⟩ := exists_splits_of_decode hdecode
  obtain ⟨hlen, hs⟩ := string_of_splits_take hsplit
  exact ⟨hlen, hs, hsplit.length_le⟩

/-- The length word keeps the length of a string within the limit. -/
theorem length_mod_of_le {y : Bytes} (h : y.length ≤ xdrStringMaxLen) :
    y.length % 2 ^ 32 = y.length := by
  simp only [xdrStringMaxLen] at h
  exact Nat.mod_eq_of_lt (by omega)

/-- A payload that starts with an encoded `y`, in the place of a call that
carried `xml`. -/
theorem encoded_accepted_iff {w : IntSize} {header : Header} {xml y rest : Bytes}
    (hxml : xml.length ≤ xdrStringMaxLen)
    (hfits : 4 + xml.length + padLen xml.length + rest.length ≤ maxMessageSize - headerSize) :
    (∃ payload', SentAs header (encodeXDRString y ++ rest) payload' ∧
      ∃ s n, decodeXDRString w payload' = .ok (s, n) ∧ (s = xml ∨ s = y)) ↔
      y.take (y.length % 2 ^ 32) = xml ∨
        (y.length ≤ xdrStringMaxLen ∧
          4 + y.length + padLen y.length + rest.length ≤ maxMessageSize - headerSize) := by
  constructor
  · rintro ⟨payload', hsent, s, k, hs, hor⟩
    obtain ⟨hlen, htaken, hsmax⟩ := decoded_of_sentAs hsent hs
    rcases hor with rfl | rfl
    · exact Or.inl htaken.symm
    · refine Or.inr ⟨hsmax, ?_⟩
      obtain ⟨hle, hfits', -⟩ := sentAs_iff.mp hsent
      have hrest : rest.length ≤ maxMessageSize := by omega
      have hword := wireLength_encode (hlen ▸ hsmax) hrest
      have hcarried := carried_length hle
      rw [Fits] at hfits'
      rw [length_mod_of_le hsmax] at hword
      omega
  · rintro (hcut | ⟨hymax, hyroom⟩)
    · -- the wrapped output is the old document, so it fits where that one did
      have hlength : y.length % 2 ^ 32 = xml.length := by
        rw [← hcut, List.length_take, Nat.min_eq_left (Nat.mod_le _ _)]
      obtain ⟨payload', pad', rest', hsent, hsplit'⟩ := sentAs_encode header
        (hlength ▸ hxml) (hlength.symm ▸ hfits)
      rw [hcut] at hsplit'
      exact ⟨payload', hsent, xml, _, hsplit'.decode w, Or.inl rfl⟩
    · have hmod := length_mod_of_le hymax
      obtain ⟨payload', pad', rest', hsent, hsplit'⟩ := sentAs_encode header
        (hmod.symm ▸ hymax) (hmod.symm ▸ hyroom)
      rw [hmod, List.take_length] at hsplit'
      exact ⟨payload', hsent, y, _, hsplit'.decode w, Or.inr rfl⟩

/-- Exactly when a define call the proxy accepts goes out as one: the chain's
output, cut to the length its length word keeps, is the document that came in,
or the output and the message it makes are within the limits. -/
theorem staysWithinLimits_iff {conn conn' : Conn} {header : Header} {payload : Bytes}
    {w : IntSize} {xml : GoString} {n : Int} (host : Host) (hc : HookChain)
    (hread : readMessage conn = (.ok (header, payload), conn'))
    (hcall : isDomainDefineCall header = true)
    (hdecode : decodeXDRString w payload = .ok (xml, n)) :
    StaysWithinLimits w host hc header payload xml ↔
      let y := (hc.run host xml).output
      y.take (y.length % 2 ^ 32) = xml ∨
        (y.length ≤ xdrStringMaxLen ∧
          4 + y.length + padLen y.length + (payload.length - n.toNat) ≤
            maxMessageSize - headerSize) := by
  have hfits := (readMessage_ok hread).1
  obtain ⟨⟨pad, rest, hsplit⟩, rfl⟩ := decodeXDRString_eq_ok_iff.mp hdecode
  have hrest : payload.length - (4 + xml.length + padLen xml.length) = rest.length := by
    rw [hsplit.length]
    omega
  have hintercept := intercept_splits w host hc hcall hsplit
  rw [HookChain.rewriter] at hintercept
  simp only [Int.toNat_natCast, hrest]
  by_cases hsame : (hc.run host xml).output = xml
  · rw [if_pos hsame] at hintercept
    refine iff_of_true (staysWithinLimits_of_unchanged hfits hsplit hintercept) (Or.inl ?_)
    rw [hsame, length_mod_of_le hsplit.length_le, List.take_length]
  · rw [if_neg hsame] at hintercept
    rw [StaysWithinLimits, hintercept]
    rw [Fits, hsplit.length] at hfits
    exact encoded_accepted_iff hsplit.length_le hfits

/-- The payload of a define call with a flags word. -/
def smallDefine : Bytes := encodeXDRString (lit "<a/>") ++ putUint32 0

theorem smallDefine_splits : Splits smallDefine (lit "<a/>") [] (putUint32 0) :=
  splits_encodeXDRString (by decide) _

theorem readMessage_smallDefine :
    ∃ conn', readMessage ⟨[frame defineFlagsCall smallDefine], .eof⟩ =
      (.ok (defineFlagsCall, smallDefine), conn') := by
  have hfits : Fits smallDefine := by decide
  have hbytes : (Conn.mk [frame defineFlagsCall smallDefine] .eof).bytes =
      frame defineFlagsCall smallDefine ++ [] := rfl
  obtain ⟨conn', hread, -⟩ := readMessage_frame hfits hbytes
  exact ⟨conn', hread⟩

/-- A hook that replaces the document by another small one. -/
theorem staysWithinLimits_smallDefine :
    StaysWithinLimits .w64 (filterHost fun _ => lit "<b/>") oneHook defineFlagsCall smallDefine
      (lit "<a/>") := by
  obtain ⟨conn', hread⟩ := readMessage_smallDefine
  have hrun : (oneHook.run (filterHost fun _ => lit "<b/>") (lit "<a/>")).output = lit "<b/>" :=
    congrFun (oneHook_rewriter_const (by decide)) _
  refine (staysWithinLimits_iff _ _ hread (by decide) (smallDefine_splits.decode .w64)).mpr ?_
  rw [hrun]
  exact Or.inr (by decide)

/-- One byte more than the decoder accepts. -/
def longOutput : GoString := List.replicate (xdrStringMaxLen + 1) 0x3C

theorem longOutput_length : longOutput.length = xdrStringMaxLen + 1 := List.length_replicate

theorem longOutput_nonblank : isBlank longOutput = false := by
  have hspace : ∀ s : GoString, spaceLen (0x3C :: s) = 0 := fun _ => rfl
  rw [longOutput, List.replicate_succ]
  exact isBlank_of_spaceLen (List.cons_ne_nil _ _) (hspace _)

/-- A hook with an output just past the limit: the call goes out and its string
is one the decoder refuses. -/
theorem staysWithinLimits_longOutput_fails :
    (∃ conn', readMessage ⟨[frame defineFlagsCall smallDefine], .eof⟩ =
      (.ok (defineFlagsCall, smallDefine), conn')) ∧
    isDomainDefineCall defineFlagsCall = true ∧
    (∃ n, decodeXDRString .w64 smallDefine = .ok (lit "<a/>", n)) ∧
    ¬ StaysWithinLimits .w64 (filterHost fun _ => longOutput) oneHook defineFlagsCall smallDefine
      (lit "<a/>") := by
  refine ⟨readMessage_smallDefine, by decide, ⟨_, smallDefine_splits.decode .w64⟩, ?_⟩
  rintro ⟨payload', hsent, s, n, hdecode, -⟩
  have hrun : oneHook.rewriter (filterHost fun _ => longOutput) (lit "<a/>") = longOutput :=
    congrFun (oneHook_rewriter_const longOutput_nonblank) _
  have hne : longOutput ≠ lit "<a/>" := by
    intro heq
    have hlen := congrArg List.length heq
    have hfour : (lit "<a/>").length = 4 := by decide
    rw [longOutput_length, hfour, xdrStringMaxLen] at hlen
    omega
  rw [intercept_splits .w64 _ oneHook (by decide) smallDefine_splits, hrun, if_neg hne] at hsent
  obtain ⟨hlen, -, hmax⟩ := decoded_of_sentAs hsent hdecode
  rw [longOutput_length] at hlen
  simp only [xdrStringMaxLen] at hlen hmax
  omega

end DraEnv.Virtinjectd
