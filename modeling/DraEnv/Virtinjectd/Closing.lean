import DraEnv.Virtinjectd.Session

/-!
How the end of a stream is reported.

`handleConnection` logs the error of a direction unless
`isConnectionClosed` takes it for a normal closure. That test compares
with `io.EOF`, but `forward` never returns `io.EOF`: `ReadMessage` has
put a context in front of it, and neither the comparison nor the search
for the two known texts sees through that. Truncated streams are told
apart from closures for the same reason, whichever of the two reads they
end in.
-/

namespace DraEnv.Virtinjectd

open DraEnv.GoStd DraEnv.Foundation

/-- The stream consists of whole frames. -/
def Orderly (b : Bytes) : Prop := ∃ frs : List Bytes, (∀ fr ∈ frs, IsFrame fr) ∧ b = frs.flatten

/-- The stream ends behind at least one byte of a frame and before its last. -/
def EndsInsideFrame (b : Bytes) : Prop :=
  ∃ (frs : List Bytes) (fr part : Bytes), (∀ fr ∈ frs, IsFrame fr) ∧ IsFrame fr ∧ part <+: fr ∧
    part ≠ [] ∧ part ≠ fr ∧ b = frs.flatten ++ part

/-! ### The error of the relay loop -/

/-- Whatever the processor does to the payloads, the loop panics or comes to the
end of the frames and fails on what follows. -/
theorem forward_reliable (processor : Header → Bytes → Bytes) (frs : List Bytes) {rest : Bytes}
    {src : Conn} (delivered : Bytes) (hframes : ∀ fr ∈ frs, IsFrame fr)
    (hbytes : src.bytes = frs.flatten ++ rest) (hno : ∀ f, IsFrame f → ¬ f <+: rest) :
    (forward processor Sink.reliable src delivered).1 = .panicked ∨
      (forward processor Sink.reliable src delivered).1 =
        .returned (some (readError rest src.fin)) := by
  induction frs generalizing src delivered with
  | nil =>
      rw [List.flatten_nil, List.nil_append] at hbytes
      obtain ⟨src', hread⟩ := readMessage_error (hbytes ▸ hno)
      rw [forward_error hread, hbytes]
      exact Or.inr rfl
  | cons fr frs ih =>
      obtain ⟨h, p, hp, rfl⟩ := (hframes fr (by simp)).exists_message
      rw [List.flatten_cons, List.append_assoc] at hbytes
      obtain ⟨src', hread, hbytes', hfin⟩ := readMessage_frame hp hbytes
      cases hbuffer : messageBuffer h (processor h p) with
      | none =>
          left
          rw [forward]
          split
          · rename_i heq
            rw [hread] at heq
            simp at heq
          · rename_i heq
            rw [hread, Prod.mk.injEq, Except.ok.injEq, Prod.mk.injEq] at heq
            obtain ⟨⟨rfl, rfl⟩, rfl⟩ := heq
            simp only [writeMessage, hbuffer]
      | some buf =>
          have hwrite : writeMessage Sink.reliable delivered h (processor h p) =
              (.returned none, delivered ++ buf) := by
            simp only [writeMessage, hbuffer, Sink.write_reliable]
          rw [forward_ok hread hwrite, ← hfin]
          exact ih _ (fun fr hfr => hframes fr (by simp [hfr])) hbytes'

/-- Part of a frame starts with no frame. -/
theorem no_frame_of_part {fr part f : Bytes} (hfr : IsFrame fr) (hpart : part <+: fr)
    (hne : part ≠ fr) (hf : IsFrame f) : ¬ f <+: part := by
  intro hp
  obtain rfl : f = fr := hf.eq_of_prefix hfr (hp.trans hpart)
  exact hne (List.IsPrefix.eq_of_length hpart (le_antisymm hpart.length_le hp.length_le))

/-- The errors of a stream that ends between frames or inside one. -/
inductive EndError : GoError → Prop
  | length (cause : GoError) (h : cause = .eof ∨ cause = .unexpectedEOF) :
      EndError (.wrap "reading message length" cause)
  | data (n : Nat) (cause : GoError) (h : cause = .eof ∨ cause = .unexpectedEOF) :
      EndError (.wrap s!"reading message data ({n} bytes)" cause)

theorem shortRead_eof (got : Bytes) :
    shortRead got .eof = .eof ∨ shortRead got .eof = .unexpectedEOF := by
  unfold shortRead
  split
  · exact Or.inr rfl
  · exact Or.inl rfl

theorem readError_nil : EndError (readError [] .eof) :=
  .length _ (shortRead_eof [])

theorem readError_part {fr part : Bytes} (hfr : IsFrame fr) (hpart : part <+: fr) :
    EndError (readError part .eof) := by
  by_cases hlen : part.length < lengthPrefixSize
  · rw [readError]
    simp only [if_pos hlen]
    exact .length _ (shortRead_eof _)
  · -- the length word is that of the frame, so it is within the limits
    obtain ⟨length, body, rfl, hlo, hhi, -⟩ := hfr
    obtain ⟨more, hmore⟩ := hpart
    have hword : uint32 part = length := by
      rw [← uint32_append (Nat.not_lt.mp hlen) more, hmore, uint32_putUint32_append]
    rw [readError]
    simp only [if_neg hlen, hword, if_neg (Nat.not_lt.mpr hlo)]
    rw [if_neg (by omega)]
    exact .data _ _ (shortRead_eof _)

/-! ### The test -/

theorem not_mem_toDigits {c : Char} (hc : c.isDigit = false) (n : Nat) :
    c ∉ Nat.toDigits 10 n := by
  intro hmem
  have hdigit := Nat.isDigit_of_mem_toDigits (by decide) (by decide) hmem
  rw [hc] at hdigit
  exact absurd hdigit (by decide)

/-- No error of an end of stream is recognised: both texts the test looks for
have an `o`, and these errors have none. -/
theorem EndError.not_closed {err : GoError} (h : EndError err) :
    isConnectionClosed (some err) = false := by
  have hno : 'o' ∉ err.error.toList := by
    cases h with
    | length cause hcause =>
        rcases hcause with rfl | rfl <;> decide
    | data n cause hcause =>
        have hdigits := not_mem_toDigits (c := 'o') (by decide) n
        have htext : 'o' ∉ cause.error.toList := by
          rcases hcause with rfl | rfl <;> decide
        simp only [GoError.error, String.toList_append, List.mem_append, not_or,
          Nat.toString_eq_repr, Nat.toList_repr]
        exact ⟨⟨⟨⟨by decide, hdigits⟩, by decide⟩, by decide⟩, htext⟩
  have htexts : ∀ text : String, 'o' ∈ text.toList → ¬ text.toList <:+: err.error.toList :=
    fun text htext hwithin => hno (hwithin.subset htext)
  have hne : (err == GoError.eof) = false ∧ (err == GoError.closed) = false := by
    cases h <;> exact ⟨rfl, rfl⟩
  simp only [isConnectionClosed, hne.1, hne.2, Bool.false_or, Bool.or_eq_false_iff,
    decide_eq_false_iff_not]
  exact ⟨htexts _ (by decide), htexts _ (by decide)⟩

/-! ### Streams -/

/-- Orderly ends are taken for closures and truncations are not. -/
def ClosingRecognised (b : Bytes) (err : Option GoError) : Prop :=
  (Orderly b → isConnectionClosed err = true) ∧
    (EndsInsideFrame b → isConnectionClosed err = false)

theorem error_of_orderly {processor : Header → Bytes → Bytes} {src : Conn} {delivered out : Bytes}
    {err : Option GoError} (hfin : src.fin = .eof) (horderly : Orderly src.bytes)
    (hforward : forward processor Sink.reliable src delivered = (.returned err, out)) :
    isConnectionClosed err = false := by
  obtain ⟨frs, hframes, hbytes⟩ := horderly
  have hno : ∀ f, IsFrame f → ¬ f <+: [] := fun f hf hp =>
    wire.ne_nil hf (List.prefix_nil.mp hp)
  have hend := forward_reliable processor frs delivered hframes
    (by rw [hbytes, List.append_nil]) hno
  rw [hforward, hfin] at hend
  rcases hend with hend | hend
  · simp at hend
  · rw [Outcome.returned.inj hend]
    exact readError_nil.not_closed

theorem error_of_truncated {processor : Header → Bytes → Bytes} {src : Conn} {delivered out : Bytes}
    {err : Option GoError} (hfin : src.fin = .eof) (htruncated : EndsInsideFrame src.bytes)
    (hforward : forward processor Sink.reliable src delivered = (.returned err, out)) :
    isConnectionClosed err = false := by
  obtain ⟨frs, fr, part, hframes, hfr, hpart, -, hne, hbytes⟩ := htruncated
  have hend := forward_reliable processor frs delivered hframes hbytes
    (fun f hf => no_frame_of_part hfr hpart hne hf)
  rw [hforward, hfin] at hend
  rcases hend with hend | hend
  · simp at hend
  · rw [Outcome.returned.inj hend]
    exact (readError_part hfr hpart).not_closed

/-- The report of a relay loop on which every write succeeded is right exactly
for the streams that are no orderly end. -/
theorem closingRecognised_iff (processor : Header → Bytes → Bytes) (src : Conn)
    (hfin : src.fin = .eof) (err : Option GoError) (out : Bytes)
    (hforward : forward processor Sink.reliable src [] = (.returned err, out)) :
    ClosingRecognised src.bytes err ↔ ¬ Orderly src.bytes := by
  constructor
  · intro hrecognised horderly
    have hclosed := hrecognised.1 horderly
    rw [error_of_orderly hfin horderly hforward] at hclosed
    exact absurd hclosed (by decide)
  · intro hnot
    exact ⟨fun horderly => absurd horderly hnot,
      fun htruncated => error_of_truncated hfin htruncated hforward⟩

/-- Two bytes of a length word and the end of the stream. -/
def cutWord : Conn := ⟨[[0, 0]], .eof⟩

theorem cutWord_not_orderly : ¬ Orderly cutWord.bytes := by
  rintro ⟨frs, hframes, hbytes⟩
  have hlength := congrArg List.length hbytes
  cases frs with
  | nil => simp [cutWord, Conn.bytes] at hlength
  | cons fr frs =>
      obtain ⟨h, p, -, rfl⟩ := (hframes fr (by simp)).exists_message
      rw [List.flatten_cons, List.length_append, frame_length] at hlength
      simp [cutWord, Conn.bytes, lengthPrefixSize, headerSize] at hlength
      omega

theorem closingRecognised_cutWord :
    ∃ err out, forward passthrough Sink.reliable cutWord [] = (.returned (some err), out) ∧
      ClosingRecognised cutWord.bytes (some err) := by
  obtain ⟨conn', hread⟩ : ∃ conn', readMessage cutWord =
      (.error (.wrap "reading message length" .unexpectedEOF), conn') := ⟨_, rfl⟩
  have hforward : forward passthrough Sink.reliable cutWord [] = (.returned (some _), []) :=
    forward_error hread
  exact ⟨_, _, hforward,
    (closingRecognised_iff passthrough cutWord rfl _ _ hforward).mpr cutWord_not_orderly⟩

/-- A peer that hangs up without having sent anything is reported as an error. -/
theorem closingRecognised_hangup_fails :
    Orderly (Conn.mk [] .eof).bytes ∧
      forward passthrough Sink.reliable ⟨[], .eof⟩ [] =
        (.returned (some (.wrap "reading message length" .eof)), []) ∧
      isConnectionClosed (some (.wrap "reading message length" .eof)) = false := by
  obtain ⟨conn', hread⟩ : ∃ conn', readMessage ⟨[], .eof⟩ =
      (.error (.wrap "reading message length" .eof), conn') := ⟨_, rfl⟩
  exact ⟨⟨[], by simp, rfl⟩, forward_error hread, (EndError.length _ (Or.inl rfl)).not_closed⟩

end DraEnv.Virtinjectd
