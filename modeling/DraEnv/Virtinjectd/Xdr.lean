import DraEnv.GoStd.Int
import DraEnv.GoStd.Stream

/-!
XDR strings as `virtinjectd/xdr.go` codes them: a length word, the bytes,
and padding up to a multiple of four.

The decoder checks the length against `xdrStringMaxLen` and ignores what
the padding bytes are; the encoder checks nothing and pads with zeros.
`decodeXDRString_eq_ok_iff` describes the accepted inputs by a
decomposition that no longer mentions the width of `int`, and everything
above this module goes through it.
-/

namespace DraEnv.Virtinjectd

open DraEnv.GoStd

def xdrStringMaxLen : Nat := 4194304

/-- `%` is Go's remainder, which takes the sign of the dividend. -/
def xdrPad (n : Int) : Int :=
  let remainder := n.tmod 4
  if remainder = 0 then 0 else 4 - remainder

def decodeXDRString (w : IntSize) (data : Bytes) : Except GoError (GoString × Int) :=
  if data.length < 4 then
    .error (.msg s!"XDR string: need at least 4 bytes for length, got {data.length}")
  else
    let strLen := w.ofUint32 (uint32 (slice data 0 4))
    if strLen < 0 ∨ strLen > xdrStringMaxLen then
      .error (.msg s!"XDR string: length {strLen} out of range [0, {xdrStringMaxLen}]")
    else
      let pad := xdrPad strLen
      let totalConsumed := w.add (w.add 4 strLen) pad
      if data.length < totalConsumed then
        .error (.msg s!"XDR string: need {totalConsumed} bytes, got {data.length}")
      else .ok (slice data 4 (w.add 4 strLen).toNat, totalConsumed)

def encodeXDRString (s : GoString) : Bytes :=
  putUint32 (UInt32.ofNat s.length) ++ s ++ List.replicate (xdrPad s.length).toNat 0

def replaceXDRString (w : IntSize) (payload : Bytes) (newStr : GoString) :
    Bytes × Option GoError :=
  match decodeXDRString w payload with
  | .error err => (payload, some (.wrap "decoding existing XDR string" err))
  | .ok (_, consumed) => (encodeXDRString newStr ++ payload.drop consumed.toNat, none)

/-- The least `k` with `4 ∣ n + k`. -/
def padLen (n : Nat) : Nat := (4 - n % 4) % 4

theorem padLen_lt (n : Nat) : padLen n < 4 := Nat.mod_lt _ (by decide)

theorem four_dvd_add_padLen (n : Nat) : 4 ∣ n + padLen n := by
  simp only [padLen]
  omega

theorem xdrPad_natCast (n : Nat) : xdrPad n = padLen n := by
  have hmod : (n : Int).tmod 4 = ((n % 4 : Nat) : Int) := by
    rw [Int.tmod_eq_emod_of_nonneg (by omega)]
    omega
  simp only [xdrPad, hmod, padLen]
  split <;> omega

@[simp] theorem toNat_xdrPad (n : Nat) : (xdrPad n).toNat = padLen n := by
  rw [xdrPad_natCast, Int.toNat_natCast]

/-- The bytes of an encoded string: length word, string, zeros. -/
theorem encodeXDRString_eq (s : GoString) :
    encodeXDRString s =
      putUint32 (UInt32.ofNat s.length) ++ s ++ List.replicate (padLen s.length) 0 := by
  rw [encodeXDRString, toNat_xdrPad]

@[simp] theorem encodeXDRString_length (s : GoString) :
    (encodeXDRString s).length = 4 + s.length + padLen s.length := by
  simp [encodeXDRString_eq, Nat.add_assoc]

/-- `data` starts with the XDR string `s`, padded by `pad`, and goes on with
`rest`. -/
structure Splits (data : Bytes) (s : GoString) (pad rest : Bytes) : Prop where
  eq : data = putUint32 (UInt32.ofNat s.length) ++ s ++ pad ++ rest
  length_le : s.length ≤ xdrStringMaxLen
  pad_length : pad.length = padLen s.length

theorem Splits.length {data s pad rest : Bytes} (h : Splits data s pad rest) :
    data.length = 4 + s.length + padLen s.length + rest.length := by
  rw [h.eq]
  simp only [List.length_append, putUint32_length, h.pad_length]

theorem Splits.word {data s pad rest : Bytes} (h : Splits data s pad rest) :
    (uint32 (slice data 0 4)).toNat = s.length := by
  have hlen := h.length_le
  simp only [xdrStringMaxLen] at hlen
  have hfour : slice data 0 4 = putUint32 (UInt32.ofNat s.length) := by
    rw [h.eq, slice, List.drop_zero, List.append_assoc, List.append_assoc]
    exact List.take_left' rfl
  rw [hfour, uint32_putUint32, UInt32.toNat_ofNat', Nat.mod_eq_of_lt (by omega)]

/-- A decomposition is what the decoder returns, on either width of `int`. -/
theorem Splits.decode {data s pad rest : Bytes} (w : IntSize) (h : Splits data s pad rest) :
    decodeXDRString w data = .ok (s, ((4 + s.length + padLen s.length : Nat) : Int)) := by
  have hlen := h.length_le
  have hpad4 := padLen_lt s.length
  have htotal := h.length
  simp only [xdrStringMaxLen] at hlen
  have hstrLen : w.ofUint32 (uint32 (slice data 0 4)) = s.length := by
    rw [IntSize.ofUint32, h.word, w.wrap_eq (by omega) (by omega)]
  have hend : w.add 4 (s.length : Int) = 4 + s.length := w.add_eq (by omega) (by omega)
  have hsum : w.add (4 + (s.length : Int)) (padLen s.length : Int) =
      4 + s.length + padLen s.length := w.add_eq (by omega) (by omega)
  have hslice : slice data 4 (4 + (s.length : Int)).toNat = s := by
    rw [show (4 + (s.length : Int)).toNat = 4 + s.length by omega, h.eq, slice,
      Nat.add_sub_cancel_left, List.append_assoc, List.append_assoc, List.drop_left' (by rfl),
      List.take_left]
  rw [decodeXDRString, if_neg (by omega)]
  simp only [hstrLen, xdrPad_natCast, hend, hsum, hslice]
  rw [if_neg (by simp only [xdrStringMaxLen]; omega), if_neg (by omega)]
  congr 2

/-- Every accepted input has such a decomposition. -/
theorem exists_splits_of_decode {w : IntSize} {data s : Bytes} {n : Int}
    (h : decodeXDRString w data = .ok (s, n)) :
    ∃ pad rest, Splits data s pad rest := by
  simp only [decodeXDRString] at h
  split at h
  · simp at h
  rename_i hfour
  split at h
  · simp at h
  rename_i hrange
  split at h
  · simp at h
  rename_i htotal
  -- the range check leaves only the unwrapped value of the length word
  set m := (uint32 (slice data 0 4)).toNat with hm
  have hstrLen : w.ofUint32 (uint32 (slice data 0 4)) = m := by
    rcases w.ofUint32_eq_or (uint32 (slice data 0 4)) with heq | ⟨hneg, -⟩
    · exact heq
    · exact absurd (Or.inl hneg) hrange
  rw [hstrLen] at hrange htotal h
  simp only [xdrStringMaxLen] at hrange
  have hpad4 := padLen_lt m
  have hend : w.add 4 (m : Int) = 4 + m := w.add_eq (by omega) (by omega)
  have hsum : w.add (4 + (m : Int)) (padLen m : Int) = 4 + m + padLen m :=
    w.add_eq (by omega) (by omega)
  rw [xdrPad_natCast, hend, hsum] at htotal
  rw [hend, show (4 + (m : Int)).toNat = 4 + m by omega, Except.ok.injEq, Prod.mk.injEq] at h
  obtain ⟨rfl, -⟩ := h
  have hslen : (slice data 4 (4 + m)).length = m := by
    rw [slice_length (by omega) (by omega)]
    omega
  refine ⟨slice data (4 + m) (4 + m + padLen m), slice data (4 + m + padLen m) data.length,
    ?_, ?_, ?_⟩
  · rw [hslen, hm, UInt32.ofNat_toNat, ← hm, putUint32_uint32_slice (by omega) rfl,
      slice_append_slice _ (by omega) (by omega), slice_append_slice _ (by omega) (by omega),
      slice_append_slice _ (by omega) (by omega), slice_zero_length]
  · rw [hslen]
    simp only [xdrStringMaxLen]
    omega
  · rw [hslen, slice_length (by omega) (by omega)]
    omega

theorem decodeXDRString_eq_ok_iff {w : IntSize} {data s : Bytes} {n : Int} :
    decodeXDRString w data = .ok (s, n) ↔
      (∃ pad rest, Splits data s pad rest) ∧
        n = ((4 + s.length + padLen s.length : Nat) : Int) := by
  constructor
  · intro h
    obtain ⟨pad, rest, hsplit⟩ := exists_splits_of_decode h
    refine ⟨⟨pad, rest, hsplit⟩, ?_⟩
    rw [hsplit.decode w, Except.ok.injEq, Prod.mk.injEq] at h
    exact h.2.symm
  · rintro ⟨⟨pad, rest, hsplit⟩, rfl⟩
    exact hsplit.decode w

theorem Splits.drop {data s pad rest : Bytes} (h : Splits data s pad rest) :
    data.drop (4 + s.length + padLen s.length) = rest := by
  have hlen : (putUint32 (UInt32.ofNat s.length) ++ s ++ pad).length =
      4 + s.length + padLen s.length := by
    simp only [List.length_append, putUint32_length, h.pad_length]
  rw [h.eq]
  exact List.drop_left' hlen

/-- The decomposition is unique. -/
theorem Splits.unique {data s pad rest s' pad' rest' : Bytes} (h : Splits data s pad rest)
    (h' : Splits data s' pad' rest') : s = s' ∧ pad = pad' ∧ rest = rest' := by
  have hdecode := h.decode .w64
  rw [h'.decode .w64, Except.ok.injEq, Prod.mk.injEq] at hdecode
  obtain ⟨rfl, -⟩ := hdecode
  have heq := h.eq.symm.trans h'.eq
  obtain ⟨hfront, hrest⟩ := List.append_inj heq (by
    simp only [List.length_append, h.pad_length, h'.pad_length])
  exact ⟨rfl, List.append_cancel_left hfront, hrest⟩

/-- The encoder's output decodes again as long as the string is within the
decoder's limit. -/
theorem splits_encodeXDRString {s : GoString} (hs : s.length ≤ xdrStringMaxLen) (rest : Bytes) :
    Splits (encodeXDRString s ++ rest) s (List.replicate (padLen s.length) 0) rest where
  eq := by rw [encodeXDRString_eq]
  length_le := hs
  pad_length := List.length_replicate

/-- A string with zero padding is the encoder's output. -/
theorem Splits.eq_encode {data s pad rest : Bytes} (h : Splits data s pad rest)
    (hzero : pad = List.replicate (padLen s.length) 0) : data = encodeXDRString s ++ rest := by
  rw [h.eq, hzero, encodeXDRString_eq]

theorem Splits.replace {data s pad rest : Bytes} (w : IntSize) (h : Splits data s pad rest)
    (newStr : GoString) :
    replaceXDRString w data newStr = (encodeXDRString newStr ++ rest, none) := by
  simp only [replaceXDRString, h.decode w]
  rw [Int.toNat_natCast, h.drop]

end DraEnv.Virtinjectd
