import DraEnv.Virtinjectd.Xdr

/-!
The XDR string codec as a whole.

The decoder accepts a set of byte strings that can be written down
without it: a length word, that many bytes, the least padding to a
multiple of four, and anything. The encoder's outputs are the ones with
zero padding, as long as the string is within the decoder's limit; a
longer string is encoded all the same, and then never decodes to itself.
-/

namespace DraEnv.Virtinjectd

open DraEnv.GoStd

/-- `data` is a length word, as many bytes, the least padding that aligns them,
and a rest. -/
def Decomposes (data : Bytes) (s : GoString) (pad rest : Bytes) : Prop :=
  data = putUint32 (UInt32.ofNat s.length) ++ s ++ pad ++ rest ∧ s.length ≤ xdrStringMaxLen ∧
    IsLeast {k | 4 ∣ s.length + k} pad.length

theorem isLeast_padLen (n : Nat) : IsLeast {k | 4 ∣ n + k} (padLen n) := by
  refine ⟨four_dvd_add_padLen n, fun k hk => ?_⟩
  have hk : 4 ∣ n + k := hk
  simp only [padLen]
  omega

theorem decomposes_iff {data s pad rest : Bytes} :
    Decomposes data s pad rest ↔ Splits data s pad rest := by
  constructor
  · rintro ⟨heq, hle, hleast⟩
    exact ⟨heq, hle, hleast.unique (isLeast_padLen _)⟩
  · rintro ⟨heq, hle, hpad⟩
    exact ⟨heq, hle, hpad ▸ isLeast_padLen _⟩

/-- Past the range check the sums are those of the integers, and past the last
check the slice is within the data. -/
theorem decode_inRange (w : IntSize) {data : Bytes}
    (hrange : ¬ (w.ofUint32 (uint32 (slice data 0 4)) < 0 ∨
      w.ofUint32 (uint32 (slice data 0 4)) > xdrStringMaxLen)) :
    ∃ n : Nat, n ≤ xdrStringMaxLen ∧ w.ofUint32 (uint32 (slice data 0 4)) = n ∧
      xdrPad n = padLen n ∧ w.add 4 n = ((4 + n : Nat) : Int) ∧
      w.add (w.add 4 n) (xdrPad n) = ((4 + n + padLen n : Nat) : Int) ∧
      (¬ (data.length : Int) < w.add (w.add 4 n) (xdrPad n) → 4 + n ≤ data.length) := by
  rw [not_or, not_lt, gt_iff_lt, not_lt] at hrange
  obtain ⟨n, hn⟩ := Int.eq_ofNat_of_zero_le hrange.1
  have hle : n ≤ xdrStringMaxLen := by omega
  have hpad := padLen_lt n
  have hsmall : n ≤ 4194304 := hle
  have hend : w.add 4 (n : Int) = 4 + n := w.add_eq (by omega) (by omega)
  have hsum : w.add (4 + (n : Int)) (padLen n : Int) = 4 + n + padLen n :=
    w.add_eq (by omega) (by omega)
  refine ⟨n, hle, hn, xdrPad_natCast n, by rw [hend]; simp, ?_, fun henough => ?_⟩
  · rw [hend, xdrPad_natCast, hsum]
    simp
  · rw [hend, xdrPad_natCast, hsum] at henough
    omega

theorem encode_eq_consumed_iff {data s pad rest : Bytes} (h : Splits data s pad rest) :
    encodeXDRString s = data.take (4 + s.length + padLen s.length) ↔ ∀ b ∈ pad, b = 0 := by
  have hfront : data.take (4 + s.length + padLen s.length) =
      putUint32 (UInt32.ofNat s.length) ++ s ++ pad := by
    rw [h.eq]
    refine List.take_left' ?_
    simp only [List.length_append, putUint32_length, h.pad_length]
  rw [hfront, encodeXDRString_eq, List.append_cancel_left_eq, ← h.pad_length, eq_comm,
    List.eq_replicate_iff]
  simp

/-- The codec on all byte strings and on both widths of `int`. -/
theorem xdrString_exact (w : IntSize) :
    (∀ (data s : Bytes) (n : Int), decodeXDRString w data = .ok (s, n) ↔
      ∃ pad rest, Decomposes data s pad rest ∧
        n = ((4 + s.length + pad.length : Nat) : Int)) ∧
    (∀ data s pad rest s' pad' rest' : Bytes, Decomposes data s pad rest →
      Decomposes data s' pad' rest' → s = s' ∧ pad = pad' ∧ rest = rest') ∧
    (∀ (data s : Bytes) (n : Int), decodeXDRString w data = .ok (s, n) →
      4 ∣ n ∧ n ≤ data.length) ∧
    (∀ data : Bytes, ¬ (w.ofUint32 (uint32 (slice data 0 4)) < 0 ∨
        w.ofUint32 (uint32 (slice data 0 4)) > xdrStringMaxLen) →
      ∃ n : Nat, n ≤ xdrStringMaxLen ∧ w.ofUint32 (uint32 (slice data 0 4)) = n ∧
        xdrPad n = padLen n ∧ w.add 4 n = ((4 + n : Nat) : Int) ∧
        w.add (w.add 4 n) (xdrPad n) = ((4 + n + padLen n : Nat) : Int) ∧
        (¬ (data.length : Int) < w.add (w.add 4 n) (xdrPad n) → 4 + n ≤ data.length)) ∧
    (∀ s r : Bytes, decodeXDRString w (encodeXDRString s ++ r) =
        .ok (s, ((encodeXDRString s).length : Int)) ↔ s.length ≤ xdrStringMaxLen) ∧
    (∀ data s pad rest : Bytes, Decomposes data s pad rest →
      (encodeXDRString s = data.take (4 + s.length + pad.length) ↔ ∀ b ∈ pad, b = 0)) := by
  simp only [decomposes_iff]
  refine ⟨fun data s n => ?_, fun _ _ _ _ _ _ _ h h' => h.unique h', fun data s n hok => ?_,
    fun data hrange => decode_inRange w hrange, fun s r => ⟨fun hok => ?_, fun hs => ?_⟩,
    fun data s pad rest h => ?_⟩
  · rw [decodeXDRString_eq_ok_iff]
    constructor
    · rintro ⟨⟨pad, rest, h⟩, rfl⟩
      exact ⟨pad, rest, h, by rw [h.pad_length]⟩
    · rintro ⟨pad, rest, h, rfl⟩
      exact ⟨⟨pad, rest, h⟩, by rw [h.pad_length]⟩
  · obtain ⟨⟨pad, rest, h⟩, rfl⟩ := decodeXDRString_eq_ok_iff.mp hok
    have hdvd := four_dvd_add_padLen s.length
    have hlength := h.length
    exact ⟨by omega, by omega⟩
  · obtain ⟨⟨pad, rest, h⟩, -⟩ := decodeXDRString_eq_ok_iff.mp hok
    exact h.length_le
  · rw [encodeXDRString_length]
    exact (splits_encodeXDRString hs r).decode w
  · rw [h.pad_length]
    exact encode_eq_consumed_iff h

end DraEnv.Virtinjectd
