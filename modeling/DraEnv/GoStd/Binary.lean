import Mathlib

/-!
Byte strings and the big-endian words of Go's `encoding/binary`.

A Go `[]byte` and a Go `string` are both sequences of bytes, so one type
stands for the two. The word codec is stated through the value of a word
rather than through shifts: `putUint32` and `uint32` are then inverse to
each other by linear arithmetic, in both directions, and nothing below
this module ever looks at the digits again.
-/

namespace DraEnv.GoStd

/-- A Go byte slice. -/
abbrev Bytes := List UInt8

/-- A Go string: any sequence of bytes, valid UTF-8 or not. -/
abbrev GoString := List UInt8

/-- The bytes of a string literal of the source. -/
def lit (s : String) : GoString := s.toList.flatMap String.utf8EncodeChar

/-- `binary.BigEndian.PutUint32`: the four bytes of a word. -/
def putUint32 (v : UInt32) : Bytes :=
  [UInt8.ofNat (v.toNat / 16777216), UInt8.ofNat (v.toNat / 65536),
    UInt8.ofNat (v.toNat / 256), UInt8.ofNat v.toNat]

/-- `binary.BigEndian.Uint32` on the first four bytes of a slice. Every call
of the sources hands it a slice of length four. -/
def uint32 : Bytes → UInt32
  | b0 :: b1 :: b2 :: b3 :: _ =>
      UInt32.ofNat (b0.toNat * 16777216 + b1.toNat * 65536 + b2.toNat * 256 + b3.toNat)
  | _ => 0

@[simp] theorem putUint32_length (v : UInt32) : (putUint32 v).length = 4 := rfl

/-- Decoding reads the word back, whatever follows it. -/
@[simp] theorem uint32_putUint32_append (v : UInt32) (rest : Bytes) :
    uint32 (putUint32 v ++ rest) = v := by
  have hv := v.toNat_lt
  apply UInt32.toNat_inj.mp
  simp only [putUint32, List.cons_append, List.nil_append, uint32,
    UInt8.toNat_ofNat', UInt32.toNat_ofNat']
  omega

@[simp] theorem uint32_putUint32 (v : UInt32) : uint32 (putUint32 v) = v := by
  simpa using uint32_putUint32_append v []

/-- Four bytes are the encoding of the word they decode to. -/
theorem putUint32_uint32 {b : Bytes} (hb : b.length = 4) : putUint32 (uint32 b) = b := by
  match b, hb with
  | [b0, b1, b2, b3], _ =>
      have h0 := b0.toNat_lt
      have h1 := b1.toNat_lt
      have h2 := b2.toNat_lt
      have h3 := b3.toNat_lt
      simp only [putUint32, uint32, List.cons.injEq, and_true]
      refine ⟨?_, ?_, ?_, ?_⟩ <;> apply UInt8.toNat_inj.mp <;>
        simp only [UInt8.toNat_ofNat', UInt32.toNat_ofNat'] <;> omega

/-- The word at the front of a slice only depends on its first four bytes. -/
theorem uint32_take (b : Bytes) : uint32 (b.take 4) = uint32 b := by
  match b with
  | [] => rfl
  | [_] => rfl
  | [_, _] => rfl
  | [_, _, _] => rfl
  | _ :: _ :: _ :: _ :: _ => rfl

theorem uint32_append {b : Bytes} (hb : 4 ≤ b.length) (c : Bytes) :
    uint32 (b ++ c) = uint32 b := by
  rw [← uint32_take (b ++ c), ← uint32_take b, List.take_append_of_le_length hb]

theorem putUint32_injective {v w : UInt32} (h : putUint32 v = putUint32 w) : v = w := by
  rw [← uint32_putUint32 v, h, uint32_putUint32]

/-- The slice expression `b[i:j]` for bounds that are in range. -/
def slice (b : Bytes) (i j : Nat) : Bytes := (b.drop i).take (j - i)

theorem slice_length {b : Bytes} {i j : Nat} (hij : i ≤ j) (hj : j ≤ b.length) :
    (slice b i j).length = j - i := by
  simp only [slice, List.length_take, List.length_drop]
  omega

/-- Adjacent slices join. -/
theorem slice_append_slice (b : Bytes) {i j k : Nat} (hij : i ≤ j) (hjk : j ≤ k) :
    slice b i j ++ slice b j k = slice b i k := by
  have hdrop : b.drop j = (b.drop i).drop (j - i) := by
    rw [List.drop_drop, Nat.add_sub_cancel' hij]
  have hsum : k - i = (j - i) + (k - j) := by omega
  rw [slice, slice, slice, hdrop, hsum, List.take_add]

theorem slice_zero_length (b : Bytes) : slice b 0 b.length = b := by
  simp [slice]

/-- Re-encoding the word a four-byte slice holds gives the slice back. -/
theorem putUint32_uint32_slice {b : Bytes} {i j : Nat} (hj : j ≤ b.length) (hij : j = i + 4) :
    putUint32 (uint32 (slice b i j)) = slice b i j := by
  apply putUint32_uint32
  rw [slice_length (by omega) hj, hij]
  omega

end DraEnv.GoStd
