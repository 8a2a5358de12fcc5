import DraEnv.GoStd.Binary

/-!
The runes of a string, as Go's `for range` goes through them.

A rune is decoded from one to four bytes. Where the bytes at hand are no
encoding of the shortest form, the loop sees U+FFFD and goes on behind
one byte.
-/

namespace DraEnv.GoStd

/-- `unicode/utf8.RuneError` -/
def runeError : Nat := 0xFFFD

/-- For a first byte outside ASCII, the length of the encodings it starts and the
bounds of the byte that comes second; they leave out overlong forms, surrogates
and what is beyond U+10FFFF. -/
def leadByte (b : UInt8) : Option (Nat × UInt8 × UInt8) :=
  if 0xC2 ≤ b ∧ b ≤ 0xDF then some (2, 0x80, 0xBF)
  else if b = 0xE0 then some (3, 0xA0, 0xBF)
  else if b = 0xED then some (3, 0x80, 0x9F)
  else if 0xE1 ≤ b ∧ b ≤ 0xEF then some (3, 0x80, 0xBF)
  else if b = 0xF0 then some (4, 0x90, 0xBF)
  else if b = 0xF4 then some (4, 0x80, 0x8F)
  else if 0xF1 ≤ b ∧ b ≤ 0xF3 then some (4, 0x80, 0xBF)
  else none

def isContinuation (b : UInt8) : Bool := 0x80 ≤ b && b ≤ 0xBF

/-- `utf8.DecodeRuneInString`: the first rune and the number of its bytes. -/
def decodeRune : GoString → Nat × Nat
  | [] => (runeError, 0)
  | b0 :: rest =>
      if b0 < 0x80 then (b0.toNat, 1)
      else
        match leadByte b0, rest with
        | some (2, lo, hi), b1 :: _ =>
            if lo ≤ b1 ∧ b1 ≤ hi then (b0.toNat % 32 * 64 + b1.toNat % 64, 2) else (runeError, 1)
        | some (3, lo, hi), b1 :: b2 :: _ =>
            if lo ≤ b1 ∧ b1 ≤ hi ∧ isContinuation b2 then
              (b0.toNat % 16 * 4096 + b1.toNat % 64 * 64 + b2.toNat % 64, 3)
            else (runeError, 1)
        | some (4, lo, hi), b1 :: b2 :: b3 :: _ =>
            if lo ≤ b1 ∧ b1 ≤ hi ∧ isContinuation b2 ∧ isContinuation b3 then
              (b0.toNat % 8 * 262144 + b1.toNat % 64 * 4096 + b2.toNat % 64 * 64 + b3.toNat % 64,
                4)
            else (runeError, 1)
        | _, _ => (runeError, 1)

/-- The runes a `for range` loop sees; every turn goes on by a byte at least, so
`s.length` turns are enough. -/
def runes (s : GoString) : List Nat :=
  go s.length s
where
  go : Nat → GoString → List Nat
    | 0, _ => []
    | fuel + 1, s =>
        if s = [] then [] else (decodeRune s).1 :: go fuel (s.drop (decodeRune s).2)

/-- The bytes of the first `n` runes, which is what the verb `%.ns` prints. -/
def takeRunes : Nat → GoString → GoString
  | 0, _ => []
  | n + 1, s => s.take (decodeRune s).2 ++ takeRunes n (s.drop (decodeRune s).2)

/-! ### ASCII -/

theorem decodeRune_ascii {b : UInt8} (hb : b < 0x80) (rest : GoString) :
    decodeRune (b :: rest) = (b.toNat, 1) := by
  rw [decodeRune.eq_def]
  exact if_pos hb

/-- Of an encoding with a zero in the bits of its first byte, the second is too large
for the rune to be short. -/
theorem leadByte_bounds {b lo hi : UInt8} {n : Nat} (h : leadByte b = some (n, lo, hi)) :
    (n = 2 → 0xC2 ≤ b.toNat ∧ b.toNat ≤ 0xDF) ∧
    (n = 3 → 0xE0 < b.toNat ∧ b.toNat ≤ 0xEF ∨ lo.toNat = 0xA0 ∧ hi.toNat = 0xBF) ∧
    (n = 4 → 0xF0 < b.toNat ∧ b.toNat ≤ 0xF4 ∨ lo.toNat = 0x90 ∧ hi.toNat = 0xBF) := by
  simp only [leadByte, UInt8.le_iff_toNat_le, ← UInt8.toNat_inj] at h
  split_ifs at h with h2 hE0 hED h3 hF0 hF4 h4
  · cases h
    simpa using h2
  · cases h
    simp
  · cases h
    simp [hED]
  · cases h
    simp at hE0 h3 ⊢
    omega
  · cases h
    simp
  · cases h
    simp [hF4]
  · cases h
    simp at hF0 h4 ⊢
    omega

/-- No rune outside ASCII is below U+0080. -/
theorem le_decodeRune {b : UInt8} (hb : ¬ b < 0x80) (rest : GoString) :
    0x80 ≤ (decodeRune (b :: rest)).1 := by
  have herror : 0x80 ≤ runeError := by decide
  rw [decodeRune.eq_def]
  dsimp only
  rw [if_neg hb]
  split
  next _ lo hi b1 _ hlead =>
    obtain ⟨hbounds, -⟩ := leadByte_bounds hlead
    split
    · have := hbounds rfl
      dsimp only
      omega
    · exact herror
  next _ lo hi b1 b2 _ hlead =>
    obtain ⟨-, hbounds, -⟩ := leadByte_bounds hlead
    split
    next hsecond =>
      simp only [UInt8.le_iff_toNat_le] at hsecond
      dsimp only
      have := hbounds rfl
      omega
    · exact herror
  next _ lo hi b1 b2 b3 _ hlead =>
    obtain ⟨-, -, hbounds⟩ := leadByte_bounds hlead
    split
    next hsecond =>
      simp only [UInt8.le_iff_toNat_le] at hsecond
      dsimp only
      have := hbounds rfl
      omega
    · exact herror
  next => exact herror

theorem runes_go_ascii {fuel : Nat} {s : GoString} (hfuel : s.length ≤ fuel) :
    ((∀ b ∈ s, b < 0x80) → runes.go fuel s = s.map UInt8.toNat) ∧
      ((∀ r ∈ runes.go fuel s, r < 0x80) → ∀ b ∈ s, b < 0x80) := by
  induction fuel generalizing s with
  | zero =>
      obtain rfl := List.length_eq_zero_iff.mp (Nat.le_zero.mp hfuel)
      simp [runes.go]
  | succ fuel ih =>
      cases s with
      | nil => simp [runes.go]
      | cons b rest =>
          by_cases hb : b < 0x80
          · have hgo : runes.go (fuel + 1) (b :: rest) = b.toNat :: runes.go fuel rest := by
              rw [runes.go, if_neg (by simp), decodeRune_ascii hb]
              rfl
            obtain ⟨hmap, hascii⟩ := ih (Nat.le_of_succ_le_succ hfuel)
            rw [hgo, List.map_cons, List.forall_mem_cons, List.forall_mem_cons]
            exact ⟨fun h => by rw [hmap h.2], fun h => ⟨hb, hascii h.2⟩⟩
          · refine ⟨fun h => absurd (h b List.mem_cons_self) hb, fun h => ?_⟩
            rw [runes.go, if_neg (by simp), List.forall_mem_cons] at h
            exact absurd h.1 (not_lt.mpr (le_decodeRune hb rest))

theorem runes_eq_map {s : GoString} (h : ∀ b ∈ s, b < 0x80) : runes s = s.map UInt8.toNat :=
  (runes_go_ascii le_rfl).1 h

/-- A string with no rune outside ASCII has no such byte either. -/
theorem ascii_of_runes {s : GoString} (h : ∀ r ∈ runes s, r < 0x80) : ∀ b ∈ s, b < 0x80 :=
  (runes_go_ascii le_rfl).2 h

example : runes (lit "aé€") = [0x61, 0xE9, 0x20AC] := by decide

example : takeRunes 2 (lit "aé€") = lit "aé" := by decide

example : runes [0xE2, 0x82, 0x41] = [runeError, runeError, 0x41] := by decide

end DraEnv.GoStd
