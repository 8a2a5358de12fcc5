import DraEnv.GoStd.Binary
import DraEnv.GoStd.Int

/-!
Decimal numbers as Go's `strconv.Itoa` and the verb `%d` print them: no
leading zero, `0` for zero, a minus sign in front of a negative number.
Different numbers print differently, and only digits and the sign occur.
`strconv.Atoi` reads more than that: a plus sign and leading zeros as
well.
-/

namespace DraEnv.GoStd

/-- The decimal digits of a number, least significant first. -/
def decimalDigits (n : Nat) : List Nat := if n = 0 then [0] else Nat.digits 10 n

def digit (d : Nat) : UInt8 := UInt8.ofNat (48 + d)

def minus : UInt8 := 45

def formatNat (n : Nat) : GoString := ((decimalDigits n).map digit).reverse

/-- `strconv.Itoa` -/
def itoa (i : Int) : GoString :=
  if i < 0 then minus :: formatNat i.natAbs else formatNat i.natAbs

theorem digit_bounds {d : Nat} (hd : d < 10) : 48 ≤ (digit d).toNat ∧ (digit d).toNat ≤ 57 := by
  simp only [digit, UInt8.toNat_ofNat']
  omega

theorem ofDigits_decimalDigits (n : Nat) : Nat.ofDigits 10 (decimalDigits n) = n := by
  unfold decimalDigits
  split
  · next hn => rw [hn]; rfl
  · exact Nat.ofDigits_digits 10 n

theorem decimalDigits_lt {n d : Nat} (hd : d ∈ decimalDigits n) : d < 10 := by
  unfold decimalDigits at hd
  split at hd
  · simp only [List.mem_singleton] at hd
    omega
  · exact Nat.digits_lt_base (by decide) hd

theorem mem_formatNat {n : Nat} {b : UInt8} (hb : b ∈ formatNat n) :
    48 ≤ b.toNat ∧ b.toNat ≤ 57 := by
  rw [formatNat, List.mem_reverse, List.mem_map] at hb
  obtain ⟨d, hd, rfl⟩ := hb
  exact digit_bounds (decimalDigits_lt hd)

theorem formatNat_injective : Function.Injective formatNat := by
  -- a digit is read back from its byte, so the digit lists agree
  have hread : ∀ n, (formatNat n).reverse.map (fun b => b.toNat - 48) = decimalDigits n := by
    intro n
    rw [formatNat, List.reverse_reverse, List.map_map]
    refine (List.map_congr_left fun d hd => ?_).trans (List.map_id _)
    have hlt := decimalDigits_lt hd
    simp only [Function.comp_apply, digit, UInt8.toNat_ofNat', id_eq]
    omega
  intro n m h
  rw [← ofDigits_decimalDigits n, ← hread, h, hread, ofDigits_decimalDigits]

/-- Only digits and the sign occur. -/
theorem mem_itoa {i : Int} {b : UInt8} (hb : b ∈ itoa i) :
    b = minus ∨ 48 ≤ b.toNat ∧ b.toNat ≤ 57 := by
  unfold itoa at hb
  split at hb
  · exact (List.mem_cons.mp hb).imp_right mem_formatNat
  · exact Or.inr (mem_formatNat hb)

theorem itoa_injective : Function.Injective itoa := by
  -- the first byte of an unsigned number is a digit, so the signs agree
  have hsign : ∀ n m : Nat, minus :: formatNat n ≠ formatNat m := by
    intro n m h
    have hmem : minus ∈ formatNat m := by rw [← h]; exact List.mem_cons_self
    have := (mem_formatNat hmem).1
    simp [minus] at this
  intro i j h
  unfold itoa at h
  split at h <;> split at h
  · have := formatNat_injective (List.cons.inj h).2
    omega
  · exact absurd h (hsign _ _)
  · exact absurd h.symm (hsign _ _)
  · have := formatNat_injective h
    omega

example : itoa (-105) = lit "-105" := by decide

/-- A number in decimal digits, of which there must be one. -/
def parseDigits (s : GoString) : Option Nat :=
  if s ≠ [] ∧ s.all (fun b => 48 ≤ b && b ≤ 57) then
    some (s.foldl (fun n b => n * 10 + (b.toNat - 48)) 0)
  else none

/-- `strconv.Atoi`; `none` is an error, for the form or for the range of `int`. -/
def atoi (size : IntSize) (s : GoString) : Option Int :=
  let value : Option Int :=
    match s with
    | 45 :: digits => (parseDigits digits).map fun n => -(n : Int)
    | 43 :: digits => (parseDigits digits).map fun n => (n : Int)
    | digits => (parseDigits digits).map fun n => (n : Int)
  value.filter fun v => decide (-2 ^ (size.bits - 1) ≤ v ∧ v < 2 ^ (size.bits - 1))

example : atoi .w64 (lit "+007") = some 7 := by decide

example : atoi .w32 (lit "2147483648") = none := by decide

/-- The digits of `strconv.ParseUint`, read up to the first that takes the number over the
maximum, which is then the value. -/
def scanDigits (maximum : Nat) : Nat → GoString → Option Nat
  | n, [] => some n
  | n, b :: s =>
      if 48 ≤ b ∧ b ≤ 57 then
        let next := n * 10 + (b.toNat - 48)
        if maximum < next then some maximum else scanDigits maximum next s
      else none

/-- The number `strconv.Atoi` returns, an error next to it or not: zero if the form is wrong,
the nearest `int` if it is out of range. -/
def atoiValue (size : IntSize) (s : GoString) : Int :=
  let cutoff : Nat := 2 ^ (size.bits - 1)
  let magnitude (digits : GoString) : Nat :=
    if digits = [] then 0 else (scanDigits (2 ^ size.bits - 1) 0 digits).getD 0
  match s with
  | 45 :: digits => -(min (magnitude digits) cutoff : Nat)
  | 43 :: digits => (min (magnitude digits) (cutoff - 1) : Nat)
  | digits => (min (magnitude digits) (cutoff - 1) : Nat)

example : atoiValue .w32 (lit "12x") = 0 := by decide

theorem toNat_digit {d : Nat} (hd : d < 10) : (digit d).toNat = 48 + d := by
  simp only [digit, UInt8.toNat_ofNat']
  omega

theorem le_foldl_digits (digits : List Nat) (n : Nat) :
    n ≤ digits.foldl (fun n d => n * 10 + d) n := by
  induction digits generalizing n with
  | nil => exact le_rfl
  | cons d digits ih => exact (show n ≤ n * 10 + d by omega).trans (ih _)

theorem scanDigits_digits {maximum : Nat} {digits : List Nat} (hdigits : ∀ d ∈ digits, d < 10)
    {n : Nat} (hmax : digits.foldl (fun n d => n * 10 + d) n ≤ maximum) :
    scanDigits maximum n (digits.map digit) = some (digits.foldl (fun n d => n * 10 + d) n) := by
  induction digits generalizing n with
  | nil => rfl
  | cons d digits ih =>
      rw [List.forall_mem_cons] at hdigits
      have hbounds := digit_bounds hdigits.1
      have hdigit : 48 ≤ digit d ∧ digit d ≤ 57 := by
        rwa [UInt8.le_iff_toNat_le, UInt8.le_iff_toNat_le]
      have hnext : ¬ maximum < n * 10 + d :=
        not_lt.mpr ((le_foldl_digits digits _).trans hmax)
      rw [List.map_cons, scanDigits, if_pos hdigit, toNat_digit hdigits.1, Nat.add_sub_cancel_left]
      dsimp only
      rw [if_neg hnext]
      exact ih hdigits.2 hmax

/-- A number starts with a digit. -/
theorem exists_cons_formatNat (n : Nat) :
    ∃ b rest, formatNat n = b :: rest ∧ 48 ≤ b.toNat ∧ b.toNat ≤ 57 := by
  have hne : formatNat n ≠ [] := by
    intro hnil
    have hdigits : decimalDigits n = [] := by simpa [formatNat] using hnil
    unfold decimalDigits at hdigits
    split at hdigits
    · simp at hdigits
    next hpos => exact hpos (Nat.digits_eq_nil_iff_eq_zero.mp hdigits)
  obtain ⟨b, rest, hcons⟩ := List.exists_cons_of_ne_nil hne
  exact ⟨b, rest, hcons, mem_formatNat (hcons ▸ List.mem_cons_self)⟩

/-- What `Itoa` prints is read back. -/
theorem atoiValue_formatNat {size : IntSize} {n : Nat} (h : n < 2 ^ (size.bits - 1)) :
    atoiValue size (formatNat n) = n := by
  have hfold : (decimalDigits n).reverse.foldl (fun n d => n * 10 + d) 0 = n := by
    rw [List.foldl_reverse]
    conv_rhs => rw [← ofDigits_decimalDigits n, Nat.ofDigits_eq_foldr]
    congr 1
    funext d m
    simp [mul_comm, add_comm]
  have hformat : formatNat n = (decimalDigits n).reverse.map digit := by
    rw [formatNat, List.map_reverse]
  have hle : n ≤ 2 ^ size.bits - 1 := by
    have hpow : 2 ^ (size.bits - 1) ≤ 2 ^ size.bits := Nat.pow_le_pow_right (by decide) (by omega)
    omega
  have hscan : scanDigits (2 ^ size.bits - 1) 0 (formatNat n) = some n := by
    rw [hformat, scanDigits_digits (fun d hd => decimalDigits_lt (List.mem_reverse.mp hd))
      (by rwa [hfold]), hfold]
  obtain ⟨b, rest, hcons, hb, -⟩ := exists_cons_formatNat n
  have hne : formatNat n ≠ [] := by simp [hcons]
  unfold atoiValue
  dsimp only
  split
  next digits hminus =>
    rw [hcons] at hminus
    obtain ⟨rfl, -⟩ := List.cons.inj hminus
    exact absurd hb (by decide)
  next digits hplus =>
    rw [hcons] at hplus
    obtain ⟨rfl, -⟩ := List.cons.inj hplus
    exact absurd hb (by decide)
  next =>
    rw [if_neg hne, hscan, Option.getD_some, Nat.min_eq_left (by omega)]

end DraEnv.GoStd
