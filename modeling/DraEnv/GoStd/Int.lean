import Mathlib

/-!
Go's `int`, whose width depends on the target. A value is an `Int`; the
operations that can leave the range wrap as two's complement does.
-/

namespace DraEnv.GoStd

/-- The two widths Go gives `int`. -/
inductive IntSize where
  | w32
  | w64
  deriving DecidableEq, Repr

def IntSize.bits : IntSize → Nat
  | .w32 => 32
  | .w64 => 64

/-- The `int` a mathematical result is stored as. -/
def IntSize.wrap (w : IntSize) (x : Int) : Int := x.bmod (2 ^ w.bits)

/-- The conversion `int(v)` of a `uint32`, negative on a 32-bit target from
`2 ^ 31` on. -/
def IntSize.ofUint32 (w : IntSize) (v : UInt32) : Int := w.wrap v.toNat

def IntSize.add (w : IntSize) (x y : Int) : Int := w.wrap (x + y)

theorem IntSize.wrap_eq (w : IntSize) {x : Int} (hlo : -2 ^ 31 ≤ x) (hhi : x < 2 ^ 31) :
    w.wrap x = x := by
  apply Int.bmod_eq_of_le <;> cases w <;> simp [IntSize.bits] <;> omega

theorem IntSize.add_eq (w : IntSize) {x y : Int} (hlo : -2 ^ 31 ≤ x + y)
    (hhi : x + y < 2 ^ 31) : w.add x y = x + y :=
  w.wrap_eq hlo hhi

/-- A `uint32` of at least `2 ^ 31` comes out negative or unchanged, so a check
against a small nonnegative bound rejects it on both targets. -/
theorem IntSize.ofUint32_eq_or (w : IntSize) (v : UInt32) :
    w.ofUint32 v = v.toNat ∨ w.ofUint32 v < 0 ∧ 2 ^ 31 ≤ v.toNat := by
  have hv := v.toNat_lt
  by_cases hsmall : v.toNat < 2 ^ 31
  · exact Or.inl (w.wrap_eq (by omega) (by omega))
  · cases w with
    | w64 =>
        left
        rw [IntSize.ofUint32, IntSize.wrap]
        exact Int.bmod_eq_of_le (by simp [IntSize.bits]) (by simp [IntSize.bits]; omega)
    | w32 =>
        right
        refine ⟨?_, by omega⟩
        have hwrap : IntSize.w32.ofUint32 v = (v.toNat : Int) - 2 ^ 32 := by
          rw [IntSize.ofUint32, IntSize.wrap, Int.bmod_def]
          simp only [IntSize.bits]
          omega
        omega

end DraEnv.GoStd
