import Mathlib.Algebra.Order.Ring.Int
import Mathlib.Order.Basic

/-!
# Arithmetic of a 64-bit machine

A checked operation is `none` where the machine stops: an `isize` or a `usize`
that leaves its range, a `clamp` between bounds in the wrong order.  A cast keeps
the low bits.  In range, all of them are exact.
-/

namespace Keylens.Library.Machine

/-- The values of `isize`. -/
def InSigned (value : Int) : Prop :=
  -(2 ^ 63) ≤ value ∧ value < 2 ^ 63

instance (value : Int) : Decidable (InSigned value) :=
  inferInstanceAs (Decidable (_ ∧ _))

/-- An `isize` result. -/
def signed (value : Int) : Option Int :=
  if InSigned value then some value else none

/-- A `usize` result. -/
def unsigned (value : Int) : Option Nat :=
  if 0 ≤ value ∧ value < 2 ^ 64 then some value.toNat else none

/-- `as isize`. -/
def asSigned (value : Nat) : Int :=
  if value % 2 ^ 64 < 2 ^ 63 then (value % 2 ^ 64 : Nat) else (value % 2 ^ 64 : Nat) - 2 ^ 64

/-- `as usize`. -/
def asUnsigned (value : Int) : Nat :=
  (value % 2 ^ 64).toNat

/-- `as u16`. -/
def asWord (value : Int) : Nat :=
  (value % 2 ^ 16).toNat

/-- A difference of two `usize`. -/
def checkedSub (left right : Nat) : Option Nat :=
  if right ≤ left then some (left - right) else none

def saturatingAdd (left right : Int) : Int :=
  max (-(2 ^ 63)) (min (left + right) (2 ^ 63 - 1))

def clamp (value low high : Int) : Option Int :=
  if low ≤ high then some (max low (min value high)) else none

theorem signed_eq {value : Int} (inside : InSigned value) : signed value = some value :=
  if_pos inside

theorem unsigned_eq {value : Nat} (inside : value < 2 ^ 64) : unsigned value = some value := by
  rw [unsigned, if_pos (by omega), Int.toNat_natCast]

theorem asSigned_eq {value : Nat} (inside : value < 2 ^ 63) : asSigned value = value := by
  have small : value % 2 ^ 64 = value := Nat.mod_eq_of_lt (by omega)
  rw [asSigned, small, if_pos inside]

theorem asUnsigned_eq {value : Int} (nonneg : 0 ≤ value) (inside : value < 2 ^ 64) :
    asUnsigned value = value.toNat := by
  rw [asUnsigned, Int.emod_eq_of_lt nonneg inside]

/-- A negative number becomes one of the upper half. -/
theorem asUnsigned_of_neg {value : Int} (inside : InSigned value) (negative : value < 0) :
    (asUnsigned value : Int) = value + 2 ^ 64 := by
  rw [InSigned] at inside
  rw [asUnsigned, Int.toNat_of_nonneg (Int.emod_nonneg _ (by decide)),
    ← Int.add_emod_right value (2 ^ 64)]
  exact Int.emod_eq_of_lt (by omega) (by omega)

/-- The cast shows the number, or zero, exactly when the number is not negative. -/
theorem asUnsigned_eq_iff {value : Int} (inside : InSigned value) :
    asUnsigned value = 0 ∨ (asUnsigned value : Int) = value ↔ 0 ≤ value := by
  constructor
  · intro same
    by_contra negative
    have wrapped := asUnsigned_of_neg inside (Int.not_le.mp negative)
    rw [InSigned] at inside
    omega
  · intro nonneg
    rw [InSigned] at inside
    rw [asUnsigned_eq nonneg (by omega)]
    exact Or.inr (Int.toNat_of_nonneg nonneg)

theorem asWord_eq {value : Int} (nonneg : 0 ≤ value) (inside : value < 2 ^ 16) :
    asWord value = value.toNat := by
  rw [asWord, Int.emod_eq_of_lt nonneg inside]

theorem saturatingAdd_eq {left right : Int} (inside : InSigned (left + right)) :
    saturatingAdd left right = left + right := by
  rw [InSigned] at inside
  rw [saturatingAdd]
  omega

theorem clamp_eq {value low high : Int} (ordered : low ≤ high) :
    clamp value low high = some (max low (min value high)) :=
  if_pos ordered

end Keylens.Library.Machine
