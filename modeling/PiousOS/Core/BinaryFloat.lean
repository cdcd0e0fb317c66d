import Mathlib.Algebra.GroupWithZero.Nat
import Mathlib.Data.Nat.Log

/-!
# Binary floating point

IEEE 754 values as exact numbers: a finite one is a sign and a magnitude,
counted in units of `2^-1074`, the least positive double. Every operation
rounds the exact result to the nearest magnitude of a format, ties to even.

* `round_le`: a result is rounded to at most any power of two above it;
* `div_ten_le`: dividing by ten takes a value three powers of two down.
-/
namespace PiousOS

inductive FloatValue where
  | nan
  | inf (negative : Bool)
  | finite (negative : Bool) (units : Nat)
  deriving DecidableEq, Repr

/-- 1.0 in units. -/
def unitsPerOne : Nat := 2 ^ 1074

theorem unitsPerOne_pos : 0 < unitsPerOne := by decide +kernel

/-- A binary format. Magnitudes are multiples of `2^lowest` units with
`precision` significant bits; from `2^limit` units on they are infinite. -/
structure FloatFormat where
  precision : Nat
  lowest : Nat
  limit : Nat
  precision_pos : 0 < precision := by decide
  lowest_le : lowest ≤ 1071 := by decide
  limit_gt : 1074 < limit := by decide

def binary64 : FloatFormat := { precision := 53, lowest := 0, limit := 1074 + 1024 }

def binary32 : FloatFormat := { precision := 24, lowest := 1074 - 149, limit := 1074 + 128 }

/-- `a / b` to the nearest integer, ties to even. -/
def roundDiv (a b : Nat) : Nat :=
  if 2 * (a % b) < b ∨ 2 * (a % b) = b ∧ a / b % 2 = 0 then a / b else a / b + 1

namespace FloatFormat
variable (f : FloatFormat)

/-- The exponent of the last place at magnitude `a / b`. -/
def lastPlace (a b : Nat) : Nat := max f.lowest ((a / b).log2 + 1 - f.precision)

/-- The magnitude `a / b` rounded. -/
def round (negative : Bool) (a b : Nat) : FloatValue :=
  let k := f.lastPlace a b
  let units := roundDiv a (b * 2 ^ k) * 2 ^ k
  if units < 2 ^ f.limit then .finite negative units else .inf negative

def ofNat (n : Nat) : FloatValue := f.round false (n * unitsPerOne) 1

end FloatFormat

namespace FloatValue

/-- Conversion to a format. -/
def cast (f : FloatFormat) : FloatValue → FloatValue
  | finite s m => f.round s m 1
  | x => x

def neg : FloatValue → FloatValue
  | nan => nan
  | inf s => inf !s
  | finite s m => finite (!s) m

def div (f : FloatFormat) : FloatValue → FloatValue → FloatValue
  | nan, _ | _, nan | inf _, inf _ => nan
  | inf s, finite t _ => inf (s != t)
  | finite s _, inf t => finite (s != t) 0
  | finite s m, finite t n =>
    if n = 0 then (if m = 0 then nan else inf (s != t)) else f.round (s != t) (m * unitsPerOne) n

def mul (f : FloatFormat) : FloatValue → FloatValue → FloatValue
  | nan, _ | _, nan => nan
  | inf s, inf t => inf (s != t)
  | inf s, finite t n | finite t n, inf s => if n = 0 then nan else inf (s != t)
  | finite s m, finite t n => f.round (s != t) (m * n) unitsPerOne

/-- `x < 0.0` -/
def isNeg : FloatValue → Bool
  | nan => false
  | inf s => s
  | finite s m => s && m != 0

/-- `x >= 1.0` -/
def atLeastOne : FloatValue → Bool
  | nan => false
  | inf s => !s
  | finite s m => !s && unitsPerOne ≤ m

/-- The value truncated, when it fits 64 bits without a sign. -/
def trunc? : FloatValue → Option (BitVec 64)
  | finite s m =>
    if m / unitsPerOne < 2 ^ 64 ∧ (s = false ∨ m < unitsPerOne) then some (BitVec.ofNat 64 (m / unitsPerOne))
    else none
  | _ => none

/-- The double with these bits. -/
def ofBits (bits : BitVec 64) : FloatValue :=
  let exponent := (bits.extractLsb' 52 11).toNat
  let mantissa := (bits.extractLsb' 0 52).toNat
  if exponent = 2047 then (if mantissa = 0 then inf bits.msb else nan)
  else if exponent = 0 then finite bits.msb mantissa
  else finite bits.msb ((2 ^ 52 + mantissa) * 2 ^ (exponent - 1))

def IsInf : FloatValue → Prop
  | inf _ => True
  | _ => False

instance : DecidablePred IsInf
  | inf _ => inferInstanceAs (Decidable True)
  | nan => inferInstanceAs (Decidable False)
  | finite _ _ => inferInstanceAs (Decidable False)

end FloatValue

/-! ## Rounding -/

section
variable {f : FloatFormat} {a b : Nat}

theorem roundDiv_le {N : Nat} (h : a ≤ b * N) : roundDiv a b ≤ N := by
  have hdm := Nat.div_add_mod a b
  by_cases hb : b = 0
  · subst hb
    obtain rfl : a = 0 := by omega
    simp [roundDiv]
  by_cases hlt : a / b < N
  · unfold roundDiv
    split <;> omega
  · -- the quotient is `N` and nothing is left
    have hq : b * N ≤ b * (a / b) := Nat.mul_le_mul_left b (Nat.le_of_not_lt hlt)
    have hle : a / b ≤ N := Nat.div_le_of_le_mul h
    unfold roundDiv
    rw [if_pos (by omega)]
    exact hle

/-- The unit of the last place divides a power of two above the value. -/
theorem lastPlace_le {j : Nat} (h : a ≤ b * 2 ^ j) (hj : f.lowest ≤ j) : f.lastPlace a b ≤ j := by
  have hp := f.precision_pos
  have hdiv : a / b ≤ 2 ^ j := Nat.div_le_of_le_mul h
  have hlog : (a / b).log2 ≤ j := by
    rw [Nat.log2_eq_log_two]
    calc Nat.log 2 (a / b) ≤ Nat.log 2 (2 ^ j) := Nat.log_mono_right hdiv
      _ = j := Nat.log_pow (by decide) j
  exact Nat.max_le.mpr ⟨hj, by omega⟩

/-- **Rounding does not pass a power of two.** -/
theorem round_le {s : Bool} {j : Nat} (h : a ≤ b * 2 ^ j) (hj : f.lowest ≤ j) (hlim : j < f.limit) :
    ∃ units, f.round s a b = .finite s units ∧ units ≤ 2 ^ j := by
  have hk := lastPlace_le (f := f) h hj
  have hpow : 2 ^ f.lastPlace a b * 2 ^ (j - f.lastPlace a b) = 2 ^ j := by
    rw [← Nat.pow_add]
    congr 1
    omega
  have hround : roundDiv a (b * 2 ^ f.lastPlace a b) ≤ 2 ^ (j - f.lastPlace a b) := by
    apply roundDiv_le
    rw [Nat.mul_assoc, hpow]
    exact h
  have hle : roundDiv a (b * 2 ^ f.lastPlace a b) * 2 ^ f.lastPlace a b ≤ 2 ^ j := by
    calc _ ≤ 2 ^ (j - f.lastPlace a b) * 2 ^ f.lastPlace a b := Nat.mul_le_mul_right _ hround
      _ = 2 ^ j := by rw [Nat.mul_comm, hpow]
  have hlt : 2 ^ j < 2 ^ f.limit := Nat.pow_lt_pow_right (by decide) hlim
  exact ⟨_, if_pos (Nat.lt_of_le_of_lt hle hlt), hle⟩

theorem lt_of_round {s t : Bool} {units : Nat} (h : f.round s a b = .finite t units) :
    units < 2 ^ f.limit := by
  simp only [FloatFormat.round] at h
  split at h
  · next hlt =>
    cases h
    exact hlt
  · cases h

/-- Rounding does not look at the sign. -/
theorem cast_neg (v : FloatValue) : v.neg.cast f = (v.cast f).neg := by
  cases v with
  | nan => rfl
  | inf s => rfl
  | finite s m =>
    simp only [FloatValue.neg, FloatValue.cast, FloatFormat.round]
    split <;> rfl

theorem exponent_of_one_le {j : Nat} (h : unitsPerOne ≤ 2 ^ j) : 1074 ≤ j := by
  rwa [unitsPerOne, Nat.pow_le_pow_iff_right (by decide)] at h

/-- A finite double is below the limit. -/
theorem ofBits_le {bits : BitVec 64} {s : Bool} {units : Nat} (h : FloatValue.ofBits bits = .finite s units) :
    units ≤ 2 ^ binary64.limit := by
  have hmant := (bits.extractLsb' 0 52).isLt
  have hexp := (bits.extractLsb' 52 11).isLt
  simp only [FloatValue.ofBits] at h
  split at h
  · split at h <;> cases h
  split at h
  · cases h
    have hle : 52 ≤ binary64.limit := by decide
    exact Nat.le_trans (Nat.le_of_lt hmant) (Nat.pow_le_pow_right Nat.two_pos hle)
  · next hinf hsub =>
    cases h
    have hlimit : binary64.limit = 53 + 2045 := rfl
    rw [hlimit, Nat.pow_add]
    exact Nat.mul_le_mul (by omega) (Nat.pow_le_pow_right Nat.two_pos (by omega))

/-- Ten is a value of both formats. -/
theorem ofNat_ten_binary32 : binary32.ofNat 10 = .finite false (10 * unitsPerOne) := by decide +kernel

theorem ofNat_ten_binary64 : binary64.ofNat 10 = .finite false (10 * unitsPerOne) := by decide +kernel

/-- **Dividing by ten takes a value three powers of two down**, at least. -/
theorem div_ten_le (hten : f.ofNat 10 = .finite false (10 * unitsPerOne)) {m j : Nat}
    (hm : m ≤ 2 ^ (j + 3)) (hj : f.lowest ≤ j) (hlim : j < f.limit) :
    ∃ units, FloatValue.div f (.finite false m) (f.ofNat 10) = .finite false units ∧ units ≤ 2 ^ j := by
  have hpos := unitsPerOne_pos
  rw [hten]
  simp only [FloatValue.div]
  generalize unitsPerOne = one at hpos ⊢
  rw [if_neg (by omega)]
  refine round_le ?_ hj hlim
  calc m * one ≤ 2 ^ (j + 3) * one := Nat.mul_le_mul_right _ hm
    _ = 8 * one * 2 ^ j := by rw [Nat.pow_add, Nat.mul_assoc, Nat.mul_comm]
    _ ≤ 10 * one * 2 ^ j := Nat.mul_le_mul_right _ (by omega)

end

end PiousOS
