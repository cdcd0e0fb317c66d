import PiousOS.Core.BinaryFloat
import PiousOS.L4Kernel.PrintInteger

/-!
# Floating-point conversions of `PrintString` (`src/kernel/graphics.c`)

`%e`, `%E` and `%f` are one conversion, which works on the argument narrowed
to a `float`; `%g` is the same code on the `double`. The whole part is counted
by dividing by ten until less than one is left.

A digit that does not fit `unsigned long` is undefined in C; `undefined` says
what the processor makes of it.

* `printFloat_isSome_iff`: the counting loop ends for every argument but the
  infinite ones.
-/
namespace PiousOS.Kernel

/-- The type the argument is worked on in. -/
inductive FloatConversion where
  | float
  | double
  deriving DecidableEq, Repr

namespace FloatConversion

def format : FloatConversion → FloatFormat
  | float => binary32
  | double => binary64

/-- `(float)value.d`, or `value.d` itself -/
def narrow : FloatConversion → FloatValue → FloatValue
  | float => FloatValue.cast binary32
  | double => id

section
variable (c : FloatConversion) (undefined : FloatValue → UINT64)

/-- `while((float)value_cpy.d >= 1.0f) { value_cpy.d = (float)value_cpy.d / 10; places++; }`,
`none` when the fuel runs out. -/
def countWhole : Nat → FloatValue → UINT8 → Option UINT8
  | 0, _, _ => none
  | fuel + 1, value_cpy, places =>
    if (c.narrow value_cpy).atLeastOne then
      countWhole fuel ((c.narrow value_cpy).div c.format (c.format.ofNat 10)) (places + 1#8)
    else some places

/-- `(unsigned long)x % 10`, as a character. -/
def digitOf (x : FloatValue) : UINT8 := ((x.trunc?.getD (undefined x)) % 10#64).setWidth 8 + 48#8

/-- `(unsigned long)((float)value.d / divisor) % 10` for falling places. -/
def wholeDigits (value : FloatValue) : Nat → List UINT8
  | 0 => []
  | places + 1 =>
    digitOf undefined ((c.narrow value).div c.format (c.format.ofNat (divisorFor 10 (places + 1)).toNat)) ::
      wholeDigits value places

/-- `(unsigned long)((float)value.d * divisor) % 10`, where `divisor` starts at 10. -/
def fractionDigit (value : FloatValue) (places : Nat) : UINT8 :=
  let divisor := (fun divisor => divisor * 10#64)^[places] 10#64
  digitOf undefined ((c.narrow value).mul c.format (c.format.ofNat divisor.toNat))

/-- mirrors src/kernel/graphics.c:573-674 -/
def printFloat (fuel : Nat) (slot : UINT64) : Option (List UINT8) :=
  let value := FloatValue.ofBits slot
  let negative := (c.narrow value).isNeg
  let value := if negative then value.neg else value
  (countWhole c fuel value 0#8).map fun places =>
    (if negative then [45#8] else []) ++
      (if places = 0#8 then [48#8] else wholeDigits c undefined value places.toNat) ++
      46#8 :: (List.range 4).map (fractionDigit c undefined value)

end

/-! ## When the loop ends -/

section
variable {c : FloatConversion}

theorem format_ten : c.format.ofNat 10 = .finite false (10 * unitsPerOne) := by
  cases c with
  | float => exact ofNat_ten_binary32
  | double => exact ofNat_ten_binary64

theorem narrow_float (v : FloatValue) : float.narrow v = v.cast binary32 := rfl

theorem format_float : float.format = binary32 := rfl

theorem format_double : double.format = binary64 := rfl

theorem narrow_neg (v : FloatValue) : c.narrow v.neg = (c.narrow v).neg := by
  cases c with
  | double => rfl
  | float => rw [narrow_float, narrow_float, cast_neg]

/-- Narrowing does not pass a power of two either. -/
theorem narrow_le {s : Bool} {m j : Nat} (hm : m ≤ 2 ^ j) (hj : c.format.lowest ≤ j)
    (hlim : j < c.format.limit) : ∃ units, c.narrow (.finite s m) = .finite s units ∧ units ≤ 2 ^ j := by
  cases c with
  | double => exact ⟨m, rfl, hm⟩
  | float =>
    rw [format_float] at hj hlim
    rw [narrow_float, FloatValue.cast]
    exact round_le (by rwa [Nat.one_mul]) hj hlim

/-- **The loop ends for finite values**: three powers of two fall away each
time. -/
theorem countWhole_finite {j : Nat} : ∀ {fuel : Nat} {value_cpy : FloatValue} {s : Bool} {m : Nat} {places : UINT8},
    c.narrow value_cpy = .finite s m → m ≤ 2 ^ j → j ≤ c.format.limit → j < fuel →
      (countWhole c fuel value_cpy places).isSome := by
  induction j using Nat.strong_induction_on with
  | _ j ih =>
    intro fuel value_cpy s m places hn hm hj hfuel
    obtain ⟨fuel, rfl⟩ : ∃ k, fuel = k + 1 := ⟨fuel - 1, by omega⟩
    rw [countWhole, hn]
    by_cases hone : (FloatValue.finite s m).atLeastOne = true
    · rw [if_pos hone]
      obtain ⟨hs, hle⟩ : s = false ∧ unitsPerOne ≤ m := by simpa [FloatValue.atLeastOne] using hone
      have hj3 := exponent_of_one_le (Nat.le_trans hle hm)
      have hlow := c.format.lowest_le
      obtain ⟨i, rfl⟩ : ∃ i, j = i + 3 := ⟨j - 3, by omega⟩
      obtain ⟨q, hq, hqle⟩ := div_ten_le (f := c.format) format_ten hm (by omega) (by omega)
      obtain ⟨r, hr, hrle⟩ := narrow_le (c := c) (s := false) hqle (by omega) (by omega)
      subst hs
      exact ih i (by omega) (by rw [hq]; exact hr) hrle (by omega) (by omega)
    · rw [if_neg hone]
      rfl

theorem countWhole_nan {fuel : Nat} {value_cpy : FloatValue} {places : UINT8}
    (hn : c.narrow value_cpy = .nan) (hfuel : 0 < fuel) : (countWhole c fuel value_cpy places).isSome := by
  obtain ⟨fuel, rfl⟩ : ∃ k, fuel = k + 1 := ⟨fuel - 1, by omega⟩
  rw [countWhole, hn]
  rfl

/-- Infinity divided by ten is infinity. -/
theorem countWhole_inf {fuel : Nat} {value_cpy : FloatValue} {places : UINT8}
    (hn : c.narrow value_cpy = .inf false) : countWhole c fuel value_cpy places = none := by
  induction fuel generalizing value_cpy places with
  | zero => rfl
  | succ fuel ih =>
    rw [countWhole, hn, format_ten]
    refine ih ?_
    cases c <;> rfl

/-- A narrowed argument is below the format's limit. -/
theorem narrow_ofBits_le {slot : UINT64} {s : Bool} {m : Nat}
    (h : c.narrow (FloatValue.ofBits slot) = .finite s m) : m ≤ 2 ^ c.format.limit := by
  cases c with
  | double =>
    rw [format_double]
    exact ofBits_le h
  | float =>
    rw [format_float]
    cases hv : FloatValue.ofBits slot with
    | nan => simp [narrow, FloatValue.cast, hv] at h
    | inf t => simp [narrow, FloatValue.cast, hv] at h
    | finite t n =>
      rw [hv, narrow_float, FloatValue.cast] at h
      exact Nat.le_of_lt (lt_of_round h)

/-- An infinite argument is never printed. -/
theorem printFloat_inf {undefined : FloatValue → UINT64} {fuel : Nat} {slot : UINT64}
    (h : (c.narrow (FloatValue.ofBits slot)).IsInf) : printFloat c undefined fuel slot = none := by
  cases hn : c.narrow (FloatValue.ofBits slot) with
  | nan => simp [hn, FloatValue.IsInf] at h
  | finite s m => simp [hn, FloatValue.IsInf] at h
  | inf s =>
    simp only [printFloat, Option.map_eq_none_iff]
    apply countWhole_inf
    cases s with
    | false => rw [hn]; exact hn
    | true =>
      rw [hn]
      show c.narrow (FloatValue.ofBits slot).neg = .inf false
      rw [narrow_neg, hn]
      rfl

/-- **A floating-point conversion ends exactly for the arguments that are not
infinite** in the type it works in. -/
theorem printFloat_isSome_iff {undefined : FloatValue → UINT64} {fuel : Nat} (hfuel : c.format.limit < fuel)
    (slot : UINT64) :
    (printFloat c undefined fuel slot).isSome ↔ ¬ (c.narrow (FloatValue.ofBits slot)).IsInf := by
  refine ⟨fun h hinf => by simp [printFloat_inf hinf] at h, fun h => ?_⟩
  simp only [printFloat, Option.isSome_map]
  cases hn : c.narrow (FloatValue.ofBits slot) with
  | nan => exact countWhole_nan hn (by omega)
  | inf s => simp [hn, FloatValue.IsInf] at h
  | finite s m =>
    have hle := narrow_ofBits_le hn
    by_cases hneg : (FloatValue.finite s m).isNeg = true
    · rw [if_pos hneg]
      exact countWhole_finite (by rw [narrow_neg, hn]; rfl) hle (Nat.le_refl _) hfuel
    · rw [if_neg hneg]
      exact countWhole_finite hn hle (Nat.le_refl _) hfuel

/-- Zero bits are a zero. -/
theorem narrow_ofBits_zero : ¬ (c.narrow (FloatValue.ofBits 0#64)).IsInf := by
  cases c <;> decide +kernel

theorem limit_le : c.format.limit ≤ 2098 := by
  cases c <;> decide

end

end FloatConversion

end PiousOS.Kernel
