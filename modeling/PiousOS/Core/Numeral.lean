import Mathlib.Data.Nat.Digits.Lemmas

/-!
# Canonical numerals

The numeral of a number in a base: its digits, most significant first, with
no leading zero, `0` alone for zero.

* `isNumeral_numeral`: `numeral` computes it;
* `places_zero`, `places_succ`: counting by repeated division finds how many
  digits there are;
* `extract_eq_reverse`: dividing by falling powers of the base extracts them.
-/
namespace PiousOS

/-- `ds` is the canonical numeral of `n` in base `b`. -/
structure IsNumeral (b : Nat) (ds : List Nat) (n : Nat) : Prop where
  ne_nil : ds ≠ []
  digit_lt : ∀ d ∈ ds, d < b
  no_leading_zero : ds.head? = some 0 → ds = [0]
  value : Nat.ofDigits b ds.reverse = n

def numeral (b n : Nat) : List Nat := if n = 0 then [0] else (Nat.digits b n).reverse

section
variable {b n : Nat}

theorem numeral_of_ne_zero (h : n ≠ 0) : numeral b n = (Nat.digits b n).reverse := if_neg h

theorem isNumeral_numeral (hb : 1 < b) (n : Nat) : IsNumeral b (numeral b n) n := by
  by_cases h : n = 0
  · subst h
    refine ⟨by simp [numeral], ?_, fun _ => rfl, by simp [numeral]⟩
    intro d hd
    rw [numeral, if_pos rfl, List.mem_singleton] at hd
    omega
  · rw [numeral_of_ne_zero h]
    have hne : Nat.digits b n ≠ [] := Nat.digits_ne_nil_iff_ne_zero.mpr h
    refine ⟨by simpa using hne, fun d hd => Nat.digits_lt_base hb (List.mem_reverse.mp hd), ?_, ?_⟩
    · intro hz
      rw [List.head?_reverse, List.getLast?_eq_some_getLast hne, Option.some.injEq] at hz
      exact absurd hz (Nat.getLast_digit_ne_zero b h)
    · rw [List.reverse_reverse, Nat.ofDigits_digits]

/-! ## Counting and extracting digits -/

/-- The divisions by `b` it takes to reach zero. -/
def places (b n : Nat) : Nat := (Nat.digits b n).length

theorem places_zero : places b 0 = 0 := by simp [places]

theorem places_succ (hb : 1 < b) (h : n ≠ 0) : places b n = places b (n / b) + 1 := by
  rw [places, Nat.digits_def' hb (Nat.pos_of_ne_zero h)]
  rfl

theorem places_pos (h : n ≠ 0) : 0 < places b n :=
  List.length_pos_iff.mpr (Nat.digits_ne_nil_iff_ne_zero.mpr h)

/-- The power that extracts a digit is at most the number. -/
theorem pow_le_of_lt_places (hb : 1 < b) (h : n ≠ 0) {k : Nat} (hk : k < places b n) : b ^ k ≤ n := by
  have hk : k ≤ places b n - 1 := by omega
  refine Nat.le_trans (Nat.pow_le_pow_right (by omega) hk) ?_
  have hpos := places_pos (b := b) h
  have hle := Nat.base_pow_length_digits_le b n hb h
  rw [← places] at hle
  obtain ⟨m, hm⟩ : ∃ m, places b n = m + 1 := ⟨places b n - 1, by omega⟩
  rw [hm, Nat.pow_succ, Nat.mul_comm] at hle
  rw [hm]
  exact Nat.le_of_mul_le_mul_left hle (by omega)

theorem places_le_of_lt_pow (hb : 1 < b) {w : Nat} (h : n < b ^ w) : places b n ≤ w := by
  by_contra hlt
  by_cases hn : n = 0
  · subst hn
    simp [places] at hlt
  · exact absurd (pow_le_of_lt_places hb hn (Nat.lt_of_not_le hlt)) (by omega)

/-- A number below `b ^ w` is written with at most `w` digits. -/
theorem length_numeral_le (hb : 1 < b) {w : Nat} (hw : 0 < w) (h : n < b ^ w) : (numeral b n).length ≤ w := by
  by_cases hn : n = 0
  · rw [numeral, if_pos hn]
    exact hw
  · rw [numeral_of_ne_zero hn, List.length_reverse]
    exact places_le_of_lt_pow hb h

theorem lt_places_of_pow_le (hb : 1 < b) {k : Nat} (h : b ^ k ≤ n) : k < places b n := by
  by_contra hle
  have hlt : n < b ^ places b n := Nat.lt_base_pow_length_digits hb
  exact absurd (Nat.pow_le_pow_right (Nat.zero_lt_of_lt hb) (Nat.le_of_not_lt hle)) (by omega)

/-- Digits by falling powers of the base, from position `k - 1` down. -/
def extract (b n : Nat) : Nat → List Nat
  | 0 => []
  | k + 1 => n / b ^ k % b :: extract b n k

theorem extract_eq_reverse_range (b n k : Nat) :
    extract b n k = ((List.range k).map fun i => n / b ^ i % b).reverse := by
  induction k with
  | zero => rfl
  | succ k ih => rw [extract, ih, List.range_succ, List.map_append, List.reverse_append]; rfl

/-- All of them are the digits. -/
theorem extract_eq_reverse (hb : 1 < b) (n : Nat) : extract b n (places b n) = (Nat.digits b n).reverse := by
  rw [extract_eq_reverse_range]
  congr 1
  refine List.ext_getElem (by simp [places]) fun i h₁ h₂ => ?_
  have hget := Nat.getD_digits n i hb
  rw [List.getElem_map, List.getElem_range, ← hget]
  simp [List.getD, h₂]

/-- The leading digit of a numeral with `k + 1` places. -/
theorem numeral_head (hb : 1 < b) {k : Nat} (hk : places b n = k + 1) :
    (numeral b n).head? = some (n / b ^ k % b) := by
  have hn : n ≠ 0 := fun h => by rw [h, places_zero] at hk; omega
  rw [numeral_of_ne_zero hn, ← extract_eq_reverse hb, hk]
  rfl

end

end PiousOS
