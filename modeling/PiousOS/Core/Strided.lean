import PiousOS.Core.CInt
import Mathlib.Data.List.Range

/-!
# Strided pointer loops

The loop `for (p = base; p < stop; p += stride)` over 64-bit pointers. The
pointer can wrap or stand still, so the loop need not end: `forPieces` has
fuel and answers `none` when it runs out.

`pieces` is the list of pointers visited; a loop with any body folds the
body over it (`forPieces_eq`). Over an array of `n` elements of positive
size that does not wrap, the loop ends and visits each element once, in
order (`pieces_array`).
-/
namespace PiousOS.Strided

/-- The pointers `for (p = …; p < stop; p += stride)` visits. -/
def pieces (stop stride : UINT64) : Nat → UINT64 → Option (List UINT64)
  | 0, _ => none
  | fuel + 1, p =>
    if p < stop then (pieces stop stride fuel (p + stride)).map (p :: ·) else some []

/-- The loop with a body that updates a state. -/
def forPieces {σ : Type} (stop stride : UINT64) (body : UINT64 → σ → σ) :
    Nat → UINT64 → σ → Option σ
  | 0, _, _ => none
  | fuel + 1, p, s =>
    if p < stop then forPieces stop stride body fuel (p + stride) (body p s) else some s

/-- A loop folds its body over the pointers it visits. -/
theorem forPieces_eq {σ : Type} (stop stride : UINT64) (body : UINT64 → σ → σ) (fuel : Nat)
    (p : UINT64) (s : σ) :
    forPieces stop stride body fuel p s =
      (pieces stop stride fuel p).map fun l => l.foldl (fun s p => body p s) s := by
  induction fuel generalizing p s with
  | zero => rfl
  | succ fuel ih =>
    simp only [forPieces, pieces]
    by_cases h : p < stop
    · rw [if_pos h, if_pos h, ih, Option.map_map]
      rfl
    · rw [if_neg h, if_neg h]
      rfl

/-- Element `i` of an array of elements of size `d` at `base`. -/
def element (base d : UINT64) (i : Nat) : UINT64 := base + BitVec.ofNat 64 i * d

theorem element_toNat {base d : UINT64} {n i : Nat} (h : base.toNat + n * d.toNat < 2 ^ 64)
    (hi : i ≤ n) : (element base d i).toNat = base.toNat + i * d.toNat := by
  have hle : i * d.toNat ≤ n * d.toNat := Nat.mul_le_mul_right _ hi
  rw [element, BitVec.toNat_add, BitVec.toNat_mul, BitVec.toNat_ofNat, Nat.mod_mul_mod,
    Nat.add_mod_mod]
  exact Nat.mod_eq_of_lt (by omega)

theorem element_succ (base d : UINT64) (i : Nat) : element base d i + d = element base d (i + 1) := by
  rw [element, element, BitVec.ofNat_add, BitVec.add_mul, BitVec.add_assoc]
  simp

/-- From element `i` on, the loop visits the elements that are left. -/
theorem pieces_from {base d : UINT64} {n : Nat} (hd : 0 < d.toNat)
    (h : base.toNat + n * d.toNat < 2 ^ 64) :
    ∀ k i fuel, i + k = n → k < fuel →
      pieces (element base d n) d fuel (element base d i) =
        some ((List.range' i k).map (element base d)) := by
  intro k
  induction k with
  | zero =>
    intro i fuel hi hf
    obtain ⟨fuel, rfl⟩ := Nat.exists_eq_add_of_lt hf
    have hin : i = n := by omega
    subst hin
    rw [Nat.zero_add, pieces, if_neg (BitVec.lt_irrefl _)]
    rfl
  | succ k ih =>
    intro i fuel hi hf
    cases fuel with
    | zero => omega
    | succ fuel =>
      have hlt : element base d i < element base d n := by
        have : (i + 1) * d.toNat ≤ n * d.toNat := Nat.mul_le_mul_right _ (by omega)
        rw [BitVec.lt_def, element_toNat h (by omega), element_toNat h (Nat.le_refl n)]
        rw [Nat.add_mul] at this
        omega
      rw [pieces, if_pos hlt, element_succ, ih (i + 1) fuel (by omega) (by omega)]
      rfl

/-- The loop over an array of `n` elements visits each of them once. -/
theorem pieces_array {base d stop : UINT64} {n fuel : Nat} (hd : 0 < d.toNat)
    (h : base.toNat + n * d.toNat < 2 ^ 64) (hstop : stop = element base d n) (hf : n < fuel) :
    pieces stop d fuel base = some ((List.range n).map (element base d)) := by
  have hz : element base d 0 = base := by simp [element]
  have := pieces_from hd h n 0 fuel (Nat.zero_add n) hf
  rwa [hz, ← hstop, ← List.range_eq_range'] at this

/-- A loop with nothing to visit. -/
theorem pieces_empty {base d stop : UINT64} {fuel : Nat} (h : ¬ base < stop) (hf : 0 < fuel) :
    pieces stop d fuel base = some [] := by
  cases fuel with
  | zero => omega
  | succ fuel => rw [pieces, if_neg h]

/-- More fuel changes no answer. -/
theorem pieces_mono {stop d : UINT64} {fuel fuel' : Nat} {p : UINT64} {l : List UINT64}
    (h : pieces stop d fuel p = some l) (hf : fuel ≤ fuel') : pieces stop d fuel' p = some l := by
  induction fuel generalizing fuel' p l with
  | zero => cases h
  | succ fuel ih =>
    cases fuel' with
    | zero => omega
    | succ fuel' =>
      rw [pieces] at h ⊢
      by_cases hp : p < stop
      · rw [if_pos hp, Option.map_eq_some_iff] at h
        obtain ⟨l', hl', rfl⟩ := h
        rw [if_pos hp, ih hl' (by omega)]
        rfl
      · rw [if_neg hp] at h ⊢
        exact h

end PiousOS.Strided
