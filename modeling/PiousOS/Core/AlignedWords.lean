import Mathlib.Logic.Function.Basic
import PiousOS.Core.ByteMem

/-!
# The words of a byte memory

Words at addresses divisible by 8 do not overlap, so such a store changes one
of them and a block of zeros empties those it covers. A memory of words
`Mirrors` these words of a byte memory.
-/
namespace PiousOS.ByteMem

def WordAligned (a : UINT64) : Prop := a.toNat % 8 = 0

instance (a : UINT64) : Decidable (WordAligned a) := by unfold WordAligned; infer_instance

/-- The words of `mem` are those of `words`. -/
def Mirrors (mem : ByteMem) (words : UINT64 → UINT64) : Prop :=
  ∀ a, WordAligned a → load64 mem a = words a

theorem mirrors_self (mem : ByteMem) : Mirrors mem (load64 mem) := fun _ _ => rfl

section
variable {mem : ByteMem} {words : UINT64 → UINT64} {a b : UINT64}

theorem WordAligned.add (ha : WordAligned a) (i : UINT64) : WordAligned (a + 8#64 * i) := by
  unfold WordAligned at ha ⊢
  simp only [BitVec.toNat_add, BitVec.toNat_mul, BitVec.toNat_ofNat]
  omega

/-- Different words have no byte in common. -/
theorem apart_of_aligned (ha : WordAligned a) (hb : WordAligned b) (h : a ≠ b) : Apart a 8 b 8 := by
  intro x hx hy
  have hne : a.toNat ≠ b.toNat := fun he => h (BitVec.eq_of_toNat_eq he)
  have := x.isLt
  have := a.isLt
  have := b.isLt
  unfold WordAligned at ha hb
  simp only [BitVec.toNat_sub] at hx hy
  omega

theorem Mirrors.store64 (h : Mirrors mem words) (hb : WordAligned b) (v : UINT64) :
    Mirrors (store64 mem b v) (Function.update words b v) := by
  intro a ha
  by_cases hab : a = b
  · rw [hab, load64_store64, Function.update_self]
  · have hapart : load (ByteMem.store mem b 8 v.toNat) a 8 = load mem a 8 :=
      load_store_apart (apart_of_aligned ha hb hab) (by decide)
    rw [Function.update_of_ne hab, ← h a ha, load64, ByteMem.store64, hapart, load64]

theorem load_zero {n : Nat} (h : ∀ i < n, mem (a + BitVec.ofNat 64 i) = 0#8) : load mem a n = 0 := by
  induction n with
  | zero => rfl
  | succ n ih =>
    rw [load, ih fun i hi => h i (Nat.lt_succ_of_lt hi), h n (Nat.lt_succ_self n)]
    exact (Nat.zero_add _).trans (Nat.zero_mul _)

/-- Zeros over whole words. -/
theorem Mirrors.zero (h : Mirrors mem words) (hb : WordAligned b) {n : Nat} (hn : n % 8 = 0) :
    Mirrors (fill mem b n fun _ => 0#8) fun a => if (a - b).toNat < n then 0#64 else words a := by
  intro a ha
  have := a.isLt
  have := b.isLt
  unfold WordAligned at ha hb
  show load64 (fill mem b n fun _ => 0#8) a = if (a - b).toNat < n then 0#64 else words a
  -- a word lies in the block, or no byte of it does
  have hbyte : ∀ i < 8, (a + BitVec.ofNat 64 i - b).toNat < n ↔ (a - b).toNat < n := by
    intro i hi
    simp only [BitVec.toNat_sub, BitVec.toNat_add, BitVec.toNat_ofNat]
    omega
  by_cases hin : (a - b).toNat < n
  · rw [if_pos hin, load64, load_zero fun i hi => fill_inside ((hbyte i hi).mpr hin)]
  · have hout : load (fill mem b n fun _ => 0#8) a 8 = load mem a 8 :=
      load_congr fun i hi => fill_outside fun h => hin ((hbyte i hi).mp h)
    rw [if_neg hin, ← h a ha, load64, hout, load64]

end

end PiousOS.ByteMem
