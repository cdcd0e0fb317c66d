import PiousOS.Core.ByteMem
import Mathlib.Logic.Function.Basic

/-!
# Copying memory (`arch/kernel/x86_64/system.c`)

`CopyMemory` copies upwards, byte by byte, so it may run into its own source.
Whether it does is a matter of one distance, `addr1 - addr2` modulo 2^64: a
byte is overwritten before it is read when that distance is between 1 and
`length - 1`, and at no other (`ReadsFirst`).

Results:
* `copyLoop_eq_fill`: outside those distances the loop is a single store of
  the bytes the source had before it.
* `CopyMemory_copies`: so it copies exactly where the destination is below
  the source or behind it.
-/
namespace PiousOS.Kernel
open ByteMem

/-- `for(; length > 0; length--) *addr1++ = *addr2++;` -/
def copyLoop (addr1 addr2 : UINT64) : Nat → ByteMem → ByteMem
  | 0, mem => mem
  | length + 1, mem =>
    copyLoop (addr1 + 1#64) (addr2 + 1#64) length (Function.update mem addr1 (mem addr2))

/-- mirrors arch/kernel/x86_64/system.c:230-239 -/
def X86_64.CopyMemory (addr1 addr2 length : UINT64) (mem : ByteMem) : ByteMem :=
  copyLoop addr1 addr2 length.toNat mem

/-- No byte of the source is overwritten before it is read. -/
def ReadsFirst (addr1 addr2 : UINT64) (length : Nat) : Prop :=
  addr1 = addr2 ∨ length ≤ (addr1 - addr2).toNat

section
variable {addr1 addr2 x : UINT64} {length : Nat} {mem : ByteMem}

theorem ReadsFirst.next (h : ReadsFirst addr1 addr2 (length + 1)) :
    ReadsFirst (addr1 + 1#64) (addr2 + 1#64) length := by
  have hdist : addr1 + 1#64 - (addr2 + 1#64) = addr1 - addr2 := by bv_omega
  rcases h with rfl | hfar
  · exact .inl rfl
  · right
    rw [hdist]
    omega

/-- Where the rest of the source is read, the first store is not seen. -/
theorem ReadsFirst.ne (h : ReadsFirst addr1 addr2 (length + 1)) (hx : x ≠ addr1)
    (hlt : (x - addr1).toNat < length + 1) : addr2 + (x - addr1) ≠ addr1 := by
  intro heq
  have hdist : x - addr1 = addr1 - addr2 := by bv_omega
  rcases h with rfl | hfar
  · exact hx (by bv_omega)
  · rw [hdist] at hlt
    omega

/-- The loop stores what the source held before it. -/
theorem copyLoop_eq_fill (h : ReadsFirst addr1 addr2 length) (hlen : length ≤ 2 ^ 64) :
    copyLoop addr1 addr2 length mem =
      fill mem addr1 length fun k => mem (addr2 + BitVec.ofNat 64 k) := by
  induction length generalizing addr1 addr2 mem with
  | zero => rfl
  | succ length ih =>
    rw [copyLoop, ih h.next (Nat.le_of_succ_le hlen)]
    funext x
    simp only [fill, BitVec.ofNat_toNat, BitVec.setWidth_eq]
    by_cases hx : x = addr1
    · -- the first byte: the rest of the loop does not come back to it
      subst hx
      have hlast : ¬ (x - (x + 1#64)).toNat < length := by bv_omega
      have hfirst : x - x = 0#64 := BitVec.sub_self x
      have hinside : (0#64).toNat < length + 1 := Nat.succ_pos length
      rw [if_neg hlast, hfirst, if_pos hinside, Function.update_self, BitVec.add_zero]
    · have hstep : (x - (addr1 + 1#64)).toNat + 1 = (x - addr1).toNat := by bv_omega
      have hsame : addr2 + 1#64 + (x - (addr1 + 1#64)) = addr2 + (x - addr1) := by bv_omega
      rw [hsame, Function.update_of_ne hx]
      by_cases hlt : (x - addr1).toNat < length + 1
      · rw [if_pos hlt, if_pos (by omega), Function.update_of_ne (h.ne hx hlt)]
      · rw [if_neg hlt, if_neg (by omega)]

end

/-- Neither range wraps around the address space, and the destination is below
the source or behind it. -/
structure CopiesUp (addr1 addr2 : UINT64) (length : Nat) : Prop where
  destination : addr1.toNat + length ≤ 2 ^ 64
  source : addr2.toNat + length ≤ 2 ^ 64
  below_or_behind : addr1.toNat ≤ addr2.toNat ∨ addr2.toNat + length ≤ addr1.toNat

theorem CopiesUp.readsFirst {addr1 addr2 : UINT64} {length : Nat} (h : CopiesUp addr1 addr2 length) :
    ReadsFirst addr1 addr2 length := by
  obtain ⟨hd, hs, hle⟩ := h
  by_cases heq : addr1 = addr2
  · exact .inl heq
  · right
    bv_omega

/-- **`CopyMemory` copies.** For every memory and all ranges that do not wrap,
overlapping ones included if the destination is below the source, the
destination holds the bytes the source had before the call and nothing else
has changed. -/
theorem CopyMemory_copies (addr1 addr2 length : UINT64) (mem : ByteMem)
    (h : CopiesUp addr1 addr2 length.toNat) :
    (∀ k < length.toNat, X86_64.CopyMemory addr1 addr2 length mem (addr1 + BitVec.ofNat 64 k) =
      mem (addr2 + BitVec.ofNat 64 k)) ∧
    ∀ x : UINT64, ¬ (addr1.toNat ≤ x.toNat ∧ x.toNat < addr1.toNat + length.toNat) →
      X86_64.CopyMemory addr1 addr2 length mem x = mem x := by
  have hlen := length.isLt
  rw [X86_64.CopyMemory, copyLoop_eq_fill h.readsFirst (Nat.le_of_lt hlen)]
  constructor
  · intro k hk
    have hoff := add_ofNat_sub addr1 (i := k) (by omega)
    rw [fill_inside (by rw [hoff]; exact hk), hoff]
  · intro x hx
    have hd := h.destination
    exact fill_outside (by bv_omega)

/-- Six bytes moved down by two: source and destination share four. -/
theorem CopyMemory_copies_overlap :
    let mem : ByteMem := fun x => x.setWidth 8
    (∀ k < 6, X86_64.CopyMemory 0x1000 0x1002 6 mem (0x1000 + BitVec.ofNat 64 k) =
      mem (0x1002 + BitVec.ofNat 64 k)) ∧
    ∀ x : UINT64, ¬ (0x1000 ≤ x.toNat ∧ x.toNat < 0x1006) →
      X86_64.CopyMemory 0x1000 0x1002 6 mem x = mem x :=
  CopyMemory_copies 0x1000 0x1002 6 _ ⟨by decide, by decide, by decide⟩

end PiousOS.Kernel
