import PiousOS.L3Loader.Firmware

/-!
# Comparing memory (`arch/kernel/*/system.c`)

Both kernels carry the same `CompareMemory`. Its loop counts `length` down
and leaves the two addresses where they are, so every round compares the
first bytes of the regions. The bootloader's `Compare` indexes them.

Results:
* `compareLoop_eq`: what the loop returns, for every length.
* `CompareMemory_compares_iff`: it compares whole regions exactly if they
  are empty, differ in their first byte or do not differ at all.
-/
namespace PiousOS.Kernel
open PiousOS.Loader

abbrev INT16 := BitVec 16

/-- `*two - *one`, computed as an `int` and returned as an `int16_t`. -/
def byteDifference (one two : UINT8) : INT16 := two.zeroExtend 16 - one.zeroExtend 16

/-- The loop `for(; length > 0; length--)` the two kernels share. -/
def compareLoop (mem : ByteMem) (addr1 addr2 : UINT64) : Nat → INT16
  | 0 => 0
  | length + 1 =>
    if mem addr1 ≠ mem addr2 then byteDifference (mem addr1) (mem addr2)
    else compareLoop mem addr1 addr2 length

/-- mirrors arch/kernel/x86_64/system.c:218-227 -/
def X86_64.CompareMemory (mem : ByteMem) (addr1 addr2 length : UINT64) : INT16 :=
  compareLoop mem addr1 addr2 length.toNat

/-- mirrors arch/kernel/aarch64/system.c:34-43 -/
def AArch64.CompareMemory (mem : ByteMem) (addr1 addr2 length : UINT64) : INT16 :=
  compareLoop mem addr1 addr2 length.toNat

/-! ## The difference of two bytes -/

theorem byteDifference_toInt (one two : UINT8) :
    (byteDifference one two).toInt = (two.toNat : Int) - one.toNat := by
  have h1 := one.isLt
  have h2 := two.isLt
  rw [byteDifference, BitVec.toInt_sub, BitVec.toInt_eq_toNat_of_lt, BitVec.toInt_eq_toNat_of_lt]
  · simp only [BitVec.truncate_eq_setWidth, BitVec.toNat_setWidth]
    rw [Nat.mod_eq_of_lt (by omega), Nat.mod_eq_of_lt (by omega)]
    apply Int.bmod_eq_of_le <;> omega
  · simp only [BitVec.truncate_eq_setWidth, BitVec.toNat_setWidth]
    omega
  · simp only [BitVec.truncate_eq_setWidth, BitVec.toNat_setWidth]
    omega

theorem byteDifference_eq_zero_iff {one two : UINT8} : byteDifference one two = 0 ↔ one = two := by
  constructor
  · intro h
    have hint := byteDifference_toInt one two
    rw [h] at hint
    have hz : (0 : INT16).toInt = 0 := rfl
    apply BitVec.eq_of_toNat_eq
    omega
  · intro h
    rw [h, byteDifference]
    exact BitVec.sub_self _

/-! ## What the loop compares -/

/-- The loop returns the difference of the first bytes, or 0 if it never
runs. -/
theorem compareLoop_eq (mem : ByteMem) (addr1 addr2 : UINT64) (length : Nat) :
    compareLoop mem addr1 addr2 length =
      if length = 0 then 0 else byteDifference (mem addr1) (mem addr2) := by
  induction length with
  | zero => rfl
  | succ length ih =>
    rw [compareLoop, if_neg (Nat.succ_ne_zero length)]
    by_cases heq : mem addr1 = mem addr2
    · rw [if_neg (not_not_intro heq), ih, byteDifference_eq_zero_iff.mpr heq, ite_self]
    · rw [if_pos heq]

/-- `r` is what a comparison of two regions should return: 0 if they agree,
else the difference where they first differ; and 0 exactly if the
bootloader's `Compare` says that they are equal. -/
structure ComparesRegions (one two : Nat → UINT8) (length : Nat) (r : INT16) : Prop where
  equal : r = 0 ↔ ∀ k < length, one k = two k
  differ : ∀ k < length, one k ≠ two k → (∀ j < k, one j = two j) →
    r.toInt = ((two k).toNat : Int) - (one k).toNat
  loader : r = 0 ↔ Compare one two length = true

/-- `Compare` adds nothing: it decides agreement. -/
theorem comparesRegions_of {one two : Nat → UINT8} {length : Nat} {r : INT16}
    (hequal : r = 0 ↔ ∀ k < length, one k = two k)
    (hdiffer : ∀ k < length, one k ≠ two k → (∀ j < k, one j = two j) →
      r.toInt = ((two k).toNat : Int) - (one k).toNat) : ComparesRegions one two length r :=
  ⟨hequal, hdiffer, hequal.trans Compare_iff.symm⟩

/-- The regions are empty, or told apart by their first bytes, or the same. -/
def DecidedByFirst (one two : Nat → UINT8) (length : Nat) : Prop :=
  length = 0 ∨ one 0 ≠ two 0 ∨ ∀ k < length, one k = two k

theorem bytesAt_zero (mem : ByteMem) (a : UINT64) : bytesAt mem a 0 = mem a := by
  have hz : a + BitVec.ofNat 64 0 = a := BitVec.add_zero a
  rw [bytesAt, hz]

theorem compareLoop_compares_iff (mem : ByteMem) (addr1 addr2 : UINT64) (length : Nat) :
    ComparesRegions (bytesAt mem addr1) (bytesAt mem addr2) length (compareLoop mem addr1 addr2 length) ↔
      DecidedByFirst (bytesAt mem addr1) (bytesAt mem addr2) length := by
  rw [compareLoop_eq]
  cases length with
  | zero =>
    refine ⟨fun _ => Or.inl rfl, fun _ => comparesRegions_of ?_ ?_⟩
    · simp
    · intro k hk
      omega
  | succ length =>
    rw [if_neg (Nat.succ_ne_zero length), ← bytesAt_zero mem addr1, ← bytesAt_zero mem addr2]
    constructor
    · intro h
      by_cases hfirst : bytesAt mem addr1 0 = bytesAt mem addr2 0
      · exact Or.inr (Or.inr (h.equal.mp (byteDifference_eq_zero_iff.mpr hfirst)))
      · exact Or.inr (Or.inl hfirst)
    · intro h
      rcases h with hnil | hfirst | hsame
      · exact absurd hnil (Nat.succ_ne_zero length)
      · refine comparesRegions_of ⟨fun hzero => ?_, fun hsame => ?_⟩ ?_
        · exact absurd (byteDifference_eq_zero_iff.mp hzero) hfirst
        · exact absurd (hsame 0 (Nat.succ_pos length)) hfirst
        · intro k _ _ hbefore
          -- the first difference is at the start
          cases k with
          | zero => exact byteDifference_toInt _ _
          | succ k => exact absurd (hbefore 0 (Nat.succ_pos k)) hfirst
      · refine comparesRegions_of ⟨fun _ => hsame, fun _ => ?_⟩ ?_
        · exact byteDifference_eq_zero_iff.mpr (hsame 0 (Nat.succ_pos length))
        · intro k hk hne
          exact absurd (hsame k hk) hne

/-- **`CompareMemory` compares whole regions only where the first byte
decides.** For all addresses, contents and lengths, on both architectures, it
returns what a comparison of the regions returns exactly if they are empty,
differ in their first byte or agree in all bytes. -/
theorem CompareMemory_compares_iff (mem : ByteMem) (addr1 addr2 length : UINT64) :
    (ComparesRegions (bytesAt mem addr1) (bytesAt mem addr2) length.toNat
        (X86_64.CompareMemory mem addr1 addr2 length) ↔
      DecidedByFirst (bytesAt mem addr1) (bytesAt mem addr2) length.toNat) ∧
    (ComparesRegions (bytesAt mem addr1) (bytesAt mem addr2) length.toNat
        (AArch64.CompareMemory mem addr1 addr2 length) ↔
      DecidedByFirst (bytesAt mem addr1) (bytesAt mem addr2) length.toNat) :=
  ⟨compareLoop_compares_iff mem addr1 addr2 length.toNat,
    compareLoop_compares_iff mem addr1 addr2 length.toNat⟩

/-- "AB" at 1 MiB, "AC" at 2 MiB. -/
def twoWords : ByteMem := fun x =>
  if x = 0x100000 then 0x41 else if x = 0x100001 then 0x42
  else if x = 0x200000 then 0x41 else if x = 0x200001 then 0x43 else 0

/-- The second bytes differ; `Compare` sees it and `CompareMemory` does not. -/
theorem CompareMemory_misses_second_byte :
    X86_64.CompareMemory twoWords 0x100000 0x200000 2 = 0 ∧
      AArch64.CompareMemory twoWords 0x100000 0x200000 2 = 0 ∧
      Compare (bytesAt twoWords 0x100000) (bytesAt twoWords 0x200000) 2 = false ∧
      bytesAt twoWords 0x100000 1 ≠ bytesAt twoWords 0x200000 1 := by
  decide

end PiousOS.Kernel
