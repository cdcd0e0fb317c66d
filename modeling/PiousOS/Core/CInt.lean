import Mathlib.Algebra.GroupWithZero.Nat
import Mathlib.Data.Nat.Notation

/-!
# C integer types and EFI status codes

The loader and the kernel compute in the fixed-width unsigned types of
`efi.h`; they are bit vectors here, so every `+`, `<<`, `&` wraps as it does
in C. Loop counters are `Nat` where no result depends on the width.

`EFI_STATUS` is a `UINTN` whose top bit marks an error (`EFI_ERROR`).
-/
namespace PiousOS

abbrev UINT8 := BitVec 8
abbrev UINT16 := BitVec 16
abbrev UINT32 := BitVec 32
abbrev UINT64 := BitVec 64

/-- `UINTN` and `EFI_PHYSICAL_ADDRESS` are 64 bits wide on both targets. -/
abbrev UINTN := UINT64

abbrev EFI_STATUS := UINTN

def EFI_SUCCESS : EFI_STATUS := 0
def EFI_INVALID_PARAMETER : EFI_STATUS := 0x8000000000000002
def EFI_BUFFER_TOO_SMALL : EFI_STATUS := 0x8000000000000005
def EFI_DEVICE_ERROR : EFI_STATUS := 0x8000000000000007
def EFI_NOT_FOUND : EFI_STATUS := 0x800000000000000E

/-- `EFI_ERROR(a)`: the status is negative as a signed word. -/
def EFI_ERROR (a : EFI_STATUS) : Bool := a.msb

def EFI_PAGE_SHIFT : Nat := 12
def EFI_PAGE_SIZE : UINT64 := 4096
def EFI_PAGE_MASK : UINT64 := 0xFFF

/-- `EFI_SIZE_TO_PAGES(a)`: whole pages, plus one when something is left. -/
def EFI_SIZE_TO_PAGES (a : UINT64) : UINT64 :=
  (a >>> EFI_PAGE_SHIFT) + if a &&& EFI_PAGE_MASK ≠ 0#64 then 1#64 else 0#64

@[simp] theorem EFI_ERROR_success : EFI_ERROR EFI_SUCCESS = false := by decide

theorem and_page_mask (a : UINT64) : (a &&& EFI_PAGE_MASK).toNat = a.toNat % 4096 := by
  have : EFI_PAGE_MASK.toNat = 2 ^ 12 - 1 := rfl
  rw [BitVec.toNat_and, this, Nat.and_two_pow_sub_one_eq_mod]

theorem shift_page (v : UINT64) : (v >>> EFI_PAGE_SHIFT).toNat = v.toNat / 4096 := by
  rw [BitVec.toNat_ushiftRight, Nat.shiftRight_eq_div_pow]
  rfl

theorem page_shift (k : UINT64) : (k <<< EFI_PAGE_SHIFT).toNat = k.toNat * 4096 % 2 ^ 64 := by
  rw [BitVec.toNat_shiftLeft, Nat.shiftLeft_eq]
  rfl

/-- `EFI_SIZE_TO_PAGES` is division by the page size, rounded up. -/
theorem EFI_SIZE_TO_PAGES_toNat (a : UINT64) :
    (EFI_SIZE_TO_PAGES a).toNat = (a.toNat + 4095) / 4096 := by
  have ha := a.isLt
  have hm := and_page_mask a
  have hs := shift_page a
  unfold EFI_SIZE_TO_PAGES
  by_cases h : a &&& EFI_PAGE_MASK = 0#64
  · rw [if_neg (by simpa using h), BitVec.toNat_add, hs]
    rw [h] at hm
    simp only [BitVec.toNat_ofNat, Nat.reducePow, Nat.zero_mod] at hm ⊢
    omega
  · have hne : (a &&& EFI_PAGE_MASK).toNat ≠ 0 :=
      fun e => h (BitVec.eq_of_toNat_eq (by simpa using e))
    rw [if_pos h, BitVec.toNat_add, hs]
    simp only [BitVec.toNat_ofNat, Nat.reducePow, Nat.reduceMod]
    omega

end PiousOS
