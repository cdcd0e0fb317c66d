import PiousOS.Core.CInt
import PiousOS.Core.RadixTree

/-!
# Four-level paging as the CPU walks it

Page tables are read and written as 8-byte words, so memory is a function
from the byte address of a word to the word. `cpuWalk` is the hardware walk
of Intel SDM vol. 3, 4-level paging: bits 47:39, 38:30, 29:21 and 20:12 of
the address index the four tables, an entry is used only when its present
bit is set, and the PS bit ends the walk at the third or second level.

The walk instantiates `RadixTree`: `pageLayout` is the layout of 512-entry
tables, `tablePath v` the three indices above the leaf. In a hierarchy whose
entries are zero or pointers to tables the two agree
(`cpuWalk_of_follow`, `cpuWalk_of_follow_none`).
-/
namespace PiousOS.Paging
open RadixTree

abbrev WordMem := UINT64 → UINT64

/-! ## Entries -/

def present (e : UINT64) : Bool := e.getLsbD 0
def writable (e : UINT64) : Bool := e.getLsbD 1
def pageSize (e : UINT64) : Bool := e.getLsbD 7

/-- Bits 51:12: the physical base the entry names. -/
def address (e : UINT64) : UINT64 := e &&& 0x000FFFFFFFFFF000#64

/-- A present, writable pointer to a table: PS and bits 63:52 are clear. -/
def IsPointer (e : UINT64) : Prop :=
  present e = true ∧ writable e = true ∧ pageSize e = false ∧ e.toNat < 2 ^ 52

instance (e : UINT64) : Decidable (IsPointer e) := by unfold IsPointer; infer_instance

/-- `table[i]` in C: the byte address of the `i`-th 8-byte word. -/
def entry (table i : UINT64) : UINT64 := table + 8#64 * i

/-- The `i`-th of the 512 entries of a table. -/
def slot (table : UINT64) (i : BitVec 9) : UINT64 := entry table (i.setWidth 64)

def PageAligned (a : UINT64) : Prop := a.toNat % 4096 = 0

instance (a : UINT64) : Decidable (PageAligned a) := by unfold PageAligned; infer_instance

theorem slot_toNat {t : UINT64} (ht : PageAligned t) (i : BitVec 9) :
    (slot t i).toNat = t.toNat + 8 * i.toNat := by
  have := t.isLt; have := i.isLt
  unfold PageAligned at ht
  simp only [slot, entry, BitVec.toNat_add, BitVec.toNat_mul, BitVec.toNat_ofNat,
    BitVec.toNat_setWidth]
  omega

theorem slot_inj {t u : UINT64} {i j : BitVec 9} (ht : PageAligned t) (hu : PageAligned u)
    (h : slot t i = slot u j) : t = u ∧ i = j := by
  have hn := congrArg BitVec.toNat h
  rw [slot_toNat ht, slot_toNat hu] at hn
  have := i.isLt; have := j.isLt
  unfold PageAligned at ht hu
  exact ⟨BitVec.eq_of_toNat_eq (by omega), BitVec.eq_of_toNat_eq (by omega)⟩

theorem page_mask_toNat (e : UINT64) : (e &&& ~~~0xFFF#64).toNat = e.toNat - e.toNat % 4096 := by
  have h : ~~~0xFFF#64 = BitVec.allOnes 64 <<< 12 := by decide
  have : e &&& ~~~0xFFF#64 = (e >>> 12) <<< 12 := by
    rw [h]; ext i hi
    simp only [BitVec.getElem_and, BitVec.getElem_shiftLeft, BitVec.getElem_allOnes,
      BitVec.getElem_ushiftRight]
    by_cases h12 : i < 12
    · simp [h12]
    · simp only [h12, decide_false, Bool.not_false, Bool.true_and, Bool.and_true]
      rw [show 12 + (i - 12) = i by omega, BitVec.getLsbD_eq_getElem hi]
  rw [this, BitVec.toNat_shiftLeft, BitVec.toNat_ushiftRight, Nat.shiftRight_eq_div_pow,
    Nat.shiftLeft_eq]
  have := e.isLt
  omega

/-- Below 2^52 the CPU's mask and the 12-bit mask agree. -/
theorem address_eq_page_mask {e : UINT64} (h : e.toNat < 2 ^ 52) :
    address e = e &&& ~~~0xFFF#64 := by
  have hlow : e = e &&& 0x000FFFFFFFFFFFFF#64 := by
    apply BitVec.eq_of_toNat_eq
    have : (0x000FFFFFFFFFFFFF#64).toNat = 2 ^ 52 - 1 := rfl
    rw [BitVec.toNat_and, this, Nat.and_two_pow_sub_one_eq_mod, Nat.mod_eq_of_lt h]
  have hm : (0x000FFFFFFFFFF000#64) = 0x000FFFFFFFFFFFFF#64 &&& ~~~0xFFF#64 := by decide
  rw [address, hm, ← BitVec.and_assoc, ← hlow]

theorem address_aligned (e : UINT64) : PageAligned (address e) := by
  have : address e = (e &&& 0x000FFFFFFFFFFFFF#64) &&& ~~~0xFFF#64 := by
    rw [address, BitVec.and_assoc]; rfl
  unfold PageAligned
  rw [this, page_mask_toNat]
  omega

theorem address_of_aligned {t : UINT64} (ht : PageAligned t) (h : t.toNat < 2 ^ 52) :
    address t = t := by
  unfold PageAligned at ht
  rw [address_eq_page_mask h]
  apply BitVec.eq_of_toNat_eq
  rw [page_mask_toNat]
  omega

/-! ## Tables as a radix tree -/

/-- 512-entry page tables at page-aligned addresses. -/
def pageLayout : Layout UINT64 (BitVec 9) UINT64 where
  slot := slot
  decode e := if IsPointer e then some (address e) else none
  isNode := PageAligned
  decode_isNode {w t} h := by
    split at h
    · cases h; exact address_aligned w
    · cases h
  slot_inj := slot_inj

@[simp] theorem pageLayout_slot (t : UINT64) (i : BitVec 9) : pageLayout.slot t i = slot t i := rfl

theorem decode_pointer {e : UINT64} (h : IsPointer e) : pageLayout.decode e = some (address e) :=
  if_pos h

theorem decode_zero : pageLayout.decode 0#64 = none := by decide

theorem decode_eq_some {e t : UINT64} (h : pageLayout.decode e = some t) :
    IsPointer e ∧ address e = t := by
  by_cases he : IsPointer e
  · rw [decode_pointer he] at h; exact ⟨he, Option.some.inj h⟩
  · simp [pageLayout, he] at h

/-- A table address with the present and writable bits is a pointer to it. -/
theorem isPointer_or {t : UINT64} (ht : PageAligned t) (h : t.toNat < 2 ^ 52) :
    IsPointer (t ||| 0x01#64 ||| 0x02#64) ∧ address (t ||| 0x01#64 ||| 0x02#64) = t := by
  unfold PageAligned at ht
  have hor : (t ||| 0x01#64 ||| 0x02#64).toNat = t.toNat + 3 := by
    rw [BitVec.or_assoc, show 0x01#64 ||| 0x02#64 = 3#64 by decide, BitVec.toNat_or]
    have : t.toNat = 2 ^ 12 * (t.toNat / 4096) := by omega
    rw [this]
    exact (Nat.two_pow_add_eq_or_of_lt (b := 3) (by decide) _).symm
  have h7 : t.getLsbD 7 = false := by
    rw [BitVec.getLsbD, Nat.testBit_eq_decide_div_mod_eq]
    simp only [decide_eq_false_iff_not]; omega
  refine ⟨⟨by simp [present], by simp [writable], by simpa [pageSize] using h7, by rw [hor]; omega⟩, ?_⟩
  rw [address_eq_page_mask (by rw [hor]; omega)]
  apply BitVec.eq_of_toNat_eq
  rw [page_mask_toNat, hor]
  omega

/-! ## Indices of a virtual address -/

def pml4i (v : UINT64) : BitVec 9 := v.extractLsb' 39 9
def pml3i (v : UINT64) : BitVec 9 := v.extractLsb' 30 9
def pml2i (v : UINT64) : BitVec 9 := v.extractLsb' 21 9
def pml1i (v : UINT64) : BitVec 9 := v.extractLsb' 12 9

/-- The indices that lead from CR3 to the last-level table. -/
def tablePath (v : UINT64) : List (BitVec 9) := [pml4i v, pml3i v, pml2i v]

theorem pml4i_toNat (v : UINT64) : (pml4i v).toNat = v.toNat / 2 ^ 39 % 512 := by
  simp [pml4i, Nat.shiftRight_eq_div_pow]

theorem pml3i_toNat (v : UINT64) : (pml3i v).toNat = v.toNat / 2 ^ 30 % 512 := by
  simp [pml3i, Nat.shiftRight_eq_div_pow]

theorem pml2i_toNat (v : UINT64) : (pml2i v).toNat = v.toNat / 2 ^ 21 % 512 := by
  simp [pml2i, Nat.shiftRight_eq_div_pow]

theorem pml1i_toNat (v : UINT64) : (pml1i v).toNat = v.toNat / 2 ^ 12 % 512 := by
  simp [pml1i, Nat.shiftRight_eq_div_pow]

/-- The source's `(virt >> n) & 0x1FF` is the 9-bit field at bit `n`. -/
theorem mask_index (v : UINT64) (n : Nat) :
    (v >>> n) &&& 0x1FF#64 = (v.extractLsb' n 9).setWidth 64 := by
  apply BitVec.eq_of_toNat_eq
  have : (0x1FF#64).toNat = 2 ^ 9 - 1 := rfl
  rw [BitVec.toNat_and, this, Nat.and_two_pow_sub_one_eq_mod, BitVec.toNat_setWidth,
    BitVec.extractLsb'_toNat, BitVec.toNat_ushiftRight]
  have := Nat.mod_lt (v.toNat >>> n) (show 2 ^ 9 > 0 by decide)
  omega

/-- Two addresses share their last-level table iff bits 47:21 agree. -/
theorem tablePath_eq_iff (v w : UINT64) :
    tablePath v = tablePath w ↔ v.toNat / 2 ^ 21 % 2 ^ 27 = w.toNat / 2 ^ 21 % 2 ^ 27 := by
  simp only [tablePath, List.cons.injEq, and_true, ← BitVec.toNat_inj, pml4i_toNat, pml3i_toNat,
    pml2i_toNat]
  omega

theorem pml1i_eq_iff (v w : UINT64) :
    pml1i v = pml1i w ↔ v.toNat / 2 ^ 12 % 512 = w.toNat / 2 ^ 12 % 512 := by
  rw [← BitVec.toNat_inj, pml1i_toNat, pml1i_toNat]

/-- The walk sees bits 47:12 of an address only: the number of its page. -/
def pageNumber (v : UINT64) : Nat := v.toNat / 4096 % 2 ^ 36

theorem pageNumber_eq_iff (v w : UINT64) :
    pageNumber v = pageNumber w ↔ tablePath v = tablePath w ∧ pml1i v = pml1i w := by
  rw [tablePath_eq_iff, pml1i_eq_iff, pageNumber, pageNumber]
  omega

/-! ## The hardware walk -/

/-- How a walk ends: no present entry at some upper level, an entry mapping
a 1 GiB or 2 MiB page, or the last-level entry (present or not). -/
inductive Walk where
  | fault
  | huge (level : Nat) (e : UINT64)
  | leaf (e : UINT64)
  deriving DecidableEq, Repr

def cpuWalk (mem : WordMem) (cr3 v : UINT64) : Walk :=
  let pml4e := mem (slot (address cr3) (pml4i v))
  if present pml4e = false then .fault else
  let pml3e := mem (slot (address pml4e) (pml3i v))
  if present pml3e = false then .fault else
  if pageSize pml3e then .huge 3 pml3e else
  let pml2e := mem (slot (address pml3e) (pml2i v))
  if present pml2e = false then .fault else
  if pageSize pml2e then .huge 2 pml2e else
  .leaf (mem (slot (address pml2e) (pml1i v)))

/-- The walk depends on the page number only. -/
theorem cpuWalk_congr {mem : WordMem} {cr3 v w : UINT64} (h : pageNumber v = pageNumber w) :
    cpuWalk mem cr3 v = cpuWalk mem cr3 w := by
  obtain ⟨hp, h1⟩ := (pageNumber_eq_iff v w).mp h
  simp only [tablePath, List.cons.injEq, and_true] at hp
  obtain ⟨h4, h3, h2⟩ := hp
  simp only [cpuWalk, h4, h3, h2, h1]

/-- The level and entry an address is translated by, if it is mapped. -/
def translate (mem : WordMem) (cr3 v : UINT64) : Option (Nat × UINT64) :=
  match cpuWalk mem cr3 v with
  | .fault => none
  | .huge level e => some (level, e)
  | .leaf e => if present e then some (1, e) else none

/-- The physical address of `v`: the page's, and the bits of `v` that no entry
translates. -/
def cpuAddress (mem : WordMem) (cr3 v : UINT64) : Option UINT64 :=
  (translate mem cr3 v).map fun (level, e) =>
    let low := ~~~(~~~0#64 <<< (12 + 9 * (level - 1)))
    (address e &&& ~~~low) + (v &&& low)

theorem cpuAddress_leaf {mem : WordMem} {cr3 v e : UINT64} (h : cpuWalk mem cr3 v = .leaf e)
    (he : present e = true) : cpuAddress mem cr3 v = some (address e + (v &&& 0xFFF#64)) := by
  have hlow : ~~~(~~~0#64 <<< (12 + 9 * (1 - 1))) = 0xFFF#64 := by decide
  have hpage : address e &&& ~~~0xFFF#64 = address e := by
    rw [address, BitVec.and_assoc]
    rfl
  simp only [cpuAddress, translate, h, he, if_true, Option.map_some, hlow, hpage]

theorem follow_three {mem : WordMem} {cr3 v t : UINT64}
    (h : follow pageLayout mem cr3 (tablePath v) = some t) :
    ∃ e4 e3 e2, mem (slot cr3 (pml4i v)) = e4 ∧ mem (slot (address e4) (pml3i v)) = e3 ∧
      mem (slot (address e3) (pml2i v)) = e2 ∧ address e2 = t ∧
      IsPointer e4 ∧ IsPointer e3 ∧ IsPointer e2 := by
  simp only [tablePath, follow, Option.bind_eq_some_iff, Option.some.injEq, exists_eq_right,
    pageLayout_slot] at h
  obtain ⟨t3, h4, t2, h3, h2⟩ := h
  obtain ⟨p4, rfl⟩ := decode_eq_some h4
  obtain ⟨p3, rfl⟩ := decode_eq_some h3
  obtain ⟨p2, rfl⟩ := decode_eq_some h2
  exact ⟨_, _, _, rfl, rfl, rfl, rfl, p4, p3, p2⟩

/-- A walk through tables that all exist ends in the last table's entry. -/
theorem cpuWalk_of_follow {mem : WordMem} {cr3 v t : UINT64} (hc : address cr3 = cr3)
    (h : follow pageLayout mem cr3 (tablePath v) = some t) :
    cpuWalk mem cr3 v = .leaf (mem (slot t (pml1i v))) := by
  obtain ⟨e4, e3, e2, h4, h3, h2, rfl, p4, p3, p2⟩ := follow_three h
  simp [cpuWalk, hc, h4, h3, h2, p4.1, p3.1, p3.2.2.1, p2.1, p2.2.2.1]

/-- The entries that the walk of `v` may meet above the leaf are zero or
pointers. -/
def CleanPath (mem : WordMem) (cr3 v : UINT64) : Prop :=
  ∀ p i t, p ++ [i] <+: tablePath v → follow pageLayout mem cr3 p = some t →
    mem (slot t i) = 0#64 ∨ IsPointer (mem (slot t i))

/-- On a clean path a missing table is a not-present entry. -/
theorem cpuWalk_of_follow_none {mem : WordMem} {cr3 v : UINT64} (hc : address cr3 = cr3)
    (hp : CleanPath mem cr3 v) (h : follow pageLayout mem cr3 (tablePath v) = none) :
    cpuWalk mem cr3 v = .fault := by
  have h0 : present 0#64 = false := by decide
  unfold cpuWalk
  rcases hp [] (pml4i v) cr3 ⟨[pml3i v, pml2i v], rfl⟩ rfl with e4 | p4
  · simp [hc, e4, h0]
  have f4 : follow pageLayout mem cr3 [pml4i v] = some (address (mem (slot cr3 (pml4i v)))) := by
    simp [follow, decode_pointer p4]
  rcases hp [pml4i v] (pml3i v) _ ⟨[pml2i v], rfl⟩ f4 with e3 | p3
  · simp [hc, p4.1, e3, h0]
  have f3 := follow_snoc pageLayout mem cr3 [pml4i v] (pml3i v)
  rw [f4, Option.bind_some, pageLayout_slot, decode_pointer p3] at f3
  rcases hp [pml4i v, pml3i v] (pml2i v) _ ⟨[], rfl⟩ f3 with e2 | p2
  · simp [hc, p4.1, p3.1, p3.2.2.1, e2, h0]
  have f2 := follow_snoc pageLayout mem cr3 [pml4i v, pml3i v] (pml2i v)
  rw [show [pml4i v, pml3i v] = [pml4i v] ++ [pml3i v] from rfl] at f2
  rw [f3, Option.bind_some, pageLayout_slot, decode_pointer p2] at f2
  exact absurd (h.symm.trans f2) (by simp)

end PiousOS.Paging
