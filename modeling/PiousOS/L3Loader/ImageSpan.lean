import PiousOS.L3Loader.LoadSegments

/-!
# The page count of an image (`BootKernel`)

The greatest end and the least start are kept in 64-bit words. A segment may
end at the very top of the address space, as one linked for the higher half
can; its end is then 0 and loses every comparison.

Results:
* `extent_perm`: the first loop computes the same for any order of the
  headers.
* `imageEnd_eq`: the end it finds is the greatest one below 2^64.
* `imagePages_exact_iff`: on which tables the page count is that of the span
  from the least start to the greatest end, in exact integers.
-/
namespace PiousOS.Loader
open Elf

/-! ## The order of the headers -/

/-- The first loop as a fold over the table. -/
theorem extent_eq_foldl (table : Nat → Elf64_Phdr) (n : Nat) :
    extent table n =
      ((List.range n).map table).foldl (fun e header => extentStep header e) ⟨0, BitVec.allOnes 64⟩ := by
  induction n with
  | zero => rfl
  | succ n ih => rw [extent, ih, List.range_succ, List.map_append, List.foldl_append]; rfl

theorem Extent.ext_toNat {e e' : Extent} (hs : e.virt_size.toNat = e'.virt_size.toNat)
    (hm : e.virt_min.toNat = e'.virt_min.toNat) : e = e' := by
  cases e
  cases e'
  exact congrArg₂ Extent.mk (BitVec.eq_of_toNat_eq hs) (BitVec.eq_of_toNat_eq hm)

/-- Two headers can change places. -/
theorem extentStep_comm (header header' : Elf64_Phdr) (e : Extent) :
    extentStep header (extentStep header' e) = extentStep header' (extentStep header e) := by
  by_cases h : header.p_type = PT_LOAD
  · by_cases h' : header'.p_type = PT_LOAD
    · obtain ⟨hs, hm⟩ := extentStep_load (e := e) h
      obtain ⟨hs', hm'⟩ := extentStep_load (e := e) h'
      obtain ⟨hss, hmm⟩ := extentStep_load (e := extentStep header' e) h
      obtain ⟨hss', hmm'⟩ := extentStep_load (e := extentStep header e) h'
      apply Extent.ext_toNat
      · rw [hss, hss', hs, hs', max_left_comm]
      · rw [hmm, hmm', hm, hm', min_left_comm]
    · have hskip : ∀ e, extentStep header' e = e := fun _ => if_neg h'
      rw [hskip, hskip]
  · have hskip : ∀ e, extentStep header e = e := fun _ => if_neg h
    rw [hskip, hskip]

theorem extent_perm {table table' : Nat → Elf64_Phdr} {n : Nat}
    (h : ((List.range n).map table).Perm ((List.range n).map table')) :
    extent table n = extent table' n := by
  rw [extent_eq_foldl, extent_eq_foldl]
  exact h.foldl_eq' (fun header _ header' _ e => extentStep_comm header' header e) _

/-! ## The span in exact integers -/

/-- Where a segment ends, at most at 2^64. -/
def segmentEnd (table : Nat → Elf64_Phdr) (i : Nat) : Nat :=
  (table i).p_vaddr.toNat + (table i).p_memsz.toNat

def segmentStart (table : Nat → Elf64_Phdr) (i : Nat) : Nat := (table i).p_vaddr.toNat

def pagesFor (bytes : Nat) : Nat := (bytes + 4095) / 4096

/-- A table with a segment, whose segments are not empty and end in the
address space. -/
structure HasImage (table : Nat → Elf64_Phdr) (n : Nat) : Prop where
  nonempty : (loads table n).Nonempty
  size : ∀ i ∈ loads table n, 1 ≤ (table i).p_memsz.toNat
  fits : ∀ i ∈ loads table n, segmentEnd table i ≤ 2 ^ 64

section
variable {table : Nat → Elf64_Phdr} {n : Nat}

/-- The least start. -/
def HasImage.lowest (h : HasImage table n) : Nat := (loads table n).inf' h.nonempty (segmentStart table)

/-- The greatest end. -/
def HasImage.highest (h : HasImage table n) : Nat := (loads table n).sup' h.nonempty (segmentEnd table)

/-- The greatest end of the segments that end below 2^64. -/
def endBelowTop (table : Nat → Elf64_Phdr) (n : Nat) : Nat :=
  ((loads table n).filter fun i => segmentEnd table i < 2 ^ 64).sup (segmentEnd table)

theorem segmentEnd_mod {i : Nat} : ((table i).p_vaddr + (table i).p_memsz).toNat =
    segmentEnd table i % 2 ^ 64 :=
  BitVec.toNat_add ..

/-- The end the loop finds leaves out the segments at the top. -/
theorem imageEnd_eq (h : HasImage table n) : imageEnd table n = endBelowTop table n := by
  apply le_antisymm
  · refine Finset.sup_le fun i hi => ?_
    rw [segmentEnd_mod]
    by_cases hlt : segmentEnd table i < 2 ^ 64
    · rw [Nat.mod_eq_of_lt hlt]
      exact Finset.le_sup (f := segmentEnd table) (Finset.mem_filter.mpr ⟨hi, hlt⟩)
    · have hle := h.fits i hi
      have htop : segmentEnd table i = 2 ^ 64 := by omega
      rw [htop, Nat.mod_self]
      exact Nat.zero_le _
  · refine Finset.sup_le fun i hi => ?_
    obtain ⟨hi, hlt⟩ := Finset.mem_filter.mp hi
    have hword := Nat.mod_eq_of_lt hlt
    rw [← hword, ← segmentEnd_mod]
    exact Finset.le_sup (f := fun i => ((table i).p_vaddr + (table i).p_memsz).toNat) hi

theorem imageStart_eq (h : HasImage table n) : imageStart table n = h.lowest := by
  obtain ⟨low, hlow, heq⟩ := Finset.exists_mem_eq_inf' h.nonempty (segmentStart table)
  have hstart : h.lowest = (table low).p_vaddr.toNat := heq
  have hsup : (loads table n).sup (fun i => 2 ^ 64 - 1 - (table i).p_vaddr.toNat) =
      2 ^ 64 - 1 - (table low).p_vaddr.toNat := by
    apply le_antisymm
    · refine Finset.sup_le fun i hi => ?_
      have hle : h.lowest ≤ segmentStart table i := Finset.inf'_le _ hi
      rw [hstart, segmentStart] at hle
      omega
    · exact Finset.le_sup (f := fun i => 2 ^ 64 - 1 - (table i).p_vaddr.toNat) hlow
  have hlt := (table low).p_vaddr.isLt
  rw [imageStart, hsup, hstart]
  omega

theorem endBelowTop_of_below (h : HasImage table n)
    (hbelow : ∀ i ∈ loads table n, segmentEnd table i < 2 ^ 64) : endBelowTop table n = h.highest := by
  rw [endBelowTop, Finset.filter_true_of_mem hbelow, HasImage.highest, Finset.sup'_eq_sup]

theorem endBelowTop_of_top (htop : ∀ i ∈ loads table n, segmentEnd table i = 2 ^ 64) :
    endBelowTop table n = 0 := by
  have hnone : (loads table n).filter (fun i => segmentEnd table i < 2 ^ 64) = ∅ :=
    Finset.filter_false_of_mem fun i hi => by rw [htop i hi]; exact Nat.lt_irrefl _
  rw [endBelowTop, hnone]
  rfl

theorem highest_of_top (h : HasImage table n) {i : Nat} (hi : i ∈ loads table n)
    (htop : segmentEnd table i = 2 ^ 64) : h.highest = 2 ^ 64 := by
  apply le_antisymm
  · exact Finset.sup'_le _ _ h.fits
  · rw [← htop]
    exact Finset.le_sup' (segmentEnd table) hi

/-- A segment starts before it ends. -/
theorem lowest_lt_end (h : HasImage table n) {i : Nat} (hi : i ∈ loads table n) :
    h.lowest < segmentEnd table i := by
  have hsize := h.size i hi
  have hle : h.lowest ≤ segmentStart table i := Finset.inf'_le _ hi
  rw [segmentStart] at hle
  rw [segmentEnd]
  omega

/-- An image whose segments end at the top starts above 0. -/
theorem lowest_pos_of_top (h : HasImage table n) (htop : ∀ i ∈ loads table n, segmentEnd table i = 2 ^ 64) :
    0 < h.lowest := by
  obtain ⟨low, hlow, heq⟩ := Finset.exists_mem_eq_inf' h.nonempty (segmentStart table)
  have hstart : h.lowest = (table low).p_vaddr.toNat := heq
  have hend := htop low hlow
  have hsize := (table low).p_memsz.isLt
  rw [segmentEnd] at hend
  omega

theorem endBelowTop_lt (table : Nat → Elf64_Phdr) (n : Nat) : endBelowTop table n < 2 ^ 64 :=
  (Finset.sup_lt_iff (by decide)).mpr fun _ hi => (Finset.mem_filter.mp hi).2

/-- The page count from the end that the loop finds. -/
theorem imagePages_eq (h : HasImage table n) : (imagePages table n).toNat =
    pagesFor ((endBelowTop table n + 2 ^ 64 - h.lowest) % 2 ^ 64) := by
  rw [imagePages_toNat, spanPages, imageEnd_eq h, imageStart_eq h]
  rfl

/-- With a segment that ends below the top the span is that of these. -/
theorem imagePages_of_below (h : HasImage table n) {i : Nat} (hi : i ∈ loads table n)
    (hlt : segmentEnd table i < 2 ^ 64) :
    (imagePages table n).toNat = pagesFor (endBelowTop table n - h.lowest) := by
  have hend : segmentEnd table i ≤ endBelowTop table n :=
    Finset.le_sup (f := segmentEnd table) (Finset.mem_filter.mpr ⟨hi, hlt⟩)
  have hstart := lowest_lt_end h hi
  have htop := endBelowTop_lt table n
  rw [imagePages_eq h]
  congr 1
  omega

/-! ## When the count is exact -/

/-- The pages from the least start to the greatest end are counted, and in any
order of the headers. -/
structure CountsPages (h : HasImage table n) : Prop where
  exact : (imagePages table n).toNat = pagesFor (h.highest - h.lowest)
  order : ∀ table', ((List.range n).map table').Perm ((List.range n).map table) →
    imagePages table' n = imagePages table n

/-- No segment ends at the top of the address space, or all do, or those that
do begin no further page. -/
def TopCounted (h : HasImage table n) : Prop :=
  (∀ i ∈ loads table n, segmentEnd table i < 2 ^ 64) ∨
  (∀ i ∈ loads table n, segmentEnd table i = 2 ^ 64) ∨
  pagesFor (endBelowTop table n - h.lowest) = pagesFor (2 ^ 64 - h.lowest)

theorem imagePages_perm {table' : Nat → Elf64_Phdr}
    (hperm : ((List.range n).map table').Perm ((List.range n).map table)) :
    imagePages table' n = imagePages table n := by
  rw [imagePages, imagePages, extent_perm hperm]

end

/-- **The page count is exact unless a segment at the top is forgotten.** For
every table with a segment, in any order, whose segments are not empty and
end at 2^64 at most, the count is the span from the least start to the
greatest end in pages exactly if no segment ends at 2^64, or all do, or the
others reach into the last page. -/
theorem imagePages_exact_iff (table : Nat → Elf64_Phdr) (n : Nat) (h : HasImage table n) :
    CountsPages h ↔ TopCounted h := by
  by_cases hbelow : ∀ i ∈ loads table n, segmentEnd table i < 2 ^ 64
  · refine iff_of_true ⟨?_, fun _ => imagePages_perm⟩ (.inl hbelow)
    obtain ⟨i, hi⟩ := h.nonempty
    rw [imagePages_of_below h hi (hbelow i hi), endBelowTop_of_below h hbelow]
  by_cases htop : ∀ i ∈ loads table n, segmentEnd table i = 2 ^ 64
  · refine iff_of_true ⟨?_, fun _ => imagePages_perm⟩ (.inr (.inl htop))
    obtain ⟨i, hi⟩ := h.nonempty
    -- the end wraps to 0, and so does the difference
    have hpos := lowest_pos_of_top h htop
    have hlow := lowest_lt_end h hi
    rw [htop i hi] at hlow
    rw [imagePages_eq h, endBelowTop_of_top htop, highest_of_top h hi (htop i hi), Nat.zero_add,
      Nat.mod_eq_of_lt (Nat.sub_lt (by decide) hpos)]
  · -- one segment ends at the top, another one below it
    push Not at hbelow htop
    obtain ⟨t, ht, hge⟩ := hbelow
    obtain ⟨b, hb, hne⟩ := htop
    have htopEnd : segmentEnd table t = 2 ^ 64 := le_antisymm (h.fits t ht) hge
    have hbelowEnd : segmentEnd table b < 2 ^ 64 := lt_of_le_of_ne (h.fits b hb) hne
    have hcount := imagePages_of_below h hb hbelowEnd
    have hhigh := highest_of_top h ht htopEnd
    constructor
    · intro hc
      have hexact := hc.exact
      rw [hcount, hhigh] at hexact
      exact .inr (.inr hexact)
    · intro hc
      rcases hc with hc | hc | hc
      · exact absurd (hc t ht) (by omega)
      · exact absurd (hc b hb) hne
      · exact ⟨by rw [hcount, hhigh, hc], fun _ => imagePages_perm⟩

/-- A page of code at the link base and a page at `lastPage`. -/
def twoPages (lastPage : UINT64) : Nat → Elf64_Phdr
  | 0 => headerOf PT_LOAD 0x1000 0xFFFFFFFFC0000000 0x1000 0x1000
  | _ => headerOf PT_LOAD 0x2000 lastPage 0x1000 0x1000

/-- One page below the top, all is counted. -/
theorem imagePages_exact_higherHalf :
    ∃ h : HasImage (twoPages 0xFFFFFFFFFFFFE000) 2, CountsPages h :=
  have h : HasImage (twoPages 0xFFFFFFFFFFFFE000) 2 := ⟨by decide, by decide, by decide⟩
  ⟨h, (imagePages_exact_iff _ 2 h).mpr (.inl (by decide))⟩

/-- At the top, one page of 2^18 is counted. -/
theorem imagePages_misses_top :
    ∃ h : HasImage (twoPages 0xFFFFFFFFFFFFF000) 2,
      imagePages (twoPages 0xFFFFFFFFFFFFF000) 2 = 1 ∧ pagesFor (h.highest - h.lowest) = 0x40000 :=
  ⟨⟨by decide, by decide, by decide⟩, by decide, by decide⟩

end PiousOS.Loader
