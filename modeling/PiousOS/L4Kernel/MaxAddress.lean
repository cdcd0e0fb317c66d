import PiousOS.L4Kernel.Memory

/-!
# The highest mapped address (`src/kernel/memory.c`)

`GetMaxMappedPhysicalAddress` wants the largest end of a range of the map.
`+` binds tighter than `<<` in C, so what it compares is the sum of start
and page count, shifted: the byte address counts as a page number too.

Results:
* `GetMaxMappedPhysicalAddress_ends`: over an array of descriptors the query
  ends and answers the largest shifted sum.
* `shiftedSum_eq_end_iff`: a descriptor's shifted sum is the end of its
  range exactly if the range starts at 0.
* `GetMaxMappedPhysicalAddress_max_iff`: on which maps the answer is the
  end of the highest range.
-/
namespace PiousOS.Kernel
open ByteMem Strided

/-- The map of `n` descriptors the settings describe. -/
def mapAt (mem : ByteMem) (s : MemorySettings) (n : Nat) : List Descriptor :=
  (List.range n).map fun i => descriptorAt mem (element s.memMap s.memMapDescriptorSize i)

/-- Where a descriptor's range ends. -/
def mappedEnd (d : Descriptor) : Nat := d.PhysicalStart.toNat + d.NumberOfPages.toNat * 4096

/-- The end of the highest range, 0 for the empty map. -/
def highestEnd (map : List Descriptor) : Nat := (map.map mappedEnd).foldr max 0

/-- The start as a page number, plus the pages, in 64-bit arithmetic. -/
def shiftedSum (d : Descriptor) : Nat :=
  (d.PhysicalStart.toNat + d.NumberOfPages.toNat) % 2 ^ 52 * 4096

/-! ## Maxima of lists -/

section
variable {α : Type} {f : α → Nat} {l : List α}

theorem foldr_max_le_iff {b : Nat} : (l.map f).foldr max 0 ≤ b ↔ ∀ a ∈ l, f a ≤ b := by
  induction l with
  | nil => simp
  | cons a l ih =>
    rw [List.map_cons, List.foldr_cons, Nat.max_le, ih]
    simp

theorem le_foldr_max {a : α} (ha : a ∈ l) : f a ≤ (l.map f).foldr max 0 :=
  foldr_max_le_iff.mp (Nat.le_refl _) a ha

theorem foldr_max_mem (hl : l ≠ []) : ∃ a ∈ l, f a = (l.map f).foldr max 0 := by
  induction l with
  | nil => exact absurd rfl hl
  | cons a l ih =>
    rw [List.map_cons, List.foldr_cons]
    by_cases hle : (l.map f).foldr max 0 ≤ f a
    · exact ⟨a, List.mem_cons_self, (Nat.max_eq_left hle).symm⟩
    · have hne : l ≠ [] := by
        intro hnil
        subst hnil
        simp at hle
      obtain ⟨b, hb, hfb⟩ := ih hne
      refine ⟨b, List.mem_cons_of_mem _ hb, ?_⟩
      rw [Nat.max_eq_right (by omega), hfb]

/-- A number is the maximum of a list if it is in the list and bounds it. -/
theorem foldr_max_eq_iff {b : Nat} :
    (l.map f).foldr max 0 = b ↔ (l = [] ∧ b = 0) ∨ ((∃ a ∈ l, f a = b) ∧ ∀ a ∈ l, f a ≤ b) := by
  constructor
  · intro h
    subst h
    by_cases hl : l = []
    · exact Or.inl ⟨hl, by rw [hl]; rfl⟩
    · exact Or.inr ⟨foldr_max_mem hl, fun _ => le_foldr_max⟩
  · intro h
    rcases h with ⟨hl, hb⟩ | ⟨⟨a, ha, hfa⟩, hle⟩
    · rw [hl, hb]
      rfl
    · apply Nat.le_antisymm (foldr_max_le_iff.mpr hle)
      rw [← hfa]
      exact le_foldr_max ha

end

/-! ## What the query answers -/

/-- The word one step compares. -/
theorem currentAddress_toNat (d : Descriptor) :
    ((d.PhysicalStart + d.NumberOfPages) <<< EFI_PAGE_SHIFT).toNat = shiftedSum d := by
  have hpow : (2 : Nat) ^ EFI_PAGE_SHIFT = 4096 := rfl
  rw [BitVec.toNat_shiftLeft, BitVec.toNat_add, Nat.shiftLeft_eq, hpow, shiftedSum]
  omega

theorem maxPiece_toNat (mem : ByteMem) (Piece maxAddress : UINT64) :
    (maxPiece mem Piece maxAddress).toNat =
      max maxAddress.toNat (shiftedSum (descriptorAt mem Piece)) := by
  rw [← currentAddress_toNat, maxPiece]
  simp only [descriptorAt]
  split
  · rename_i hgt
    have := BitVec.lt_def.mp hgt
    omega
  · rename_i hle
    have := BitVec.lt_def.not.mp hle
    omega

theorem foldl_maxPiece_toNat (mem : ByteMem) (l : List UINT64) (maxAddress : UINT64) :
    (l.foldl (fun m p => maxPiece mem p m) maxAddress).toNat =
      max maxAddress.toNat ((l.map fun p => shiftedSum (descriptorAt mem p)).foldr max 0) := by
  induction l generalizing maxAddress with
  | nil => simp
  | cons p l ih =>
    rw [List.foldl_cons, ih, maxPiece_toNat, List.map_cons, List.foldr_cons]
    omega

/-- Over an array the query ends and answers the largest shifted sum. -/
theorem GetMaxMappedPhysicalAddress_ends (mem : ByteMem) {s : MemorySettings} {n fuel : Nat}
    (h : Describes s n) (hf : n < fuel) :
    ∃ r, GetMaxMappedPhysicalAddress mem s fuel = some r ∧
      r.toNat = ((mapAt mem s n).map shiftedSum).foldr max 0 := by
  refine ⟨_, by rw [GetMaxMappedPhysicalAddress, forPiece_eq, visited_array h hf, Option.map_some], ?_⟩
  rw [foldl_maxPiece_toNat, mapAt, List.map_map, List.map_map]
  exact Nat.max_eq_right (Nat.zero_le _)

/-! ## When that is the highest end -/

/-- Below 2^52 nothing is cut off. -/
theorem shiftedSum_of_lt {d : Descriptor} (h : d.PhysicalStart.toNat + d.NumberOfPages.toNat < 2 ^ 52) :
    shiftedSum d = (d.PhysicalStart.toNat + d.NumberOfPages.toNat) * 4096 := by
  rw [shiftedSum, Nat.mod_eq_of_lt h]

theorem shiftedSum_eq_end_iff {d : Descriptor}
    (h : d.PhysicalStart.toNat + d.NumberOfPages.toNat < 2 ^ 52) :
    shiftedSum d = mappedEnd d ↔ d.PhysicalStart = 0 := by
  rw [shiftedSum_of_lt h, mappedEnd, ← BitVec.toNat_inj]
  have hz : (0 : UINT64).toNat = 0 := rfl
  omega

theorem mappedEnd_le_shiftedSum {d : Descriptor}
    (h : d.PhysicalStart.toNat + d.NumberOfPages.toNat < 2 ^ 52) : mappedEnd d ≤ shiftedSum d := by
  rw [shiftedSum_of_lt h, mappedEnd]
  omega

/-- The largest shifted sum is the highest end. -/
def SumsMeetEnd (map : List Descriptor) : Prop :=
  map = [] ∨ ((∃ d ∈ map, shiftedSum d = highestEnd map) ∧ ∀ d ∈ map, shiftedSum d ≤ highestEnd map)

/-- One range starts at 0 and has at least as many pages as any other
descriptor's start and page count make together. -/
def RangeFromZero (map : List Descriptor) : Prop :=
  map = [] ∨ ∃ d ∈ map, d.PhysicalStart = 0 ∧
    ∀ e ∈ map, e.PhysicalStart.toNat + e.NumberOfPages.toNat ≤ d.NumberOfPages.toNat

/-- Where no sum reaches 2^52, the sums meet the end if the map has a range
from 0 that outweighs all others. -/
theorem sumsMeetEnd_iff {map : List Descriptor}
    (h : ∀ d ∈ map, d.PhysicalStart.toNat + d.NumberOfPages.toNat < 2 ^ 52) :
    SumsMeetEnd map ↔ RangeFromZero map := by
  refine or_congr_right ⟨fun hmeet => ?_, fun hzero => ?_⟩
  · obtain ⟨⟨d, hd, hsum⟩, hle⟩ := hmeet
    -- the range with the highest end has that end as its own sum
    have hne : map ≠ [] := List.ne_nil_of_mem hd
    obtain ⟨t, ht, htop⟩ := foldr_max_mem (f := mappedEnd) hne
    have htop' : mappedEnd t = highestEnd map := htop
    have hsame : shiftedSum t = mappedEnd t := by
      have h1 := mappedEnd_le_shiftedSum (h t ht)
      have h2 := hle t ht
      omega
    have hstart := (shiftedSum_eq_end_iff (h t ht)).mp hsame
    have hstart' : t.PhysicalStart.toNat = 0 := by rw [hstart]; rfl
    refine ⟨t, ht, hstart, fun e he => ?_⟩
    have hbound := hle e he
    rw [← htop', shiftedSum_of_lt (h e he), mappedEnd] at hbound
    omega
  · obtain ⟨d, hd, hstart, hle⟩ := hzero
    have hstart' : d.PhysicalStart.toNat = 0 := by rw [hstart]; rfl
    have hown : shiftedSum d = mappedEnd d := (shiftedSum_eq_end_iff (h d hd)).mpr hstart
    have hsums : ∀ e ∈ map, shiftedSum e ≤ mappedEnd d := by
      intro e he
      have := hle e he
      rw [shiftedSum_of_lt (h e he), mappedEnd]
      omega
    have hend : highestEnd map = mappedEnd d := by
      apply foldr_max_eq_iff.mpr
      exact Or.inr ⟨⟨d, hd, rfl⟩, fun e he => Nat.le_trans (mappedEnd_le_shiftedSum (h e he)) (hsums e he)⟩
    rw [hend]
    exact ⟨⟨d, hd, hown⟩, hsums⟩

/-- **The answer is the highest end only on maps that start at 0.** For a map
of `n` descriptors of any stride, recorded by `InitializeMemory`, the query
ends; its answer is the end of the highest range, 0 for the empty map,
exactly if the shifted sums meet it. Where start and page count never sum to
2^52, as no physical address does, that is exactly if some range starts at 0
and outweighs every other descriptor's start and page count. -/
theorem GetMaxMappedPhysicalAddress_max_iff (mem : ByteMem) (MapSize DescriptorSize : UINTN)
    (Map : UINT64) (DescriptorVersion : UINT32) (n fuel : Nat) (hstride : 40 ≤ DescriptorSize.toNat)
    (hsize : MapSize.toNat = n * DescriptorSize.toNat)
    (hfits : Map.toNat + n * DescriptorSize.toNat < 2 ^ 64) (hf : n < fuel) :
    let s := InitializeMemory MapSize DescriptorSize Map DescriptorVersion
    let map := mapAt mem s n
    ∃ r, GetMaxMappedPhysicalAddress mem s fuel = some r ∧
      (r.toNat = highestEnd map ↔ SumsMeetEnd map) ∧
      ((∀ d ∈ map, d.PhysicalStart.toNat + d.NumberOfPages.toNat < 2 ^ 52) →
        (r.toNat = highestEnd map ↔ RangeFromZero map)) := by
  intro s map
  have hdesc : Describes s n := ⟨by show 0 < DescriptorSize.toNat; omega, hfits, hsize⟩
  obtain ⟨r, hr, hmax⟩ := GetMaxMappedPhysicalAddress_ends mem hdesc hf
  have hmeet : r.toNat = highestEnd map ↔ SumsMeetEnd map := by
    rw [hmax, foldr_max_eq_iff]
    constructor
    · intro h
      rcases h with ⟨hnil, -⟩ | h
      · exact Or.inl hnil
      · exact Or.inr h
    · intro h
      rcases h with hnil | h
      · refine Or.inl ⟨hnil, ?_⟩
        rw [hnil]
        rfl
      · exact Or.inr h
  refine ⟨r, hr, hmeet, fun hlow => ?_⟩
  rw [hmeet]
  exact sumsMeetEnd_iff hlow

/-! ## Two maps at 1 MiB -/

/-- A map written to memory with stride 48 and recorded. -/
def mapRecorded (map : List Descriptor) : MemorySettings :=
  InitializeMemory (BitVec.ofNat 64 (map.length * 48)) 48 0x100000 1

theorem mapAt_mapBytes (map : List Descriptor) (hlen : map.length < 2 ^ 32) :
    mapAt (mapBytes 0x100000 map) (mapRecorded map) map.length = map := by
  have hbase : (0x100000 : UINT64).toNat = 0x100000 := rfl
  apply List.ext_getElem
  · simp [mapAt]
  · intro i hi hi'
    simp only [mapAt, List.getElem_map, List.getElem_range]
    exact descriptorAt_mapBytes (by omega) hi'

/-- The ranges of the first 32 MiB, a reserved page among them. -/
def lowRanges : List Descriptor := [⟨7, 0, 4⟩, ⟨0, 0x1000, 1⟩, ⟨7, 0, 0x2000⟩]

/-- They end where the query says. -/
theorem GetMaxMappedPhysicalAddress_max_low :
    ∃ r, GetMaxMappedPhysicalAddress (mapBytes 0x100000 lowRanges) (mapRecorded lowRanges) 4 = some r ∧
      r.toNat = 0x2000000 := by
  have hmap := mapAt_mapBytes lowRanges (by decide)
  obtain ⟨r, hr, -, hlow⟩ := GetMaxMappedPhysicalAddress_max_iff (mapBytes 0x100000 lowRanges) 144 48
    0x100000 1 3 4 (by decide) (by decide) (by decide) (by decide)
  change mapAt _ (InitializeMemory 144 48 0x100000 1) 3 = _ at hmap
  rw [hmap] at hlow
  have hend : highestEnd lowRanges = 0x2000000 := by simp [lowRanges, highestEnd, mappedEnd]
  rw [hend] at hlow
  refine ⟨r, hr, (hlow (by simp [lowRanges])).mpr (Or.inr ⟨⟨7, 0, 0x2000⟩, ?_⟩)⟩
  simp [lowRanges]

/-- One page at 4 KiB ends at 8 KiB; the query answers 16 MiB and 4 KiB. -/
theorem GetMaxMappedPhysicalAddress_misses_end :
    highestEnd (mapAt (mapBytes 0x100000 [⟨7, 0x1000, 1⟩]) (mapRecorded [⟨7, 0x1000, 1⟩]) 1) = 0x2000 ∧
      ∃ r, GetMaxMappedPhysicalAddress (mapBytes 0x100000 [⟨7, 0x1000, 1⟩])
        (mapRecorded [⟨7, 0x1000, 1⟩]) 2 = some r ∧ r.toNat = 0x1001000 := by
  have hmap := mapAt_mapBytes [⟨7, 0x1000, 1⟩] (by decide)
  change mapAt _ _ 1 = _ at hmap
  have hdesc : Describes (mapRecorded [⟨7, 0x1000, 1⟩]) 1 := ⟨by decide, by decide, by decide⟩
  obtain ⟨r, hr, hmax⟩ := GetMaxMappedPhysicalAddress_ends (mapBytes 0x100000 [⟨7, 0x1000, 1⟩])
    hdesc (Nat.lt_succ_self 1)
  rw [hmap] at hmax ⊢
  refine ⟨by simp [highestEnd, mappedEnd], r, hr, ?_⟩
  rw [hmax]
  simp [shiftedSum]

end PiousOS.Kernel
