import PiousOS.L3Loader.BootKernel

/-!
# The kernel image at its link addresses

What an ELF file means is an image: at each virtual address of a `PT_LOAD`
segment a byte, the file's or zero (`imageByte`). What the kernel sees there
is the byte at the physical address `MapVirtualPages` was told to map the
page to (`mappedByte`).

The loader reads a segment to its distance from entry 0's address; the
mapper works on page numbers, so it maps entry 0's page to the first page.
The two agree if entry 0 starts at a page boundary. If not, every byte is
seen `p_vaddr % 4096` bytes below its address (`mappedByte_eq`).

* `headerTable_eq`: the loader's table holds the program headers of the file.
* `loadedMem_at`: memory holds the image, counted from entry 0's address.
* `segmentsFit_of_pagesMapped`: of an image that starts at a page boundary,
  what is mapped lies in the allocated pages.
* `image_visible_iff`: the image is visible exactly if all its pages are
  mapped and it is the same when it is shifted by that amount.
-/
namespace PiousOS.Loader
open ByteMem Elf EarlyExit

variable {σ : Type}

/-! ## What the file means -/

/-- The `i`-th program header of the file. -/
def programHeader (file : List UINT8) (header : Elf64_Ehdr) (i : Nat) : Elf64_Phdr :=
  loadPhdr (fileBytes (fun _ => 0) (file.drop (header.e_phoff.toNat + i * header.e_phentsize.toNat))) 0#64

/-- The byte at `v` of the image of the first `n` headers. -/
def imageByte (file : List UINT8) (table : Nat → Elf64_Phdr) : Nat → UINT64 → UINT8
  | 0, _ => 0
  | n + 1, v =>
    if (table n).p_type = PT_LOAD ∧ (v - (table n).p_vaddr).toNat < (table n).p_filesz.toNat then
      file.getD ((table n).p_offset.toNat + (v - (table n).p_vaddr).toNat) 0
    else imageByte file table n v

/-- The rules for the `PT_LOAD` headers of an ELF file. -/
structure WellFormed (file : List UINT8) (table : Nat → Elf64_Phdr) (n : Nat) : Prop where
  noWrap : NoWrap table n
  /-- in ascending order, without overlap -/
  ascending : ∀ i ∈ loads table n, ∀ j ∈ loads table n, i < j →
    (table i).p_vaddr.toNat + (table i).p_memsz.toNat ≤ (table j).p_vaddr.toNat
  filesz_le : ∀ i ∈ loads table n, (table i).p_filesz ≤ (table i).p_memsz
  inFile : ∀ i ∈ loads table n,
    (table i).p_offset.toNat + (table i).p_filesz.toNat ≤ file.length
  congruent : ∀ i ∈ loads table n, (table i).p_align.toNat ≤ 1 ∨
    (table i).p_vaddr.toNat % (table i).p_align.toNat =
      (table i).p_offset.toNat % (table i).p_align.toNat

section
variable {file : List UINT8} {table : Nat → Elf64_Phdr} {n i : Nat}

theorem WellFormed.prev (h : WellFormed file table (n + 1)) : WellFormed file table n := by
  have up : ∀ {i}, i ∈ loads table n → i ∈ loads table (n + 1) := fun hi =>
    mem_loads.mpr ⟨Nat.lt_succ_of_lt (mem_loads.mp hi).1, (mem_loads.mp hi).2⟩
  exact ⟨fun i hi => h.noWrap i (up hi), fun i hi j hj => h.ascending i (up hi) j (up hj),
    fun i hi => h.filesz_le i (up hi), fun i hi => h.inFile i (up hi), fun i hi => h.congruent i (up hi)⟩

theorem NoWrap.offset_lt (h : NoWrap table n) (hi : i ∈ loads table n) {v : UINT64}
    (hv : (v - (table i).p_vaddr).toNat < (table i).p_memsz.toNat) :
    v.toNat = (table i).p_vaddr.toNat + (v - (table i).p_vaddr).toNat := by
  have := h i hi
  have := v.isLt
  have := (table i).p_vaddr.isLt
  rw [BitVec.toNat_sub] at hv ⊢
  omega

/-- Two segments share no address. -/
theorem WellFormed.disjoint (h : WellFormed file table n) {j : Nat} (hi : i ∈ loads table n)
    (hj : j ∈ loads table n) {v : UINT64}
    (hvi : (v - (table i).p_vaddr).toNat < (table i).p_memsz.toNat)
    (hvj : (v - (table j).p_vaddr).toNat < (table j).p_memsz.toNat) : i = j := by
  have hi' := h.noWrap.offset_lt hi hvi
  have hj' := h.noWrap.offset_lt hj hvj
  rcases Nat.lt_trichotomy i j with hlt | heq | hgt
  · have := h.ascending i hi j hj hlt
    omega
  · exact heq
  · have := h.ascending j hj i hi hgt
    omega

theorem WellFormed.covered (h : WellFormed file table n) (hi : i ∈ loads table n) {v : UINT64}
    (hv : (v - (table i).p_vaddr).toNat < (table i).p_filesz.toNat) :
    (v - (table i).p_vaddr).toNat < (table i).p_memsz.toNat :=
  Nat.lt_of_lt_of_le hv (BitVec.le_def.mp (h.filesz_le i hi))

/-- Where a segment has file bytes, the image has them. -/
theorem imageByte_file (h : WellFormed file table n) (hi : i ∈ loads table n) {v : UINT64}
    (hv : (v - (table i).p_vaddr).toNat < (table i).p_filesz.toNat) :
    imageByte file table n v =
      file.getD ((table i).p_offset.toNat + (v - (table i).p_vaddr).toNat) 0 := by
  induction n with
  | zero => exact absurd (mem_loads.mp hi).1 (Nat.not_lt_zero i)
  | succ n ih =>
    rw [imageByte]
    split
    · rename_i hc
      have hn : n ∈ loads table (n + 1) := mem_loads.mpr ⟨Nat.lt_succ_self n, hc.1⟩
      rw [h.disjoint hi hn (h.covered hi hv) (h.covered hn hc.2)]
    · rename_i hc
      refine ih h.prev (mem_loads.mpr ⟨?_, (mem_loads.mp hi).2⟩)
      rcases Nat.lt_succ_iff_lt_or_eq.mp (mem_loads.mp hi).1 with hlt | rfl
      · exact hlt
      · exact absurd ⟨(mem_loads.mp hi).2, hv⟩ hc

/-- Where no segment has file bytes, the image is zero. -/
theorem imageByte_zero {v : UINT64}
    (h : ∀ i ∈ loads table n, ¬ (v - (table i).p_vaddr).toNat < (table i).p_filesz.toNat) :
    imageByte file table n v = 0 := by
  induction n with
  | zero => rfl
  | succ n ih =>
    rw [imageByte, if_neg fun hc => h n (mem_loads.mpr ⟨Nat.lt_succ_self n, hc.1⟩) hc.2]
    exact ih fun i hi => h i (mem_loads.mpr
      ⟨Nat.lt_succ_of_lt (mem_loads.mp hi).1, (mem_loads.mp hi).2⟩)

/-- A segment of a well-formed file means its file bytes and then zeros. -/
theorem imageByte_segment (h : WellFormed file table n) (hi : i ∈ loads table n) {o : Nat}
    (ho : o < (table i).p_memsz.toNat) :
    imageByte file table n ((table i).p_vaddr + BitVec.ofNat 64 o) =
      if o < (table i).p_filesz.toNat then file.getD ((table i).p_offset.toNat + o) 0 else 0 := by
  have hoff : ((table i).p_vaddr + BitVec.ofNat 64 o - (table i).p_vaddr).toNat = o := by
    have := (table i).p_memsz.isLt
    exact add_ofNat_sub _ (by omega)
  by_cases hf : o < (table i).p_filesz.toNat
  · rw [if_pos hf, imageByte_file h hi (by rw [hoff]; exact hf), hoff]
  · rw [if_neg hf]
    refine imageByte_zero fun j hj hc => ?_
    have hij := h.disjoint hi hj (by rw [hoff]; exact ho) (h.covered hj hc)
    subst hij
    rw [hoff] at hc
    exact hf hc

end

/-! ## What the loader leaves in memory -/

section
variable {file : List UINT8} {table : Nat → Elf64_Phdr} {n : Nat} {A : UINT64} {mem : ByteMem}

/-- A segment's place keeps its distance from entry 0's address. -/
theorem sub_sectionAddress (table : Nat → Elf64_Phdr) (A y : UINT64) (i : Nat) :
    A + y - sectionAddress table A i = (table 0).p_vaddr + y - (table i).p_vaddr := by
  rw [sectionAddress]
  apply BitVec.eq_of_toNat_eq
  simp only [BitVec.toNat_sub, BitVec.toNat_add]
  omega

/-- Memory holds the image, counted from entry 0's address, where it held
zeros. -/
theorem loadedMem_at (hfile : file.length < 2 ^ 64) (h : WellFormed file table n) {y : UINT64}
    (hz : mem (A + y) = 0) :
    loadedMem file table A mem n (A + y) = imageByte file table n ((table 0).p_vaddr + y) := by
  induction n with
  | zero => exact hz
  | succ n ih =>
    have hdist := sub_sectionAddress table A y n
    rw [loadedMem, imageByte]
    by_cases hp : (table n).p_type = PT_LOAD
    · have hn : n ∈ loads table (n + 1) := mem_loads.mpr ⟨Nat.lt_succ_self n, hp⟩
      have hlen := delivered_length hfile (h.inFile n hn)
      rw [if_pos hp]
      simp only [hp, true_and]
      by_cases hin : ((table 0).p_vaddr + y - (table n).p_vaddr).toNat < (table n).p_filesz.toNat
      · rw [fill_inside (by rw [hdist, hlen]; exact hin), if_pos hin, hdist]
        exact delivered_getD hfile hin
      · rw [fill_outside (by rw [hdist, hlen]; exact hin), if_neg hin]
        exact ih h.prev
    · rw [if_neg hp, if_neg fun hc => hp hc.1]
      exact ih h.prev

end

/-! ## What the kernel sees -/

/-- The byte seen at `v`, when page `startAddress >> 12 + k` is mapped to
`AllocatedMemory + k * 4096` for every `k < pages`. -/
def mappedByte (mem : ByteMem) (AllocatedMemory startAddress : UINT64) (pages : Nat) (v : UINT64) :
    Option UINT8 :=
  let k := (v >>> EFI_PAGE_SHIFT) - (startAddress >>> EFI_PAGE_SHIFT)
  if k.toNat < pages then some (mem (AllocatedMemory + (k <<< EFI_PAGE_SHIFT + (v &&& EFI_PAGE_MASK))))
  else none

/-- Every address of every segment shows the byte the file means there. -/
def ImageVisible (file : List UINT8) (table : Nat → Elf64_Phdr) (n : Nat) (mem : ByteMem)
    (AllocatedMemory startAddress : UINT64) (pages : Nat) : Prop :=
  ∀ i ∈ loads table n, ∀ o < (table i).p_memsz.toNat,
    mappedByte mem AllocatedMemory startAddress pages ((table i).p_vaddr + BitVec.ofNat 64 o) =
      some (if o < (table i).p_filesz.toNat then file.getD ((table i).p_offset.toNat + o) 0 else 0)

/-- Every page of every segment is among those counted from entry 0's page. -/
def PagesMapped (table : Nat → Elf64_Phdr) (n : Nat) : Prop :=
  ∀ i ∈ loads table n, ∀ o < (table i).p_memsz.toNat,
    ((((table i).p_vaddr + BitVec.ofNat 64 o) >>> EFI_PAGE_SHIFT) -
      ((table 0).p_vaddr >>> EFI_PAGE_SHIFT)).toNat < spanPages table n

/-- The image is the same when it is read as far above each address as entry
0 lies above its page: always, if entry 0 starts a page. -/
def ShiftInvariant (file : List UINT8) (table : Nat → Elf64_Phdr) (n : Nat) : Prop :=
  ∀ i ∈ loads table n, ∀ o < (table i).p_memsz.toNat,
    imageByte file table n
        ((table i).p_vaddr + BitVec.ofNat 64 o + ((table 0).p_vaddr &&& EFI_PAGE_MASK)) =
      imageByte file table n ((table i).p_vaddr + BitVec.ofNat 64 o)

theorem shiftInvariant_of_aligned {file : List UINT8} {table : Nat → Elf64_Phdr} {n : Nat}
    (h : (table 0).p_vaddr &&& EFI_PAGE_MASK = 0#64) : ShiftInvariant file table n := by
  intro i _ o _
  rw [h, BitVec.add_zero]

/-- The mapping moves an address by its distance from entry 0's page. -/
theorem mapped_offset (v startAddress : UINT64) :
    startAddress + ((v >>> EFI_PAGE_SHIFT - startAddress >>> EFI_PAGE_SHIFT) <<< EFI_PAGE_SHIFT +
      (v &&& EFI_PAGE_MASK)) = v + (startAddress &&& EFI_PAGE_MASK) := by
  apply BitVec.eq_of_toNat_eq
  have := v.isLt
  have := startAddress.isLt
  simp only [BitVec.toNat_add, BitVec.toNat_sub, page_shift, shift_page, and_page_mask]
  omega

section
variable {file : List UINT8} {table : Nat → Elf64_Phdr} {n : Nat} {A : UINT64} {mem : ByteMem}
  {pages : Nat}

/-- What is seen at `v` is the image's byte at `v`, moved up by entry 0's
distance from its page. -/
theorem mappedByte_eq (hfile : file.length < 2 ^ 64) (h : WellFormed file table n)
    (hA : A.toNat + pages * 4096 ≤ 2 ^ 64) (hz : ∀ y < pages * 4096, mem (A + BitVec.ofNat 64 y) = 0) {v : UINT64}
    (hv : (v >>> EFI_PAGE_SHIFT - (table 0).p_vaddr >>> EFI_PAGE_SHIFT).toNat < pages) :
    mappedByte (loadedMem file table A mem n) A (table 0).p_vaddr pages v =
      some (imageByte file table n (v + ((table 0).p_vaddr &&& EFI_PAGE_MASK))) := by
  rw [mappedByte, if_pos hv, ← mapped_offset v (table 0).p_vaddr]
  generalize hy : (v >>> EFI_PAGE_SHIFT - (table 0).p_vaddr >>> EFI_PAGE_SHIFT) <<< EFI_PAGE_SHIFT +
    (v &&& EFI_PAGE_MASK) = y
  have hin : y.toNat < pages * 4096 := by
    rw [← hy, BitVec.toNat_add, page_shift, and_page_mask]
    omega
  refine congrArg some (loadedMem_at hfile h ?_)
  have := hz y.toNat hin
  rwa [BitVec.ofNat_toNat, BitVec.setWidth_eq] at this

/-- An image loaded over zeros is visible exactly if its pages are mapped and
it survives the shift. -/
theorem loadedMem_visible_iff (hfile : file.length < 2 ^ 64) (h : WellFormed file table n)
    (hA : A.toNat + spanPages table n * 4096 ≤ 2 ^ 64)
    (hz : ∀ y < spanPages table n * 4096, mem (A + BitVec.ofNat 64 y) = 0) :
    ImageVisible file table n (loadedMem file table A mem n) A (table 0).p_vaddr (spanPages table n) ↔
      PagesMapped table n ∧ ShiftInvariant file table n := by
  constructor
  · intro hvis
    have hpages : PagesMapped table n := by
      intro i hi o ho
      have := hvis i hi o ho
      by_contra hout
      rw [mappedByte, if_neg hout] at this
      cases this
    refine ⟨hpages, fun i hi o ho => ?_⟩
    have := hvis i hi o ho
    rw [mappedByte_eq hfile h hA hz (hpages i hi o ho), ← imageByte_segment h hi ho] at this
    exact Option.some.inj this
  · rintro ⟨hpages, hshift⟩ i hi o ho
    rw [mappedByte_eq hfile h hA hz (hpages i hi o ho), hshift i hi o ho, imageByte_segment h hi ho]

end

/-! ## The table in the file -/

section
variable {file : List UINT8} {header : Elf64_Ehdr} {pool : ByteMem} {table table' : Nat → Elf64_Phdr}
  {n : Nat}

theorem tableSize_toNat (header : Elf64_Ehdr) :
    (tableSize header).toNat = header.e_phnum.toNat * header.e_phentsize.toNat := by
  have hn := header.e_phnum.isLt
  have he := header.e_phentsize.isLt
  have hle : header.e_phnum.toNat * header.e_phentsize.toNat ≤ 65535 * 65535 :=
    Nat.mul_le_mul (by omega) (by omega)
  have hn64 : header.e_phnum.toNat % 2 ^ 64 = header.e_phnum.toNat := Nat.mod_eq_of_lt (by omega)
  have he64 : header.e_phentsize.toNat % 2 ^ 64 = header.e_phentsize.toNat :=
    Nat.mod_eq_of_lt (by omega)
  rw [tableSize, BitVec.toNat_mul, BitVec.toNat_setWidth, BitVec.toNat_setWidth, hn64, he64]
  exact Nat.mod_eq_of_lt (by omega)

/-- With entries of the size of the struct, the loader's table is the file's. -/
theorem headerTable_eq (hfile : file.length < 2 ^ 64) (hsize : header.e_phentsize.toNat = sizeofPhdr)
    (htab : header.e_phoff.toNat + header.e_phnum.toNat * sizeofPhdr ≤ file.length) {i : Nat}
    (hi : i < header.e_phnum.toNat) :
    headerTable pool (delivered file header.e_phoff (tableSize header)) i =
      programHeader file header i := by
  have hn := header.e_phnum.isLt
  have hs : sizeofPhdr = 56 := by decide
  have hts := tableSize_toNat header
  rw [hs] at hsize htab
  rw [hsize] at hts
  have hlen : (delivered file header.e_phoff (tableSize header)).length = header.e_phnum.toNat * 56 := by
    rw [delivered_length hfile (by omega), hts]
  refine loadPhdr_congr fun k hk => ?_
  rw [hs] at hk ⊢
  have hbyte : k < (file.drop (header.e_phoff.toNat + i * header.e_phentsize.toNat)).length := by
    rw [List.length_drop, hsize]
    omega
  rw [← BitVec.ofNat_add, fileBytes_at pool (by omega) (by omega), BitVec.zero_add,
    fileBytes_at _ hbyte (by omega), delivered_getD hfile (by omega), hsize]
  simp only [List.getD_eq_getElem?_getD, List.getElem?_drop]
  congr 2
  omega

end

/-- Segments among the pages counted from a page-aligned entry 0 are read
inside the allocated pages. -/
theorem segmentsFit_of_pagesMapped {table : Nat → Elf64_Phdr} {n : Nat} (hno : NoWrap table n)
    (hsize : ∀ i ∈ loads table n, (table i).p_filesz ≤ (table i).p_memsz)
    (haligned : (table 0).p_vaddr &&& EFI_PAGE_MASK = 0#64) (h : PagesMapped table n) :
    SegmentsFit table n := by
  intro i hi hz
  have hpos := filesz_pos hz
  have hle := BitVec.le_def.mp (hsize i hi)
  have hend := hno i hi
  have hstart := congrArg BitVec.toNat haligned
  rw [and_page_mask, BitVec.toNat_ofNat] at hstart
  have := (table 0).p_vaddr.isLt
  have hspan : spanPages table n ≤ 2 ^ 52 := by
    unfold spanPages
    omega
  -- the first byte is not below entry 0, the last one not behind the pages
  have hfirst := h i hi 0 (by omega)
  have hlast := h i hi ((table i).p_filesz.toNat - 1) (by omega)
  simp only [BitVec.toNat_sub, shift_page, BitVec.toNat_add, BitVec.toNat_ofNat] at hfirst hlast ⊢
  omega

/-- An image loaded at the first address: the segments of the file over
zeros, to be mapped from entry 0's page on. -/
structure LoadedFirst (p : BootParams) (header : Elf64_Ehdr) (image : Image) (startAddress : UINT64)
    (mem : ByteMem) : Prop where
  base : image.KernelBaseAddress = firstAddress
  start : 0 < header.e_phnum.toNat → startAddress = (programHeader p.file header 0).p_vaddr
  pages : image.KernelPages.toNat = spanPages (programHeader p.file header) header.e_phnum.toNat
  mem : ∃ before : ByteMem,
    mem = loadedMem p.file (programHeader p.file header) firstAddress before header.e_phnum.toNat ∧
    ∀ y < image.KernelPages.toNat * 4096, before (firstAddress + BitVec.ofNat 64 y) = 0

section
variable {fw : Firmware σ} {fuel : Nat} {p : BootParams} {header : Elf64_Ehdr}
  {s s₁ s₂ s₃ : LoaderState σ} {address startAddress : UINT64} {image : Image}

theorem loadImage_first (hsize : header.e_phentsize.toNat = sizeofPhdr)
    (htab : header.e_phoff.toNat + header.e_phnum.toNat * sizeofPhdr ≤ p.file.length)
    (hkept : TableKept fw fuel p header s) (hread : readTable fw p header s = .ok address s₁)
    (hfirst : allocateFirst fw (imagePages (headersAt address s₁.mem) header.e_phnum.toNat) s₁ =
      .ok false s₂)
    (hrun : loadImage fw fuel p header s = .ok (image, startAddress) s₃)
    (hmem : firstAddress.toNat + image.KernelPages.toNat * 4096 ≤ 2 ^ 64) :
    LoadedFirst p header image startAddress s₃.mem := by
  obtain ⟨_, t₁, A, t₂, t₃, w, hload, rfl, rfl, rfl⟩ := loadImage_ok hrun
  have hpages := hload.pages
  cases hread.symm.trans hload.table
  cases (allocateImage_first hfirst).symm.trans hpages
  have hsame : ∀ i < header.e_phnum.toNat, seenTable p header i = programHeader p.file header i :=
    fun i hi => headerTable_eq p.file_lt hsize htab hi
  dsimp only at hmem ⊢
  rw [imagePages_read hread] at hfirst hmem ⊢
  refine ⟨rfl, fun hn => ?_, ?_, s₂.mem, ?_, fun y hy => allocateFirst_zero hfirst y ?_⟩
  · rw [hload.intact hkept 0 (by omega), hsame 0 hn]
  · rw [imagePages, extent_congr hsame, ← imagePages, imagePages_toNat]
  · rw [(loadSegments_ok (hload.kept hkept).segments).1, loadedMem_congr hsame]
  · have : 0 < firstAddress.toNat := by decide
    rw [page_shift, Nat.mod_eq_of_lt (by omega)]
    exact hy

theorem LoadedFirst.visible_iff {mem : ByteMem} (h : LoadedFirst p header image startAddress mem)
    (hwf : WellFormed p.file (programHeader p.file header) header.e_phnum.toNat)
    (hmem : firstAddress.toNat + image.KernelPages.toNat * 4096 ≤ 2 ^ 64) :
    ImageVisible p.file (programHeader p.file header) header.e_phnum.toNat mem firstAddress
        startAddress image.KernelPages.toNat ↔
      PagesMapped (programHeader p.file header) header.e_phnum.toNat ∧
        ShiftInvariant p.file (programHeader p.file header) header.e_phnum.toNat := by
  obtain ⟨before, hm, hzero⟩ := h.mem
  rw [h.pages] at hmem hzero ⊢
  rw [hm]
  rcases Nat.eq_zero_or_pos header.e_phnum.toNat with hn | hn
  · -- without headers there is nothing to see
    rw [hn]
    have none : ∀ i, i ∉ loads (programHeader p.file header) 0 := fun i hi =>
      Nat.not_lt_zero i (mem_loads.mp hi).1
    exact ⟨fun _ => ⟨fun i hi => absurd hi (none i), fun i hi => absurd hi (none i)⟩,
      fun _ i hi => absurd hi (none i)⟩
  · rw [h.start hn]
    exact loadedMem_visible_iff p.file_lt hwf hmem hzero

end

/-- **The kernel image is visible at its link addresses**, in the memory with
which `MapVirtualPages` is called, exactly if all its pages are among those
mapped, counted from the page of table entry 0, and the image does not change
when it is shifted by entry 0's offset in its page. -/
theorem image_visible_iff (fw : Firmware σ) (fuel : Nat) (p : BootParams) (header : Elf64_Ehdr)
    (hsize : header.e_phentsize.toNat = sizeofPhdr)
    (htab : header.e_phoff.toNat + header.e_phnum.toNat * sizeofPhdr ≤ p.file.length)
    (hwf : WellFormed p.file (programHeader p.file header) header.e_phnum.toNat)
    {s s₁ s₂ s' : LoaderState σ} {address : UINT64} {image : Image}
    (hkept : TableKept fw fuel p header s) (hread : readTable fw p header s = .ok address s₁)
    (hfirst : allocateFirst fw (imagePages (headersAt address s₁.mem) header.e_phnum.toNat) s₁ =
      .ok false s₂)
    (hrun : loadElf fw fuel p header s = .ok image s')
    (hmem : firstAddress.toNat + image.KernelPages.toNat * 4096 ≤ 2 ^ 64) :
    ∃ startAddress s₃, loadImage fw fuel p header s = .ok (image, startAddress) s₃ ∧
      mapImage fw firstAddress startAddress image.KernelPages s₃ = .ok () s' ∧
      (ImageVisible p.file (programHeader p.file header) header.e_phnum.toNat s₃.mem firstAddress
          startAddress image.KernelPages.toNat ↔
        PagesMapped (programHeader p.file header) header.e_phnum.toNat ∧
          ShiftInvariant p.file (programHeader p.file header) header.e_phnum.toNat) := by
  obtain ⟨startAddress, s₃, himage, hmap⟩ := loadElf_ok hrun
  have h := loadImage_first hsize htab hkept hread hfirst himage hmem
  rw [h.base] at hmap
  exact ⟨startAddress, s₃, himage, hmap, h.visible_iff hwf hmem⟩

/-! ## Two files -/

def bootParams (file : List UINT8) [size : Fact (file.length < 2 ^ 64)] : BootParams where
  file := file
  file_lt := size.out
  stack := fun _ => 0
  pool := fun _ => 0
  ESPRootTemp := 0x20000
  ESPRootSize := 64
  Graphics := ⟨fun _ => ⟨1366, 1366, 768⟩, 1⟩
  UEFIVer := 0x20046
  unset := ⟨0, 0, 0, 0, 0, 0⟩

def atBoot : LoaderState Unit := ⟨(), 0, fun _ => 0xFF, []⟩

/-- On an obliging firmware a file is read, and its pages verify as zero. -/
theorem obliging_loads {p : BootParams} (hleaves : LeavesTable p)
    (hp : filePosition p.file (seenHeader p).e_phoff ≤ p.file.length)
    (hf : ∀ i ∈ loads (seenTable p (seenHeader p)) (seenHeader p).e_phnum.toNat,
      (seenTable p (seenHeader p) i).p_filesz ≠ 0 →
        filePosition p.file (seenTable p (seenHeader p) i).p_offset ≤ p.file.length) :
    TableKept obliging 0 p (seenHeader p) atBoot ∧
    ∃ address s₁ s₂ image s', readTable obliging p (seenHeader p) atBoot = .ok address s₁ ∧
      allocateFirst obliging (imagePages (headersAt address s₁.mem) (seenHeader p).e_phnum.toNat) s₁ =
        .ok false s₂ ∧
      loadElf obliging 0 p (seenHeader p) atBoot = .ok image s' ∧
      image.KernelPages = imagePages (seenTable p (seenHeader p)) (seenHeader p).e_phnum.toNat := by
  have hkept : TableKept obliging 0 p (seenHeader p) atBoot :=
    hleaves.kept obliging_obliging (fun _ _ => rfl) 0 trivial
  obtain ⟨address, s₁, hread, _⟩ := (readTable_runs obliging_obliging hp).ok (s := atBoot) trivial
  obtain ⟨notZero, s₂, hfirst, rfl, _⟩ := (allocateFirst_runs obliging_obliging
    (imagePages (headersAt address s₁.mem) (seenHeader p).e_phnum.toNat) s₁.mem).ok (s := s₁)
    ⟨trivial, rfl⟩
  obtain ⟨image, s', hrun, _⟩ := loadElf_obliges obliging_obliging (s := atBoot) trivial hkept hp hf
  obtain ⟨startAddress, s₃, himage, _⟩ := loadElf_ok hrun
  obtain ⟨_, _, _, _, _, _, hload, rfl, _⟩ := loadImage_ok himage
  exact ⟨hkept, address, s₁, s₂, _, s', hread, hfirst, hrun, imagePages_read hload.table⟩

/-- Four bytes of text and, behind them, eight bytes of data of which two
are in the file. -/
def twoSegments : List UINT8 :=
  linkedFile 0xFFFFFFFFC0000000
    [⟨PT_LOAD, 5, 176, 0xFFFFFFFFC0000000, 0xFFFFFFFFC0000000, 4, 4, 16⟩,
      ⟨PT_LOAD, 6, 192, 0xFFFFFFFFC0000010, 0xFFFFFFFFC0000010, 2, 8, 16⟩]
    (bytesOf 16 0xFEEB9090 ++ [1, 2])

instance twoSegments_size : Fact (twoSegments.length < 2 ^ 64) := ⟨by decide +kernel⟩

set_option maxRecDepth 20000 in
theorem twoSegments_wellFormed :
    WellFormed twoSegments (programHeader twoSegments (seenHeader (bootParams twoSegments))) 2 :=
  ⟨by unfold NoWrap; decide, by decide, by decide, by decide, by decide⟩

set_option maxRecDepth 20000 in
theorem twoSegments_leavesTable : LeavesTable (bootParams twoSegments) :=
  ⟨by unfold SegmentsFit; decide, by decide, by decide⟩

set_option maxRecDepth 20000 in
theorem image_visible_twoSegments :
    ∃ image s' startAddress s₃,
      loadElf obliging 0 (bootParams twoSegments) (seenHeader (bootParams twoSegments)) atBoot =
        .ok image s' ∧
      loadImage obliging 0 (bootParams twoSegments) (seenHeader (bootParams twoSegments)) atBoot =
        .ok (image, startAddress) s₃ ∧
      ImageVisible twoSegments (programHeader twoSegments (seenHeader (bootParams twoSegments)))
        (seenHeader (bootParams twoSegments)).e_phnum.toNat s₃.mem firstAddress startAddress
        image.KernelPages.toNat := by
  obtain ⟨hkept, address, s₁, s₂, image, s', hread, hfirst, hrun, hpages⟩ :=
    obliging_loads twoSegments_leavesTable (by decide) (by decide)
  obtain ⟨startAddress, s₃, himage, _, hiff⟩ := image_visible_iff obliging 0 (bootParams twoSegments)
    (seenHeader (bootParams twoSegments)) (by decide) (by decide) twoSegments_wellFormed
    hkept hread hfirst hrun (by rw [hpages]; decide)
  exact ⟨image, s', startAddress, s₃, hrun, himage,
    hiff.mpr ⟨by unfold PagesMapped; decide, shiftInvariant_of_aligned (by decide)⟩⟩

/-- One segment that does not start a page. -/
def unalignedStart : List UINT8 :=
  linkedFile 0xFFFFFFFFC0000010
    [⟨PT_LOAD, 5, 128, 0xFFFFFFFFC0000010, 0xFFFFFFFFC0000010, 2, 2, 16⟩] (bytesOf 8 0 ++ [0xEB, 0xFE])

instance unalignedStart_size : Fact (unalignedStart.length < 2 ^ 64) := ⟨by decide +kernel⟩

set_option maxRecDepth 20000 in
/-- The first byte of the segment is seen 16 bytes below its address, and at
its address there is a zero. -/
theorem image_not_visible_unalignedStart :
    WellFormed unalignedStart (programHeader unalignedStart (seenHeader (bootParams unalignedStart))) 1 ∧
    ∃ image s' startAddress s₃,
      loadElf obliging 0 (bootParams unalignedStart) (seenHeader (bootParams unalignedStart)) atBoot =
        .ok image s' ∧
      loadImage obliging 0 (bootParams unalignedStart) (seenHeader (bootParams unalignedStart)) atBoot =
        .ok (image, startAddress) s₃ ∧
      mapImage obliging firstAddress startAddress image.KernelPages s₃ = .ok () s' ∧
      ¬ ImageVisible unalignedStart
        (programHeader unalignedStart (seenHeader (bootParams unalignedStart))) 1 s₃.mem firstAddress
        startAddress image.KernelPages.toNat := by
  have hwf : WellFormed unalignedStart
      (programHeader unalignedStart (seenHeader (bootParams unalignedStart))) 1 :=
    ⟨by unfold NoWrap; decide, by decide, by decide, by decide, by decide⟩
  obtain ⟨hkept, address, s₁, s₂, image, s', hread, hfirst, hrun, hpages⟩ := obliging_loads
    (show LeavesTable (bootParams unalignedStart) from ⟨by unfold SegmentsFit; decide, by decide, by decide⟩)
    (by decide) (by decide)
  have hmem : firstAddress.toNat + image.KernelPages.toNat * 4096 ≤ 2 ^ 64 := by
    rw [hpages]
    decide
  obtain ⟨startAddress, s₃, himage, hmap⟩ := loadElf_ok hrun
  have h := loadImage_first (by decide) (by decide) hkept hread hfirst himage hmem
  rw [h.base] at hmap
  refine ⟨hwf, image, s', startAddress, s₃, hrun, himage, hmap, fun hvis => ?_⟩
  have hshift := ((h.visible_iff hwf hmem).mp hvis).2 0 (by decide) 0 (by decide)
  revert hshift
  decide

end PiousOS.Loader
