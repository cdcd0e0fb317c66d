import PiousOS.L3Loader.KernelEntry

/-!
# The memory under the image

The loader zeroes the first pages it gets and verifies them. Pages it finds by
searching it only verifies, and it takes pages that are not zero where they
start like an ELF file. Whatever the file does not overwrite there, the
kernel finds in its uninitialised data.

* `allocateImage_accepts`: the pages the loader goes on with were granted, and
  they are zero or start like an ELF file;
* `loadedMem_unread`: the segment loop changes no other bytes than those it
  reads from the file;
* `kernel_data_zeroed`: the data is zero as the segment loop starts, unless the
  loader took such remains with anything else than zeros under the image, and
  is zero still when the kernel is entered.
-/
namespace PiousOS.Loader
open ByteMem Elf EarlyExit

variable {σ : Type}

/-! ## What the search accepts -/

/-- The firmware can grant the pages at `a`. -/
def Grants (fw : Firmware σ) (pages : UINTN) (a : UINT64) : Prop :=
  ∃ w, EFI_ERROR (fw.AllocatePages pages a w).1 = false

/-- Memory as the loader searches it: zeros at the first address, and what
others write. -/
def searchedMem (fw : Firmware σ) (pages : UINTN) (s : LoaderState σ) : ByteMem :=
  fw.strayWrites (fw.AllocatePages pages firstAddress s.firmware).2
    (fill s.mem firstAddress (pages <<< EFI_PAGE_SHIFT).toNat fun _ => 0)

/-- What the loader goes on with: zeros, or its own remains. -/
def Accepts (pages : UINTN) (mem : ByteMem) (a : UINT64) : Prop :=
  VerifyZeroMem mem (pages <<< EFI_PAGE_SHIFT) a = false ∨ ownRemains mem a = true

section
variable {fw : Firmware σ} {fuel : Nat} {pages : UINTN} {OldAllocatedMemory : UINT64} {mem : ByteMem}

/-- Where a search loop stops, it has been granted the pages or has ended. -/
theorem allocateAt_grants {search : UINT64 → Boot σ UINT64}
    (hs : ∀ a, KeepsInv (SameMem mem) Exit.Stops (search a)) {ended giveUp : UINT64 → Bool}
    {BootStatus : EFI_STATUS} {a : UINT64} (ha : BootStatus = EFI_SUCCESS → Grants fw pages a) :
    Triple (SameMem mem)
      (allocateAt fw search pages OldAllocatedMemory ended giveUp fuel BootStatus a)
      (fun b s => (Grants fw pages b ∨ ended b = true) ∧ SameMem mem s) fun _ _ => True := by
  induction fuel generalizing BootStatus a with
  | zero => exact Triple.throw fun _ _ => trivial
  | succ fuel ih =>
    unfold allocateAt
    refine Triple.ite (fun hstop => Triple.pure fun s h => ⟨hstop.imp ha id, h⟩) fun _ => ?_
    refine Triple.bind ((addressAfter_keeps OldAllocatedMemory hs BootStatus a).consequence
      (fun _ h => h) (fun _ _ h => h.2) fun _ _ _ => trivial) fun b => ?_
    refine Triple.ite (fun _ => Triple.throw fun _ _ => trivial) fun _ => ?_
    refine Triple.bind (R := fun st s => (st = EFI_SUCCESS → Grants fw pages b) ∧ SameMem mem s)
      (fun s h => ⟨fun hst => ⟨s.firmware, ?_⟩, h⟩) fun st s h => ih h.1 s h.2
    rw [hst]
    exact EFI_ERROR_success

/-- What a verification loop goes on with was granted and is accepted. -/
theorem untilClear_accepts {again : UINT64 → Boot σ UINT64} (ended : UINT64 → Bool)
    (hagain : ∀ a, Triple (SameMem mem) (again a)
      (fun b s => (Grants fw pages b ∨ ended b = true) ∧ SameMem mem s) fun _ _ => True)
    {a : UINT64} (ha : Grants fw pages a ∨ ended a = true) :
    Triple (SameMem mem) (untilClear fw pages ended again fuel a)
      (fun b s => (ended b = true ∨ Grants fw pages b ∧ Accepts pages mem b) ∧ SameMem mem s)
      fun _ _ => True := by
  induction fuel generalizing a with
  | zero => exact Triple.throw fun _ _ => trivial
  | succ fuel ih =>
    unfold untilClear
    have hget : Triple (SameMem mem) (get : Boot σ (LoaderState σ)) (fun s₁ s => s₁.mem = mem ∧ SameMem mem s)
        fun _ _ => True := fun s h => ⟨h, h⟩
    refine Triple.bind hget fun s₁ => ?_
    refine Triple.ite (fun hstop => ?_) fun hdirty => Triple.ite (fun hown => ?_) fun _ => ?_
    · refine Triple.pure fun s h => ⟨?_, h.2⟩
      rw [h.1] at hstop
      rcases hstop with hend | hzero
      · exact .inl hend
      · exact ha.symm.imp_right fun hg => ⟨hg, .inl hzero⟩
    · refine Triple.pure fun s h => ⟨?_, h.2⟩
      rw [h.1] at hown
      exact ha.symm.imp_right fun hg => ⟨hg, .inr hown⟩
    · refine Triple.bind (R := fun _ => SameMem mem) (fun s h => h.2) fun st => ?_
      refine Triple.bind (R := fun _ => SameMem mem)
        ((stops_check st).early fun _ _ _ => trivial) fun _ => ?_
      exact Triple.bind (hagain a) fun b s h => ih h.1 s h.2

theorem searchRegions_accepts : Triple (SameMem mem) (searchRegions fw fuel pages OldAllocatedMemory)
    (fun b s => (b = noAddress ∨ Grants fw pages b ∧ Accepts pages mem b) ∧ SameMem mem s)
    fun _ _ => True := by
  have hs := ActuallyFreeAddress_keeps (sameMem_fileOnly mem).call fw fuel pages
  refine Triple.bind (R := fun st s => (st = EFI_SUCCESS → Grants fw pages 0) ∧ SameMem mem s)
    (fun s h => ⟨fun hst => ⟨s.firmware, by rw [hst]; exact EFI_ERROR_success⟩, h⟩) fun st => ?_
  refine Triple.bind (fun s h => allocateAt_grants hs h.1 s h.2) fun a s h => ?_
  have hgrant : Grants fw pages a ∨ (a == noAddress) = true := .inl (h.1.resolve_right (by decide))
  exact (untilClear_accepts (· == noAddress)
    (fun b => allocateAt_grants hs fun h0 => absurd h0 (by decide)) hgrant).post
    (fun b _ h => ⟨h.1.imp_left eq_of_beq, h.2⟩) s h.2

theorem searchPages_accepts : Triple (SameMem mem) (searchPages fw fuel pages OldAllocatedMemory)
    (fun b s => (Grants fw pages b ∧ Accepts pages mem b) ∧ SameMem mem s) fun _ _ => True := by
  have hI := (sameMem_fileOnly (σ := σ) mem).call
  have hs := ActuallyFreeAddressByPage_keeps hI fw fuel pages
  refine Triple.bind ((ActuallyFreeAddress_keeps hI fw fuel pages 0).early fun _ _ _ => trivial)
    fun a => ?_
  refine Triple.bind (allocateAt_grants hs fun h0 => absurd h0 (by decide)) fun b s h => ?_
  exact (untilClear_accepts (fun _ => false)
    (fun c => allocateAt_grants hs fun h0 => absurd h0 (by decide)) h.1).post
    (fun _ _ h => ⟨h.1.resolve_left (by decide), h.2⟩) s h.2

theorem allocateFirst_searched {s s' : LoaderState σ} {notZero : Bool}
    (h : allocateFirst fw pages s = .ok notZero s') :
    s'.mem = searchedMem fw pages s ∧ Grants fw pages firstAddress ∧
      notZero = VerifyZeroMem s'.mem (pages <<< EFI_PAGE_SHIFT) firstAddress := by
  obtain ⟨st, s₁, h₁, hcheck⟩ := ok_of_bind h
  obtain ⟨_, s₂, h₂, hzero⟩ := ok_of_bind hcheck
  obtain ⟨hst, rfl⟩ := check_ok h₂
  obtain ⟨_, s₃, h₃, hget⟩ := ok_of_bind hzero
  cases h₁
  cases h₃
  cases hget
  exact ⟨rfl, ⟨s.firmware, hst⟩, rfl⟩

/-- The pages the loader goes on with were granted and are accepted, and
memory is as it was searched. -/
theorem allocateImage_accepts {s t : LoaderState σ} {A : UINT64}
    (h : allocateImage fw fuel pages s = .ok A t) :
    t.mem = searchedMem fw pages s ∧ Grants fw pages A ∧ Accepts pages t.mem A := by
  obtain ⟨notZero, s₁, h₁, hrest⟩ := ok_of_bind h
  obtain ⟨hmem, hgrant, hverify⟩ := allocateFirst_searched h₁
  cases notZero with
  | false =>
    cases hrest
    exact ⟨hmem, hgrant, .inl hverify.symm⟩
  | true =>
    obtain ⟨s₂, s₃, hget, hown⟩ := ok_of_bind hrest
    cases hget
    by_cases ho : ownRemains s₁.mem firstAddress = true
    · rw [if_pos ho] at hown
      cases hown
      exact ⟨hmem, hgrant, .inr ho⟩
    · rw [if_neg ho] at hown
      obtain ⟨st, s₄, h₄, hfree⟩ := ok_of_bind hown
      obtain ⟨_, s₅, h₅, hsearch⟩ := ok_of_bind hfree
      obtain ⟨_, rfl⟩ := check_ok h₅
      cases h₄
      obtain ⟨b, s₆, h₆, hpages⟩ := ok_of_bind hsearch
      have hstart : SameMem s₁.mem { s₁ with firmware := (fw.FreePages firstAddress pages s₁.firmware).2 } :=
        rfl
      obtain ⟨hregion, hsame⟩ := searchRegions_accepts.ok hstart h₆
      by_cases hb : b = noAddress
      · rw [if_pos hb] at hpages
        obtain ⟨⟨hA, haccept⟩, hsame'⟩ := searchPages_accepts.ok hsame hpages
        rw [hsame']
        exact ⟨hmem, hA, haccept⟩
      · rw [if_neg hb] at hpages
        cases hpages
        obtain ⟨hA, haccept⟩ := hregion.resolve_left hb
        rw [hsame]
        exact ⟨hmem, hA, haccept⟩

end

/-! ## What the file does not overwrite -/

/-- The segment loop overwrites `x` with a byte of the file. -/
def FileByteAt (file : List UINT8) (table : Nat → Elf64_Phdr) (n : Nat) (A x : UINT64) : Prop :=
  ∃ i ∈ loads table n, (x - sectionAddress table A i).toNat <
    (delivered file (table i).p_offset (table i).p_filesz).length

/-- The allocated pages at `A` hold zeros where no byte of the file goes. -/
def UnreadZero (file : List UINT8) (table : Nat → Elf64_Phdr) (n : Nat) (A : UINT64)
    (mem : ByteMem) : Prop :=
  ∀ y < (imagePages table n <<< EFI_PAGE_SHIFT).toNat,
    ¬ FileByteAt file table n A (A + BitVec.ofNat 64 y) → mem (A + BitVec.ofNat 64 y) = 0

/-- The pages at `A` start like an ELF file and hold something else than zeros
where no byte of the file goes. -/
def DirtyRemains (file : List UINT8) (table : Nat → Elf64_Phdr) (n : Nat) (A : UINT64)
    (mem : ByteMem) : Prop :=
  ownRemains mem A = true ∧ ∃ y < (imagePages table n <<< EFI_PAGE_SHIFT).toNat,
    ¬ FileByteAt file table n A (A + BitVec.ofNat 64 y) ∧ mem (A + BitVec.ofNat 64 y) ≠ 0

/-- Every segment lies in the allocated pages. -/
def InAllocation (table : Nat → Elf64_Phdr) (n : Nat) : Prop :=
  ∀ i ∈ loads table n, ((table i).p_vaddr - (table 0).p_vaddr).toNat + (table i).p_memsz.toNat ≤
    (imagePages table n <<< EFI_PAGE_SHIFT).toNat

section
variable {file : List UINT8} {table : Nat → Elf64_Phdr} {n : Nat} {A : UINT64} {mem : ByteMem}

theorem unreadZero_iff (h : Accepts (imagePages table n) mem A) :
    UnreadZero file table n A mem ↔ ¬ DirtyRemains file table n A mem := by
  constructor
  · rintro hzero ⟨-, y, hy, hunread, hdirty⟩
    exact hdirty (hzero y hy hunread)
  · intro hclean y hy hunread
    rcases h with hzero | hremains
    · exact VerifyZeroMem_false_iff.mp hzero y hy
    · by_contra hdirty
      exact hclean ⟨hremains, y, hy, hunread, hdirty⟩

theorem loadedMem_unread {x : UINT64} (h : ¬ FileByteAt file table n A x) :
    loadedMem file table A mem n x = mem x := by
  induction n with
  | zero => rfl
  | succ n ih =>
    have hprev : ¬ FileByteAt file table n A x := fun ⟨i, hi, hx⟩ =>
      h ⟨i, mem_loads.mpr ⟨Nat.lt_succ_of_lt (mem_loads.mp hi).1, (mem_loads.mp hi).2⟩, hx⟩
    rw [loadedMem]
    by_cases hp : (table n).p_type = PT_LOAD
    · have hn : n ∈ loads table (n + 1) := mem_loads.mpr ⟨Nat.lt_succ_self n, hp⟩
      rw [if_pos hp, fill_outside fun hx => h ⟨n, hn, hx⟩, ih hprev]
    · rw [if_neg hp, ih hprev]

/-- In a well-formed file the bytes of a segment behind its file bytes are
nobody's file bytes. -/
theorem not_fileByteAt_tail (hfileSize : file.length < 2 ^ 64) (hwf : WellFormed file table n) {i o : Nat} (hi : i ∈ loads table n)
    (hfile : (table i).p_filesz.toNat ≤ o) (ho : o < (table i).p_memsz.toNat) :
    ¬ FileByteAt file table n A (sectionAddress table A i + BitVec.ofNat 64 o) := by
  rintro ⟨j, hj, hx⟩
  have hoff : ((table i).p_vaddr + BitVec.ofNat 64 o - (table i).p_vaddr).toNat = o := by
    have := (table i).p_memsz.isLt
    exact add_ofNat_sub _ (by omega)
  have hdist : sectionAddress table A i + BitVec.ofNat 64 o - sectionAddress table A j =
      (table i).p_vaddr + BitVec.ofNat 64 o - (table j).p_vaddr := by
    rw [sectionAddress.eq_def table A i, BitVec.add_assoc, sub_sectionAddress, ← BitVec.add_assoc,
      BitVec.add_comm (table 0).p_vaddr, BitVec.sub_add_cancel]
  rw [hdist, delivered_length hfileSize (hwf.inFile j hj)] at hx
  have hij := hwf.disjoint hi hj (by rw [hoff]; exact ho) (hwf.covered hj hx)
  subst hij
  rw [hoff] at hx
  omega

/-- Behind its file bytes a segment lies in the pages, at an offset where the
file has nothing. -/
theorem tail_unread (hfileSize : file.length < 2 ^ 64) (hwf : WellFormed file table n)
    (hin : InAllocation table n) {i o : Nat} (hi : i ∈ loads table n)
    (hfile : (table i).p_filesz.toNat ≤ o) (ho : o < (table i).p_memsz.toNat) :
    ∃ y < (imagePages table n <<< EFI_PAGE_SHIFT).toNat,
      sectionAddress table A i + BitVec.ofNat 64 o = A + BitVec.ofNat 64 y ∧
      ¬ FileByteAt file table n A (A + BitVec.ofNat 64 y) := by
  have hfits := hin i hi
  have hplace : sectionAddress table A i + BitVec.ofNat 64 o =
      A + BitVec.ofNat 64 (((table i).p_vaddr - (table 0).p_vaddr).toNat + o) := by
    rw [sectionAddress, BitVec.ofNat_add, BitVec.ofNat_toNat, BitVec.setWidth_eq, BitVec.add_assoc]
  refine ⟨_, by omega, hplace, ?_⟩
  rw [← hplace]
  exact not_fileByteAt_tail hfileSize hwf hi hfile ho

end

/-! ## The kernel's uninitialised data -/

section
variable {fw : Firmware σ} {fuel : Nat} {p : BootParams} {s s₁ u t : LoaderState σ} {address A : UINT64}

/-- From the segment loop to the kernel, the bytes of the pages that no file
byte goes to stay as they are. -/
theorem unread_kept (helf : ElfBranch fw p s s₁)
    (hread : readTable fw p (seenHeader p) s₁ = .ok address u)
    (halloc : allocateImage fw fuel (imagePages (headersAt address u.mem) (seenHeader p).e_phnum.toNat) u =
      .ok A t)
    (hkept : KeepsTable fw fuel p s) (hmap : CanMapImage fw fuel p s) {entry : Entry} {s' : LoaderState σ}
    (hboot : bootKernel fw fuel p s = .ok entry s') {y : Nat}
    (hy : y < (imagePages (seenTable p (seenHeader p)) (seenHeader p).e_phnum.toNat <<< EFI_PAGE_SHIFT).toNat)
    (hunread : ¬ FileByteAt p.file (seenTable p (seenHeader p)) (seenHeader p).e_phnum.toNat A
      (A + BitVec.ofNat 64 y)) :
    s'.mem (A + BitVec.ofNat 64 y) = t.mem (A + BitVec.ofNat 64 y) := by
  obtain ⟨s₀, hopen, hheader⟩ := helf.header
  rw [bootKernel, bind_of_ok hopen, bind_of_ok hheader] at hboot
  obtain ⟨image, s₂, hkernel, hhand⟩ := ok_of_bind hboot
  obtain ⟨startAddress, s₃, himage, hmapped⟩ := loadElf_ok (loadKernel_ok helf.magic hkernel).2
  have hcan := hmap s₁ image startAddress s₃ helf himage
  obtain ⟨_, _, _, _, u₃, w, hload, rfl, rfl, rfl⟩ := loadImage_ok himage
  cases hread.symm.trans hload.table
  cases halloc.symm.trans hload.pages
  cases hmapped
  have hmem : s'.mem = _ := (handOver_mem _ p _).ok rfl hhand
  rw [imagePages_read hread] at hmem hcan
  rw [page_shift] at hy
  have hspared := hcan.spares 3#32 (x := A + BitVec.ofNat 64 y)
    (by rw [add_ofNat_sub _ (by omega)]; exact Nat.lt_of_lt_of_le hy (Nat.mod_le _ _))
  rw [hmem]
  refine hspared.trans ?_
  show u₃.mem _ = _
  rw [(loadSegments_ok (hload.kept (hkept s₁ helf)).segments).1, loadedMem_unread hunread]

end

/-- **The kernel starts with zeroed uninitialised data**: as the segment loop
starts, the allocated pages hold zeros where no byte of the file goes, exactly
if they are no dirty remains; and if they are not, what is behind the file
bytes of a segment is zero when the kernel is entered. -/
theorem kernel_data_zeroed (fw : Firmware σ) (fuel : Nat) (p : BootParams) {s s₁ u t : LoaderState σ}
    {address A : UINT64} (helf : ElfBranch fw p s s₁)
    (hread : readTable fw p (seenHeader p) s₁ = .ok address u)
    (halloc : allocateImage fw fuel (imagePages (headersAt address u.mem) (seenHeader p).e_phnum.toNat) u =
      .ok A t) :
    let table := seenTable p (seenHeader p)
    let n := (seenHeader p).e_phnum.toNat
    (UnreadZero p.file table n A t.mem ↔ ¬ DirtyRemains p.file table n A t.mem) ∧
    (¬ DirtyRemains p.file table n A t.mem → KeepsTable fw fuel p s → CanMapImage fw fuel p s →
      WellFormed p.file table n → InAllocation table n →
      ∀ entry s', bootKernel fw fuel p s = .ok entry s' → ∀ i ∈ loads table n, ∀ o,
        (table i).p_filesz.toNat ≤ o → o < (table i).p_memsz.toNat →
          s'.mem (sectionAddress table A i + BitVec.ofNat 64 o) = 0) := by
  intro table n
  have haccept := (allocateImage_accepts halloc).2.2
  rw [imagePages_read hread] at haccept
  have hiff : UnreadZero p.file table n A t.mem ↔ _ := unreadZero_iff haccept
  refine ⟨hiff, fun hclean hkept hmap hwf hin entry s' hboot i hi o hfile ho => ?_⟩
  obtain ⟨y, hy, hplace, hunread⟩ := tail_unread (A := A) p.file_lt hwf hin hi hfile ho
  rw [hplace, unread_kept helf hread halloc hkept hmap hboot hy hunread]
  exact hiff.mpr hclean y hy hunread

/-! ## Two runs -/

abbrev twoTable : Nat → Elf64_Phdr := seenTable (bootParams twoSegments) (seenHeader (bootParams twoSegments))

theorem ownRemains_head {mem : ByteMem} {a : UINT64} (h : ownRemains mem a = true) : mem a = 0x7F := by
  have hhead := Compare_iff.mp h 0 (by decide)
  rwa [bytesAt, BitVec.add_zero] at hhead

set_option maxRecDepth 20000 in
theorem twoTable_wellFormed : WellFormed twoSegments twoTable 2 :=
  ⟨by unfold NoWrap; decide, by decide, by decide, by decide, by decide⟩

set_option maxRecDepth 20000 in
/-- The data of the second segment that is not in the file is zero. -/
theorem kernel_data_zeroed_twoSegments :
    ∃ entry s', bootKernel (tenDescriptors false) 0 (bootParams twoSegments) atBootUnmapped = .ok entry s' ∧
      ∀ o, 2 ≤ o → o < 8 → s'.mem (sectionAddress twoTable firstAddress 1 + BitVec.ofNat 64 o) = 0 := by
  obtain ⟨entry, s', hrun⟩ := enters_unmapped twoSegments_loadable twoSegments_leavesTable
  have hobliges := tenDescriptors_obliging false
  obtain ⟨_, s₀, hopen, hs₀⟩ := (openKernel_runs (p := bootParams twoSegments) hobliges).ok
    (s := atBootUnmapped) rfl
  obtain ⟨_, s₁, hheader, rfl, hs₁⟩ := (readHeader_runs (p := bootParams twoSegments)
    hobliges.toReadsFile).ok hs₀
  have htable : Runs (fun s => s.firmware = untouched)
      (readTable (tenDescriptors false) (bootParams twoSegments) (seenHeader (bootParams twoSegments)))
      fun _ s => s.firmware = untouched := readTable_runs hobliges (by decide)
  obtain ⟨address, u, hread, hu⟩ := htable.ok hs₁
  obtain ⟨A, t, halloc, rfl, -, hzeroed⟩ := (allocateImage_runs hobliges 0 (imagePages
    (headersAt address u.mem) (seenHeader (bootParams twoSegments)).e_phnum.toNat) u.mem).ok ⟨hu, rfl⟩
  -- the pages were zeroed, so they do not start like an ELF file
  have hclean : ¬ DirtyRemains twoSegments twoTable (seenHeader (bootParams twoSegments)).e_phnum.toNat
      firstAddress t.mem := by
    rintro ⟨hown, -⟩
    have hhead := ownRemains_head hown
    rw [hzeroed, imagePages_read hread, zeroedFirst, fill_inside (by decide)] at hhead
    cases hhead
  have hdata := (kernel_data_zeroed (tenDescriptors false) 0 (bootParams twoSegments)
    ⟨⟨s₀, hopen, hheader⟩, by decide, by decide⟩ hread halloc).2 hclean
    (keepsTable_unmapped twoSegments_leavesTable) twoSegments_canMapImage twoTable_wellFormed
    (by unfold InAllocation; decide) entry s' hrun 1 (by decide)
  have hfilesz : (twoTable 1).p_filesz.toNat = 2 := by decide
  have hmemsz : (twoTable 1).p_memsz.toNat = 8 := by decide
  exact ⟨entry, s', hrun, fun o hlow hhigh => hdata o (hfilesz.le.trans hlow) (hhigh.trans_eq hmemsz.symm)⟩

/-- Others write to the first page while it is verified. -/
def leftovers : Firmware Unit :=
  { obliging with strayWrites := fun _ mem => fill mem firstAddress 1 fun _ => 1 }

/-- Memory after a reset: an old image at address 0. -/
def afterReset : LoaderState Unit := { atBoot with mem := fill atBoot.mem 0 4 ELFMAG }

section
variable {pages : UINTN} (hp : (pages <<< EFI_PAGE_SHIFT).toNat = 4096)
include hp

theorem verify_dirty {mem : ByteMem} {a : UINT64} (h : mem a ≠ 0) :
    VerifyZeroMem mem (pages <<< EFI_PAGE_SHIFT) a = true := by
  rw [← Bool.not_eq_false, VerifyZeroMem_false_iff, hp]
  intro hzero
  have hfirst := hzero 0 (by decide)
  rw [BitVec.add_zero] at hfirst
  exact h hfirst

theorem leftovers_low {x : UINT64} (hx : x < firstAddress) :
    searchedMem leftovers pages afterReset x = afterReset.mem x := by
  have hfar : 4096 ≤ (x - firstAddress).toNat := by
    have hlt := BitVec.lt_def.mp hx
    have hfirst : firstAddress.toNat = 0x40000000 := rfl
    rw [hfirst] at hlt
    rw [BitVec.toNat_sub, hfirst]
    omega
  show fill (fill afterReset.mem firstAddress (pages <<< EFI_PAGE_SHIFT).toNat fun _ => 0)
    firstAddress 1 (fun _ => 1) x = afterReset.mem x
  rw [fill_outside (by omega), fill_outside (by omega)]

theorem leftovers_own : ownRemains (searchedMem leftovers pages afterReset) 0 = true := by
  have hbytes : ∀ i < 4, (0 : UINT64) + BitVec.ofNat 64 i < firstAddress ∧
      afterReset.mem (0 + BitVec.ofNat 64 i) = ELFMAG i := by decide
  refine Compare_iff.mpr fun i hi => ?_
  rw [bytesAt, leftovers_low hp (hbytes i hi).1, (hbytes i hi).2]

/-- The first address does not verify, and the old image at address 0 is
taken. -/
theorem leftovers_allocate : ∃ t, allocateImage leftovers 1 pages afterReset = .ok 0 t ∧
    t.mem = searchedMem leftovers pages afterReset := by
  have hown := leftovers_own hp
  have hfirst : searchedMem leftovers pages afterReset firstAddress = 1 := by
    show fill (fill afterReset.mem firstAddress (pages <<< EFI_PAGE_SHIFT).toNat fun _ => 0)
      firstAddress 1 (fun _ => 1) firstAddress = 1
    exact fill_inside (by decide)
  have hother : ¬ ownRemains (searchedMem leftovers pages afterReset) firstAddress = true := by
    intro h
    have hhead := ownRemains_head h
    rw [hfirst] at hhead
    cases hhead
  have hdirty : VerifyZeroMem (searchedMem leftovers pages afterReset) (pages <<< EFI_PAGE_SHIFT)
      firstAddress = true := verify_dirty hp (by rw [hfirst]; decide)
  have hdirty₀ : VerifyZeroMem (searchedMem leftovers pages afterReset) (pages <<< EFI_PAGE_SHIFT)
      0 = true := verify_dirty hp (by rw [ownRemains_head hown]; decide)
  have hmem : ∀ t : LoaderState Unit, t = { afterReset with mem := searchedMem leftovers pages afterReset } →
      allocateFirst leftovers pages afterReset = .ok true t := by
    rintro t rfl
    rw [allocateFirst, bind_of_ok (show call (leftovers.AllocatePages pages firstAddress) afterReset =
      .ok EFI_SUCCESS afterReset from rfl), bind_of_ok (check_of_ok EFI_ERROR_success), ← hdirty]
    rfl
  generalize ht : ({ afterReset with mem := searchedMem leftovers pages afterReset } : LoaderState Unit) = t
    at hmem
  have htm : t.mem = searchedMem leftovers pages afterReset := by rw [← ht]
  rw [← htm] at hown hother hdirty₀
  refine ⟨t, ?_, htm⟩
  have hclear : ∀ again, untilClear leftovers pages (· == noAddress) again 1 0 t = .ok 0 t := by
    intro again
    unfold untilClear
    rw [get_bind, if_neg, if_pos hown]
    · rfl
    · rw [hdirty₀]
      decide
  have hregions : searchRegions leftovers 1 pages firstAddress t = .ok 0 t := by
    unfold searchRegions
    rw [bind_of_ok (show call (leftovers.AllocatePages pages 0) t = .ok EFI_SUCCESS t from rfl)]
    unfold allocateAt
    rw [if_pos (.inl rfl), bind_of_ok (show (pure 0 : Boot Unit UINT64) t = .ok 0 t from rfl)]
    exact hclear _
  rw [allocateImage, bind_of_ok (hmem t rfl), if_pos rfl,
    get_bind, if_neg hother,
    bind_of_ok (show call (leftovers.FreePages firstAddress pages) t = .ok EFI_SUCCESS t from rfl),
    bind_of_ok (check_of_ok EFI_ERROR_success), bind_of_ok hregions, if_neg (by decide)]
  rfl

end

set_option maxRecDepth 20000 in
/-- The old image is not zero where the new one has no bytes. -/
theorem old_image_in_data :
    ∃ t, allocateImage leftovers 1 (imagePages twoTable 2) afterReset = .ok 0 t ∧
      ¬ UnreadZero twoSegments twoTable 2 0 t.mem := by
  have hp : (imagePages twoTable 2 <<< EFI_PAGE_SHIFT).toNat = 4096 := by decide
  obtain ⟨t, hrun, hmem⟩ := leftovers_allocate hp
  refine ⟨t, hrun, fun h => ?_⟩
  have hzero := h 18 (by decide) (by unfold FileByteAt; decide)
  rw [hmem, leftovers_low hp (by decide)] at hzero
  revert hzero
  decide

end PiousOS.Loader
