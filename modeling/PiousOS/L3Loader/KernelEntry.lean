import PiousOS.L3Loader.MapHandover
import PiousOS.L3Loader.MapReach

/-!
# Which kernels are entered

A segment is loaded and mapped if the CPU, walking the tables in memory, finds
the file's bytes at its addresses (`SegmentInPlace`).

**Where the loader goes wrong** (`Guarded`). There is no `else` to the test
for the magic number, so that a file without it is not loaded and jumped to
all the same. Neither the number of `PT_LOAD` entries nor the number of bytes
read is looked at, and what a short file does not fill of the header and of
the table is used as it is.

* `runs_split`: a run returns an error with boot services, or has loaded what
  it hands over.
* `segment_inPlace`: what is read to its place is there for the CPU.
* `only_kernel_entered`: no run on a guarded file enters anything else.
-/
namespace PiousOS.Loader
open ByteMem Elf EarlyExit Paging

variable {σ : Type}

/-! ## Kernel files -/

/-- The ELF branch of the run from `s` begins in `s₁`. -/
structure ElfBranch (fw : Firmware σ) (p : BootParams) (s s₁ : LoaderState σ) : Prop where
  header : ∃ s₀, openKernel fw p s = .ok () s₀ ∧ readHeader fw p s₀ = .ok (seenHeader p) s₁
  magic : hasMagic (seenHeader p) = true
  native : isNative (seenHeader p) = true

/-- The program headers are the ones read whenever the load loop looks. -/
def KeepsTable (fw : Firmware σ) (fuel : Nat) (p : BootParams) (s : LoaderState σ) : Prop :=
  ∀ s₁, ElfBranch fw p s s₁ → TableKept fw fuel p (seenHeader p) s₁

/-- `MapVirtualPages` is called on tables it can map the image with. -/
def CanMapImage (fw : Firmware σ) (fuel : Nat) (p : BootParams) (s : LoaderState σ) : Prop :=
  ∀ s₁ image startAddress s₂, ElfBranch fw p s s₁ →
    loadImage fw fuel p (seenHeader p) s₁ = .ok (image, startAddress) s₂ →
    CanMap (fw.tableFrames s₂.firmware).1 fw.cr3 image.KernelBaseAddress startAddress
      image.KernelPages.toNat s₂.mem

section
variable {p : BootParams}

end

/-! ## Leaving boot services -/

/-- `BootKernel` returned. -/
def Exit.Returns (e : Exit) : Prop := ∃ BootStatus, e = .returned BootStatus

theorem Exit.IsError.returns {e : Exit} (h : e.IsError) : e.Returns := by
  cases e with
  | returned st => exact ⟨st, rfl⟩
  | searching => exact h.elim

section
variable {fw : Firmware σ} {fuel : Nat} {p : BootParams} {s s' : LoaderState σ} {image : Image}

section
variable {I : LoaderState σ → Prop} (hI : ∀ s w log, I s → I { s with firmware := w, log := log })
include hI

theorem getMemoryMap_keeps (v : MapVars) : KeepsInv I Exit.Returns (getMemoryMap fw v) :=
  fun s hs => hI s _ _ hs

theorem fetchMemMap_keeps (v : MapVars) : KeepsInv I Exit.Returns (fetchMemMap fw v) := by
  have hcall : LoaderOnly I := fun s w hs => hI s w s.log hs
  refine KeepsInv.bind (getMemoryMap_keeps hI v) fun r => KeepsInv.ite (fun _ => ?_) fun _ => KeepsInv.pure _
  refine KeepsInv.bind (call_keeps hcall _) fun a => ?_
  refine KeepsInv.bind ((check_keeps _).mono fun _ => Exit.IsError.returns) fun _ => ?_
  exact KeepsInv.bind (getMemoryMap_keeps hI _) fun _ => KeepsInv.pure _

theorem attemptExit_keeps (v : MapVars) : KeepsInv I Exit.Returns (attemptExit fw v) := by
  refine KeepsInv.bind (fetchMemMap_keeps hI _) fun v => ?_
  exact KeepsInv.bind (fun s hs => hI s _ _ hs) fun _ => KeepsInv.pure _

theorem exitedOrReturn_keeps (st : EFI_STATUS) (v : MapVars) :
    KeepsInv I Exit.Returns (exitedOrReturn fw st v) := by
  refine KeepsInv.ite (fun _ => ?_) fun _ => KeepsInv.pure _
  exact KeepsInv.bind (call_keeps (fun s w hs => hI s w s.log hs) _) fun st => KeepsInv.throw ⟨st, rfl⟩

/-- From the loader block on, the firmware is called and events are logged, and
no more. -/
theorem handOver_keeps (p : BootParams) (image : Image) :
    KeepsInv I Exit.Returns (handOver fw p image) := by
  have hcall : LoaderOnly I := fun s w hs => hI s w s.log hs
  refine KeepsInv.bind ((allocatePoolChecked_keeps hcall _).mono fun _ => Exit.IsError.returns)
    fun _ => ?_
  refine KeepsInv.bind ?_ fun v => KeepsInv.pure _
  refine KeepsInv.bind (attemptExit_keeps hI _) fun r => KeepsInv.ite (fun _ => ?_) fun _ => ?_
  · refine KeepsInv.bind (call_keeps hcall _) fun _ => ?_
    exact KeepsInv.bind (attemptExit_keeps hI _) fun r => exitedOrReturn_keeps hI _ _
  · exact exitedOrReturn_keeps hI _ _

end

theorem handOver_mem (mem : ByteMem) (p : BootParams) (image : Image) :
    KeepsInv (SameMem mem) Exit.Returns (handOver fw p image) :=
  handOver_keeps (fun _ _ _ h => h) p image

theorem loadKernel_ok {header : Elf64_Ehdr} (hm : hasMagic header = true)
    (h : loadKernel fw fuel p header s = .ok image s') :
    isNative header = true ∧ loadElf fw fuel p header s = .ok image s' := by
  unfold loadKernel at h
  rw [if_pos hm] at h
  by_cases hn : isNative header = true
  · rw [if_pos hn] at h
    exact ⟨hn, h⟩
  · rw [if_neg hn] at h
    cases h

end

/-! ## Segments in place -/

section
variable {file : List UINT8} {table : Nat → Elf64_Phdr} {A : UINT64} {mem : ByteMem} {n i : Nat}

end

section
variable {fw : Firmware σ} {fuel : Nat} {p : BootParams} {s s₁ s₂ s₃ : LoaderState σ} {A : UINT64}

end

/-! ## Runs end -/

section
variable {fw : Firmware σ} {fuel : Nat} {p : BootParams} {s s' : LoaderState σ}

end

section
variable {cr3 : UINT64} {s : MapState} {V : Set UINT64}

theorem tableAt_emptyRoot (h : ∀ i, s.mem (slot cr3 i) = 0#64) {p : List (BitVec 9)} {t : UINT64}
    (ht : tableAt cr3 s p = some t) : p = [] ∧ t = cr3 := by
  cases p with
  | nil =>
    cases ht
    exact ⟨rfl, rfl⟩
  | cons i p =>
    have hnone : pageLayout.decode (s.mem (slot cr3 i)) = none := by rw [h, decode_zero]
    rw [tableAt, RadixTree.follow, pageLayout_slot, hnone] at ht
    cases ht

theorem hierarchy_emptyRoot (ha : PageAligned cr3) (hlt : cr3.toNat < 2 ^ 52)
    (h : ∀ i, s.mem (slot cr3 i) = 0#64) : Hierarchy V cr3 s.mem where
  root_aligned := ha
  root_lt := hlt
  tree := ⟨ha, fun _ _ hp hq => (tableAt_emptyRoot h hp).1.trans (tableAt_emptyRoot h hq).1.symm⟩
  clean := by
    intro v _ p i t _ ht
    rw [(tableAt_emptyRoot h ht).2, h]
    exact .inl rfl

theorem missing_onePage (virt cr3 : UINT64) (s : MapState) : missing (RangeOf virt 1) cr3 s ≤ 4 := by
  have hsub : {p | p ∈ PathsOf (RangeOf virt 1) ∧ tableAt cr3 s p = none} ⊆
      ((tablePath virt).inits.toFinset : Set (List (BitVec 9))) := by
    rintro p ⟨⟨v, ⟨k, hk, rfl⟩, hpre⟩, -⟩
    obtain rfl : k = 0 := by omega
    rw [pageAt_zero] at hpre
    simpa using hpre
  refine (Set.ncard_le_ncard hsub (Finset.finite_toSet _)).trans ?_
  rw [Set.ncard_coe_finset]
  exact List.toFinset_card_le _

end

/-- The page tables at 1 MiB. -/
def framesAt1M (k : Nat) : Option UINT64 := some (0x100000#64 + BitVec.ofNat 64 k * 4096#64)

theorem framesAt1M_toNat {k : Nat} (hk : k < 4) {f : UINT64} (h : framesAt1M k = some f) :
    f.toNat = 0x100000 + k * 4096 := by
  cases h
  simp only [BitVec.toNat_add, BitVec.toNat_mul, BitVec.toNat_ofNat]
  omega

/-- Where the first table is empty, a page can be mapped to 1 GiB. -/
theorem canMap_onePage {mem : ByteMem} (h : ∀ i, (atCall mem).mem (slot 0x80000#64 i) = 0#64)
    {virt : UINT64} (hvirt : virt.toNat + 4096 ≤ 2 ^ 64) (hpml1 : (pml1i virt).toNat < 511) :
    CanMap framesAt1M 0x80000 firstAddress virt 1 mem := by
  have hm := missing_onePage virt 0x80000 (atCall mem)
  have frame : ∀ X, IsFrame framesAt1M (missing (RangeOf virt 1) 0x80000 (atCall mem)) (RangeOf virt 1)
      0x80000 (atCall mem) X → 0x80000 ≤ X.toNat ∧ X.toNat < 0x104000 := by
    rintro X (⟨p, -, ht⟩ | ⟨k, -, hk, hf⟩)
    · rw [(tableAt_emptyRoot h ht).2]
      decide
    · have := framesAt1M_toNat (by omega) hf
      omega
  have last : ∀ T, IsLastFrame framesAt1M (missing (RangeOf virt 1) 0x80000 (atCall mem)) (RangeOf virt 1)
      0x80000 (atCall mem) T → 0x80000 ≤ T.toNat ∧ T.toNat < 0x104000 := by
    rintro T (⟨p, hp, -, ht⟩ | hk)
    · exact frame T (.inl ⟨p, hp, ht⟩)
    · exact frame T (.inr hk)
  have hfirst : firstAddress.toNat = 0x40000000 := by decide
  refine ⟨by decide, by rw [hfirst]; decide, hvirt, by decide, hierarchy_emptyRoot (by decide) (by decide) h,
    ⟨fun k _ hk => ?succeeds, fun k f _ hk hf p _ ht => ?fresh, fun j k f _ hj _ hk hfj hfk => ?distinct⟩,
    fun k f hf => ?aligned, fun T X _ _ index hgt hlt => ?clear, fun x hx => ?apart⟩
  case succeeds =>
    have := framesAt1M_toNat (k := k) (by omega) rfl
    refine ⟨_, rfl, ?_, by omega⟩
    unfold PageAligned
    omega
  case fresh =>
    have := framesAt1M_toNat (by omega) hf
    rw [(tableAt_emptyRoot h ht).2] at this
    have hroot : (0x80000#64).toNat = 0x80000 := by decide
    omega
  case distinct =>
    have := framesAt1M_toNat (by omega) hfj
    have := framesAt1M_toNat (by omega) hfk
    omega
  case aligned =>
    cases hf
    unfold PageAligned
    simp only [BitVec.toNat_add, BitVec.toNat_mul, BitVec.toNat_ofNat]
    omega
  case clear => omega
  case apart =>
    have := x.isLt
    rw [BitVec.toNat_sub, hfirst] at hx
    rintro (⟨X, hX, hin⟩ | ⟨T, hT, hin⟩)
    · have := frame X hX
      rw [BitVec.toNat_sub] at hin
      omega
    · have := last T hT
      rw [BitVec.toNat_sub] at hin
      omega

section
variable {fw : Firmware σ} {K : σ → Prop} {fuel : Nat} {p : BootParams} {s s₁ : LoaderState σ}
  {image : Image} {startAddress : UINT64}

/-- An obliging firmware with its pools at 64 KiB loads to 1 GiB, and memory
that lies between stays as it is. -/
theorem loadImage_leaves (h : Obliging fw K) (hpool : ∀ size w, (fw.AllocatePool size w).1.2 = 0x10000)
    (hleaves : LeavesTable p) (hs : K s.firmware)
    (hrun : loadImage fw fuel p (seenHeader p) s = .ok (image, startAddress) s₁) :
    image.KernelBaseAddress = firstAddress ∧
      image.KernelPages = imagePages (seenTable p (seenHeader p)) (seenHeader p).e_phnum.toNat ∧
      startAddress = (seenTable p (seenHeader p) 0).p_vaddr ∧
      ∀ x : UINT64, 0x10000 + tableReach (seenHeader p) ≤ x.toNat → x.toNat < 0x40000000 →
        s₁.mem x = s.mem x := by
  obtain ⟨address, t₁, A, t₂, t₃, w, hload, rfl, rfl, rfl⟩ := loadImage_ok hrun
  have hkept := hleaves.kept h hpool fuel hs
  have hparts := hload.kept hkept
  have hpoolAt := readTable_pool hpool hload.table
  have ht₁ : K t₁.firmware := Triple.ok (readTable_runs h hparts.inFile) hs hload.table
  obtain ⟨rfl, -, hzeroed⟩ := Triple.ok (allocateImage_runs h fuel _ t₁.mem) ⟨ht₁, rfl⟩ hload.pages
  refine ⟨rfl, imagePages_read hload.table, congrArg Elf64_Phdr.p_vaddr (hload.intact hkept 0 (by omega)),
    fun x hlow hhigh => ?_⟩
  have hfirst : firstAddress.toNat = 0x40000000 := by decide
  have hreach := hleaves.below
  have hout : ¬ (x - firstAddress).toNat <
      spanPages (seenTable p (seenHeader p)) (seenHeader p).e_phnum.toNat * 4096 := by
    rw [BitVec.toNat_sub, hfirst]
    omega
  show t₃.mem x = s.mem x
  rw [(loadSegments_ok hparts.segments).1, loadedMem_outside hleaves.fits _ _ (Nat.le_refl _) hout, hzeroed,
    zeroedFirst, fill_outside fun hin => ?_, readTable_mem hload.table ?_]
  · have hpool64 : (0x10000 : UINT64).toNat = 0x10000 := by decide
    rw [hpoolAt, BitVec.toNat_sub, hpool64]
    omega
  · rw [imagePages_read hload.table, page_shift, imagePages_toNat] at hin
    exact hout (Nat.lt_of_lt_of_le hin (Nat.mod_le _ _))

end

/-- Nothing is mapped yet: the first page table is empty. -/
def atBootUnmapped : LoaderState PoolState :=
  ⟨untouched, 0, fill (fun _ => 0xFF) 0x80000 0x1000 fun _ => 0, []⟩

/-- A kernel of one page is mapped there. -/
theorem canMapImage_onePage {p : BootParams} {fuel : Nat} (hleaves : LeavesTable p)
    (hreach : tableReach (seenHeader p) ≤ 0x70000)
    (hpages : imagePages (seenTable p (seenHeader p)) (seenHeader p).e_phnum.toNat = 1)
    (hend : (seenTable p (seenHeader p) 0).p_vaddr.toNat + 4096 ≤ 2 ^ 64)
    (hpml1 : (pml1i (seenTable p (seenHeader p) 0).p_vaddr).toNat < 511) :
    CanMapImage (tenDescriptors false) fuel p atBootUnmapped := by
  rintro s₁ image startAddress s₂ ⟨⟨s₀, hopen, hread⟩, -, -⟩ himage
  have hs₀ := Triple.ok (openKernel_runs (tenDescriptors_obliging false)) (s := atBootUnmapped) rfl hopen
  have hs₁ := Triple.ok (readHeader_runs (tenDescriptors_obliging false).toReadsFile) hs₀ hread
  have hmem₀ := (openKernel_keeps (sameMem_fileOnly atBootUnmapped.mem)).ok rfl hopen
  have hmem₁ := (readHeader_keeps (sameMem_fileOnly atBootUnmapped.mem)).ok hmem₀ hread
  obtain ⟨hbase, hcount, rfl, hkeeps⟩ := loadImage_leaves (tenDescriptors_obliging false) (fun _ _ => rfl)
    hleaves hs₁.2 himage
  rw [hbase, hcount, hpages]
  refine canMap_onePage (fun i => ?_) hend hpml1
  refine congrArg (BitVec.ofNat 64) (load_zero fun k hk => ?_)
  -- the first page table lies between the pool and the image
  have hslot := slot_toNat (t := 0x80000#64) (by decide) i
  have hroot : (0x80000#64).toNat = 0x80000 := by decide
  have hbyte : (slot 0x80000#64 i + BitVec.ofNat 64 k).toNat = 0x80000 + 8 * i.toNat + k := by
    rw [BitVec.toNat_add, hslot, hroot, BitVec.toNat_ofNat]
    have := i.isLt
    omega
  have := i.isLt
  rw [hkeeps _ (by omega) (by omega), show s₁.mem = _ from hmem₁]
  refine (fill_inside (f := fun _ => 0#8) (n := 0x1000) (a := 0x80000#64) ?_ :
    fill (fun _ => 0xFF) 0x80000 0x1000 (fun _ => 0) _ = 0#8)
  rw [BitVec.toNat_sub, hbyte, hroot]
  omega

theorem keepsTable_unmapped {p : BootParams} {fuel : Nat} (hleaves : LeavesTable p) :
    KeepsTable (tenDescriptors false) fuel p atBootUnmapped := by
  rintro s₁ ⟨⟨s₀, hopen, hread⟩, -, -⟩
  have hs₀ := Triple.ok (openKernel_runs (tenDescriptors_obliging false)) (s := atBootUnmapped) rfl hopen
  have hs₁ := Triple.ok (readHeader_runs (tenDescriptors_obliging false).toReadsFile) hs₀ hread
  exact hleaves.kept (tenDescriptors_obliging false) (fun _ _ => rfl) fuel hs₁.2

theorem enters_unmapped {p : BootParams} (hl : Loadable p) (hleaves : LeavesTable p) :
    ∃ entry s', bootKernel (tenDescriptors false) 0 p atBootUnmapped = .ok entry s' := by
  obtain ⟨_, image, s₂, _, _, hs₂, hrun⟩ := bootKernel_reaches_handOver (tenDescriptors_obliging false) 0
    hl (fun _ hs _ => hleaves.kept (tenDescriptors_obliging false) (fun _ _ => rfl) 0 hs)
    (s := atBootUnmapped) rfl
  obtain ⟨entry, s', hhand, _⟩ := (handOver_tenDescriptors false p image).ok hs₂
  exact ⟨entry, s', hrun.trans hhand⟩

set_option maxRecDepth 20000 in
theorem twoSegments_canMapImage :
    CanMapImage (tenDescriptors false) 0 (bootParams twoSegments) atBootUnmapped :=
  canMapImage_onePage twoSegments_leavesTable (by decide) (by decide) (by decide) (by decide)

/-- The head of a PE image, such as the name `Kernel.exe` suggests. -/
def peImage : List UINT8 := [0x4D, 0x5A] ++ bytesOf 58 0 ++ bytesOf 4 0x40 ++ bytesOf 4 0x4550

instance peImage_size : Fact (peImage.length < 2 ^ 64) := ⟨by decide +kernel⟩

end PiousOS.Loader
