import Mathlib.Data.Finset.Lattice.Fold
import Mathlib.Order.Lattice.Nat
import PiousOS.L3Loader.Firmware

/-!
# The two loops over the program headers (`BootKernel`)

The first loop takes the greatest end and the least start over the `PT_LOAD`
entries of the table and rounds the distance up to pages; the second one
reads each `PT_LOAD` entry's file bytes to its place in those pages. The
place is counted from the start of entry 0, whatever entry 0 is. The table
lies in memory itself and is looked at anew for every entry.

* `imagePages_toNat`: the page count is the span of the image in pages.
* `loadSegments_unchanging`: a loop that finds the same headers whenever it
  looks runs as with a table that does not change.
* `loadSegments_ok`: what a loop that went through has read, and where to.
* `loads_stay_inside_iff`: every read stays inside the allocated pages,
  whatever the firmware answers, exactly if every segment ends no further
  above entry 0's address than the image is long.
-/
namespace PiousOS.Loader
open ByteMem Elf EarlyExit

variable {σ : Type}

/-! ## The loops -/

/-- `virt_size` and `virt_min`. -/
structure Extent where
  virt_size : UINT64
  virt_min : UINT64
  deriving DecidableEq, Repr

def extentStep (header : Elf64_Phdr) (e : Extent) : Extent :=
  if header.p_type = PT_LOAD then
    { virt_size := if header.p_vaddr + header.p_memsz < e.virt_size then e.virt_size
        else header.p_vaddr + header.p_memsz
      virt_min := if e.virt_min < header.p_vaddr then e.virt_min else header.p_vaddr }
  else e

/-- The first loop over the first `n` entries.
mirrors src/bootloader/boot.c:234-235, 262-271 -/
def extent (table : Nat → Elf64_Phdr) : Nat → Extent
  | 0 => ⟨0, BitVec.allOnes 64⟩
  | n + 1 => extentStep (table n) (extent table n)

/-- mirrors src/bootloader/boot.c:274 -/
def imagePages (table : Nat → Elf64_Phdr) (n : Nat) : UINTN :=
  EFI_SIZE_TO_PAGES ((extent table n).virt_size - (extent table n).virt_min)

/-- `SectionAddress` of entry `i`. -/
def sectionAddress (table : Nat → Elf64_Phdr) (AllocatedMemory : UINT64) (i : Nat) : UINT64 :=
  AllocatedMemory + ((table i).p_vaddr - (table 0).p_vaddr)

/-- The bytes a `Read` delivered, where it was told to put them. -/
def placeSegment (header : Elf64_Phdr) (SectionAddress : UINT64) (data : List UINT8) :
    Boot σ Unit :=
  fun s => .ok () { s with
    mem := fill s.mem SectionAddress data.length fun i => data.getD i 0
    log := s.log ++ [.segment header SectionAddress data.length] }

/-- One entry in the second loop, in the table as it is at that time.
mirrors src/bootloader/boot.c:531-556 -/
def loadSegment (fw : Firmware σ) (file : List UINT8) (table : Nat → Elf64_Phdr)
    (AllocatedMemory : UINT64) (i : Nat) : Boot σ Unit :=
  let header := table i
  let RawDataSize := header.p_filesz
  let SectionAddress := sectionAddress table AllocatedMemory i
  if header.p_type = PT_LOAD then do
    let BootStatus ← setPosition fw file header.p_offset
    check BootStatus
    if RawDataSize = 0 then placeSegment header SectionAddress []
    else
      let (BootStatus, data) ← read fw file RawDataSize
      placeSegment header SectionAddress data
      check BootStatus
  else pure ()

/-- The second loop over the first `n` entries. The table lies in memory, and
what the loop reads may fall on it: `headers` finds it in memory, anew for
each entry. -/
def loadSegments (fw : Firmware σ) (file : List UINT8) (headers : ByteMem → Nat → Elf64_Phdr)
    (AllocatedMemory : UINT64) : Nat → Boot σ Unit
  | 0 => pure ()
  | n + 1 => do
    loadSegments fw file headers AllocatedMemory n
    let s ← get
    loadSegment fw file (headers s.mem) AllocatedMemory n

/-- A table that no store changes. -/
def unchanging (table : Nat → Elf64_Phdr) : ByteMem → Nat → Elf64_Phdr := fun _ => table

/-! ## The span of an image -/

section Span
variable (table : Nat → Elf64_Phdr) (n : Nat)

/-- The `PT_LOAD` entries among the first `n`. -/
def loads : Finset Nat := (Finset.range n).filter fun i => (table i).p_type = PT_LOAD

/-- The greatest segment end. -/
def imageEnd : Nat := (loads table n).sup fun i => ((table i).p_vaddr + (table i).p_memsz).toNat

/-- The least segment start, `2^64 - 1` if there is no segment. -/
def imageStart : Nat :=
  2 ^ 64 - 1 - (loads table n).sup fun i => 2 ^ 64 - 1 - (table i).p_vaddr.toNat

/-- The pages from the start of an image to its end. -/
def spanPages : Nat := ((imageEnd table n + 2 ^ 64 - imageStart table n) % 2 ^ 64 + 4095) / 4096

/-- No segment wraps around the address space. -/
def NoWrap : Prop := ∀ i ∈ loads table n, (table i).p_vaddr.toNat + (table i).p_memsz.toNat < 2 ^ 64

end Span

section
variable {table table' : Nat → Elf64_Phdr} {n i : Nat}

@[simp] theorem mem_loads : i ∈ loads table n ↔ i < n ∧ (table i).p_type = PT_LOAD := by
  simp [loads]

theorem loads_succ_of_load (h : (table n).p_type = PT_LOAD) :
    loads table (n + 1) = insert n (loads table n) := by
  rw [loads, Finset.range_add_one, Finset.filter_insert, if_pos h, ← loads]

theorem loads_succ_of_other (h : ¬ (table n).p_type = PT_LOAD) :
    loads table (n + 1) = loads table n := by
  rw [loads, Finset.range_add_one, Finset.filter_insert, if_neg h, ← loads]

/-- A `PT_LOAD` entry moves the ends apart. -/
theorem extentStep_load {header : Elf64_Phdr} {e : Extent} (h : header.p_type = PT_LOAD) :
    (extentStep header e).virt_size.toNat =
        max (header.p_vaddr + header.p_memsz).toNat e.virt_size.toNat ∧
      (extentStep header e).virt_min.toNat = min header.p_vaddr.toNat e.virt_min.toNat := by
  rw [extentStep, if_pos h]
  constructor
  · by_cases hlt : header.p_vaddr + header.p_memsz < e.virt_size
    · rw [if_pos hlt, max_eq_right (Nat.le_of_lt (BitVec.lt_def.mp hlt))]
    · rw [if_neg hlt, max_eq_left (Nat.le_of_not_lt fun h => hlt (BitVec.lt_def.mpr h))]
  · by_cases hlt : e.virt_min < header.p_vaddr
    · rw [if_pos hlt, min_eq_right (Nat.le_of_lt (BitVec.lt_def.mp hlt))]
    · rw [if_neg hlt, min_eq_left (Nat.le_of_not_lt fun h => hlt (BitVec.lt_def.mpr h))]

/-- The first loop computes the ends of the image. -/
theorem extent_eq (table : Nat → Elf64_Phdr) (n : Nat) :
    (extent table n).virt_size.toNat = imageEnd table n ∧
      (extent table n).virt_min.toNat = imageStart table n := by
  induction n with
  | zero => exact ⟨rfl, rfl⟩
  | succ n ih =>
    obtain ⟨hs, hm⟩ := ih
    rw [extent]
    by_cases h : (table n).p_type = PT_LOAD
    · obtain ⟨hs', hm'⟩ := extentStep_load (e := extent table n) h
      rw [hs', hm', hs, hm, imageEnd, imageEnd, imageStart, imageStart, loads_succ_of_load h,
        Finset.sup_insert, Finset.sup_insert]
      have hv := (table n).p_vaddr.isLt
      -- the least start is kept as the greatest distance from the top
      generalize (loads table n).sup (fun i => 2 ^ 64 - 1 - (table i).p_vaddr.toNat) = k
      refine ⟨rfl, ?_⟩
      show min (table n).p_vaddr.toNat (2 ^ 64 - 1 - k) =
        2 ^ 64 - 1 - max (2 ^ 64 - 1 - (table n).p_vaddr.toNat) k
      omega
    · rw [extentStep, if_neg h, imageEnd, imageStart, loads_succ_of_other h, hs, hm, imageEnd, imageStart]
      exact ⟨rfl, rfl⟩

theorem extent_congr (h : ∀ i < n, table' i = table i) : extent table' n = extent table n := by
  induction n with
  | zero => rfl
  | succ n ih => rw [extent, extent, ih fun i hi => h i (by omega), h n (Nat.lt_succ_self n)]

/-- The page count is the span of the image, in pages. -/
theorem imagePages_toNat (table : Nat → Elf64_Phdr) (n : Nat) :
    (imagePages table n).toNat = spanPages table n := by
  obtain ⟨hs, hm⟩ := extent_eq table n
  have := (extent table n).virt_min.isLt
  rw [imagePages, EFI_SIZE_TO_PAGES_toNat, BitVec.toNat_sub, hs, hm, spanPages]
  rw [hm] at this
  congr 3
  omega

end

/-! ## What the second loop does -/

/-- Memory after the second loop, if every read succeeds. -/
def loadedMem (file : List UINT8) (table : Nat → Elf64_Phdr) (AllocatedMemory : UINT64)
    (mem : ByteMem) : Nat → ByteMem
  | 0 => mem
  | n + 1 =>
    let before := loadedMem file table AllocatedMemory mem n
    if (table n).p_type = PT_LOAD then
      let data := delivered file (table n).p_offset (table n).p_filesz
      fill before (sectionAddress table AllocatedMemory n) data.length fun i => data.getD i 0
    else before

/-- The events of a second loop in which every read succeeds. -/
def segmentEvents (file : List UINT8) (table : Nat → Elf64_Phdr) (AllocatedMemory : UINT64) :
    Nat → List (Event σ)
  | 0 => []
  | n + 1 =>
    let before := segmentEvents file table AllocatedMemory n
    if (table n).p_type = PT_LOAD then
      before ++ [.segment (table n) (sectionAddress table AllocatedMemory n)
        (delivered file (table n).p_offset (table n).p_filesz).length]
    else before

section
variable {fw : Firmware σ} {file : List UINT8} {table table' : Nat → Elf64_Phdr} {A : UINT64}
  {n i : Nat} {s s' : LoaderState σ}

theorem loadedMem_congr {mem : ByteMem} (h : ∀ i < n, table' i = table i) :
    loadedMem file table' A mem n = loadedMem file table A mem n := by
  induction n with
  | zero => rfl
  | succ n ih =>
    rw [loadedMem, loadedMem, sectionAddress, sectionAddress, ih fun i hi => h i (by omega),
      h n (Nat.lt_succ_self n), h 0 (Nat.succ_pos n)]

theorem mem_segmentEvents {e : Event σ} :
    e ∈ segmentEvents file table A n ↔ ∃ i ∈ loads table n,
      e = .segment (table i) (sectionAddress table A i)
        (delivered file (table i).p_offset (table i).p_filesz).length := by
  induction n with
  | zero => simp [segmentEvents, loads]
  | succ n ih =>
    rw [segmentEvents]
    by_cases hp : (table n).p_type = PT_LOAD
    · rw [if_pos hp, List.mem_append, ih, List.mem_singleton, loads_succ_of_load hp,
        Finset.exists_mem_insert, or_comm]
    · rw [if_neg hp, ih, loads_succ_of_other hp]

theorem check_ok {st : EFI_STATUS} (h : (check st : Boot σ Unit) s = .ok () s') :
    EFI_ERROR st = false ∧ s' = s := by
  unfold check at h
  by_cases he : EFI_ERROR st = true
  · rw [if_pos he] at h
    cases h
  · rw [if_neg he] at h
    cases h
    exact ⟨by simpa using he, rfl⟩

theorem check_of_ok {st : EFI_STATUS} (h : EFI_ERROR st = false) :
    (check st : Boot σ Unit) s = .ok () s := by
  unfold check
  rw [h]
  rfl

/-- What acting on one entry leaves. -/
structure SegmentDone (file : List UINT8) (table : Nat → Elf64_Phdr) (A : UINT64) (i : Nat)
    (s s' : LoaderState σ) : Prop where
  inFile : (table i).p_filesz ≠ 0 → filePosition file (table i).p_offset ≤ file.length
  mem : s'.mem = fill s.mem (sectionAddress table A i)
    (delivered file (table i).p_offset (table i).p_filesz).length
    fun k => (delivered file (table i).p_offset (table i).p_filesz).getD k 0
  log : s'.log = s.log ++ [.segment (table i) (sectionAddress table A i)
    (delivered file (table i).p_offset (table i).p_filesz).length]

theorem readStatus_ok {position : Nat} {answer : EFI_STATUS}
    (h : EFI_ERROR (readStatus file position answer) = false) : position ≤ file.length := by
  unfold readStatus at h
  by_cases hp : file.length < position
  · rw [if_pos hp] at h
    exact absurd h (by decide)
  · omega

theorem loadSegment_load (hp : (table i).p_type = PT_LOAD)
    (h : loadSegment fw file table A i s = .ok () s') : SegmentDone file table A i s s' := by
  unfold loadSegment at h
  rw [if_pos hp] at h
  obtain ⟨st, s₁, h₁, hr⟩ := ok_of_bind h
  obtain ⟨_, s₂, h₂, hread⟩ := ok_of_bind hr
  obtain ⟨hst, rfl⟩ := check_ok h₂
  cases h₁
  by_cases hz : (table i).p_filesz = 0
  · rw [if_pos hz] at hread
    cases hread
    refine ⟨fun h0 => absurd hz h0, ?_, ?_⟩
    · rw [hz, delivered_zero]
    · rw [hz, delivered_zero]
  · rw [if_neg hz] at hread
    obtain ⟨r, s₃, h₃, hplace⟩ := ok_of_bind hread
    obtain ⟨_, s₄, h₄, hcheck⟩ := ok_of_bind hplace
    obtain ⟨hok, rfl⟩ := check_ok hcheck
    cases h₃
    cases h₄
    simp only [hst, Bool.false_eq_true, if_false] at hok
    refine ⟨fun _ => readStatus_ok hok, ?_, ?_⟩
    · simp only [hst, hok, Bool.false_eq_true, if_false, delivered]
    · simp only [hst, hok, Bool.false_eq_true, if_false, delivered]

theorem loadSegment_other (hp : ¬ (table i).p_type = PT_LOAD) :
    loadSegment fw file table A i s = .ok () s := by
  unfold loadSegment
  rw [if_neg hp]
  rfl

/-- Acting on an entry looks at that entry and at entry 0 only. -/
theorem loadSegment_congr (hi : table' i = table i) (h0 : table' 0 = table 0) :
    loadSegment fw file table' A i = loadSegment fw file table A i := by
  unfold loadSegment sectionAddress
  rw [hi, h0]

/-- A second loop that finds the same headers whenever it looks runs as with
a table that does not change. -/
theorem loadSegments_unchanging {headers : ByteMem → Nat → Elf64_Phdr}
    (h : ∀ i < n, ∀ t, loadSegments fw file headers A i s = .ok () t →
      headers t.mem i = table i ∧ headers t.mem 0 = table 0) :
    loadSegments fw file headers A n s = loadSegments fw file (unchanging table) A n s := by
  induction n with
  | zero => rfl
  | succ n ih =>
    have hprev := ih fun i hi => h i (Nat.lt_succ_of_lt hi)
    rw [loadSegments, loadSegments]
    cases hrun : loadSegments fw file headers A n s with
    | error e t => rw [bind_of_error hrun, bind_of_error (hprev.symm.trans hrun)]
    | ok u t =>
      obtain ⟨hn, h0⟩ := h n (Nat.lt_succ_self n) t hrun
      rw [bind_of_ok hrun, bind_of_ok (hprev.symm.trans hrun), get_bind, get_bind]
      exact congrFun (loadSegment_congr hn h0) t

/-- A second loop that went through: it has acted on every `PT_LOAD` entry,
in order. -/
theorem loadSegments_ok (h : loadSegments fw file (unchanging table) A n s = .ok () s') :
    s'.mem = loadedMem file table A s.mem n ∧ s'.log = s.log ++ segmentEvents file table A n ∧
      ∀ i ∈ loads table n, (table i).p_filesz ≠ 0 → filePosition file (table i).p_offset ≤ file.length := by
  induction n generalizing s' with
  | zero =>
    cases h
    exact ⟨rfl, (List.append_nil _).symm, fun i hi => absurd (mem_loads.mp hi).1 (Nat.not_lt_zero i)⟩
  | succ n ih =>
    obtain ⟨_, s₁, h₁, h₂⟩ := ok_of_bind h
    rw [get_bind] at h₂
    obtain ⟨hmem, hlog, hfile⟩ := ih h₁
    by_cases hp : (table n).p_type = PT_LOAD
    · have hdone := loadSegment_load hp h₂
      refine ⟨?_, ?_, ?_⟩
      · rw [loadedMem, if_pos hp, ← hmem]
        exact hdone.mem
      · rw [hdone.log, hlog, segmentEvents, if_pos hp, List.append_assoc]
      · intro i hi
        rw [loads_succ_of_load hp, Finset.mem_insert] at hi
        rcases hi with rfl | hi
        · exact hdone.inFile
        · exact hfile i hi
    · rw [unchanging, loadSegment_other hp] at h₂
      cases h₂
      refine ⟨?_, ?_, ?_⟩
      · rw [loadedMem, if_neg hp]
        exact hmem
      · rw [segmentEvents, if_neg hp]
        exact hlog
      · rw [loads_succ_of_other hp]
        exact hfile

end

/-! ## Where the reads go -/

/-- The range of `size` bytes at `dest` lies in the `pages` pages at
`AllocatedMemory`. -/
def InsideImage (AllocatedMemory : UINT64) (pages : Nat) (dest : UINT64) (size : Nat) : Prop :=
  AllocatedMemory.toNat ≤ dest.toNat ∧ dest.toNat + size ≤ AllocatedMemory.toNat + pages * 4096

/-- The log stays in `J` when a `PT_LOAD` entry is read to its place. -/
def TakesSegments (headers : ByteMem → Nat → Elf64_Phdr) (A : UINT64) (n : Nat)
    (J : List (Event σ) → Prop) : Prop :=
  ∀ log, J log → ∀ mem, ∀ i ∈ loads (headers mem) n, ∀ k,
    J (log ++ [.segment (headers mem i) (sectionAddress (headers mem) A i) k])

/-- Every segment event of the log is that of an entry of the table. -/
def OnlySegments (table : Nat → Elf64_Phdr) (A : UINT64) (n : Nat) (log : List (Event σ)) : Prop :=
  ∀ header dest k, Event.segment header dest k ∈ log →
    ∃ i ∈ loads table n, header = table i ∧ dest = sectionAddress table A i

section
variable {fw : Firmware σ} {file : List UINT8} {table : Nat → Elf64_Phdr}
  {headers : ByteMem → Nat → Elf64_Phdr} {A : UINT64} {n : Nat} {J : List (Event σ) → Prop}

theorem onlySegments_takes : TakesSegments (unchanging table) A n (OnlySegments (σ := σ) table A n) := by
  intro log hs _ i hi k header dest k' hev
  rcases List.mem_append.mp hev with hold | hnew
  · exact hs header dest k' hold
  · cases List.mem_singleton.mp hnew
    exact ⟨i, hi, rfl, rfl⟩

theorem loadSegment_keeps (hJ : TakesSegments headers A n J) (mem : ByteMem) (i : Nat) (hi : i < n) :
    KeepsInv (Logs J) Exit.IsError (loadSegment fw file (headers mem) A i) := by
  unfold loadSegment
  refine KeepsInv.ite (fun hp => ?_) fun _ => KeepsInv.pure _
  have hl : i ∈ loads (headers mem) n := mem_loads.mpr ⟨hi, hp⟩
  refine KeepsInv.bind (fun s hs => hs) fun st => KeepsInv.bind (check_keeps st) fun _ => ?_
  refine KeepsInv.ite (fun _ s hs => hJ s.log hs mem i hl _) fun _ => ?_
  refine KeepsInv.bind (fun s hs => hs) fun r => ?_
  exact KeepsInv.bind (fun s hs => hJ s.log hs mem i hl _) fun _ => check_keeps _

/-- The loop reads nothing but `PT_LOAD` segments, each to its place, and
stops at an error only. -/
theorem loadSegments_keeps (hJ : TakesSegments headers A n J) {m : Nat} (hm : m ≤ n) :
    KeepsInv (Logs J) Exit.IsError (loadSegments fw file headers A m) := by
  induction m with
  | zero => exact KeepsInv.pure _
  | succ m ih =>
    refine KeepsInv.bind (ih (by omega)) fun _ => KeepsInv.bind (fun s hs => hs) fun s => ?_
    exact loadSegment_keeps hJ s.mem m hm

theorem loadSegment_runs {K : σ → Prop} (hfw : ReadsFile fw K) (i : Nat)
    (hf : (table i).p_type = PT_LOAD → (table i).p_filesz ≠ 0 →
      filePosition file (table i).p_offset ≤ file.length) :
    Runs (fun s => K s.firmware) (loadSegment fw file table A i) fun _ s => K s.firmware := by
  unfold loadSegment
  refine Triple.ite (fun hp => ?_) fun _ => Triple.pure fun s hs => hs
  refine Triple.bind (setPosition_runs hfw _) fun st => Triple.bind check_runs fun _ => ?_
  refine Triple.ite (fun _ s hs => hs.1) fun hz => ?_
  refine Triple.bind (read_runs hfw _ _ (hf hp hz)) fun r => ?_
  exact Triple.bind (R := fun _ (s : LoaderState σ) => EFI_ERROR r.1 = false ∧ K s.firmware)
    (fun s hs => ⟨hs.1, hs.2.2⟩) fun _ => check_runs

theorem loadSegments_runs {K : σ → Prop} (hfw : ReadsFile fw K)
    (hf : ∀ i ∈ loads table n, (table i).p_filesz ≠ 0 → filePosition file (table i).p_offset ≤ file.length) :
    Runs (fun s => K s.firmware) (loadSegments fw file (unchanging table) A n) fun _ s => K s.firmware := by
  induction n with
  | zero => exact Triple.pure fun s hs => hs
  | succ n ih =>
    refine Triple.bind (ih fun i hi => hf i ?_) fun _ => Triple.read fun _ _ =>
      loadSegment_runs hfw n fun hp => ?_
    · exact mem_loads.mpr ⟨Nat.lt_succ_of_lt (mem_loads.mp hi).1, (mem_loads.mp hi).2⟩
    · exact hf n (mem_loads.mpr ⟨Nat.lt_succ_self n, hp⟩)

/-- A range counted from `A` lies inside the pages at `A` if it ends there. -/
theorem insideImage_iff {pages size : Nat} {D : UINT64} (hA : A.toNat + pages * 4096 ≤ 2 ^ 64)
    (hs : 0 < size) : InsideImage A pages (A + D) size ↔ D.toNat + size ≤ pages * 4096 := by
  have := A.isLt
  have := D.isLt
  rw [InsideImage, BitVec.toNat_add]
  omega

end

/-- The table lies outside the `pages` pages at `AllocatedMemory`: it is found
in every memory that differs inside them only. -/
def TableOutside (headers : ByteMem → Nat → Elf64_Phdr) (table : Nat → Elf64_Phdr) (n : Nat)
    (AllocatedMemory : UINT64) (pages : Nat) (mem : ByteMem) : Prop :=
  ∀ mem' : ByteMem, (∀ x : UINT64, ¬ (x - AllocatedMemory).toNat < pages * 4096 → mem' x = mem x) →
    ∀ i, i < n ∨ i = 0 → headers mem' i = table i

/-- Every read of the second loop, in every run with the table outside the
allocated pages, goes to these pages. -/
def LoadsStayInside (table : Nat → Elf64_Phdr) (n : Nat) (AllocatedMemory : UINT64) : Prop :=
  ∀ (σ : Type) (fw : Firmware σ) (file : List UINT8) (headers : ByteMem → Nat → Elf64_Phdr)
    (s : LoaderState σ), s.log = [] →
    TableOutside headers table n AllocatedMemory (imagePages table n).toNat s.mem →
    ∀ header dest k,
      Event.segment header dest k ∈ (final (loadSegments fw file headers AllocatedMemory n s)).log →
      header.p_filesz ≠ 0 →
      InsideImage AllocatedMemory (imagePages table n).toNat dest header.p_filesz.toNat

/-- What every segment's file bytes must keep to. -/
def SegmentsFit (table : Nat → Elf64_Phdr) (n : Nat) : Prop :=
  ∀ i ∈ loads table n, (table i).p_filesz ≠ 0 →
    ((table i).p_vaddr - (table 0).p_vaddr).toNat + (table i).p_filesz.toNat ≤
      spanPages table n * 4096

section
variable {table : Nat → Elf64_Phdr} {n : Nat} {A : UINT64}

theorem filesz_pos {i : Nat} (h : (table i).p_filesz ≠ 0) : 0 < (table i).p_filesz.toNat :=
  Nat.pos_of_ne_zero fun h0 => h (BitVec.eq_of_toNat_eq h0)

/-- A table that does not fit has a run with a read outside: that of a
firmware that reads everything, from a file that reaches every offset. -/
theorem segmentsFit_of_stayInside (hA : A.toNat + (imagePages table n).toNat * 4096 ≤ 2 ^ 64)
    (h : LoadsStayInside table n A) : SegmentsFit table n := by
  intro i hi hz
  have hlen : ∀ x : UINT64, filePosition (List.replicate (2 ^ 64) (0 : UINT8)) x ≤
      (List.replicate (2 ^ 64) (0 : UINT8)).length := fun x => by
    unfold filePosition
    split
    · exact Nat.le_refl _
    · rw [List.length_replicate]
      exact Nat.le_of_lt x.isLt
  let s₀ : LoaderState Unit := ⟨(), 0, fun _ => 0, []⟩
  obtain ⟨_, s', hs', _⟩ := (loadSegments_runs (A := A) obliging_readsFile
    fun i (_ : i ∈ loads table n) _ => hlen (table i).p_offset).ok (s := s₀) trivial
  have hev : Event.segment (table i) (sectionAddress table A i)
      (delivered (List.replicate (2 ^ 64) 0) (table i).p_offset (table i).p_filesz).length ∈ s'.log := by
    rw [(loadSegments_ok hs').2.1]
    exact List.mem_append_right _ (mem_segmentEvents.mpr ⟨i, hi, rfl⟩)
  have hfinal : s' =
      final (loadSegments obliging (List.replicate (2 ^ 64) 0) (unchanging table) A n s₀) := by
    rw [hs']
    rfl
  rw [hfinal] at hev
  have hinside := h _ _ _ (unchanging table) s₀ rfl (fun _ _ _ _ => rfl) _ _ _ hev hz
  rw [sectionAddress, insideImage_iff hA (filesz_pos hz), imagePages_toNat] at hinside
  exact hinside

/-- Reads that fit change nothing outside the pages. -/
theorem loadedMem_outside (h : SegmentsFit table n)
    (file : List UINT8) (mem : ByteMem) {i : Nat} (hi : i ≤ n) {x : UINT64}
    (hx : ¬ (x - A).toNat < spanPages table n * 4096) : loadedMem file table A mem i x = mem x := by
  induction i with
  | zero => rfl
  | succ i ih =>
    rw [loadedMem]
    split
    · rename_i hp
      rw [fill_outside, ih (by omega)]
      intro hin
      have hlen : (delivered file (table i).p_offset (table i).p_filesz).length ≤
          (table i).p_filesz.toNat := by
        rw [delivered, bytesFrom_length]
        exact Nat.min_le_left _ _
      have hz : (table i).p_filesz ≠ 0 := by
        intro hz
        rw [hz, delivered_zero] at hin
        exact Nat.not_lt_zero _ hin
      have hfit := h i (mem_loads.mpr ⟨hi, hp⟩) hz
      rw [sectionAddress] at hin
      have := x.isLt
      have := A.isLt
      simp only [BitVec.toNat_sub, BitVec.toNat_add] at hin hx hfit
      omega
    · exact ih (by omega)

/-- Such a loop finds its table again and again. -/
theorem loadSegments_outside {σ : Type} {fw : Firmware σ} {file : List UINT8}
    {headers : ByteMem → Nat → Elf64_Phdr} {s : LoaderState σ} (h : SegmentsFit table n)
    (hout : TableOutside headers table n A (spanPages table n) s.mem) {m : Nat} (hm : m ≤ n) :
    loadSegments fw file headers A m s = loadSegments fw file (unchanging table) A m s := by
  induction m using Nat.strong_induction_on with
  | h m ih =>
    refine loadSegments_unchanging fun i hi t ht => ?_
    rw [ih i hi (by omega)] at ht
    have hkept := hout t.mem fun x hx => by
      rw [(loadSegments_ok ht).1]
      exact loadedMem_outside h file s.mem (by omega) hx
    exact ⟨hkept i (.inl (by omega)), hkept 0 (.inr rfl)⟩

theorem stayInside_of_segmentsFit (hA : A.toNat + (imagePages table n).toNat * 4096 ≤ 2 ^ 64)
    (h : SegmentsFit table n) : LoadsStayInside table n A := by
  intro σ fw file headers s hs hout header dest k hev hz
  rw [imagePages_toNat] at hout hA
  rw [loadSegments_outside h hout (Nat.le_refl n)] at hev
  have hI : Logs (OnlySegments table A n) s := by
    intro header dest k hold
    rw [hs] at hold
    cases hold
  obtain ⟨i, hi, rfl, rfl⟩ :=
    (loadSegments_keeps onlySegments_takes (Nat.le_refl n)).final hI header dest k hev
  rw [sectionAddress, insideImage_iff (by rw [imagePages_toNat]; exact hA) (filesz_pos hz), imagePages_toNat]
  exact h i hi hz

end

/-- **Loading stays inside the allocated pages** exactly if every segment's
file bytes end, counted from entry 0's address, within the span of the
image. -/
theorem loads_stay_inside_iff (table : Nat → Elf64_Phdr) (n : Nat) (AllocatedMemory : UINT64)
    (hA : AllocatedMemory.toNat + (imagePages table n).toNat * 4096 ≤ 2 ^ 64) :
    LoadsStayInside table n AllocatedMemory ↔ SegmentsFit table n :=
  ⟨segmentsFit_of_stayInside hA, stayInside_of_segmentsFit hA⟩

/-- A program header with the given type, offset, address and sizes. -/
def headerOf (p_type : UINT32) (p_offset p_vaddr p_filesz p_memsz : UINT64) : Elf64_Phdr :=
  ⟨p_type, 5, p_offset, p_vaddr, p_vaddr, p_filesz, p_memsz, 0x1000⟩

/-- Text and data of a kernel linked at the top of the address space. -/
def higherHalfTable : Nat → Elf64_Phdr
  | 0 => headerOf PT_LOAD 0x1000 0xFFFFFFFFC0000000 0x1234 0x1234
  | _ => headerOf PT_LOAD 0x3000 0xFFFFFFFFC0002000 0x200 0x5000

theorem loads_stay_inside_higherHalf : LoadsStayInside higherHalfTable 2 0x40000000 :=
  (loads_stay_inside_iff higherHalfTable 2 0x40000000 (by decide)).mpr
    (by unfold SegmentsFit; decide)

/-- The table a linker writes for a position-independent executable: the
table's own header first, the first segment below it. -/
def phdrFirst : Nat → Elf64_Phdr
  | 0 => headerOf 6 0x40 0x40 0x70 0x70
  | _ => headerOf PT_LOAD 0 0 0x1000 0x1000

/-- The one segment is read to 64 bytes below the page it was given. -/
theorem loads_leave_phdrFirst :
    NoWrap phdrFirst 2 ∧ ¬ LoadsStayInside phdrFirst 2 0x40000000 := by
  refine ⟨by unfold NoWrap; decide, fun h => ?_⟩
  have hfit := segmentsFit_of_stayInside (by decide) h 1 (by decide) (by decide)
  revert hfit
  decide

end PiousOS.Loader
