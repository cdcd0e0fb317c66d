import PiousOS.L3Loader.ElfImage

/-!
# The memory map the kernel is given

Whole runs of `BootKernel` against a firmware that follows the memory map
protocol (`MapProtocol`).

* `kernel_map_accepted_iff`: a run that enters the kernel hands it the map
  the firmware accepted exactly if that map fitted the buffer of the last
  `GetMemoryMap`.
* `kernel_map_fits`: it always does if the firmware leaves no current key
  behind when a buffer is too small.
-/
namespace PiousOS.Loader
open EarlyExit

variable {σ : Type}

section
variable {fw : Firmware σ} {fuel : Nat} {p : BootParams} {size key : σ → UINTN}
  {s s' : LoaderState σ} {entry : Entry}

theorem handOver_ok {image : Image} (h : handOver fw p image s = .ok entry s') :
    ∃ s₁ v, leaveBootServices fw p.unset s₁ = .ok v s' ∧ s₁.log = s.log ∧
      entry = ⟨image.Header_memory, loaderBlock p image v, v.pool⟩ := by
  obtain ⟨_, s₁, h₁, hrest⟩ := ok_of_bind h
  obtain ⟨v, s₂, h₂, hpure⟩ := ok_of_bind hrest
  cases hpure
  exact ⟨s₁, v, h₂, (allocatePoolChecked_keeps (logs_loaderOnly (J := fun l => l = s.log)) _).ok rfl h₁, rfl⟩

/-- The parts of a run that enters the kernel. -/
theorem bootKernel_ok (h : bootKernel fw fuel p s = .ok entry s') :
    ∃ s₁ image s₂, (s₁.log = s.log ∧ s₁.mem = s.mem) ∧
      loadKernel fw fuel p (seenHeader p) s₁ = .ok image s₂ ∧ handOver fw p image s₂ = .ok entry s' := by
  obtain ⟨_, s₀, h₀, hrest⟩ := ok_of_bind h
  obtain ⟨header, s₁, h₁, hload⟩ := ok_of_bind hrest
  obtain ⟨image, s₂, h₂, hhand⟩ := ok_of_bind hload
  have hlog₀ := (openKernel_keeps (logs_fileOnly (J := fun l => l = s.log))).ok rfl h₀
  obtain ⟨rfl, hlog₁⟩ := (readHeader_returns (J := fun l => l = s.log)).ok hlog₀ h₁
  have hmem₀ := (openKernel_keeps (sameMem_fileOnly s.mem)).ok rfl h₀
  have hmem₁ := (readHeader_keeps (sameMem_fileOnly s.mem)).ok hmem₀ h₁
  exact ⟨s₁, image, s₂, ⟨hlog₁, hmem₁⟩, h₂, hhand⟩

theorem bootKernel_left (h : bootKernel fw fuel p s = .ok entry s') :
    ∃ s₁ v, leaveBootServices fw p.unset s₁ = .ok v s' ∧ HoldsMap entry.Loader_block v ∧
      entry.mapPool = v.pool := by
  obtain ⟨_, image, s₂, _, _, hhand⟩ := bootKernel_ok h
  obtain ⟨s₁, v, hv, _, rfl⟩ := handOver_ok hhand
  exact ⟨s₁, v, hv, ⟨rfl, rfl, rfl, rfl⟩, rfl⟩

end

/-- **The map given to the kernel is the one the firmware accepted** exactly
if the last map fetched fitted the pool allocated for it. -/
theorem kernel_map_accepted_iff (fw : Firmware σ) (size key : σ → UINTN) (hfw : MapProtocol fw size key)
    (fuel : Nat) (p : BootParams) (s s' : LoaderState σ) (entry : Entry)
    (hrun : bootKernel fw fuel p s = .ok entry s') :
    MapAccepted entry.Loader_block entry.mapPool s'.log ↔ LastMapFits size s'.log := by
  obtain ⟨s₁, v, hv, hholds, hpool⟩ := bootKernel_left hrun
  rw [hpool]
  exact leaveBootServices_accepted_iff hfw hv hholds

/-- A firmware whose `GetMemoryMap` gives away the current key only with the
map always has the kernel given the accepted map. -/
theorem kernel_map_fits (fw : Firmware σ) (size key : σ → UINTN) (hfw : MapProtocol fw size key)
    (hstale : ∀ n p w, n < size w → (fw.GetMemoryMap n p w).1.MemMapKey ≠ key w)
    (fuel : Nat) (p : BootParams) (s s' : LoaderState σ) (entry : Entry)
    (hrun : bootKernel fw fuel p s = .ok entry s') : LastMapFits size s'.log := by
  obtain ⟨s₁, v, hv, _, _⟩ := bootKernel_left hrun
  exact leaveBootServices_fits hfw hstale hv

/-! ## A firmware whose map grows -/

/-- Has the map been asked for, and has it grown since? -/
structure PoolState where
  asked : Bool
  grown : Bool
  deriving DecidableEq, Repr

def PoolState.size (w : PoolState) : UINTN := if w.grown then 528 else 480
def PoolState.key (w : PoolState) : UINTN := if w.grown then 8 else 7

/-- A firmware with a map of ten descriptors. It gives the current key with
every answer; if `grows`, the pool for the map takes one more descriptor. -/
def tenDescriptors (grows : Bool) : Firmware PoolState where
  OpenProtocol w := (EFI_SUCCESS, w)
  OpenVolume w := (EFI_SUCCESS, w)
  Open w := (EFI_SUCCESS, w)
  GetInfo size w := ((EFI_SUCCESS, size), w)
  SetPosition _ w := (EFI_SUCCESS, w)
  Read _ w := (EFI_SUCCESS, w)
  AllocatePool _ w := ((EFI_SUCCESS, 0x10000), { w with grown := grows && w.asked })
  FreePool _ w := (EFI_SUCCESS, w)
  AllocatePages _ _ w := (EFI_SUCCESS, w)
  FreePages _ _ w := (EFI_SUCCESS, w)
  GetMemoryMap n _ w :=
    (⟨if n < w.size then EFI_BUFFER_TOO_SMALL else EFI_SUCCESS, w.size, w.key, 48, 1, fun _ => 0⟩,
      { w with asked := true })
  ExitBootServices k w := (if k = w.key then EFI_SUCCESS else EFI_INVALID_PARAMETER, w)
  tableFrames w := (fun k => some (0x100000 + BitVec.ofNat 64 k * 4096), w)
  strayWrites _ mem := mem
  freedContents _ := fun _ => 0
  cr3 := 0x80000

theorem tenDescriptors_protocol (grows : Bool) :
    MapProtocol (tenDescriptors grows) PoolState.size PoolState.key where
  small n p w h := ⟨if_pos h, rfl⟩
  fits n p w h := ⟨if_neg h, rfl, rfl⟩
  unchanged n p w := ⟨rfl, rfl⟩
  exit_current w := if_pos rfl
  exit_stale k w h := by
    show EFI_ERROR (if k = w.key then EFI_SUCCESS else EFI_INVALID_PARAMETER) = true
    rw [if_neg h]
    decide

def untouched : PoolState := ⟨false, false⟩

theorem untouched_serves {α : Type} {status : α → EFI_STATUS}
    {service : PoolState → α × PoolState} (h : status (service untouched).1 = EFI_SUCCESS)
    (hw : (service untouched).2 = untouched) : Serves (fun w => w = untouched) status service := by
  rintro w rfl
  rw [h, hw]
  exact ⟨EFI_ERROR_success, rfl⟩

theorem tenDescriptors_obliging (grows : Bool) :
    Obliging (tenDescriptors grows) fun w => w = untouched where
  setPosition _ := untouched_serves rfl rfl
  read _ := untouched_serves rfl rfl
  openProtocol := untouched_serves rfl rfl
  openVolume := untouched_serves rfl rfl
  openFile := untouched_serves rfl rfl
  getInfo _ := untouched_serves rfl rfl
  allocatePool _ := untouched_serves rfl (by cases grows <;> rfl)
  freePool _ := untouched_serves rfl rfl
  allocatePages _ _ := untouched_serves rfl rfl
  tableFrames _ hw := hw
  strayWrites _ _ := rfl

/-- The pool is as large as the map was when it was asked for. -/
theorem fetchMemMap_tenDescriptors (grows : Bool) {v : MapVars} (hv : v.MemMapSize = 0) :
    Runs (fun s => s.firmware = untouched) (fetchMemMap (tenDescriptors grows) v)
      fun v s => s.firmware = ⟨true, grows⟩ ∧ v.MemMapSize = PoolState.size ⟨true, grows⟩ ∧
        v.MemMapKey = PoolState.key ⟨true, grows⟩ ∧ v.pool = 480 ∧
        ∃ earlier p reply, s.log = earlier ++ [.memoryMap ⟨true, grows⟩ 480 p reply] := by
  refine Triple.bind (R := fun r (s : LoaderState PoolState) =>
    r.1 = EFI_BUFFER_TOO_SMALL ∧ r.2.MemMapSize = 480 ∧ s.firmware = ⟨true, false⟩)
    (fun s hs => ?_) fun r => ?_
  · show (((tenDescriptors grows).GetMemoryMap v.MemMapSize v.MemMap s.firmware).1.status = _ ∧
      ((tenDescriptors grows).GetMemoryMap v.MemMapSize v.MemMap s.firmware).1.MemMapSize = _ ∧
      ((tenDescriptors grows).GetMemoryMap v.MemMapSize v.MemMap s.firmware).2 = _)
    rw [hs, hv]
    exact ⟨rfl, rfl, rfl⟩
  refine Triple.ite (fun _ => ?_) fun hno s hs => absurd hs.1 hno
  refine Triple.bind (R := fun a (s : LoaderState PoolState) =>
    EFI_ERROR a.1 = false ∧ r.2.MemMapSize = 480 ∧ s.firmware = ⟨true, grows⟩) (fun s hs => ?_) fun a => ?_
  · refine ⟨EFI_ERROR_success, hs.2.1, ?_⟩
    show ((tenDescriptors grows).AllocatePool r.2.MemMapSize s.firmware).2 = _
    rw [hs.2.2]
    cases grows
    · rfl
    · rfl
  refine Triple.bind check_runs fun _ => ?_
  rintro ⟨w, position, mem, log⟩ ⟨hsize, rfl⟩
  refine ⟨rfl, rfl, rfl, hsize, log, a.2,
    ((tenDescriptors grows).GetMemoryMap r.2.MemMapSize a.2 ⟨true, grows⟩).1, ?_⟩
  show log ++ [.memoryMap ⟨true, grows⟩ r.2.MemMapSize _ _] = _
  rw [hsize]

/-- Boot services are left at the first attempt. -/
theorem handOver_tenDescriptors (grows : Bool) (p : BootParams) (image : Image) :
    Runs (fun s => s.firmware = untouched) (handOver (tenDescriptors grows) p image)
      fun entry s => entry.Loader_block.Memory_Map_Size = PoolState.size ⟨true, grows⟩ ∧
        entry.mapPool = 480 ∧
        ∃ earlier p reply k status, s.log = earlier ++
          [.memoryMap ⟨true, grows⟩ 480 p reply, .exitBootServices k status] := by
  have any : LoaderOnly fun _ : LoaderState PoolState => True := fun _ _ _ => trivial
  refine Triple.bind ((allocatePoolChecked_runs (tenDescriptors_obliging grows) any _).consequence
    (fun s hs => ⟨hs, trivial⟩) (fun _ _ hs => hs.1) fun _ _ hs => hs) fun _ => ?_
  refine Triple.bind (R := fun v (s : LoaderState PoolState) =>
    v.MemMapSize = PoolState.size ⟨true, grows⟩ ∧ v.pool = 480 ∧
      ∃ earlier p reply k status, s.log = earlier ++
        [.memoryMap ⟨true, grows⟩ 480 p reply, .exitBootServices k status]) ?_ fun v =>
    Triple.pure fun s hs => hs
  refine Triple.bind (R := fun r (s : LoaderState PoolState) => EFI_ERROR r.1 = false ∧
    r.2.MemMapSize = PoolState.size ⟨true, grows⟩ ∧ r.2.pool = 480 ∧
      ∃ earlier p reply k status, s.log = earlier ++
        [.memoryMap ⟨true, grows⟩ 480 p reply, .exitBootServices k status]) ?_ fun r => ?_
  · refine Triple.bind (fetchMemMap_tenDescriptors grows rfl) fun v => ?_
    rintro s ⟨hw, hsize, hkey, hpool, earlier, q, reply, hlog⟩
    refine ⟨?_, hsize, hpool, earlier, q, reply, v.MemMapKey,
      ((tenDescriptors grows).ExitBootServices v.MemMapKey s.firmware).1, ?_⟩
    · show EFI_ERROR ((tenDescriptors grows).ExitBootServices v.MemMapKey s.firmware).1 = false
      rw [hw, hkey, (tenDescriptors_protocol grows).exit_current]
      exact EFI_ERROR_success
    · show s.log ++ _ = _
      rw [hlog, List.append_assoc]
      rfl
  · refine Triple.ite (fun he s hs => ?_) fun he => Triple.ite (fun h s hs => ?_) fun _ =>
      Triple.pure fun s hs => hs.2
    · rw [hs.1] at he
      cases he
    · exact absurd h he

def atBootTen : LoaderState PoolState := ⟨untouched, 0, fun _ => 0xFF, []⟩

set_option maxRecDepth 20000 in
theorem twoSegments_loadable : Loadable (bootParams twoSegments) := by
  intro _
  decide

/-- The kernel is entered with a map in a pool of 480 bytes. -/
theorem tenDescriptors_enters (grows : Bool) :
    ∃ entry s', bootKernel (tenDescriptors grows) 0 (bootParams twoSegments) atBootTen = .ok entry s' ∧
      entry.Loader_block.Memory_Map_Size = PoolState.size ⟨true, grows⟩ ∧ entry.mapPool = 480 ∧
      ∃ earlier p reply k status, s'.log = earlier ++
        [.memoryMap ⟨true, grows⟩ 480 p reply, .exitBootServices k status] := by
  obtain ⟨_, image, s₂, _, _, hs₂, hrun⟩ := bootKernel_reaches_handOver
    (tenDescriptors_obliging grows) 0 twoSegments_loadable (fun _ hs _ =>
      twoSegments_leavesTable.kept (tenDescriptors_obliging grows) (fun _ _ => rfl) 0 hs) (s := atBootTen) rfl
  obtain ⟨entry, s', hhand, h⟩ := (handOver_tenDescriptors grows (bootParams twoSegments) image).ok hs₂
  exact ⟨entry, s', hrun.trans hhand, h⟩

theorem kernel_map_accepted_tenDescriptors :
    ∃ entry s', bootKernel (tenDescriptors false) 0 (bootParams twoSegments) atBootTen = .ok entry s' ∧
      MapAccepted entry.Loader_block entry.mapPool s'.log := by
  obtain ⟨entry, s', hrun, _, _, earlier, _, _, _, _, hlog⟩ := tenDescriptors_enters false
  exact ⟨entry, s', hrun, (kernel_map_accepted_iff _ _ _ (tenDescriptors_protocol false) 0 _ _ _ _
    hrun).mpr ⟨earlier, _, _, _, _, _, _, hlog, by decide⟩⟩

/-- A map that has grown by one descriptor while its pool was allocated: the
kernel is told of 528 bytes in a pool of 480. -/
theorem kernel_map_outgrown :
    MapProtocol (tenDescriptors true) PoolState.size PoolState.key ∧
    ∃ entry s', bootKernel (tenDescriptors true) 0 (bootParams twoSegments) atBootTen = .ok entry s' ∧
      ¬ MapAccepted entry.Loader_block entry.mapPool s'.log := by
  obtain ⟨entry, s', hrun, hsize, hpool, _⟩ := tenDescriptors_enters true
  refine ⟨tenDescriptors_protocol true, entry, s', hrun, fun h => ?_⟩
  have hle := h.2
  rw [hsize, hpool] at hle
  revert hle
  decide

end PiousOS.Loader
