import PiousOS.L1Encoding.LoaderParams
import PiousOS.L4Kernel.Graphics
import PiousOS.L4Kernel.ISR
import PiousOS.L4Kernel.Memory

/-!
# InitializeSystem (`arch/kernel/*/system.c`)

Both architectures hand the loader block on to the memory, display and
interrupt code; both pass `Memory_Map_Size` where `InitializeMemory` expects
the descriptor size.

With the whole map as stride the query loops take one step over it:
`InitializeSystem_visited` says that they visit the first descriptor only.
-/
namespace PiousOS.Kernel
open ByteMem Strided

/-- The kernel's state as far as `InitializeSystem` sets it up. -/
structure KernelState where
  mainMemorySettings : MemorySettings
  display : Display
  machine : Machine

namespace X86_64

/-- mirrors arch/kernel/x86_64/system.c:48-53 -/
def InitializeSystem (p : Placement) (pusher : Nat → UINT64) (Parameters : LOADER_PARAMS)
    (k : KernelState) : KernelState where
  mainMemorySettings := InitializeMemory Parameters.Memory_Map_Size Parameters.Memory_Map_Size
    Parameters.Memory_Map Parameters.Memory_Map_Descriptor_Version
  display := InitializeDisplay (Parameters.GPU_Configs.GPUArray 0) k.display
  machine := InitializeISR p pusher k.machine

end X86_64

namespace AArch64

/-- `InitializeISR` is empty here.
mirrors arch/kernel/aarch64/system.c:7-16 -/
def InitializeSystem (Parameters : LOADER_PARAMS) (k : KernelState) : KernelState where
  mainMemorySettings := InitializeMemory Parameters.Memory_Map_Size Parameters.Memory_Map_Size
    Parameters.Memory_Map Parameters.Memory_Map_Descriptor_Version
  display := InitializeDisplay (Parameters.GPU_Configs.GPUArray 0) k.display
  machine := k.machine

end AArch64

/-- The loader block carries a map of `n` descriptors. -/
structure HandedOver (P : LOADER_PARAMS) (n : Nat) : Prop where
  stride : 0 < P.Memory_Map_Descriptor_Size.toNat
  fits : P.Memory_Map.toNat + n * P.Memory_Map_Descriptor_Size.toNat < 2 ^ 64
  size : P.Memory_Map_Size.toNat = n * P.Memory_Map_Descriptor_Size.toNat

/-- The descriptors of the map. -/
def descriptors (P : LOADER_PARAMS) (n : Nat) : List UINT64 :=
  (List.range n).map (element P.Memory_Map P.Memory_Map_Descriptor_Size)

/-- The loop of the queries ends and visits each of the `n` descriptors once,
in some order; the queries answer what their bodies make of the map, and the
total is the sum over it. -/
structure SeesMap (EfiMaxMemoryType : UINT32) (mem : ByteMem) (P : LOADER_PARAMS) (n : Nat)
    (s : MemorySettings) (fuel : Nat) (l : List UINT64) : Prop where
  ends : visited s fuel = some l
  once : l.Perm (descriptors P n)
  max : GetMaxMappedPhysicalAddress mem s fuel = some (l.foldl (fun m p => maxPiece mem p m) 0)
  usable : GetUsableSystemRam EfiMaxMemoryType mem s fuel =
    some (l.foldl (fun c p => usablePiece EfiMaxMemoryType mem p c) ⟨0, []⟩)
  total : (GetTotalSystemRam mem s fuel).map RamCount.total = some (bytesOf mem (descriptors P n))

section
variable {P : LOADER_PARAMS} {n : Nat} (h : HandedOver P n)

/-- The settings both architectures record. -/
def recordedSettings (P : LOADER_PARAMS) : MemorySettings :=
  InitializeMemory P.Memory_Map_Size P.Memory_Map_Size P.Memory_Map P.Memory_Map_Descriptor_Version

include h in
/-- The loops visit the first descriptor, if there is one, and no other. -/
theorem InitializeSystem_visited :
    visited (recordedSettings P) 2 = some ((descriptors P n).take 1) := by
  cases n with
  | zero =>
    have hsize : P.Memory_Map_Size = 0#64 := BitVec.eq_of_toNat_eq (by rw [h.size, Nat.zero_mul]; rfl)
    refine pieces_empty ?_ (by decide)
    simp only [recordedSettings, InitializeMemory, hsize, BitVec.add_zero]
    exact BitVec.lt_irrefl _
  | succ n =>
    have hstride : 1 ≤ P.Memory_Map_Descriptor_Size.toNat := h.stride
    have hpos : 0 < P.Memory_Map_Size.toNat := by
      rw [h.size]
      exact Nat.mul_pos (Nat.succ_pos n) h.stride
    have hd : Describes (recordedSettings P) 1 :=
      ⟨hpos, by
        show P.Memory_Map.toNat + 1 * P.Memory_Map_Size.toNat < 2 ^ 64
        rw [Nat.one_mul, h.size]
        exact h.fits, (Nat.one_mul _).symm⟩
    rw [visited_array hd (by decide)]
    simp [descriptors, List.range_succ_eq_map, element, recordedSettings, InitializeMemory]

include h in
theorem recordedSettings_seesMap_iff (EfiMaxMemoryType : UINT32) (mem : ByteMem) :
    (∃ fuel l, SeesMap EfiMaxMemoryType mem P n (recordedSettings P) fuel l) ↔ n ≤ 1 := by
  have hv := InitializeSystem_visited h
  have hlen : (descriptors P n).length = n := by simp [descriptors]
  constructor
  · intro hs
    obtain ⟨fuel, l, hl, hperm, -, -, -⟩ := hs
    -- with any fuel that suffices the loops visit the same
    have hsame : l = (descriptors P n).take 1 := by
      have h1 := pieces_mono hl (Nat.le_max_left fuel 2)
      have h2 := pieces_mono hv (Nat.le_max_right fuel 2)
      exact Option.some.inj (h1.symm.trans h2)
    have hcount := hperm.length_eq
    rw [hsame, List.length_take, hlen] at hcount
    omega
  · intro hn
    have htake : (descriptors P n).take 1 = descriptors P n := List.take_of_length_le (by rw [hlen]; exact hn)
    rw [htake] at hv
    refine ⟨2, descriptors P n, hv, List.Perm.refl _, ?_, ?_, ?_⟩
    · rw [GetMaxMappedPhysicalAddress, forPiece_eq, hv, Option.map_some]
    · rw [GetUsableSystemRam, forPiece_eq, hv, Option.map_some]
    · rw [GetTotalSystemRam_eq, hv]
      rfl

end

/-- **The memory queries see the map only if it is one descriptor.** On both
architectures, after `InitializeSystem`, the loops visit each of the `n`
descriptors once exactly if there is at most one. -/
theorem queries_see_map_iff (p : Placement) (pusher : Nat → UINT64) (P : LOADER_PARAMS) (n : Nat)
    (h : HandedOver P n) (k : KernelState) (EfiMaxMemoryType : UINT32) (mem : ByteMem) :
    ((∃ fuel l, SeesMap EfiMaxMemoryType mem P n
        (X86_64.InitializeSystem p pusher P k).mainMemorySettings fuel l) ↔ n ≤ 1) ∧
      ((∃ fuel l, SeesMap EfiMaxMemoryType mem P n
        (AArch64.InitializeSystem P k).mainMemorySettings fuel l) ↔ n ≤ 1) :=
  ⟨recordedSettings_seesMap_iff h EfiMaxMemoryType mem, recordedSettings_seesMap_iff h EfiMaxMemoryType mem⟩

/-- A loader block with `n` descriptors of 48 bytes at 1 MiB. -/
def mapAt1M (n : Nat) : LOADER_PARAMS where
  UEFI_Version := 0x20046
  Bootloader_MajorVersion := 1
  Bootloader_MinorVersion := 0
  Memory_Map_Descriptor_Version := 1
  Memory_Map_Descriptor_Size := 48
  Memory_Map := 0x100000
  Memory_Map_Size := BitVec.ofNat 64 (48 * n)
  Kernel_BaseAddress := 0x200000
  Kernel_Pages := 16
  GPU_Configs := ⟨fun _ => panel1366, 1⟩

def beforeSetup : KernelState where
  mainMemorySettings := ⟨0, 0, 0, 0⟩
  display := panelOff panel1366
  machine := atEntry higherHalf.toObjects

theorem queries_see_map_one :
    ∃ fuel l, SeesMap 15 (fun _ => 1) (mapAt1M 1) 1
      (AArch64.InitializeSystem (mapAt1M 1) beforeSetup).mainMemorySettings fuel l :=
  (queries_see_map_iff higherHalf (fun _ => 0) (mapAt1M 1) 1 ⟨by decide, by decide, by decide⟩ beforeSetup
    15 (fun _ => 1)).2.mpr (Nat.le_refl 1)

/-- Of two descriptors the queries see one. -/
theorem queries_miss_second :
    ¬ ∃ fuel l, SeesMap 15 (fun _ => 1) (mapAt1M 2) 2
      (AArch64.InitializeSystem (mapAt1M 2) beforeSetup).mainMemorySettings fuel l := by
  intro h
  have hone := (recordedSettings_seesMap_iff (n := 2) ⟨by decide, by decide, by decide⟩ 15
    (fun _ => 1)).mp h
  omega

end PiousOS.Kernel
