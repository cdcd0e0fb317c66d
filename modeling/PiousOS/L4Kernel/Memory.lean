import Mathlib.Data.BitVec
import PiousOS.L1Encoding.MemoryMap
import PiousOS.Core.Strided

/-!
# Memory map queries (`src/kernel/memory.c`)

The kernel keeps the memory map as the bootloader left it in memory: an
array of descriptors whose stride the firmware chooses. `InitializeMemory`
records where it is; the three queries run the same strided loop over it
with different bodies.

`visited` is the list of descriptors the loop of a query visits. Each query
is a fold over it (`GetTotalSystemRam_eq` and its siblings), and
`visited_array` says what it is when the settings describe the array.
-/
namespace PiousOS.Kernel
open ByteMem Strided

/-- mirrors inc/kernel/memory.h:7-13 -/
structure MemorySettings where
  memMapSize : UINTN
  memMapDescriptorSize : UINTN
  memMap : UINT64
  memMapDescriptorVersion : UINT32
  deriving DecidableEq, Repr

/-- mirrors src/kernel/memory.c:27-33 -/
def InitializeMemory (MapSize DescriptorSize : UINTN) (Map : UINT64) (DescriptorVersion : UINT32) :
    MemorySettings where
  memMap := Map
  memMapDescriptorVersion := DescriptorVersion
  memMapDescriptorSize := DescriptorSize
  memMapSize := MapSize

/-- The loop the queries share: `Piece` runs from `memMap` below
`memMap + memMapSize` in steps of `memMapDescriptorSize`. -/
def forPiece {σ : Type} (s : MemorySettings) (body : UINT64 → σ → σ) (fuel : Nat) (init : σ) :
    Option σ :=
  forPieces (s.memMap + s.memMapSize) s.memMapDescriptorSize body fuel s.memMap init

/-- One step of the maximum. `+` binds tighter than `<<` in C, so the shift
applies to the sum. -/
def maxPiece (mem : ByteMem) (Piece maxAddress : UINT64) : UINT64 :=
  let currentAddress := (PhysicalStart mem Piece + NumberOfPages mem Piece) <<< EFI_PAGE_SHIFT
  if currentAddress > maxAddress then currentAddress else maxAddress

/-- mirrors src/kernel/memory.c:56-70 -/
def GetMaxMappedPhysicalAddress (mem : ByteMem) (s : MemorySettings) (fuel : Nat) : Option UINT64 :=
  forPiece s (maxPiece mem) fuel 0

/-- What a summing query has so far: its total and the page counts it has
printed. -/
structure RamCount where
  total : UINT64
  printed : List UINT64
  deriving DecidableEq, Repr

/-- Print the descriptor's page count and add its bytes. -/
def countPiece (mem : ByteMem) (Piece : UINT64) (c : RamCount) : RamCount where
  printed := c.printed ++ [NumberOfPages mem Piece]
  total := c.total + NumberOfPages mem Piece <<< EFI_PAGE_SHIFT

/-- Four types are left out. `EfiMaxMemoryType` is the header's, which
depends on its version. -/
def usablePiece (EfiMaxMemoryType : UINT32) (mem : ByteMem) (Piece : UINT64) (c : RamCount) : RamCount :=
  if pieceType mem Piece ≠ EfiMemoryMappedIO ∧ pieceType mem Piece ≠ EfiMemoryMappedIOPortSpace ∧
      pieceType mem Piece ≠ EfiPalCode ∧ pieceType mem Piece ≠ EfiMaxMemoryType
  then countPiece mem Piece c else c

/-- mirrors src/kernel/memory.c:73-92 -/
def GetUsableSystemRam (EfiMaxMemoryType : UINT32) (mem : ByteMem) (s : MemorySettings) (fuel : Nat) :
    Option RamCount :=
  forPiece s (usablePiece EfiMaxMemoryType mem) fuel ⟨0, []⟩

/-- mirrors src/kernel/memory.c:94-106 -/
def GetTotalSystemRam (mem : ByteMem) (s : MemorySettings) (fuel : Nat) : Option RamCount :=
  forPiece s (countPiece mem) fuel ⟨0, []⟩

/-! ## What the loops visit -/

/-- The descriptors the loop of a query visits. -/
def visited (s : MemorySettings) (fuel : Nat) : Option (List UINT64) :=
  pieces (s.memMap + s.memMapSize) s.memMapDescriptorSize fuel s.memMap

theorem forPiece_eq {σ : Type} (s : MemorySettings) (body : UINT64 → σ → σ) (fuel : Nat) (init : σ) :
    forPiece s body fuel init = (visited s fuel).map fun l => l.foldl (fun c p => body p c) init :=
  forPieces_eq _ _ _ _ _ _

/-- The bytes of a list of descriptors, modulo 2^64. -/
def bytesOf (mem : ByteMem) (l : List UINT64) : UINT64 :=
  (l.map fun Piece => NumberOfPages mem Piece <<< EFI_PAGE_SHIFT).sum

theorem foldl_countPiece (mem : ByteMem) (l : List UINT64) (c : RamCount) :
    l.foldl (fun c p => countPiece mem p c) c =
      ⟨c.total + bytesOf mem l, c.printed ++ l.map (NumberOfPages mem)⟩ := by
  induction l generalizing c with
  | nil => simp [bytesOf]
  | cons p l ih =>
    rw [List.foldl_cons, ih]
    simp [countPiece, bytesOf, BitVec.add_assoc]

/-- The total is the sum over what the loop visits. -/
theorem GetTotalSystemRam_eq (mem : ByteMem) (s : MemorySettings) (fuel : Nat) :
    GetTotalSystemRam mem s fuel =
      (visited s fuel).map fun l => ⟨bytesOf mem l, l.map (NumberOfPages mem)⟩ := by
  simp only [GetTotalSystemRam, forPiece_eq, foldl_countPiece, List.nil_append]
  congr
  funext l
  simp

/-- Settings that describe an array of `n` descriptors of size `d`. -/
structure Describes (s : MemorySettings) (n : Nat) : Prop where
  pos : 0 < s.memMapDescriptorSize.toNat
  fits : s.memMap.toNat + n * s.memMapDescriptorSize.toNat < 2 ^ 64
  size : s.memMapSize.toNat = n * s.memMapDescriptorSize.toNat

theorem Describes.stop {s : MemorySettings} {n : Nat} (h : Describes s n) :
    s.memMap + s.memMapSize = element s.memMap s.memMapDescriptorSize n := by
  apply BitVec.eq_of_toNat_eq
  rw [element_toNat h.fits (Nat.le_refl n), BitVec.toNat_add, h.size]
  exact Nat.mod_eq_of_lt h.fits

/-- The loops visit the descriptors of the array in order. -/
theorem visited_array {s : MemorySettings} {n fuel : Nat} (h : Describes s n) (hf : n < fuel) :
    visited s fuel = some ((List.range n).map (element s.memMap s.memMapDescriptorSize)) :=
  pieces_array h.pos h.fits h.stop hf

end PiousOS.Kernel
