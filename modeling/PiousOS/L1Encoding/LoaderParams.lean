import PiousOS.Core.CInt

/-!
# The loader block (`inc/bootloader/bootloader.h`)

What the bootloader hands to the kernel, as far as the modelled code reads
or writes it. Arrays behind pointers are functions of the index.
-/
namespace PiousOS

/-- The part of a graphics mode the kernel reads, `Info` inlined. -/
structure EFI_GRAPHICS_OUTPUT_PROTOCOL_MODE where
  PixelsPerScanLine : UINT32
  HorizontalResolution : UINT32
  VerticalResolution : UINT32
  deriving DecidableEq, Repr

/-- mirrors inc/bootloader/bootloader.h:13-16 -/
structure GPU_CONFIG where
  GPUArray : Nat → EFI_GRAPHICS_OUTPUT_PROTOCOL_MODE
  NumberOfFrameBuffers : UINT64

/-- mirrors inc/bootloader/bootloader.h:18-39 -/
structure LOADER_PARAMS where
  UEFI_Version : UINT32
  Bootloader_MajorVersion : UINT32
  Bootloader_MinorVersion : UINT32
  Memory_Map_Descriptor_Version : UINT32
  Memory_Map_Descriptor_Size : UINTN
  Memory_Map : UINT64
  Memory_Map_Size : UINTN
  Kernel_BaseAddress : UINT64
  Kernel_Pages : UINTN
  GPU_Configs : GPU_CONFIG

end PiousOS
