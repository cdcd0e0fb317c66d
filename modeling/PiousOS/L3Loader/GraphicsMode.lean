import Mathlib.Logic.Function.Basic
import PiousOS.Core.CInt
import PiousOS.Core.EarlyReturn

/-!
# Graphics mode selection (`src/bootloader/boot.c`, `InitUEFI_GOP`)

From the multi-GPU menu to the end of `InitUEFI_GOP`: the menus, the five
ways to configure the devices, and the array of modes for the kernel. The
variables that are shared between them (`Key`, `mode`, `DevNum`, the timeout)
are in the state, so that each use finds what the last one left.

The firmware, the keyboard with it, is a state of any type and a function per
service. `GOPTable` is the index of the handle it was opened on; `Print` is
left out, but not the indices into `NameBuffer`. Every loop has fuel.
-/
namespace PiousOS.Loader
open EarlyExit

def EFI_UNSUPPORTED : EFI_STATUS := 0x8000000000000003
def EFI_NOT_READY : EFI_STATUS := 0x8000000000000006
def EFI_TIMEOUT : EFI_STATUS := 0x8000000000000012

/-- mirrors inc/bootloader/bootloader.h:11 -/
def GPU_MENU_TIMEOUT_SECONDS : UINT64 := 90

structure MODE_INFORMATION where
  Version : UINT32
  HorizontalResolution : UINT32
  VerticalResolution : UINT32
  PixelFormat : UINT32
  PixelInformation : UINT32 × UINT32 × UINT32 × UINT32
  PixelsPerScanLine : UINT32
  deriving DecidableEq, Repr

/-- `EFI_GRAPHICS_OUTPUT_PROTOCOL_MODE` with what `Info` points to. -/
structure PROTOCOL_MODE where
  MaxMode : UINT32
  Mode : UINT32
  Info : MODE_INFORMATION
  SizeOfInfo : UINTN
  FrameBufferBase : UINT64
  FrameBufferSize : UINTN
  deriving DecidableEq, Repr

def sizeofMode : UINTN := 40

structure GraphicsFirmware (σ : Type) where
  Mode : σ → UINT64 → PROTOCOL_MODE
  OpenProtocol : UINT64 → σ → EFI_STATUS × σ
  QueryMode : UINT64 → UINT32 → σ → (EFI_STATUS × MODE_INFORMATION) × σ
  SetMode : UINT64 → UINT32 → σ → EFI_STATUS × σ
  AllocatePool : UINTN → σ → EFI_STATUS × σ
  /-- what an array in a pool just allocated holds -/
  poolContents : σ → UINT64 → PROTOCOL_MODE
  FreePool : σ → EFI_STATUS × σ
  WaitForSingleEvent : σ → EFI_STATUS × σ
  /-- status and `Key.UnicodeChar` afterwards -/
  ReadKeyStroke : UINT16 → σ → (EFI_STATUS × UINT16) × σ
  Reset : σ → EFI_STATUS × σ

/-- `GPU_CONFIG` while it is filled, with the size of the array's pool. -/
structure GraphicsArray where
  NumberOfFrameBuffers : UINT64
  GPUArray : UINT64 → PROTOCOL_MODE
  size : UINTN

/-- A call of `SetMode`: the device's `MaxMode` before it, and its mode data
after it. -/
structure SetModeCall where
  device : UINT64
  mode : UINT32
  MaxMode : UINT32
  status : EFI_STATUS
  after : PROTOCOL_MODE
  deriving DecidableEq, Repr

structure GOPState (σ : Type) where
  firmware : σ
  Key : UINT16
  mode : UINT32
  DevNum : UINT64
  timeout_seconds : UINT64
  Graphics : GraphicsArray
  /-- the indices used in `GraphicsHandles` and `NameBuffer` -/
  used : List UINT64
  calls : List SetModeCall
  stored : List UINT64

/-- How `InitUEFI_GOP` ends short of its end: it returns, or waits for input
longer than it was given. -/
inductive GOPExit where
  | returned (GOPStatus : EFI_STATUS)
  | waiting
  deriving DecidableEq, Repr

abbrev GOP (σ α : Type) := EStateM GOPExit (GOPState σ) α

variable {σ α : Type}

def callGOP (service : σ → α × σ) : GOP σ α :=
  fun s => .ok (service s.firmware).1 { s with firmware := (service s.firmware).2 }

def checkGOP (GOPStatus : EFI_STATUS) : GOP σ Unit :=
  if EFI_ERROR GOPStatus then throw (.returned GOPStatus) else pure ()

def callCheckedGOP (service : σ → EFI_STATUS × σ) : GOP σ Unit := do
  let GOPStatus ← callGOP service
  checkGOP GOPStatus

def useDevice (i : UINT64) : GOP σ Unit := modify fun s => { s with used := s.used ++ [i] }

section
variable (fw : GraphicsFirmware σ) (NumHandles : UINTN) (fuel : Nat)

/-! ## Keys -/

def readKeyStroke : GOP σ EFI_STATUS := fun s =>
  let r := fw.ReadKeyStroke s.Key s.firmware
  .ok r.1.1 { s with firmware := r.2, Key := r.1.2 }

/-- `while ((GOPStatus = ReadKeyStroke(&Key)) == EFI_NOT_READY);` -/
def pollKey : GOP σ Unit :=
  loopWhile .waiting (do
    let GOPStatus ← readKeyStroke fw
    pure (GOPStatus == EFI_NOT_READY)) fuel

/-- `while(timeout_seconds)`: a second for each iteration, until a key.
mirrors src/bootloader/boot.c:1396-1413, 1891-1908 -/
def awaitKey : GOP σ Unit :=
  loopWhile .waiting (do
    let s ← get
    if s.timeout_seconds = 0 then pure false
    else do
      let GOPStatus ← callGOP fw.WaitForSingleEvent
      if GOPStatus ≠ EFI_TIMEOUT then do
        let GOPStatus ← readKeyStroke fw
        checkGOP GOPStatus
        pure false
      else do
        modify fun s => { s with timeout_seconds := s.timeout_seconds - 1 }
        pure true) fuel

def keyOutside (Key : UINT16) (last : Nat) : Bool := Key.toNat < 0x30 ∨ last < Key.toNat

/-! ## Menus -/

def printNames : GOP σ Unit :=
  modify fun s => { s with used := s.used ++ (List.range NumHandles.toNat).map (BitVec.ofNat 64) }

/-- The menu without a `DEBUG_PIOUS` build does not exist.
mirrors src/bootloader/boot.c:1378-1434 -/
def deviceOptionMenu : GOP σ Unit := do
  loopWhile .waiting (do
    let s ← get
    if keyOutside s.Key 0x33 then do
      printNames NumHandles
      awaitKey fw fuel
      let s ← get
      pure (s.timeout_seconds ≠ 0)
    else pure false) fuel
  modify fun s => if s.timeout_seconds ≠ 0 then { s with DevNum := s.Key.setWidth 64 - 0x30 } else s
  modify fun s => { s with Key := 0 }
  callCheckedGOP fw.Reset

/-- mirrors src/bootloader/boot.c:1368-1435 -/
def selectOption (DEBUG_PIOUS : Bool) : GOP σ Unit :=
  if NumHandles > 1 then do
    modify fun s => { s with DevNum := 2, timeout_seconds := GPU_MENU_TIMEOUT_SECONDS }
    if DEBUG_PIOUS then deviceOptionMenu fw NumHandles fuel else pure ()
  else pure ()

/-- `0x30 + GOPTable->Mode->MaxMode - 1`, in 32 bits. -/
def lastModeKey (GOPTable : UINT64) (s : GOPState σ) : Nat :=
  (0x30 + (fw.Mode s.firmware GOPTable).MaxMode - 1).toNat

/-- `mode` ends as the number of modes.
mirrors src/bootloader/boot.c:1482-1499 and its copies -/
def listModes (GOPTable : UINT64) : GOP σ Unit := do
  modify fun s => { s with mode := 0 }
  loopWhile .waiting (do
    let s ← get
    if s.mode < (fw.Mode s.firmware GOPTable).MaxMode then do
      let (GOPStatus, _) ← callGOP (fw.QueryMode GOPTable s.mode)
      checkGOP GOPStatus
      callCheckedGOP fw.FreePool
      modify fun s => { s with mode := s.mode + 1 }
      pure true
    else pure false) fuel

/-- The menu of options 0 and 1, which waits for ever.
mirrors src/bootloader/boot.c:1466-1511, 1587-1632 -/
def selectMode (GOPTable : UINT64) : GOP σ Unit := do
  let s ← get
  if (fw.Mode s.firmware GOPTable).MaxMode = 1 then modify fun s => { s with mode := 0 }
  else do
    loopWhile .waiting (do
      let s ← get
      if keyOutside s.Key (lastModeKey fw GOPTable s) then do
        useDevice s.DevNum
        listModes fw fuel GOPTable
        pollKey fw fuel
        pure true
      else pure false) fuel
    modify fun s => { s with mode := s.Key.setWidth 32 - 0x30, Key := 0 }

/-- mirrors src/bootloader/boot.c:1850-1926 -/
def selectModeTimed (GOPTable : UINT64) : GOP σ Unit := do
  let s ← get
  if (fw.Mode s.firmware GOPTable).MaxMode = 1 then modify fun s => { s with mode := 0 }
  else do
    modify fun s => { s with timeout_seconds := GPU_MENU_TIMEOUT_SECONDS }
    loopWhile .waiting (do
      let s ← get
      if keyOutside s.Key (lastModeKey fw GOPTable s) then do
        useDevice s.DevNum
        listModes fw fuel GOPTable
        awaitKey fw fuel
        let s ← get
        if s.timeout_seconds = 0 then do
          modify fun s => { s with mode := 0 }
          pure false
        else pure true
      else pure false) fuel
    modify fun s => if s.timeout_seconds ≠ 0 then { s with mode := s.Key.setWidth 32 - 0x30 } else s
    modify fun s => { s with Key := 0 }

/-- mirrors src/bootloader/boot.c:1755-1788 -/
def find1024x768 (GOPTable : UINT64) : GOP σ Unit := do
  modify fun s => { s with mode := 0 }
  loopWhile .waiting (do
    let s ← get
    if s.mode < (fw.Mode s.firmware GOPTable).MaxMode then do
      let (GOPStatus, GOPInfo2) ← callGOP (fw.QueryMode GOPTable s.mode)
      checkGOP GOPStatus
      callCheckedGOP fw.FreePool
      if GOPInfo2.HorizontalResolution = 1024 ∧ GOPInfo2.VerticalResolution = 768 then pure false
      else do
        modify fun s => { s with mode := s.mode + 1 }
        pure true
    else pure false) fuel
  modify fun s => if s.mode = (fw.Mode s.firmware GOPTable).MaxMode then { s with mode := 0 } else s

/-! ## Setting a mode -/

def allocateArray (NumberOfFrameBuffers : UINT64) : GOP σ Unit := do
  modify fun s => { s with Graphics := { s.Graphics with NumberOfFrameBuffers := NumberOfFrameBuffers } }
  callCheckedGOP (fw.AllocatePool (NumberOfFrameBuffers * sizeofMode))
  modify fun s => { s with Graphics := { s.Graphics with
    GPUArray := fw.poolContents s.firmware, size := NumberOfFrameBuffers * sizeofMode } }

def openDevice : GOP σ UINT64 := do
  let s ← get
  useDevice s.DevNum
  callCheckedGOP (fw.OpenProtocol s.DevNum)
  pure s.DevNum

def setMode (GOPTable : UINT64) : GOP σ EFI_STATUS := fun s =>
  let r := fw.SetMode GOPTable s.mode s.firmware
  let MaxMode := (fw.Mode s.firmware GOPTable).MaxMode
  .ok r.1 { s with
    firmware := r.2
    calls := s.calls ++ [⟨GOPTable, s.mode, MaxMode, r.1, fw.Mode r.2 GOPTable⟩] }

/-- The mode data is copied field by field, `Info` to a pool of its own.
mirrors src/bootloader/boot.c:1527-1543 and its copies -/
def storeMode (GOPTable : UINT64) : GOP σ Unit := do
  let s ← get
  callCheckedGOP (fw.AllocatePool (fw.Mode s.firmware GOPTable).SizeOfInfo)
  modify fun s =>
    let Mode := fw.Mode s.firmware GOPTable
    { s with
      Graphics := { s.Graphics with
        GPUArray := Function.update s.Graphics.GPUArray s.DevNum
          { MaxMode := Mode.MaxMode, Mode := Mode.Mode, SizeOfInfo := Mode.SizeOfInfo,
            FrameBufferBase := Mode.FrameBufferBase, FrameBufferSize := Mode.FrameBufferSize,
            Info := Mode.Info } }
      stored := s.stored ++ [s.DevNum] }

/-! ## The five configurations -/

def forDevices (body : GOP σ Unit) : GOP σ Unit := do
  modify fun s => { s with DevNum := 0 }
  loopWhile .waiting (do
    let s ← get
    if s.DevNum < NumHandles then do
      body
      modify fun s => { s with DevNum := s.DevNum + 1 }
      pure true
    else pure false) fuel

/-- mirrors src/bootloader/boot.c:1437-1545 -/
def configureIndividually : GOP σ Unit := do
  allocateArray fw NumHandles
  forDevices NumHandles fuel (do
    let GOPTable ← openDevice fw
    selectMode fw fuel GOPTable
    let GOPStatus ← setMode fw GOPTable
    checkGOP GOPStatus
    storeMode fw GOPTable)

/-- mirrors src/bootloader/boot.c:1561-1576 -/
def selectDevice : GOP σ Unit := do
  loopWhile .waiting (do
    let s ← get
    if keyOutside s.Key (0x30 + NumHandles - 1).toNat then do
      printNames NumHandles
      pollKey fw fuel
      pure true
    else pure false) fuel
  modify fun s => { s with DevNum := s.Key.setWidth 64 - 0x30, Key := 0 }

/-- mirrors src/bootloader/boot.c:1546-1663 -/
def configureOne : GOP σ Unit := do
  allocateArray fw 1
  selectDevice fw NumHandles fuel
  let GOPTable ← openDevice fw
  selectMode fw fuel GOPTable
  let GOPStatus ← setMode fw GOPTable
  checkGOP GOPStatus
  modify fun s => { s with DevNum := 0 }
  storeMode fw GOPTable

/-- mirrors src/bootloader/boot.c:1664-1724 -/
def configureDefault : GOP σ Unit := do
  allocateArray fw NumHandles
  forDevices NumHandles fuel (do
    let GOPTable ← openDevice fw
    modify fun s => { s with mode := 0 }
    let GOPStatus ← setMode fw GOPTable
    checkGOP GOPStatus
    storeMode fw GOPTable)

/-- mirrors src/bootloader/boot.c:1725-1822 -/
def configure1024x768 : GOP σ Unit := do
  allocateArray fw NumHandles
  forDevices NumHandles fuel (do
    let GOPTable ← openDevice fw
    find1024x768 fw fuel GOPTable
    let GOPStatus ← setMode fw GOPTable
    checkGOP GOPStatus
    storeMode fw GOPTable)

/-- mirrors src/bootloader/boot.c:1823-1954 -/
def configureSingle : GOP σ Unit := do
  allocateArray fw 1
  modify fun s => { s with DevNum := 0 }
  let GOPTable ← openDevice fw
  selectModeTimed fw fuel GOPTable
  let GOPStatus ← setMode fw GOPTable
  checkGOP GOPStatus
  storeMode fw GOPTable

/-! ## The end of the function -/

def configure : GOP σ Unit := do
  let s ← get
  if NumHandles > 1 ∧ s.DevNum = 0 then configureIndividually fw NumHandles fuel
  else if NumHandles > 1 ∧ s.DevNum = 1 then configureOne fw NumHandles fuel
  else if NumHandles > 1 ∧ s.DevNum = 2 then configureDefault fw NumHandles fuel
  else if NumHandles > 1 ∧ s.DevNum = 3 then configure1024x768 fw NumHandles fuel
  else configureSingle fw fuel

/-- mirrors src/bootloader/boot.c:1956-1982 -/
def freeNames : GOP σ EFI_STATUS := do
  (List.range NumHandles.toNat).forM fun StringNameFree => do
    useDevice (BitVec.ofNat 64 StringNameFree)
    callCheckedGOP fw.FreePool
  callCheckedGOP fw.FreePool
  let GOPStatus ← callGOP fw.FreePool
  checkGOP GOPStatus
  pure GOPStatus

/-- mirrors src/bootloader/boot.c:1985-1995 -/
def checkFramebuffer (GOPStatus : EFI_STATUS) : GOP σ EFI_STATUS := do
  let s ← get
  if (s.Graphics.GPUArray 0).FrameBufferBase = 0 ∨ (s.Graphics.GPUArray 0).FrameBufferSize = 0 then
    throw (.returned EFI_UNSUPPORTED)
  else pure GOPStatus

/-- `InitUEFI_GOP` once the devices are named.
mirrors src/bootloader/boot.c:1367-1996 -/
def configureGraphics (DEBUG_PIOUS : Bool) : GOP σ EFI_STATUS := do
  selectOption fw NumHandles fuel DEBUG_PIOUS
  configure fw NumHandles fuel
  let GOPStatus ← freeNames fw NumHandles
  checkFramebuffer GOPStatus

end

end PiousOS.Loader
