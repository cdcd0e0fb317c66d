import PiousOS.Core.Holdings
import PiousOS.Core.SearchLoop
import PiousOS.L3Loader.GraphicsMode
import PiousOS.L3Loader.WallOfShame

/-!
# The names of the graphics devices (`src/bootloader/boot.c`, `InitUEFI_GOP`)

The first half of `InitUEFI_GOP`: the graphics devices are located, and each
gets a line in `NameBuffer`. A device's names come from the driver that
manages the controller on its path, or, if there is none, from any driver
that names it as a child of a controller on a matching path.

The firmware is a state of any type and a function per service. `Print` is
left out but for the text of each error. The state keeps an account of the
pools, the controllers opened by driver, the lines stored, and what the
firmware answered for each device.
-/
namespace PiousOS.Loader
open ByteMem EarlyExit

abbrev EFI_HANDLE := UINT64

def EFI_ALREADY_STARTED : EFI_STATUS := 0x8000000000000014

/-! ## The firmware -/

inductive Protocol where
  | GraphicsOutput | ComponentName2 | DevicePath | DriverBinding | LoadedImage | FileSystem | PciIo
  deriving DecidableEq, Repr

inductive OpenAttributes where
  | GET_PROTOCOL | TEST_PROTOCOL | BY_DRIVER
  deriving DecidableEq, Repr

structure OpenRequest where
  Handle : EFI_HANDLE
  Protocol : Protocol
  AgentHandle : EFI_HANDLE
  ControllerHandle : EFI_HANDLE
  Attributes : OpenAttributes
  deriving DecidableEq, Repr

inductive Language where
  | enUS | en | eng
  deriving DecidableEq, Repr

structure HandleBuffer where
  NoHandles : UINTN
  Buffer : UINT64
  handles : UINT64 → EFI_HANDLE

def HandleBuffer.indices (b : HandleBuffer) : List UINT64 := (List.range b.NoHandles.toNat).map (BitVec.ofNat 64)

def HandleBuffer.list (b : HandleBuffer) : List EFI_HANDLE := b.indices.map b.handles

inductive NameLine where
  /-- `L"%c. %s: %s @ Memory Address 0x%llx, using %s\r\n"` -/
  | named (number : UINT64) (ControllerDisplayName ChildDisplayName : UINT64) (handle : EFI_HANDLE)
      (DriverDisplayName : UINT64)
  /-- `L"%c. Weird unknown device @ Memory Address 0x%llx (is this in a VM?)\r\n"` -/
  | unknown (number : UINT64) (handle : EFI_HANDLE)
  deriving DecidableEq, Repr

structure NameFirmware (σ : Type) where
  LocateHandleBuffer : Protocol → σ → (EFI_STATUS × HandleBuffer) × σ
  /-- status and the address of the pool -/
  AllocatePool : UINTN → σ → (EFI_STATUS × UINT64) × σ
  FreePool : UINT64 → σ → EFI_STATUS × σ
  OpenProtocol : OpenRequest → σ → (EFI_STATUS × UINT64) × σ
  /-- handle, agent and controller; the protocol is `PciIo` -/
  CloseProtocol : EFI_HANDLE → EFI_HANDLE → EFI_HANDLE → σ → EFI_STATUS × σ
  /-- status and `DriverDisplayName` afterwards -/
  GetDriverName (This : UINT64) (language : Language) (DriverName : UINT64) : σ → (EFI_STATUS × UINT64) × σ
  /-- status and the name afterwards -/
  GetControllerName (This : UINT64) (ControllerHandle ChildHandle : EFI_HANDLE) (language : Language)
    (ControllerName : UINT64) : σ → (EFI_STATUS × UINT64) × σ
  DevicePathSize : σ → UINT64 → UINTN
  DevicePathNodeLength : σ → UINT64 → UINTN
  LibMatchDevicePaths : σ → UINT64 → UINT64 → Bool
  StrSize : σ → UINT64 → UINTN
  mem : σ → ByteMem
  /-- the string in its pool, NULL if there was none -/
  CatPrint : NameLine → σ → UINT64 × σ

/-! ## The state -/

/-- The pools of the first half, by the variable that points to them. -/
inductive PoolVariable where
  | GraphicsHandles | NameBuffer | Name2Handles | DevPathHandles
  | StringName (DevNum : UINT64)
  deriving DecidableEq, Repr

structure DisplayNames where
  Driver : UINT64
  Controller : UINT64
  Child : UINT64
  deriving DecidableEq, Repr

structure NameEntry where
  DevNum : UINT64
  line : NameLine
  str : UINT64
  deriving DecidableEq, Repr

structure NamingAccount where
  stored : List NameEntry
  /-- the answers when the devices' own paths were opened -/
  answers : List EFI_STATUS
  pools : Holdings (PoolVariable × UINT64)
  /-- controller and driver of each open `BY_DRIVER` -/
  managed : Holdings (EFI_HANDLE × EFI_HANDLE)
  deriving DecidableEq, Repr

def NamingAccount.answer (a : NamingAccount) (GOPStatus : EFI_STATUS) : NamingAccount :=
  { a with answers := a.answers ++ [GOPStatus] }

def NamingAccount.store (a : NamingAccount) (e : NameEntry) : NamingAccount :=
  { a with
    stored := a.stored ++ [e]
    pools := if e.str = 0 then a.pools else a.pools.take (.StringName e.DevNum, e.str) }

structure NamingState (σ : Type) where
  firmware : σ
  names : DisplayNames
  account : NamingAccount

/-- The calls whose failure ends the function. -/
inductive NamingCall where
  | locateGraphics | allocateNameBuffer | locateName2 | locateDevPath
  | openGraphics | openController | closeManaged | openName2 | openAnyController | openAnyName2
  | freeDevPath | freeName2
  deriving DecidableEq, Repr

def NamingCall.message : NamingCall → String
  | .locateGraphics => "GraphicsTable LocateHandleBuffer error."
  | .allocateNameBuffer => "NameBuffer AllocatePool error."
  | .locateName2 => "Name2Handles LocateHandleBuffer error."
  | .locateDevPath => "DevPathHandles LocateHandleBuffer error."
  | .openGraphics => "GraphicsHandles DevicePath_Graphics OpenProtocol error."
  | .openController => "DevPathHandles OpenProtocol error."
  | .closeManaged => "DevPathHandles Name2Handles CloseProtocol error."
  | .openName2 => "Name2Device OpenProtocol error."
  | .openAnyController => "Funky DevPathHandles OpenProtocol error."
  | .openAnyName2 => "Funky Name2Device OpenProtocol error."
  | .freeDevPath => "DevPathHandles FreePool error."
  | .freeName2 => "Name2Handles FreePool error."

theorem NamingCall.message_injective : Function.Injective NamingCall.message := by
  intro c c' h
  cases c <;> cases c' <;> first | rfl | simp [message] at h

/-- `InitUEFI_GOP` returns: the call that failed, and its status. -/
structure NamingExit where
  failed : NamingCall
  GOPStatus : EFI_STATUS
  deriving DecidableEq, Repr

abbrev Naming (σ α : Type) := EStateM NamingExit (NamingState σ) α

variable {σ α : Type}

def callNaming (service : σ → α × σ) : Naming σ α :=
  fun s => .ok (service s.firmware).1 { s with firmware := (service s.firmware).2 }

def checkNaming (failed : NamingCall) (GOPStatus : EFI_STATUS) : Naming σ Unit :=
  if EFI_ERROR GOPStatus then throw ⟨failed, GOPStatus⟩ else pure ()

def record (change : NamingAccount → NamingAccount) : Naming σ Unit :=
  modify fun s => { s with account := change s.account }

def takePool (pool : PoolVariable) (address : UINT64) : Naming σ Unit :=
  record fun a => { a with pools := a.pools.take (pool, address) }

/-- What does not change while the function runs. -/
structure NameData where
  ImageHandle : EFI_HANDLE
  defaults : DisplayNames
  Wall_of_Shame : Nat → UINT64

section
variable (fw : NameFirmware σ) (d : NameData)

/-! ## Services as the loader uses them -/

def locateHandles (pool : PoolVariable) (failed : NamingCall) (protocol : Protocol) :
    Naming σ HandleBuffer := do
  let (GOPStatus, buffer) ← callNaming (fw.LocateHandleBuffer protocol)
  checkNaming failed GOPStatus
  takePool pool buffer.Buffer
  pure buffer

def allocateNameBuffer (NumHandles : UINTN) : Naming σ UINT64 := do
  let (GOPStatus, NameBuffer) ← callNaming (fw.AllocatePool (8 * NumHandles))
  checkNaming .allocateNameBuffer GOPStatus
  takePool .NameBuffer NameBuffer
  pure NameBuffer

/-- `FreePool`: the pool is given back if the call succeeds. -/
def freeHandles (pool : PoolVariable) (failed : NamingCall) (address : UINT64) : Naming σ Unit := do
  let GOPStatus ← callNaming (fw.FreePool address)
  checkNaming failed GOPStatus
  record fun a => { a with pools := a.pools.give (pool, address) }

def testRequest (Handle : EFI_HANDLE) (protocol : Protocol) : OpenRequest :=
  ⟨Handle, protocol, 0, 0, .TEST_PROTOCOL⟩

def getRequest (Handle : EFI_HANDLE) (protocol : Protocol) : OpenRequest :=
  ⟨Handle, protocol, d.ImageHandle, 0, .GET_PROTOCOL⟩

def driverRequest (Controller Driver : EFI_HANDLE) : OpenRequest :=
  ⟨Controller, .PciIo, Driver, Controller, .BY_DRIVER⟩

/-- `EFI_OPEN_PROTOCOL_TEST_PROTOCOL`: does the handle have the protocol? -/
def testProtocol (Handle : EFI_HANDLE) (protocol : Protocol) : Naming σ Bool := do
  let (GOPStatus, _) ← callNaming (fw.OpenProtocol (testRequest Handle protocol))
  pure (!EFI_ERROR GOPStatus)

def getProtocol (failed : NamingCall) (Handle : EFI_HANDLE) (protocol : Protocol) : Naming σ UINT64 := do
  let (GOPStatus, interface) ← callNaming (fw.OpenProtocol (getRequest d Handle protocol))
  checkNaming failed GOPStatus
  pure interface

/-- A driver, an image or a file system is no controller.
mirrors src/bootloader/boot.c:1007-1029, 1169-1192 -/
def skipController (Controller : EFI_HANDLE) : Naming σ Bool := do
  let hasDriverBinding ← testProtocol fw Controller .DriverBinding
  if hasDriverBinding then pure true
  else do
    let hasLoadedImage ← testProtocol fw Controller .LoadedImage
    if hasLoadedImage then pure true
    else testProtocol fw Controller .FileSystem

/-! ## Names -/

def firstSupported (get : Language → UINT64 → σ → (EFI_STATUS × UINT64) × σ) (old : UINT64) :
    Naming σ (EFI_STATUS × UINT64) := do
  let r ← callNaming (get .enUS old)
  if r.1 = EFI_UNSUPPORTED then do
    let r ← callNaming (get .en r.2)
    if r.1 = EFI_UNSUPPORTED then callNaming (get .eng r.2) else pure r
  else pure r

/-- An error leaves the default name, and says so. -/
def inLanguages (get : Language → UINT64 → σ → (EFI_STATUS × UINT64) × σ) (default old : UINT64) :
    Naming σ (Bool × UINT64) := do
  let r ← firstSupported get old
  pure (if EFI_ERROR r.1 then (false, default) else (true, r.2))

/-- mirrors src/bootloader/boot.c:1092-1108, 1225-1240 -/
def getDriverName (Name2Device : UINT64) : Naming σ Bool := do
  let s ← get
  let (answered, name) ← inLanguages (fw.GetDriverName Name2Device) d.defaults.Driver s.names.Driver
  modify fun s => { s with names := { s.names with Driver := name } }
  pure answered

/-- mirrors src/bootloader/boot.c:1110-1126, 1265-1281 -/
def getControllerName (Name2Device : UINT64) (Controller : EFI_HANDLE) : Naming σ Unit := do
  let s ← get
  let (_, name) ←
    inLanguages (fw.GetControllerName Name2Device Controller 0) d.defaults.Controller s.names.Controller
  modify fun s => { s with names := { s.names with Controller := name } }

/-- mirrors src/bootloader/boot.c:1128-1145, 1282-1299 -/
def getChildName (Name2Device : UINT64) (Controller GraphicsHandle : EFI_HANDLE) : Naming σ Unit := do
  let s ← get
  let (_, name) ←
    inLanguages (fw.GetControllerName Name2Device Controller GraphicsHandle) d.defaults.Child s.names.Child
  modify fun s => { s with names := { s.names with Child := name } }

def wallCheck (w : σ) : WallCheck := ⟨fw.mem w, fw.StrSize w, d.Wall_of_Shame, d.defaults.Driver⟩

/-- Only a name the driver answered with is looked up.
mirrors src/bootloader/boot.c:1236-1262 -/
def checkWall (answered : Bool) : Naming σ Bool :=
  if answered then do
    let s ← get
    let (name, shamed) := (wallCheck fw d s.firmware).run s.names.Driver
    modify fun s => { s with names := { s.names with Driver := name } }
    pure shamed
  else pure false

/-! ## The driver of the controller -/

/-- `CloseProtocol`: the controller is given back if the call succeeds. -/
def closeManaged (Controller Driver : EFI_HANDLE) : Naming σ Unit := do
  let GOPStatus ← callNaming (fw.CloseProtocol Controller Driver Controller)
  checkNaming .closeManaged GOPStatus
  record fun a => { a with managed := a.managed.give (Controller, Driver) }

/-- A driver manages the controller if it is told that it has already been
started. Any other is closed again.
mirrors src/bootloader/boot.c:1053-1148 -/
def tryManager (GraphicsHandle Controller Driver : EFI_HANDLE) : Naming σ Bool := do
  let (GOPStatus, _) ← callNaming (fw.OpenProtocol (driverRequest Controller Driver))
  if !EFI_ERROR GOPStatus then do
    record fun a => { a with managed := a.managed.take (Controller, Driver) }
    closeManaged fw Controller Driver
    pure false
  else if GOPStatus ≠ EFI_ALREADY_STARTED then pure false
  else do
    let Name2Device ← getProtocol fw d .openName2 Driver .ComponentName2
    let _ ← getDriverName fw d Name2Device
    getControllerName fw d Name2Device Controller
    getChildName fw d Name2Device Controller GraphicsHandle
    pure true

/-- The controller on the device's path is the only one whose drivers are
tried.
mirrors src/bootloader/boot.c:1005-1151 -/
def tryController (Name2Handles : HandleBuffer) (GraphicsHandle : EFI_HANDLE) (DevicePath_Graphics : UINT64)
    (CntlrPathSize : UINTN) (Controller : EFI_HANDLE) : Naming σ Bool := do
  let skip ← skipController fw Controller
  if skip then pure false
  else do
    let DevicePath_DevPath ← getProtocol fw d .openController Controller .DevicePath
    let s ← get
    if fw.DevicePathSize s.firmware DevicePath_DevPath ≠ CntlrPathSize then pure false
    else if fw.LibMatchDevicePaths s.firmware DevicePath_DevPath DevicePath_Graphics then do
      searchLoop (tryManager fw d GraphicsHandle Controller) Name2Handles.list
      pure true
    else pure false

/-! ## Any driver -/

/-- A driver on the wall is passed over; another one counts if it has a name
for the device as a child.
mirrors src/bootloader/boot.c:1208-1311 -/
def tryDriver (GraphicsHandle Controller Driver : EFI_HANDLE) : Naming σ Bool := do
  let Name2Device ← getProtocol fw d .openAnyName2 Driver .ComponentName2
  let answered ← getDriverName fw d Name2Device
  let shamed ← checkWall fw d answered
  if shamed then pure false
  else do
    getControllerName fw d Name2Device Controller
    getChildName fw d Name2Device Controller GraphicsHandle
    let s ← get
    pure (s.names.Child ≠ d.defaults.Child)

/-- mirrors src/bootloader/boot.c:1167-1319 -/
def tryAnyController (Name2Handles : HandleBuffer) (GraphicsHandle : EFI_HANDLE) (DevicePath_Graphics : UINT64)
    (Controller : EFI_HANDLE) : Naming σ Bool := do
  let skip ← skipController fw Controller
  if skip then pure false
  else do
    let DevicePath_DevPath ← getProtocol fw d .openAnyController Controller .DevicePath
    let s ← get
    if fw.LibMatchDevicePaths s.firmware DevicePath_DevPath DevicePath_Graphics then do
      searchLoop (tryDriver fw d GraphicsHandle Controller) Name2Handles.list
      let s ← get
      pure (s.names.Child ≠ d.defaults.Child)
    else pure false

/-! ## All devices -/

/-- mirrors src/bootloader/boot.c:996-1320 -/
def findNames (Name2Handles DevPathHandles : HandleBuffer) (GraphicsHandle : EFI_HANDLE)
    (DevicePath_Graphics : UINT64) : Naming σ Unit := do
  let s ← get
  let CntlrPathSize := fw.DevicePathSize s.firmware DevicePath_Graphics -
    fw.DevicePathNodeLength s.firmware DevicePath_Graphics + 4
  searchLoop (tryController fw d Name2Handles GraphicsHandle DevicePath_Graphics CntlrPathSize) DevPathHandles.list
  let s ← get
  if s.names = d.defaults then
    searchLoop (tryAnyController fw d Name2Handles GraphicsHandle DevicePath_Graphics) DevPathHandles.list
  else pure ()

def storeName (DevNum : UINT64) (line : NameLine) : Naming σ Unit := do
  let str ← callNaming (fw.CatPrint line)
  record (·.store ⟨DevNum, line, str⟩)

/-- One device. A status that is neither success nor an error stores nothing.
mirrors src/bootloader/boot.c:987-1341 -/
def nameDevice (GraphicsHandles Name2Handles DevPathHandles : HandleBuffer) (DevNum : UINT64) : Naming σ Unit := do
  let GraphicsHandle := GraphicsHandles.handles DevNum
  modify fun s => { s with names := d.defaults }
  let (GOPStatus, DevicePath_Graphics) ← callNaming (fw.OpenProtocol (getRequest d GraphicsHandle .DevicePath))
  record (·.answer GOPStatus)
  if GOPStatus = EFI_SUCCESS then do
    findNames fw d Name2Handles DevPathHandles GraphicsHandle DevicePath_Graphics
    let s ← get
    storeName fw DevNum
      (.named (DevNum + 0x30) s.names.Controller s.names.Child GraphicsHandle s.names.Driver)
  else if GOPStatus = EFI_UNSUPPORTED then
    storeName fw DevNum (.unknown (DevNum + 0x30) GraphicsHandle)
  else checkNaming .openGraphics GOPStatus

def nameAll (GraphicsHandles Name2Handles DevPathHandles : HandleBuffer) : Naming σ Unit :=
  GraphicsHandles.indices.forM (nameDevice fw d GraphicsHandles Name2Handles DevPathHandles)

/-- `InitUEFI_GOP` up to the selection of a device.
mirrors src/bootloader/boot.c:890-1366 -/
def nameDevices : Naming σ HandleBuffer := do
  let GraphicsHandles ← locateHandles fw .GraphicsHandles .locateGraphics .GraphicsOutput
  let _ ← allocateNameBuffer fw GraphicsHandles.NoHandles
  let Name2Handles ← locateHandles fw .Name2Handles .locateName2 .ComponentName2
  let DevPathHandles ← locateHandles fw .DevPathHandles .locateDevPath .DevicePath
  nameAll fw d GraphicsHandles Name2Handles DevPathHandles
  freeHandles fw .DevPathHandles .freeDevPath DevPathHandles.Buffer
  freeHandles fw .Name2Handles .freeName2 Name2Handles.Buffer
  pure GraphicsHandles

end

def unnamed (w : σ) (names : DisplayNames) : NamingState σ := ⟨w, names, ⟨[], [], .empty, .empty⟩⟩

end PiousOS.Loader
