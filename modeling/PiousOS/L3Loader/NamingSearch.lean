import Mathlib.Data.List.Induction
import PiousOS.L3Loader.DeviceNames

/-!
# Which names a device is listed with

**The firmware (`Steady`, a hypothesis).** What it answers about handles,
paths and names does not change while the devices are named; a controller
that is opened by a driver and closed again is as it was.

Then a device has the names its own driver gives it: the driver that manages
the first controller on its path (`ownNames`). If these are the defaults, the
pairs of a controller on a matching path and a driver are gone through, and
the first driver that is not on the wall and has a name for the child decides
(`anyNames`). If none has, the names are what is left of the last pairs, not
the defaults.

Results:
* `findNames_spec`: the two searches find these names.
* `devices_listed_by_driver`: the lines of all devices.
-/
namespace PiousOS.Loader
open EarlyExit

variable {σ α : Type}

/-! ## What the firmware has to say -/

structure Answers where
  LocateHandleBuffer : Protocol → EFI_STATUS × HandleBuffer
  OpenProtocol : OpenRequest → EFI_STATUS × UINT64
  CloseProtocol : EFI_HANDLE → EFI_HANDLE → EFI_STATUS
  DriverName : UINT64 → Language → EFI_STATUS × UINT64
  ControllerName : UINT64 → EFI_HANDLE → EFI_HANDLE → Language → EFI_STATUS × UINT64
  DevicePathSize : UINT64 → UINTN
  DevicePathNodeLength : UINT64 → UINTN
  LibMatchDevicePaths : UINT64 → UINT64 → Bool
  /-- the driver's name is on the wall -/
  shamed : UINT64 → Bool

def Answers.handles (A : Answers) (protocol : Protocol) : HandleBuffer := (A.LocateHandleBuffer protocol).2

/-- The same status, and the same name if there is one. -/
def SameName (r r' : EFI_STATUS × UINT64) : Prop := r.1 = r'.1 ∧ (EFI_ERROR r'.1 = false → r.2 = r'.2)

/-- In its states in `K` the firmware gives the answers `A`, and stays there;
it may leave `K` while a controller is open by driver. -/
structure Steady (fw : NameFirmware σ) (d : NameData) (A : Answers) (K : σ → Prop) : Prop where
  LocateHandleBuffer : ∀ p w, K w →
    (fw.LocateHandleBuffer p w).1 = A.LocateHandleBuffer p ∧ K (fw.LocateHandleBuffer p w).2
  AllocatePool : ∀ size w, K w → K (fw.AllocatePool size w).2
  FreePool : ∀ address w, K w → K (fw.FreePool address w).2
  OpenProtocol : ∀ r w, K w → (fw.OpenProtocol r w).1 = A.OpenProtocol r
  opened : ∀ r w, K w → r.Attributes ≠ .BY_DRIVER ∨ EFI_ERROR (A.OpenProtocol r).1 = true → K (fw.OpenProtocol r w).2
  closed : ∀ c n w, K w → EFI_ERROR (A.OpenProtocol (driverRequest c n)).1 = false →
    (fw.CloseProtocol c n c (fw.OpenProtocol (driverRequest c n) w).2).1 = A.CloseProtocol c n ∧
      (EFI_ERROR (A.CloseProtocol c n) = false →
        K (fw.CloseProtocol c n c (fw.OpenProtocol (driverRequest c n) w).2).2)
  GetDriverName : ∀ This language old w, K w →
    SameName (fw.GetDriverName This language old w).1 (A.DriverName This language) ∧
      K (fw.GetDriverName This language old w).2
  GetControllerName : ∀ This c child language old w, K w →
    SameName (fw.GetControllerName This c child language old w).1 (A.ControllerName This c child language) ∧
      K (fw.GetControllerName This c child language old w).2
  DevicePathSize : ∀ w, K w → fw.DevicePathSize w = A.DevicePathSize
  DevicePathNodeLength : ∀ w, K w → fw.DevicePathNodeLength w = A.DevicePathNodeLength
  LibMatchDevicePaths : ∀ w, K w → fw.LibMatchDevicePaths w = A.LibMatchDevicePaths
  wall : ∀ w name, K w → ((wallCheck fw d w).run name).2 = A.shamed name
  CatPrint : ∀ line w, K w → K (fw.CatPrint line w).2

/-! ## The names, as answers -/

/-- The answer in the first language that is supported, or in the last. -/
def supported (f : Language → EFI_STATUS × UINT64) : EFI_STATUS × UINT64 :=
  if (f .enUS).1 = EFI_UNSUPPORTED then if (f .en).1 = EFI_UNSUPPORTED then f .eng else f .en else f .enUS

/-- Whether there is a name, and the name or the default. -/
def nameOr (default : UINT64) (f : Language → EFI_STATUS × UINT64) : Bool × UINT64 :=
  if EFI_ERROR (supported f).1 then (false, default) else (true, (supported f).2)

section
variable (A : Answers) (d : NameData)

/-- `Name2Device` -/
def name2Of (Driver : EFI_HANDLE) : UINT64 := (A.OpenProtocol (getRequest d Driver .ComponentName2)).2

def driverName (Driver : EFI_HANDLE) : Bool × UINT64 := nameOr d.defaults.Driver (A.DriverName (name2Of A d Driver))

def controllerName (Controller Driver : EFI_HANDLE) : UINT64 :=
  (nameOr d.defaults.Controller (A.ControllerName (name2Of A d Driver) Controller 0)).2

def childName (GraphicsHandle Controller Driver : EFI_HANDLE) : UINT64 :=
  (nameOr d.defaults.Child (A.ControllerName (name2Of A d Driver) Controller GraphicsHandle)).2

/-- All that a driver says. -/
def namesFrom (GraphicsHandle Controller Driver : EFI_HANDLE) : DisplayNames :=
  ⟨(driverName A d Driver).2, controllerName A d Controller Driver, childName A d GraphicsHandle Controller Driver⟩

def hasProtocol (Handle : EFI_HANDLE) (protocol : Protocol) : Bool :=
  !EFI_ERROR (A.OpenProtocol (testRequest Handle protocol)).1

def isController (Handle : EFI_HANDLE) : Bool :=
  !(hasProtocol A Handle .DriverBinding || hasProtocol A Handle .LoadedImage || hasProtocol A Handle .FileSystem)

def pathOf (Handle : EFI_HANDLE) : UINT64 := (A.OpenProtocol (getRequest d Handle .DevicePath)).2

/-- A controller on a path that matches the device's. -/
def onPath (GraphicsHandle Controller : EFI_HANDLE) : Bool :=
  isController A Controller && A.LibMatchDevicePaths (pathOf A d Controller) (pathOf A d GraphicsHandle)

/-- The path is the device's but for its last node. -/
def rightSize (GraphicsHandle Controller : EFI_HANDLE) : Bool :=
  A.DevicePathSize (pathOf A d Controller) =
    A.DevicePathSize (pathOf A d GraphicsHandle) - A.DevicePathNodeLength (pathOf A d GraphicsHandle) + 4

def onOwnPath (GraphicsHandle Controller : EFI_HANDLE) : Bool :=
  onPath A d GraphicsHandle Controller && rightSize A d GraphicsHandle Controller

def manages (Controller Driver : EFI_HANDLE) : Bool :=
  (A.OpenProtocol (driverRequest Controller Driver)).1 = EFI_ALREADY_STARTED

def onWallOfShame (Driver : EFI_HANDLE) : Bool := (driverName A d Driver).1 && A.shamed (driverName A d Driver).2

/-- The driver's name after the check. -/
def checkedName (Driver : EFI_HANDLE) : UINT64 :=
  if onWallOfShame A d Driver then d.defaults.Driver else (driverName A d Driver).2

/-- Controller and driver give the device a name as a child. -/
def namesChild (GraphicsHandle : EFI_HANDLE) (p : EFI_HANDLE × EFI_HANDLE) : Bool :=
  !onWallOfShame A d p.2 && childName A d GraphicsHandle p.1 p.2 ≠ d.defaults.Child

section
variable (Name2Handles DevPathHandles : HandleBuffer) (GraphicsHandle : EFI_HANDLE)

/-- The names from the driver of the controller on the device's path. -/
def ownNames : DisplayNames :=
  (DevPathHandles.list.find? (onOwnPath A d GraphicsHandle)).elim d.defaults fun Controller =>
    (Name2Handles.list.find? (manages A Controller)).elim d.defaults fun Driver =>
      namesFrom A d GraphicsHandle Controller Driver

/-- A controller on a matching path, with each driver. -/
def pairsOf (Controller : EFI_HANDLE) : List (EFI_HANDLE × EFI_HANDLE) :=
  if onPath A d GraphicsHandle Controller then Name2Handles.list.map fun Driver => (Controller, Driver) else []

/-- In the order in which they are tried. -/
def pairs : List (EFI_HANDLE × EFI_HANDLE) := DevPathHandles.list.flatMap (pairsOf A d Name2Handles GraphicsHandle)

/-- What is left of the names when no driver names the child: the last
driver's name, the controller's name by the last driver not on the wall. -/
def leftNames (l : List (EFI_HANDLE × EFI_HANDLE)) : DisplayNames where
  Driver := (l.getLast?).elim d.defaults.Driver fun p => checkedName A d p.2
  Controller := ((l.filter fun p => !onWallOfShame A d p.2).getLast?).elim d.defaults.Controller fun p =>
    controllerName A d p.1 p.2
  Child := d.defaults.Child

/-- The names from any driver. -/
def anyNames : DisplayNames :=
  match (pairs A d Name2Handles DevPathHandles GraphicsHandle).find? (namesChild A d GraphicsHandle) with
  | some p => namesFrom A d GraphicsHandle p.1 p.2
  | none => leftNames A d (pairs A d Name2Handles DevPathHandles GraphicsHandle)

def namesOf : DisplayNames :=
  let own := ownNames A d Name2Handles DevPathHandles GraphicsHandle
  if own = d.defaults then anyNames A d Name2Handles DevPathHandles GraphicsHandle else own

end

/-- The line of a device, if it gets one. -/
def lineOf (DevNum : UINT64) : Option NameLine :=
  let GraphicsHandle := (A.handles .GraphicsOutput).handles DevNum
  let GOPStatus := (A.OpenProtocol (getRequest d GraphicsHandle .DevicePath)).1
  let names := namesOf A d (A.handles .ComponentName2) (A.handles .DevicePath) GraphicsHandle
  if GOPStatus = EFI_SUCCESS then
    some (.named (DevNum + 0x30) names.Controller names.Child GraphicsHandle names.Driver)
  else if GOPStatus = EFI_UNSUPPORTED then some (.unknown (DevNum + 0x30) GraphicsHandle)
  else none

/-- The answer that ends the function: the status is that of the call on one
of the handles located. -/
def Refused (e : NamingExit) : Prop :=
  EFI_ERROR e.GOPStatus = true ∧
    match e.failed with
    | .locateGraphics => (A.LocateHandleBuffer .GraphicsOutput).1 = e.GOPStatus
    | .locateName2 => (A.LocateHandleBuffer .ComponentName2).1 = e.GOPStatus
    | .locateDevPath => (A.LocateHandleBuffer .DevicePath).1 = e.GOPStatus
    | .openGraphics => ∃ h ∈ (A.handles .GraphicsOutput).list,
      (A.OpenProtocol (getRequest d h .DevicePath)).1 = e.GOPStatus
    | .openController | .openAnyController => ∃ c ∈ (A.handles .DevicePath).list,
      (A.OpenProtocol (getRequest d c .DevicePath)).1 = e.GOPStatus
    | .openName2 | .openAnyName2 => ∃ n ∈ (A.handles .ComponentName2).list,
      (A.OpenProtocol (getRequest d n .ComponentName2)).1 = e.GOPStatus
    | .closeManaged => ∃ c ∈ (A.handles .DevicePath).list, ∃ n ∈ (A.handles .ComponentName2).list,
      A.CloseProtocol c n = e.GOPStatus
    | .allocateNameBuffer | .freeDevPath | .freeName2 => True

end

/-! ## The calls -/

/-- The firmware is in `K`, and the lines stored are `lines`. -/
def Knows (K : σ → Prop) (lines : List NameLine) (s : NamingState σ) : Prop :=
  K s.firmware ∧ s.account.stored.map (·.line) = lines

/-- And the names are `names`. -/
def WithNames (K : σ → Prop) (lines : List NameLine) (names : DisplayNames) (s : NamingState σ) : Prop :=
  Knows K lines s ∧ s.names = names

section
variable {fw : NameFirmware σ} {d : NameData} {A : Answers} {K : σ → Prop} {lines : List NameLine}
  {names : DisplayNames} {E : NamingExit → NamingState σ → Prop} {R : NamingExit → Prop}

/-- A service that answers `r`. -/
theorem callNaming_answered {service : σ → α × σ} {r : α} (h : ∀ w, K w → (service w).1 = r ∧ K (service w).2) :
    Triple (WithNames K lines names) (callNaming service) (fun r' s => r' = r ∧ WithNames K lines names s) E :=
  fun s hs => ⟨(h s.firmware hs.1.1).1, ⟨(h s.firmware hs.1.1).2, hs.1.2⟩, hs.2⟩

theorem testProtocol_answered (h : Steady fw d A K) (Handle : EFI_HANDLE) (protocol : Protocol) :
    Triple (WithNames K lines names) (testProtocol fw Handle protocol)
      (fun r s => r = hasProtocol A Handle protocol ∧ WithNames K lines names s) E := by
  have hopen : ∀ w, K w → (fw.OpenProtocol (testRequest Handle protocol) w).1 =
      A.OpenProtocol (testRequest Handle protocol) ∧ K (fw.OpenProtocol (testRequest Handle protocol) w).2 :=
    fun w hw => ⟨h.OpenProtocol _ w hw, h.opened _ w hw (.inl (by simp [testRequest]))⟩
  refine Triple.bind (callNaming_answered hopen) fun r => Triple.assume fun hr => ?_
  subst hr
  exact Triple.pure fun _ hs => ⟨rfl, hs⟩

theorem skipController_answered (h : Steady fw d A K) (Controller : EFI_HANDLE) :
    Triple (WithNames K lines names) (skipController fw Controller)
      (fun skip s => skip = !isController A Controller ∧ WithNames K lines names s) E := by
  unfold skipController isController
  rw [Bool.not_not]
  refine Triple.bind (testProtocol_answered h _ _) fun driver => Triple.assume fun hdriver => ?_
  subst hdriver
  refine Triple.ite (fun hyes => Triple.pure fun _ hs => ⟨by simp [hyes], hs⟩) fun hno => ?_
  refine Triple.bind (testProtocol_answered h _ _) fun image => Triple.assume fun himage => ?_
  subst himage
  refine Triple.ite (fun hyes => Triple.pure fun _ hs => ⟨by simp [hyes], hs⟩) fun hno' => ?_
  refine Triple.post (testProtocol_answered h _ _) fun r s hs => ⟨?_, hs.2⟩
  rw [hs.1, Bool.eq_false_iff.mpr hno, Bool.eq_false_iff.mpr hno', Bool.false_or, Bool.false_or]

theorem getProtocol_answered (h : Steady fw d A K) {failed : NamingCall} {Handle : EFI_HANDLE} {protocol : Protocol}
    (hR : EFI_ERROR (A.OpenProtocol (getRequest d Handle protocol)).1 = true →
      R ⟨failed, (A.OpenProtocol (getRequest d Handle protocol)).1⟩) :
    Triple (WithNames K lines names) (getProtocol fw d failed Handle protocol)
      (fun r s => r = (A.OpenProtocol (getRequest d Handle protocol)).2 ∧ WithNames K lines names s)
      fun e _ => R e := by
  have hopen : ∀ w, K w → (fw.OpenProtocol (getRequest d Handle protocol) w).1 =
      A.OpenProtocol (getRequest d Handle protocol) ∧ K (fw.OpenProtocol (getRequest d Handle protocol) w).2 :=
    fun w hw => ⟨h.OpenProtocol _ w hw, h.opened _ w hw (.inl (by simp [getRequest]))⟩
  refine Triple.bind (callNaming_answered hopen) fun r => Triple.assume fun hr => ?_
  subst hr
  refine Triple.bind (R := fun _ => WithNames K lines names) ?_ fun _ => Triple.pure fun _ hs => ⟨rfl, hs⟩
  exact Triple.ite (fun he => Triple.throw fun _ _ => hR he) fun _ => Triple.pure fun _ hs => hs

/-- A name, in one of three languages. -/
theorem inLanguages_answered {get : Language → UINT64 → σ → (EFI_STATUS × UINT64) × σ}
    {f : Language → EFI_STATUS × UINT64}
    (h : ∀ language old w, K w → SameName (get language old w).1 (f language) ∧ K (get language old w).2)
    (default old : UINT64) :
    Triple (WithNames K lines names) (inLanguages get default old)
      (fun r s => r = nameOr default f ∧ WithNames K lines names s) E := by
  have hcall : ∀ language old, Triple (WithNames K lines names) (callNaming (get language old))
      (fun r s => SameName r (f language) ∧ WithNames K lines names s) E :=
    fun language old s hs => ⟨(h language old s.firmware hs.1.1).1, ⟨(h language old s.firmware hs.1.1).2, hs.1.2⟩, hs.2⟩
  have hfirst : Triple (WithNames K lines names) (firstSupported get old)
      (fun r s => SameName r (supported f) ∧ WithNames K lines names s) E := by
    unfold supported
    refine Triple.bind (hcall .enUS old) fun r => Triple.assume fun hr => ?_
    rw [← hr.1]
    refine Triple.ite (fun hno => ?_) fun hyes => Triple.pure fun _ hs => ⟨by rw [if_neg hyes]; exact hr, hs⟩
    rw [if_pos hno]
    refine Triple.bind (hcall .en r.2) fun r => Triple.assume fun hr => ?_
    rw [← hr.1]
    refine Triple.ite (fun hno => ?_) fun hyes => Triple.pure fun _ hs => ⟨by rw [if_neg hyes]; exact hr, hs⟩
    rw [if_pos hno]
    exact hcall .eng r.2
  refine Triple.bind hfirst fun r => Triple.assume fun hr => Triple.pure fun s hs => ⟨?_, hs⟩
  rw [nameOr, hr.1]
  split
  · rfl
  · rename_i hok
    rw [hr.2 (Bool.eq_false_iff.mpr hok)]

theorem getDriverName_answered (h : Steady fw d A K) (Driver : EFI_HANDLE) :
    Triple (WithNames K lines names) (getDriverName fw d (name2Of A d Driver))
      (fun r s => r = (driverName A d Driver).1 ∧
        WithNames K lines { names with Driver := (driverName A d Driver).2 } s) E := by
  refine Triple.read fun s₀ _ => ?_
  refine Triple.bind (inLanguages_answered (h.GetDriverName _) _ _) fun r => Triple.assume fun hr => ?_
  subst hr
  refine Triple.bind (R := fun _ => WithNames K lines { names with Driver := (driverName A d Driver).2 })
    (Triple.modify fun s hs => ⟨hs.1, ?_⟩) fun _ => Triple.pure fun _ hs => ⟨rfl, hs⟩
  rw [← hs.2]
  rfl

theorem getControllerName_answered (h : Steady fw d A K) (Controller Driver : EFI_HANDLE) :
    Triple (WithNames K lines names) (getControllerName fw d (name2Of A d Driver) Controller)
      (fun _ s => WithNames K lines { names with Controller := controllerName A d Controller Driver } s) E := by
  refine Triple.read fun s₀ _ => ?_
  refine Triple.bind (inLanguages_answered (h.GetControllerName _ _ _) _ _) fun r => Triple.assume fun hr => ?_
  subst hr
  refine Triple.modify fun s hs => ⟨hs.1, ?_⟩
  rw [← hs.2]
  rfl

theorem getChildName_answered (h : Steady fw d A K) (GraphicsHandle Controller Driver : EFI_HANDLE) :
    Triple (WithNames K lines names) (getChildName fw d (name2Of A d Driver) Controller GraphicsHandle)
      (fun _ s => WithNames K lines { names with Child := childName A d GraphicsHandle Controller Driver } s) E := by
  refine Triple.read fun s₀ _ => ?_
  refine Triple.bind (inLanguages_answered (h.GetControllerName _ _ _) _ _) fun r => Triple.assume fun hr => ?_
  subst hr
  refine Triple.modify fun s hs => ⟨hs.1, ?_⟩
  rw [← hs.2]
  rfl

/-! ## The driver of the controller -/

/-- A controller is open by a driver. -/
def Opened (fw : NameFirmware σ) (K : σ → Prop) (Controller Driver : EFI_HANDLE) (lines : List NameLine)
    (names : DisplayNames) (s : NamingState σ) : Prop :=
  (∃ w, K w ∧ s.firmware = (fw.OpenProtocol (driverRequest Controller Driver) w).2) ∧
    s.account.stored.map (·.line) = lines ∧ s.names = names

theorem closeManaged_answered (h : Steady fw d A K) {Controller Driver : EFI_HANDLE}
    (hopen : EFI_ERROR (A.OpenProtocol (driverRequest Controller Driver)).1 = false)
    (hclose : EFI_ERROR (A.CloseProtocol Controller Driver) = true →
      R ⟨.closeManaged, A.CloseProtocol Controller Driver⟩) :
    Triple (Opened fw K Controller Driver lines names) (closeManaged fw Controller Driver)
      (fun _ => WithNames K lines names) fun e _ => R e := by
  refine Triple.bind (R := fun GOPStatus s => GOPStatus = A.CloseProtocol Controller Driver ∧
    (EFI_ERROR (A.CloseProtocol Controller Driver) = false → WithNames K lines names s)) ?_ fun GOPStatus => ?_
  · rintro s ⟨⟨w, hw, hs⟩, hlines, hnames⟩
    obtain ⟨hstatus, hkept⟩ := h.closed Controller Driver w hw hopen
    rw [← hs] at hstatus hkept
    exact ⟨hstatus, fun he => ⟨⟨hkept he, hlines⟩, hnames⟩⟩
  · refine Triple.assume fun hstatus => ?_
    subst hstatus
    refine Triple.bind (R := fun _ => WithNames K lines names) ?_ fun _ => Triple.modify fun _ hs => hs
    exact Triple.ite (fun he => Triple.throw fun _ _ => hclose he)
      fun he => Triple.pure fun s hs => hs (Bool.eq_false_iff.mpr he)

/-- A driver that says it has started gives all three names. -/
theorem tryManager_answered (h : Steady fw d A K) {GraphicsHandle Controller Driver : EFI_HANDLE}
    (hclose : EFI_ERROR (A.CloseProtocol Controller Driver) = true →
      R ⟨.closeManaged, A.CloseProtocol Controller Driver⟩)
    (hname : EFI_ERROR (A.OpenProtocol (getRequest d Driver .ComponentName2)).1 = true →
      R ⟨.openName2, (A.OpenProtocol (getRequest d Driver .ComponentName2)).1⟩) :
    Triple (WithNames K lines names) (tryManager fw d GraphicsHandle Controller Driver)
      (fun stop s => stop = manages A Controller Driver ∧ WithNames K lines
        (if manages A Controller Driver then namesFrom A d GraphicsHandle Controller Driver else names) s)
      fun e _ => R e := by
  cases he : EFI_ERROR (A.OpenProtocol (driverRequest Controller Driver)).1 with
  | false =>
    have hno : manages A Controller Driver = false := by
      refine decide_eq_false fun hstarted => ?_
      rw [hstarted] at he
      exact absurd he (by decide)
    rw [hno]
    refine Triple.bind (R := fun r s => r = A.OpenProtocol (driverRequest Controller Driver) ∧
      Opened fw K Controller Driver lines names s)
      (fun s hs => ⟨h.OpenProtocol _ _ hs.1.1, ⟨s.firmware, hs.1.1, rfl⟩, hs.1.2, hs.2⟩) fun r => ?_
    refine Triple.assume fun hr => ?_
    subst hr
    refine Triple.ite (fun _ => ?_) fun hnot => absurd he (by simpa using hnot)
    refine Triple.bind (R := fun _ => Opened fw K Controller Driver lines names) (Triple.modify fun _ hs => hs)
      fun _ => ?_
    exact Triple.bind (closeManaged_answered h he hclose) fun _ => Triple.pure fun _ hs => ⟨rfl, hs⟩
  | true =>
    have hopen : ∀ w, K w → (fw.OpenProtocol (driverRequest Controller Driver) w).1 =
        A.OpenProtocol (driverRequest Controller Driver) ∧ K (fw.OpenProtocol (driverRequest Controller Driver) w).2 :=
      fun w hw => ⟨h.OpenProtocol _ w hw, h.opened _ w hw (.inr he)⟩
    refine Triple.bind (callNaming_answered hopen) fun r => Triple.assume fun hr => ?_
    subst hr
    refine Triple.ite (fun hnot => absurd he (by simpa using hnot)) fun _ => ?_
    refine Triple.ite (fun hne => ?_) fun heq => ?_
    · rw [show manages A Controller Driver = false from decide_eq_false hne]
      exact Triple.pure fun _ hs => ⟨rfl, hs⟩
    · rw [show manages A Controller Driver = true from decide_eq_true (not_not.mp heq)]
      refine Triple.bind (getProtocol_answered h hname) fun Name2Device => Triple.assume fun hdevice => ?_
      subst hdevice
      refine Triple.bind (getDriverName_answered h Driver) fun _ => Triple.assume fun _ => ?_
      refine Triple.bind (getControllerName_answered h Controller Driver) fun _ => ?_
      refine Triple.bind (getChildName_answered h GraphicsHandle Controller Driver) fun _ => ?_
      exact Triple.pure fun _ hs => ⟨rfl, hs⟩

/-- The controller on the device's path ends the search, whether a driver
manages it or not. -/
theorem tryController_answered (h : Steady fw d A K) {Name2Handles : HandleBuffer} {GraphicsHandle Controller : EFI_HANDLE}
    (hpath : EFI_ERROR (A.OpenProtocol (getRequest d Controller .DevicePath)).1 = true →
      R ⟨.openController, (A.OpenProtocol (getRequest d Controller .DevicePath)).1⟩)
    (hclose : ∀ n ∈ Name2Handles.list, EFI_ERROR (A.CloseProtocol Controller n) = true →
      R ⟨.closeManaged, A.CloseProtocol Controller n⟩)
    (hname : ∀ n ∈ Name2Handles.list, EFI_ERROR (A.OpenProtocol (getRequest d n .ComponentName2)).1 = true →
      R ⟨.openName2, (A.OpenProtocol (getRequest d n .ComponentName2)).1⟩) :
    Triple (WithNames K lines names)
      (tryController fw d Name2Handles GraphicsHandle (pathOf A d GraphicsHandle)
        (A.DevicePathSize (pathOf A d GraphicsHandle) - A.DevicePathNodeLength (pathOf A d GraphicsHandle) + 4) Controller)
      (fun stop s => stop = onOwnPath A d GraphicsHandle Controller ∧ WithNames K lines
        (if onOwnPath A d GraphicsHandle Controller then
          (Name2Handles.list.find? (manages A Controller)).elim names fun Driver =>
            namesFrom A d GraphicsHandle Controller Driver
        else names) s)
      fun e _ => R e := by
  have hloop : Triple (WithNames K lines names) (searchLoop (tryManager fw d GraphicsHandle Controller) Name2Handles.list)
      (fun _ => WithNames K lines (searchFold (manages A Controller) (fun Driver b =>
        if manages A Controller Driver then namesFrom A d GraphicsHandle Controller Driver else b)
        Name2Handles.list names)) fun e _ => R e :=
    triple_searchFold (P := fun _ => True)
      (fun n hn b _ => tryManager_answered h (hclose n hn) (hname n hn)) (fun _ _ _ _ _ => trivial) trivial
  refine Triple.bind (skipController_answered h Controller) fun skip => Triple.assume fun hskip => ?_
  subst hskip
  refine Triple.ite (fun hskip => ?_) fun hskip => ?_
  · have hno : onOwnPath A d GraphicsHandle Controller = false := by
      simp only [Bool.not_eq_true'] at hskip
      simp [onOwnPath, onPath, hskip]
    rw [hno]
    exact Triple.pure fun _ hs => ⟨rfl, hs⟩
  · have hyes : isController A Controller = true := by simpa using hskip
    refine Triple.bind (getProtocol_answered h hpath) fun DevicePath_DevPath => Triple.assume fun hdev => ?_
    subst hdev
    refine Triple.read fun s hs => ?_
    rw [h.DevicePathSize _ hs.1.1, h.LibMatchDevicePaths _ hs.1.1]
    refine Triple.ite (fun hsize => ?_) fun hsize => Triple.ite (fun hmatch => ?_) fun hmatch => ?_
    · have hno : onOwnPath A d GraphicsHandle Controller = false := by
        rw [onOwnPath, show rightSize A d GraphicsHandle Controller = false from decide_eq_false hsize, Bool.and_false]
      rw [hno]
      exact Triple.pure fun _ hs => ⟨rfl, hs⟩
    · have hown : onOwnPath A d GraphicsHandle Controller = true := by
        rw [onOwnPath, onPath, hyes, show rightSize A d GraphicsHandle Controller = true from decide_eq_true (not_not.mp hsize)]
        simpa [pathOf] using hmatch
      rw [hown]
      refine Triple.bind hloop fun _ => Triple.pure fun s hs => ⟨rfl, ?_⟩
      rwa [searchFold_find? fun n _ b => rfl] at hs
    · have hno : onOwnPath A d GraphicsHandle Controller = false := by
        rw [onOwnPath, onPath]
        simp [pathOf] at hmatch ⊢
        simp [hmatch]
      rw [hno]
      exact Triple.pure fun _ hs => ⟨rfl, hs⟩

/-! ## Any driver -/

/-- The name is reset exactly if the driver is on the wall. -/
theorem searchWall_name (w : WallCheck) (name : UINT64) (a : UINTN) (left k : Nat) :
    (w.searchWall name a left k).2 =
      if (w.searchWall name a left k).1 < k + left then w.DefaultDriverDisplayName else name := by
  induction left generalizing k with
  | zero => exact (if_neg (Nat.lt_irrefl k)).symm
  | succ left ih =>
    rw [WallCheck.searchWall]
    split
    · rw [if_pos (by omega)]
    · rw [ih (k + 1), Nat.add_assoc, Nat.add_comm 1 left]

theorem wallCheck_name (w : WallCheck) (name : UINT64) :
    (w.run name).1 = if (w.run name).2 then w.DefaultDriverDisplayName else name := by
  have h := searchWall_name w name (w.StrSize name) NUM_ON_WALL 0
  rw [Nat.zero_add] at h
  simpa [WallCheck.run] using h

/-- What a driver that is tried does to the names. -/
def driverStep (A : Answers) (d : NameData) (GraphicsHandle : EFI_HANDLE) (p : EFI_HANDLE × EFI_HANDLE)
    (names : DisplayNames) : DisplayNames :=
  if onWallOfShame A d p.2 then { names with Driver := d.defaults.Driver }
  else namesFrom A d GraphicsHandle p.1 p.2

theorem checkWall_answered (h : Steady fw d A K) (Driver : EFI_HANDLE) :
    Triple (WithNames K lines { names with Driver := (driverName A d Driver).2 })
      (checkWall fw d (driverName A d Driver).1)
      (fun shamed s => shamed = onWallOfShame A d Driver ∧
        WithNames K lines { names with Driver := checkedName A d Driver } s) E := by
  unfold checkedName onWallOfShame
  refine Triple.ite (fun hanswered => Triple.read fun s₀ hs₀ => ?_) fun hno => ?_
  · have hdriver : s₀.names.Driver = (driverName A d Driver).2 := congrArg DisplayNames.Driver hs₀.2
    have hshamed := h.wall s₀.firmware (driverName A d Driver).2 hs₀.1.1
    have hname := wallCheck_name (wallCheck fw d s₀.firmware) (driverName A d Driver).2
    rw [hanswered, Bool.true_and, hdriver, ← hshamed]
    generalize (wallCheck fw d s₀.firmware).run (driverName A d Driver).2 = r at hname ⊢
    obtain ⟨name, shamed⟩ := r
    have hchecked : name = if shamed = true then d.defaults.Driver else (driverName A d Driver).2 := hname
    refine Triple.bind (R := fun _ => WithNames K lines { names with Driver := name })
      (Triple.modify fun s hs => ⟨hs.1, ?_⟩) fun _ => Triple.pure fun s hs => ⟨rfl, ?_⟩
    · show { s.names with Driver := name } = { names with Driver := name }
      rw [hs.2]
    · show WithNames K lines { names with Driver := if shamed = true then _ else _ } s
      rw [← hchecked]
      exact hs
  · rw [Bool.eq_false_iff.mpr hno, Bool.false_and]
    exact Triple.pure fun _ hs => ⟨rfl, hs⟩

theorem tryDriver_answered (h : Steady fw d A K) {GraphicsHandle Controller Driver : EFI_HANDLE}
    (hname : EFI_ERROR (A.OpenProtocol (getRequest d Driver .ComponentName2)).1 = true →
      R ⟨.openAnyName2, (A.OpenProtocol (getRequest d Driver .ComponentName2)).1⟩) :
    Triple (WithNames K lines names) (tryDriver fw d GraphicsHandle Controller Driver)
      (fun stop s => stop = namesChild A d GraphicsHandle (Controller, Driver) ∧
        WithNames K lines (driverStep A d GraphicsHandle (Controller, Driver) names) s)
      fun e _ => R e := by
  refine Triple.bind (getProtocol_answered h hname) fun Name2Device => Triple.assume fun hdevice => ?_
  subst hdevice
  refine Triple.bind (getDriverName_answered h Driver) fun answered => Triple.assume fun hanswered => ?_
  subst hanswered
  refine Triple.bind (checkWall_answered h Driver) fun shamed => Triple.assume fun hshamed => ?_
  subst hshamed
  refine Triple.ite (fun hwall => ?_) fun hwall => ?_
  · have hchecked : checkedName A d Driver = d.defaults.Driver := if_pos hwall
    rw [hchecked, namesChild, driverStep, hwall]
    exact Triple.pure fun _ hs => ⟨rfl, hs⟩
  · have hchecked : checkedName A d Driver = (driverName A d Driver).2 := if_neg hwall
    rw [hchecked, namesChild, driverStep, Bool.eq_false_iff.mpr hwall]
    refine Triple.bind (getControllerName_answered h Controller Driver) fun _ => ?_
    refine Triple.bind (getChildName_answered h GraphicsHandle Controller Driver) fun _ => Triple.read fun s hs => ?_
    exact Triple.pure fun s' hs' => ⟨by rw [hs.2]; rfl, hs'⟩

/-- The child keeps its default name exactly as long as the search goes on. -/
theorem driverStep_child {GraphicsHandle : EFI_HANDLE} {p : EFI_HANDLE × EFI_HANDLE} {names : DisplayNames}
    (h : names.Child = d.defaults.Child) :
    (driverStep A d GraphicsHandle p names).Child = d.defaults.Child ↔ namesChild A d GraphicsHandle p = false := by
  unfold driverStep namesChild
  cases onWallOfShame A d p.2 with
  | true => exact iff_of_true h rfl
  | false => simp [namesFrom]

theorem child_searchFold (A : Answers) (GraphicsHandle : EFI_HANDLE) (l : List (EFI_HANDLE × EFI_HANDLE)) {names : DisplayNames}
    (h : names.Child = d.defaults.Child) :
    (searchFold (namesChild A d GraphicsHandle) (driverStep A d GraphicsHandle) l names).Child = d.defaults.Child ↔
      l.any (namesChild A d GraphicsHandle) = false :=
  searchFold_any (namesChild A d GraphicsHandle) (driverStep A d GraphicsHandle) l
    (P := fun b : DisplayNames => b.Child = d.defaults.Child) (fun _ _ _ hb => driverStep_child hb) h

theorem tryAnyController_answered (h : Steady fw d A K) {Name2Handles : HandleBuffer}
    {GraphicsHandle Controller : EFI_HANDLE} (hnames : names.Child = d.defaults.Child)
    (hpath : EFI_ERROR (A.OpenProtocol (getRequest d Controller .DevicePath)).1 = true →
      R ⟨.openAnyController, (A.OpenProtocol (getRequest d Controller .DevicePath)).1⟩)
    (hname : ∀ n ∈ Name2Handles.list, EFI_ERROR (A.OpenProtocol (getRequest d n .ComponentName2)).1 = true →
      R ⟨.openAnyName2, (A.OpenProtocol (getRequest d n .ComponentName2)).1⟩) :
    Triple (WithNames K lines names)
      (tryAnyController fw d Name2Handles GraphicsHandle (pathOf A d GraphicsHandle) Controller)
      (fun stop s =>
        stop = (pairsOf A d Name2Handles GraphicsHandle Controller).any (namesChild A d GraphicsHandle) ∧
        WithNames K lines (searchFold (namesChild A d GraphicsHandle) (driverStep A d GraphicsHandle)
          (pairsOf A d Name2Handles GraphicsHandle Controller) names) s)
      fun e _ => R e := by
  unfold pairsOf
  refine Triple.bind (skipController_answered h Controller) fun skip => Triple.assume fun hskip => ?_
  subst hskip
  refine Triple.ite (fun hskip => ?_) fun hskip => ?_
  · have hno : isController A Controller = false := by simpa using hskip
    rw [onPath, hno]
    exact Triple.pure fun _ hs => ⟨rfl, hs⟩
  · have hyes : isController A Controller = true := by simpa using hskip
    refine Triple.bind (getProtocol_answered h hpath) fun DevicePath_DevPath => Triple.assume fun hdev => ?_
    subst hdev
    refine Triple.read fun s hs => ?_
    rw [h.LibMatchDevicePaths _ hs.1.1, onPath, hyes, Bool.true_and]
    refine Triple.ite (fun hmatch => ?_) fun hmatch => ?_
    · have hloop : Triple (WithNames K lines names)
          (searchLoop (tryDriver fw d GraphicsHandle Controller) Name2Handles.list)
          (fun _ => WithNames K lines (searchFold (fun n => namesChild A d GraphicsHandle (Controller, n))
            (fun n => driverStep A d GraphicsHandle (Controller, n)) Name2Handles.list names)) fun e _ => R e :=
        triple_searchFold (P := fun b => b.Child = d.defaults.Child)
          (fun n hn b _ => tryDriver_answered h (hname n hn))
          (fun n _ b hb hstop => (driverStep_child hb).mpr hstop) hnames
      rw [show A.LibMatchDevicePaths (pathOf A d Controller) (pathOf A d GraphicsHandle) = true from hmatch]
      refine Triple.bind hloop fun _ => Triple.read fun s' hs' => Triple.pure fun s'' hs'' => ?_
      rw [← searchFold_map (fun n => (Controller, n))] at hs' hs''
      refine ⟨?_, hs''⟩
      have hany := child_searchFold A GraphicsHandle (Name2Handles.list.map fun n => (Controller, n)) hnames
      rw [hs'.2]
      show _ = List.any (Name2Handles.list.map fun n => (Controller, n)) (namesChild A d GraphicsHandle)
      cases hfound : List.any (Name2Handles.list.map fun n => (Controller, n)) (namesChild A d GraphicsHandle) with
      | false => exact decide_eq_false (not_not.mpr (hany.mpr hfound))
      | true =>
        refine decide_eq_true fun hchild => ?_
        rw [hany.mp hchild] at hfound
        cases hfound
    · rw [show A.LibMatchDevicePaths (pathOf A d Controller) (pathOf A d GraphicsHandle) = false from
        Bool.eq_false_iff.mpr hmatch]
      exact Triple.pure fun _ hs => ⟨rfl, hs⟩

/-- Where no driver names the child, the last of each kind has the word. -/
theorem foldl_driverStep {GraphicsHandle : EFI_HANDLE} {l : List (EFI_HANDLE × EFI_HANDLE)}
    (hl : ∀ p ∈ l, namesChild A d GraphicsHandle p = false) :
    l.foldl (fun b p => driverStep A d GraphicsHandle p b) d.defaults = leftNames A d l := by
  induction l using List.reverseRecOn with
  | nil => rfl
  | append_singleton l p ih =>
    have hp := hl p (List.mem_append_right l List.mem_cons_self)
    rw [List.foldl_append, ih fun q hq => hl q (List.mem_append_left [p] hq)]
    simp only [List.foldl_cons, List.foldl_nil, driverStep, leftNames, List.getLast?_append, List.filter_append]
    cases hwall : onWallOfShame A d p.2 with
    | true => simp [checkedName, hwall]
    | false =>
      have hchild : childName A d GraphicsHandle p.1 p.2 = d.defaults.Child := by simpa [namesChild, hwall] using hp
      simp [checkedName, hwall, namesFrom, hchild]

/-- All pairs in turn. -/
theorem anyNames_eq (Name2Handles DevPathHandles : HandleBuffer) (GraphicsHandle : EFI_HANDLE) :
    searchFold (namesChild A d GraphicsHandle) (driverStep A d GraphicsHandle)
        (pairs A d Name2Handles DevPathHandles GraphicsHandle) d.defaults =
      anyNames A d Name2Handles DevPathHandles GraphicsHandle := by
  have hfinal : ∀ p ∈ pairs A d Name2Handles DevPathHandles GraphicsHandle, namesChild A d GraphicsHandle p = true →
      ∀ b, driverStep A d GraphicsHandle p b = namesFrom A d GraphicsHandle p.1 p.2 := by
    intro p _ hp b
    have hwall : onWallOfShame A d p.2 = false := by
      rw [namesChild, Bool.and_eq_true, Bool.not_eq_true'] at hp
      exact hp.1
    rw [driverStep, hwall]
    rfl
  rw [searchFold_eq hfinal, anyNames]
  cases hfind : (pairs A d Name2Handles DevPathHandles GraphicsHandle).find? (namesChild A d GraphicsHandle) with
  | some p => rfl
  | none => exact foldl_driverStep fun p hp => Bool.eq_false_iff.mpr (List.find?_eq_none.mp hfind p hp)

/-! ## All devices -/

/-- The two searches. -/
theorem findNames_spec (h : Steady fw d A K) (GraphicsHandle : EFI_HANDLE) :
    Triple (WithNames K lines d.defaults)
      (findNames fw d (A.handles .ComponentName2) (A.handles .DevicePath) GraphicsHandle (pathOf A d GraphicsHandle))
      (fun _ => WithNames K lines (namesOf A d (A.handles .ComponentName2) (A.handles .DevicePath) GraphicsHandle))
      fun e _ => Refused A d e := by
  have hown : ∀ CntlrPathSize, CntlrPathSize = A.DevicePathSize (pathOf A d GraphicsHandle) -
      A.DevicePathNodeLength (pathOf A d GraphicsHandle) + 4 →
      Triple (WithNames K lines d.defaults) (searchLoop (tryController fw d (A.handles .ComponentName2) GraphicsHandle
        (pathOf A d GraphicsHandle) CntlrPathSize) (A.handles .DevicePath).list)
        (fun _ => WithNames K lines (ownNames A d (A.handles .ComponentName2) (A.handles .DevicePath) GraphicsHandle))
        fun e _ => Refused A d e := by
    rintro _ rfl
    refine Triple.post (triple_searchFold (P := fun _ => True) (fun c hc b _ => tryController_answered h
      (fun he => ⟨he, c, hc, rfl⟩) (fun n hn he => ⟨he, c, hc, n, hn, rfl⟩) fun n hn he => ⟨he, n, hn, rfl⟩)
      (fun _ _ _ _ _ => trivial) trivial) fun _ s hs => ?_
    rwa [searchFold_find? fun c _ b => rfl] at hs
  have hany : Triple (WithNames K lines d.defaults) (searchLoop (tryAnyController fw d (A.handles .ComponentName2)
      GraphicsHandle (pathOf A d GraphicsHandle)) (A.handles .DevicePath).list)
      (fun _ => WithNames K lines (anyNames A d (A.handles .ComponentName2) (A.handles .DevicePath) GraphicsHandle))
      fun e _ => Refused A d e := by
    refine Triple.post (triple_searchFold (P := fun b => b.Child = d.defaults.Child)
      (fun c hc b hb => tryAnyController_answered h hb (fun he => ⟨he, c, hc, rfl⟩) fun n hn he => ⟨he, n, hn, rfl⟩)
      (fun c _ b hb hstop => (child_searchFold A GraphicsHandle _ hb).mpr hstop) rfl) fun _ s hs => ?_
    rwa [searchFold_flatMap, ← pairs, anyNames_eq] at hs
  refine Triple.read fun s hs => ?_
  refine Triple.bind (hown _ (by rw [h.DevicePathSize _ hs.1.1, h.DevicePathNodeLength _ hs.1.1])) fun _ => ?_
  unfold namesOf
  refine Triple.read fun s hs => ?_
  rw [hs.2]
  refine Triple.ite (fun hdefault => ?_) fun hnamed => ?_
  · rw [hdefault, if_pos rfl]
    exact hany
  · rw [if_neg hnamed]
    exact Triple.pure fun _ hs => hs

theorem storeName_answered (h : Steady fw d A K) (DevNum : UINT64) (line : NameLine) :
    Triple (Knows K lines) (storeName fw DevNum line) (fun _ => Knows K (lines ++ [line])) E := by
  refine Triple.bind (R := fun _ => Knows K lines) (fun s hs => ⟨h.CatPrint line _ hs.1, hs.2⟩) fun str => ?_
  refine Triple.modify fun s hs => ⟨hs.1, ?_⟩
  rw [← hs.2]
  exact List.map_append

theorem nameDevice_answered (h : Steady fw d A K) {DevNum : UINT64} (hnum : DevNum ∈ (A.handles .GraphicsOutput).indices) :
    Triple (Knows K lines)
      (nameDevice fw d (A.handles .GraphicsOutput) (A.handles .ComponentName2) (A.handles .DevicePath) DevNum)
      (fun _ => Knows K (lines ++ (lineOf A d DevNum).toList)) fun e _ => Refused A d e := by
  have hhandle : (A.handles .GraphicsOutput).handles DevNum ∈ (A.handles .GraphicsOutput).list :=
    List.mem_map_of_mem hnum
  unfold lineOf nameDevice
  generalize (A.handles .GraphicsOutput).handles DevNum = GraphicsHandle at hhandle ⊢
  have hopen : ∀ w, K w → (fw.OpenProtocol (getRequest d GraphicsHandle .DevicePath) w).1 =
      A.OpenProtocol (getRequest d GraphicsHandle .DevicePath) ∧
        K (fw.OpenProtocol (getRequest d GraphicsHandle .DevicePath) w).2 :=
    fun w hw => ⟨h.OpenProtocol _ w hw, h.opened _ w hw (.inl (by simp [getRequest]))⟩
  refine Triple.bind (R := fun _ => WithNames K lines d.defaults) (Triple.modify fun _ hs => ⟨hs, rfl⟩) fun _ => ?_
  refine Triple.bind (callNaming_answered hopen) fun r => Triple.assume fun hr => ?_
  subst hr
  refine Triple.bind (R := fun _ => WithNames K lines d.defaults) (Triple.modify fun _ hs => hs) fun _ => ?_
  refine Triple.ite (fun hst => ?_) fun hne => Triple.ite (fun hst => ?_) fun hne' => ?_
  · refine Triple.bind (findNames_spec h GraphicsHandle) fun _ => Triple.read fun s hs => ?_
    simp only [hst, if_true, hs.2, Option.toList_some]
    exact Triple.pre (storeName_answered h DevNum _) fun _ hs => hs.1
  · simp only [hst, if_true]
    exact Triple.pre (storeName_answered h DevNum _) fun _ hs => hs.1
  · simp only [hne, hne', if_false, Option.toList_none, List.append_nil]
    refine Triple.ite (fun he => Triple.throw fun _ _ => ?_) fun _ => Triple.pure fun _ hs => hs.1
    exact ⟨he, GraphicsHandle, hhandle, rfl⟩

theorem nameAll_answered (h : Steady fw d A K) :
    Triple (Knows K [])
      (nameAll fw d (A.handles .GraphicsOutput) (A.handles .ComponentName2) (A.handles .DevicePath))
      (fun _ => Knows K ((A.handles .GraphicsOutput).indices.filterMap (lineOf A d))) fun e _ => Refused A d e := by
  refine triple_forM_prefix (I := fun done => Knows K (done.filterMap (lineOf A d))) fun done DevNum hdone => ?_
  have hnum : DevNum ∈ (A.handles .GraphicsOutput).indices :=
    hdone.subset (List.mem_append_right done List.mem_cons_self)
  rw [List.filterMap_append, List.filterMap_cons, List.filterMap_nil]
  refine Triple.post (nameDevice_answered h hnum) fun _ s hs => ?_
  cases hline : lineOf A d DevNum with
  | none => rwa [hline] at hs
  | some line => rwa [hline] at hs

theorem locateHandles_answered (h : Steady fw d A K) {pool : PoolVariable} {failed : NamingCall} {protocol : Protocol}
    (hR : EFI_ERROR (A.LocateHandleBuffer protocol).1 = true → R ⟨failed, (A.LocateHandleBuffer protocol).1⟩) :
    Triple (Knows K lines) (locateHandles fw pool failed protocol)
      (fun b s => b = A.handles protocol ∧ Knows K lines s) fun e _ => R e := by
  refine Triple.bind (R := fun r s => r = A.LocateHandleBuffer protocol ∧ Knows K lines s)
    (fun s hs => ⟨(h.LocateHandleBuffer protocol _ hs.1).1, (h.LocateHandleBuffer protocol _ hs.1).2, hs.2⟩) fun r => ?_
  refine Triple.assume fun hr => ?_
  subst hr
  refine Triple.bind (R := fun _ => Knows K lines) ?_ fun _ => ?_
  · exact Triple.ite (fun he => Triple.throw fun _ _ => hR he) fun _ => Triple.pure fun _ hs => hs
  · exact Triple.bind (R := fun _ => Knows K lines) (Triple.modify fun _ hs => hs) fun _ =>
      Triple.pure fun _ hs => ⟨rfl, hs⟩

theorem freeHandles_answered (h : Steady fw d A K) {pool : PoolVariable} {failed : NamingCall} {address : UINT64}
    (hR : ∀ GOPStatus, EFI_ERROR GOPStatus = true → R ⟨failed, GOPStatus⟩) :
    Triple (Knows K lines) (freeHandles fw pool failed address) (fun _ => Knows K lines) fun e _ => R e := by
  refine Triple.bind (R := fun _ => Knows K lines) (fun s hs => ⟨h.FreePool address _ hs.1, hs.2⟩) fun GOPStatus => ?_
  refine Triple.bind (R := fun _ => Knows K lines) ?_ fun _ => Triple.modify fun _ hs => hs
  exact Triple.ite (fun he => Triple.throw fun _ _ => hR _ he) fun _ => Triple.pure fun _ hs => hs

theorem nameDevices_answered (h : Steady fw d A K) :
    Triple (Knows K []) (nameDevices fw d)
      (fun G s => G = A.handles .GraphicsOutput ∧
        Knows K ((A.handles .GraphicsOutput).indices.filterMap (lineOf A d)) s) fun e _ => Refused A d e := by
  refine Triple.bind (locateHandles_answered h fun he => ⟨he, rfl⟩) fun G => Triple.assume fun hG => ?_
  subst hG
  refine Triple.bind (R := fun _ => Knows K []) ?_ fun _ => ?_
  · refine Triple.bind (R := fun _ => Knows K []) (fun s hs => ⟨h.AllocatePool _ _ hs.1, hs.2⟩) fun r => ?_
    refine Triple.bind (R := fun _ => Knows K []) ?_ fun _ => ?_
    · exact Triple.ite (fun he => Triple.throw fun _ _ => ⟨he, trivial⟩) fun _ => Triple.pure fun _ hs => hs
    · exact Triple.bind (R := fun _ => Knows K []) (Triple.modify fun _ hs => hs) fun _ => Triple.pure fun _ hs => hs
  refine Triple.bind (locateHandles_answered h fun he => ⟨he, rfl⟩) fun Name2Handles => Triple.assume fun hN => ?_
  subst hN
  refine Triple.bind (locateHandles_answered h fun he => ⟨he, rfl⟩) fun DevPathHandles => Triple.assume fun hD => ?_
  subst hD
  refine Triple.bind (nameAll_answered h) fun _ => ?_
  refine Triple.bind (freeHandles_answered h fun _ he => ⟨he, trivial⟩) fun _ => ?_
  refine Triple.bind (freeHandles_answered h fun _ he => ⟨he, trivial⟩) fun _ => ?_
  exact Triple.pure fun _ hs => ⟨rfl, hs⟩

end

/-- **Whose names a device is listed with.** On a firmware whose answers do
not change meanwhile, the lines are those of its devices in order: with the
names from the driver of the controller on the device's own path, else from
the first driver, in the order of the pairs, that is not on the wall and
names the child, else with what the last pairs left. Short of that the
function only returns with the error of one of its calls. -/
theorem devices_listed_by_driver (fw : NameFirmware σ) (d : NameData) (A : Answers) (K : σ → Prop)
    (h : Steady fw d A K) (w : σ) (hw : K w) (names : DisplayNames) :
    let r := nameDevices fw d (unnamed w names)
    (∀ G s, r = .ok G s → G = A.handles .GraphicsOutput ∧
      s.account.stored.map (·.line) = (A.handles .GraphicsOutput).indices.filterMap (lineOf A d)) ∧
    ∀ e s, r = .error e s → Refused A d e := by
  intro r
  have hspec := nameDevices_answered h
  refine ⟨fun G s hr => ?_, fun e s hr => hspec.error (s := unnamed w names) ⟨hw, rfl⟩ hr⟩
  obtain ⟨hG, hs⟩ := hspec.ok (s := unnamed w names) ⟨hw, rfl⟩ hr
  exact ⟨hG, hs.2⟩

/-! ## A virtual machine -/

def handleBuffer (handles : List EFI_HANDLE) : HandleBuffer :=
  ⟨BitVec.ofNat 64 handles.length, 0, fun i => handles.getD i.toNat 0⟩

/-- Two graphics devices, the second without a path; one controller that no
driver manages; two drivers, neither with a name for the child. -/
def virtualMachine : NameFirmware Unit where
  LocateHandleBuffer protocol w :=
    ((EFI_SUCCESS, match protocol with
      | .GraphicsOutput => handleBuffer [0x10, 0x11]
      | .DevicePath => handleBuffer [0x20]
      | .ComponentName2 => handleBuffer [0x31, 0x32]
      | _ => handleBuffer []), w)
  AllocatePool _ w := ((EFI_SUCCESS, 0x8000), w)
  FreePool _ w := (EFI_SUCCESS, w)
  OpenProtocol r w :=
    (if r.Attributes = .GET_PROTOCOL ∧ r.Handle ≠ 0x11 then (EFI_SUCCESS, r.Handle) else (EFI_UNSUPPORTED, 0), w)
  CloseProtocol _ _ _ w := (EFI_SUCCESS, w)
  GetDriverName This language old w :=
    (if language = .enUS ∧ This = 0x32 then (EFI_UNSUPPORTED, old) else (EFI_SUCCESS, This * 0x100), w)
  GetControllerName This _ child _ old w :=
    (if child = 0 then (EFI_SUCCESS, 0x2000 + This) else (EFI_UNSUPPORTED, old), w)
  DevicePathSize _ _ := 24
  DevicePathNodeLength _ _ := 8
  LibMatchDevicePaths _ _ _ := true
  StrSize _ _ := 2
  mem _ a := if a < 0x3000 then 0 else 1
  CatPrint _ w := (0x9000, w)

def virtualData : NameData := ⟨0x5000, ⟨0x100, 0x200, 0x300⟩, fun _ => 0x1000⟩

/-- What it always answers. -/
def virtualAnswers : Answers where
  LocateHandleBuffer protocol := (virtualMachine.LocateHandleBuffer protocol ()).1
  OpenProtocol r := (virtualMachine.OpenProtocol r ()).1
  CloseProtocol _ _ := EFI_SUCCESS
  DriverName This language := (virtualMachine.GetDriverName This language 0 ()).1
  ControllerName This c child language := (virtualMachine.GetControllerName This c child language 0 ()).1
  DevicePathSize _ := 24
  DevicePathNodeLength _ := 8
  LibMatchDevicePaths _ _ := true
  shamed name := ((wallCheck virtualMachine virtualData ()).run name).2

theorem SameName.unsupported (old old' : UINT64) : SameName (EFI_UNSUPPORTED, old) (EFI_UNSUPPORTED, old') :=
  ⟨rfl, fun he => absurd (show EFI_ERROR EFI_UNSUPPORTED = false from he) (by decide)⟩

theorem virtualMachine_steady : Steady virtualMachine virtualData virtualAnswers fun _ => True where
  LocateHandleBuffer _ _ _ := ⟨rfl, trivial⟩
  AllocatePool _ _ _ := trivial
  FreePool _ _ _ := trivial
  OpenProtocol _ _ _ := rfl
  opened _ _ _ _ := trivial
  closed _ _ _ _ _ := ⟨rfl, fun _ => trivial⟩
  GetDriverName This language old _ _ := by
    refine ⟨?_, trivial⟩
    show SameName (if _ then _ else _) (if _ then _ else _)
    split
    · exact SameName.unsupported old 0
    · exact ⟨rfl, fun _ => rfl⟩
  GetControllerName This _ child _ old _ _ := by
    refine ⟨?_, trivial⟩
    show SameName (if _ then _ else _) (if _ then _ else _)
    split
    · exact ⟨rfl, fun _ => rfl⟩
    · exact SameName.unsupported old 0
  DevicePathSize _ _ := rfl
  DevicePathNodeLength _ _ := rfl
  LibMatchDevicePaths _ _ := rfl
  wall _ _ _ := rfl
  CatPrint _ _ _ := trivial

def linesOf : EStateM.Result NamingExit (NamingState σ) α → Option (List NameLine)
  | .ok _ s => some (s.account.stored.map (·.line))
  | .error _ _ => none

/-- No driver names the child, and the first device is not listed as unknown:
it has the controller's and the driver's names of the last pair. -/
theorem devices_listed_by_driver_leftover :
    ∃ G s, nameDevices virtualMachine virtualData (unnamed () virtualData.defaults) = .ok G s ∧
      s.account.stored.map (·.line) = [.named 0x30 0x2032 0x300 0x10 0x3200, .unknown 0x31 0x11] := by
  have hlines := (devices_listed_by_driver virtualMachine virtualData virtualAnswers (fun _ => True)
    virtualMachine_steady () trivial virtualData.defaults).1
  have hran : (linesOf (nameDevices virtualMachine virtualData (unnamed () virtualData.defaults))).isSome = true := by
    decide +kernel
  cases hr : nameDevices virtualMachine virtualData (unnamed () virtualData.defaults) with
  | ok G s => exact ⟨G, s, rfl, ((hlines G s hr).2).trans (by decide +kernel)⟩
  | error e s =>
    rw [hr] at hran
    cases hran

end PiousOS.Loader
