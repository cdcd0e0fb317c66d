import PiousOS.L3Loader.BootKernel
import PiousOS.L3Loader.GraphicsFilled
import PiousOS.L3Loader.NamedDevices
import PiousOS.L3Loader.NamingSearch

/-!
# The loader from its entry point (`src/bootloader/boot.c`, `efi_main`)

`efi_main` allocates the `GPU_CONFIG`, has `InitUEFI_GOP` name and configure
the graphics devices, and gives the result to `BootKernel`. The three parts
see one firmware, whose state goes from one to the next.

**The firmware (hypotheses).** Only `SetMode` changes mode data
(`KeepsModes`), a device has at least one mode, and a handle buffer that was
located is not empty.

Results:
* `InitUEFI_GOP_spec`: how the two halves of `InitUEFI_GOP` fit together.
* `kernel_gets_configured_graphics`: what holds when the kernel is booted.
-/
namespace PiousOS.Loader
open EarlyExit

variable {σ : Type}

structure MainFirmware (σ : Type) where
  naming : NameFirmware σ
  graphics : GraphicsFirmware σ
  loader : Firmware σ

/-- What the variables hold that are not initialised, and what does not change. -/
structure MainData where
  naming : NameData
  Graphics : GraphicsArray
  mode : UINT32
  timeout_seconds : UINT64
  DEBUG_PIOUS : Bool
  mem : ByteMem

/-- How `InitUEFI_GOP` ends: in its first half, or with a run of its second. -/
inductive GraphicsEnd (σ : Type) where
  | failed (e : NamingExit) (s : NamingState σ)
  | ran (GraphicsHandles : HandleBuffer) (s : NamingState σ) (r : EStateM.Result GOPExit (GOPState σ) EFI_STATUS)

/-- How `efi_main` ends: it returns, a menu still waits, or the kernel is
booted. A `BootKernel` that returns is the end as well: `while(1) ;`. -/
inductive MainEnd (σ : Type) where
  | returned (Status : EFI_STATUS)
  | waiting
  | booted (GraphicsHandles : HandleBuffer) (named : NamingState σ) (configured : GOPState σ)
      (r : EStateM.Result Exit (LoaderState σ) Entry)

/-- The array as the kernel reads it. -/
def handed (Graphics : GraphicsArray) : GPU_CONFIG where
  GPUArray i :=
    let Info := (Graphics.GPUArray (BitVec.ofNat 64 i)).Info
    ⟨Info.PixelsPerScanLine, Info.HorizontalResolution, Info.VerticalResolution⟩
  NumberOfFrameBuffers := Graphics.NumberOfFrameBuffers

def sizeofGpuConfig : UINTN := 16

section
variable (fw : MainFirmware σ) (m : MainData) (fuel : Nat)

/-- mirrors src/bootloader/boot.c:890-1996 -/
def InitUEFI_GOP (w : σ) : GraphicsEnd σ :=
  match nameDevices fw.naming m.naming (unnamed w m.naming.defaults) with
  | .error e s => .failed e s
  | .ok GraphicsHandles s =>
    .ran GraphicsHandles s (configureGraphics fw.graphics GraphicsHandles.NoHandles fuel m.DEBUG_PIOUS
      (namedState s.firmware m.mode GraphicsHandles.NoHandles m.timeout_seconds
        { m.Graphics with NumberOfFrameBuffers := 0 }))

/-- `efi_main` from the check of `InitUEFI_GOP` on. -/
def bootWith (p : BootParams) : GraphicsEnd σ → MainEnd σ
  | .failed e _ => .returned e.GOPStatus
  | .ran _ _ (.error (.returned GOPStatus) _) => .returned GOPStatus
  | .ran _ _ (.error .waiting _) => .waiting
  | .ran GraphicsHandles named (.ok Status s) =>
    if EFI_ERROR Status then .returned Status
    else .booted GraphicsHandles named s (bootKernel fw.loader fuel { p with Graphics := handed s.Graphics }
      ⟨s.firmware, 0, m.mem, []⟩)

/-- mirrors src/bootloader/boot.c:23-50 -/
def efi_main (p : BootParams) (w : σ) : MainEnd σ :=
  let ((Status, _), w) := fw.naming.AllocatePool sizeofGpuConfig w
  if EFI_ERROR Status then .returned Status else bootWith fw m fuel p (InitUEFI_GOP fw m fuel w)

end

/-! ## What the parts leave -/

/-- What the second half has filled is what the check has seen. -/
theorem configureGraphics_framebuffer {fw : GraphicsFirmware σ} {NumHandles : UINTN} {fuel : Nat} {DEBUG_PIOUS : Bool}
    {s s' : GOPState σ} {GOPStatus : EFI_STATUS}
    (h : configureGraphics fw NumHandles fuel DEBUG_PIOUS s = .ok GOPStatus s') :
    (s'.Graphics.GPUArray 0).FrameBufferBase ≠ 0 ∧ (s'.Graphics.GPUArray 0).FrameBufferSize ≠ 0 := by
  obtain ⟨_, s₁, -, h₁⟩ := ok_of_bind h
  obtain ⟨_, s₂, -, h₂⟩ := ok_of_bind h₁
  obtain ⟨status, s₃, -, h₃⟩ := ok_of_bind h₂
  rw [checkFramebuffer, get_bind] at h₃
  split at h₃
  · cases h₃
  · rename_i hframebuffer
    cases h₃
    exact not_or.mp hframebuffer

/-- The jump hands over the graphics it was given. -/
theorem bootKernel_graphics {fw : Firmware σ} {fuel : Nat} {p : BootParams} {s s' : LoaderState σ} {entry : Entry}
    (h : bootKernel fw fuel p s = .ok entry s') : entry.Loader_block.GPU_Configs = p.Graphics := by
  obtain ⟨_, _, -, h⟩ := ok_of_bind h
  obtain ⟨header, _, -, h⟩ := ok_of_bind h
  obtain ⟨image, _, -, h⟩ := ok_of_bind h
  obtain ⟨_, _, -, h⟩ := ok_of_bind h
  obtain ⟨v, _, -, h⟩ := ok_of_bind h
  cases h
  rfl

/-- What the firmware is taken to be: see above. -/
structure GraphicsServices (fw : MainFirmware σ) : Prop where
  modes : KeepsModes fw.graphics
  someMode : ∀ w device, 1 ≤ (fw.graphics.Mode w device).MaxMode.toNat
  someHandle : ∀ w, EFI_ERROR (fw.naming.LocateHandleBuffer .GraphicsOutput w).1.1 = false →
    1 ≤ (fw.naming.LocateHandleBuffer .GraphicsOutput w).1.2.NoHandles.toNat

/-- The first half only goes on from handles that were located. -/
theorem nameDevices_located {fw : NameFirmware σ} {d : NameData} {s s' : NamingState σ} {G : HandleBuffer}
    (h : nameDevices fw d s = .ok G s') : EFI_ERROR (fw.LocateHandleBuffer .GraphicsOutput s.firmware).1.1 = false := by
  obtain ⟨_, s₁, h₁, -⟩ := ok_of_bind h
  rw [locateHandles, bind_of_ok (show callNaming _ s = .ok _ _ from rfl)] at h₁
  obtain ⟨_, s₂, h₂, -⟩ := ok_of_bind h₁
  cases he : EFI_ERROR (fw.LocateHandleBuffer .GraphicsOutput s.firmware).1.1 with
  | false => rfl
  | true =>
    simp only [checkNaming, he, if_true] at h₂
    cases h₂

section
variable {fw : MainFirmware σ}

/-- When `InitUEFI_GOP` has come to its end: `G` are the handles, `named` the
state between its halves. -/
structure Initialised (G : HandleBuffer) (named : NamingState σ) (s : GOPState σ) : Prop where
  filled : Filled G.NoHandles s
  framebuffer : (s.Graphics.GPUArray 0).FrameBufferBase ≠ 0 ∧ (s.Graphics.GPUArray 0).FrameBufferSize ≠ 0
  requests : Requests G.NoHandles s
  named : ∃ base, base.map Prod.fst = [.GraphicsHandles, .NameBuffer] ∧ Listed G base G.indices named.account

/-- An end of `InitUEFI_GOP` that is one with an error, or a full array. -/
def GraphicsEnd.Sound : GraphicsEnd σ → Prop
  | .failed e _ => EFI_ERROR e.GOPStatus = true
  | .ran _ _ (.error e _) => e.Failed
  | .ran G named (.ok _ s) => Initialised G named s

theorem InitUEFI_GOP_spec (m : MainData) (fuel : Nat) (hfw : GraphicsServices fw) (w : σ) : (InitUEFI_GOP fw m fuel w).Sound := by
  have hnames := nameDevices_spec fw.naming m.naming w m.naming.defaults
  unfold InitUEFI_GOP
  cases hrun : nameDevices fw.naming m.naming (unnamed w m.naming.defaults) with
  | error e s => exact (hnames.error rfl hrun).1
  | ok G named =>
    obtain ⟨hG, hnamed⟩ := hnames.ok rfl hrun
    have hlocated := nameDevices_located hrun
    have hsome : 1 ≤ G.NoHandles.toNat := by
      rw [hG]
      exact hfw.someHandle w hlocated
    have hspec : Triple (Named fw.graphics G.NoHandles)
        (configureGraphics fw.graphics G.NoHandles fuel m.DEBUG_PIOUS) _ _ :=
      configureGraphics_spec hfw.modes hsome m.DEBUG_PIOUS
    have hstart : Named fw.graphics G.NoHandles (namedState named.firmware m.mode G.NoHandles m.timeout_seconds
        { m.Graphics with NumberOfFrameBuffers := 0 }) :=
      ⟨fun i hi => absurd hi List.not_mem_nil, rfl, rfl, fun i _ => hfw.someMode _ i⟩
    show GraphicsEnd.Sound (.ran G named (configureGraphics fw.graphics G.NoHandles fuel m.DEBUG_PIOUS _))
    cases hconf : configureGraphics fw.graphics G.NoHandles fuel m.DEBUG_PIOUS (namedState named.firmware m.mode
      G.NoHandles m.timeout_seconds { m.Graphics with NumberOfFrameBuffers := 0 }) with
    | error e s => exact (hspec.error hstart hconf).1
    | ok GOPStatus s =>
      have hcomplete := hspec.ok hstart hconf
      exact ⟨hcomplete.filled, configureGraphics_framebuffer hconf, hcomplete.requests, hnamed⟩

/-- An end of `efi_main` that is one with an error, or with the kernel booted
on a full array. -/
def MainEnd.Sound : MainEnd σ → Prop
  | .returned Status => EFI_ERROR Status = true
  | .waiting => True
  | .booted G named s r => Initialised G named s ∧
    ∀ entry s', r = .ok entry s' → entry.Loader_block.GPU_Configs = handed s.Graphics

theorem bootWith_sound (m : MainData) (fuel : Nat) (p : BootParams) {graphics : GraphicsEnd σ} (h : graphics.Sound) :
    (bootWith fw m fuel p graphics).Sound := by
  rcases graphics with ⟨e, s⟩ | ⟨G, named, ⟨Status, s⟩ | ⟨⟨GOPStatus⟩ | _, s⟩⟩
  · exact h
  · show MainEnd.Sound (if EFI_ERROR Status = true then _ else _)
    split
    · assumption
    · exact ⟨h, fun entry s' hr => bootKernel_graphics hr⟩
  · exact h
  · trivial

theorem efi_main_spec (hfw : GraphicsServices fw) (m : MainData) (fuel : Nat) (p : BootParams) (w : σ) :
    (efi_main fw m fuel p w).Sound := by
  unfold efi_main
  dsimp only
  split
  · assumption
  · exact bootWith_sound m fuel p (InitUEFI_GOP_spec m fuel hfw _)

end

/-- **The kernel gets configured graphics.** On a firmware as above, whatever
it answers and whatever the keyboard delivers, `efi_main` boots the kernel
only with an array that is full: as many entries as announced, each the mode
data of a device after a `SetMode` that succeeded, and a frame buffer in the
first. The names and handles used for the menus are all of devices that were
listed, unless one answered with a warning. The jump, if it is reached, hands
over this array; and a return of `efi_main` is one with an error. -/
theorem kernel_gets_configured_graphics (fw : MainFirmware σ) (hfw : GraphicsServices fw) (m : MainData) (fuel : Nat)
    (p : BootParams) (w : σ) :
    (∀ Status, efi_main fw m fuel p w = .returned Status → EFI_ERROR Status = true) ∧
    ∀ G named s r, efi_main fw m fuel p w = .booted G named s r →
      Filled G.NoHandles s ∧
      (s.Graphics.GPUArray 0).FrameBufferBase ≠ 0 ∧ (s.Graphics.GPUArray 0).FrameBufferSize ≠ 0 ∧
      ((∀ GOPStatus ∈ named.account.answers, GOPStatus = EFI_SUCCESS ∨ GOPStatus = EFI_UNSUPPORTED) →
        ∀ i ∈ s.used, i ∈ named.account.stored.map (·.DevNum)) ∧
      ∀ entry s', r = .ok entry s' → entry.Loader_block.GPU_Configs = handed s.Graphics := by
  have hspec := efi_main_spec hfw m fuel p w
  refine ⟨fun Status h => ?_, fun G named s r h => ?_⟩
  · rw [h] at hspec
    exact hspec
  · rw [h] at hspec
    obtain ⟨hinit, hentry⟩ := hspec
    obtain ⟨base, -, hlisted⟩ := hinit.named
    refine ⟨hinit.filled, hinit.framebuffer.1, hinit.framebuffer.2, fun hanswers i hi => ?_, hentry⟩
    rw [hlisted.indices_stored_iff.mpr hanswers, HandleBuffer.indices, List.mem_map]
    exact ⟨i.toNat, List.mem_range.mpr (hinit.requests.used i hi), by rw [BitVec.ofNat_toNat, BitVec.setWidth_eq]⟩

/-! ## A virtual machine -/

/-- Every device has the mode of `deskInfo`, and there is no keyboard. -/
def virtualGraphics : GraphicsFirmware Unit where
  Mode _ _ := ⟨1, 0, deskInfo, 36, 0x80000000, 0x300000⟩
  OpenProtocol _ w := (EFI_SUCCESS, w)
  QueryMode _ _ w := ((EFI_SUCCESS, deskInfo), w)
  SetMode _ _ w := (EFI_SUCCESS, w)
  AllocatePool _ w := (EFI_SUCCESS, w)
  poolContents _ _ := ⟨0, 0, deskInfo, 0, 0, 0⟩
  FreePool w := (EFI_SUCCESS, w)
  WaitForSingleEvent w := (EFI_TIMEOUT, w)
  ReadKeyStroke Key w := ((EFI_NOT_READY, Key), w)
  Reset w := (EFI_SUCCESS, w)

def virtualBoot : MainFirmware Unit := ⟨virtualMachine, virtualGraphics, obliging⟩

def virtualMain : MainData where
  naming := virtualData
  Graphics := ⟨7, fun _ => ⟨0, 0, deskInfo, 0, 0, 0⟩, 0⟩
  mode := 0
  timeout_seconds := 0
  DEBUG_PIOUS := false
  mem _ := 0

theorem virtualBoot_services : GraphicsServices virtualBoot where
  modes := ⟨fun _ _ => rfl, fun _ _ _ => rfl, fun _ _ _ _ => rfl, fun _ _ => rfl, fun _ => rfl, fun _ => rfl,
    fun _ _ => rfl, fun _ => rfl⟩
  someMode _ _ := Nat.le_refl 1
  someHandle _ _ := (by decide : 1 ≤ 2)

/-- A kernel file that is empty. -/
def virtualKernel : BootParams :=
  ⟨[], by decide, fun _ => 0, fun _ => 0, 0x1000, 16, ⟨fun _ => ⟨0, 0, 0⟩, 0⟩, 0x20046, ⟨0, 0, 0, 0, 0, 0⟩⟩

/-- How many frame buffers the kernel is booted with. -/
def frameBuffers : MainEnd σ → Option UINT64
  | .booted _ _ s _ => some s.Graphics.NumberOfFrameBuffers
  | _ => none

/-- Both devices are configured. -/
theorem kernel_gets_configured_graphics_virtual :
    ∃ G named s r, efi_main virtualBoot virtualMain 3 virtualKernel () = .booted G named s r ∧
      s.Graphics.NumberOfFrameBuffers = 2 ∧ Filled G.NoHandles s := by
  have hboot := (kernel_gets_configured_graphics virtualBoot virtualBoot_services virtualMain 3 virtualKernel ()).2
  have hcount : frameBuffers (efi_main virtualBoot virtualMain 3 virtualKernel ()) = some 2 := by decide +kernel
  cases hmain : efi_main virtualBoot virtualMain 3 virtualKernel () with
  | booted G named s r =>
    rw [hmain] at hcount
    exact ⟨G, named, s, r, rfl, Option.some.inj hcount, (hboot G named s r hmain).1⟩
  | returned Status =>
    rw [hmain] at hcount
    cases hcount
  | waiting =>
    rw [hmain] at hcount
    cases hcount

end PiousOS.Loader
