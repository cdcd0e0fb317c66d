import PiousOS.L3Loader.ModeSource
import PiousOS.L4Kernel.RunningKernel

/-!
# From power on to the error lines

The loader from its entry point, and the kernel on the loader block that it
hands over.

**The firmware (hypotheses).** As for `efi_main` (`GraphicsServices`), and
every mode it shows is one that the console fits, without back porch
(`ConsoleMode`).

* `booted_configured`: a kernel is booted behind two halves of `InitUEFI_GOP`
  that have come to their ends;
* `power_on_reports`: what is on the screen of the first device, from the first
  message to the last error.
-/
namespace PiousOS.PowerOn
open Loader Kernel EarlyExit

variable {σ : Type}

/-- A mode as the kernel reads it. -/
def screenOf (Info : MODE_INFORMATION) : EFI_GRAPHICS_OUTPUT_PROTOCOL_MODE :=
  ⟨Info.PixelsPerScanLine, Info.HorizontalResolution, Info.VerticalResolution⟩

/-- The console fits, and a line of the screen ends where its pixels do. -/
structure ConsoleMode (Info : MODE_INFORMATION) : Prop where
  geometry : Geometry (screenOf Info)
  porch : Info.PixelsPerScanLine = Info.HorizontalResolution

section
variable {fw : MainFirmware σ} {m : MainData} {fuel : Nat} {p : Loader.BootParams} {w : σ} {G : HandleBuffer}
  {named : NamingState σ} {s : GOPState σ} {r : EStateM.Result Exit (LoaderState σ) Entry}

/-- The variables between the halves of `InitUEFI_GOP`. -/
def afterNaming (m : MainData) (G : HandleBuffer) (named : NamingState σ) : GOPState σ :=
  namedState named.firmware m.mode G.NoHandles m.timeout_seconds { m.Graphics with NumberOfFrameBuffers := 0 }

theorem booted_configured (h : efi_main fw m fuel p w = .booted G named s r) :
    (∃ w', nameDevices fw.naming m.naming (unnamed w' m.naming.defaults) = .ok G named) ∧
      ∃ Status, configureGraphics fw.graphics G.NoHandles fuel m.DEBUG_PIOUS (afterNaming m G named) = .ok Status s := by
  rw [efi_main] at h
  dsimp only at h
  split at h
  · cases h
  · generalize (fw.naming.AllocatePool sizeofGpuConfig w).2 = w' at h
    rw [InitUEFI_GOP] at h
    cases hnames : nameDevices fw.naming m.naming (unnamed w' m.naming.defaults) with
    | error e s' =>
      rw [hnames] at h
      cases h
    | ok G' named' =>
      rw [hnames] at h
      dsimp only at h
      cases hconf : configureGraphics fw.graphics G'.NoHandles fuel m.DEBUG_PIOUS (afterNaming m G' named') with
      | error e s' =>
        rw [← afterNaming, hconf] at h
        cases e with
        | returned GOPStatus => cases h
        | waiting => cases h
      | ok Status s' =>
        rw [← afterNaming, hconf, bootWith] at h
        split at h
        · cases h
        · cases h
          exact ⟨⟨w', hnames⟩, Status, hconf⟩

/-- The screen that is handed over is one that the firmware has shown. -/
theorem booted_mode (hfw : GraphicsServices fw) (h : efi_main fw m fuel p w = .booted G named s r) :
    (∃ c ∈ s.calls, EFI_ERROR c.status = false ∧ s.Graphics.GPUArray 0 = c.after ∧
      ∃ w', c.after = fw.graphics.Mode w' c.device) ∧ (s.Graphics.GPUArray 0).FrameBufferBase ≠ 0 := by
  have hspec := efi_main_spec hfw m fuel p w
  rw [h] at hspec
  obtain ⟨hinit, -⟩ := hspec
  obtain ⟨⟨w', hnames⟩, Status, hconf⟩ := booted_configured h
  have hlocated := nameDevices_located hnames
  have hG := (nameDevices_spec fw.naming m.naming w' m.naming.defaults).ok rfl hnames
  have hN : 1 ≤ G.NoHandles.toNat := by
    rw [hG.1]
    exact hfw.someHandle w' hlocated
  have hnone : FromFirmware fw.graphics (afterNaming m G named) := fun c hc => absurd hc List.not_mem_nil
  have hkeeps : Loader.Keeps (FromFirmware fw.graphics)
      (configureGraphics fw.graphics G.NoHandles fuel m.DEBUG_PIOUS) :=
    configureGraphics_keepsCalls fromFirmware_callsOnly setMode_fromFirmware m.DEBUG_PIOUS
  have hfrom := KeepsInv.final hkeeps hnone
  rw [hconf] at hfrom
  exact ⟨entry_fromFirmware hinit.filled hN hfrom, hinit.framebuffer.1⟩

end

/-- **From power on.** On a firmware as above, whatever it answers and whatever
keys are pressed: when `efi_main` jumps, the first screen it hands over is the
mode data of a device after a `SetMode` that succeeded, with a frame buffer; and
the kernel on this loader block, its tables anywhere off that frame buffer, gets
to its endless loop with the boot messages on it and serves the interrupts of
`Reportable` vectors from there on. -/
theorem power_on_reports (fw : MainFirmware σ) (hfw : GraphicsServices fw)
    (hmodes : ∀ w device, ConsoleMode (fw.graphics.Mode w device).Info) (m : MainData) (fuel : Nat)
    (p : Loader.BootParams) (w : σ) (G : HandleBuffer) (named : NamingState σ) (s : GOPState σ) (entry : Entry)
    (s' : LoaderState σ) (hboot : efi_main fw m fuel p w = .booted G named s (.ok entry s')) :
    (∃ c ∈ s.calls, EFI_ERROR c.status = false ∧ s.Graphics.GPUArray 0 = c.after ∧
      ∃ w', c.after = fw.graphics.Mode w' c.device) ∧ (s.Graphics.GPUArray 0).FrameBufferBase ≠ 0 ∧
    ∀ (undefined : FloatValue → UINT64) (behind : UINT8 → Nat → UINT8) (fuel : Nat) (pl : Placement) (L : Layout)
      (kernel_stack : UINT64) (LP : Kernel.BootParams) (k : KernelMemory), 2200 < fuel →
      LP.toLOADER_PARAMS = entry.Loader_block →
      (∀ a, TableBytes pl a → ¬ InFramebuffer (screenOf (s.Graphics.GPUArray 0).Info)
        (s.Graphics.GPUArray 0).FrameBufferBase a) →
      ∃ k', kernel_mainInMemory pl L.pusher (s.Graphics.GPUArray 0).FrameBufferBase undefined behind fuel kernel_stack
          LP k = some k' ∧
        ServesFrom undefined behind fuel pl L (screenOf (s.Graphics.GPUArray 0).Info)
          (s.Graphics.GPUArray 0).FrameBufferBase (linesText (bootLines kernel_stack LP)) k' := by
  obtain ⟨hmode, hbase⟩ := booted_mode hfw hboot
  refine ⟨hmode, hbase, fun undefined behind fuel' pl L kernel_stack LP k hfuel hLP hoff => ?_⟩
  have hspec := efi_main_spec hfw m fuel p w
  rw [hboot] at hspec
  have hgpu : LP.GPU_Configs.GPUArray 0 = screenOf (s.Graphics.GPUArray 0).Info := by
    rw [hLP, hspec.2 entry s' rfl]
    rfl
  obtain ⟨c, -, -, hfirst, w', hshown⟩ := hmode
  have hconsole : ConsoleMode (s.Graphics.GPUArray 0).Info := by
    rw [hfirst, hshown]
    exact hmodes w' c.device
  generalize (s.Graphics.GPUArray 0).FrameBufferBase = FrameBufferBase at hoff ⊢
  rw [← hgpu] at hoff ⊢
  have hg : Geometry (LP.GPU_Configs.GPUArray 0) := by
    rw [hgpu]
    exact hconsole.geometry
  have hp : (LP.GPU_Configs.GPUArray 0).PixelsPerScanLine = (LP.GPU_Configs.GPUArray 0).HorizontalResolution := by
    rw [hgpu]
    exact hconsole.porch
  obtain ⟨k', hrun, hbooted⟩ := kernel_mainInMemory_boots undefined behind fuel' hfuel pl L.pusher FrameBufferBase
    kernel_stack LP hg hp hoff k
  exact ⟨k', hrun, hbooted.serves undefined behind fuel' pl L hfuel hp hoff⟩

/-! ## A virtual machine -/

/-- The kernel is jumped to. -/
def jumps : MainEnd σ → Bool
  | .booted _ _ _ (.ok _ _) => true
  | _ => false

theorem deskInfo_console : ConsoleMode deskInfo := ⟨⟨by decide, by decide, by decide, by decide⟩, rfl⟩

/-- The frame buffer of its devices is off the tables in the higher half. -/
theorem tables_off_virtual (a : UINT64) (ha : TableBytes higherHalf a) :
    ¬ InFramebuffer (screenOf deskInfo) 0x80000000 a :=
  tables_off_of_above (by decide) a ha

/-- The kernel on the loader block of a virtual machine. -/
theorem power_on_reports_virtual :
    ∃ G named s entry s' k', efi_main virtualBoot virtualMain 3 virtualKernel () = .booted G named s (.ok entry s') ∧
      kernel_mainInMemory higherHalf spaced.pusher 0x80000000 (fun _ => 0) (fun _ _ => 0) 3000 0x300000
        ⟨entry.Loader_block, 0xBFF0000, 9⟩ imageOnly = some k' ∧
      ServesFrom (fun _ => 0) (fun _ _ => 0) 3000 higherHalf spaced (screenOf deskInfo) 0x80000000
        (linesText (bootLines 0x300000 ⟨entry.Loader_block, 0xBFF0000, 9⟩)) k' := by
  have hjumps : jumps (efi_main virtualBoot virtualMain 3 virtualKernel ()) = true := by decide +kernel
  cases hmain : efi_main virtualBoot virtualMain 3 virtualKernel () with
  | booted G named s r =>
    cases r with
    | ok entry s' =>
      obtain ⟨⟨c, -, -, hfirst, w', hshown⟩, -, hserves⟩ := power_on_reports virtualBoot virtualBoot_services
        (fun _ _ => deskInfo_console) virtualMain 3 virtualKernel () G named s entry s' hmain
      have hmode : s.Graphics.GPUArray 0 = ⟨1, 0, deskInfo, 36, 0x80000000, 0x300000⟩ := hfirst.trans hshown
      rw [hmode] at hserves
      obtain ⟨k', hrun, hall⟩ := hserves (fun _ => 0) (fun _ _ => 0) 3000 higherHalf spaced 0x300000
        ⟨entry.Loader_block, 0xBFF0000, 9⟩ imageOnly (by decide) rfl tables_off_virtual
      exact ⟨G, named, s, entry, s', k', rfl, hrun, hall⟩
    | error e s' =>
      rw [hmain] at hjumps
      cases hjumps
  | returned Status =>
    rw [hmain] at hjumps
    cases hjumps
  | waiting =>
    rw [hmain] at hjumps
    cases hjumps

end PiousOS.PowerOn
