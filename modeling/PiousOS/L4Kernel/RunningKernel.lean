import PiousOS.L4Kernel.KernelMain
import PiousOS.L4Kernel.Nesting
import PiousOS.L4Kernel.ScreenMemory

/-!
# The running kernel

The tables, the stacks and the framebuffer are parts of one memory.
`kernel_mainInMemory` is `kernel_main` on it, on x86-64 up to the endless loop.
From there on interrupts come, in the loop and in the `hlt` of an `Abort`
(`Reported`): the stub calls its handler, the handler aborts with its code, and
if the `hlt` ends the stub returns. They are those of the `Reportable` vectors,
whose handler is `Abort` alone.

* `Prints.inMemory`: what printing writes, and what it does not;
* `reported_sound`: a report adds its lines and resumes;
* `interrupts_reported`: the screen shows what the kernel said and every
  such interrupt since.
-/
namespace PiousOS.Kernel
open ByteMem X86 Terminal

/-! ## Printing in memory -/

/-- `f` on the display whose framebuffer is at `FrameBufferBase`. -/
def inMemory (FrameBufferBase : UINT64) (f : Display → Option Display) (k : Screen) : Option Screen :=
  (f ⟨k.display, fbAt k.mem FrameBufferBase⟩).map fun d => ⟨memWith FrameBufferBase d.fb, d.settings⟩

section
variable {gpu : EFI_GRAPHICS_OUTPUT_PROTOCOL_MODE} {FrameBufferBase : UINT64} {mem mem' : ByteMem}
  {fb fb' : Framebuffer} {k : Screen} {text : List (Option Glyph)}

/-- Memory made of pixels has those pixels. -/
theorem fbAt_memWith (FrameBufferBase : UINT64) (fb : Framebuffer) :
    fbAt (memWith FrameBufferBase fb) FrameBufferBase = fb := by
  funext p
  have hp := p.isLt
  have hlt := (fb p).isLt
  have hbyte : ∀ i < 4, (memWith FrameBufferBase fb
      (FrameBufferBase + BitVec.ofNat 64 (4 * p.toNat) + BitVec.ofNat 64 i)).toNat =
        (fb p).toNat / 256 ^ i % 256 := by
    intro i hi
    have hoffset : (FrameBufferBase + BitVec.ofNat 64 (4 * p.toNat) + BitVec.ofNat 64 i - FrameBufferBase).toNat =
        4 * p.toNat + i := by
      rw [BitVec.add_assoc, ← BitVec.ofNat_add, add_ofNat_sub _ (by omega)]
    have hpixel : pixelAt FrameBufferBase
        (FrameBufferBase + BitVec.ofNat 64 (4 * p.toNat) + BitVec.ofNat 64 i) = p := by
      apply BitVec.eq_of_toNat_eq
      rw [pixelAt_toNat, hoffset]
      omega
    have hmod : (4 * p.toNat + i) % 4 = i := by omega
    rw [memWith, hpixel, hoffset, hmod, BitVec.toNat_ofNat]
  apply BitVec.eq_of_toNat_eq
  rw [fbAt, BitVec.toNat_ofNat]
  simp only [load, hbyte 0 (by decide), hbyte 1 (by decide), hbyte 2 (by decide), hbyte 3 (by decide)]
  omega

theorem fbPixels_le (hg : Geometry gpu) : 4 * fbPixels gpu ≤ 2 ^ 32 := by
  have hfits := hg.fits
  rwa [Nat.mul_assoc] at hfits

/-- A pixel of the framebuffer is its bytes. -/
theorem fbAt_congr (hg : Geometry gpu) (h : ∀ a, InFramebuffer gpu FrameBufferBase a → mem' a = mem a) {p : BitVec 62}
    (hp : p.toNat < fbPixels gpu) : fbAt mem' FrameBufferBase p = fbAt mem FrameBufferBase p := by
  have hsize := fbPixels_le hg
  rw [fbAt, fbAt]
  refine congrArg (BitVec.ofNat 32) (load_congr fun i hi => h _ ?_)
  rw [InFramebuffer, BitVec.add_assoc, ← BitVec.ofNat_add, add_ofNat_sub _ (by omega)]
  omega

/-- The screen shows a text, in the colours of `InitializeDisplay`. -/
structure TextShown (gpu : EFI_GRAPHICS_OUTPUT_PROTOCOL_MODE) (hg : Geometry gpu) (FrameBufferBase : UINT64)
    (text : List (Option Glyph)) (k : Screen) : Prop where
  colours : DefaultColours k.display
  shows : Shows gpu (pickScale gpu).toNat 0x00000000 ⟨k.display, fbAt k.mem FrameBufferBase⟩
    ((blankTerminal hg).write text)

variable {hg : Geometry gpu}

/-- What is shown is in the framebuffer. -/
theorem TextShown.congr (h : TextShown gpu hg FrameBufferBase text k)
    (hmem : ∀ a, InFramebuffer gpu FrameBufferBase a → mem' a = k.mem a) :
    TextShown gpu hg FrameBufferBase text ⟨mem', k.display⟩ where
  colours := h.colours
  shows := by
    refine ⟨h.shows.onScreen, h.shows.background_eq, h.shows.cursor, fun x y hx hy => ?_⟩
    have hin := pixel_lt_screen hg.porch hx hy
    rw [← pixel_toNat hg.porch hg.fits hx hy] at hin
    exact (fbAt_congr hg hmem hin).trans (h.shows.pixels x y hx hy)

variable (hp : gpu.PixelsPerScanLine = gpu.HorizontalResolution)
include hp

theorem TextShown.ready (h : TextShown gpu hg FrameBufferBase text k) :
    ScreenReady gpu (pickScale gpu).toNat k.display := by
  refine ⟨hg, ?_, h.shows.onScreen⟩
  have hheight := hg.height
  have hscale : 8 * (pickScale gpu).toNat ≤ gpu.VerticalResolution.toNat := by
    rcases pickScale_isScale gpu with h | h | h <;> omega
  rw [hp]
  exact Nat.mul_le_mul_left _ hscale

omit hp in
/-- Printing writes the framebuffer only. -/
theorem Prints.inMemory_outside {behind : UINT8 → Nat → UINT8} {f : Display → Option Display}
    (hf : Prints behind f text) (FrameBufferBase : UINT64) (hcolours : DefaultColours k.display)
    (hready : ScreenReady gpu (pickScale gpu).toNat k.display) :
    ∃ k', inMemory FrameBufferBase f k = some k' ∧
      ∀ a, ¬ InFramebuffer gpu FrameBufferBase a → k'.mem a = k.mem a := by
  have hkeeps : KeepsOutside gpu (fbAt k.mem FrameBufferBase)
      (runConsole behind (text.map opOf) ⟨k.display, fbAt k.mem FrameBufferBase⟩).fb :=
    (run_keepsOutside (d := ⟨k.display, fbAt k.mem FrameBufferBase⟩) hready (text.map opOf)).1
  refine ⟨_, by rw [inMemory, hf.run _ hcolours]; rfl, fun a ha => ?_⟩
  have hfar : fbPixels gpu ≤ (pixelAt FrameBufferBase a).toNat := by
    rw [InFramebuffer] at ha
    rw [pixelAt_toNat]
    omega
  exact (memWith_congr (hkeeps _ hfar)).trans (congrFun (memWith_fbAt k.mem FrameBufferBase) a)

/-- Printing adds to the text. -/
theorem Prints.inMemory {behind : UINT8 → Nat → UINT8} {f : Display → Option Display} {text' : List (Option Glyph)}
    (hf : Prints behind f text') (h : TextShown gpu hg FrameBufferBase text k) :
    ∃ k', inMemory FrameBufferBase f k = some k' ∧ TextShown gpu hg FrameBufferBase (text ++ text') k' ∧
      ∀ a, ¬ InFramebuffer gpu FrameBufferBase a → k'.mem a = k.mem a := by
  obtain ⟨k', hrun, houtside⟩ := hf.inMemory_outside FrameBufferBase h.colours (h.ready hp)
  obtain ⟨d, hd, hcolours, hshow⟩ := hf.shows hg hp h.colours h.shows
  have hk' : some k' = some ⟨memWith FrameBufferBase d.fb, d.settings⟩ := by
    rw [← hrun, Kernel.inMemory, hd]
    rfl
  obtain rfl := Option.some.inj hk'
  refine ⟨_, hrun, ⟨hcolours, ?_⟩, houtside⟩
  rw [fbAt_memWith, Terminal.write, List.foldl_append]
  exact hshow

end

/-! ## The code -/

/-- The state of the kernel, its framebuffer in the memory of the machine. -/
structure KernelMemory where
  mainMemorySettings : MemorySettings
  display : TextDisplaySettings
  machine : Machine

def KernelMemory.screen (k : KernelMemory) : Screen := ⟨k.machine.mem, k.display⟩

section
variable (p : Placement) (pusher : Nat → UINT64) (FrameBufferBase : UINT64)

/-- mirrors arch/kernel/x86_64/system.c:48-53 -/
def InitializeSystemInMemory (Parameters : LOADER_PARAMS) (k : KernelMemory) : KernelMemory :=
  let shown := InitializeDisplay (Parameters.GPU_Configs.GPUArray 0) ⟨k.display, fbAt k.machine.mem FrameBufferBase⟩
  { mainMemorySettings := InitializeMemory Parameters.Memory_Map_Size Parameters.Memory_Map_Size
      Parameters.Memory_Map Parameters.Memory_Map_Descriptor_Version
    display := shown.settings
    machine := InitializeISR p pusher { k.machine with mem := memWith FrameBufferBase shown.fb } }

/-- Up to the endless loop.
mirrors src/kernel/kernel.c:28-62 -/
def kernel_mainInMemory (undefined : FloatValue → UINT64) (behind : UINT8 → Nat → UINT8) (fuel : Nat)
    (kernel_stack : UINT64) (LP : BootParams) (k : KernelMemory) : Option KernelMemory :=
  let k := InitializeSystemInMemory p pusher FrameBufferBase LP.toLOADER_PARAMS k
  (inMemory FrameBufferBase (bootMessages undefined behind fuel kernel_stack LP) k.screen).map fun s =>
    { k with display := s.display, machine := { k.machine with mem := s.mem } }

end

/-! ## Interrupts that are reported -/

/-- A machine with the settings of its display. -/
structure Running where
  cpu : Cpu
  display : TextDisplaySettings

def Running.screen (r : Running) : Screen := ⟨r.cpu.mem, r.display⟩

/-- Nothing comes in between. -/
def Undisturbed : Kept → Cpu → Cpu → Prop := fun _ _ _ => False

/-- The vectors of the processor that have a stack and a frame. The IST pointer
of vector 2 is never set, 21 and 29 have one word too many; from 32 on the
handler begins with `xsave64`, which is undefined as `CR4.OSXSAVE` is not set. -/
def Reportable (v : Fin 256) : Prop := v.val < 32 ∧ v.val ≠ 2 ∧ ¬ OffByOne v

/-- The code that vector `v` is reported with. -/
def reportedCode (v : Nat) : UINT64 := if v ≤ 20 ∧ v ≠ 15 ∨ v = 30 then BitVec.ofNat 64 v else BitVec.allOnes 64

def reportLines (vs : List (Fin 256)) : List (Option Glyph) :=
  vs.flatMap fun v : Fin 256 => (abortLine (reportedCode v)).map some

theorem reportLines_append (vs ws : List (Fin 256)) : reportLines (vs ++ ws) = reportLines vs ++ reportLines ws :=
  List.flatMap_append

section
variable (gpu : EFI_GRAPHICS_OUTPUT_PROTOCOL_MODE) (FrameBufferBase : UINT64)

/-- With the framebuffer. -/
def WithScreen (K : Kept) : Kept := fun a => K a ∨ InFramebuffer gpu FrameBufferBase a

/-- The machine waits. Interrupts are reported by `R`, and other code that runs
leaves the screen and `K` alone. -/
inductive Waits (R : Kept → List (Fin 256) → Running → Running → Prop) (K : Kept) :
    List (Fin 256) → Running → Running → Prop where
  | stop (r : Running) : Waits R K [] r r
  | code {vs : List (Fin 256)} {r t : Running} {q : Cpu} (hkeeps : Keeps (WithScreen gpu FrameBufferBase K) r.cpu q)
      (hrest : Waits R K vs ⟨q, r.display⟩ t) : Waits R K vs r t
  | interrupt {vs ws : List (Fin 256)} {r q t : Running} (hreport : R K vs r q) (hrest : Waits R K ws q t) :
      Waits R K (vs ++ ws) r t

variable (undefined : FloatValue → UINT64) (behind : UINT8 → Nat → UINT8) (fuel : Nat)

/-- `Abort(errorCode)` called at `r` has come to its `hlt` at `x`. -/
structure Aborted (K : Kept) (errorCode : UINT64) (r x : Running) : Prop where
  prints : ∃ k, inMemory FrameBufferBase (Abort undefined behind fuel errorCode) r.screen = some k ∧
    x.display = k.display ∧ ∀ a, InFramebuffer gpu FrameBufferBase a → x.cpu.mem a = k.mem a
  keeps : Keeps K r.cpu x.cpu

/-- The interrupts `vs` are reported between `r` and `t`: the first at `r`, the
others, at most `n` deep, in the `hlt` of its handler. -/
def Reported (L : Layout) (kernel : Machine) : Nat → Kept → List (Fin 256) → Running → Running → Prop
  | 0, _, _, _, _ => False
  | n + 1, K, vs, r, t => ∃ (v : Fin 256) (ws : List (Fin 256)) (code : UINT64) (l : StubLine) (c : Cpu)
      (x y : Running) (e : Cpu), vs = v :: ws ∧ Reportable v ∧
      StubPass L Undisturbed (WithScreen gpu FrameBufferBase K) (stackOf kernel v r.cpu) l
        (interrupt kernel v code r.cpu) c y.cpu e ∧
      Aborted gpu FrameBufferBase undefined behind fuel (StackKept K (stackOf kernel v r.cpu) c) (abortCode l.name)
        ⟨c.called, r.display⟩ x ∧
      Waits gpu FrameBufferBase (Reported L kernel n) (StackKept K (stackOf kernel v r.cpu) c) ws x y ∧
      t = ⟨exec id .iretq e, y.display⟩

/-- Only the registers of the kernel's machine count. -/
theorem reported_mem (L : Layout) (kernel : Machine) (mem : ByteMem) (n : Nat) :
    Reported gpu FrameBufferBase undefined behind fuel L { kernel with mem := mem } n =
      Reported gpu FrameBufferBase undefined behind fuel L kernel n := by
  induction n with
  | zero => rfl
  | succ n ih =>
    funext K vs r t
    rw [Reported, Reported, ih]
    rfl

end

/-! ## What a report does -/

section
variable {p : Placement} {L : Layout} {m : Machine} {gpu : EFI_GRAPHICS_OUTPUT_PROTOCOL_MODE} {hg : Geometry gpu}
  {FrameBufferBase : UINT64} {undefined : FloatValue → UINT64} {behind : UINT8 → Nat → UINT8} {fuel : Nat}

variable (p L m hg FrameBufferBase) in
/-- A report resumes, keeps, and adds its lines to the screen. -/
def ReportSound (R : Kept → List (Fin 256) → Running → Running → Prop) : Prop :=
  ∀ K vs r t, IdtKept p L m K r.cpu → R K vs r t → Resumes r.cpu t.cpu ∧ Keeps K r.cpu t.cpu ∧
    ∀ text, TextShown gpu hg FrameBufferBase text r.screen →
      TextShown gpu hg FrameBufferBase (text ++ reportLines vs) t.screen

/-- While nothing writes to the framebuffer, the text stays. -/
theorem TextShown.keeps {text : List (Option Glyph)} {K : Kept} {r : Running} {q : Cpu}
    (h : TextShown gpu hg FrameBufferBase text r.screen) (hkeeps : Keeps (WithScreen gpu FrameBufferBase K) r.cpu q) :
    TextShown gpu hg FrameBufferBase text (Running.screen ⟨q, r.display⟩) :=
  h.congr fun a ha => hkeeps a (.inr ha)

theorem waits_sound {R : Kept → List (Fin 256) → Running → Running → Prop}
    (hR : ReportSound p L m hg FrameBufferBase R) {K : Kept} {vs : List (Fin 256)} {r t : Running}
    (hidt : IdtKept p L m K r.cpu) (h : Waits gpu FrameBufferBase R K vs r t) :
    Keeps K r.cpu t.cpu ∧ ∀ text, TextShown gpu hg FrameBufferBase text r.screen →
      TextShown gpu hg FrameBufferBase (text ++ reportLines vs) t.screen := by
  induction h with
  | stop r =>
    refine ⟨Keeps.refl K r.cpu, fun text htext => ?_⟩
    rw [reportLines, List.flatMap_nil, List.append_nil]
    exact htext
  | code hkeeps hrest ih =>
    have hK := hkeeps.mono fun a (ha : K a) => .inl ha
    obtain ⟨hkept, hshown⟩ := ih (hidt.then hK)
    exact ⟨hK.trans hkept, fun text htext => hshown text (htext.keeps hkeeps)⟩
  | interrupt hreport hrest ih =>
    obtain ⟨-, hK, hlines⟩ := hR _ _ _ _ hidt hreport
    obtain ⟨hkept, hshown⟩ := ih (hidt.then hK)
    refine ⟨hK.trans hkept, fun text htext => ?_⟩
    have hboth := hshown _ (hlines text htext)
    rwa [List.append_assoc, ← reportLines_append] at hboth

/-- What `Abort` has printed is one line. -/
theorem Aborted.shown (hp : gpu.PixelsPerScanLine = gpu.HorizontalResolution) (hfuel : 2200 < fuel) {K : Kept}
    {errorCode : UINT64} {r x : Running} {text : List (Option Glyph)}
    (h : Aborted gpu FrameBufferBase undefined behind fuel K errorCode r x)
    (htext : TextShown gpu hg FrameBufferBase text r.screen) :
    TextShown gpu hg FrameBufferBase (text ++ (abortLine errorCode).map some) x.screen := by
  obtain ⟨k, hk, hdisplay, hmem⟩ := h.prints
  have hline : Prints behind (Abort undefined behind fuel errorCode) _ := Abort_prints hfuel errorCode
  obtain ⟨k', hk', hshown, -⟩ := hline.inMemory hp htext
  obtain rfl := Option.some.inj (hk.symm.trans hk')
  have hx : x.screen = ⟨x.cpu.mem, k.display⟩ := by rw [Running.screen, hdisplay]
  rw [hx]
  exact hshown.congr hmem

theorem reported_sound (hp : gpu.PixelsPerScanLine = gpu.HorizontalResolution) (hfuel : 2200 < fuel) (n : Nat) :
    ReportSound p L m hg FrameBufferBase
      (Reported gpu FrameBufferBase undefined behind fuel L (InitializeISR p L.pusher m) n) := by
  induction n with
  | zero => exact fun K vs r t _ hreport => absurd hreport id
  | succ n ih =>
    intro K vs r t hidt hreport
    obtain ⟨v, ws, code, l, c, x, y, e, rfl, hv, hpass, habort, hwait, rfl⟩ := hreport
    have halone : Sound p L m Undisturbed := fun K s t _ h => absurd h id
    have he := hpass.atReturn halone hv.2.2 (fun a ha => .inl ha) hidt fun hcalled =>
      habort.keeps.trans (waits_sound ih (hcalled.then habort.keeps) hwait).1
    refine ⟨he.resumes, he.keeps, fun text htext => ?_⟩
    -- the stub leaves the screen alone up to its handler
    have hcalled : TextShown gpu hg FrameBufferBase text (Running.screen ⟨c.called, r.display⟩) :=
      htext.keeps he.entry_keeps
    have hline := habort.shown hp hfuel hcalled
    have hcode : abortCode l.name = reportedCode v := he.lines.code
    rw [hcode] at hline
    have hentry : Keeps K r.cpu c.called := he.entry_keeps.mono fun a ha => .inl ha
    have hx : IdtKept p L m (StackKept K (stackOf (InitializeISR p L.pusher m) v r.cpu) c) x.cpu :=
      ((hidt.then hentry).more fun a ha => .inl ha).then habort.keeps
    have hwaited := (waits_sound ih hx hwait).2 _ hline
    rw [List.append_assoc] at hwaited
    exact hwaited.keeps he.exit_keeps

/-- A handler that aborts with `errorCode` and does nothing else. -/
def abortHandler (undefined : FloatValue → UINT64) (behind : UINT8 → Nat → UINT8) (fuel : Nat)
    (FrameBufferBase : UINT64) (display : TextDisplaySettings) (errorCode : UINT64) (c : Cpu) : Cpu :=
  ((inMemory FrameBufferBase (Abort undefined behind fuel errorCode) ⟨c.mem, display⟩).map fun k =>
    { c with mem := k.mem }).getD c

/-- Where an interrupt has room it is reported. -/
theorem exists_reported (hp : gpu.PixelsPerScanLine = gpu.HorizontalResolution) (hfuel : 2200 < fuel) {K : Kept}
    {r : Running} {text : List (Option Glyph)} (hidt : IdtKept p L m K r.cpu)
    (htext : TextShown gpu hg FrameBufferBase text r.screen) (hK : ∀ a, K a → ¬ InFramebuffer gpu FrameBufferBase a)
    {v : Fin 256} (hv : Reportable v)
    (hroom : ∀ a, Room (stackOf (InitializeISR p L.pusher m) v r.cpu) 23 a → ¬ WithScreen gpu FrameBufferBase K a) :
    ∃ t, Reported gpu FrameBufferBase undefined behind fuel L (InitializeISR p L.pusher m) 1 K [v] r t := by
  have hready := htext.ready hp
  have hprints : ∀ errorCode c, ∃ k, inMemory FrameBufferBase (Abort undefined behind fuel errorCode)
      ⟨c.mem, r.display⟩ = some k ∧ abortHandler undefined behind fuel FrameBufferBase r.display errorCode c =
        { c with mem := k.mem } ∧ ∀ a, ¬ InFramebuffer gpu FrameBufferBase a → k.mem a = c.mem a := by
    intro errorCode c
    have hline : Prints behind (Abort undefined behind fuel errorCode) _ := Abort_prints hfuel errorCode
    obtain ⟨k, hk, houtside⟩ :=
      hline.inMemory_outside (k := ⟨c.mem, r.display⟩) FrameBufferBase htext.colours hready
    exact ⟨k, hk, by rw [abortHandler, hk]; rfl, houtside⟩
  have hhandlers : ∀ name, GivesBack (stackOf (InitializeISR p L.pusher m) v r.cpu) K
      (abortHandler undefined behind fuel FrameBufferBase r.display (abortCode name)) := by
    intro name c n hn hrsp
    obtain ⟨k, -, hy, houtside⟩ := hprints (abortCode name) c
    rw [hy]
    refine ⟨rfl, fun a ha => houtside a fun hin => ?_⟩
    cases ha with
    | inl hkept => exact hK a hkept hin
    | inr hlive => exact hroom a (((live_iff_room hrsp (by omega)).mp hlive).mono hn (by decide)) (.inr hin)
  obtain ⟨l, c, e, hpass, n, hn, hrsp⟩ := exists_pass (R := Undisturbed) hv.2.2 0 _ hidt hroom hhandlers
  obtain ⟨k, hk, hy, -⟩ := hprints (abortCode l.name) c.called
  have hkeeps := (hhandlers l.name c.called n hn hrsp).2
  rw [hy] at hpass hkeeps
  refine ⟨_, v, [], 0, l, c, ⟨{ c.called with mem := k.mem }, k.display⟩, ⟨{ c.called with mem := k.mem }, k.display⟩,
    e, rfl, hv, hpass, ⟨⟨k, hk, rfl, fun _ _ => rfl⟩, hkeeps⟩, .stop _, rfl⟩

end

/-! ## From the start on -/

/-- What `kernel_main` leaves for the endless loop: the boot messages on the
screen, and the tables of `InitializeISR`. -/
structure Booted (p : Placement) (pusher : Nat → UINT64) (gpu : EFI_GRAPHICS_OUTPUT_PROTOCOL_MODE) (hg : Geometry gpu)
    (FrameBufferBase : UINT64) (text : List (Option Glyph)) (k : KernelMemory) : Prop where
  shown : TextShown gpu hg FrameBufferBase text k.screen
  tables : ∃ m, k.machine = { InitializeISR p pusher m with mem := k.machine.mem } ∧
    ∀ a, TableBytes p a → k.machine.mem a = (InitializeISR p pusher m).mem a

theorem kernel_mainInMemory_boots (undefined : FloatValue → UINT64) (behind : UINT8 → Nat → UINT8) (fuel : Nat)
    (hfuel : 2200 < fuel) (p : Placement) (pusher : Nat → UINT64)
    (FrameBufferBase kernel_stack : UINT64) (LP : BootParams) (hg : Geometry (LP.GPU_Configs.GPUArray 0))
    (hp : (LP.GPU_Configs.GPUArray 0).PixelsPerScanLine = (LP.GPU_Configs.GPUArray 0).HorizontalResolution)
    (hoff : ∀ a, TableBytes p a → ¬ InFramebuffer (LP.GPU_Configs.GPUArray 0) FrameBufferBase a) (k : KernelMemory) :
    ∃ k', kernel_mainInMemory p pusher FrameBufferBase undefined behind fuel kernel_stack LP k = some k' ∧
      Booted p pusher (LP.GPU_Configs.GPUArray 0) hg FrameBufferBase (linesText (bootLines kernel_stack LP)) k' := by
  generalize hgpu : LP.GPU_Configs.GPUArray 0 = gpu at hg hp hoff ⊢
  obtain ⟨start, hstart⟩ : ∃ start, start = InitializeSystemInMemory p pusher FrameBufferBase LP.toLOADER_PARAMS k :=
    ⟨_, rfl⟩
  obtain ⟨shown, hshown⟩ : ∃ shown, shown = InitializeDisplay gpu ⟨k.display, fbAt k.machine.mem FrameBufferBase⟩ :=
    ⟨_, rfl⟩
  obtain ⟨m, hm⟩ : ∃ m, m = { k.machine with mem := memWith FrameBufferBase shown.fb } := ⟨_, rfl⟩
  have hscreen : start.screen = ⟨(InitializeISR p pusher m).mem, shown.settings⟩ := by
    rw [hstart, hm, hshown, ← hgpu]
    rfl
  have hmachine : start.machine = InitializeISR p pusher m := by
    rw [hstart, hm, hshown, ← hgpu]
    rfl
  -- the display is clear, and the tables are off it
  have hclear : TextShown gpu hg FrameBufferBase [] ⟨memWith FrameBufferBase shown.fb, shown.settings⟩ := by
    refine ⟨by rw [hshown]; exact ⟨rfl, rfl, rfl⟩, ?_⟩
    rw [fbAt_memWith, hshown]
    exact InitializeDisplay_shows hg _
  have hstarted : TextShown gpu hg FrameBufferBase [] start.screen := by
    rw [hscreen]
    refine hclear.congr fun a ha => ?_
    rw [InitializeISR_outside p pusher m fun hin => hoff a hin ha, hm]
  have hmessages : Prints behind (bootMessages undefined behind fuel kernel_stack LP) _ :=
    bootMessages_prints hfuel kernel_stack LP
  obtain ⟨s, hs, htext, houtside⟩ := hmessages.inMemory hp hstarted
  rw [List.nil_append] at htext
  refine ⟨{ start with display := s.display, machine := { start.machine with mem := s.mem } }, ?_, htext, m, ?_,
    fun a ha => ?_⟩
  · rw [kernel_mainInMemory, ← hstart]
    exact congrArg (Option.map _) hs
  · exact congrArg (fun machine : Machine => { machine with mem := s.mem }) hmachine
  · have hmem : start.screen.mem = (InitializeISR p pusher m).mem := by rw [hscreen]
    exact (houtside a (hoff a ha)).trans (congrFun hmem a)

section
variable (undefined : FloatValue → UINT64) (behind : UINT8 → Nat → UINT8) (fuel : Nat) (p : Placement) (L : Layout)
  (gpu : EFI_GRAPHICS_OUTPUT_PROTOCOL_MODE) (FrameBufferBase : UINT64)

/-- The kernel at `t`, where it has said `text` and the interrupts `vs` have come
since: they are on the screen, the tables are those of `kernel`, every report
that ends resumes, and one that has room can be made. -/
structure Serving (kernel : Machine) (text : List (Option Glyph)) (vs : List (Fin 256)) (t : Running) : Prop where
  shown : ScreenShows gpu ⟨t.display, fbAt t.cpu.mem FrameBufferBase⟩ (text ++ reportLines vs)
  tables : ∀ a, TableBytes p a → t.cpu.mem a = kernel.mem a
  resumes : ∀ n ws q, Reported gpu FrameBufferBase undefined behind fuel L kernel n (TableBytes p) ws t q →
    Resumes t.cpu q.cpu
  reports : ∀ v : Fin 256, Reportable v →
    (∀ a, Room (stackOf kernel v t.cpu) 23 a → ¬ WithScreen gpu FrameBufferBase (TableBytes p) a) →
    ∃ q, Reported gpu FrameBufferBase undefined behind fuel L kernel 1 (TableBytes p) [v] t q

/-- Whatever interrupts come from the state `k` on, the kernel is serving. -/
def ServesFrom (text : List (Option Glyph)) (k : KernelMemory) : Prop :=
  ∀ (cpu : Cpu) (n : Nat) (vs : List (Fin 256)) (t : Running), cpu.mem = k.machine.mem →
    Waits gpu FrameBufferBase (Reported gpu FrameBufferBase undefined behind fuel L k.machine n) (TableBytes p) vs
      ⟨cpu, k.display⟩ t →
    Serving undefined behind fuel p L gpu FrameBufferBase k.machine text vs t

variable {gpu FrameBufferBase}

theorem Booted.serves {hg : Geometry gpu} {text : List (Option Glyph)} {k : KernelMemory}
    (h : Booted p L.pusher gpu hg FrameBufferBase text k) (hfuel : 2200 < fuel)
    (hp : gpu.PixelsPerScanLine = gpu.HorizontalResolution)
    (hoff : ∀ a, TableBytes p a → ¬ InFramebuffer gpu FrameBufferBase a) :
    ServesFrom undefined behind fuel p L gpu FrameBufferBase text k := by
  intro cpu n vs t hcpu hwait
  obtain ⟨m, hmachine, htables⟩ := h.tables
  have hreport : ∀ j, Reported gpu FrameBufferBase undefined behind fuel L k.machine j =
      Reported gpu FrameBufferBase undefined behind fuel L (InitializeISR p L.pusher m) j := by
    intro j
    have hsame := reported_mem gpu FrameBufferBase undefined behind fuel L (InitializeISR p L.pusher m) k.machine.mem j
    rwa [← hmachine] at hsame
  have hsound : ∀ j, ReportSound p L m hg FrameBufferBase
      (Reported gpu FrameBufferBase undefined behind fuel L k.machine j) := fun j => by
    rw [hreport]
    exact reported_sound hp hfuel j
  have hstart : TextShown gpu hg FrameBufferBase text (Running.screen ⟨cpu, k.display⟩) := by
    rw [Running.screen, hcpu]
    exact h.shown
  have hidt : IdtKept p L m (TableBytes p) cpu :=
    ⟨fun i hi => tableBytes_idt p hi, fun i hi => by rw [hcpu]; exact htables _ (tableBytes_idt p hi)⟩
  obtain ⟨hkept, htext⟩ := waits_sound (hsound n) hidt hwait
  have hshown := htext _ hstart
  refine ⟨screenShows_of_shows hg hshown.shows, fun a ha => ?_,
    fun j ws q hq => (hsound j _ _ _ _ (hidt.then hkept) hq).1, fun v hv hroom => ?_⟩
  · rw [hkept a ha, hcpu]
  · have hstack : stackOf k.machine v t.cpu = stackOf (InitializeISR p L.pusher m) v t.cpu := by
      rw [hmachine]
      rfl
    rw [hstack] at hroom
    rw [hreport]
    exact exists_reported hp hfuel (hidt.then hkept) hshown hoff hv hroom

end

/-- **Exceptions are reported.** Wherever the linker puts tables and stubs off a
framebuffer without back porch, `kernel_main` gets to its endless loop with the
boot messages on the screen. Whatever interrupts of `Reportable` vectors come
from there on, in the loop and in the `hlt` of the handlers, nested to any depth
with room on their stacks: the screen shows the boot messages and a line for
each, in order, with the number of its vector (all ones for reserved ones), the
tables are as they were, and every report that ends resumes what it has
interrupted. One that has room can be made. -/
theorem interrupts_reported (undefined : FloatValue → UINT64) (behind : UINT8 → Nat → UINT8) (fuel : Nat)
    (hfuel : 2200 < fuel) (p : Placement) (L : Layout) (FrameBufferBase kernel_stack : UINT64) (LP : BootParams)
    (hg : Geometry (LP.GPU_Configs.GPUArray 0))
    (hp : (LP.GPU_Configs.GPUArray 0).PixelsPerScanLine = (LP.GPU_Configs.GPUArray 0).HorizontalResolution)
    (hoff : ∀ a, TableBytes p a → ¬ InFramebuffer (LP.GPU_Configs.GPUArray 0) FrameBufferBase a) (k : KernelMemory) :
    ∃ k', kernel_mainInMemory p L.pusher FrameBufferBase undefined behind fuel kernel_stack LP k = some k' ∧
      ServesFrom undefined behind fuel p L (LP.GPU_Configs.GPUArray 0) FrameBufferBase
        (linesText (bootLines kernel_stack LP)) k' := by
  obtain ⟨k', hrun, hbooted⟩ := kernel_mainInMemory_boots undefined behind fuel hfuel p L.pusher FrameBufferBase
    kernel_stack LP hg hp hoff k
  exact ⟨k', hrun, hbooted.serves undefined behind fuel p L hfuel hp hoff⟩

/-! ## A double fault on `screen40` -/

/-- Tables above a framebuffer are off it. -/
theorem tables_off_of_above {p : Placement} {gpu : EFI_GRAPHICS_OUTPUT_PROTOCOL_MODE} {FrameBufferBase : UINT64}
    (habove : ∀ e ∈ p.extents.take 3, FrameBufferBase.toNat + 4 * fbPixels gpu ≤ e.1.toNat) (a : UINT64)
    (ha : TableBytes p a) : ¬ InFramebuffer gpu FrameBufferBase a := by
  obtain ⟨e, he, hin⟩ := ha
  have hbelow := habove e he
  have hfits := p.fits e (List.mem_of_mem_take he)
  exact apart_of_ranges (.inr hbelow) hfits (by omega) a hin

/-- The framebuffer of `screen40`, at 2 GiB, is off the tables. -/
theorem tables_off_screen40 (a : UINT64) (ha : TableBytes higherHalf a) : ¬ InFramebuffer screen40 0x80000000 a :=
  tables_off_of_above (by decide) a ha

/-- The kernel before its entry. -/
def imageOnly : KernelMemory where
  mainMemorySettings := beforeSetup.mainMemorySettings
  display := beforeSetup.display.settings
  machine := atEntry higherHalf.toObjects

/-- The top words of `DF_stack` are off the tables and off that framebuffer. -/
theorem df_room_screen40 (a : UINT64) (ha : Room (alignStack (stackTop higherHalf.DF_stack)) 23 a) :
    ¬ WithScreen screen40 0x80000000 (TableBytes higherHalf) a := by
  rintro (hin | hin)
  · exact df_room_tables a ha hin
  · exact ha.apart (by decide) hin

theorem interrupts_reported_screen40 :
    ∃ k' t, kernel_mainInMemory higherHalf spaced.pusher 0x80000000 (fun _ => 0) (fun _ _ => 0) 3000 0x300000
        bootParams40 imageOnly = some k' ∧ Reported screen40 0x80000000 (fun _ => 0) (fun _ _ => 0) 3000 spaced
          k'.machine 1 (TableBytes higherHalf) [8] ⟨idleOn k'.machine, k'.display⟩ t ∧
      ScreenShows screen40 ⟨t.display, fbAt t.cpu.mem 0x80000000⟩
        (linesText (bootLines 0x300000 bootParams40) ++ reportLines [8]) := by
  obtain ⟨k', hrun, hall⟩ := interrupts_reported (fun _ => 0) (fun _ _ => 0) 3000 (by decide) higherHalf spaced
    0x80000000 0x300000 bootParams40 screen40_geometry rfl tables_off_screen40 imageOnly
  obtain ⟨k'', hrun', hbooted⟩ := kernel_mainInMemory_boots (fun _ => 0) (fun _ _ => 0) 3000 (by decide)
    higherHalf spaced.pusher 0x80000000 0x300000 bootParams40 screen40_geometry rfl tables_off_screen40 imageOnly
  obtain rfl := Option.some.inj (hrun.symm.trans hrun')
  obtain ⟨m, hmachine, htables⟩ := hbooted.tables
  have hstack : stackOf k'.machine 8 (idleOn k'.machine) = alignStack (stackTop higherHalf.DF_stack) := by
    have hloaded := (loadedStack_congr higherHalf spaced.pusher m htables 8 (idleOn k'.machine).rsp).trans
      (loadedStack_df higherHalf spaced.pusher m _)
    rw [← hmachine] at hloaded
    exact congrArg alignStack hloaded
  have hstart := hall (idleOn k'.machine) 0 [] ⟨idleOn k'.machine, k'.display⟩ (idleOn_mem _) (.stop _)
  obtain ⟨t, ht⟩ := hstart.reports 8 ⟨by decide, by decide, by decide⟩ fun a ha => df_room_screen40 a (hstack ▸ ha)
  have hend := hall (idleOn k'.machine) 1 _ t (idleOn_mem _) (.interrupt ht (.stop t))
  exact ⟨k', t, hrun, ht, hend.shown⟩

end PiousOS.Kernel
