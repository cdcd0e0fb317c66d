import PiousOS.Core.ByteMem
import PiousOS.L4Kernel.Console
import PiousOS.L4Kernel.PrintString

/-!
# The framebuffer in memory

The framebuffer is memory like any other: pixel `k` is the four bytes at
`FrameBufferBase + 4 k`, and 2^62 pixels are all of it. `fbAt` is memory as
pixels, `memWith` pixels as memory, so what `PrintString` does to a `Display`
is also what it does to memory (`printInMemory`), wherever the framebuffer is.

Results:
* `run_keepsOutside`: while a text row fits the screen, no character, newline
  or scroll stores outside the framebuffer.
* `printInMemory_outside`: so no byte outside it changes, and the cursor stays
  on the screen.
-/
namespace PiousOS.Kernel
open ByteMem

/-! ## Memory as pixels -/

def fbAt (mem : ByteMem) (FrameBufferBase : UINT64) : Framebuffer := fun p =>
  BitVec.ofNat 32 (load mem (FrameBufferBase + BitVec.ofNat 64 (4 * p.toNat)) 4)

/-- The pixel an address belongs to. -/
def pixelAt (FrameBufferBase x : UINT64) : BitVec 62 := BitVec.ofNat 62 ((x - FrameBufferBase).toNat / 4)

def memWith (FrameBufferBase : UINT64) (fb : Framebuffer) : ByteMem := fun x =>
  BitVec.ofNat 8 ((fb (pixelAt FrameBufferBase x)).toNat / 256 ^ ((x - FrameBufferBase).toNat % 4))

section
variable {mem : ByteMem} {FrameBufferBase x : UINT64} {fb fb' : Framebuffer}

theorem pixelAt_toNat : (pixelAt FrameBufferBase x).toNat = (x - FrameBufferBase).toNat / 4 := by
  have := (x - FrameBufferBase).isLt
  rw [pixelAt, BitVec.toNat_ofNat]
  exact Nat.mod_eq_of_lt (by omega)

/-- Memory is its pixels. -/
theorem memWith_fbAt (mem : ByteMem) (FrameBufferBase : UINT64) :
    memWith FrameBufferBase (fbAt mem FrameBufferBase) = mem := by
  funext x
  have hload := load_lt mem (FrameBufferBase + BitVec.ofNat 64 (4 * ((x - FrameBufferBase).toNat / 4))) 4
  have hplace : FrameBufferBase + BitVec.ofNat 64 (4 * ((x - FrameBufferBase).toNat / 4)) +
      BitVec.ofNat 64 ((x - FrameBufferBase).toNat % 4) = x := by
    rw [BitVec.add_assoc, ← BitVec.ofNat_add, Nat.div_add_mod, BitVec.ofNat_toNat, BitVec.setWidth_eq]
    bv_omega
  rw [memWith, fbAt, pixelAt_toNat, BitVec.toNat_ofNat, Nat.mod_eq_of_lt (b := 2 ^ 32) hload,
    load_byte _ _ (Nat.mod_lt _ (by decide)), hplace]

theorem memWith_congr (h : fb' (pixelAt FrameBufferBase x) = fb (pixelAt FrameBufferBase x)) :
    memWith FrameBufferBase fb' x = memWith FrameBufferBase fb x := by
  rw [memWith, memWith, h]

end

/-! ## Nothing outside the framebuffer -/

/-- The pixels of the framebuffer, the back porch included. -/
def fbPixels (gpu : EFI_GRAPHICS_OUTPUT_PROTOCOL_MODE) : Nat :=
  gpu.PixelsPerScanLine.toNat * gpu.VerticalResolution.toNat

/-- The display is set up, on a screen that a text row fits. -/
structure ScreenReady (gpu : EFI_GRAPHICS_OUTPUT_PROTOCOL_MODE) (n : Nat) (s : TextDisplaySettings) : Prop
    where
  geometry : Geometry gpu
  row : gpu.PixelsPerScanLine.toNat * (8 * n) ≤
    gpu.HorizontalResolution.toNat * gpu.VerticalResolution.toNat
  onScreen : OnScreen gpu n s

/-- From `fb` to `fb'` no pixel outside the framebuffer has changed. -/
def KeepsOutside (gpu : EFI_GRAPHICS_OUTPUT_PROTOCOL_MODE) (fb fb' : Framebuffer) : Prop :=
  ∀ p : BitVec 62, fbPixels gpu ≤ p.toNat → fb' p = fb p

section
variable {gpu : EFI_GRAPHICS_OUTPUT_PROTOCOL_MODE} {n : Nat} {behind : UINT8 → Nat → UINT8} {d : Display}

theorem KeepsOutside.trans {fb₁ fb₂ fb₃ : Framebuffer} (h : KeepsOutside gpu fb₁ fb₂)
    (h' : KeepsOutside gpu fb₂ fb₃) : KeepsOutside gpu fb₁ fb₃ :=
  fun p hp => (h' p hp).trans (h p hp)

/-- A glyph's pixels are in the framebuffer. -/
theorem glyph_keepsOutside (hs : ScreenReady gpu n d.settings) (chr : UINT8) (fg bg : UINT32)
    (fb : Framebuffer) :
    KeepsOutside gpu fb (applyStores (glyphStores d.settings behind chr fg bg) fb) := by
  intro p hp
  apply applyStores_miss
  intro st hst heq
  obtain ⟨i, j, k, hi, hj, hk, rfl⟩ := mem_glyphStores.mp hst
  rw [hs.onScreen.scale_eq] at hj hk
  obtain ⟨hx, hy, -⟩ := pixelOffset_exact hs.geometry hs.onScreen hi hj hk
  have hin := pixel_lt_screen hs.geometry.porch hx hy
  rw [pixelOf_dot hs.geometry hs.onScreen hi hj hk] at heq
  rw [← heq, pixel_toNat hs.geometry.porch hs.geometry.fits hx hy, fbPixels] at hp
  omega

theorem ScrollUp_keepsOutside (hs : ScreenReady gpu n d.settings) :
    KeepsOutside gpu d.fb (ScrollUp d).fb := by
  intro p hp
  have hsc : ScrollGeometry d.settings.defaultGPU d.settings.scale :=
    hs.onScreen.gpu_eq ▸ hs.geometry.scroll hs.onScreen
  have hrow := scrollRow_toNat hsc
  have hscreen := scrollScreen_toNat hsc
  rw [hs.onScreen.gpu_eq, hs.onScreen.scale_eq] at hrow
  rw [hs.onScreen.gpu_eq] at hscreen
  have hpos : 0 < gpu.PixelsPerScanLine.toNat * (8 * n) := by
    have hw := hs.geometry.width
    have hporch := hs.geometry.porch
    refine Nat.mul_pos (by omega) ?_
    rcases hs.onScreen.isScale with h | h | h <;> omega
  have hfit := hs.row
  have hporch := Nat.mul_le_mul_right gpu.VerticalResolution.toNat hs.geometry.porch
  rw [fbPixels] at hp
  rw [ScrollUp_at (by omega) (by omega), if_neg (by omega), if_neg (by omega)]

theorem step_keepsOutside (hs : ScreenReady gpu n d.settings) (op : ConsoleOp) :
    KeepsOutside gpu d.fb (op.step behind d).fb := by
  cases op with
  | char chr fg bg =>
    have hglyph : KeepsOutside gpu d.fb (applyStores (glyphStores d.settings behind chr fg bg) d.fb) :=
      glyph_keepsOutside hs chr fg bg d.fb
    rw [ConsoleOp.step, PrintCharacter]
    dsimp only
    split
    · exact hglyph.trans (ScrollUp_keepsOutside (d := { d with fb := _ }) hs)
    · exact hglyph
  | newline =>
    rw [ConsoleOp.step, printNewline]
    dsimp only
    split
    · exact ScrollUp_keepsOutside hs
    · exact fun _ _ => rfl

/-- No run stores outside the framebuffer, and the display stays set up. -/
theorem run_keepsOutside (hs : ScreenReady gpu n d.settings) (ops : List ConsoleOp) :
    KeepsOutside gpu d.fb (runConsole behind ops d).fb ∧
      ScreenReady gpu n (runConsole behind ops d).settings := by
  refine ⟨?_, hs.geometry, hs.row, run_onScreen hs.geometry ops hs.onScreen⟩
  induction ops generalizing d with
  | nil => exact fun _ _ => rfl
  | cons op ops ih =>
    have hnext : ScreenReady gpu n (op.step behind d).settings :=
      ⟨hs.geometry, hs.row, step_onScreen hs.geometry hs.onScreen op⟩
    exact (step_keepsOutside hs op).trans (ih hnext)

end

/-! ## Printing in memory -/

/-- Memory, and the settings of the display whose framebuffer is part of it. -/
structure Screen where
  mem : ByteMem
  display : TextDisplaySettings

/-- `PrintString` on the display whose framebuffer is at `FrameBufferBase`. -/
def printInMemory (behind : UINT8 → Nat → UINT8) (FrameBufferBase : UINT64) (fuel : Nat) (call : PrintCall)
    (k : Screen) : Option Screen :=
  (PrintString call behind fuel ⟨k.display, fbAt k.mem FrameBufferBase⟩).map fun d =>
    ⟨memWith FrameBufferBase d.fb, d.settings⟩

/-- The bytes of the framebuffer. -/
def InFramebuffer (gpu : EFI_GRAPHICS_OUTPUT_PROTOCOL_MODE) (FrameBufferBase x : UINT64) : Prop :=
  (x - FrameBufferBase).toNat < 4 * fbPixels gpu

/-- Printing changes no byte outside the framebuffer. -/
theorem printInMemory_outside {gpu : EFI_GRAPHICS_OUTPUT_PROTOCOL_MODE} {n : Nat}
    {behind : UINT8 → Nat → UINT8} {FrameBufferBase : UINT64} {fuel : Nat} {call : PrintCall} {k k' : Screen}
    (hs : ScreenReady gpu n k.display) (h : printInMemory behind FrameBufferBase fuel call k = some k') :
    ScreenReady gpu n k'.display ∧
      ∀ x, ¬ InFramebuffer gpu FrameBufferBase x → k'.mem x = k.mem x := by
  rw [printInMemory, Option.map_eq_some_iff] at h
  obtain ⟨d, hd, rfl⟩ := h
  rw [PrintString, Option.bind_eq_some_iff] at hd
  obtain ⟨-, -, hd⟩ := hd
  obtain ⟨p, -, rfl⟩ := Option.map_eq_some_iff.mp hd
  let shown : Display := ⟨k.display, fbAt k.mem FrameBufferBase⟩
  have hrun : KeepsOutside gpu shown.fb (runConsole behind p.out shown).fb ∧
      ScreenReady gpu n (runConsole behind p.out shown).settings := run_keepsOutside hs p.out
  obtain ⟨hkeeps, hready⟩ := hrun
  refine ⟨hready, fun x hx => ?_⟩
  have hfar : fbPixels gpu ≤ (pixelAt FrameBufferBase x).toNat := by
    rw [InFramebuffer] at hx
    rw [pixelAt_toNat]
    omega
  exact (memWith_congr (hkeeps _ hfar)).trans (congrFun (memWith_fbAt k.mem FrameBufferBase) x)

end PiousOS.Kernel
