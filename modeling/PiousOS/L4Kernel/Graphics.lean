import PiousOS.L1Encoding.LoaderParams
import PiousOS.L4Kernel.Font
import Mathlib.Logic.Function.Basic

/-!
# Framebuffer console (`src/kernel/graphics.c`)

The framebuffer is addressed in 4-byte pixels from `FrameBufferBase`; pointers
have 64 bits, so pixel numbers live in `BitVec 62`. Offsets are computed in
`UINT32`, as in the source, and reach memory through `setPixel`.

`PrintCharacter` draws the 8x8 bitmap at the cursor cell, `scale` pixels a
dot, then advances; `ScrollUp` copies the buffer up in place, pixel by pixel,
until its pointer *equals* the end.

* `pixelOffset_exact`: while the cursor is on the grid, every pixel of a
  glyph is at its place `(x, y)` on the visible screen, computed without wrap;
* `run_onScreen`: from `InitializeDisplay` on the cursor stays on the grid.
-/
namespace PiousOS.Kernel

/-- mirrors inc/kernel/graphics.h:7-14 -/
structure TextDisplaySettings where
  defaultGPU : EFI_GRAPHICS_OUTPUT_PROTOCOL_MODE
  fontColor : UINT32
  highlightColor : UINT32
  backgroundColor : UINT32
  scale : UINT8
  index : UINT32
  deriving DecidableEq, Repr

/-- Pixel `k` is the four bytes at `FrameBufferBase + 4 k`. -/
abbrev Framebuffer := BitVec 62 → UINT32

structure Display where
  settings : TextDisplaySettings
  fb : Framebuffer

/-- Stores of pixels at byte offsets from `FrameBufferBase`, in order. -/
abbrev PixelStores := List (UINT32 × UINT32)

/-- `*(UINT32*)(FrameBufferBase + offset) = color` -/
def setPixel (fb : Framebuffer) (offset color : UINT32) : Framebuffer :=
  Function.update fb (BitVec.ofNat 62 (offset.toNat / 4)) color

def applyStores (stores : PixelStores) (fb : Framebuffer) : Framebuffer :=
  stores.foldl (fun fb st => setPixel fb st.1 st.2) fb

section Settings
variable (s : TextDisplaySettings)

/-- The area offscreen. -/
def backporch : UINT32 := s.defaultGPU.PixelsPerScanLine - s.defaultGPU.HorizontalResolution

/-- `8 * scale`, the side of a text cell. -/
def cellSize : UINT32 := 8#32 * s.scale.setWidth 32

def rowSize : UINT32 := s.defaultGPU.VerticalResolution / cellSize s

def colSize : UINT32 := (s.defaultGPU.PixelsPerScanLine - backporch s) / cellSize s

/-- The stores of `ColorScreen`: every visible pixel. -/
def colorStores (color : UINT32) : PixelStores :=
  (List.range s.defaultGPU.VerticalResolution.toNat).flatMap fun row =>
    (List.range (s.defaultGPU.PixelsPerScanLine - backporch s).toNat).map fun col =>
      (4#32 * (s.defaultGPU.PixelsPerScanLine * BitVec.ofNat 32 row + BitVec.ofNat 32 col), color)

/-- The offset of dot `i` (column `i / 8`, row `i % 8`), subpixel `(k, j)`.
mirrors src/kernel/graphics.c:95 -/
def pixelOffset (i j k : Nat) : UINT32 :=
  let scale := s.scale.setWidth 32
  4#32 * (s.defaultGPU.PixelsPerScanLine *
      (s.index / colSize s * cellSize s + BitVec.ofNat 32 (i % 8) * scale + BitVec.ofNat 32 j) +
    (s.index % colSize s * cellSize s + BitVec.ofNat 32 (i / 8) * scale + BitVec.ofNat 32 k))

/-- The stores of `PrintCharacter`. The two branches of the source differ in
the colour only.
mirrors src/kernel/graphics.c:87-110 -/
def glyphStores (behind : UINT8 → Nat → UINT8) (chr : UINT8) (foregroundColor backgroundColor : UINT32) :
    PixelStores :=
  (List.range 64).flatMap fun i =>
    (List.range s.scale.toNat).flatMap fun j =>
      (List.range s.scale.toNat).map fun k =>
        (pixelOffset s i j k,
          if (fontByte behind chr (i % 8) >>> (i / 8)) &&& 0x01#8 ≠ 0#8 then foregroundColor
          else backgroundColor)

end Settings

/-- mirrors src/kernel/graphics.c:814-826 -/
def ColorScreen (color : UINT32) (d : Display) : Display :=
  { d with fb := applyStores (colorStores d.settings color) d.fb }

theorem sub_succ_toNat_lt {addr endAddress : BitVec 62} (h : addr ≠ endAddress) :
    (endAddress - (addr + 1#62)).toNat < (endAddress - addr).toNat := by
  have hne : addr.toNat ≠ endAddress.toNat := fun e => h (BitVec.eq_of_toNat_eq e)
  have := addr.isLt
  have := endAddress.isLt
  simp only [BitVec.toNat_sub, BitVec.toNat_add, BitVec.toNat_ofNat]
  omega

/-- `for(; addr != endAddress; addr++) *addr = *(addr + incrementation);` -/
def copyUp (incrementation endAddress addr : BitVec 62) (fb : Framebuffer) : Framebuffer :=
  if addr = endAddress then fb
  else copyUp incrementation endAddress (addr + 1#62)
    (Function.update fb addr (fb (addr + incrementation)))
termination_by (endAddress - addr).toNat
decreasing_by exact sub_succ_toNat_lt ‹_›

/-- `for(; addr != endAddress; addr++) *addr = color;` -/
def fillUp (color : UINT32) (endAddress addr : BitVec 62) (fb : Framebuffer) : Framebuffer :=
  if addr = endAddress then fb
  else fillUp color endAddress (addr + 1#62) (Function.update fb addr color)
termination_by (endAddress - addr).toNat
decreasing_by exact sub_succ_toNat_lt ‹_›

/-- The products are `UINT32`, the pointer arithmetic is not.
mirrors src/kernel/graphics.c:120-138 -/
def ScrollUp (d : Display) : Display :=
  let gpu := d.settings.defaultGPU
  let incrementation := (gpu.PixelsPerScanLine * 8#32 * d.settings.scale.setWidth 32).setWidth 62
  let screen := (gpu.VerticalResolution * gpu.HorizontalResolution).setWidth 62
  let endAddress := screen - incrementation
  let fb := copyUp incrementation endAddress 0#62 d.fb
  { d with fb := fillUp d.settings.backgroundColor screen endAddress fb }

/-- The scale for a visible screen of that many pixels.
mirrors src/kernel/graphics.c:34-37 -/
def pickScale (GPU : EFI_GRAPHICS_OUTPUT_PROTOCOL_MODE) : UINT8 :=
  let pixels := (GPU.PixelsPerScanLine - (GPU.PixelsPerScanLine - GPU.HorizontalResolution)) *
    GPU.VerticalResolution
  if pixels ≥ 1920#32 * 1080#32 then 4 else if pixels ≥ 960#32 * 540#32 then 2 else 1

/-- mirrors src/kernel/graphics.c:27-43 -/
def InitializeDisplay (GPU : EFI_GRAPHICS_OUTPUT_PROTOCOL_MODE) (d : Display) : Display :=
  ColorScreen 0x00000000 { d with settings :=
    { defaultGPU := GPU, fontColor := 0x00FFFFFF, highlightColor := 0x0033FF33,
      backgroundColor := 0x00000000, scale := pickScale GPU, index := 0 } }

/-- mirrors src/kernel/graphics.c:72-118 -/
def PrintCharacter (behind : UINT8 → Nat → UINT8) (chr : UINT8) (foregroundColor backgroundColor : UINT32)
    (d : Display) : Display :=
  let s := d.settings
  let d := { d with fb := applyStores (glyphStores s behind chr foregroundColor backgroundColor) d.fb }
  if s.index = rowSize s * colSize s - 1#32 then
    let d := ScrollUp d
    { d with settings := { d.settings with index := (rowSize s - 1#32) * colSize s } }
  else { d with settings := { d.settings with index := s.index + 1#32 } }

/-- The newline branch of `PrintString`.
mirrors src/kernel/graphics.c:794-802 -/
def printNewline (d : Display) : Display :=
  let s := d.settings
  if s.index / colSize s ≥ rowSize s - 1#32 then
    let d := ScrollUp d
    { d with settings := { d.settings with index := colSize s * (rowSize s - 1#32) } }
  else { d with settings := { d.settings with index := (s.index / colSize s + 1#32) * colSize s } }

/-- What is printed, one step at a time. -/
inductive ConsoleOp where
  | char (chr : UINT8) (foregroundColor backgroundColor : UINT32)
  | newline
  deriving DecidableEq, Repr

def ConsoleOp.step (behind : UINT8 → Nat → UINT8) (d : Display) : ConsoleOp → Display
  | .char chr fg bg => PrintCharacter behind chr fg bg d
  | .newline => printNewline d

def runConsole (behind : UINT8 → Nat → UINT8) (ops : List ConsoleOp) (d : Display) : Display :=
  ops.foldl (ConsoleOp.step behind) d

/-! ## The grid -/

/-- A screen that fits 32-bit offsets and holds a cell at every scale. -/
structure Geometry (gpu : EFI_GRAPHICS_OUTPUT_PROTOCOL_MODE) : Prop where
  porch : gpu.HorizontalResolution.toNat ≤ gpu.PixelsPerScanLine.toNat
  width : 32 ≤ gpu.HorizontalResolution.toNat
  height : 32 ≤ gpu.VerticalResolution.toNat
  fits : 4 * gpu.PixelsPerScanLine.toNat * gpu.VerticalResolution.toNat ≤ 2 ^ 32

/-- Text rows and columns at a scale. -/
def textRows (gpu : EFI_GRAPHICS_OUTPUT_PROTOCOL_MODE) (scale : Nat) : Nat :=
  gpu.VerticalResolution.toNat / (8 * scale)

def textCols (gpu : EFI_GRAPHICS_OUTPUT_PROTOCOL_MODE) (scale : Nat) : Nat :=
  gpu.HorizontalResolution.toNat / (8 * scale)

theorem cellSize_toNat (s : TextDisplaySettings) : (cellSize s).toNat = 8 * s.scale.toNat := by
  have := s.scale.isLt
  simp only [cellSize, BitVec.toNat_mul, BitVec.toNat_setWidth, BitVec.toNat_ofNat]
  omega

theorem visible_eq (gpu : EFI_GRAPHICS_OUTPUT_PROTOCOL_MODE) :
    gpu.PixelsPerScanLine - (gpu.PixelsPerScanLine - gpu.HorizontalResolution) =
      gpu.HorizontalResolution := by
  apply BitVec.eq_of_toNat_eq
  have := gpu.HorizontalResolution.isLt
  have := gpu.PixelsPerScanLine.isLt
  simp only [BitVec.toNat_sub]
  omega

theorem rowSize_toNat (s : TextDisplaySettings) :
    (rowSize s).toNat = textRows s.defaultGPU s.scale.toNat := by
  rw [rowSize, BitVec.toNat_udiv, cellSize_toNat]
  rfl

theorem colSize_toNat (s : TextDisplaySettings) :
    (colSize s).toNat = textCols s.defaultGPU s.scale.toNat := by
  rw [colSize, backporch, visible_eq, BitVec.toNat_udiv, cellSize_toNat]
  rfl

/-- The scale is one of the three `InitializeDisplay` picks. -/
def IsScale (n : Nat) : Prop := n = 1 ∨ n = 2 ∨ n = 4

section Grid
variable {gpu : EFI_GRAPHICS_OUTPUT_PROTOCOL_MODE} {n : Nat}

theorem textRows_pos (hg : Geometry gpu) (hn : IsScale n) : 0 < textRows gpu n := by
  have := hg.height
  refine Nat.div_pos ?_ ?_
  · rcases hn with rfl | rfl | rfl <;> omega
  · rcases hn with rfl | rfl | rfl <;> omega

theorem textCols_pos (hg : Geometry gpu) (hn : IsScale n) : 0 < textCols gpu n := by
  have := hg.width
  refine Nat.div_pos ?_ ?_
  · rcases hn with rfl | rfl | rfl <;> omega
  · rcases hn with rfl | rfl | rfl <;> omega

/-- The grid has fewer cells than the screen has pixels. -/
theorem cells_lt (hg : Geometry gpu) (hn : IsScale n) : textRows gpu n * textCols gpu n < 2 ^ 30 := by
  have hw := hg.width
  have hh := hg.height
  have hr : textRows gpu n ≤ gpu.VerticalResolution.toNat / 8 := by
    unfold textRows
    rcases hn with rfl | rfl | rfl <;> omega
  have hc : textCols gpu n ≤ gpu.HorizontalResolution.toNat :=
    Nat.div_le_self _ _
  have hv : gpu.VerticalResolution.toNat / 8 < gpu.VerticalResolution.toNat := by omega
  calc textRows gpu n * textCols gpu n
      ≤ gpu.VerticalResolution.toNat / 8 * gpu.PixelsPerScanLine.toNat :=
        Nat.mul_le_mul hr (Nat.le_trans hc hg.porch)
    _ < gpu.VerticalResolution.toNat * gpu.PixelsPerScanLine.toNat :=
        Nat.mul_lt_mul_of_pos_right hv (by have := hg.porch; omega)
    _ ≤ 2 ^ 30 := by
        have := hg.fits
        rw [Nat.mul_assoc, Nat.mul_comm gpu.PixelsPerScanLine.toNat] at this
        omega

/-- A cell of the grid lies on the screen, pixel by pixel. -/
theorem cell_on_screen {len c d : Nat} (hn : IsScale n) (hc : c < len / (8 * n)) (hd : d < 8 * n) :
    c * (8 * n) + d < len := by
  rcases hn with rfl | rfl | rfl <;> omega

end Grid

/-! ## The cursor stays on the grid -/

/-- The invariant: the mode and a scale are set and the cursor is on the
grid. -/
structure OnScreen (gpu : EFI_GRAPHICS_OUTPUT_PROTOCOL_MODE) (n : Nat) (s : TextDisplaySettings) :
    Prop where
  gpu_eq : s.defaultGPU = gpu
  scale_eq : s.scale.toNat = n
  isScale : IsScale n
  index_lt : s.index.toNat < textRows gpu n * textCols gpu n

/-- The row and column of the screen a dot is stored to, computed exactly. -/
def pixelY (s : TextDisplaySettings) (i j : Nat) : Nat :=
  s.index.toNat / (colSize s).toNat * (8 * s.scale.toNat) + i % 8 * s.scale.toNat + j

def pixelX (s : TextDisplaySettings) (i k : Nat) : Nat :=
  s.index.toNat % (colSize s).toNat * (8 * s.scale.toNat) + i / 8 * s.scale.toNat + k

/-- Modulo 2^32 the offset is the exact one. -/
theorem pixelOffset_eq (s : TextDisplaySettings) (i j k : Nat) :
    pixelOffset s i j k =
      BitVec.ofNat 32 (4 * (s.defaultGPU.PixelsPerScanLine.toNat * pixelY s i j + pixelX s i k)) := by
  have hscale : s.scale.setWidth 32 = BitVec.ofNat 32 s.scale.toNat := by
    apply BitVec.eq_of_toNat_eq
    simp
  have hcell : cellSize s = BitVec.ofNat 32 (8 * s.scale.toNat) := by
    rw [cellSize, hscale, BitVec.ofNat_mul]
  have hdiv : s.index / colSize s = BitVec.ofNat 32 (s.index.toNat / (colSize s).toNat) := by
    rw [← BitVec.toNat_udiv, BitVec.ofNat_toNat, BitVec.setWidth_eq]
  have hmod : s.index % colSize s = BitVec.ofNat 32 (s.index.toNat % (colSize s).toNat) := by
    rw [← BitVec.toNat_umod, BitVec.ofNat_toNat, BitVec.setWidth_eq]
  have hppsl : s.defaultGPU.PixelsPerScanLine =
      BitVec.ofNat 32 s.defaultGPU.PixelsPerScanLine.toNat := by
    rw [BitVec.ofNat_toNat, BitVec.setWidth_eq]
  simp only [pixelOffset, pixelY, pixelX, BitVec.ofNat_add, BitVec.ofNat_mul, hdiv, hmod, hcell, hscale]
  rw [← hppsl]

/-- **Every pixel of a glyph is on the screen**, and its offset is computed
without wrap. -/
theorem pixelOffset_exact {gpu : EFI_GRAPHICS_OUTPUT_PROTOCOL_MODE} {n : Nat} {s : TextDisplaySettings}
    (hg : Geometry gpu) (hs : OnScreen gpu n s) {i j k : Nat} (hi : i < 64) (hj : j < n) (hk : k < n) :
    pixelX s i k < gpu.HorizontalResolution.toNat ∧ pixelY s i j < gpu.VerticalResolution.toNat ∧
      (pixelOffset s i j k).toNat = 4 * (gpu.PixelsPerScanLine.toNat * pixelY s i j + pixelX s i k) := by
  obtain ⟨rfl, rfl, hn, hlt⟩ := hs
  have hC := textCols_pos hg hn
  have hcol := colSize_toNat s
  have hx : pixelX s i k < s.defaultGPU.HorizontalResolution.toNat := by
    have hc : s.index.toNat % (colSize s).toNat < textCols s.defaultGPU s.scale.toNat := by
      rw [hcol]; exact Nat.mod_lt _ hC
    rw [pixelX, Nat.add_assoc]
    refine cell_on_screen hn hc ?_
    have hi8 : i / 8 < 8 := by omega
    calc i / 8 * s.scale.toNat + k < (i / 8 + 1) * s.scale.toNat := by rw [Nat.add_mul]; omega
      _ ≤ 8 * s.scale.toNat := Nat.mul_le_mul_right _ hi8
  have hy : pixelY s i j < s.defaultGPU.VerticalResolution.toNat := by
    have hr : s.index.toNat / (colSize s).toNat < textRows s.defaultGPU s.scale.toNat := by
      rw [hcol]
      exact Nat.div_lt_of_lt_mul (by rw [Nat.mul_comm]; exact hlt)
    rw [pixelY, Nat.add_assoc]
    refine cell_on_screen hn hr ?_
    have hi8 : i % 8 < 8 := by omega
    calc i % 8 * s.scale.toNat + j < (i % 8 + 1) * s.scale.toNat := by rw [Nat.add_mul]; omega
      _ ≤ 8 * s.scale.toNat := Nat.mul_le_mul_right _ hi8
  refine ⟨hx, hy, ?_⟩
  rw [pixelOffset_eq, BitVec.toNat_ofNat]
  apply Nat.mod_eq_of_lt
  -- the pixel is before the end of its scan line, and that is in the buffer
  have hline : s.defaultGPU.PixelsPerScanLine.toNat * (pixelY s i j + 1) ≤
      s.defaultGPU.PixelsPerScanLine.toNat * s.defaultGPU.VerticalResolution.toNat :=
    Nat.mul_le_mul_left _ hy
  have hporch := hg.porch
  have hfits := hg.fits
  rw [Nat.mul_assoc] at hfits
  rw [Nat.mul_add, Nat.mul_one] at hline
  omega

theorem pickScale_isScale (gpu : EFI_GRAPHICS_OUTPUT_PROTOCOL_MODE) : IsScale (pickScale gpu).toNat := by
  unfold pickScale
  dsimp only
  split
  · exact .inr (.inr rfl)
  split
  · exact .inr (.inl rfl)
  · exact .inl rfl

section Cursor
variable {gpu : EFI_GRAPHICS_OUTPUT_PROTOCOL_MODE} {n : Nat} {behind : UINT8 → Nat → UINT8} {d : Display}

/-- The cursor after a character, as a number. -/
def advanceIndex (R C index : Nat) : Nat := if index = R * C - 1 then (R - 1) * C else index + 1

/-- The cursor after a newline. -/
def newlineIndex (R C index : Nat) : Nat := if index / C + 1 < R then (index / C + 1) * C else (R - 1) * C

theorem lastRow_toNat {s : TextDisplaySettings} (hg : Geometry gpu) (hs : OnScreen gpu n s) :
    ((rowSize s - 1#32) * colSize s).toNat = (textRows gpu n - 1) * textCols gpu n := by
  have hr := rowSize_toNat s
  have hc := colSize_toNat s
  rw [hs.gpu_eq, hs.scale_eq] at hr hc
  have hpos := textRows_pos hg hs.isScale
  have hlt := cells_lt hg hs.isScale
  have hsub : (rowSize s - 1#32).toNat = textRows gpu n - 1 := by
    have := (rowSize s).isLt
    rw [BitVec.toNat_sub, hr]
    simp only [BitVec.toNat_ofNat]
    omega
  have hle : (textRows gpu n - 1) * textCols gpu n ≤ textRows gpu n * textCols gpu n :=
    Nat.mul_le_mul_right _ (Nat.sub_le _ _)
  rw [BitVec.toNat_mul, hsub, hc]
  exact Nat.mod_eq_of_lt (by omega)

theorem index_eq_last_iff {s : TextDisplaySettings} (hg : Geometry gpu) (hs : OnScreen gpu n s) :
    s.index = rowSize s * colSize s - 1#32 ↔ s.index.toNat = textRows gpu n * textCols gpu n - 1 := by
  have hr := rowSize_toNat s
  have hc := colSize_toNat s
  rw [hs.gpu_eq, hs.scale_eq] at hr hc
  have hlt := cells_lt hg hs.isScale
  have hpos : 0 < textRows gpu n * textCols gpu n :=
    Nat.mul_pos (textRows_pos hg hs.isScale) (textCols_pos hg hs.isScale)
  have hlast : (rowSize s * colSize s - 1#32).toNat = textRows gpu n * textCols gpu n - 1 := by
    rw [BitVec.toNat_sub, BitVec.toNat_mul, hr, hc]
    simp only [BitVec.toNat_ofNat]
    omega
  rw [← BitVec.toNat_inj, hlast]

/-- Printing a character moves the cursor and nothing else of the settings. -/
theorem PrintCharacter_settings (behind : UINT8 → Nat → UINT8) (hg : Geometry gpu)
    (hs : OnScreen gpu n d.settings) (chr : UINT8) (fg bg : UINT32) :
    ∃ index, (PrintCharacter behind chr fg bg d).settings = { d.settings with index := index } ∧
      index.toNat = advanceIndex (textRows gpu n) (textCols gpu n) d.settings.index.toNat := by
  have hlt := hs.index_lt
  have hcells := cells_lt hg hs.isScale
  unfold PrintCharacter advanceIndex
  dsimp only
  by_cases h : d.settings.index = rowSize d.settings * colSize d.settings - 1#32
  · rw [if_pos h, if_pos ((index_eq_last_iff hg hs).mp h)]
    exact ⟨_, rfl, lastRow_toNat hg hs⟩
  · rw [if_neg h, if_neg (fun he => h ((index_eq_last_iff hg hs).mpr he))]
    refine ⟨_, rfl, ?_⟩
    simp only [BitVec.toNat_add, BitVec.toNat_ofNat]
    omega

/-- A newline scrolls in the last row. -/
theorem newline_scrolls_iff {s : TextDisplaySettings} (hg : Geometry gpu) (hs : OnScreen gpu n s) :
    s.index / colSize s ≥ rowSize s - 1#32 ↔ ¬ s.index.toNat / textCols gpu n + 1 < textRows gpu n := by
  have hpos := textRows_pos hg hs.isScale
  have hr := rowSize_toNat s
  have hc := colSize_toNat s
  rw [hs.gpu_eq, hs.scale_eq] at hr hc
  have hrlt : textRows gpu n < 2 ^ 32 := hr ▸ (rowSize s).isLt
  rw [ge_iff_le, BitVec.le_def, BitVec.toNat_sub, BitVec.toNat_udiv, hr, hc]
  simp only [BitVec.toNat_ofNat]
  omega

/-- So does a newline. -/
theorem printNewline_settings (hg : Geometry gpu) (hs : OnScreen gpu n d.settings) :
    ∃ index, (printNewline d).settings = { d.settings with index := index } ∧
      index.toNat = newlineIndex (textRows gpu n) (textCols gpu n) d.settings.index.toNat := by
  have hcells := cells_lt hg hs.isScale
  have hc := colSize_toNat d.settings
  rw [hs.gpu_eq, hs.scale_eq] at hc
  have hcond := newline_scrolls_iff hg hs
  unfold printNewline newlineIndex
  dsimp only
  by_cases h : d.settings.index / colSize d.settings ≥ rowSize d.settings - 1#32
  · rw [if_pos h, if_neg (hcond.mp h)]
    exact ⟨_, rfl, by rw [BitVec.mul_comm]; exact lastRow_toNat hg hs⟩
  · have hnext : d.settings.index.toNat / textCols gpu n + 1 < textRows gpu n := by
      by_contra hge
      exact h (hcond.mpr hge)
    have hle : (d.settings.index.toNat / textCols gpu n + 1) * textCols gpu n ≤
        textRows gpu n * textCols gpu n := Nat.mul_le_mul_right _ (Nat.le_of_lt hnext)
    have hrlt : textRows gpu n < 2 ^ 32 := by
      have := Nat.div_le_self gpu.VerticalResolution.toNat (8 * n)
      have := gpu.VerticalResolution.isLt
      unfold textRows
      omega
    rw [if_neg h, if_pos hnext]
    refine ⟨_, rfl, ?_⟩
    rw [BitVec.toNat_mul, BitVec.toNat_add, BitVec.toNat_udiv, hc]
    simp only [BitVec.toNat_ofNat, Nat.reducePow, Nat.reduceMod]
    rw [Nat.mod_eq_of_lt (a := _ + 1) (by omega)]
    exact Nat.mod_eq_of_lt (by omega)

theorem advanceIndex_lt {R C index : Nat} (hR : 0 < R) (hC : 0 < C) (h : index < R * C) :
    advanceIndex R C index < R * C := by
  have hlast : (R - 1) * C < R * C := Nat.mul_lt_mul_of_pos_right (by omega) hC
  unfold advanceIndex
  split
  · exact hlast
  · omega

theorem newlineIndex_lt {R C index : Nat} (hR : 0 < R) (hC : 0 < C) : newlineIndex R C index < R * C := by
  have hlast : (R - 1) * C < R * C := Nat.mul_lt_mul_of_pos_right (by omega) hC
  unfold newlineIndex
  split
  · next h => exact Nat.mul_lt_mul_of_pos_right h hC
  · exact hlast

theorem OnScreen.move {s : TextDisplaySettings} (hs : OnScreen gpu n s) {index : UINT32}
    (h : index.toNat < textRows gpu n * textCols gpu n) : OnScreen gpu n { s with index := index } :=
  ⟨hs.gpu_eq, hs.scale_eq, hs.isScale, h⟩

/-- One step keeps the cursor on the grid. -/
theorem step_onScreen (hg : Geometry gpu) (hs : OnScreen gpu n d.settings) (op : ConsoleOp) :
    OnScreen gpu n (op.step behind d).settings := by
  have hR := textRows_pos hg hs.isScale
  have hC := textCols_pos hg hs.isScale
  cases op with
  | char chr fg bg =>
    obtain ⟨index, he, hi⟩ := PrintCharacter_settings behind hg hs chr fg bg
    rw [ConsoleOp.step, he]
    exact hs.move (by rw [hi]; exact advanceIndex_lt hR hC hs.index_lt)
  | newline =>
    obtain ⟨index, he, hi⟩ := printNewline_settings hg hs
    rw [ConsoleOp.step, he]
    exact hs.move (by rw [hi]; exact newlineIndex_lt hR hC)

theorem InitializeDisplay_onScreen (hg : Geometry gpu) (d : Display) :
    OnScreen gpu (pickScale gpu).toNat (InitializeDisplay gpu d).settings where
  gpu_eq := rfl
  scale_eq := rfl
  isScale := pickScale_isScale gpu
  index_lt := Nat.mul_pos (textRows_pos hg (pickScale_isScale gpu)) (textCols_pos hg (pickScale_isScale gpu))

/-- A run keeps the cursor on the grid. -/
theorem run_onScreen (hg : Geometry gpu) (ops : List ConsoleOp) (hs : OnScreen gpu n d.settings) :
    OnScreen gpu n (runConsole behind ops d).settings := by
  induction ops generalizing d with
  | nil => exact hs
  | cons op ops ih => exact ih (step_onScreen hg hs op)

end Cursor

/-- Every store of a character is a dot's. -/
theorem mem_glyphStores {s : TextDisplaySettings} {behind : UINT8 → Nat → UINT8} {chr : UINT8}
    {fg bg : UINT32} {st : UINT32 × UINT32} :
    st ∈ glyphStores s behind chr fg bg ↔ ∃ i j k, i < 64 ∧ j < s.scale.toNat ∧ k < s.scale.toNat ∧
      st = (pixelOffset s i j k,
        if (fontByte behind chr (i % 8) >>> (i / 8)) &&& 0x01#8 ≠ 0#8 then fg else bg) := by
  simp only [glyphStores, List.mem_flatMap, List.mem_map, List.mem_range]
  constructor
  · rintro ⟨i, hi, j, hj, k, hk, rfl⟩
    exact ⟨i, j, k, hi, hj, hk, rfl⟩
  · rintro ⟨i, j, k, hi, hj, hk, rfl⟩
    exact ⟨i, hi, j, hj, k, hk, rfl⟩

/-- **The cursor and every glyph stay on the screen.** After any characters
and newlines the text grid is not empty, the cursor is on it, and every
pixel the next character stores to is at a visible place, whose offset is
the exact one. -/
theorem console_stays_on_screen (behind : UINT8 → Nat → UINT8) (gpu : EFI_GRAPHICS_OUTPUT_PROTOCOL_MODE)
    (hg : Geometry gpu) (d : Display) (ops : List ConsoleOp) :
    let s := (runConsole behind ops (InitializeDisplay gpu d)).settings
    colSize s ≠ 0 ∧ rowSize s ≠ 0 ∧ s.index.toNat < (rowSize s).toNat * (colSize s).toNat ∧
      ∀ chr fg bg, ∀ st ∈ glyphStores s behind chr fg bg, ∃ i j k,
        st.1 = pixelOffset s i j k ∧
        pixelX s i k < gpu.HorizontalResolution.toNat ∧ pixelY s i j < gpu.VerticalResolution.toNat ∧
        st.1.toNat = 4 * (gpu.PixelsPerScanLine.toNat * pixelY s i j + pixelX s i k) := by
  intro s
  have hs : OnScreen gpu (pickScale gpu).toNat s :=
    run_onScreen hg ops (InitializeDisplay_onScreen hg d)
  have hr := rowSize_toNat s
  have hc := colSize_toNat s
  rw [hs.gpu_eq, hs.scale_eq] at hr hc
  have hR := textRows_pos hg hs.isScale
  have hC := textCols_pos hg hs.isScale
  refine ⟨fun h => ?_, fun h => ?_, ?_, ?_⟩
  · rw [h] at hc; exact absurd hc (Nat.ne_of_lt hC)
  · rw [h] at hr; exact absurd hr (Nat.ne_of_lt hR)
  · rw [hr, hc]; exact hs.index_lt
  · intro chr fg bg st hst
    obtain ⟨i, j, k, hi, hj, hk, rfl⟩ := mem_glyphStores.mp hst
    obtain ⟨hx, hy, ho⟩ := pixelOffset_exact hg hs hi (hs.scale_eq ▸ hj) (hs.scale_eq ▸ hk)
    exact ⟨i, j, k, rfl, hx, hy, ho⟩

/-- A panel with a back porch and a resolution that is no multiple of the
cell size, before the display is set up. -/
def panel1366 : EFI_GRAPHICS_OUTPUT_PROTOCOL_MODE := ⟨1376, 1366, 768⟩

def panelOff (gpu : EFI_GRAPHICS_OUTPUT_PROTOCOL_MODE) : Display where
  settings := ⟨gpu, 0, 0, 0, 0, 0⟩
  fb _ := 0

theorem console_stays_on_screen_1366 :
    let s := (runConsole (fun _ _ => 0) [.char 0x41 1 2, .newline, .char 0xC3 3 4]
      (InitializeDisplay panel1366 (panelOff panel1366))).settings
    s.index.toNat < (rowSize s).toNat * (colSize s).toNat :=
  (console_stays_on_screen (fun _ _ => 0) panel1366 ⟨by decide, by decide, by decide, by decide⟩
    (panelOff panel1366) _).2.2.1

end PiousOS.Kernel
