import PiousOS.Core.Terminal
import PiousOS.L4Kernel.Scroll

/-!
# The console refines a character terminal

Without a back porch, what `PrintCharacter` and the newline branch make of
the framebuffer is the picture of a `Terminal` with `textRows` by `textCols`
cells (`Shows`).

Each primitive is described pixel by pixel first: `applyStores_glyph` changes
one cell, `ScrollUp_pixel` moves everything up by a text row, leftover pixel
rows included, `ColorScreen_pixel` clears. `step_shows` is the simulation of
one operation and `console_refines_terminal` that of a run.
-/
namespace PiousOS.Kernel

/-- What a cell holds: a character with its colours. -/
structure Glyph where
  chr : UINT8
  foregroundColor : UINT32
  backgroundColor : UINT32
  deriving DecidableEq, Repr

/-- Dot `(dx, dy)` of a glyph; bit 0 of a row is leftmost. -/
def Glyph.dot (g : Glyph) (dx dy : Nat) : UINT32 :=
  if (glyphRow g.chr dy).getLsbD dx then g.foregroundColor else g.backgroundColor

/-- The picture of a grid of cells, `n` pixels a dot, on a plain background. -/
def picture (background : UINT32) (n R C : Nat) (cells : Nat → Nat → Option Glyph) (x y : Nat) : UINT32 :=
  if x / (8 * n) < C ∧ y / (8 * n) < R then
    match cells (y / (8 * n)) (x / (8 * n)) with
    | some g => g.dot (x / n % 8) (y / n % 8)
    | none => background
  else background

/-- What an operation does to the terminal. -/
def ConsoleOp.apply {R C : Nat} (t : Terminal R C Glyph) : ConsoleOp → Terminal R C Glyph
  | .char chr fg bg => t.put ⟨chr, fg, bg⟩
  | .newline => t.newline

/-- Characters of the font table, and newlines. -/
def ConsoleOp.InTable : ConsoleOp → Prop
  | .char chr _ _ => chr.toNat < 128
  | .newline => True

instance : DecidablePred ConsoleOp.InTable
  | .char chr _ _ => inferInstanceAs (Decidable (chr.toNat < 128))
  | .newline => inferInstanceAs (Decidable True)

def runTerminal {R C : Nat} (ops : List ConsoleOp) (t : Terminal R C Glyph) : Terminal R C Glyph :=
  ops.foldl ConsoleOp.apply t

/-! ## Stores -/

/-- The pixel a store goes to. -/
def pixelOf (st : UINT32 × UINT32) : BitVec 62 := BitVec.ofNat 62 (st.1.toNat / 4)

theorem applyStores_miss {stores : PixelStores} {fb : Framebuffer} {p : BitVec 62}
    (h : ∀ st ∈ stores, pixelOf st ≠ p) : applyStores stores fb p = fb p := by
  induction stores generalizing fb with
  | nil => rfl
  | cons st stores ih =>
    rw [applyStores, List.foldl_cons, ← applyStores, ih fun s hs => h s (List.mem_cons_of_mem st hs)]
    exact Function.update_of_ne (h st List.mem_cons_self).symm _ _

/-- A pixel that is stored to, always in the same colour, has that colour. -/
theorem applyStores_hit {stores : PixelStores} {fb : Framebuffer} {p : BitVec 62} {color : UINT32}
    (hall : ∀ st ∈ stores, pixelOf st = p → st.2 = color) (hex : ∃ st ∈ stores, pixelOf st = p) :
    applyStores stores fb p = color := by
  induction stores generalizing fb with
  | nil => simp at hex
  | cons st stores ih =>
    rw [applyStores, List.foldl_cons, ← applyStores]
    by_cases hlater : ∃ s ∈ stores, pixelOf s = p
    · exact ih (fun s hs => hall s (List.mem_cons_of_mem st hs)) hlater
    · rw [applyStores_miss fun s hs he => hlater ⟨s, hs, he⟩]
      obtain ⟨s, hs, he⟩ := hex
      cases List.mem_cons.mp hs with
      | inl h =>
        subst h
        rw [setPixel, show BitVec.ofNat 62 (s.1.toNat / 4) = p from he, Function.update_self]
        exact hall s hs he
      | inr h => exact absurd ⟨s, h, he⟩ hlater

/-! ## Pixels -/

section
variable {gpu : EFI_GRAPHICS_OUTPUT_PROTOCOL_MODE} {n : Nat} {behind : UINT8 → Nat → UINT8} {d : Display}

/-- A visible pixel is in the framebuffer. -/
theorem pixel_lt (hg : Geometry gpu) {x y : Nat} (hx : x < gpu.HorizontalResolution.toNat)
    (hy : y < gpu.VerticalResolution.toNat) : gpu.PixelsPerScanLine.toNat * y + x < 2 ^ 30 := by
  have hlt := pixel_lt_screen hg.porch hx hy
  have hfits := hg.fits
  rw [Nat.mul_assoc] at hfits
  omega

/-- Visible pixels at different places are different. -/
theorem pixel_inj (hg : Geometry gpu) {x y x' y' : Nat} (hx : x < gpu.HorizontalResolution.toNat)
    (hy : y < gpu.VerticalResolution.toNat) (hx' : x' < gpu.HorizontalResolution.toNat)
    (hy' : y' < gpu.VerticalResolution.toNat) (h : pixel gpu x y = pixel gpu x' y') :
    x = x' ∧ y = y' := by
  have hn := congrArg BitVec.toNat h
  rw [pixel_toNat hg.porch hg.fits hx hy, pixel_toNat hg.porch hg.fits hx' hy'] at hn
  have hp := hg.porch
  have hpos : 0 < gpu.PixelsPerScanLine.toNat := by omega
  have hdiv := congrArg (· / gpu.PixelsPerScanLine.toNat) hn
  have hmod := congrArg (· % gpu.PixelsPerScanLine.toNat) hn
  simp only [Nat.mul_add_div hpos, Nat.mul_add_mod] at hdiv hmod
  rw [Nat.div_eq_of_lt (by omega), Nat.div_eq_of_lt (by omega)] at hdiv
  rw [Nat.mod_eq_of_lt (by omega), Nat.mod_eq_of_lt (by omega)] at hmod
  exact ⟨hmod, hdiv⟩

/-- A store at an exact offset goes to that pixel. -/
theorem pixelOf_eq {off color : UINT32} {x y : Nat}
    (h : off.toNat = 4 * (gpu.PixelsPerScanLine.toNat * y + x)) : pixelOf (off, color) = pixel gpu x y := by
  rw [pixelOf, h, Nat.mul_div_cancel_left _ (by decide)]
  rfl

/-- A coordinate splits into cell, dot and subpixel. -/
theorem coordinate_eq (hn : IsScale n) (x : Nat) : x = x / (8 * n) * (8 * n) + x / n % 8 * n + x % n := by
  rcases hn with rfl | rfl | rfl <;> omega

/-- The split is unique. -/
theorem coordinate_split (hn : IsScale n) {c a k : Nat} (ha : a < 8) (hk : k < n) :
    (c * (8 * n) + a * n + k) / (8 * n) = c ∧ (c * (8 * n) + a * n + k) / n % 8 = a := by
  rcases hn with rfl | rfl | rfl <;> omega

/-! ## Drawing a glyph -/

/-- The colour test of `PrintCharacter` reads one bit. -/
theorem dot_bit (b : UINT8) (k : Nat) : (b >>> k) &&& 0x01#8 ≠ 0#8 ↔ b.getLsbD k = true := by
  have h : (b >>> k) &&& 0x01#8 = if b.getLsbD k then 1#8 else 0#8 := by
    apply BitVec.eq_of_getLsbD_eq
    intro i hi
    by_cases h0 : i = 0
    · subst h0
      cases hb : b.getLsbD k <;> simp [hb]
    · cases hb : b.getLsbD k <;> simp [h0, BitVec.getLsbD_one]
  rw [h]
  cases b.getLsbD k <;> simp

section Place
variable {s : TextDisplaySettings}

theorem pixelX_eq (hs : OnScreen gpu n s) (i k : Nat) :
    pixelX s i k = s.index.toNat % textCols gpu n * (8 * n) + i / 8 * n + k := by
  rw [pixelX, colSize_toNat, hs.gpu_eq, hs.scale_eq]

theorem pixelY_eq (hs : OnScreen gpu n s) (i j : Nat) :
    pixelY s i j = s.index.toNat / textCols gpu n * (8 * n) + i % 8 * n + j := by
  rw [pixelY, colSize_toNat, hs.gpu_eq, hs.scale_eq]

/-- Where a dot's store goes. -/
theorem pixelOf_dot (hg : Geometry gpu) (hs : OnScreen gpu n s) {i j k : Nat} (hi : i < 64) (hj : j < n)
    (hk : k < n) (color : UINT32) :
    pixelOf (pixelOffset s i j k, color) = pixel gpu (pixelX s i k) (pixelY s i j) :=
  pixelOf_eq (pixelOffset_exact hg hs hi hj hk).2.2

/-- A store of dot `i` that reaches pixel `(x, y)`: the pixel is in the cursor
cell, at that dot. -/
theorem dot_at (hg : Geometry gpu) (hs : OnScreen gpu n s) {i j k x y : Nat} {color : UINT32}
    (hi : i < 64) (hj : j < n) (hk : k < n) (hx : x < gpu.HorizontalResolution.toNat)
    (hy : y < gpu.VerticalResolution.toNat) (h : pixelOf (pixelOffset s i j k, color) = pixel gpu x y) :
    (y / (8 * n) = s.index.toNat / textCols gpu n ∧ x / (8 * n) = s.index.toNat % textCols gpu n) ∧
      x / n % 8 = i / 8 ∧ y / n % 8 = i % 8 := by
  have hn := hs.isScale
  rw [pixelOf_dot hg hs hi hj hk] at h
  obtain ⟨hX, hY, -⟩ := pixelOffset_exact hg hs hi hj hk
  obtain ⟨ex, ey⟩ := pixel_inj hg hX hY hx hy h
  rw [pixelX_eq hs] at ex
  rw [pixelY_eq hs] at ey
  have hcol := coordinate_split hn (c := s.index.toNat % textCols gpu n) (show i / 8 < 8 by omega) hk
  have hrow := coordinate_split hn (c := s.index.toNat / textCols gpu n) (show i % 8 < 8 by omega) hj
  rw [ex] at hcol
  rw [ey] at hrow
  exact ⟨⟨hrow.1, hcol.1⟩, hcol.2, hrow.2⟩

end Place

/-- Drawing a character fills the cursor cell and touches nothing else that
is visible. -/
theorem applyStores_glyph (hg : Geometry gpu) {s : TextDisplaySettings} (hs : OnScreen gpu n s)
    {chr : UINT8} (hchr : chr.toNat < 128) (fg bg : UINT32) (fb : Framebuffer) {x y : Nat}
    (hx : x < gpu.HorizontalResolution.toNat) (hy : y < gpu.VerticalResolution.toNat) :
    applyStores (glyphStores s behind chr fg bg) fb (pixel gpu x y) =
      if y / (8 * n) = s.index.toNat / textCols gpu n ∧ x / (8 * n) = s.index.toNat % textCols gpu n then
        Glyph.dot ⟨chr, fg, bg⟩ (x / n % 8) (y / n % 8)
      else fb (pixel gpu x y) := by
  have hn := hs.isScale
  by_cases hcell : y / (8 * n) = s.index.toNat / textCols gpu n ∧ x / (8 * n) = s.index.toNat % textCols gpu n
  · rw [if_pos hcell]
    apply applyStores_hit
    · intro st hst hp
      obtain ⟨i, j, k, hi, hj, hk, rfl⟩ := mem_glyphStores.mp hst
      rw [hs.scale_eq] at hj hk
      obtain ⟨_, hdx, hdy⟩ := dot_at hg hs hi hj hk hx hy hp
      simp only [Glyph.dot, hdx, hdy, fontByte_of_lt hchr, dot_bit]
    · -- the dot at `(x, y)` is stored
      have hn0 : 0 < n := by rcases hn with rfl | rfl | rfl <;> decide
      have hi : x / n % 8 * 8 + y / n % 8 < 64 := by omega
      refine ⟨_, mem_glyphStores.mpr ⟨x / n % 8 * 8 + y / n % 8, y % n, x % n, hi,
        by rw [hs.scale_eq]; exact Nat.mod_lt y hn0, by rw [hs.scale_eq]; exact Nat.mod_lt x hn0, rfl⟩, ?_⟩
      rw [pixelOf_dot hg hs hi (Nat.mod_lt y hn0) (Nat.mod_lt x hn0), pixelX_eq hs, pixelY_eq hs,
        show (x / n % 8 * 8 + y / n % 8) / 8 = x / n % 8 by omega,
        show (x / n % 8 * 8 + y / n % 8) % 8 = y / n % 8 by omega, ← hcell.1, ← hcell.2,
        ← coordinate_eq hn, ← coordinate_eq hn]
  · rw [if_neg hcell]
    apply applyStores_miss
    intro st hst hp
    obtain ⟨i, j, k, hi, hj, hk, rfl⟩ := mem_glyphStores.mp hst
    rw [hs.scale_eq] at hj hk
    exact hcell (dot_at hg hs hi hj hk hx hy hp).1

/-! ## Scrolling and clearing -/

theorem Geometry.scroll (hg : Geometry gpu) {s : TextDisplaySettings} (hs : OnScreen gpu n s) :
    ScrollGeometry gpu s.scale := by
  have hw := hg.width
  have hh := hg.height
  have hn : n ≤ 4 := by rcases hs.isScale with rfl | rfl | rfl <;> decide
  exact ⟨hg.porch, by rw [hs.scale_eq]; omega, by rw [hs.scale_eq]; omega, hg.fits⟩

/-- Without a back porch `ScrollUp` moves the screen up by a text row. -/
theorem ScrollUp_pixel (hg : Geometry gpu)
    (hp : gpu.PixelsPerScanLine = gpu.HorizontalResolution) (hs : OnScreen gpu n d.settings) {x y : Nat}
    (hx : x < gpu.HorizontalResolution.toNat) (hy : y < gpu.VerticalResolution.toNat) :
    (ScrollUp d).fb (pixel gpu x y) =
      if y + 8 * n < gpu.VerticalResolution.toNat then d.fb (pixel gpu x (y + 8 * n))
      else d.settings.backgroundColor := by
  have hsc := hg.scroll hs
  obtain ⟨rfl, rfl, hn, -⟩ := hs
  have hpos : 0 < d.settings.scale.toNat := by rcases hn with h | h | h <;> omega
  exact ScrollUp_pixel_of_no_porch hsc hp hpos hx hy

/-- `ColorScreen` paints every visible pixel. -/
theorem ColorScreen_pixel (hg : Geometry gpu) (hgpu : d.settings.defaultGPU = gpu) (color : UINT32)
    {x y : Nat} (hx : x < gpu.HorizontalResolution.toNat) (hy : y < gpu.VerticalResolution.toNat) :
    (ColorScreen color d).fb (pixel gpu x y) = color := by
  refine applyStores_hit ?_ ?_
  · intro st hst _
    simp only [colorStores, List.mem_flatMap, List.mem_map] at hst
    obtain ⟨row, -, col, -, rfl⟩ := hst
    rfl
  · refine ⟨(4#32 * (d.settings.defaultGPU.PixelsPerScanLine * BitVec.ofNat 32 y + BitVec.ofNat 32 x), color),
      ?_, pixelOf_eq ?_⟩
    · simp only [colorStores, List.mem_flatMap, List.mem_map, List.mem_range]
      rw [backporch, visible_eq, hgpu]
      exact ⟨y, hy, x, hx, rfl⟩
    · have hlt := pixel_lt hg hx hy
      have heq : 4#32 * (gpu.PixelsPerScanLine * BitVec.ofNat 32 y + BitVec.ofNat 32 x) =
          BitVec.ofNat 32 (4 * (gpu.PixelsPerScanLine.toNat * y + x)) := by
        simp only [BitVec.ofNat_add, BitVec.ofNat_mul, BitVec.ofNat_toNat, BitVec.setWidth_eq]
      rw [hgpu, heq, BitVec.toNat_ofNat]
      exact Nat.mod_eq_of_lt (by omega)

/-! ## The picture -/

/-- Filling a cell changes the picture in that cell only. -/
theorem picture_fill (background : UINT32) {R C : Nat} (t : Terminal R C Glyph) (g : Glyph) (x y : Nat) :
    picture background n R C (t.fill g).cells x y =
      if y / (8 * n) = t.row ∧ x / (8 * n) = t.col then g.dot (x / n % 8) (y / n % 8)
      else picture background n R C t.cells x y := by
  have hr := t.row_lt
  have hc := t.col_lt
  by_cases hcell : y / (8 * n) = t.row ∧ x / (8 * n) = t.col
  · rw [if_pos hcell, picture, if_pos ⟨by omega, by omega⟩]
    simp only [Terminal.fill, if_pos hcell]
  · rw [if_neg hcell]
    simp only [picture, Terminal.fill, if_neg hcell]

/-- Scrolling the grid moves the picture up by a text row. -/
theorem picture_scroll (background : UINT32) (hn : IsScale n) {R V : Nat} (hR : R = V / (8 * n)) (C : Nat)
    (cells : Nat → Nat → Option Glyph) (x y : Nat) :
    picture background n R C (Terminal.scrollCells R cells) x y =
      if y + 8 * n < V then picture background n R C cells x (y + 8 * n) else background := by
  have hn8 : 0 < 8 * n := by rcases hn with rfl | rfl | rfl <;> decide
  have hdiv : (y + 8 * n) / (8 * n) = y / (8 * n) + 1 := Nat.add_div_right y hn8
  have hdot : (y + 8 * n) / n % 8 = y / n % 8 := by rcases hn with rfl | rfl | rfl <;> omega
  have hbottom : y / (8 * n) + 1 < R → y + 8 * n < V := by
    subst hR
    intro h
    rcases hn with rfl | rfl | rfl <;> omega
  by_cases hnext : x / (8 * n) < C ∧ y / (8 * n) + 1 < R
  · rw [if_pos (hbottom hnext.2), picture, picture, if_pos ⟨hnext.1, by omega⟩, hdiv, if_pos hnext, hdot]
    simp only [Terminal.scrollCells, if_pos hnext.2]
  · -- nothing comes from below the last row or beside the grid
    have hblank : picture background n R C (Terminal.scrollCells R cells) x y = background := by
      rw [picture]
      by_cases hin : x / (8 * n) < C ∧ y / (8 * n) < R
      · have hlast : ¬ y / (8 * n) + 1 < R := fun h => hnext ⟨hin.1, h⟩
        rw [if_pos hin]
        simp only [Terminal.scrollCells, if_neg hlast]
      · rw [if_neg hin]
    have hbelow : picture background n R C cells x (y + 8 * n) = background := by
      rw [picture, hdiv, if_neg hnext]
    rw [hblank, hbelow, ite_self]

/-! ## The simulation -/

/-- The display shows the terminal: the cursors agree and every visible
pixel is the picture's. -/
structure Shows (gpu : EFI_GRAPHICS_OUTPUT_PROTOCOL_MODE) (n : Nat) (background : UINT32) (d : Display)
    (t : Terminal (textRows gpu n) (textCols gpu n) Glyph) : Prop where
  onScreen : OnScreen gpu n d.settings
  background_eq : d.settings.backgroundColor = background
  cursor : d.settings.index.toNat = t.index
  pixels : ∀ x y, x < gpu.HorizontalResolution.toNat → y < gpu.VerticalResolution.toNat →
    d.fb (pixel gpu x y) = picture background n (textRows gpu n) (textCols gpu n) t.cells x y

variable {background : UINT32} {t : Terminal (textRows gpu n) (textCols gpu n) Glyph}

/-- The screen after a scroll shows the scrolled grid. -/
theorem Shows.scroll (hg : Geometry gpu) (hp : gpu.PixelsPerScanLine = gpu.HorizontalResolution)
    {cells : Nat → Nat → Option Glyph} (hs : OnScreen gpu n d.settings)
    (hb : d.settings.backgroundColor = background)
    (hpix : ∀ x y, x < gpu.HorizontalResolution.toNat → y < gpu.VerticalResolution.toNat →
      d.fb (pixel gpu x y) = picture background n (textRows gpu n) (textCols gpu n) cells x y) {x y : Nat}
    (hx : x < gpu.HorizontalResolution.toNat) (hy : y < gpu.VerticalResolution.toNat) :
    (ScrollUp d).fb (pixel gpu x y) = picture background n (textRows gpu n) (textCols gpu n)
      (Terminal.scrollCells (textRows gpu n) cells) x y := by
  rw [ScrollUp_pixel hg hp hs hx hy, picture_scroll background hs.isScale (show textRows gpu n = _ from rfl), hb]
  by_cases h : y + 8 * n < gpu.VerticalResolution.toNat
  · rw [if_pos h, if_pos h, hpix x _ hx h]
  · rw [if_neg h, if_neg h]

/-- A display that differs from one on screen in the cursor and the pixels
shows a terminal if these agree with it. -/
theorem Shows.move {d' : Display} {index : UINT32} (hs : OnScreen gpu n d.settings)
    (hb : d.settings.backgroundColor = background) (hset : d'.settings = { d.settings with index := index })
    (hcur : d'.settings.index.toNat = t.index)
    (hpix : ∀ x y, x < gpu.HorizontalResolution.toNat → y < gpu.VerticalResolution.toNat →
      d'.fb (pixel gpu x y) = picture background n (textRows gpu n) (textCols gpu n) t.cells x y) :
    Shows gpu n background d' t := by
  refine ⟨?_, by rw [hset]; exact hb, hcur, hpix⟩
  rw [hset] at hcur ⊢
  exact hs.move (hcur ▸ Terminal.index_lt t)

theorem PrintCharacter_shows (hg : Geometry gpu) (hp : gpu.PixelsPerScanLine = gpu.HorizontalResolution)
    (h : Shows gpu n background d t) {chr : UINT8} (hchr : chr.toNat < 128) (fg bg : UINT32) :
    Shows gpu n background (PrintCharacter behind chr fg bg d) (t.put ⟨chr, fg, bg⟩) := by
  obtain ⟨hs, hb, hcur, hpix⟩ := h
  obtain ⟨index, hset, hidx⟩ := PrintCharacter_settings behind hg hs chr fg bg
  refine Shows.move hs hb hset ?_ fun x y hx hy => ?_
  · rw [hset, Terminal.put_index, ← hcur]
    exact hidx
  -- the glyph first: the screen shows the filled grid
  obtain ⟨drawn, hdrawn⟩ : ∃ drawn : Display,
      drawn = { d with fb := applyStores (glyphStores d.settings behind chr fg bg) d.fb } := ⟨_, rfl⟩
  have hfill : ∀ x y, x < gpu.HorizontalResolution.toNat → y < gpu.VerticalResolution.toNat →
      drawn.fb (pixel gpu x y) = picture background n (textRows gpu n) (textCols gpu n)
        (t.fill ⟨chr, fg, bg⟩).cells x y := by
    intro x y hx hy
    rw [hdrawn, picture_fill, ← hpix x y hx hy, ← Terminal.index_div, ← Terminal.index_mod, ← hcur]
    exact applyStores_glyph hg hs hchr fg bg d.fb hx hy
  have hlast := index_eq_last_iff hg hs
  rw [hcur] at hlast
  rw [Terminal.put_cells]
  unfold PrintCharacter
  dsimp only
  rw [← hdrawn]
  by_cases hl : d.settings.index = rowSize d.settings * colSize d.settings - 1#32
  · rw [if_pos hl, if_pos (hlast.mp hl)]
    exact Shows.scroll hg hp (by rw [hdrawn]; exact hs) (by rw [hdrawn]; exact hb) hfill hx hy
  · rw [if_neg hl, if_neg (fun he => hl (hlast.mpr he)), ← hfill x y hx hy, hdrawn]

theorem printNewline_shows (hg : Geometry gpu) (hp : gpu.PixelsPerScanLine = gpu.HorizontalResolution)
    (h : Shows gpu n background d t) : Shows gpu n background (printNewline d) t.newline := by
  obtain ⟨hs, hb, hcur, hpix⟩ := h
  obtain ⟨index, hset, hidx⟩ := printNewline_settings hg hs
  refine Shows.move hs hb hset ?_ fun x y hx hy => ?_
  · rw [hset, Terminal.newline_index, ← Terminal.index_div t, ← hcur]
    exact hidx
  have hcond := newline_scrolls_iff hg hs
  rw [hcur, Terminal.index_div] at hcond
  rw [Terminal.newline_cells]
  unfold printNewline
  dsimp only
  by_cases hl : d.settings.index / colSize d.settings ≥ rowSize d.settings - 1#32
  · rw [if_pos hl, if_neg (hcond.mp hl)]
    exact Shows.scroll hg hp hs hb hpix hx hy
  · rw [if_neg hl, if_pos (by by_contra hrow; exact hl (hcond.mpr hrow))]
    exact hpix x y hx hy

/-- One operation on the screen is one on the terminal. -/
theorem step_shows (hg : Geometry gpu) (hp : gpu.PixelsPerScanLine = gpu.HorizontalResolution)
    (h : Shows gpu n background d t) {op : ConsoleOp} (hop : op.InTable) :
    Shows gpu n background (op.step behind d) (op.apply t) := by
  cases op with
  | char chr fg bg => exact PrintCharacter_shows hg hp h hop fg bg
  | newline => exact printNewline_shows hg hp h

theorem run_shows (hg : Geometry gpu) (hp : gpu.PixelsPerScanLine = gpu.HorizontalResolution)
    {ops : List ConsoleOp} (hops : ∀ op ∈ ops, op.InTable) (h : Shows gpu n background d t) :
    Shows gpu n background (runConsole behind ops d) (runTerminal ops t) := by
  induction ops generalizing d t with
  | nil => exact h
  | cons op ops ih =>
    exact ih (fun o ho => hops o (List.mem_cons_of_mem op ho))
      (step_shows hg hp h (hops op List.mem_cons_self))

/-- The empty terminal of a screen. -/
def blankTerminal (hg : Geometry gpu) :
    Terminal (textRows gpu (pickScale gpu).toNat) (textCols gpu (pickScale gpu).toNat) Glyph :=
  Terminal.blank (textRows_pos hg (pickScale_isScale gpu)) (textCols_pos hg (pickScale_isScale gpu))

/-- `InitializeDisplay` shows the empty terminal. -/
theorem InitializeDisplay_shows (hg : Geometry gpu) (d : Display) :
    Shows gpu (pickScale gpu).toNat 0x00000000 (InitializeDisplay gpu d) (blankTerminal hg) where
  onScreen := InitializeDisplay_onScreen hg d
  background_eq := rfl
  cursor := by simp [Terminal.index, blankTerminal, Terminal.blank, InitializeDisplay, ColorScreen]
  pixels x y hx hy := by
    rw [InitializeDisplay, ColorScreen_pixel hg rfl _ hx hy]
    simp only [picture, blankTerminal, Terminal.blank, ite_self]

end

/-- **The console refines a character terminal.** On a screen without back
porch, after any characters of the font and newlines, every pixel is that
of the picture of the terminal after the same operations. -/
theorem console_refines_terminal (behind : UINT8 → Nat → UINT8) (gpu : EFI_GRAPHICS_OUTPUT_PROTOCOL_MODE)
    (hg : Geometry gpu) (hp : gpu.PixelsPerScanLine = gpu.HorizontalResolution) (d : Display)
    (ops : List ConsoleOp) (hops : ∀ op ∈ ops, op.InTable) :
    ∀ x y, x < gpu.HorizontalResolution.toNat → y < gpu.VerticalResolution.toNat →
      (runConsole behind ops (InitializeDisplay gpu d)).fb (pixel gpu x y) =
        picture 0x00000000 (pickScale gpu).toNat (textRows gpu (pickScale gpu).toNat)
          (textCols gpu (pickScale gpu).toNat)
          (runTerminal ops (blankTerminal hg)).cells x y :=
  (run_shows hg hp hops (InitializeDisplay_shows hg d)).pixels

/-- A 40 by 32 screen: five columns and four rows of text. -/
def screen40 : EFI_GRAPHICS_OUTPUT_PROTOCOL_MODE := ⟨40, 40, 32⟩

theorem screen40_geometry : Geometry screen40 := ⟨by decide, by decide, by decide, by decide⟩

/-- Seven letters and three newlines: the first line has scrolled away and
the second is in row 0. -/
def sevenLetters : List ConsoleOp :=
  [.char 0x50 1 2, .char 0x69 1 2, .char 0x6F 1 2, .char 0x75 1 2, .char 0x73 1 2, .char 0x4F 1 2,
   .char 0x53 1 2, .newline, .newline, .newline]

theorem console_refines_terminal_40 :
    (runConsole (fun _ _ => 0) sevenLetters (InitializeDisplay screen40 (panelOff screen40))).fb
        (pixel screen40 2 0) =
      picture 0x00000000 (pickScale screen40).toNat (textRows screen40 (pickScale screen40).toNat)
        (textCols screen40 (pickScale screen40).toNat)
        (runTerminal sevenLetters (blankTerminal screen40_geometry)).cells 2 0 :=
  console_refines_terminal (fun _ _ => 0) screen40 screen40_geometry rfl (panelOff screen40) sevenLetters
    (by decide) 2 0 (by decide) (by decide)

end PiousOS.Kernel
