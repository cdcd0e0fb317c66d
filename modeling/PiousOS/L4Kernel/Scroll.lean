import PiousOS.L4Kernel.Graphics

/-!
# `ScrollUp` (`src/kernel/graphics.c`)

`ScrollUp` moves the linear buffer up by a text row of `PixelsPerScanLine`
pixels a line, but takes the screen to be `HorizontalResolution` pixels a
line; its loops run until a pointer equals the end.

* `ScrollUp_at`: what it leaves at every pixel, while a text row fits the
  screen it computes;
* `ScrollUp_pixel_of_no_porch`: with both widths equal the picture moves up;
* `ScrollUp_scrolls_iff`: and in no other geometry.
-/
namespace PiousOS.Kernel

/-- The pixel at `(x, y)`. -/
def pixel (gpu : EFI_GRAPHICS_OUTPUT_PROTOCOL_MODE) (x y : Nat) : BitVec 62 :=
  BitVec.ofNat 62 (gpu.PixelsPerScanLine.toNat * y + x)

/-- A visible place lies in the framebuffer. -/
theorem pixel_lt_screen {gpu : EFI_GRAPHICS_OUTPUT_PROTOCOL_MODE}
    (hporch : gpu.HorizontalResolution.toNat ≤ gpu.PixelsPerScanLine.toNat) {x y : Nat}
    (hx : x < gpu.HorizontalResolution.toNat) (hy : y < gpu.VerticalResolution.toNat) :
    gpu.PixelsPerScanLine.toNat * y + x <
      gpu.PixelsPerScanLine.toNat * gpu.VerticalResolution.toNat := by
  have hline : gpu.PixelsPerScanLine.toNat * (y + 1) ≤
      gpu.PixelsPerScanLine.toNat * gpu.VerticalResolution.toNat := Nat.mul_le_mul_left _ hy
  rw [Nat.mul_add, Nat.mul_one] at hline
  omega

theorem pixel_toNat {gpu : EFI_GRAPHICS_OUTPUT_PROTOCOL_MODE}
    (hporch : gpu.HorizontalResolution.toNat ≤ gpu.PixelsPerScanLine.toNat)
    (hfits : 4 * gpu.PixelsPerScanLine.toNat * gpu.VerticalResolution.toNat ≤ 2 ^ 32) {x y : Nat}
    (hx : x < gpu.HorizontalResolution.toNat) (hy : y < gpu.VerticalResolution.toNat) :
    (pixel gpu x y).toNat = gpu.PixelsPerScanLine.toNat * y + x := by
  have hlt := pixel_lt_screen hporch hx hy
  rw [Nat.mul_assoc] at hfits
  rw [pixel, BitVec.toNat_ofNat]
  exact Nat.mod_eq_of_lt (by omega)

/-- What a pointer loop up to `endAddress` keeps, from its last step back. -/
theorem pointer_induction {endAddress : BitVec 62} {P : BitVec 62 → Prop} (hend : P endAddress)
    (hstep : ∀ addr, addr ≠ endAddress → addr.toNat < endAddress.toNat →
      (addr + 1#62).toNat = addr.toNat + 1 → P (addr + 1#62) → P addr)
    (addr : BitVec 62) (h : addr.toNat ≤ endAddress.toNat) : P addr := by
  obtain ⟨m, hm⟩ : ∃ m, m = endAddress.toNat - addr.toNat := ⟨_, rfl⟩
  induction m generalizing addr with
  | zero =>
    have heq : addr = endAddress := BitVec.eq_of_toNat_eq (by omega)
    exact heq ▸ hend
  | succ m ih =>
    have hne : addr ≠ endAddress := fun e => by rw [e] at hm; omega
    have hlt := endAddress.isLt
    have hsucc : (addr + 1#62).toNat = addr.toNat + 1 := by
      simp only [BitVec.toNat_add, BitVec.toNat_ofNat]
      omega
    exact hstep addr hne (by omega) hsucc (ih (addr + 1#62) (by omega) (by omega))

/-- The copy loop moves a block down by `incrementation`: each pixel is read
before it is written. -/
theorem copyUp_apply {incrementation endAddress : BitVec 62} (hinc : 0 < incrementation.toNat)
    (hend : endAddress.toNat + incrementation.toNat < 2 ^ 62) (addr : BitVec 62) (fb : Framebuffer)
    (h : addr.toNat ≤ endAddress.toNat) (p : BitVec 62) :
    copyUp incrementation endAddress addr fb p =
      if addr.toNat ≤ p.toNat ∧ p.toNat < endAddress.toNat then fb (p + incrementation) else fb p := by
  refine pointer_induction (P := fun addr => ∀ fb : Framebuffer, copyUp incrementation endAddress addr fb p =
      if addr.toNat ≤ p.toNat ∧ p.toNat < endAddress.toNat then fb (p + incrementation) else fb p)
    (fun fb => ?_) (fun addr hne hlt hsucc ih fb => ?_) addr h fb
  · rw [copyUp, if_pos rfl, if_neg (by omega)]
  · rw [copyUp, if_neg hne, ih, hsucc]
    by_cases hp : p = addr
    · subst hp
      rw [if_neg (by omega), if_pos (by omega), Function.update_self]
    · have hpne : p.toNat ≠ addr.toNat := fun e => hp (BitVec.eq_of_toNat_eq e)
      rw [Function.update_of_ne hp]
      by_cases hin : addr.toNat + 1 ≤ p.toNat ∧ p.toNat < endAddress.toNat
      · -- what is read lies above what was written
        have hread : p + incrementation ≠ addr := fun e => by
          have := congrArg BitVec.toNat e
          rw [BitVec.toNat_add, Nat.mod_eq_of_lt (by omega)] at this
          omega
        rw [if_pos hin, if_pos (by omega), Function.update_of_ne hread]
      · rw [if_neg hin, if_neg (by omega)]

/-- Over no distance it copies every pixel to itself. -/
theorem copyUp_zero {endAddress : BitVec 62} (addr : BitVec 62) (fb : Framebuffer)
    (h : addr.toNat ≤ endAddress.toNat) : copyUp 0#62 endAddress addr fb = fb := by
  refine pointer_induction (P := fun addr => copyUp 0#62 endAddress addr fb = fb) ?_
    (fun addr hne _ _ ih => ?_) addr h
  · rw [copyUp, if_pos rfl]
  · rw [copyUp, if_neg hne, BitVec.add_zero, Function.update_eq_self]
    exact ih

theorem fillUp_apply {color : UINT32} {endAddress : BitVec 62} (addr : BitVec 62) (fb : Framebuffer)
    (h : addr.toNat ≤ endAddress.toNat) (p : BitVec 62) :
    fillUp color endAddress addr fb p =
      if addr.toNat ≤ p.toNat ∧ p.toNat < endAddress.toNat then color else fb p := by
  refine pointer_induction (P := fun addr => ∀ fb : Framebuffer, fillUp color endAddress addr fb p =
      if addr.toNat ≤ p.toNat ∧ p.toNat < endAddress.toNat then color else fb p)
    (fun fb => ?_) (fun addr hne hlt hsucc ih fb => ?_) addr h fb
  · rw [fillUp, if_pos rfl, if_neg (by omega)]
  · rw [fillUp, if_neg hne, ih, hsucc]
    by_cases hp : p = addr
    · subst hp
      rw [if_neg (by omega), if_pos (by omega), Function.update_self]
    · have hpne : p.toNat ≠ addr.toNat := fun e => hp (BitVec.eq_of_toNat_eq e)
      rw [Function.update_of_ne hp]
      by_cases hin : addr.toNat + 1 ≤ p.toNat ∧ p.toNat < endAddress.toNat
      · rw [if_pos hin, if_pos (by omega)]
      · rw [if_neg hin, if_neg (by omega)]

/-! ## The pixels the loops touch -/

/-- The pixels the copy loop reads and writes, in order. -/
def copyUpAccesses (incrementation endAddress addr : BitVec 62) : List (BitVec 62) :=
  if addr = endAddress then []
  else (addr + incrementation) :: addr :: copyUpAccesses incrementation endAddress (addr + 1#62)
termination_by (endAddress - addr).toNat
decreasing_by exact sub_succ_toNat_lt ‹_›

/-- The pixels the fill loop writes. -/
def fillUpAccesses (endAddress addr : BitVec 62) : List (BitVec 62) :=
  if addr = endAddress then [] else addr :: fillUpAccesses endAddress (addr + 1#62)
termination_by (endAddress - addr).toNat
decreasing_by exact sub_succ_toNat_lt ‹_›

theorem mem_copyUpAccesses {incrementation endAddress : BitVec 62} {p : BitVec 62} (addr : BitVec 62)
    (h : addr.toNat ≤ endAddress.toNat) :
    p ∈ copyUpAccesses incrementation endAddress addr ↔
      ∃ q : BitVec 62, addr.toNat ≤ q.toNat ∧ q.toNat < endAddress.toNat ∧ (p = q + incrementation ∨ p = q) := by
  refine pointer_induction (P := fun addr => p ∈ copyUpAccesses incrementation endAddress addr ↔
      ∃ q : BitVec 62, addr.toNat ≤ q.toNat ∧ q.toNat < endAddress.toNat ∧ (p = q + incrementation ∨ p = q))
    ?_ (fun addr hne hlt hsucc ih => ?_) addr h
  · rw [copyUpAccesses, if_pos rfl]
    simp only [List.not_mem_nil, false_iff]
    rintro ⟨q, hle, hlt, -⟩
    omega
  · rw [copyUpAccesses, if_neg hne, List.mem_cons, List.mem_cons, ih, hsucc]
    constructor
    · rintro (hp | hp | ⟨q, hle, hq, hp⟩)
      · exact ⟨addr, Nat.le_refl _, hlt, .inl hp⟩
      · exact ⟨addr, Nat.le_refl _, hlt, .inr hp⟩
      · exact ⟨q, by omega, hq, hp⟩
    · rintro ⟨q, hle, hq, hp⟩
      by_cases e : q = addr
      · rw [e] at hp
        cases hp with
        | inl hp => exact .inl hp
        | inr hp => exact .inr (.inl hp)
      · have hqne : q.toNat ≠ addr.toNat := fun he => e (BitVec.eq_of_toNat_eq he)
        exact .inr (.inr ⟨q, by omega, hq, hp⟩)

theorem mem_fillUpAccesses {endAddress : BitVec 62} {p : BitVec 62} (addr : BitVec 62)
    (h : addr.toNat ≤ endAddress.toNat) :
    p ∈ fillUpAccesses endAddress addr ↔ addr.toNat ≤ p.toNat ∧ p.toNat < endAddress.toNat := by
  refine pointer_induction (P := fun addr => p ∈ fillUpAccesses endAddress addr ↔
      addr.toNat ≤ p.toNat ∧ p.toNat < endAddress.toNat)
    ?_ (fun addr hne hlt hsucc ih => ?_) addr h
  · rw [fillUpAccesses, if_pos rfl]
    simp only [List.not_mem_nil, false_iff]
    omega
  · rw [fillUpAccesses, if_neg hne, List.mem_cons, ih, hsucc]
    by_cases e : p = addr
    · subst e
      exact ⟨fun _ => by omega, fun _ => .inl rfl⟩
    · have hpne : p.toNat ≠ addr.toNat := fun he => e (BitVec.eq_of_toNat_eq he)
      constructor
      · rintro (hp | hp)
        · exact absurd hp e
        · omega
      · intro hp
        exact .inr (by omega)

/-! ## A text row and the screen -/

section
variable (s : TextDisplaySettings)

/-- `incrementation` -/
def scrollRow : BitVec 62 := (s.defaultGPU.PixelsPerScanLine * 8#32 * s.scale.setWidth 32).setWidth 62

/-- `VerticalResolution * HorizontalResolution` -/
def scrollScreen : BitVec 62 := (s.defaultGPU.VerticalResolution * s.defaultGPU.HorizontalResolution).setWidth 62

/-- The pixels `ScrollUp` reads and writes, in order. -/
def scrollAccesses : List (BitVec 62) :=
  copyUpAccesses (scrollRow s) (scrollScreen s - scrollRow s) 0#62 ++
    fillUpAccesses (scrollScreen s) (scrollScreen s - scrollRow s)

end

theorem ScrollUp_fb (d : Display) :
    (ScrollUp d).fb = fillUp d.settings.backgroundColor (scrollScreen d.settings)
      (scrollScreen d.settings - scrollRow d.settings)
      (copyUp (scrollRow d.settings) (scrollScreen d.settings - scrollRow d.settings) 0#62 d.fb) := rfl

/-- A screen that fits 32-bit offsets and holds a text cell. -/
structure ScrollGeometry (gpu : EFI_GRAPHICS_OUTPUT_PROTOCOL_MODE) (scale : UINT8) : Prop where
  porch : gpu.HorizontalResolution.toNat ≤ gpu.PixelsPerScanLine.toNat
  width : 8 * scale.toNat ≤ gpu.HorizontalResolution.toNat
  height : 8 * scale.toNat ≤ gpu.VerticalResolution.toNat
  fits : 4 * gpu.PixelsPerScanLine.toNat * gpu.VerticalResolution.toNat ≤ 2 ^ 32

section
variable {gpu : EFI_GRAPHICS_OUTPUT_PROTOCOL_MODE} {scale : UINT8}

theorem ScrollGeometry.pixels (hg : ScrollGeometry gpu scale) :
    gpu.PixelsPerScanLine.toNat * gpu.VerticalResolution.toNat ≤ 2 ^ 30 := by
  have := hg.fits
  rw [Nat.mul_assoc] at this
  omega

end

section
variable {gpu : EFI_GRAPHICS_OUTPUT_PROTOCOL_MODE} {scale : UINT8} {d : Display}

theorem scrollRow_toNat {s : TextDisplaySettings} (hg : ScrollGeometry s.defaultGPU s.scale) :
    (scrollRow s).toNat = s.defaultGPU.PixelsPerScanLine.toNat * (8 * s.scale.toNat) := by
  have hpix := hg.pixels
  have hrow : s.defaultGPU.PixelsPerScanLine.toNat * (8 * s.scale.toNat) ≤
      s.defaultGPU.PixelsPerScanLine.toNat * s.defaultGPU.VerticalResolution.toNat :=
    Nat.mul_le_mul_left _ hg.height
  have hscale := s.scale.isLt
  rw [scrollRow, BitVec.toNat_setWidth, BitVec.toNat_mul, BitVec.toNat_mul, BitVec.toNat_setWidth,
    BitVec.toNat_ofNat, Nat.mod_mul_mod, Nat.mul_assoc, show 8 % 2 ^ 32 = 8 from rfl,
    Nat.mod_eq_of_lt (a := s.scale.toNat) (by omega)]
  rw [Nat.mod_eq_of_lt (a := _ * _) (b := 2 ^ 32) (by omega), Nat.mod_eq_of_lt (by omega)]

theorem scrollScreen_toNat {s : TextDisplaySettings} (hg : ScrollGeometry s.defaultGPU s.scale) :
    (scrollScreen s).toNat =
      s.defaultGPU.HorizontalResolution.toNat * s.defaultGPU.VerticalResolution.toNat := by
  have hpix := hg.pixels
  have hle := Nat.mul_le_mul_right s.defaultGPU.VerticalResolution.toNat hg.porch
  rw [scrollScreen, BitVec.toNat_setWidth, BitVec.toNat_mul, Nat.mul_comm, Nat.mod_eq_of_lt (b := 2 ^ 32) (by omega)]
  exact Nat.mod_eq_of_lt (by omega)

/-- The block that is kept. -/
theorem scrollKept_toNat {s : TextDisplaySettings} (hle : (scrollRow s).toNat ≤ (scrollScreen s).toNat) :
    (scrollScreen s - scrollRow s).toNat = (scrollScreen s).toNat - (scrollRow s).toNat := by
  have := (scrollScreen s).isLt
  rw [BitVec.toNat_sub]
  omega

/-- **What `ScrollUp` leaves at a pixel**, while a text row fits the screen. -/
theorem ScrollUp_at (hpos : 0 < (scrollRow d.settings).toNat)
    (hle : (scrollRow d.settings).toNat ≤ (scrollScreen d.settings).toNat) (p : BitVec 62) :
    (ScrollUp d).fb p =
      if p.toNat < (scrollScreen d.settings).toNat - (scrollRow d.settings).toNat then
        d.fb (p + scrollRow d.settings)
      else if p.toNat < (scrollScreen d.settings).toNat then d.settings.backgroundColor
      else d.fb p := by
  have hkept := scrollKept_toNat hle
  have hlt := (scrollScreen d.settings).isLt
  rw [ScrollUp_fb, fillUp_apply _ _ (by omega), copyUp_apply hpos (by omega) _ _ (by simp), hkept]
  by_cases hin : p.toNat < (scrollScreen d.settings).toNat - (scrollRow d.settings).toNat
  · rw [if_neg (by omega), if_pos ⟨by simp, hin⟩, if_pos hin]
  · rw [if_neg hin]
    by_cases hscreen : p.toNat < (scrollScreen d.settings).toNat
    · rw [if_pos ⟨by omega, hscreen⟩, if_pos hscreen]
    · rw [if_neg (by omega), if_neg (by omega), if_neg hscreen]

/-! ## The visible screen -/

/-- **Without a back porch `ScrollUp` moves the screen up by a text row.** -/
theorem ScrollUp_pixel_of_no_porch
    (hg : ScrollGeometry d.settings.defaultGPU d.settings.scale)
    (hp : d.settings.defaultGPU.PixelsPerScanLine = d.settings.defaultGPU.HorizontalResolution)
    (hscale : 0 < d.settings.scale.toNat) {x y : Nat}
    (hx : x < d.settings.defaultGPU.HorizontalResolution.toNat)
    (hy : y < d.settings.defaultGPU.VerticalResolution.toNat) :
    (ScrollUp d).fb (pixel d.settings.defaultGPU x y) =
      if y + 8 * d.settings.scale.toNat < d.settings.defaultGPU.VerticalResolution.toNat then
        d.fb (pixel d.settings.defaultGPU x (y + 8 * d.settings.scale.toNat))
      else d.settings.backgroundColor := by
  have hrow := scrollRow_toNat hg
  have hscreen := scrollScreen_toNat hg
  have hpix := pixel_toNat hg.porch hg.fits hx hy
  have hbelow := fun h => pixel_toNat (y := y + 8 * d.settings.scale.toNat) hg.porch hg.fits hx h
  have hheight := hg.height
  have hsize := hg.pixels
  rw [hp] at hrow hpix hbelow hsize
  generalize d.settings.defaultGPU.HorizontalResolution.toNat = H at *
  generalize d.settings.defaultGPU.VerticalResolution.toNat = V at *
  generalize hn : d.settings.scale.toNat = n at *
  have hrow8 : 0 < H * (8 * n) := Nat.mul_pos (by omega) (by omega)
  have hrowle : H * (8 * n) ≤ H * V := Nat.mul_le_mul_left H hheight
  have hkept : H * V - H * (8 * n) = H * (V - 8 * n) := (Nat.mul_sub H V (8 * n)).symm
  rw [ScrollUp_at (by omega) (by omega), hpix, hscreen, hrow, hkept]
  by_cases hin : y + 8 * n < V
  · have hlow : H * (y + 1) ≤ H * (V - 8 * n) := Nat.mul_le_mul_left H (by omega)
    rw [Nat.mul_add, Nat.mul_one] at hlow
    rw [if_pos (by omega), if_pos hin]
    -- one text row further down
    congr 1
    apply BitVec.eq_of_toNat_eq
    have hline : H * (y + 8 * n + 1) ≤ H * V := Nat.mul_le_mul_left H hin
    rw [Nat.mul_add, Nat.mul_one, Nat.mul_add] at hline
    rw [BitVec.toNat_add, hpix, hrow, hbelow hin, Nat.mul_add]
    omega
  · have hhigh : H * (V - 8 * n) ≤ H * y := Nat.mul_le_mul_left H (by omega)
    have hline : H * (y + 1) ≤ H * V := Nat.mul_le_mul_left H hy
    rw [Nat.mul_add, Nat.mul_one] at hline
    rw [if_neg (by omega), if_pos (by omega), if_neg hin]

end

/-! ## In which geometries it scrolls -/

/-- `ScrollUp` touches only the framebuffer and moves the visible screen up by
a text row, whatever it holds. -/
structure ScrollsScreen (s : TextDisplaySettings) : Prop where
  inside : ∀ p ∈ scrollAccesses s,
    p.toNat < s.defaultGPU.PixelsPerScanLine.toNat * s.defaultGPU.VerticalResolution.toNat
  visible : ∀ (fb : Framebuffer) (x y : Nat), x < s.defaultGPU.HorizontalResolution.toNat →
    y < s.defaultGPU.VerticalResolution.toNat →
    (ScrollUp ⟨s, fb⟩).fb (pixel s.defaultGPU x y) =
      if y + 8 * s.scale.toNat < s.defaultGPU.VerticalResolution.toNat then
        fb (pixel s.defaultGPU x (y + 8 * s.scale.toNat))
      else s.backgroundColor

section
variable {s : TextDisplaySettings}

/-- While a text row fits the screen `ScrollUp` computes, it stays inside it. -/
theorem scrollAccesses_lt (hle : (scrollRow s).toNat ≤ (scrollScreen s).toNat) {p : BitVec 62}
    (h : p ∈ scrollAccesses s) : p.toNat < (scrollScreen s).toNat := by
  have hkept := scrollKept_toNat hle
  have hlt := (scrollScreen s).isLt
  cases List.mem_append.mp h with
  | inl h =>
    obtain ⟨q, -, hq, hp⟩ := (mem_copyUpAccesses 0#62 (by simp)).mp h
    cases hp with
    | inl hp => rw [hp, BitVec.toNat_add]; omega
    | inr hp => rw [hp]; omega
  | inr h => exact ((mem_fillUpAccesses _ (by omega)).mp h).2

theorem scrollsScreen_of_scale_zero (hg : ScrollGeometry s.defaultGPU s.scale) (hscale : s.scale.toNat = 0) :
    ScrollsScreen s := by
  have hrow := scrollRow_toNat hg
  have hscreen := scrollScreen_toNat hg
  rw [hscale] at hrow
  have hzero : scrollRow s = 0#62 := BitVec.eq_of_toNat_eq (by simpa using hrow)
  refine ⟨fun p hp => ?_, fun fb x y hx hy => ?_⟩
  · have hlt := scrollAccesses_lt (by omega) hp
    have hwidth := Nat.mul_le_mul_right s.defaultGPU.VerticalResolution.toNat hg.porch
    omega
  · rw [ScrollUp_fb]
    simp only [hzero, BitVec.sub_zero, hscale]
    rw [copyUp_zero _ _ (by simp), fillUp_apply _ _ (Nat.le_refl _), if_neg (by omega), if_pos (by omega)]
    rfl

theorem scrollsScreen_of_no_porch (hg : ScrollGeometry s.defaultGPU s.scale) (hscale : 0 < s.scale.toNat)
    (hp : s.defaultGPU.PixelsPerScanLine = s.defaultGPU.HorizontalResolution) : ScrollsScreen s := by
  have hrow := scrollRow_toNat hg
  have hscreen := scrollScreen_toNat hg
  have hrowle := Nat.mul_le_mul_left s.defaultGPU.PixelsPerScanLine.toNat hg.height
  refine ⟨fun p h => ?_, fun fb x y hx hy => ?_⟩
  · have hlt := scrollAccesses_lt (by rw [hrow, hscreen, ← hp]; exact hrowle) h
    rwa [hscreen, ← hp] at hlt
  · exact ScrollUp_pixel_of_no_porch (d := ⟨s, fb⟩) hg hp hscale hx hy

/-- If a text row were larger than the screen, the copy's end would lie before
its start, and the copy would run out of the framebuffer. -/
theorem scrollRow_le_of_scrollsScreen (hg : ScrollGeometry s.defaultGPU s.scale)
    (h : ScrollsScreen s) : (scrollRow s).toNat ≤ (scrollScreen s).toNat := by
  by_contra hfit
  have hrow := scrollRow_toNat hg
  have hsize := hg.pixels
  have hrowlt := (scrollRow s).isLt
  have hend : (scrollScreen s - scrollRow s).toNat = 2 ^ 62 - ((scrollRow s).toNat - (scrollScreen s).toNat) := by
    rw [BitVec.toNat_sub]
    omega
  have hrowle := Nat.mul_le_mul_left s.defaultGPU.PixelsPerScanLine.toNat hg.height
  have hpast := h.inside
    (BitVec.ofNat 62 (s.defaultGPU.PixelsPerScanLine.toNat * s.defaultGPU.VerticalResolution.toNat))
    (List.mem_append_left _ ((mem_copyUpAccesses 0#62 (by simp)).mpr ⟨_, by simp, ?_, .inr rfl⟩))
  · rw [BitVec.toNat_ofNat] at hpast
    omega
  · rw [BitVec.toNat_ofNat, hend]
    omega

/-- Behind the copied part a place in the background colour keeps it. -/
theorem ScrollUp_background (hpos : 0 < (scrollRow d.settings).toNat)
    (hle : (scrollRow d.settings).toNat ≤ (scrollScreen d.settings).toNat) {p : BitVec 62}
    (hstays : ¬ p.toNat < (scrollScreen d.settings).toNat - (scrollRow d.settings).toNat)
    (hold : d.fb p = d.settings.backgroundColor) : (ScrollUp d).fb p = d.settings.backgroundColor := by
  rw [ScrollUp_at hpos hle, if_neg hstays, hold, ite_self]

/-- With a back porch the place that should show the screen's last pixel is
not reached by the copy. -/
theorem not_scrollsScreen_of_porch (hg : ScrollGeometry s.defaultGPU s.scale) (hscale : 0 < s.scale.toNat)
    (hp : s.defaultGPU.HorizontalResolution.toNat < s.defaultGPU.PixelsPerScanLine.toNat) :
    ¬ ScrollsScreen s := by
  intro h
  have hfit := scrollRow_le_of_scrollsScreen hg h
  have hrow := scrollRow_toNat hg
  have hscreen := scrollScreen_toNat hg
  have hheight := hg.height
  have hwidth := hg.width
  have hpix := fun (x y : Nat) => pixel_toNat (x := x) (y := y) hg.porch hg.fits
  generalize hP : s.defaultGPU.PixelsPerScanLine.toNat = P at *
  generalize hH : s.defaultGPU.HorizontalResolution.toNat = H at *
  generalize hV : s.defaultGPU.VerticalResolution.toNat = V at *
  generalize hn : s.scale.toNat = n at *
  have hV2 : 2 * (P - H) ≤ (P - H) * V := by
    rw [Nat.mul_comm]
    exact Nat.mul_le_mul_left _ (by omega)
  have hPV : H * V + (P - H) * V = P * V := by
    rw [← Nat.add_mul]
    exact congrArg (· * V) (by omega)
  have hVn : 8 * n < V := by
    by_contra hge
    obtain rfl : V = 8 * n := by omega
    omega
  obtain ⟨y, hy⟩ : ∃ y, V = y + 8 * n + 1 := ⟨V - 8 * n - 1, by omega⟩
  have hrow0 : 0 < P * (8 * n) := Nat.mul_pos (by omega) (by omega)
  have hPy : P * y + P * (8 * n) + P = P * V := by rw [hy, Nat.mul_add, Nat.mul_add, Nat.mul_one]
  have hfrom := hpix (H - 1) y (by omega) (by omega)
  have hlast := hpix (H - 1) (y + 8 * n) (by omega) (by omega)
  -- the picture holds another colour in its last place only
  let fb : Framebuffer :=
    Function.update (fun _ => s.backgroundColor) (pixel s.defaultGPU (H - 1) (y + 8 * n)) (s.backgroundColor + 1#32)
  have hne : pixel s.defaultGPU (H - 1) y ≠ pixel s.defaultGPU (H - 1) (y + 8 * n) := fun e => by
    rw [← BitVec.toNat_inj, hfrom, hlast, Nat.mul_add] at e
    omega
  have hstays : ¬ (pixel s.defaultGPU (H - 1) y).toNat < (scrollScreen s).toNat - (scrollRow s).toNat := by
    rw [hfrom, hscreen, hrow]
    omega
  have hold : fb (pixel s.defaultGPU (H - 1) y) = s.backgroundColor := Function.update_of_ne hne _ _
  have hscroll : (ScrollUp ⟨s, fb⟩).fb (pixel s.defaultGPU (H - 1) y) = s.backgroundColor :=
    ScrollUp_background (d := ⟨s, fb⟩) (by rw [hrow]; exact hrow0) hfit hstays hold
  have hvisible := h.visible fb (H - 1) y (by omega) (by omega)
  have hnew : fb (pixel s.defaultGPU (H - 1) (y + 8 * n)) = s.backgroundColor + 1#32 := Function.update_self _ _ _
  rw [hn, if_pos (by omega), hscroll, hnew] at hvisible
  have hcolor : s.backgroundColor ≠ s.backgroundColor + 1#32 := by bv_omega
  exact hcolor hvisible

/-- **`ScrollUp` scrolls exactly the screens without a back porch** (and, at
scale 0, where there is nothing to move, every screen). -/
theorem ScrollUp_scrolls_iff (s : TextDisplaySettings) (hg : ScrollGeometry s.defaultGPU s.scale) :
    ScrollsScreen s ↔
      s.defaultGPU.PixelsPerScanLine = s.defaultGPU.HorizontalResolution ∨ s.scale = 0#8 := by
  have hscale0 : s.scale.toNat = 0 ↔ s.scale = 0#8 := by rw [← BitVec.toNat_inj]; rfl
  by_cases hscale : s.scale.toNat = 0
  · exact iff_of_true (scrollsScreen_of_scale_zero hg hscale) (.inr (hscale0.mp hscale))
  · constructor
    · intro h
      left
      apply BitVec.eq_of_toNat_eq
      refine Nat.le_antisymm ?_ hg.porch
      exact Nat.le_of_not_lt fun hp => not_scrollsScreen_of_porch hg (by omega) hp h
    · rintro (hp | h0)
      · exact scrollsScreen_of_no_porch hg (by omega) hp
      · exact absurd (hscale0.mpr h0) hscale

/-- A 1920x1080 screen without a back porch. -/
def panel1920 : TextDisplaySettings := ⟨⟨1920, 1920, 1080⟩, 0, 0, 0, 4, 0⟩

theorem ScrollUp_scrolls_1920 : ScrollsScreen panel1920 :=
  (ScrollUp_scrolls_iff panel1920 ⟨by decide, by decide, by decide, by decide⟩).mpr (.inl rfl)

/-- A 1366x768 screen in scan lines of 1376 pixels. -/
theorem ScrollUp_tears_1376 : ¬ ScrollsScreen ⟨⟨1376, 1366, 768⟩, 0, 0, 0, 2, 0⟩ :=
  not_scrollsScreen_of_porch ⟨by decide, by decide, by decide, by decide⟩ (by decide) (by decide)

end

end PiousOS.Kernel
