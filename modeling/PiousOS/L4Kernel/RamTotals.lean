import Mathlib.Algebra.BigOperators.Group.List.Basic
import Mathlib.Algebra.Order.Group.Nat
import PiousOS.L4Kernel.MaxAddress
import PiousOS.L4Kernel.ScreenMemory

/-!
# The RAM totals (`src/kernel/memory.c`)

`GetTotalSystemRam` and `GetUsableSystemRam` add up the map and print a line
for each descriptor they count. The sums are taken in 64-bit words, and the
printing stores to the memory the map is in.

Results:
* `bytesOf_toNat`: while the exact total is below 2^64 no sum wraps.
* `GetTotalSystemRam_exact`, `GetUsableSystemRam_exact`: what the two queries
  answer and print.
* `countLoop_answers`: with the lines printed in memory the loop counts the
  same, and leaves the map, its settings and all else that is not framebuffer
  as it was.
* `ram_totals_exact`: both queries, for every map.
-/
namespace PiousOS.Kernel
open ByteMem Strided

/-! ## Exact totals -/

/-- The bytes of a map, in exact integers. -/
def exactBytes (map : List Descriptor) : Nat := (map.map fun d => d.NumberOfPages.toNat * 4096).sum

/-- The four types the usable total leaves out. -/
def Excluded (EfiMaxMemoryType : UINT32) (d : Descriptor) : Bool :=
  d.type = EfiMemoryMappedIO ∨ d.type = EfiMemoryMappedIOPortSpace ∨ d.type = EfiPalCode ∨
    d.type = EfiMaxMemoryType

theorem exactBytes_perm {map map' : List Descriptor} (h : map.Perm map') : exactBytes map = exactBytes map' :=
  (h.map _).sum_eq

theorem exactBytes_filter (p : Descriptor → Bool) (map : List Descriptor) :
    exactBytes (map.filter p) + exactBytes (map.filter fun d => !p d) = exactBytes map := by
  rw [← exactBytes_perm (List.filter_append_perm p map), exactBytes, exactBytes, exactBytes, List.map_append,
    List.sum_append]

section
variable {mem : ByteMem} {l : List UINT64}

/-- The bytes of one descriptor, in the word they are added as. -/
theorem shiftedPages_toNat {pages : UINT64} (h : pages.toNat * 4096 < 2 ^ 64) :
    (pages <<< EFI_PAGE_SHIFT).toNat = pages.toNat * 4096 := by
  have hpow : (2 : Nat) ^ EFI_PAGE_SHIFT = 4096 := rfl
  rw [BitVec.toNat_shiftLeft, Nat.shiftLeft_eq, hpow]
  omega

theorem exactBytes_cons (d : Descriptor) (map : List Descriptor) :
    exactBytes (d :: map) = d.NumberOfPages.toNat * 4096 + exactBytes map := by
  rw [exactBytes, List.map_cons, List.sum_cons, exactBytes]

theorem bytesOf_cons (mem : ByteMem) (p : UINT64) (l : List UINT64) :
    bytesOf mem (p :: l) = NumberOfPages mem p <<< EFI_PAGE_SHIFT + bytesOf mem l := by
  rw [bytesOf, List.map_cons, List.sum_cons, bytesOf]

/-- Below 2^64 no sum wraps. -/
theorem bytesOf_toNat (h : exactBytes (l.map (descriptorAt mem)) < 2 ^ 64) :
    (bytesOf mem l).toNat = exactBytes (l.map (descriptorAt mem)) := by
  induction l with
  | nil => rfl
  | cons p l ih =>
    have hfield : (descriptorAt mem p).NumberOfPages = NumberOfPages mem p := rfl
    rw [List.map_cons, exactBytes_cons, hfield] at h ⊢
    have hrest := ih (Nat.lt_of_le_of_lt (Nat.le_add_left _ _) h)
    have hfirst := shiftedPages_toNat (Nat.lt_of_le_of_lt (Nat.le_add_right _ _) h)
    rw [bytesOf_cons, BitVec.toNat_add, hrest, hfirst]
    omega

/-- The test of the usable total. -/
theorem not_excluded_iff {EfiMaxMemoryType : UINT32} {p : UINT64} :
    ¬ Excluded EfiMaxMemoryType (descriptorAt mem p) = true ↔ pieceType mem p ≠ EfiMemoryMappedIO ∧
      pieceType mem p ≠ EfiMemoryMappedIOPortSpace ∧ pieceType mem p ≠ EfiPalCode ∧
      pieceType mem p ≠ EfiMaxMemoryType := by
  have htype : (descriptorAt mem p).type = pieceType mem p := rfl
  rw [Excluded, decide_eq_true_eq, htype, not_or, not_or, not_or]

/-- The usable total is that of the descriptors it counts. -/
theorem foldl_usablePiece (EfiMaxMemoryType : UINT32) (c : RamCount) :
    l.foldl (fun c p => usablePiece EfiMaxMemoryType mem p c) c =
      (l.filter fun p => !Excluded EfiMaxMemoryType (descriptorAt mem p)).foldl
        (fun c p => countPiece mem p c) c := by
  induction l generalizing c with
  | nil => rw [List.filter_nil, List.foldl_nil, List.foldl_nil]
  | cons p l ih =>
    rw [List.foldl_cons, ih, List.filter_cons]
    by_cases hex : Excluded EfiMaxMemoryType (descriptorAt mem p) = true
    · have hskip : usablePiece EfiMaxMemoryType mem p c = c := if_neg fun h => not_excluded_iff.mpr h hex
      have hdrop : ¬ (!Excluded EfiMaxMemoryType (descriptorAt mem p)) = true := by
        rw [hex]
        decide
      rw [hskip, if_neg hdrop]
    · have hcount : usablePiece EfiMaxMemoryType mem p c = countPiece mem p c :=
        if_pos (not_excluded_iff.mp hex)
      have hkeep : (!Excluded EfiMaxMemoryType (descriptorAt mem p)) = true := by
        rw [Bool.not_eq_true']
        exact Bool.eq_false_iff.mpr hex
      rw [hcount, if_pos hkeep, List.foldl_cons]

end

/-! ## What the two queries answer -/

section
variable {mem : ByteMem} {s : MemorySettings} {n fuel : Nat}

/-- The elements the map is read from. -/
def elements (s : MemorySettings) (n : Nat) : List UINT64 :=
  (List.range n).map (element s.memMap s.memMapDescriptorSize)

theorem elements_map : (elements s n).map (descriptorAt mem) = mapAt mem s n := by
  rw [elements, List.map_map, mapAt]
  rfl

/-- The elements a query counts, read. -/
theorem elements_filter_map (counts : Descriptor → Bool) :
    ((elements s n).filter fun p => counts (descriptorAt mem p)).map (descriptorAt mem) =
      (mapAt mem s n).filter counts := by
  rw [← elements_map, List.filter_map]
  rfl

theorem exactBytes_filter_le (counts : Descriptor → Bool) (map : List Descriptor) :
    exactBytes (map.filter counts) ≤ exactBytes map := by
  rw [← exactBytes_filter counts map]
  exact Nat.le_add_right _ _

theorem GetTotalSystemRam_exact (h : Describes s n) (hf : n < fuel)
    (htotal : exactBytes (mapAt mem s n) < 2 ^ 64) :
    ∃ r, GetTotalSystemRam mem s fuel = some r ∧ r.total.toNat = exactBytes (mapAt mem s n) ∧
      r.printed = (mapAt mem s n).map (·.NumberOfPages) := by
  rw [← elements_map] at htotal ⊢
  refine ⟨⟨bytesOf mem (elements s n), (elements s n).map (NumberOfPages mem)⟩, ?_, bytesOf_toNat htotal, ?_⟩
  · rw [GetTotalSystemRam_eq, visited_array h hf, ← elements, Option.map_some]
  · rw [List.map_map]
    rfl

/-- The count of a list of descriptors, from nothing. -/
theorem counted_eq (l : List UINT64) :
    l.foldl (fun c p => countPiece mem p c) ⟨0, []⟩ = ⟨bytesOf mem l, l.map (NumberOfPages mem)⟩ := by
  have hzero : (0 : UINT64) + bytesOf mem l = bytesOf mem l := BitVec.zero_add _
  rw [foldl_countPiece, List.nil_append, hzero]

theorem GetUsableSystemRam_exact (EfiMaxMemoryType : UINT32) (h : Describes s n) (hf : n < fuel)
    (htotal : exactBytes (mapAt mem s n) < 2 ^ 64) :
    ∃ r, GetUsableSystemRam EfiMaxMemoryType mem s fuel = some r ∧
      r.total.toNat = exactBytes ((mapAt mem s n).filter fun d => !Excluded EfiMaxMemoryType d) ∧
      r.printed =
        ((mapAt mem s n).filter fun d => !Excluded EfiMaxMemoryType d).map (·.NumberOfPages) := by
  have hle := exactBytes_filter_le (fun d => !Excluded EfiMaxMemoryType d) (mapAt mem s n)
  rw [← elements_filter_map] at hle ⊢
  let counted := (elements s n).filter fun p => !Excluded EfiMaxMemoryType (descriptorAt mem p)
  refine ⟨⟨bytesOf mem counted, counted.map (NumberOfPages mem)⟩, ?_,
    bytesOf_toNat (Nat.lt_of_le_of_lt hle htotal), ?_⟩
  · rw [GetUsableSystemRam, forPiece_eq, visited_array h hf, ← elements, Option.map_some, foldl_usablePiece,
      counted_eq]
  · rw [List.map_map]
    rfl

end

/-! ## The settings in memory -/

inductive MemorySettingsField where
  | memMapSize | memMapDescriptorSize | memMap | memMapDescriptorVersion
  deriving DecidableEq, Repr

/-- mirrors inc/kernel/memory.h:7-13 -/
def MEMORY_SETTINGS : List (MemorySettingsField × Nat) :=
  [(.memMapSize, 8), (.memMapDescriptorSize, 8), (.memMap, 8), (.memMapDescriptorVersion, 4)]

/-- `mainMemorySettings`, read at its address. -/
def settingsAt (mem : ByteMem) (a : UINT64) : MemorySettings where
  memMapSize := BitVec.ofNat 64 (loadField mem MEMORY_SETTINGS a .memMapSize)
  memMapDescriptorSize := BitVec.ofNat 64 (loadField mem MEMORY_SETTINGS a .memMapDescriptorSize)
  memMap := BitVec.ofNat 64 (loadField mem MEMORY_SETTINGS a .memMap)
  memMapDescriptorVersion := BitVec.ofNat 32 (loadField mem MEMORY_SETTINGS a .memMapDescriptorVersion)

/-- The stores of `InitializeMemory`. -/
def recordSettings (mem : ByteMem) (a : UINT64) (s : MemorySettings) : ByteMem :=
  storeFields mem MEMORY_SETTINGS a
    [(.memMap, s.memMap.toNat), (.memMapDescriptorVersion, s.memMapDescriptorVersion.toNat),
      (.memMapDescriptorSize, s.memMapDescriptorSize.toNat), (.memMapSize, s.memMapSize.toNat)]

theorem settingsAt_recordSettings (mem : ByteMem) (a : UINT64) (s : MemorySettings) :
    settingsAt (recordSettings mem a s) a = s := by
  have hsize : structSize MEMORY_SETTINGS ≤ 2 ^ 64 := by decide
  have hversion : BitVec.ofNat 32 (loadField (recordSettings mem a s) MEMORY_SETTINGS a
      .memMapDescriptorVersion) = s.memMapDescriptorVersion := by
    rw [recordSettings, loadField_storeFields hsize]
    apply BitVec.eq_of_toNat_eq
    have := s.memMapDescriptorVersion.isLt
    rw [BitVec.toNat_ofNat]
    show s.memMapDescriptorVersion.toNat % 256 ^ 4 % 2 ^ 32 = s.memMapDescriptorVersion.toNat
    omega
  rw [settingsAt, hversion, recordSettings, loadField_storeFields_word hsize rfl rfl,
    loadField_storeFields_word hsize rfl rfl, loadField_storeFields_word hsize rfl rfl]

/-! ## The loops, printing in memory -/

/-- `"Pages found: %d\n"` -/
def pagesFoundText : List Char :=
  ['P', 'a', 'g', 'e', 's', ' ', 'f', 'o', 'u', 'n', 'd', ':', ' ', '%', 'd', '\n']

/-- The line printed for a descriptor, in the display's colours. -/
def pagesFound (undefined : FloatValue → UINT64) (display : TextDisplaySettings) (pages : UINT64) :
    PrintCall where
  fmt := formatOf pagesFoundText
  args _ := pages
  foregroundColor := display.fontColor
  backgroundColor := display.backgroundColor
  undefined := undefined

/-- What printing depends on besides the screen: the font, where the
framebuffer is, undefined conversions, and the fuel of `PrintString`. -/
structure Printer where
  behind : UINT8 → Nat → UINT8
  FrameBufferBase : UINT64
  undefined : FloatValue → UINT64
  fuel : Nat

def Printer.line (p : Printer) (k : Screen) (pages : UINT64) : Option Screen :=
  printInMemory p.behind p.FrameBufferBase p.fuel (pagesFound p.undefined k.display pages) k

/-- One line after the other. -/
def Printer.lines (p : Printer) (pages : List UINT64) (k : Screen) : Option Screen := pages.foldlM p.line k

structure QueryState where
  screen : Screen
  total : UINT64

/-- The body of the loops. The descriptor is read again after the line is
printed. -/
def countOnScreen (p : Printer) (counts : Descriptor → Bool) (Piece : UINT64) (q : QueryState) :
    Option QueryState :=
  if counts (descriptorAt q.screen.mem Piece) then
    (p.line q.screen (NumberOfPages q.screen.mem Piece)).map fun screen =>
      ⟨screen, q.total + NumberOfPages screen.mem Piece <<< EFI_PAGE_SHIFT⟩
  else some q

/-- The loop, which reads the settings at `a` again in each iteration. -/
def countLoop (p : Printer) (a : UINT64) (counts : Descriptor → Bool) :
    Nat → UINT64 → QueryState → Option QueryState
  | 0, _, _ => none
  | fuel + 1, Piece, q =>
    let s := settingsAt q.screen.mem a
    if Piece < s.memMap + s.memMapSize then
      (countOnScreen p counts Piece q).bind fun q =>
        countLoop p a counts fuel (Piece + (settingsAt q.screen.mem a).memMapDescriptorSize) q
    else some q

/-- mirrors src/kernel/memory.c:94-106 -/
def GetTotalSystemRamOnScreen (p : Printer) (a : UINT64) (fuel : Nat) (k : Screen) : Option QueryState :=
  countLoop p a (fun _ => true) fuel (settingsAt k.mem a).memMap ⟨k, 0⟩

/-- mirrors src/kernel/memory.c:73-92 -/
def GetUsableSystemRamOnScreen (EfiMaxMemoryType : UINT32) (p : Printer) (a : UINT64) (fuel : Nat)
    (k : Screen) : Option QueryState :=
  countLoop p a (fun d => !Excluded EfiMaxMemoryType d) fuel (settingsAt k.mem a).memMap ⟨k, 0⟩

/-! ## What a line does -/

section
variable {gpu : EFI_GRAPHICS_OUTPUT_PROTOCOL_MODE} {n : Nat} {p : Printer} {mem mem' : ByteMem}

theorem pagesFoundText_ends : EndsAt (formatOf pagesFoundText) 0 15 := by
  refine ⟨by decide, fun j _ hj => ?_⟩
  have hall : ∀ j < 15, formatOf pagesFoundText (position (formatOf pagesFoundText) j) ≠ 0#8 := by decide
  exact hall j hj

theorem pagesFoundText_noFloat {j : Nat} (hj : j < 15) :
    floatAt (formatOf pagesFoundText) (position (formatOf pagesFoundText) j) = none := by
  have hall : ∀ j < 15, floatAt (formatOf pagesFoundText) (position (formatOf pagesFoundText) j) = none := by
    decide
  exact hall j hj

/-- Every line is printed. -/
theorem line_isSome (hfuel : 2114 < p.fuel) (k : Screen) (pages : UINT64) : (p.line k pages).isSome := by
  have hscan : (scanLoop (formatOf pagesFoundText) p.fuel {}).isSome := by
    obtain ⟨rest, hrest⟩ : ∃ rest, p.fuel = 15 + (rest + 1) := ⟨p.fuel - 16, by omega⟩
    rw [hrest, scanLoop_scanned fun j hj => pagesFoundText_ends.before j (Nat.zero_le j) hj, scanLoop,
      scanned_eq, if_pos pagesFoundText_ends.nul]
    rfl
  have hprint : (printLoop (pagesFound p.undefined k.display pages) p.fuel {}).isSome := by
    refine printLoop_isSome printedAt_zero (Nat.zero_le 15) pagesFoundText_ends (fun j _ hj c hc => ?_)
      (by omega)
    have hnone : floatAt (pagesFound p.undefined k.display pages).fmt
        (position (pagesFound p.undefined k.display pages).fmt j) = none := pagesFoundText_noFloat hj
    rw [hnone] at hc
    cases hc
  obtain ⟨s, hs⟩ := Option.isSome_iff_exists.mp hscan
  obtain ⟨o, ho⟩ := Option.isSome_iff_exists.mp hprint
  have hs' : scanLoop (pagesFound p.undefined k.display pages).fmt p.fuel {} = some s := hs
  rw [Printer.line, printInMemory, PrintString, hs', Option.bind_some, ho]
  rfl

/-- No byte outside the framebuffer differs. -/
def SameOutside (gpu : EFI_GRAPHICS_OUTPUT_PROTOCOL_MODE) (FrameBufferBase : UINT64) (mem mem' : ByteMem) :
    Prop :=
  ∀ x, ¬ InFramebuffer gpu FrameBufferBase x → mem' x = mem x

/-- The `size` bytes at `a` are outside the framebuffer. -/
def Clear (gpu : EFI_GRAPHICS_OUTPUT_PROTOCOL_MODE) (FrameBufferBase a : UINT64) (size : Nat) : Prop :=
  ∀ i < size, ¬ InFramebuffer gpu FrameBufferBase (a + BitVec.ofNat 64 i)

theorem SameOutside.field {F : Type} [DecidableEq F] {fields : List (F × Nat)} {f : F}
    {FrameBufferBase a : UINT64} (h : SameOutside gpu FrameBufferBase mem mem')
    (hclear : Clear gpu FrameBufferBase a (structSize fields)) :
    loadField mem' fields a f = loadField mem fields a f :=
  loadField_congr_at fun i hi => h _ (hclear i hi)

theorem SameOutside.descriptor {FrameBufferBase Piece : UINT64} (h : SameOutside gpu FrameBufferBase mem mem')
    (hclear : Clear gpu FrameBufferBase Piece 40) : descriptorAt mem' Piece = descriptorAt mem Piece := by
  have hfield (f : MemoryDescriptorField) :
      loadField mem' EFI_MEMORY_DESCRIPTOR Piece f = loadField mem EFI_MEMORY_DESCRIPTOR Piece f :=
    h.field hclear
  simp only [descriptorAt, pieceType, PhysicalStart, NumberOfPages, hfield]

theorem SameOutside.settings {FrameBufferBase a : UINT64} (h : SameOutside gpu FrameBufferBase mem mem')
    (hclear : Clear gpu FrameBufferBase a 28) : settingsAt mem' a = settingsAt mem a := by
  have hfield (f : MemorySettingsField) :
      loadField mem' MEMORY_SETTINGS a f = loadField mem MEMORY_SETTINGS a f :=
    h.field hclear
  simp only [settingsAt, hfield]

/-- A line is printed, and changes nothing but the framebuffer. -/
theorem line_spec (hfuel : 2114 < p.fuel) {k : Screen} (hready : ScreenReady gpu n k.display) (pages : UINT64) :
    ∃ k', p.line k pages = some k' ∧ ScreenReady gpu n k'.display ∧
      SameOutside gpu p.FrameBufferBase k.mem k'.mem := by
  obtain ⟨k', hk'⟩ := Option.isSome_iff_exists.mp (line_isSome hfuel k pages)
  obtain ⟨hready', houtside⟩ := printInMemory_outside hready hk'
  exact ⟨k', hk', hready', houtside⟩

/-! ## What the loops do -/

/-- From `q` to `q'` the descriptors at `l` have been counted. -/
structure Counted (p : Printer) (gpu : EFI_GRAPHICS_OUTPUT_PROTOCOL_MODE) (n : Nat) (mem : ByteMem)
    (l : List UINT64) (q q' : QueryState) : Prop where
  total : q'.total = q.total + bytesOf mem l
  lines : p.lines (l.map (NumberOfPages mem)) q.screen = some q'.screen
  outside : SameOutside gpu p.FrameBufferBase mem q'.screen.mem
  ready : ScreenReady gpu n q'.screen.display

theorem Counted.nil {q : QueryState} (hsame : SameOutside gpu p.FrameBufferBase mem q.screen.mem)
    (hready : ScreenReady gpu n q.screen.display) : Counted p gpu n mem [] q q :=
  ⟨(BitVec.add_zero q.total).symm, rfl, hsame, hready⟩

theorem bytesOf_append (mem : ByteMem) (l l' : List UINT64) :
    bytesOf mem (l ++ l') = bytesOf mem l + bytesOf mem l' := by
  rw [bytesOf, List.map_append, List.sum_append, bytesOf, bytesOf]

theorem Counted.append {l l' : List UINT64} {q q₁ q₂ : QueryState} (h : Counted p gpu n mem l q q₁)
    (h' : Counted p gpu n mem l' q₁ q₂) : Counted p gpu n mem (l ++ l') q q₂ := by
  refine ⟨?_, ?_, h'.outside, h'.ready⟩
  · rw [h'.total, h.total, bytesOf_append, BitVec.add_assoc]
  · have hfirst := h.lines
    have hrest := h'.lines
    rw [Printer.lines] at hfirst hrest ⊢
    rw [List.map_append, List.foldlM_append, hfirst]
    exact hrest

variable (counts : Descriptor → Bool) {a : UINT64}

/-- The body counts its descriptor, or leaves it out. -/
theorem countOnScreen_spec (hfuel : 2114 < p.fuel) {Piece : UINT64} {q : QueryState}
    (hsame : SameOutside gpu p.FrameBufferBase mem q.screen.mem) (hready : ScreenReady gpu n q.screen.display)
    (hclear : Clear gpu p.FrameBufferBase Piece 40) :
    ∃ q', countOnScreen p counts Piece q = some q' ∧
      Counted p gpu n mem ([Piece].filter fun x => counts (descriptorAt mem x)) q q' := by
  have hpages {mem' : ByteMem} (h : SameOutside gpu p.FrameBufferBase mem mem') :
      NumberOfPages mem' Piece = NumberOfPages mem Piece :=
    congrArg Descriptor.NumberOfPages (h.descriptor hclear)
  rw [countOnScreen, hsame.descriptor hclear, hpages hsame, List.filter_cons]
  by_cases hcounts : counts (descriptorAt mem Piece) = true
  · obtain ⟨k', hk', hready', houtside⟩ := line_spec hfuel hready (NumberOfPages mem Piece)
    have hsame' : SameOutside gpu p.FrameBufferBase mem k'.mem := fun x hx =>
      (houtside x hx).trans (hsame x hx)
    rw [if_pos hcounts, if_pos hcounts, hk', Option.map_some]
    refine ⟨_, rfl, ?_, ?_, hsame', hready'⟩
    · have hone : bytesOf mem [Piece] = NumberOfPages mem Piece <<< EFI_PAGE_SHIFT :=
        (bytesOf_cons mem Piece []).trans (BitVec.add_zero _)
      rw [List.filter_nil, hone, hpages hsame']
    · rw [List.filter_nil, List.map_cons, List.map_nil, Printer.lines, List.foldlM_cons, hk']
      rfl
  · rw [if_neg hcounts, if_neg hcounts, List.filter_nil]
    exact ⟨q, rfl, Counted.nil hsame hready⟩

/-- The loop counts what it visits: the map and the settings stay as they
were while the lines are printed. -/
theorem countLoop_spec (hfuel : 2114 < p.fuel) (ha : Clear gpu p.FrameBufferBase a 28) {fuel : Nat}
    {Piece : UINT64} {l : List UINT64} {q : QueryState}
    (hsame : SameOutside gpu p.FrameBufferBase mem q.screen.mem) (hready : ScreenReady gpu n q.screen.display)
    (hl : pieces ((settingsAt mem a).memMap + (settingsAt mem a).memMapSize)
      (settingsAt mem a).memMapDescriptorSize fuel Piece = some l)
    (hclear : ∀ x ∈ l, Clear gpu p.FrameBufferBase x 40) :
    ∃ q', countLoop p a counts fuel Piece q = some q' ∧
      Counted p gpu n mem (l.filter fun x => counts (descriptorAt mem x)) q q' := by
  induction fuel generalizing Piece l q with
  | zero => cases hl
  | succ fuel ih =>
    rw [pieces] at hl
    rw [countLoop, hsame.settings ha]
    by_cases hlt : Piece < (settingsAt mem a).memMap + (settingsAt mem a).memMapSize
    · rw [if_pos hlt, Option.map_eq_some_iff] at hl
      obtain ⟨l', hl', rfl⟩ := hl
      obtain ⟨q₁, hq₁, hcount⟩ := countOnScreen_spec counts hfuel hsame hready
        (hclear Piece List.mem_cons_self)
      rw [if_pos hlt, hq₁, Option.bind_some, hcount.outside.settings ha]
      obtain ⟨q', hq', hrest⟩ := ih hcount.outside hcount.ready hl' fun x hx =>
        hclear x (List.mem_cons_of_mem _ hx)
      refine ⟨q', hq', ?_⟩
      have hsplit := hcount.append hrest
      rwa [← List.filter_append, List.singleton_append] at hsplit
    · rw [if_neg hlt, Option.some.injEq] at hl
      subst hl
      rw [if_neg hlt, List.filter_nil]
      exact ⟨q, rfl, Counted.nil hsame hready⟩

/-- The descriptors of a map outside the framebuffer are outside it. -/
theorem Clear.descriptor {s : MemorySettings} {FrameBufferBase : UINT64} {m i : Nat}
    (h : Clear gpu FrameBufferBase s.memMap (m * s.memMapDescriptorSize.toNat))
    (hstride : 40 ≤ s.memMapDescriptorSize.toNat) (hi : i < m) :
    Clear gpu FrameBufferBase (element s.memMap s.memMapDescriptorSize i) 40 := by
  intro j hj
  have hplace : element s.memMap s.memMapDescriptorSize i + BitVec.ofNat 64 j =
      s.memMap + BitVec.ofNat 64 (i * s.memMapDescriptorSize.toNat + j) := by
    rw [element, BitVec.add_assoc, BitVec.ofNat_add, BitVec.ofNat_mul, BitVec.ofNat_toNat,
      BitVec.setWidth_eq]
  have hle : (i + 1) * s.memMapDescriptorSize.toNat ≤ m * s.memMapDescriptorSize.toNat :=
    Nat.mul_le_mul_right _ hi
  rw [Nat.add_mul, Nat.one_mul] at hle
  rw [hplace]
  exact h _ (by omega)

/-- A query has summed `counted` and printed a line for each, and but for the
framebuffer memory is as it was, with the map and the settings at `a`. -/
structure Answers (p : Printer) (gpu : EFI_GRAPHICS_OUTPUT_PROTOCOL_MODE) (a : UINT64) (s : MemorySettings)
    (m : Nat) (k : Screen) (counted : List Descriptor) (q : QueryState) : Prop where
  total : q.total.toNat = exactBytes counted
  lines : p.lines (counted.map (·.NumberOfPages)) k = some q.screen
  map : mapAt q.screen.mem s m = mapAt k.mem s m
  settings : settingsAt q.screen.mem a = settingsAt k.mem a
  outside : SameOutside gpu p.FrameBufferBase k.mem q.screen.mem

/-- Over an array that the framebuffer does not overlap, the loop ends and
answers. -/
theorem countLoop_answers {s : MemorySettings} {m fuel : Nat} {k : Screen} (h : Describes s m) (hf : m < fuel)
    (hstride : 40 ≤ s.memMapDescriptorSize.toNat) (htotal : exactBytes (mapAt k.mem s m) < 2 ^ 64)
    (hfuel : 2114 < p.fuel) (hready : ScreenReady gpu n k.display) (hs : settingsAt k.mem a = s)
    (ha : Clear gpu p.FrameBufferBase a 28)
    (hmap : Clear gpu p.FrameBufferBase s.memMap (m * s.memMapDescriptorSize.toNat)) :
    ∃ q, countLoop p a counts fuel (settingsAt k.mem a).memMap ⟨k, 0⟩ = some q ∧
      Answers p gpu a s m k ((mapAt k.mem s m).filter counts) q := by
  have hvisited : pieces ((settingsAt k.mem a).memMap + (settingsAt k.mem a).memMapSize)
      (settingsAt k.mem a).memMapDescriptorSize fuel (settingsAt k.mem a).memMap = some (elements s m) := by
    rw [hs]
    exact visited_array h hf
  have hclear : ∀ x ∈ elements s m, Clear gpu p.FrameBufferBase x 40 := by
    intro x hx
    obtain ⟨i, hi, rfl⟩ := List.mem_map.mp hx
    exact hmap.descriptor hstride (List.mem_range.mp hi)
  obtain ⟨q, hq, hcount⟩ := countLoop_spec counts (q := ⟨k, 0⟩) hfuel ha
    (fun _ _ => rfl) hready hvisited hclear
  have hle := exactBytes_filter_le counts (mapAt k.mem s m)
  rw [← elements_filter_map] at hle ⊢
  refine ⟨q, hq, ?_, ?_, ?_, hcount.outside.settings ha, hcount.outside⟩
  · have hzero : q.total = bytesOf k.mem _ := hcount.total.trans (BitVec.zero_add _)
    rw [hzero, bytesOf_toNat (Nat.lt_of_le_of_lt hle htotal)]
  · rw [List.map_map]
    exact hcount.lines
  · rw [← elements_map, ← elements_map]
    exact List.map_congr_left fun x hx => hcount.outside.descriptor (hclear x hx)

end

/-! ## Both queries -/

/-- **The totals are exact.** For a map of `n` descriptors of any stride,
recorded by `InitializeMemory`, with fewer than 2^64 bytes in all,
`GetTotalSystemRam` answers the sum of all ranges and `GetUsableSystemRam`
that sum less the ranges of the excluded types. Any other recorded map with
the same descriptors in another order has the same totals. And with the lines
printed in the memory the map and the settings are in, on a screen that
overlaps neither, both answer that and change nothing but the framebuffer. -/
theorem ram_totals_exact (EfiMaxMemoryType : UINT32) (mem : ByteMem) (MapSize DescriptorSize : UINTN)
    (Map : UINT64) (DescriptorVersion : UINT32) (n fuel : Nat) (hstride : 40 ≤ DescriptorSize.toNat)
    (hsize : MapSize.toNat = n * DescriptorSize.toNat)
    (hfits : Map.toNat + n * DescriptorSize.toNat < 2 ^ 64) (hf : n < fuel)
    (htotal :
      exactBytes (mapAt mem (InitializeMemory MapSize DescriptorSize Map DescriptorVersion) n) < 2 ^ 64) :
    let s := InitializeMemory MapSize DescriptorSize Map DescriptorVersion
    let map := mapAt mem s n
    let usable := map.filter fun d => !Excluded EfiMaxMemoryType d
    (∃ r, GetTotalSystemRam mem s fuel = some r ∧ r.total.toNat = exactBytes map ∧
      r.printed = map.map (·.NumberOfPages)) ∧
    (∃ r, GetUsableSystemRam EfiMaxMemoryType mem s fuel = some r ∧
      r.total.toNat = exactBytes map - exactBytes (map.filter (Excluded EfiMaxMemoryType)) ∧
      r.printed = usable.map (·.NumberOfPages)) ∧
    (∀ mem' s' fuel', Describes s' n → n < fuel' → (mapAt mem' s' n).Perm map →
      (GetTotalSystemRam mem' s' fuel').map RamCount.total =
        (GetTotalSystemRam mem s fuel).map RamCount.total ∧
      (GetUsableSystemRam EfiMaxMemoryType mem' s' fuel').map RamCount.total =
        (GetUsableSystemRam EfiMaxMemoryType mem s fuel).map RamCount.total) ∧
    (∀ p a gpu scale k, 2114 < p.fuel → ScreenReady gpu scale k.display → k.mem = mem →
      settingsAt mem a = s → Clear gpu p.FrameBufferBase a 28 →
      Clear gpu p.FrameBufferBase Map (n * DescriptorSize.toNat) →
      (∃ q, GetTotalSystemRamOnScreen p a fuel k = some q ∧ Answers p gpu a s n k map q) ∧
      (∃ q, GetUsableSystemRamOnScreen EfiMaxMemoryType p a fuel k = some q ∧
        Answers p gpu a s n k usable q)) := by
  intro s map usable
  have hdesc : Describes s n := ⟨by show 0 < DescriptorSize.toNat; omega, hfits, hsize⟩
  obtain ⟨rt, hrt, httotal, htlines⟩ := GetTotalSystemRam_exact hdesc hf htotal
  obtain ⟨ru, hru, hutotal, hulines⟩ := GetUsableSystemRam_exact EfiMaxMemoryType hdesc hf htotal
  have hrest : exactBytes usable = exactBytes map - exactBytes (map.filter (Excluded EfiMaxMemoryType)) := by
    rw [← exactBytes_filter (Excluded EfiMaxMemoryType) map, Nat.add_sub_cancel_left]
  refine ⟨⟨rt, hrt, httotal, htlines⟩, ⟨ru, hru, hutotal.trans hrest, hulines⟩, ?_, ?_⟩
  · intro mem' s' fuel' hdesc' hf' hperm
    have htotal' : exactBytes (mapAt mem' s' n) < 2 ^ 64 := by rwa [exactBytes_perm hperm]
    obtain ⟨rt', hrt', httotal', -⟩ := GetTotalSystemRam_exact hdesc' hf' htotal'
    obtain ⟨ru', hru', hutotal', -⟩ := GetUsableSystemRam_exact EfiMaxMemoryType hdesc' hf' htotal'
    have ht : rt'.total = rt.total := by
      apply BitVec.eq_of_toNat_eq
      rw [httotal', httotal, exactBytes_perm hperm]
    have hu : ru'.total = ru.total := by
      apply BitVec.eq_of_toNat_eq
      rw [hutotal', hutotal, exactBytes_perm (hperm.filter _)]
    rw [hrt', hrt, hru', hru, Option.map_some, Option.map_some, Option.map_some, Option.map_some, ht, hu]
    exact ⟨rfl, rfl⟩
  · intro p a gpu scale k hfuel hready hk hs ha hmap
    subst hk
    have hall : (mapAt k.mem s n).filter (fun _ => true) = map := List.filter_true map
    have hanswer (counts : Descriptor → Bool) :=
      countLoop_answers counts hdesc hf hstride htotal hfuel hready hs ha hmap
    refine ⟨?_, hanswer fun d => !Excluded EfiMaxMemoryType d⟩
    have ht := hanswer fun _ => true
    rwa [hall] at ht

/-! ## A map of two ranges -/

/-- Sixteen free pages and eight of a device. -/
def twoRanges : List Descriptor := [⟨7, 0x1000, 16⟩, ⟨11, 0xE0000000, 8⟩]

/-- The map at 1 MiB, its settings at 8 KiB. -/
def twoRangesMemory : ByteMem := recordSettings (mapBytes 0x100000 twoRanges) 0x2000 (mapRecorded twoRanges)

/-- A screen of 1024 by 768 pixels, cleared. -/
def smallScreen : EFI_GRAPHICS_OUTPUT_PROTOCOL_MODE := ⟨1024, 1024, 768⟩

def twoRangesScreen : Screen where
  mem := twoRangesMemory
  display := ⟨smallScreen, 0x00FFFFFF, 0x0033FF33, 0x00000000, 1, 0⟩

theorem mapAt_twoRanges : mapAt twoRangesMemory (mapRecorded twoRanges) 2 = twoRanges := by decide +kernel

theorem twoRangesScreen_ready : ScreenReady smallScreen 1 twoRangesScreen.display :=
  ⟨⟨by decide, by decide, by decide, by decide⟩, by decide, ⟨rfl, rfl, Or.inl rfl, by decide⟩⟩

/-- The total is 24 pages, 16 of them usable. -/
theorem ram_totals_exact_twoRanges :
    ∃ p q q', GetTotalSystemRamOnScreen p 0x2000 3 twoRangesScreen = some q ∧ q.total.toNat = 24 * 4096 ∧
      GetUsableSystemRamOnScreen 14 p 0x2000 3 twoRangesScreen = some q' ∧ q'.total.toNat = 16 * 4096 := by
  have hmap : mapAt twoRangesMemory (InitializeMemory 96 48 0x100000 1) 2 = twoRanges := mapAt_twoRanges
  obtain ⟨-, -, -, hscreen⟩ := ram_totals_exact 14 twoRangesMemory 96 48 0x100000 1 2 3 (by decide) (by decide)
    (by decide) (by decide) (by rw [hmap]; decide)
  let p : Printer := ⟨fun _ _ => 0, 0x80000000, fun _ => 0, 2115⟩
  have hsettings : settingsAt twoRangesMemory 0x2000 = InitializeMemory 96 48 0x100000 1 :=
    settingsAt_recordSettings _ _ _
  have hclear : ∀ i < 28,
      ¬ ((0x2000 : UINT64) + BitVec.ofNat 64 i - 0x80000000).toNat < 4 * fbPixels smallScreen := by
    decide +kernel
  have hmapClear : ∀ i < 96,
      ¬ ((0x100000 : UINT64) + BitVec.ofNat 64 i - 0x80000000).toNat < 4 * fbPixels smallScreen := by
    decide +kernel
  obtain ⟨⟨q, hq, hanswer⟩, ⟨q', hq', hanswer'⟩⟩ := hscreen p 0x2000 smallScreen 1 twoRangesScreen (by decide)
    twoRangesScreen_ready rfl hsettings hclear hmapClear
  have htotal := hanswer.total
  have htotal' := hanswer'.total
  rw [hmap] at htotal htotal'
  exact ⟨p, q, q', hq, htotal, hq', htotal'⟩

end PiousOS.Kernel
