import PiousOS.L3Loader.SearchStuck
import PiousOS.Core.Enumeration

/-!
# Page-granular candidates (`ActuallyFreeAddressByPage`)

A candidate is a page-aligned address from which on the pages lie inside one
descriptor of conventional memory. The in-range test compares with the
descriptor's end less `EFI_PAGE_MASK`; over ranges of whole pages it admits
exactly the addresses whose next page is still a candidate.

Results:
* `pageIn_next`: what a descriptor answers, for any address below 2^63.
* `ActuallyFreeAddressByPage_enumerates`: on a sorted map a call answers the
  next candidate, and repeated calls go through all of them.
* `pageIn_top`: what a descriptor answers to `~0`, where the sum in the test
  wraps.
* `ActuallyFreeAddressByPage_safe_iff`: on any map the answer is a candidate
  or `~0`, except behind a `~0` that was passed on.
-/
namespace PiousOS.Loader
open EarlyExit Strided Enumeration

variable {σ : Type}

/-- A range of whole pages that ends below 2^63. -/
structure PageRange (d : Descriptor) : Prop where
  aligned : d.PhysicalStart.toNat % 4096 = 0
  below : d.PhysicalStart.toNat + d.NumberOfPages.toNat * 4096 < 2 ^ 63

/-- `pages` pages from `a` on lie inside the range, which is conventional
memory. -/
structure FitsIn (d : Descriptor) (pages a : UINT64) : Prop where
  conventional : d.type = EfiConventionalMemory
  start : d.PhysicalStart.toNat ≤ a.toNat
  stop : a.toNat + pages.toNat * 4096 ≤ d.PhysicalStart.toNat + d.NumberOfPages.toNat * 4096

/-- A page-aligned address with room for `pages` pages. -/
structure Candidate (map : List Descriptor) (pages a : UINT64) : Prop where
  aligned : a.toNat % 4096 = 0
  fits : ∃ d ∈ map, FitsIn d pages a

/-! ## The test in a descriptor -/

section
variable {d : Descriptor} {pages OldAddress : UINT64}

theorem shifted_toNat {n : UINT64} (h : n.toNat < 2 ^ 52) :
    (n <<< EFI_PAGE_SHIFT).toNat = n.toNat * 4096 := by
  have hpow : (2 : Nat) ^ EFI_PAGE_SHIFT = 4096 := rfl
  rw [BitVec.toNat_shiftLeft, Nat.shiftLeft_eq, hpow]
  omega

theorem PhysicalEnd_toNat (hd : PageRange d) (hpos : 0 < d.NumberOfPages.toNat) :
    (d.PhysicalStart + d.NumberOfPages <<< EFI_PAGE_SHIFT - EFI_PAGE_MASK).toNat =
      d.PhysicalStart.toNat + d.NumberOfPages.toNat * 4096 - 4095 := by
  have hbelow := hd.below
  have hmask : EFI_PAGE_MASK.toNat = 4095 := rfl
  have hend : (d.PhysicalStart + d.NumberOfPages <<< EFI_PAGE_SHIFT).toNat =
      d.PhysicalStart.toNat + d.NumberOfPages.toNat * 4096 := by
    rw [BitVec.toNat_add, shifted_toNat (by omega)]
    omega
  have hle : EFI_PAGE_MASK ≤ d.PhysicalStart + d.NumberOfPages <<< EFI_PAGE_SHIFT := by
    rw [BitVec.le_def, hend, hmask]
    omega
  rw [BitVec.toNat_sub_of_le hle, hend, hmask]

/-- The test on natural numbers. Only the sum of address and size can wrap. -/
theorem pageIn_eq (hd : PageRange d) (hpages : 0 < pages.toNat ∧ pages.toNat < 2 ^ 51) :
    pageIn pages OldAddress d =
      if d.type = EfiConventionalMemory ∧ pages.toNat ≤ d.NumberOfPages.toNat then
        if d.PhysicalStart.toNat ≤ OldAddress.toNat ∧
            (OldAddress.toNat + pages.toNat * 4096) % 2 ^ 64 + 4095 <
              d.PhysicalStart.toNat + d.NumberOfPages.toNat * 4096 then
          some (OldAddress + EFI_PAGE_SIZE)
        else if OldAddress.toNat < d.PhysicalStart.toNat then some d.PhysicalStart
        else none
      else none := by
  unfold pageIn
  by_cases hfit : d.type = EfiConventionalMemory ∧ pages ≤ d.NumberOfPages
  · have hle := BitVec.le_def.mp hfit.2
    have hfit' : d.type = EfiConventionalMemory ∧ pages.toNat ≤ d.NumberOfPages.toNat := ⟨hfit.1, hle⟩
    have hsum : (OldAddress + pages <<< EFI_PAGE_SHIFT).toNat =
        (OldAddress.toNat + pages.toNat * 4096) % 2 ^ 64 := by
      rw [BitVec.toNat_add, shifted_toNat (by omega)]
    have htest : OldAddress + pages <<< EFI_PAGE_SHIFT <
          d.PhysicalStart + d.NumberOfPages <<< EFI_PAGE_SHIFT - EFI_PAGE_MASK ↔
        (OldAddress.toNat + pages.toNat * 4096) % 2 ^ 64 + 4095 <
          d.PhysicalStart.toNat + d.NumberOfPages.toNat * 4096 := by
      rw [BitVec.lt_def, hsum, PhysicalEnd_toNat hd (by omega)]
      omega
    simp only [if_pos hfit', htest, BitVec.le_def, BitVec.lt_def]
  · rw [if_neg hfit, if_neg (fun h => hfit ⟨h.1, BitVec.le_def.mpr h.2⟩)]

/-- A page-aligned address below 2^63. -/
structure PageAddress (a : UINT64) : Prop where
  aligned : a.toNat % 4096 = 0
  below : a.toNat < 2 ^ 63

theorem nextPage_toNat (h : PageAddress OldAddress) :
    (OldAddress + EFI_PAGE_SIZE).toNat = OldAddress.toNat + 4096 := by
  have hbelow := h.below
  have hpage : EFI_PAGE_SIZE.toNat = 4096 := rfl
  rw [BitVec.toNat_add, hpage]
  omega

/-- What a descriptor answers: a candidate above the address and the least
from the descriptor's start on, or nothing if it has none. -/
theorem pageIn_next (hd : PageRange d) (hpages : 0 < pages.toNat ∧ pages.toNat < 2 ^ 51)
    (hold : PageAddress OldAddress) :
    match pageIn pages OldAddress d with
    | some a => OldAddress.toNat < a.toNat ∧ a.toNat % 4096 = 0 ∧ FitsIn d pages a ∧
        ∀ b : UINT64, b.toNat % 4096 = 0 → OldAddress.toNat < b.toNat →
          d.PhysicalStart.toNat ≤ b.toNat → a.toNat ≤ b.toNat
    | none => ∀ b : UINT64, b.toNat % 4096 = 0 → OldAddress.toNat < b.toNat → ¬ FitsIn d pages b := by
  have hs := hd.aligned
  have hend := hd.below
  have ho := hold.aligned
  have hb := hold.below
  rw [pageIn_eq hd hpages]
  by_cases hfit : d.type = EfiConventionalMemory ∧ pages.toNat ≤ d.NumberOfPages.toNat
  · rw [if_pos hfit]
    by_cases hin : d.PhysicalStart.toNat ≤ OldAddress.toNat ∧
        (OldAddress.toNat + pages.toNat * 4096) % 2 ^ 64 + 4095 <
          d.PhysicalStart.toNat + d.NumberOfPages.toNat * 4096
    · -- the page behind the address
      rw [if_pos hin]
      have hnext := nextPage_toNat hold
      refine ⟨by omega, by omega, ⟨hfit.1, by omega, by omega⟩, fun b hba hlt _ => by omega⟩
    · rw [if_neg hin]
      by_cases hup : OldAddress.toNat < d.PhysicalStart.toNat
      · -- the first page of a range above
        rw [if_pos hup]
        exact ⟨hup, hs, ⟨hfit.1, Nat.le_refl _, by omega⟩, fun b _ _ hle => hle⟩
      · rw [if_neg hup]
        intro b hba hlt hfits
        have hstop := hfits.stop
        omega
  · rw [if_neg hfit]
    intro b _ _ hfits
    refine hfit ⟨hfits.conventional, ?_⟩
    have h1 := hfits.start
    have h2 := hfits.stop
    omega

end

/-! ## The first answer of a sorted map -/

/-- The order of addresses, for `Enumeration`. -/
local instance (priority := low) addressOrder : LinearOrder UINT64 where
  le_refl := BitVec.le_refl
  le_trans _ _ _ := BitVec.le_trans
  lt_iff_le_not_ge a b := by
    rw [BitVec.lt_def, BitVec.le_def, BitVec.le_def]
    omega
  le_antisymm _ _ := BitVec.le_antisymm
  le_total := BitVec.le_total
  toDecidableLE := inferInstance
  toDecidableLT := inferInstance
  toDecidableEq := inferInstance

/-- A map in the order of its starts. -/
def SortedByStart (map : List Descriptor) : Prop :=
  map.Pairwise fun d e => d.PhysicalStart ≤ e.PhysicalStart

/-- `a` is the next candidate, or `~0` and there is none. -/
def NextCandidate (map : List Descriptor) (pages OldAddress a : UINT64) : Prop :=
  IsLeast {b | Candidate map pages b ∧ OldAddress < b} a ∨
    (a = noAddress ∧ ∀ b, Candidate map pages b → ¬ OldAddress < b)

section
variable {map : List Descriptor} {pages OldAddress : UINT64}

theorem Candidate.pageAddress (hmap : ∀ d ∈ map, PageRange d) {a : UINT64}
    (h : Candidate map pages a) : PageAddress a := by
  obtain ⟨d, hd, hfits⟩ := h.fits
  have h1 := (hmap d hd).below
  have h2 := hfits.stop
  exact ⟨h.aligned, by omega⟩

/-- On a sorted map the first answer is the next candidate. -/
theorem pageAfterIn_next (hmap : ∀ d ∈ map, PageRange d) (hsorted : SortedByStart map)
    (hpages : 0 < pages.toNat ∧ pages.toNat < 2 ^ 51) (hold : PageAddress OldAddress) :
    NextCandidate map pages OldAddress (pageAfterIn map pages OldAddress) := by
  unfold pageAfterIn firstAnswer
  cases hfirst : map.findSome? (pageIn pages OldAddress) with
  | none =>
    refine Or.inr ⟨rfl, fun b hb hlt => ?_⟩
    obtain ⟨d, hd, hfits⟩ := hb.fits
    have hanswer := pageIn_next (hmap d hd) hpages hold
    rw [List.findSome?_eq_none_iff.mp hfirst d hd] at hanswer
    exact hanswer b hb.aligned (BitVec.lt_def.mp hlt) hfits
  | some a =>
    obtain ⟨before, d, behind, rfl, hd, hnone⟩ := List.findSome?_eq_some_iff.mp hfirst
    have hmem : d ∈ before ++ d :: behind := by simp
    have hanswer := pageIn_next (hmap d hmem) hpages hold
    rw [hd] at hanswer
    obtain ⟨hup, haligned, hfits, hleast⟩ := hanswer
    refine Or.inl ⟨⟨⟨haligned, d, hmem, hfits⟩, BitVec.lt_def.mpr hup⟩, fun b hb => ?_⟩
    obtain ⟨hcand, hlt⟩ := hb
    obtain ⟨e, he, hein⟩ := hcand.fits
    -- the descriptor of `b` is not before `d`, so `b` lies behind the start of `d`
    have hbelow : d.PhysicalStart.toNat ≤ b.toNat := by
      rcases List.mem_append.mp he with hbefore | hfrom
      · have hother := pageIn_next (hmap e he) hpages hold
        rw [hnone e hbefore] at hother
        exact absurd hein (hother b hcand.aligned (BitVec.lt_def.mp hlt))
      · rcases List.mem_cons.mp hfrom with rfl | hbehind
        · exact hein.start
        · have hde := (List.pairwise_cons.mp (List.pairwise_append.mp hsorted).2.1).1 e hbehind
          exact Nat.le_trans (BitVec.le_def.mp hde) hein.start
    exact BitVec.le_def.mpr (hleast b hcand.aligned (BitVec.lt_def.mp hlt) hbelow)

theorem belowTop_falls (a b : UINT64) (h : a < b) : belowTop b < belowTop a := by
  have hlt := BitVec.lt_def.mp h
  have := b.isLt
  unfold belowTop
  omega

theorem noAddress_toNat : noAddress.toNat = 2 ^ 64 - 1 := by decide

/-- The search steps from candidate to candidate. -/
theorem pageAfterIn_nextTarget (hmap : ∀ d ∈ map, PageRange d) (hsorted : SortedByStart map)
    (hpages : 0 < pages.toNat ∧ pages.toNat < 2 ^ 51) :
    NextTarget (pageAfterIn map pages) noAddress PageAddress (Candidate map pages) := by
  have hnext := fun a (ha : PageAddress a) => pageAfterIn_next hmap hsorted hpages ha
  have hreal : ∀ a, PageAddress a → pageAfterIn map pages a ≠ noAddress →
      IsLeast {b | Candidate map pages b ∧ a < b} (pageAfterIn map pages a) := by
    intro a ha hne
    rcases hnext a ha with hleast | ⟨htop, -⟩
    · exact hleast
    · exact absurd htop hne
  refine ⟨fun a ha hstop => ?_, hreal, fun a ha hne => ?_⟩
  · rcases hnext a ha with hleast | ⟨-, hnone⟩
    · -- no candidate is `~0`
      have hbelow := (hleast.1.1.pageAddress hmap).below
      rw [hstop, noAddress_toNat] at hbelow
      omega
    · exact hnone
  · exact (hreal a ha hne).1.1.pageAddress hmap

end

/-! ## Calls -/

/-- The calls of `fetchMap` in firmware state `w`: the size, the pool, the map. -/
def askedSize (fw : Firmware σ) (w : σ) : MemoryMapReply × σ := fw.GetMemoryMap 0 0 w

def poolFor (fw : Firmware σ) (w : σ) : (EFI_STATUS × UINT64) × σ :=
  fw.AllocatePool (askedSize fw w).1.MemMapSize (askedSize fw w).2

def filledMap (fw : Firmware σ) (w : σ) : MemoryMapReply × σ :=
  fw.GetMemoryMap (askedSize fw w).1.MemMapSize (poolFor fw w).1.2 (poolFor fw w).2

/-- `GetMemoryMap` and `AllocatePool` succeed, and the map is `map`. -/
structure GivesMap (fw : Firmware σ) (map : List Descriptor) (w : σ) : Prop where
  asks : (askedSize fw w).1.status = EFI_BUFFER_TOO_SMALL
  pool : EFI_ERROR (poolFor fw w).1.1 = false
  fills : EFI_ERROR (filledMap fw w).1.status = false
  lists : ListsMap map (poolFor fw w).1.2 (filledMap fw w).1

/-- From its states in `K` the firmware gives `map` again and again. -/
structure KeepsGiving (fw : Firmware σ) (map : List Descriptor) (K : σ → Prop) : Prop where
  gives : ∀ w, K w → GivesMap fw map w
  filled : ∀ w, K w → K (filledMap fw w).2
  freed : ∀ w, K w → K (fw.FreePool (poolFor fw w).1.2 (filledMap fw w).2).2

/-- A firmware that shows the map gives it. -/
theorem ShowsMap.keepsGiving {fw : Firmware σ} {map : List Descriptor} {size : UINTN} {K : σ → Prop}
    (h : ShowsMap fw map size K) : KeepsGiving fw map K := by
  have hsize : ∀ w, K w → (askedSize fw w).1.MemMapSize = size := fun w hw => (h.asks w hw).2.1
  have hasked : ∀ w, K w → K (askedSize fw w).2 := fun w hw => (h.asks w hw).2.2
  have hpool : ∀ w, K w → poolFor fw w = fw.AllocatePool size (askedSize fw w).2 := by
    intro w hw
    rw [poolFor, hsize w hw]
  have hfilled : ∀ w, K w → filledMap fw w = fw.GetMemoryMap size
      (fw.AllocatePool size (askedSize fw w).2).1.2 (fw.AllocatePool size (askedSize fw w).2).2 := by
    intro w hw
    rw [filledMap, hsize w hw, hpool w hw]
  refine ⟨fun w hw => ⟨(h.asks w hw).1, ?_, ?_, ?_⟩, fun w hw => ?_, fun w hw => ?_⟩
  · rw [hpool w hw]
    exact h.pool _ (hasked w hw)
  · rw [hfilled w hw]
    exact (h.fills _ (hasked w hw)).1
  · rw [hfilled w hw, hpool w hw]
    exact (h.fills _ (hasked w hw)).2.1
  · rw [hfilled w hw]
    exact (h.fills _ (hasked w hw)).2.2
  · rw [hfilled w hw, hpool w hw]
    exact (h.freed _ (hasked w hw)).1

section
variable {fw : Firmware σ} {map : List Descriptor} {fuel : Nat}

theorem fetchMap_gives {s : LoaderState σ} (h : GivesMap fw map s.firmware) :
    fetchMap fw s = .ok (some ((poolFor fw s.firmware).1.2, (filledMap fw s.firmware).1))
      { s with firmware := (filledMap fw s.firmware).2 } := by
  have hasks := h.asks
  have hpool := h.pool
  have hfills := h.fills
  simp only [filledMap, poolFor, askedSize] at hasks hpool hfills ⊢
  unfold fetchMap
  rw [call_bind, if_pos hasks, call_bind]
  simp only [hpool, Bool.false_eq_true, if_false]
  rw [call_bind]
  simp only [hfills, Bool.false_eq_true, if_false]
  rfl

/-- A call answers with the map's first answer; the firmware has given the
map, and may have taken back the pool. -/
theorem ActuallyFreeAddressByPage_answers {s : LoaderState σ} (h : GivesMap fw map s.firmware)
    (hfuel : map.length < fuel) (pages OldAddress : UINT64) :
    ∃ s', ActuallyFreeAddressByPage fw fuel pages OldAddress s =
        .ok (pageAfterIn map pages OldAddress) s' ∧
      (s' = { s with firmware := (filledMap fw s.firmware).2 } ∨
        s' = { s with firmware :=
          (fw.FreePool (poolFor fw s.firmware).1.2 (filledMap fw s.firmware).2).2 }) := by
  have hentry : ∀ Piece, pageAfter pages OldAddress (filledMap fw s.firmware).1.contents Piece =
      pageIn pages OldAddress (descriptorAt (filledMap fw s.firmware).1.contents Piece) := fun _ => rfl
  have hwalk := forDescriptors_from_first (pageIn pages OldAddress) h.lists hentry
    (fun t => t = { s with firmware := (filledMap fw s.firmware).2 }) fuel
  have hlong : Runs _ _ _ := hwalk.early fun e t hshort => absurd hshort.2 (by omega)
  obtain ⟨found, t, hrun, rfl, hfound, -⟩ := hlong.ok rfl
  unfold ActuallyFreeAddressByPage
  rw [bind_of_ok (fetchMap_gives h)]
  simp only
  rw [bind_of_ok hrun, pageAfterIn, firstAnswer, ← hfound]
  cases found with
  | none => exact ⟨_, rfl, Or.inl rfl⟩
  | some p => exact ⟨_, rfl, Or.inr rfl⟩

/-- Repeated calls, each from the last answer, until the answer is `~0`: the
addresses visited. -/
def visitAll (search : UINT64 → Boot σ UINT64) : Nat → UINT64 → Boot σ (List UINT64)
  | 0, _ => throw .searching
  | rounds + 1, OldAddress => do
    let a ← search OldAddress
    if a = noAddress then pure []
    else
      let rest ← visitAll search rounds a
      pure (a :: rest)

/-- The addresses visited are those the answers go through. -/
theorem visitAll_runs {I : LoaderState σ → Prop} {search : UINT64 → Boot σ UINT64}
    {f : UINT64 → UINT64} (h : ∀ a, Runs I (search a) fun b s => b = f a ∧ I s) {rounds : Nat}
    {a : UINT64} {l : List UINT64} (hl : visits f noAddress rounds a = some l) :
    Runs I (visitAll search rounds a) fun l' s => l' = l ∧ I s := by
  induction rounds generalizing a l with
  | zero => cases hl
  | succ rounds ih =>
    unfold visits at hl
    unfold visitAll
    refine Triple.bind (h a) fun b s hs => ?_
    obtain ⟨rfl, hI⟩ := hs
    by_cases hstop : f a = noAddress
    · rw [if_pos hstop] at hl
      cases hl
      rw [if_pos hstop]
      exact ⟨rfl, hI⟩
    · rw [if_neg hstop, Option.map_eq_some_iff] at hl
      obtain ⟨rest, hrest, rfl⟩ := hl
      rw [if_neg hstop]
      refine Triple.bind (ih hrest) (fun l' t ht => ?_) s hI
      obtain ⟨rfl, ht⟩ := ht
      exact ⟨rfl, ht⟩

end

/-- **The page-by-page search enumerates the candidates.** On a map sorted by
start, of ranges of whole pages below 2^63, a call from a page-aligned address
answers the least candidate above it, `~0` if there is none. While the
firmware keeps giving the map, repeated calls visit all candidates above the
start, ascending, each once, and then answer `~0`. That the ranges are
disjoint is not needed. -/
theorem ActuallyFreeAddressByPage_enumerates (fw : Firmware σ) (map : List Descriptor)
    (pages OldAddress : UINT64) (fuel : Nat) (s : LoaderState σ) (hmap : ∀ d ∈ map, PageRange d)
    (hsorted : SortedByStart map) (hpages : 0 < pages.toNat ∧ pages.toNat < 2 ^ 51)
    (hold : PageAddress OldAddress) (hfuel : map.length < fuel) :
    (GivesMap fw map s.firmware →
      ∃ a s', ActuallyFreeAddressByPage fw fuel pages OldAddress s = .ok a s' ∧
        NextCandidate map pages OldAddress a) ∧
    ∀ K : σ → Prop, KeepsGiving fw map K → K s.firmware →
      ∃ enough, ∀ rounds, enough ≤ rounds →
        ∃ l s', visitAll (ActuallyFreeAddressByPage fw fuel pages) rounds OldAddress s = .ok l s' ∧
          l.Pairwise (· < ·) ∧ ∀ a, a ∈ l ↔ Candidate map pages a ∧ OldAddress < a := by
  refine ⟨fun hgives => ?_, fun K hkeeps hs => ?_⟩
  · obtain ⟨s', hrun, -⟩ := ActuallyFreeAddressByPage_answers hgives hfuel pages OldAddress
    exact ⟨_, s', hrun, pageAfterIn_next hmap hsorted hpages hold⟩
  · have hcalls : ∀ a, Runs (fun t => K t.firmware) (ActuallyFreeAddressByPage fw fuel pages a)
        fun b t => b = pageAfterIn map pages a ∧ K t.firmware := by
      intro a t ht
      obtain ⟨t', hrun, hafter⟩ :=
        ActuallyFreeAddressByPage_answers (hkeeps.gives _ ht) hfuel pages a
      rw [hrun]
      rcases hafter with rfl | rfl
      · exact ⟨rfl, hkeeps.filled _ ht⟩
      · exact ⟨rfl, hkeeps.freed _ ht⟩
    refine ⟨belowTop OldAddress + 1, fun rounds hrounds => ?_⟩
    obtain ⟨l, hl, hasc, hmem⟩ :=
      (pageAfterIn_nextTarget hmap hsorted hpages).visits belowTop_falls hold hrounds
    obtain ⟨l', s', hrun, rfl, -⟩ := (visitAll_runs hcalls hl).ok hs
    exact ⟨l', s', hrun, hasc, hmem⟩

/-- The scripted firmware keeps giving four pages at 0x1000. -/
theorem lowMemory_given : KeepsGiving (scripted lowMemory) lowMemory fun _ => True :=
  (scripted_shows (by decide) fun _ => True).keepsGiving

theorem lowMemory_ranges : ∀ d ∈ lowMemory, PageRange d := by
  intro d hd
  rw [List.mem_singleton.mp hd]
  exact ⟨by decide, by decide⟩

theorem ActuallyFreeAddressByPage_enumerates_low :
    (∃ a s', ActuallyFreeAddressByPage (scripted lowMemory) 2 2 0x1000
        (scriptStart [] fun _ => 0) = .ok a s' ∧ NextCandidate lowMemory 2 0x1000 a) ∧
      ∃ enough, ∀ rounds, enough ≤ rounds →
        ∃ l s', visitAll (ActuallyFreeAddressByPage (scripted lowMemory) 2 2) rounds 0x1000
            (scriptStart [] fun _ => 0) = .ok l s' ∧
          l.Pairwise (· < ·) ∧ ∀ a, a ∈ l ↔ Candidate lowMemory 2 a ∧ 0x1000 < a := by
  have h := ActuallyFreeAddressByPage_enumerates (scripted lowMemory) lowMemory 2 0x1000 2
    (scriptStart [] fun _ => 0) lowMemory_ranges (List.pairwise_singleton _ _) (by decide)
    ⟨by decide, by decide⟩ (by decide)
  exact ⟨h.1 (lowMemory_given.gives _ trivial), h.2 _ lowMemory_given trivial⟩

/-! ## Behind `~0` -/

section
variable {d : Descriptor} {map : List Descriptor} {pages OldAddress : UINT64}

/-- `~0` plus the size wraps to one below the size, so it passes for an
address inside every range that reaches further than `pages` pages from 0. -/
theorem pageIn_top (hd : PageRange d) (hpages : 0 < pages.toNat ∧ pages.toNat < 2 ^ 51) :
    pageIn pages noAddress d =
      if d.type = EfiConventionalMemory ∧ pages ≤ d.NumberOfPages ∧
          ¬ (d.PhysicalStart = 0 ∧ d.NumberOfPages = pages) then some 4095
      else none := by
  have hs := hd.aligned
  have hend := hd.below
  have hbehind : noAddress + EFI_PAGE_SIZE = 4095 := by decide
  have hwrap : (noAddress.toNat + pages.toNat * 4096) % 2 ^ 64 + 1 = pages.toNat * 4096 := by
    rw [noAddress_toNat]
    omega
  have hzero : d.PhysicalStart = 0 ↔ d.PhysicalStart.toNat = 0 := by
    rw [← BitVec.toNat_inj]
    rfl
  rw [pageIn_eq hd hpages, hbehind, noAddress_toNat]
  rw [noAddress_toNat] at hwrap
  by_cases hfit : d.type = EfiConventionalMemory ∧ pages.toNat ≤ d.NumberOfPages.toNat
  · rw [if_pos hfit, if_neg (show ¬ 2 ^ 64 - 1 < d.PhysicalStart.toNat by omega)]
    refine if_congr ?_ rfl rfl
    rw [hzero, BitVec.le_def, ← BitVec.toNat_inj (x := d.NumberOfPages)]
    constructor
    · intro h
      exact ⟨hfit.1, hfit.2, fun hall => by omega⟩
    · intro h
      have hnot := h.2.2
      omega
  · rw [if_neg hfit, if_neg]
    intro h
    exact hfit ⟨h.1, BitVec.le_def.mp h.2.1⟩

/-- The answer is no address, or a candidate above the address asked for. -/
def SafeAnswer (map : List Descriptor) (pages OldAddress a : UINT64) : Prop :=
  a = noAddress ∨ (OldAddress < a ∧ Candidate map pages a)

/-- Every descriptor with room for `pages` pages starts at 0 and has no more. -/
def NothingBehindTop (map : List Descriptor) (pages : UINT64) : Prop :=
  ∀ d ∈ map, d.type = EfiConventionalMemory → pages ≤ d.NumberOfPages →
    d.PhysicalStart = 0 ∧ d.NumberOfPages = pages

theorem pageAfterIn_safe (hmap : ∀ d ∈ map, PageRange d)
    (hpages : 0 < pages.toNat ∧ pages.toNat < 2 ^ 51) (hold : PageAddress OldAddress) :
    SafeAnswer map pages OldAddress (pageAfterIn map pages OldAddress) := by
  unfold pageAfterIn firstAnswer
  cases hfirst : map.findSome? (pageIn pages OldAddress) with
  | none => exact Or.inl rfl
  | some a =>
    obtain ⟨d, hmem, hd⟩ := List.exists_of_findSome?_eq_some hfirst
    have hanswer := pageIn_next (hmap d hmem) hpages hold
    rw [hd] at hanswer
    obtain ⟨hup, haligned, hfits, -⟩ := hanswer
    exact Or.inr ⟨BitVec.lt_def.mpr hup, haligned, d, hmem, hfits⟩

theorem pageAfterIn_top_safe_iff (hmap : ∀ d ∈ map, PageRange d)
    (hpages : 0 < pages.toNat ∧ pages.toNat < 2 ^ 51) :
    SafeAnswer map pages noAddress (pageAfterIn map pages noAddress) ↔ NothingBehindTop map pages := by
  unfold pageAfterIn firstAnswer
  constructor
  · intro hsafe d hd hconv hroom
    by_contra hother
    cases hfirst : map.findSome? (pageIn pages noAddress) with
    | none =>
      have hnone := List.findSome?_eq_none_iff.mp hfirst d hd
      rw [pageIn_top (hmap d hd) hpages, if_pos ⟨hconv, hroom, hother⟩] at hnone
      cases hnone
    | some a =>
      obtain ⟨e, he, hanswer⟩ := List.exists_of_findSome?_eq_some hfirst
      rw [pageIn_top (hmap e he) hpages] at hanswer
      split at hanswer
      case isFalse => cases hanswer
      case isTrue =>
        cases hanswer
        rw [hfirst, Option.getD_some] at hsafe
        rcases hsafe with htop | ⟨-, hcand⟩
        · exact absurd htop (by decide)
        · exact absurd hcand.aligned (by decide)
  · intro hnothing
    have hnone : map.findSome? (pageIn pages noAddress) = none := by
      refine List.findSome?_eq_none_iff.mpr fun d hd => ?_
      rw [pageIn_top (hmap d hd) hpages, if_neg]
      intro h
      exact h.2.2 (hnothing d hd h.1 h.2.1)
    rw [hnone]
    exact Or.inl rfl

end

/-- **The page-by-page search stays in free memory except behind `~0`.** On
any map of ranges of whole pages below 2^63, asked for what comes after a
page-aligned address or `~0`, the search answers `~0` or a candidate above
that address, exactly if the address is not `~0` or every descriptor with room
starts at 0 and has no page more than asked for. -/
theorem ActuallyFreeAddressByPage_safe_iff (fw : Firmware σ) (map : List Descriptor)
    (pages OldAddress : UINT64) (fuel : Nat) (s : LoaderState σ) (hgives : GivesMap fw map s.firmware)
    (hmap : ∀ d ∈ map, PageRange d) (hpages : 0 < pages.toNat ∧ pages.toNat < 2 ^ 51)
    (hold : PageAddress OldAddress ∨ OldAddress = noAddress) (hfuel : map.length < fuel) :
    ∃ a s', ActuallyFreeAddressByPage fw fuel pages OldAddress s = .ok a s' ∧
      (SafeAnswer map pages OldAddress a ↔
        OldAddress ≠ noAddress ∨ NothingBehindTop map pages) := by
  obtain ⟨s', hrun, -⟩ := ActuallyFreeAddressByPage_answers hgives hfuel pages OldAddress
  refine ⟨_, s', hrun, ?_⟩
  rcases hold with hreal | htop
  · have hne : OldAddress ≠ noAddress := by
      intro htop
      have hbelow := hreal.below
      rw [htop, noAddress_toNat] at hbelow
      omega
    exact iff_of_true (pageAfterIn_safe hmap hpages hreal) (Or.inl hne)
  · subst htop
    rw [pageAfterIn_top_safe_iff hmap hpages]
    exact ⟨Or.inr, fun h => h.resolve_left fun hne => hne rfl⟩

theorem ActuallyFreeAddressByPage_safe_low :
    ∃ a s', ActuallyFreeAddressByPage (scripted lowMemory) 2 2 0x1000
        (scriptStart [] fun _ => 0) = .ok a s' ∧ SafeAnswer lowMemory 2 0x1000 a := by
  obtain ⟨a, s', hrun, hsafe⟩ := ActuallyFreeAddressByPage_safe_iff (scripted lowMemory) lowMemory 2
    0x1000 2 (scriptStart [] fun _ => 0) (lowMemory_given.gives _ trivial) lowMemory_ranges (by decide)
    (Or.inl ⟨by decide, by decide⟩) (by decide)
  exact ⟨a, s', hrun, hsafe.mpr (Or.inl (by decide))⟩

/-- Two pages of four at 0x1000: behind `~0` comes 4095, no page address. -/
theorem ActuallyFreeAddressByPage_leaves_memory :
    (∃ s', ActuallyFreeAddressByPage (scripted lowMemory) 2 2 noAddress
        (scriptStart [] fun _ => 0) = .ok 4095 s') ∧ ¬ SafeAnswer lowMemory 2 noAddress 4095 := by
  have hanswer : pageAfterIn lowMemory 2 noAddress = 4095 := by decide
  obtain ⟨s', hrun, -⟩ := ActuallyFreeAddressByPage_answers
    (s := scriptStart [] fun _ => 0) (lowMemory_given.gives [] trivial) (by decide : 1 < 2) 2 noAddress
  rw [hanswer] at hrun
  refine ⟨⟨s', hrun⟩, ?_⟩
  intro hsafe
  rcases hsafe with htop | ⟨-, hcand⟩
  · exact absurd htop (by decide)
  · exact absurd hcand.aligned (by decide)

end PiousOS.Loader
