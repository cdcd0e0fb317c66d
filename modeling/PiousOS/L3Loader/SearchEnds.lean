import PiousOS.L3Loader.ZeroedImage
import PiousOS.L3Loader.MapSearch

/-!
# Where the search for memory ends

The search on a firmware that always shows the same memory map, takes pages
back, and grants pages in conventional memory only, in any pattern. Every
loop of the search but one stops at `~0`. The inner loop of the page-by-page
search looks at the address that was given back instead of the one it has
found: once it is entered, only the firmware can end it.

* `allocateAt_round`, `untilClear_round`: one round of each loop;
* `searchRegions_ends`: the region search always ends;
* `searchPages_ends`: the page-by-page search ends if it reaches `~0` and
  gives back no address on the way;
* `searchMemory_ends`: so the search ends if no region, or no page address, is
  given back.
-/
namespace PiousOS.Loader
open EarlyExit Strided

variable {σ : Type}

/-- The search, entered with pages that are not zero at the first address.
mirrors src/bootloader/boot.c:315-517 -/
def searchMemory (fw : Firmware σ) (fuel : Nat) (pages : UINTN) : Boot σ UINT64 := do
  let BootStatus ← call (fw.FreePages firstAddress pages)
  check BootStatus
  let AllocatedMemory ← searchRegions fw fuel pages firstAddress
  if AllocatedMemory = noAddress then searchPages fw fuel pages firstAddress
  else pure AllocatedMemory

/-- This is what `allocateImage` goes on with there. -/
theorem allocateImage_search {fw : Firmware σ} {fuel : Nat} {pages : UINTN} {s s' : LoaderState σ}
    (h : allocateFirst fw pages s = .ok true s') (hown : ownRemains s'.mem firstAddress = false) :
    allocateImage fw fuel pages s = searchMemory fw fuel pages s' := by
  unfold allocateImage
  rw [bind_of_ok h, if_pos rfl, get_bind, hown]
  rfl

/-! ## The firmware of the search -/

/-- `a` lies in a region of conventional memory. -/
def Conventional (map : List Descriptor) (a : UINT64) : Prop :=
  ∃ d ∈ map, d.type = EfiConventionalMemory ∧ d.PhysicalStart.toNat ≤ a.toNat ∧
    a.toNat < d.PhysicalStart.toNat + d.NumberOfPages.toNat * 4096

instance (map : List Descriptor) (a : UINT64) : Decidable (Conventional map a) :=
  inferInstanceAs (Decidable (∃ d ∈ map, _))

/-- The firmware shows `map`, takes pages back, and finds the pages it is
asked for or does not; it finds none outside conventional memory. -/
structure SearchFirmware (fw : Firmware σ) (map : List Descriptor) (pages : UINTN) : Prop where
  shows : ∃ size, ShowsMap fw map size fun _ => True
  frees : ∀ a w, EFI_ERROR (fw.FreePages a pages w).1 = false
  grants : ∀ a w, (fw.AllocatePages pages a w).1 = EFI_NOT_FOUND ∨
    (fw.AllocatePages pages a w).1 = EFI_SUCCESS ∧ Conventional map a

/-- With enough rounds, the search finds memory or returns an error. -/
def Finishes (fw : Firmware σ) (pages : UINTN) (s : LoaderState σ) : Prop :=
  ∃ n, ∀ fuel, n ≤ fuel →
    Outcome (fun _ _ => True) (fun e _ => e.IsError) (searchMemory fw fuel pages s)

/-- The addresses the region search tries. -/
def regionTried (map : List Descriptor) (pages : UINTN) (k : Nat) : UINT64 :=
  (nextRegion map pages firstAddress)^[k] 0

/-- The addresses the page-by-page search tries. -/
def pageTried (map : List Descriptor) (pages : UINTN) (j : Nat) : UINT64 :=
  (nextPage map pages firstAddress)^[j + 1] (regionAfter map pages 0)

/-- No region that can be granted is given back. -/
def RegionsClear (map : List Descriptor) (pages : UINTN) (mem : ByteMem) : Prop :=
  ∀ k, regionTried map pages k ≠ noAddress → Conventional map (regionTried map pages k) →
    Accepts pages mem (regionTried map pages k)

/-- The page-by-page search reaches `~0`, and no address before it that can be
granted is given back. -/
def PagesClear (map : List Descriptor) (pages : UINTN) (mem : ByteMem) : Prop :=
  ∃ n, pageTried map pages n = noAddress ∧ ∀ j < n, Conventional map (pageTried map pages j) →
    Accepts pages mem (pageTried map pages j)

/-! ## One round -/

section
variable {fw : Firmware σ} {pages : UINTN} {OldAllocatedMemory : UINT64} {K : σ → Prop} {mem : ByteMem}
  {search : UINT64 → Boot σ UINT64} {f : UINT64 → UINT64} {ended giveUp : UINT64 → Bool}
  {E : Exit → LoaderState σ → Prop}

theorem allocateAt_stop {P : LoaderState σ → Prop} {fuel : Nat} {BootStatus : EFI_STATUS} {a : UINT64}
    (h : BootStatus = EFI_SUCCESS ∨ ended a = true) :
    Triple P (allocateAt fw search pages OldAllocatedMemory ended giveUp (fuel + 1) BootStatus a)
      (fun b s => b = a ∧ P s) E := by
  unfold allocateAt
  rw [if_pos h]
  exact Triple.pure fun _ hs => ⟨rfl, hs⟩

theorem allocateAt_round {F n : Nat} (hs : Finds search f K mem F n)
    (hshort : ∀ e s, Short F n e s → E e s) {fuel : Nat} {a : UINT64} (hended : ended a = false)
    (hgive : giveUp (passOver OldAllocatedMemory f a) = true → ∀ s, E (.returned EFI_NOT_FOUND) s)
    {S : EFI_STATUS → LoaderState σ → Prop} {Q : UINT64 → LoaderState σ → Prop}
    (hcall : Triple (Rests K mem) (call (fw.AllocatePages pages (passOver OldAllocatedMemory f a))) S E)
    (hrest : giveUp (passOver OldAllocatedMemory f a) = false → ∀ st, Triple (S st)
      (allocateAt fw search pages OldAllocatedMemory ended giveUp fuel st
        (passOver OldAllocatedMemory f a)) Q E) :
    Triple (Rests K mem)
      (allocateAt fw search pages OldAllocatedMemory ended giveUp (fuel + 1) EFI_NOT_FOUND a) Q E := by
  have hgo : ¬ (EFI_NOT_FOUND = EFI_SUCCESS ∨ ended a = true) := by
    rw [hended]
    decide
  unfold allocateAt addressAfter
  rw [if_neg hgo, if_pos rfl]
  refine Triple.bind ((nextAddress_finds hs OldAllocatedMemory a).early hshort) fun b s hb => ?_
  obtain ⟨rfl, hrests⟩ := hb
  cases hup : giveUp (passOver OldAllocatedMemory f a) with
  | true => exact hgive hup s
  | false => exact Triple.bind hcall (hrest hup) s hrests

theorem untilClear_stop {again : UINT64 → Boot σ UINT64} {fuel : Nat} {a : UINT64}
    (h : ended a = true ∨ Accepts pages mem a) :
    Triple (Rests K mem) (untilClear fw pages ended again (fuel + 1) a)
      (fun b s => b = a ∧ Rests K mem s) E := by
  rintro s ⟨hw, rfl⟩
  unfold untilClear
  rw [get_bind]
  refine Triple.ite (P := fun t => t = s) (fun _ => ?_) (fun hdirty => ?_) s rfl
  · exact Triple.pure fun _ hs => ⟨rfl, by rw [hs]; exact ⟨hw, rfl⟩⟩
  · have hown : ownRemains s.mem a = true := by
      rcases h with hend | hzero | hown
      · exact absurd (.inl hend) hdirty
      · exact absurd (.inr hzero) hdirty
      · exact hown
    rw [if_pos hown]
    exact Triple.pure fun _ hs => ⟨rfl, by rw [hs]; exact ⟨hw, rfl⟩⟩

theorem untilClear_round {again : UINT64 → Boot σ UINT64} {fuel : Nat} {a : UINT64}
    (hended : ended a = false) (hbad : ¬ Accepts pages mem a)
    (hfree : ∀ w, K w → EFI_ERROR (fw.FreePages a pages w).1 = false ∧ K (fw.FreePages a pages w).2)
    {S Q : UINT64 → LoaderState σ → Prop} (hagain : Triple (Rests K mem) (again a) S E)
    (hrest : ∀ b, Triple (S b) (untilClear fw pages ended again fuel b) Q E) :
    Triple (Rests K mem) (untilClear fw pages ended again (fuel + 1) a) Q E := by
  rintro s ⟨hw, rfl⟩
  have hdirty : ¬ (ended a = true ∨ VerifyZeroMem s.mem (pages <<< EFI_PAGE_SHIFT) a = false) := by
    rintro (hend | hzero)
    · rw [hended] at hend
      cases hend
    · exact hbad (.inl hzero)
  obtain ⟨hok, hw'⟩ := hfree s.firmware hw
  unfold untilClear
  rw [get_bind, if_neg hdirty, if_neg fun hown => hbad (.inr hown), call_bind,
    bind_of_ok (check_of_ok hok)]
  exact Triple.bind hagain hrest _ ⟨hw', rfl⟩

end

/-! ## The search ends -/

/-- An early return is one with an error. -/
def Errs (e : Exit) (_ : LoaderState σ) : Prop := e.IsError

section
variable {fw : Firmware σ} {map : List Descriptor} {pages : UINTN} {OldAllocatedMemory : UINT64}
  {mem : ByteMem} {search : UINT64 → Boot σ UINT64} {f : UINT64 → UINT64}
  {ended giveUp : UINT64 → Bool} {fuel : Nat}

/-- The firmware is in any state and memory is `mem`. -/
abbrev Holds (mem : ByteMem) : LoaderState σ → Prop := Rests (fun _ => True) mem

theorem errs_of_short {F n : Nat} (h : n < F) (e : Exit) (s : LoaderState σ) (hs : Short F n e s) :
    Errs e s :=
  absurd hs.2 (Nat.not_le.mpr h)

/-- `AllocatePages` finds the pages, in conventional memory, or does not. -/
def Answered (map : List Descriptor) (a : UINT64) (BootStatus : EFI_STATUS) : Prop :=
  BootStatus = EFI_NOT_FOUND ∨ BootStatus = EFI_SUCCESS ∧ Conventional map a

/-- What a search loop that started at `a` stops at after at most `rounds`
rounds. -/
structure StopsAt (map : List Descriptor) (g : UINT64 → UINT64) (ended giveUp : UINT64 → Bool)
    (rounds : Nat) (BootStatus : EFI_STATUS) (a b : UINT64) : Prop where
  tried : ∃ j ≤ rounds, b = g^[j] a ∧
    (j = 0 → BootStatus = EFI_SUCCESS ∨ ended a = true) ∧ (0 < j → giveUp b = false)
  granted : Conventional map b ∨ ended b = true

theorem StopsAt.here {g : UINT64 → UINT64} {rounds : Nat} {BootStatus : EFI_STATUS} {a : UINT64}
    (hst : Answered map a BootStatus) (hgo : BootStatus = EFI_SUCCESS ∨ ended a = true) :
    StopsAt map g ended giveUp rounds BootStatus a a := by
  refine ⟨⟨0, Nat.zero_le _, rfl, fun _ => hgo, fun h => absurd h (Nat.lt_irrefl 0)⟩, ?_⟩
  rcases hgo with rfl | hend
  · exact .inl (hst.resolve_left (by decide)).2
  · exact .inr hend

theorem StopsAt.next {g : UINT64 → UINT64} {rounds : Nat} {BootStatus BootStatus' : EFI_STATUS}
    {a b : UINT64} (h : StopsAt map g ended giveUp rounds BootStatus' (g a) b)
    (hup : giveUp (g a) = false) : StopsAt map g ended giveUp (rounds + 1) BootStatus a b := by
  obtain ⟨j, hj, rfl, _, hnext⟩ := h.tried
  refine ⟨⟨j + 1, Nat.succ_le_succ hj, rfl, fun h0 => absurd h0 (Nat.succ_ne_zero j), fun _ => ?_⟩,
    h.granted⟩
  cases j with
  | zero => exact hup
  | succ j => exact hnext (Nat.succ_pos j)

/-- A search loop ends by the time its addresses reach a stop. -/
theorem allocateAt_ends (hfw : SearchFirmware fw map pages) {F n : Nat}
    (hs : Finds search f (fun _ => True) mem F n) (hF : n < F) {rounds : Nat} (hfuel : rounds < fuel)
    {BootStatus : EFI_STATUS} {a : UINT64} (hst : Answered map a BootStatus)
    (hstop : ended ((passOver OldAllocatedMemory f)^[rounds] a) = true ∨
      0 < rounds ∧ giveUp ((passOver OldAllocatedMemory f)^[rounds] a) = true) :
    Triple (Holds mem)
      (allocateAt fw search pages OldAllocatedMemory ended giveUp fuel BootStatus a)
      (fun b s => StopsAt map (passOver OldAllocatedMemory f) ended giveUp rounds BootStatus a b ∧
        Holds mem s) Errs := by
  induction rounds generalizing fuel BootStatus a with
  | zero =>
    obtain ⟨fuel, rfl⟩ := Nat.exists_eq_add_of_lt hfuel
    have hend : ended a = true := hstop.resolve_right fun h => absurd h.1 (Nat.lt_irrefl 0)
    refine (allocateAt_stop (.inr hend)).post fun b s h => ?_
    obtain ⟨rfl, hrests⟩ := h
    exact ⟨.here hst (.inr hend), hrests⟩
  | succ rounds ih =>
    obtain ⟨fuel, rfl⟩ := Nat.exists_eq_add_of_lt (Nat.lt_of_le_of_lt (Nat.zero_le _) hfuel)
    rw [Nat.zero_add] at hfuel ⊢
    by_cases hgo : BootStatus = EFI_SUCCESS ∨ ended a = true
    · refine (allocateAt_stop hgo).post fun b s h => ?_
      obtain ⟨rfl, hrests⟩ := h
      exact ⟨.here hst hgo, hrests⟩
    · have hnot : BootStatus = EFI_NOT_FOUND := hst.resolve_right fun h => hgo (.inl h.1)
      have hend : ended a = false := Bool.eq_false_iff.mpr fun h => hgo (.inr h)
      subst hnot
      refine allocateAt_round hs (errs_of_short hF) hend (fun _ _ => ?_)
        (S := fun st s => Answered map (passOver OldAllocatedMemory f a) st ∧ Holds mem s)
        (fun s h => ⟨hfw.grants _ s.firmware, trivial, h.2⟩) fun hup st s h => ?_
      · show EFI_ERROR EFI_NOT_FOUND = true
        decide
      have hstop' : ended ((passOver OldAllocatedMemory f)^[rounds] (passOver OldAllocatedMemory f a)) =
          true ∨ 0 < rounds ∧
            giveUp ((passOver OldAllocatedMemory f)^[rounds] (passOver OldAllocatedMemory f a)) = true := by
        refine hstop.imp id fun hgive => ?_
        cases rounds with
        | zero =>
          have hyes : giveUp (passOver OldAllocatedMemory f a) = true := hgive.2
          rw [hup] at hyes
          cases hyes
        | succ rounds => exact ⟨Nat.succ_pos _, hgive.2⟩
      exact (ih (Nat.lt_of_succ_lt_succ hfuel) h.1 hstop').post
        (fun b t ht => ⟨ht.1.next hup, ht.2⟩) s h.2

/-- The region search gives back what it finds only to go up. -/
theorem untilClear_ends (hfw : SearchFirmware fw map pages) {again : UINT64 → Boot σ UINT64}
    (hagain : ∀ a, a ≠ noAddress →
      Triple (Holds mem) (again a) (fun b s => belowTop b < belowTop a ∧ Holds mem s) Errs)
    {a : UINT64} (hfuel : belowTop a < fuel) :
    Triple (Holds mem) (untilClear fw pages (· == noAddress) again fuel a)
      (fun _ s => Holds mem s) Errs := by
  induction fuel generalizing a with
  | zero => exact absurd hfuel (Nat.not_lt_zero _)
  | succ fuel ih =>
    by_cases hgo : (a == noAddress) = true ∨ Accepts pages mem a
    · exact (untilClear_stop hgo).post fun _ _ h => h.2
    · have hend : (a == noAddress) = false := Bool.eq_false_iff.mpr fun h => hgo (.inl h)
      refine untilClear_round (a := a) hend (fun h => hgo (.inr h))
        (fun w _ => ⟨hfw.frees a w, trivial⟩) (hagain a (ne_of_beq_false hend)) fun b s hb => ?_
      have hup := hb.1
      exact ih (by omega) s hb.2

theorem regions_reach_top (fuel : Nat) (map : List Descriptor) (pages : UINTN) (hfuel : 2 ^ 64 ≤ fuel) {a : UINT64}
    (ha : a ≠ noAddress) : ∃ rounds, 0 < rounds ∧ rounds < fuel ∧
      ((nextRegion map pages firstAddress)^[rounds] a == noAddress) = true := by
  refine ⟨belowTop a, Nat.pos_of_ne_zero fun h => ha (belowTop_zero.mp h), ?_,
    beq_iff_eq.mpr (nextRegion_iterate_top map pages firstAddress a)⟩
  unfold belowTop
  omega

theorem allocateAt_up (hfw : SearchFirmware fw map pages) (hfuel : 2 ^ 64 + map.length < fuel)
    {a : UINT64} (ha : a ≠ noAddress) :
    Triple (Holds mem)
      (allocateAt fw (ActuallyFreeAddress fw fuel pages) pages firstAddress (· == noAddress)
        (fun _ => false) fuel EFI_NOT_FOUND a)
      (fun b s => belowTop b < belowTop a ∧ Holds mem s) Errs := by
  obtain ⟨size, hshows⟩ := hfw.shows
  obtain ⟨rounds, _, hfew, htop⟩ := regions_reach_top fuel map pages (by omega) ha
  refine (allocateAt_ends hfw (ActuallyFreeAddress_finds hshows fuel pages mem) (by omega) hfew
    (.inl rfl) (.inl htop)).post fun b _ h => ⟨?_, h.2⟩
  obtain ⟨j, _, hb, hzero, _⟩ := h.1.tried
  have hpos : 0 < j := by
    refine Nat.pos_of_ne_zero fun h0 => ?_
    rcases hzero h0 with hsuccess | hend
    · exact absurd hsuccess (by decide)
    · exact ha (eq_of_beq hend)
  have hup := nextRegion_iterate_up map pages firstAddress a j
  have hlow : belowTop a ≠ 0 := fun h0 => ha (belowTop_zero.mp h0)
  rw [hb]
  show belowTop ((nextRegion map pages firstAddress)^[j] a) < belowTop a
  omega

/-- The region search ends. If no region it can be granted is given back, it
ends with one. -/
theorem searchRegions_ends (hfw : SearchFirmware fw map pages) (hfuel : 2 ^ 64 + map.length < fuel) :
    Triple (Holds mem) (searchRegions fw fuel pages firstAddress)
      (fun b s => (RegionsClear map pages mem → b ≠ noAddress) ∧ Holds mem s) Errs := by
  obtain ⟨size, hshows⟩ := hfw.shows
  have hlen : map.length < fuel := by omega
  obtain ⟨rounds, hpos, hfew, htop⟩ :=
    regions_reach_top fuel map pages (by omega) (show (0 : UINT64) ≠ noAddress by decide)
  refine Triple.bind (R := fun st s => Answered map 0 st ∧ Holds mem s)
    (fun s hs => ⟨hfw.grants 0 s.firmware, trivial, hs.2⟩) fun st s hs => ?_
  refine Triple.bind (allocateAt_ends hfw (ActuallyFreeAddress_finds hshows fuel pages mem) hlen hfew
    hs.1 (.inr ⟨hpos, htop⟩)) (fun a t ht => ?_) s hs.2
  obtain ⟨hstops, hrests⟩ := ht
  obtain ⟨k, _, hk, _, hnext⟩ := hstops.tried
  have hne : a ≠ noAddress := by
    cases k with
    | zero =>
      rw [hk]
      show (0 : UINT64) ≠ noAddress
      decide
    | succ k => exact ne_of_beq_false (hnext (Nat.succ_pos k))
  have hconv : Conventional map a := hstops.granted.resolve_right (by decide)
  by_cases haccept : Accepts pages mem a
  · obtain ⟨fuel, rfl⟩ := Nat.exists_eq_add_of_lt hlen
    exact (untilClear_stop (.inr haccept)).post
      (fun b _ h => ⟨fun _ => by rw [h.1]; exact hne, h.2⟩) t hrests
  · have hdirty : ¬ RegionsClear map pages mem := fun hclear =>
      haccept (by rw [hk] at hne hconv ⊢; exact hclear k hne hconv)
    have hbelow : belowTop a < fuel := by
      unfold belowTop
      omega
    exact (untilClear_ends hfw (fun b hb => allocateAt_up hfw hfuel hb) hbelow).post
      (fun _ _ h => ⟨fun hclear => absurd hclear hdirty, h⟩) t hrests

/-- The page-by-page search ends if it reaches `~0` and gives back nothing. -/
theorem searchPages_ends (hfw : SearchFirmware fw map pages) {n : Nat}
    (hend : pageTried map pages n = noAddress)
    (hclear : ∀ j < n, Conventional map (pageTried map pages j) →
      Accepts pages mem (pageTried map pages j))
    (hfuel : n + 1 < fuel) (hlen : map.length < fuel) :
    Triple (Holds mem) (searchPages fw fuel pages firstAddress) (fun _ s => Holds mem s) Errs := by
  obtain ⟨size, hshows⟩ := hfw.shows
  have hfinds := ActuallyFreeAddressByPage_finds hshows fuel pages mem
  refine Triple.bind ((ActuallyFreeAddress_finds hshows fuel pages mem 0).early
    (errs_of_short hlen)) fun start s hs => ?_
  obtain ⟨rfl, hrests⟩ := hs
  have hup : ((nextPage map pages firstAddress)^[n + 1] (regionAfter map pages 0) == noAddress) = true :=
    beq_iff_eq.mpr hend
  refine Triple.bind (allocateAt_ends hfw hfinds hlen hfuel (.inl rfl)
    (.inr ⟨Nat.succ_pos n, hup⟩)) (fun a t ht => ?_) s hrests
  obtain ⟨hstops, hrests⟩ := ht
  obtain ⟨k, hk, ha, hzero, hnext⟩ := hstops.tried
  have hconv : Conventional map a := hstops.granted.resolve_right (by decide)
  have haccept : Accepts pages mem a := by
    cases k with
    | zero => exact absurd (hzero rfl) (by decide)
    | succ j =>
      have hne : a ≠ noAddress := ne_of_beq_false (hnext (Nat.succ_pos j))
      have hj : j < n := by
        refine Nat.lt_of_le_of_ne (Nat.le_of_succ_le_succ hk) fun hjn => hne ?_
        rw [ha, hjn]
        exact hend
      rw [ha] at hconv ⊢
      exact hclear j hj hconv
  obtain ⟨fuel, rfl⟩ := Nat.exists_eq_add_of_lt hlen
  exact (untilClear_stop (.inr haccept)).post (fun _ _ h => h.2) t hrests

/-- The search ends where no region, or no page address, is given back. -/
theorem searchMemory_ends (hfw : SearchFirmware fw map pages)
    (hclear : RegionsClear map pages mem ∨ PagesClear map pages mem) {s : LoaderState σ}
    (hmem : s.mem = mem) : Finishes fw pages s := by
  obtain ⟨n, hn⟩ : ∃ n, RegionsClear map pages mem ∨ pageTried map pages n = noAddress ∧
      ∀ j < n, Conventional map (pageTried map pages j) → Accepts pages mem (pageTried map pages j) := by
    rcases hclear with hregions | ⟨n, hn⟩
    · exact ⟨0, .inl hregions⟩
    · exact ⟨n, .inr hn⟩
  refine ⟨2 ^ 64 + map.length + n + 2, fun fuel hfuel => ?_⟩
  have hrun : Triple (Holds mem) (searchMemory fw fuel pages) (fun _ _ => True) Errs := by
    refine Triple.bind (R := fun st s => EFI_ERROR st = false ∧ Holds mem s)
      (fun t ht => ⟨hfw.frees _ t.firmware, trivial, ht.2⟩) fun st => ?_
    refine Triple.bind check_runs.triple fun _ => ?_
    refine Triple.bind (searchRegions_ends hfw (by omega)) fun b t ht => ?_
    refine Triple.ite (P := fun t' => t' = t) (fun hb => ?_)
      (fun _ => Triple.pure fun _ _ => trivial) t rfl
    obtain ⟨hend, hpages⟩ := hn.resolve_left fun hregions => ht.1 hregions hb
    rintro t' rfl
    exact (searchPages_ends hfw hend hpages (by omega) (by omega)).post (fun _ _ _ => trivial) t' ht.2
  exact hrun s ⟨trivial, hmem⟩

end

end PiousOS.Loader
