import PiousOS.L3Loader.PageCandidates

/-!
# The regions the search goes through (`ActuallyFreeAddress`)

`ActuallyFreeAddress` takes the first region of the map above the last
address, in the map's order, and keeps nothing else between calls. Asked again
and again it goes through the records of the list of starts: a region listed
behind a higher one is passed over for good.

Results:
* `regionAfter_eq`: a call answers the first suitable start above the address.
* `ActuallyFreeAddress_visits`: repeated calls visit the records, ascending.
* `ActuallyFreeAddress_visits_each_iff`: they visit every suitable region
  exactly if the map lists these in ascending order.
-/
namespace PiousOS.Loader
open EarlyExit Enumeration

variable {σ : Type}

/-- A region the search can answer with. -/
def Suitable (pages : UINT64) (d : Descriptor) : Prop :=
  d.type = EfiConventionalMemory ∧ pages ≤ d.NumberOfPages ∧ 0 < d.PhysicalStart

instance (pages : UINT64) (d : Descriptor) : Decidable (Suitable pages d) :=
  inferInstanceAs (Decidable (_ ∧ _ ∧ _))

/-- The starts of the suitable regions, in the map's order. -/
def regionStarts (map : List Descriptor) (pages : UINT64) : List UINT64 :=
  (map.filter fun d => Suitable pages d).map Descriptor.PhysicalStart

local instance (priority := low) addressOrder' : LinearOrder UINT64 := addressOrder

section
variable {map : List Descriptor} {pages : UINT64}

theorem mem_regionStarts {x : UINT64} :
    x ∈ regionStarts map pages ↔ ∃ d ∈ map, Suitable pages d ∧ d.PhysicalStart = x := by
  simp only [regionStarts, List.mem_map, List.mem_filter, decide_eq_true_eq, and_assoc]

/-- A descriptor answers if it is suitable and starts above the address. -/
theorem regionStart_eq (OldAddress : UINT64) (d : Descriptor) :
    regionStart pages OldAddress d =
      if Suitable pages d ∧ OldAddress < d.PhysicalStart then some d.PhysicalStart else none := by
  refine if_congr ?_ rfl rfl
  constructor
  · rintro ⟨hconv, hroom, hup⟩
    have hlt := BitVec.lt_def.mp hup
    have hpos : 0 < d.PhysicalStart := BitVec.lt_def.mpr (Nat.lt_of_le_of_lt (Nat.zero_le _) hlt)
    exact ⟨⟨hconv, hroom, hpos⟩, hup⟩
  · rintro ⟨⟨hconv, hroom, -⟩, hup⟩
    exact ⟨hconv, hroom, hup⟩

theorem findSome?_regionStart (map : List Descriptor) (OldAddress : UINT64) :
    map.findSome? (regionStart pages OldAddress) =
      (regionStarts map pages).find? (OldAddress < ·) := by
  induction map with
  | nil => rfl
  | cons d map ih =>
    rw [List.findSome?_cons, regionStart_eq]
    unfold regionStarts at ih ⊢
    by_cases hsuit : Suitable pages d
    · rw [List.filter_cons_of_pos (by simpa using hsuit), List.map_cons, List.find?_cons]
      by_cases hup : OldAddress < d.PhysicalStart
      · rw [if_pos ⟨hsuit, hup⟩, decide_eq_true hup]
      · rw [if_neg (fun h => hup h.2), decide_eq_false hup]
        exact ih
    · rw [List.filter_cons_of_neg (by simpa using hsuit), if_neg (fun h => hsuit h.1)]
      exact ih

/-- A call answers the first suitable start above the address. -/
theorem regionAfter_eq (map : List Descriptor) (pages OldAddress : UINT64) :
    regionAfter map pages OldAddress = firstAbove (regionStarts map pages) noAddress OldAddress := by
  rw [regionAfter, firstAnswer, findSome?_regionStart, firstAbove]

end

/-! ## Repeated calls -/

/-- Every suitable region's start is in `l` exactly once. -/
def VisitsEach (map : List Descriptor) (pages : UINT64) (l : List UINT64) : Prop :=
  ∀ d ∈ map, Suitable pages d → l.count d.PhysicalStart = 1

/-- Each suitable start exceeds all that are listed before it, and none is
`~0`. -/
def RegionsAscend (map : List Descriptor) (pages : UINT64) : Prop :=
  ∀ x ∈ regionStarts map pages, x ≠ noAddress ∧ Record (regionStarts map pages) x

/-- No address lies in two descriptors. -/
def DisjointRanges (map : List Descriptor) : Prop :=
  map.Pairwise fun d e => ∀ x : Nat,
    ¬ ((d.PhysicalStart.toNat ≤ x ∧ x < d.PhysicalStart.toNat + d.NumberOfPages.toNat * 4096) ∧
      (e.PhysicalStart.toNat ≤ x ∧ x < e.PhysicalStart.toNat + e.NumberOfPages.toNat * 4096))

section
variable {map : List Descriptor} {pages : UINT64}

/-- Disjoint regions of at least one page do not start at one address. -/
theorem regionStarts_nodup (hdisjoint : DisjointRanges map) (hpages : 0 < pages.toNat) :
    (regionStarts map pages).Nodup := by
  refine List.pairwise_map.mpr ?_
  have hsub : (map.filter fun d => Suitable pages d).Sublist map := List.filter_sublist
  refine (hdisjoint.sublist hsub).imp_of_mem fun {d e} hd he hapart hsame => ?_
  have hroom : ∀ c ∈ map.filter (fun d => Suitable pages d), 0 < c.NumberOfPages.toNat := by
    intro c hc
    have hsuit : Suitable pages c := by simpa using (List.mem_filter.mp hc).2
    have hle := BitVec.le_def.mp hsuit.2.1
    omega
  have h1 := hroom d hd
  have h2 := hroom e he
  refine hapart d.PhysicalStart.toNat ⟨⟨Nat.le_refl _, by omega⟩, ?_⟩
  rw [hsame]
  exact ⟨Nat.le_refl _, by omega⟩

theorem regionsAscend_iff (hdisjoint : DisjointRanges map) (hpages : 0 < pages.toNat) :
    RegionsAscend map pages ↔
      (regionStarts map pages).Pairwise (· < ·) ∧ noAddress ∉ regionStarts map pages := by
  have hall := forall_record_iff (regionStarts_nodup hdisjoint hpages)
  constructor
  · intro h
    exact ⟨hall.mp fun x hx => (h x hx).2, fun htop => (h _ htop).1 rfl⟩
  · intro h x hx
    refine ⟨fun htop => ?_, hall.mpr h.1 x hx⟩
    rw [htop] at hx
    exact h.2 hx

theorem le_noAddress (a : UINT64) : a ≤ noAddress := by
  have := a.isLt
  rw [BitVec.le_def, noAddress_toNat]
  omega

/-- The list of records above 0 has each suitable start once exactly if all of
them are records. -/
theorem visitsEach_iff {l : List UINT64} (hasc : l.Pairwise (· < ·))
    (hmem : ∀ b, b ∈ l ↔ (Record (regionStarts map pages) b ∧ b ≠ noAddress) ∧ 0 < b) :
    VisitsEach map pages l ↔ RegionsAscend map pages := by
  have hnodup : l.Nodup := hasc.imp fun hlt => BitVec.ne_of_lt hlt
  constructor
  · intro h x hx
    obtain ⟨d, hd, hsuit, rfl⟩ := mem_regionStarts.mp hx
    have hin : d.PhysicalStart ∈ l := by
      apply List.count_pos_iff.mp
      rw [h d hd hsuit]
      exact Nat.one_pos
    have hrec := ((hmem _).mp hin).1
    exact ⟨hrec.2, hrec.1⟩
  · intro h d hd hsuit
    have hx := h _ (mem_regionStarts.mpr ⟨d, hd, hsuit, rfl⟩)
    exact List.count_eq_one_of_mem hnodup ((hmem _).mpr ⟨⟨hx.2, hx.1⟩, hsuit.2.2⟩)

end

section
variable {fw : Firmware σ} {map : List Descriptor} {size : UINTN} {K : σ → Prop}

/-- Repeated calls from 0 visit the records, ascending, and then answer `~0`. -/
theorem ActuallyFreeAddress_visits (h : ShowsMap fw map size K) (pages : UINT64) {fuel : Nat}
    (hfuel : map.length < fuel) {s : LoaderState σ} (hs : K s.firmware) {rounds : Nat}
    (hrounds : 2 ^ 64 ≤ rounds) :
    ∃ l s', visitAll (ActuallyFreeAddress fw fuel pages) rounds 0 s = .ok l s' ∧
      l.Pairwise (· < ·) ∧
      ∀ b, b ∈ l ↔ (Record (regionStarts map pages) b ∧ b ≠ noAddress) ∧ 0 < b := by
  have hcalls : ∀ a, Runs (Rests K s.mem) (ActuallyFreeAddress fw fuel pages a)
      fun b t => b = regionAfter map pages a ∧ Rests K s.mem t :=
    fun a => (ActuallyFreeAddress_finds h fuel pages s.mem a).early
      fun e t hshort => absurd hshort.2 (by omega)
  have hnext : NextTarget (regionAfter map pages) noAddress (fun _ => True)
      fun b => Record (regionStarts map pages) b ∧ b ≠ noAddress := by
    have hsame : regionAfter map pages = firstAbove (regionStarts map pages) noAddress :=
      funext (regionAfter_eq map pages)
    rw [hsame]
    exact firstAbove_next le_noAddress
  have hbound : belowTop 0 < rounds := by
    have hz : (0 : UINT64).toNat = 0 := rfl
    unfold belowTop
    omega
  obtain ⟨l, hl, hasc, hmem⟩ := hnext.visits belowTop_falls trivial hbound
  obtain ⟨l', s', hrun, rfl, -⟩ := (visitAll_runs hcalls hl).ok ⟨hs, rfl⟩
  exact ⟨l', s', hrun, hasc, hmem⟩

end

/-- **The region search visits every region only where the map ascends.** On
a map that stays and is still in its pool when the pool has been freed,
repeated calls from 0 end, and before `~0` each suitable region is visited
once exactly if each suitable start exceeds all that are listed before it. For
disjoint descriptors and at least one page that is: exactly if the suitable
regions are listed in ascending order. -/
theorem ActuallyFreeAddress_visits_each_iff (fw : Firmware σ) (map : List Descriptor) (size : UINTN)
    (K : σ → Prop) (hfw : ShowsMap fw map size K) (pages : UINT64) (fuel : Nat)
    (hfuel : map.length < fuel) (s : LoaderState σ) (hs : K s.firmware) (rounds : Nat)
    (hrounds : 2 ^ 64 ≤ rounds) :
    ∃ l s', visitAll (ActuallyFreeAddress fw fuel pages) rounds 0 s = .ok l s' ∧
      (VisitsEach map pages l ↔ RegionsAscend map pages) ∧
      (DisjointRanges map → 0 < pages.toNat →
        (VisitsEach map pages l ↔
          (regionStarts map pages).Pairwise (· < ·) ∧ noAddress ∉ regionStarts map pages)) := by
  obtain ⟨l, s', hrun, hasc, hmem⟩ := ActuallyFreeAddress_visits hfw pages hfuel hs hrounds
  have hiff := visitsEach_iff hasc hmem
  exact ⟨l, s', hrun, hiff, fun hdisjoint hpages => hiff.trans (regionsAscend_iff hdisjoint hpages)⟩

/-- Four pages at 0x1000 and eight at 0x8000, in this order. -/
def twoRegions : List Descriptor :=
  [⟨EfiConventionalMemory, 0x1000, 4⟩, ⟨EfiConventionalMemory, 0x8000, 8⟩]

theorem ActuallyFreeAddress_visits_each_two :
    ∃ l s', visitAll (ActuallyFreeAddress (scripted twoRegions) 3 2) (2 ^ 64) 0
        (scriptStart [] fun _ => 0) = .ok l s' ∧ VisitsEach twoRegions 2 l := by
  have hstarts : regionStarts twoRegions 2 = [0x1000, 0x8000] := by decide
  have hfw : ShowsMap (scripted twoRegions) twoRegions (mapSize twoRegions) fun _ => True :=
    scripted_shows (by decide) _
  obtain ⟨l, s', hrun, hiff, -⟩ := ActuallyFreeAddress_visits_each_iff (scripted twoRegions) twoRegions
    (mapSize twoRegions) _ hfw 2 3 (by decide) (scriptStart [] fun _ => 0) trivial (2 ^ 64)
    (Nat.le_refl _)
  refine ⟨l, s', hrun, hiff.mpr fun x hx => ?_⟩
  rw [hstarts] at hx ⊢
  rcases List.mem_cons.mp hx with rfl | hx
  · exact ⟨by decide, [], [0x8000], rfl, by simp⟩
  · rw [List.mem_singleton.mp hx]
    exact ⟨by decide, [0x1000], [], rfl, by simp⟩

/-- Listed the other way round, the lower region is never visited. -/
theorem ActuallyFreeAddress_misses_lower :
    (∃ s', visitAll (ActuallyFreeAddress (scripted twoRegions.reverse) 3 2) 2 0
        (scriptStart [] fun _ => 0) = .ok [0x8000] s') ∧
      ¬ VisitsEach twoRegions.reverse 2 [0x8000] := by
  have hfw : ShowsMap (scripted twoRegions.reverse) twoRegions.reverse (mapSize twoRegions.reverse)
      fun _ => True := scripted_shows (by decide) _
  have hcalls : ∀ a, Runs (Rests (fun _ => True) fun _ => 0)
      (ActuallyFreeAddress (scripted twoRegions.reverse) 3 2 a)
      fun b t => b = regionAfter twoRegions.reverse 2 a ∧ Rests (fun _ => True) (fun _ => 0) t :=
    fun a => (ActuallyFreeAddress_finds hfw 3 2 (fun _ => 0) a).early
      fun e t hshort => absurd hshort.2 (by decide)
  have hvisits : visits (regionAfter twoRegions.reverse 2) noAddress 2 0 = some [0x8000] := by decide
  obtain ⟨l, s', hrun, rfl, -⟩ := (visitAll_runs hcalls hvisits).ok
    (s := scriptStart [] fun _ => 0) ⟨trivial, rfl⟩
  refine ⟨⟨s', hrun⟩, fun heach => ?_⟩
  have hcount := heach ⟨EfiConventionalMemory, 0x1000, 4⟩ (by decide) (by decide)
  exact absurd hcount (by decide)

end PiousOS.Loader
