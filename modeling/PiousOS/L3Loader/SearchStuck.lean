import PiousOS.L3Loader.SearchEnds

/-!
# A firmware the search cannot leave

`scripted map` finds pages only for the addresses of a script, one after the
other. A script that lets the search give back a region, run through the rest
and give back a page address leaves it in the inner loop of the page-by-page
search, which then asks for ever.

* `allocateAt_follows`, `allocateAt_forever`: a search loop finds the next
  address of the script, and does not end without one;
* `searchPages_stuck`: the inner loop does not end once it is entered;
* `searchPages_endless`: a page-by-page search that never reaches `~0` does
  not end either;
* `search_ends_iff`: otherwise the search ends, on every firmware.
-/
namespace PiousOS.Loader
open EarlyExit Strided

/-! ## The script -/

/-- The answer to a request for pages at `a`. -/
def follow (map : List Descriptor) (a : UINT64) : List UINT64 → EFI_STATUS × List UINT64
  | [] => (EFI_NOT_FOUND, [])
  | next :: rest =>
    if a = next then (if Conventional map a then EFI_SUCCESS else EFI_NOT_FOUND, rest)
    else (EFI_NOT_FOUND, next :: rest)

def mapSize (map : List Descriptor) : UINTN := BitVec.ofNat 64 (48 * map.length)

/-- The map at `MemMap`; only its size if there is no buffer. -/
def showMap (map : List Descriptor) (MemMap : UINT64) : MemoryMapReply :=
  if MemMap = 0 then ⟨EFI_BUFFER_TOO_SMALL, mapSize map, 0, 48, 1, fun _ => 0⟩
  else ⟨EFI_SUCCESS, mapSize map, 0, 48, 1, mapBytes MemMap map⟩

/-- The firmware that follows a script; its pool is at 64 KiB. -/
def scripted (map : List Descriptor) : Firmware (List UINT64) where
  OpenProtocol w := (EFI_SUCCESS, w)
  OpenVolume w := (EFI_SUCCESS, w)
  Open w := (EFI_SUCCESS, w)
  GetInfo size w := ((EFI_SUCCESS, size), w)
  SetPosition _ w := (EFI_SUCCESS, w)
  Read _ w := (EFI_SUCCESS, w)
  AllocatePool _ w := ((EFI_SUCCESS, 0x10000), w)
  FreePool _ w := (EFI_SUCCESS, w)
  AllocatePages _ a w := follow map a w
  FreePages _ _ w := (EFI_SUCCESS, w)
  GetMemoryMap _ MemMap w := (showMap map MemMap, w)
  ExitBootServices _ w := (EFI_SUCCESS, w)
  tableFrames w := (fun _ => none, w)
  strayWrites _ mem := mem
  freedContents _ := mapBytes 0x10000 map
  cr3 := 0x80000

section
variable {map : List Descriptor} {pages : UINTN} {mem : ByteMem}

theorem scripted_shows (hfits : 0x10000 + 48 * map.length < 2 ^ 64) (K : List UINT64 → Prop) :
    ShowsMap (scripted map) map (mapSize map) K := by
  have hbase : (0x10000 : UINT64).toNat = 0x10000 := rfl
  have hstride : (48 : UINT64).toNat = 48 := rfl
  have hsize : (mapSize map).toNat = map.length * 48 := by
    rw [mapSize, BitVec.toNat_ofNat]
    omega
  have hentries : ∀ i (hi : i < map.length),
      descriptorAt (mapBytes 0x10000 map) (element 0x10000 48 i) = map[i] :=
    fun i hi => descriptorAt_mapBytes (by rw [hbase]; exact hfits) hi
  have hlists : ListsMap map 0x10000 (showMap map 0x10000) := by
    refine ⟨?_, ?_, ?_, hentries⟩
    · show 0 < (48 : UINT64).toNat
      decide
    · show (mapSize map).toNat = map.length * (48 : UINT64).toNat
      rw [hsize, hstride]
    · show (0x10000 : UINT64).toNat + (mapSize map).toNat < 2 ^ 64
      rw [hbase, hsize]
      omega
  exact ⟨fun w hw => ⟨rfl, rfl, hw⟩, fun w _ => EFI_ERROR_success,
    fun w hw => ⟨EFI_ERROR_success, hlists, hw⟩,
    fun w hw => ⟨hw, fun i hi => congrArg Descriptor.PhysicalStart (hentries i hi)⟩⟩

theorem follow_answered (a : UINT64) (w : List UINT64) : Answered map a (follow map a w).1 := by
  cases w with
  | nil => exact .inl rfl
  | cons next rest =>
    rw [follow]
    by_cases ha : a = next
    · rw [if_pos ha]
      by_cases hconv : Conventional map a
      · exact .inr ⟨if_pos hconv, hconv⟩
      · exact .inl (if_neg hconv)
    · rw [if_neg ha]
      exact .inl rfl

theorem scripted_frees (map : List Descriptor) (pages : UINTN) (a : UINT64) {w₀ : List UINT64} :
    ∀ w, w = w₀ → EFI_ERROR ((scripted map).FreePages a pages w).1 = false ∧
      ((scripted map).FreePages a pages w).2 = w₀ :=
  fun _ hw => ⟨EFI_ERROR_success, hw⟩

theorem scripted_searchFirmware (hfits : 0x10000 + 48 * map.length < 2 ^ 64) (pages : UINTN) :
    SearchFirmware (scripted map) map pages :=
  ⟨⟨mapSize map, scripted_shows hfits _⟩, fun _ _ => EFI_ERROR_success, follow_answered⟩

/-! ## Runs of the script -/

/-- What is left of the script. -/
abbrev Script (w : List UINT64) (mem : ByteMem) : LoaderState (List UINT64) → Prop :=
  Rests (fun v => v = w) mem

/-- The search is not over: no claim about the state. -/
def Searching (e : Exit) (_ : LoaderState (List UINT64)) : Prop := e = .searching

variable {search : UINT64 → Boot (List UINT64) UINT64} {f : UINT64 → UINT64} {F n : Nat}
  {OldAllocatedMemory : UINT64} {ended giveUp : UINT64 → Bool}

theorem searching_of_short (e : Exit) (s : LoaderState (List UINT64)) (h : Short F n e s) :
    Searching e s :=
  h.1

/-- The script's next address is answered, and done with. -/
theorem call_next (map : List Descriptor) (pages : UINTN) (x : UINT64) (rest : List UINT64) :
    Triple (Script (x :: rest) mem) (call ((scripted map).AllocatePages pages x))
      (fun st s => st = (if Conventional map x then EFI_SUCCESS else EFI_NOT_FOUND) ∧ Script rest mem s)
      Searching := by
  rintro s ⟨hw, hmem⟩
  have hanswer : follow map x s.firmware =
      (if Conventional map x then EFI_SUCCESS else EFI_NOT_FOUND, rest) := by
    rw [hw, follow, if_pos rfl]
  exact ⟨congrArg Prod.fst hanswer, congrArg Prod.snd hanswer, hmem⟩

theorem call_other (map : List Descriptor) (pages : UINTN) {a x : UINT64} (h : a ≠ x)
    (rest : List UINT64) :
    Triple (Script (x :: rest) mem) (call ((scripted map).AllocatePages pages a))
      (fun st s => st = EFI_NOT_FOUND ∧ Script (x :: rest) mem s) Searching := by
  rintro s ⟨hw, hmem⟩
  have hanswer : follow map a s.firmware = (EFI_NOT_FOUND, x :: rest) := by
    rw [hw, follow, if_neg h]
  exact ⟨congrArg Prod.fst hanswer, congrArg Prod.snd hanswer, hmem⟩

/-- A search loop goes on to the first address of the script among those it
tries. -/
theorem allocateAt_follows {x : UINT64} {rest : List UINT64}
    (hs : ∀ w, Finds search f (fun v => v = w) mem F n) (hx : Conventional map x ∨ ended x = true)
    {rounds : Nat} {a : UINT64} (hend : (passOver OldAllocatedMemory f)^[rounds + 1] a = x)
    (hfirst : ∀ i < rounds, (passOver OldAllocatedMemory f)^[i + 1] a ≠ x)
    (hgo : ∀ i ≤ rounds, ended ((passOver OldAllocatedMemory f)^[i] a) = false)
    (hup : ∀ i ≤ rounds, giveUp ((passOver OldAllocatedMemory f)^[i + 1] a) = false) (fuel : Nat) :
    Triple (Script (x :: rest) mem)
      (allocateAt (scripted map) search pages OldAllocatedMemory ended giveUp fuel EFI_NOT_FOUND a)
      (fun b s => b = x ∧ Script rest mem s) Searching := by
  induction fuel generalizing rounds a with
  | zero => exact Triple.throw fun _ _ => rfl
  | succ fuel ih =>
    have hended : ended a = false := hgo 0 (Nat.zero_le _)
    have hnext : giveUp (passOver OldAllocatedMemory f a) = false := hup 0 (Nat.zero_le _)
    have hgive : giveUp (passOver OldAllocatedMemory f a) = true →
        ∀ s, Searching (.returned EFI_NOT_FOUND) s :=
      fun hyes => absurd (hnext.symm.trans hyes) (by decide)
    cases rounds with
    | zero =>
      have hthere : passOver OldAllocatedMemory f a = x := hend
      refine allocateAt_round (hs _) searching_of_short hended hgive
        (by rw [hthere]; exact call_next map pages x rest) fun _ st s hs => ?_
      rw [hthere]
      cases fuel with
      | zero => exact rfl
      | succ fuel =>
        refine allocateAt_stop (hx.imp_left fun hconv => ?_) s hs.2
        rw [hs.1, if_pos hconv]
    | succ rounds =>
      have hthere : (passOver OldAllocatedMemory f)^[rounds + 1] (passOver OldAllocatedMemory f a) = x :=
        hend
      have hne : passOver OldAllocatedMemory f a ≠ x := hfirst 0 (Nat.succ_pos _)
      refine allocateAt_round (hs _) searching_of_short hended hgive (call_other map pages hne rest)
        fun _ st s hs => ?_
      obtain ⟨rfl, hs⟩ := hs
      refine ih hthere (fun i hi => ?_) (fun i hi => ?_) (fun i hi => ?_) s hs
      · exact hfirst (i + 1) (Nat.succ_lt_succ hi)
      · exact hgo (i + 1) (Nat.succ_le_succ hi)
      · exact hup (i + 1) (Nat.succ_le_succ hi)

/-- With nothing left of the script, a search loop whose addresses reach no
stop does not end. -/
theorem allocateAt_forever (hs : Finds search f (fun v => v = []) mem F n) {a : UINT64}
    (hgo : ∀ i, ended ((passOver OldAllocatedMemory f)^[i] a) = false)
    (hup : ∀ i, giveUp ((passOver OldAllocatedMemory f)^[i + 1] a) = false) (fuel : Nat) :
    Triple (Script [] mem)
      (allocateAt (scripted map) search pages OldAllocatedMemory ended giveUp fuel EFI_NOT_FOUND a)
      (fun _ _ => False) Searching := by
  induction fuel generalizing a with
  | zero => exact Triple.throw fun _ _ => rfl
  | succ fuel ih =>
    refine allocateAt_round (a := a) hs searching_of_short (hgo 0) (fun hyes => ?_)
      (S := fun st s => st = EFI_NOT_FOUND ∧ Script [] mem s) (fun s hs => ?_) fun _ st s hs => ?_
    · exact absurd ((hup 0).symm.trans hyes) (by decide)
    · obtain ⟨hw, hmem⟩ := hs
      show (follow map _ s.firmware).1 = EFI_NOT_FOUND ∧ (follow map _ s.firmware).2 = [] ∧ s.mem = mem
      rw [hw]
      exact ⟨rfl, rfl, hmem⟩
    · obtain ⟨rfl, hs⟩ := hs
      exact ih (fun i => hgo (i + 1)) (fun i => hup (i + 1)) s hs

/-! ## The search on a script -/

theorem regionTried_below {k : Nat} (hk : regionTried map pages k ≠ noAddress) {i : Nat} (hi : i ≤ k) :
    regionTried map pages i ≠ noAddress := by
  intro htop
  obtain ⟨d, rfl⟩ := Nat.exists_eq_add_of_le hi
  have hup := nextRegion_iterate_up map pages firstAddress (regionTried map pages i) d
  rw [belowTop_zero.mpr htop, Nat.zero_sub, Nat.le_zero, belowTop_zero, regionTried,
    ← Function.iterate_add_apply, Nat.add_comm d i] at hup
  exact hk hup

theorem firstLoop_follows (hfits : 0x10000 + 48 * map.length < 2 ^ 64) {k : Nat} {x : UINT64}
    (hk : regionTried map pages k = x) (hx : x ≠ noAddress) (hconv : Conventional map x)
    (hfirst : ∀ i < k, regionTried map pages i ≠ x) (rest : List UINT64) (fuel : Nat) :
    Triple (Script (x :: rest) mem)
      (call ((scripted map).AllocatePages pages 0) >>= fun st =>
        allocateAt (scripted map) (ActuallyFreeAddress (scripted map) fuel pages) pages firstAddress
          (fun _ => false) (· == noAddress) fuel st 0)
      (fun b s => b = x ∧ Script rest mem s) Searching := by
  cases k with
  | zero =>
    have h0 : (0 : UINT64) = x := hk
    subst h0
    refine Triple.bind (call_next map pages 0 rest) fun st s hs => ?_
    cases fuel with
    | zero => exact rfl
    | succ fuel =>
      refine allocateAt_stop (.inl ?_) s hs.2
      rw [hs.1, if_pos hconv]
  | succ k =>
    have h0 : (0 : UINT64) ≠ x := hfirst 0 (Nat.succ_pos k)
    have hbelow : ∀ i ≤ k, (regionTried map pages (i + 1) == noAddress) = false := by
      intro i hi
      rw [← hk] at hx
      exact beq_eq_false_iff_ne.mpr (regionTried_below hx (Nat.succ_le_succ hi))
    refine Triple.bind (call_other map pages h0 rest) fun st s hs => ?_
    obtain ⟨rfl, hs⟩ := hs
    exact allocateAt_follows (fun w => ActuallyFreeAddress_finds (scripted_shows hfits _) fuel pages mem)
      (.inl hconv) hk (fun i hi => hfirst (i + 1) (by omega)) (fun _ _ => rfl) hbelow fuel s hs

/-- Behind a region that is given back, the loop runs to `~0`. -/
theorem secondLoop_follows (hfits : 0x10000 + 48 * map.length < 2 ^ 64) {x : UINT64}
    (hx : x ≠ noAddress) (rest : List UINT64) (fuel : Nat) :
    Triple (Script (noAddress :: rest) mem)
      (allocateAt (scripted map) (ActuallyFreeAddress (scripted map) fuel pages) pages firstAddress
        (· == noAddress) (fun _ => false) fuel EFI_NOT_FOUND x)
      (fun b s => b = noAddress ∧ Script rest mem s) Searching := by
  have hends : ∃ m, (nextRegion map pages firstAddress)^[m] x = noAddress :=
    ⟨_, nextRegion_iterate_top map pages firstAddress x⟩
  obtain ⟨rounds, hrounds⟩ : ∃ rounds, Nat.find hends = rounds + 1 := by
    refine Nat.exists_eq_succ_of_ne_zero fun hzero => hx ?_
    have htop := Nat.find_spec hends
    rwa [hzero] at htop
  have hbefore : ∀ i ≤ rounds, (nextRegion map pages firstAddress)^[i] x ≠ noAddress :=
    fun i hi => Nat.find_min hends (by omega)
  have htop : (nextRegion map pages firstAddress)^[rounds + 1] x = noAddress := by
    rw [← hrounds]
    exact Nat.find_spec hends
  have hgo : ∀ i ≤ rounds, ((nextRegion map pages firstAddress)^[i] x == noAddress) = false :=
    fun i hi => beq_eq_false_iff_ne.mpr (hbefore i hi)
  refine allocateAt_follows (fun w => ActuallyFreeAddress_finds (scripted_shows hfits _) fuel pages mem)
    ?_ htop (fun i hi => hbefore (i + 1) hi) ?_ (fun _ _ => rfl) fuel
  · exact .inr (beq_self_eq_true noAddress)
  · exact hgo

/-- The region search gives back `x` and finds nothing else. -/
theorem searchRegions_exhausted (hfits : 0x10000 + 48 * map.length < 2 ^ 64) {k : Nat} {x : UINT64}
    {rest : List UINT64} (hk : regionTried map pages k = x) (hx : x ≠ noAddress)
    (hconv : Conventional map x) (hbad : ¬ Accepts pages mem x)
    (hfirst : ∀ i < k, regionTried map pages i ≠ x) (fuel : Nat) :
    Triple (Script (x :: noAddress :: rest) mem)
      (searchRegions (scripted map) fuel pages firstAddress)
      (fun b s => b = noAddress ∧ Script rest mem s) Searching := by
  unfold searchRegions
  rw [← bind_assoc]
  refine Triple.bind (firstLoop_follows hfits hk hx hconv hfirst (noAddress :: rest) fuel)
    fun b s hs => ?_
  obtain ⟨rfl, hs⟩ := hs
  cases fuel with
  | zero => exact rfl
  | succ fuel =>
    refine untilClear_round ?_ hbad (scripted_frees map pages b)
      (secondLoop_follows hfits hx rest (fuel + 1)) (fun c t ht => ?_) s hs
    · exact beq_eq_false_iff_ne.mpr hx
    obtain ⟨rfl, ht⟩ := ht
    cases fuel with
    | zero => exact rfl
    | succ fuel =>
      refine untilClear_stop ?_ t ht
      exact .inl (beq_self_eq_true noAddress)

/-- Once the page-by-page search gives back an address, it does not end. -/
theorem searchPages_stuck (hfits : 0x10000 + 48 * map.length < 2 ^ 64) {j : Nat} {x : UINT64}
    (hj : pageTried map pages j = x) (hconv : Conventional map x) (hbad : ¬ Accepts pages mem x)
    (hfirst : ∀ i < j, pageTried map pages i ≠ x)
    (hbelow : ∀ i ≤ j, pageTried map pages i ≠ noAddress) (fuel : Nat) :
    Triple (Script [x] mem) (searchPages (scripted map) fuel pages firstAddress)
      (fun _ _ => False) Searching := by
  have hfinds := fun w => ActuallyFreeAddressByPage_finds
    (scripted_shows hfits fun v => v = w) fuel pages mem
  refine Triple.bind ((ActuallyFreeAddress_finds (scripted_shows hfits _) fuel pages mem 0).early
    searching_of_short) fun start s hs => ?_
  obtain ⟨rfl, hs⟩ := hs
  have hup : ∀ i ≤ j, (pageTried map pages i == noAddress) = false :=
    fun i hi => beq_eq_false_iff_ne.mpr (hbelow i hi)
  refine Triple.bind (allocateAt_follows hfinds (.inl hconv) hj hfirst (fun _ _ => rfl) hup fuel)
    (fun b t ht => ?_) s hs
  obtain ⟨rfl, ht⟩ := ht
  have hne : (b == noAddress) = false := by
    rw [← hj]
    exact hup j (Nat.le_refl j)
  have hagain : Triple (Script [] mem)
      (allocateAt (scripted map) (ActuallyFreeAddressByPage (scripted map) fuel pages) pages firstAddress
        (fun _ => false) (fun _ => b == noAddress) fuel EFI_NOT_FOUND b)
      (fun _ _ => False) Searching :=
    allocateAt_forever (hfinds []) (fun _ => rfl) (fun _ => hne) fuel
  cases fuel with
  | zero => exact rfl
  | succ fuel =>
    refine untilClear_round (S := fun _ _ => False) ?_ hbad (scripted_frees map pages b) ?_
      (fun _ _ h => h.elim) t ht
    · rfl
    · exact hagain

theorem searchPages_endless (hfits : 0x10000 + 48 * map.length < 2 ^ 64)
    (hbelow : ∀ i, pageTried map pages i ≠ noAddress) (fuel : Nat) :
    Triple (Script [] mem) (searchPages (scripted map) fuel pages firstAddress)
      (fun _ _ => False) Searching := by
  have hfinds := ActuallyFreeAddressByPage_finds
    (scripted_shows hfits fun v => v = []) fuel pages mem
  refine Triple.bind ((ActuallyFreeAddress_finds (scripted_shows hfits _) fuel pages mem 0).early
    searching_of_short) fun start s hs => ?_
  obtain ⟨rfl, hs⟩ := hs
  have hup : ∀ i, (pageTried map pages i == noAddress) = false :=
    fun i => beq_eq_false_iff_ne.mpr (hbelow i)
  exact Triple.bind (allocateAt_forever hfinds (fun _ => rfl) hup fuel) (fun _ _ h => h.elim) s hs

/-- After a region that is given back, the search is the page-by-page search. -/
theorem searchMemory_searching (hfits : 0x10000 + 48 * map.length < 2 ^ 64) {k : Nat} {x : UINT64}
    {rest : List UINT64} (hk : regionTried map pages k = x) (hx : x ≠ noAddress)
    (hconv : Conventional map x) (hbad : ¬ Accepts pages mem x)
    (hfirst : ∀ i < k, regionTried map pages i ≠ x)
    (hpages : ∀ fuel, Triple (Script rest mem) (searchPages (scripted map) fuel pages firstAddress)
      (fun _ _ => False) Searching) (fuel : Nat) :
    Triple (Script (x :: noAddress :: rest) mem) (searchMemory (scripted map) fuel pages)
      (fun _ _ => False) Searching := by
  refine Triple.bind (R := fun st s => EFI_ERROR st = false ∧ Script (x :: noAddress :: rest) mem s)
    (fun s hs => ⟨EFI_ERROR_success, hs⟩) fun st => ?_
  refine Triple.bind check_runs.triple fun _ => ?_
  refine Triple.bind (searchRegions_exhausted hfits hk hx hconv hbad hfirst fuel) fun b s hs => ?_
  obtain ⟨rfl, hs⟩ := hs
  rw [if_pos rfl]
  exact hpages fuel s hs

theorem not_finishes {w : List UINT64} {s : LoaderState (List UINT64)}
    (h : ∀ fuel, Triple (Script w mem) (searchMemory (scripted map) fuel pages)
      (fun _ _ => False) Searching) (hs : Script w mem s) : ¬ Finishes (scripted map) pages s := by
  rintro ⟨n, hn⟩
  have hends := hn n (Nat.le_refl n)
  have hgoes := h n s hs
  cases hrun : searchMemory (scripted map) n pages s with
  | ok a t =>
    rw [hrun] at hgoes
    exact hgoes
  | error e t =>
    rw [hrun] at hgoes hends
    cases hgoes
    exact hends

end

/-! ## Exactly when the search ends -/

/-- A loader with nothing done, memory `mem` and the script `w` ahead. -/
def scriptStart (w : List UINT64) (mem : ByteMem) : LoaderState (List UINT64) :=
  ⟨w, 0, mem, []⟩

/-- If a region and a page address are given back, or a region is and the page
addresses go on for ever, a script keeps the search going. -/
theorem exists_script {map : List Descriptor} {pages : UINTN} {mem : ByteMem}
    (hfits : 0x10000 + 48 * map.length < 2 ^ 64) (hregions : ¬ RegionsClear map pages mem)
    (hpages : ¬ PagesClear map pages mem) :
    ∃ w, ¬ Finishes (scripted map) pages (scriptStart w mem) := by
  classical
  have hback : ∃ k, regionTried map pages k ≠ noAddress ∧ Conventional map (regionTried map pages k) ∧
      ¬ Accepts pages mem (regionTried map pages k) := by
    by_contra hnone
    exact hregions fun k hk hconv => by_contra fun hbad => hnone ⟨k, hk, hconv, hbad⟩
  obtain ⟨hx, hconv, hbad⟩ := Nat.find_spec hback
  have hfirst : ∀ i < Nat.find hback,
      regionTried map pages i ≠ regionTried map pages (Nat.find hback) :=
    fun i hi heq => Nat.find_min hback hi (by rw [heq]; exact ⟨hx, hconv, hbad⟩)
  by_cases hreach : ∃ n, pageTried map pages n = noAddress
  · have hbackPage : ∃ j, j < Nat.find hreach ∧ Conventional map (pageTried map pages j) ∧
        ¬ Accepts pages mem (pageTried map pages j) := by
      by_contra hnone
      exact hpages ⟨_, Nat.find_spec hreach, fun j hj hc => by_contra fun hb => hnone ⟨j, hj, hc, hb⟩⟩
    obtain ⟨hj, hconvPage, hbadPage⟩ := Nat.find_spec hbackPage
    have hfirstPage : ∀ i < Nat.find hbackPage,
        pageTried map pages i ≠ pageTried map pages (Nat.find hbackPage) :=
      fun i hi heq => Nat.find_min hbackPage hi
        ⟨Nat.lt_trans hi hj, by rw [heq]; exact ⟨hconvPage, hbadPage⟩⟩
    have hbelow : ∀ i ≤ Nat.find hbackPage, pageTried map pages i ≠ noAddress :=
      fun i hi => Nat.find_min hreach (Nat.lt_of_le_of_lt hi hj)
    exact ⟨_, not_finishes (searchMemory_searching hfits rfl hx hconv hbad hfirst
      (searchPages_stuck hfits rfl hconvPage hbadPage hfirstPage hbelow)) ⟨rfl, rfl⟩⟩
  · exact ⟨_, not_finishes (searchMemory_searching hfits rfl hx hconv hbad hfirst
      (searchPages_endless hfits fun i hi => hreach ⟨i, hi⟩)) ⟨rfl, rfl⟩⟩

/-- **When the search for memory ends**, for a memory map that fits in memory:
on every firmware that shows the map, takes pages back and grants conventional
memory only, if and only if the search has to give back no region, or reaches
`~0` page by page without giving back a page address. -/
theorem search_ends_iff (map : List Descriptor) (pages : UINTN) (mem : ByteMem)
    (hfits : 0x10000 + 48 * map.length < 2 ^ 64) :
    (∀ (σ : Type) (fw : Firmware σ), SearchFirmware fw map pages →
      ∀ s : LoaderState σ, s.mem = mem → Finishes fw pages s) ↔
    RegionsClear map pages mem ∨ PagesClear map pages mem := by
  refine ⟨fun hends => ?_, fun hclear σ fw hfw s hmem => searchMemory_ends hfw hclear hmem⟩
  by_contra hnone
  rw [not_or] at hnone
  obtain ⟨w, hw⟩ := exists_script hfits hnone.1 hnone.2
  exact hw (hends _ _ (scripted_searchFirmware hfits pages) _ rfl)

/-- Four pages of conventional memory at 0x1000. -/
def lowMemory : List Descriptor := [⟨EfiConventionalMemory, 0x1000, 4⟩]

/-- Where memory is zero, the search for two pages ends. -/
theorem lowMemory_zero : RegionsClear lowMemory 2 (fun _ => 0) ∧
    ∀ (σ : Type) (fw : Firmware σ), SearchFirmware fw lowMemory 2 →
      ∀ s : LoaderState σ, s.mem = (fun _ => 0) → Finishes fw 2 s := by
  have hclear : RegionsClear lowMemory 2 fun _ => 0 :=
    fun _ _ _ => .inl (VerifyZeroMem_false_iff.mpr fun _ _ => rfl)
  exact ⟨hclear, (search_ends_iff lowMemory 2 (fun _ => 0) (by decide)).mpr (.inl hclear)⟩

/-- Memory full of ones is given back. -/
theorem not_accepts_ones (a : UINT64) : ¬ Accepts 2 (fun _ => 1) a := by
  rintro (hzero | hown)
  · exact absurd (VerifyZeroMem_false_iff.mp hzero 0 (by decide)) (by decide)
  · have hsame : ownRemains (fun _ => 1) a = ownRemains (fun _ => 1) 0 := rfl
    rw [hsame] at hown
    exact absurd hown (by decide)

/-- A firmware that grants the pages at 0x1000 and, when the search begins
again page by page, those at 0x2000, and finds no pages after that. Both hold
ones and are given back. The page addresses run out at 0x3000; the search goes
on. -/
theorem lowMemory_ones : SearchFirmware (scripted lowMemory) lowMemory 2 ∧
    ¬ Finishes (scripted lowMemory) 2 (scriptStart [0x1000, noAddress, 0x2000] fun _ => 1) := by
  have hfits : 0x10000 + 48 * lowMemory.length < 2 ^ 64 := by decide
  have hregion : regionTried lowMemory 2 1 = 0x1000 := by decide
  have hpage : pageTried lowMemory 2 0 = 0x2000 := by decide
  refine ⟨scripted_searchFirmware hfits 2, not_finishes (fun fuel => ?_) ⟨rfl, rfl⟩⟩
  refine searchMemory_searching hfits hregion (by decide) (by decide) (not_accepts_ones _) (by decide)
    (fun fuel => ?_) fuel
  exact searchPages_stuck hfits hpage (by decide) (not_accepts_ones _) (by decide) (by decide) fuel

end PiousOS.Loader
