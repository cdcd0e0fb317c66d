import PiousOS.L3Loader.FreeAddress
import PiousOS.L3Loader.BootKernel
import Mathlib.Logic.Function.Iterate

/-!
# Searching a memory map that stays

What `ActuallyFreeAddress` and `ActuallyFreeAddressByPage` answer when the
firmware shows the same memory map whenever it is asked: the first descriptor
of the map with an answer decides (`regionAfter`, `pageAfterIn`). The region
search only goes up, until it answers `~0`.

* `forDescriptors_finds`: the walk over an array of descriptors;
* `ActuallyFreeAddress_finds`, `ActuallyFreeAddressByPage_finds`: the answers;
* `nextRegion_up`: every answer of the region search lies above the address
  it was asked for, or is `~0`.
-/
namespace PiousOS.Loader
open EarlyExit Strided

variable {σ : Type}

/-! ## Answers -/

/-- What a descriptor answers to `ActuallyFreeAddress`. -/
def regionStart (pages OldAddress : UINT64) (d : Descriptor) : Option UINT64 :=
  if d.type = EfiConventionalMemory ∧ pages ≤ d.NumberOfPages ∧ OldAddress < d.PhysicalStart then
    some d.PhysicalStart
  else none

/-- What a descriptor answers to `ActuallyFreeAddressByPage`. -/
def pageIn (pages OldAddress : UINT64) (d : Descriptor) : Option UINT64 :=
  if d.type = EfiConventionalMemory ∧ pages ≤ d.NumberOfPages then
    let PhysicalEnd := d.PhysicalStart + d.NumberOfPages <<< EFI_PAGE_SHIFT - EFI_PAGE_MASK
    if d.PhysicalStart ≤ OldAddress ∧ OldAddress + pages <<< EFI_PAGE_SHIFT < PhysicalEnd then
      some (OldAddress + EFI_PAGE_SIZE)
    else if OldAddress < d.PhysicalStart then some d.PhysicalStart
    else none
  else none

/-- The first answer of a map, `~0` if there is none. -/
def firstAnswer (map : List Descriptor) (answer : Descriptor → Option UINT64) : UINT64 :=
  (map.findSome? answer).getD noAddress

def regionAfter (map : List Descriptor) (pages OldAddress : UINT64) : UINT64 :=
  firstAnswer map (regionStart pages OldAddress)

def pageAfterIn (map : List Descriptor) (pages OldAddress : UINT64) : UINT64 :=
  firstAnswer map (pageIn pages OldAddress)

/-! ## The firmware's side -/

/-- The reply of a `GetMemoryMap` with the buffer at `MemMap`: an array of the
descriptors of `map`. -/
structure ListsMap (map : List Descriptor) (MemMap : UINT64) (reply : MemoryMapReply) : Prop where
  stride : 0 < reply.MemMapDescriptorSize.toNat
  size : reply.MemMapSize.toNat = map.length * reply.MemMapDescriptorSize.toNat
  fits : MemMap.toNat + reply.MemMapSize.toNat < 2 ^ 64
  entries : ∀ i (hi : i < map.length),
    descriptorAt reply.contents (element MemMap reply.MemMapDescriptorSize i) = map[i]

/-- From its states in `K` the firmware shows `map` whenever it is asked. The
map has `size` bytes, there is a pool for it, and the freed pool still holds it. -/
structure ShowsMap (fw : Firmware σ) (map : List Descriptor) (size : UINTN) (K : σ → Prop) :
    Prop where
  asks : ∀ w, K w → (fw.GetMemoryMap 0 0 w).1.status = EFI_BUFFER_TOO_SMALL ∧
    (fw.GetMemoryMap 0 0 w).1.MemMapSize = size ∧ K (fw.GetMemoryMap 0 0 w).2
  pool : ∀ w, K w → EFI_ERROR (fw.AllocatePool size w).1.1 = false
  fills : ∀ w, K w →
    let pool := fw.AllocatePool size w
    let filled := fw.GetMemoryMap size pool.1.2 pool.2
    EFI_ERROR filled.1.status = false ∧ ListsMap map pool.1.2 filled.1 ∧ K filled.2
  freed : ∀ w, K w →
    let pool := fw.AllocatePool size w
    let filled := fw.GetMemoryMap size pool.1.2 pool.2
    let freed := (fw.FreePool pool.1.2 filled.2).2
    K freed ∧ ∀ i (hi : i < map.length),
      PhysicalStart (fw.freedContents freed)
        (element pool.1.2 filled.1.MemMapDescriptorSize i) = (map[i]).PhysicalStart

/-- The firmware is in `K` and memory is `mem`. -/
def Rests (K : σ → Prop) (mem : ByteMem) (s : LoaderState σ) : Prop := K s.firmware ∧ s.mem = mem

/-- The only way to end early: `fuel` rounds were not more than `n`. -/
def Short (fuel n : Nat) (e : Exit) (_ : LoaderState σ) : Prop := e = .searching ∧ fuel ≤ n

/-! ## The walk -/

section
variable {map : List Descriptor} {MemMap : UINT64} {reply : MemoryMapReply}
  {answer : Descriptor → Option UINT64} {found : UINT64 → Option UINT64}

/-- The walk from element `i` on finds the first answer. -/
theorem forDescriptors_finds (h : ListsMap map MemMap reply)
    (hfound : ∀ i (hi : i < map.length),
      found (element MemMap reply.MemMapDescriptorSize i) = answer map[i])
    (P : LoaderState σ → Prop) (fuel : Nat) {i : Nat} (hi : i ≤ map.length) :
    Triple P
      (forDescriptors (MemMap + reply.MemMapSize) reply.MemMapDescriptorSize found fuel
        (element MemMap reply.MemMapDescriptorSize i))
      (fun r s => P s ∧ r.map Prod.snd = (map.drop i).findSome? answer ∧
        ∀ Piece a, r = some (Piece, a) → ∃ j, ∃ hj : j < map.length,
          Piece = element MemMap reply.MemMapDescriptorSize j ∧ answer map[j] = some a)
      (Short fuel (map.length - i)) := by
  induction fuel generalizing i with
  | zero => exact Triple.throw fun _ _ => ⟨rfl, Nat.zero_le _⟩
  | succ fuel ih =>
    have hfits := h.fits
    rw [h.size] at hfits
    have hstop : (MemMap + reply.MemMapSize).toNat =
        MemMap.toNat + map.length * reply.MemMapDescriptorSize.toNat := by
      rw [BitVec.toNat_add, h.size, Nat.mod_eq_of_lt hfits]
    have hat := element_toNat hfits hi
    unfold forDescriptors
    refine Triple.ite (fun hlt => ?_) fun hlt => ?_
    · have hlen : i < map.length := by
        rw [BitVec.lt_def, hstop, hat] at hlt
        exact Nat.lt_of_mul_lt_mul_right (Nat.lt_of_add_lt_add_left hlt)
      rw [hfound i hlen, List.drop_eq_getElem_cons hlen, List.findSome?_cons]
      cases ha : answer map[i] with
      | some a =>
        refine Triple.pure fun s hs => ⟨hs, rfl, fun Piece b hb => ?_⟩
        cases hb
        exact ⟨i, hlen, rfl, ha⟩
      | none =>
        rw [element_succ]
        exact (ih hlen).early fun e _ hs => ⟨hs.1, by have := hs.2; omega⟩
    · have hend : i = map.length := by
        by_contra hne
        refine hlt ?_
        rw [BitVec.lt_def, hstop, hat]
        exact Nat.add_lt_add_left (Nat.mul_lt_mul_of_pos_right (by omega) h.stride) _
      refine Triple.pure fun s hs => ⟨hs, ?_, fun _ _ hnone => by cases hnone⟩
      rw [hend, List.drop_length]
      rfl

end

/-! ## The searches -/

section
variable {fw : Firmware σ} {map : List Descriptor} {size : UINTN} {K : σ → Prop} {mem : ByteMem}

/-- A fetched map, and its pool once it is freed. -/
def Fetches (fw : Firmware σ) (map : List Descriptor) (K : σ → Prop) (mem : ByteMem)
    (r : Option (UINT64 × MemoryMapReply)) (s : LoaderState σ) : Prop :=
  ∃ MemMap reply, r = some (MemMap, reply) ∧ ListsMap map MemMap reply ∧ Rests K mem s ∧
    K (fw.FreePool MemMap s.firmware).2 ∧
    ∀ i (hi : i < map.length), PhysicalStart (fw.freedContents (fw.FreePool MemMap s.firmware).2)
      (element MemMap reply.MemMapDescriptorSize i) = (map[i]).PhysicalStart

theorem fetchMap_fetches (h : ShowsMap fw map size K) :
    Runs (Rests K mem) (fetchMap fw) (Fetches fw map K mem) := by
  rintro s ⟨hw, hmem⟩
  obtain ⟨hstatus, hsize, hw₁⟩ := h.asks s.firmware hw
  have hpool := h.pool _ hw₁
  obtain ⟨hok, hholds, hw₂⟩ := h.fills _ hw₁
  obtain ⟨hw₃, hfreed⟩ := h.freed _ hw₁
  unfold fetchMap
  rw [call_bind, if_pos hstatus, hsize, call_bind]
  simp only [hpool, Bool.false_eq_true, if_false]
  rw [call_bind]
  simp only [hok, Bool.false_eq_true, if_false]
  exact ⟨_, _, rfl, hholds, ⟨hw₂, hmem⟩, hw₃, hfreed⟩

/-- `search` answers with `f` and changes nothing, given more than `n` rounds. -/
def Finds (search : UINT64 → Boot σ UINT64) (f : UINT64 → UINT64) (K : σ → Prop) (mem : ByteMem)
    (fuel n : Nat) : Prop :=
  ∀ a, Triple (Rests K mem) (search a) (fun b s => b = f a ∧ Rests K mem s) (Short fuel n)

/-- What both searches begin with, the walk from the first descriptor. -/
theorem forDescriptors_from_first {MemMap : UINT64} {reply : MemoryMapReply}
    (answer : Descriptor → Option UINT64) {found : UINT64 → Option UINT64}
    (h : ListsMap map MemMap reply)
    (hfound : ∀ Piece, found Piece = answer (descriptorAt reply.contents Piece))
    (P : LoaderState σ → Prop) (fuel : Nat) :
    Triple P (forDescriptors (MemMap + reply.MemMapSize) reply.MemMapDescriptorSize found fuel MemMap)
      (fun r s => P s ∧ r.map Prod.snd = map.findSome? answer ∧
        ∀ Piece a, r = some (Piece, a) → ∃ j, ∃ hj : j < map.length,
          Piece = element MemMap reply.MemMapDescriptorSize j ∧ answer map[j] = some a)
      (Short fuel map.length) := by
  have hfirst : element MemMap reply.MemMapDescriptorSize 0 = MemMap := by simp [element]
  have hentries : ∀ i (hi : i < map.length),
      found (element MemMap reply.MemMapDescriptorSize i) = answer map[i] := by
    intro i hi
    rw [hfound, h.entries i hi]
  have hwalk := forDescriptors_finds h hentries P fuel (Nat.zero_le map.length)
  rwa [hfirst, List.drop_zero, Nat.sub_zero] at hwalk

theorem ActuallyFreeAddress_finds (h : ShowsMap fw map size K) (fuel : Nat) (pages : UINT64)
    (mem : ByteMem) :
    Finds (ActuallyFreeAddress fw fuel pages) (regionAfter map pages) K mem fuel map.length := by
  intro a
  unfold ActuallyFreeAddress
  refine Triple.bind (fetchMap_fetches h).triple fun r s hs => ?_
  obtain ⟨MemMap, reply, rfl, hlists, hrests, hfree, hcontents⟩ := hs
  refine Triple.bind (forDescriptors_from_first (regionStart pages a) hlists
    (fun _ => rfl) (fun t => t = s) fuel) (fun found t ht => ?_) s rfl
  obtain ⟨rfl, hfound, hpiece⟩ := ht
  cases found with
  | none => exact ⟨by rw [regionAfter, firstAnswer, ← hfound]; rfl, hrests⟩
  | some p =>
    obtain ⟨Piece, start⟩ := p
    obtain ⟨j, hj, rfl, hanswer⟩ := hpiece Piece start rfl
    refine ⟨?_, hfree, hrests.2⟩
    have hstart : start = (map[j]).PhysicalStart := by
      rw [regionStart] at hanswer
      split at hanswer
      · exact (Option.some.inj hanswer).symm
      · cases hanswer
    rw [regionAfter, firstAnswer, ← hfound]
    exact (hcontents j hj).trans hstart.symm

theorem ActuallyFreeAddressByPage_finds (h : ShowsMap fw map size K) (fuel : Nat) (pages : UINT64)
    (mem : ByteMem) :
    Finds (ActuallyFreeAddressByPage fw fuel pages) (pageAfterIn map pages) K mem fuel map.length := by
  intro a
  unfold ActuallyFreeAddressByPage
  refine Triple.bind (fetchMap_fetches h).triple fun r s hs => ?_
  obtain ⟨MemMap, reply, rfl, hlists, hrests, hfree, _⟩ := hs
  refine Triple.bind (forDescriptors_from_first (pageIn pages a) hlists
    (fun _ => rfl) (fun t => t = s) fuel) (fun found t ht => ?_) s rfl
  obtain ⟨rfl, hfound, _⟩ := ht
  cases found with
  | none => exact ⟨by rw [pageAfterIn, firstAnswer, ← hfound]; rfl, hrests⟩
  | some p => exact ⟨by rw [pageAfterIn, firstAnswer, ← hfound]; rfl, hfree, hrests.2⟩

end

/-! ## The addresses a search goes through -/

/-- `f`, passing over the address known to be bad once. -/
def passOver (OldAllocatedMemory : UINT64) (f : UINT64 → UINT64) (a : UINT64) : UINT64 :=
  if f a = OldAllocatedMemory then f (f a) else f a

/-- The region search's next address. -/
def nextRegion (map : List Descriptor) (pages OldAllocatedMemory : UINT64) : UINT64 → UINT64 :=
  passOver OldAllocatedMemory (regionAfter map pages)

/-- The page-by-page search's next address. -/
def nextPage (map : List Descriptor) (pages OldAllocatedMemory : UINT64) : UINT64 → UINT64 :=
  passOver OldAllocatedMemory (pageAfterIn map pages)

theorem nextAddress_finds {search : UINT64 → Boot σ UINT64} {f : UINT64 → UINT64} {K : σ → Prop}
    {mem : ByteMem} {fuel n : Nat} (h : Finds search f K mem fuel n) (OldAllocatedMemory : UINT64) :
    Finds (nextAddress search OldAllocatedMemory) (passOver OldAllocatedMemory f) K mem fuel n := by
  intro a
  refine Triple.bind (h a) fun b s hs => ?_
  obtain ⟨rfl, hrests⟩ := hs
  unfold passOver
  by_cases hb : f a = OldAllocatedMemory
  · rw [if_pos hb, if_pos hb]
    exact h (f a) s hrests
  · rw [if_neg hb, if_neg hb]
    exact ⟨rfl, hrests⟩

/-- How far an address is from the top. -/
def belowTop (a : UINT64) : Nat := 2 ^ 64 - 1 - a.toNat

theorem belowTop_zero {a : UINT64} : belowTop a = 0 ↔ a = noAddress := by
  have htop : noAddress.toNat = 2 ^ 64 - 1 := by decide
  have := a.isLt
  rw [belowTop, ← BitVec.toNat_inj, htop]
  omega

section
variable (map : List Descriptor) (pages OldAllocatedMemory a : UINT64)

/-- A region lies above the address it was asked for. -/
theorem regionAfter_up : belowTop (regionAfter map pages a) ≤ belowTop a - 1 := by
  rw [regionAfter, firstAnswer]
  cases hfirst : map.findSome? (regionStart pages a) with
  | none => exact Nat.le_trans (Nat.le_of_eq (belowTop_zero.mpr rfl)) (Nat.zero_le _)
  | some b =>
    obtain ⟨d, _, hd⟩ := List.exists_of_findSome?_eq_some hfirst
    rw [regionStart] at hd
    split at hd
    case isFalse => cases hd
    case isTrue hup =>
      cases hd
      have hlt := BitVec.lt_def.mp hup.2.2
      show belowTop d.PhysicalStart ≤ _
      unfold belowTop
      omega

theorem nextRegion_up : belowTop (nextRegion map pages OldAllocatedMemory a) ≤ belowTop a - 1 := by
  have hfirst := regionAfter_up map pages a
  have hsecond := regionAfter_up map pages (regionAfter map pages a)
  unfold nextRegion passOver
  split <;> omega

theorem nextRegion_iterate_up (n : Nat) :
    belowTop ((nextRegion map pages OldAllocatedMemory)^[n] a) ≤ belowTop a - n := by
  induction n with
  | zero => exact Nat.le_refl _
  | succ n ih =>
    rw [Function.iterate_succ_apply']
    have := nextRegion_up map pages OldAllocatedMemory
      ((nextRegion map pages OldAllocatedMemory)^[n] a)
    omega

/-- The region search comes to its end. -/
theorem nextRegion_iterate_top :
    (nextRegion map pages OldAllocatedMemory)^[belowTop a] a = noAddress := by
  rw [← belowTop_zero]
  have := nextRegion_iterate_up map pages OldAllocatedMemory a (belowTop a)
  omega

end

end PiousOS.Loader
