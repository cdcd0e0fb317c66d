import PiousOS.L3Loader.MapTables
import Mathlib.Data.Set.Card
import Mathlib.Data.Set.Finite.List

/-!
# MapVirtualPages installs a range

The loop stores one entry a page. Past the end of the table it first stores
behind the table (`storeLeaf_foreign`, as long as no table lies there), then
calls the function for the rest of the range, then goes on. The induction is
`mapVirtualPages_rule`, and what it carries is `Fills`: pages `i` to `n - 1`
are mapped afterwards, every other last-level entry on the walks reads as
before, the hierarchy has only grown, and every `AllocatePages` call has
hung a table that was missing. Where the calls do not suffice, `Exceeds`
says that they have all been made. With room for the missing tables the
first is the case (`Maps`).

`OverrunClear` is the condition on the layout: behind no last-level table,
within the reach of the stores, lies a table.
-/
namespace PiousOS.Loader
open Paging RadixTree

/-! ## Pages of a range -/

/-- The addresses of the pages of a range. -/
def RangeOf (virt : UINT64) (n : Nat) : Set UINT64 := {v | ∃ k < n, v = pageAt virt k}

theorem pageAt_toNat {virt : UINT64} {n k : Nat} (hn : virt.toNat + n * 4096 ≤ 2 ^ 64)
    (hk : k < n) : (pageAt virt k).toNat = virt.toNat + 4096 * k := by
  have := virt.isLt
  simp only [pageAt, BitVec.toNat_add, BitVec.toNat_shiftLeft, BitVec.toNat_ofNat,
    Nat.shiftLeft_eq]
  omega

theorem pageAt_zero (virt : UINT64) : pageAt virt 0 = virt := by
  simp [pageAt]

theorem pageAt_pageAt (virt : UINT64) (i k : Nat) :
    pageAt (pageAt virt i) k = pageAt virt (i + k) := by
  simp only [pageAt, BitVec.ofNat_add, BitVec.shiftLeft_add_distrib, BitVec.add_assoc]

theorem leafValue_shift (physical : UINT64) (flags : UINT32) (i k : Nat) :
    leafValue (physical + BitVec.ofNat 64 i <<< 12) flags k = leafValue physical flags (i + k) := by
  simp only [leafValue, BitVec.ofNat_add, BitVec.shiftLeft_add_distrib, BitVec.add_assoc]

theorem leafIndex_toNat {virt : UINT64} {n i : Nat} (hn : virt.toNat + n * 4096 ≤ 2 ^ 64)
    (hi : i < n) : (leafIndex virt i).toNat = (pml1i virt).toNat + i := by
  have := (pml1i virt).isLt
  rw [leafIndex, mask_index, ← pml1i, BitVec.toNat_add, BitVec.toNat_setWidth, BitVec.toNat_ofNat]
  omega

/-- In a range that ends in its first table no page lies past the end. -/
theorem not_past_of_fits {virt : UINT64} {n i : Nat} (hn : virt.toNat + n * 4096 ≤ 2 ^ 64) (hi : i < n)
    (hfit : (pml1i virt).toNat + n ≤ 512) : ¬ 511#64 < leafIndex virt i := by
  rw [BitVec.lt_def, leafIndex_toNat hn hi, BitVec.toNat_ofNat]
  omega

/-- Inside the table, page `i` shares the table of the first page and has the
next index. -/
theorem inside_index {virt : UINT64} {n i : Nat} (hn : virt.toNat + n * 4096 ≤ 2 ^ 64)
    (hi : i < n) (h : ¬ 511#64 < leafIndex virt i) :
    tablePath (pageAt virt i) = tablePath virt ∧
      leafIndex virt i = (pml1i (pageAt virt i)).setWidth 64 := by
  have hd := pml1i_toNat virt
  have hl := leafIndex_toNat hn hi
  rw [BitVec.lt_def, hl] at h
  simp only [BitVec.toNat_ofNat] at h
  constructor
  · rw [tablePath_eq_iff, pageAt_toNat hn hi]; omega
  · apply BitVec.eq_of_toNat_eq
    rw [hl, BitVec.toNat_setWidth, pml1i_toNat (pageAt virt i), pageAt_toNat hn hi]
    omega

/-- Up to 2^36 pages the pages of a range differ in the bits the walk sees. -/
theorem pages_distinct {virt : UINT64} {n i k : Nat} (hn : virt.toNat + n * 4096 ≤ 2 ^ 64)
    (h48 : n ≤ 2 ^ 36) (hik : i < k) (hk : k < n) :
    ¬ (tablePath (pageAt virt i) = tablePath (pageAt virt k) ∧
      pml1i (pageAt virt i) = pml1i (pageAt virt k)) := by
  rw [← pageNumber_eq_iff, pageNumber, pageNumber, pageAt_toNat hn (by omega), pageAt_toNat hn hk]
  omega

section
variable {alloc : Nat → Option UINT64} {last : Nat} {V : Set UINT64} {cr3 : UINT64}
  {s s' s'' : MapState} {flags : UINT32}

/-! ## The descent -/

/-- How many tables the walks of `V` still lack. -/
noncomputable def missing (V : Set UINT64) (cr3 : UINT64) (s : MapState) : Nat :=
  {p | p ∈ PathsOf V ∧ tableAt cr3 s p = none}.ncard

/-- `AllocatePages` calls up to `last` are enough for the tables still missing. -/
def Room (last : Nat) (V : Set UINT64) (cr3 : UINT64) (s : MapState) : Prop :=
  s.calls + missing V cr3 s ≤ last

theorem finite_missing (V : Set UINT64) (cr3 : UINT64) (s : MapState) :
    {p | p ∈ PathsOf V ∧ tableAt cr3 s p = none}.Finite := by
  have : Finite (BitVec 9) := Finite.of_injective BitVec.toFin fun _ _ h => BitVec.eq_of_toFin_eq h
  exact (List.finite_length_le (BitVec 9) 3).subset fun p hp => length_le_of_mem hp.1

theorem missing_congr (h : ∀ p ∈ PathsOf V, tableAt cr3 s' p = tableAt cr3 s p) :
    missing V cr3 s' = missing V cr3 s := by
  have hset : {p | p ∈ PathsOf V ∧ tableAt cr3 s' p = none} =
      {p | p ∈ PathsOf V ∧ tableAt cr3 s p = none} := by
    ext p
    exact and_congr_right fun hp => by rw [h p hp]
  rw [missing, missing, hset]

/-- Every call between two states has hung a table that was missing. -/
def Spends (V : Set UINT64) (cr3 : UINT64) (s s' : MapState) : Prop :=
  s'.calls + missing V cr3 s' = s.calls + missing V cr3 s

/-- The calls up to `last` do not suffice, and have all been made. -/
def Exceeds (last : Nat) (V : Set UINT64) (cr3 : UINT64) (s s' : MapState) : Prop :=
  last < s.calls + missing V cr3 s ∧ last < s'.calls

theorem Spends.trans (h : Spends V cr3 s s') (h' : Spends V cr3 s' s'') : Spends V cr3 s s'' :=
  Eq.trans h' h

theorem Exceeds.after (h : Spends V cr3 s s') (h' : Exceeds last V cr3 s' s'') :
    Exceeds last V cr3 s s'' :=
  ⟨by have := h'.1; rwa [h] at this, h'.2⟩

theorem Exceeds.mono (h : Exceeds last V cr3 s s') (hc : s'.calls ≤ s''.calls) :
    Exceeds last V cr3 s s'' :=
  ⟨h.1, Nat.lt_of_lt_of_le h.2 hc⟩

theorem Room.not_exceeds (hr : Room last V cr3 s) : ¬ Exceeds last V cr3 s s' :=
  fun h => Nat.lt_irrefl _ (Nat.lt_of_lt_of_le h.1 hr)

/-- A missing table costs one call and is missing no longer. -/
theorem nextTable_spends (R : Ready alloc last V cr3 s) {q : List (BitVec 9)} {j : BitVec 9}
    (hq : q ++ [j] ∈ PathsOf V) {u : UINT64} (hu : tableAt cr3 s q = some u) (hc : s.calls ≤ last) :
    ((nextTable alloc u (j.setWidth 64) s).2.calls ≤ last ∧
        Spends V cr3 s (nextTable alloc u (j.setWidth 64) s).2) ∨
      Exceeds last V cr3 s (nextTable alloc u (j.setWidth 64) s).2 := by
  by_cases hz : s.mem (slot u j) = 0#64
  · have hnone : tableAt cr3 s (q ++ [j]) = none := by
      rw [tableAt_snoc, hu, Option.bind_some, hz, decode_zero]
    have hpos : 0 < missing V cr3 s :=
      (Set.ncard_pos (finite_missing V cr3 s)).mpr ⟨q ++ [j], hq, hnone⟩
    have hcalls : (nextTable alloc u (j.setWidth 64) s).2.calls = s.calls + 1 := by
      rw [nextTable, if_pos (show s.mem (entry u (j.setWidth 64)) = 0#64 from hz)]
      rfl
    rcases Nat.eq_or_lt_of_le hc with heq | hl
    · exact Or.inr ⟨by omega, by omega⟩
    · obtain ⟨f, hf, hfa, hlt⟩ := R.frames.succeeds s.calls (Nat.le_refl _) hl
      have H : Hang alloc last V cr3 s q j u f := ⟨hq, hu, hz, hf, hl, hfa, hlt⟩
      rw [nextTable_empty hf hz] at hcalls ⊢
      have hset : {p | p ∈ PathsOf V ∧ tableAt cr3 (linkTable u (j.setWidth 64) f s) p = none} =
          {p | p ∈ PathsOf V ∧ tableAt cr3 s p = none} \ {q ++ [j]} := by
        ext p
        simp only [Set.mem_ofPred_eq, Set.mem_sdiff, Set.mem_singleton_iff]
        constructor
        · rintro ⟨hp, hpn⟩
          rw [H.tableAt R hp] at hpn
          split at hpn
          · cases hpn
          · exact ⟨⟨hp, hpn⟩, ‹_›⟩
        · rintro ⟨⟨hp, hpn⟩, hne⟩
          exact ⟨hp, by rw [H.tableAt R hp, if_neg hne, hpn]⟩
      have hone : missing V cr3 (linkTable u (j.setWidth 64) f s) = missing V cr3 s - 1 := by
        have hmem : q ++ [j] ∈ {p | p ∈ PathsOf V ∧ tableAt cr3 s p = none} := ⟨hq, hnone⟩
        rw [missing, hset, Set.ncard_sdiff_singleton_of_mem hmem, ← missing]
      refine Or.inl ⟨by omega, ?_⟩
      show s.calls + 1 + missing V cr3 (linkTable u (j.setWidth 64) f s) = s.calls + missing V cr3 s
      omega
  · rw [nextTable_used hz]
    exact Or.inl ⟨hc, rfl⟩

/-- The three levels together: the last-level table of `virt` exists
afterwards, and no last-level entry has changed. -/
theorem lastTable_spec (R : Ready alloc last V cr3 s) {virt : UINT64} (hv : virt ∈ V)
    (hlast : (lastTable alloc cr3 virt s).2.calls ≤ last) :
    Grows alloc last V cr3 s (lastTable alloc cr3 virt s).2 ∧
      tableAt cr3 (lastTable alloc cr3 virt s).2 (tablePath virt) =
        some (lastTable alloc cr3 virt s).1 ∧
      ∀ p ∈ PathsOf V, p.length = 3 → ∀ i,
        leafWord cr3 (lastTable alloc cr3 virt s).2 p i = leafWord cr3 s p i := by
  refine lastTable_rule_within (P := fun q u t => Grows alloc last V cr3 s t ∧
    tableAt cr3 t q = some u ∧ ∀ p ∈ PathsOf V, p.length = 3 → ∀ i, leafWord cr3 t p i = leafWord cr3 s p i)
    hlast ⟨Grows.refl R, rfl, fun _ _ _ _ => rfl⟩ ?_
  intro q j u t hq ⟨g, ht, hw⟩ hcalls
  obtain ⟨g', ht', hw'⟩ := nextTable_spec g.ready ⟨virt, hv, hq⟩ ht hcalls
  refine ⟨g.trans g', ht', fun p hp hl i => ?_⟩
  rw [hw' p hp hl, hw p hp hl]

variable (alloc cr3) in
theorem lastTable_calls_mono (virt : UINT64) (s : MapState) :
    s.calls ≤ (lastTable alloc cr3 virt s).2.calls :=
  (nextTable_calls_le _ _ s).trans ((nextTable_calls_le _ _ _).trans (nextTable_calls_le _ _ _))

/-- The descent makes a call for each table it lacks, or runs out of calls. -/
theorem lastTable_spends (R : Ready alloc last V cr3 s) {virt : UINT64} (hv : virt ∈ V)
    (hc : s.calls ≤ last) :
    ((lastTable alloc cr3 virt s).2.calls ≤ last ∧ Spends V cr3 s (lastTable alloc cr3 virt s).2) ∨
      Exceeds last V cr3 s (lastTable alloc cr3 virt s).2 := by
  have hdescent := lastTable_rule alloc cr3 virt s (P := fun q u t =>
    (t.calls ≤ last ∧ Spends V cr3 s t ∧ Grows alloc last V cr3 s t ∧ tableAt cr3 t q = some u) ∨
      Exceeds last V cr3 s t) (.inl ⟨hc, rfl, Grows.refl R, rfl⟩) ?_
  · rcases hdescent with ⟨hle, hspends, -, -⟩ | hex
    · exact .inl ⟨hle, hspends⟩
    · exact .inr hex
  · intro q j u t hq hP
    rcases hP with ⟨hle, hspends, g, ht⟩ | hex
    · rcases nextTable_spends g.ready ⟨virt, hv, hq⟩ ht hle with ⟨hle', hspends'⟩ | hex
      · obtain ⟨g', ht', -⟩ := nextTable_spec g.ready ⟨virt, hv, hq⟩ ht hle'
        exact .inl ⟨hle', hspends.trans hspends', g.trans g', ht'⟩
      · exact .inr (Exceeds.after hspends hex)
    · exact .inr (hex.mono (nextTable_calls_le _ _ _))

/-- Enough room before the descent is enough for it and for what follows. -/
theorem lastTable_room (R : Ready alloc last V cr3 s) {virt : UINT64} (hv : virt ∈ V)
    (hr : Room last V cr3 s) :
    (lastTable alloc cr3 virt s).2.calls ≤ last ∧
      Room last V cr3 (lastTable alloc cr3 virt s).2 := by
  have hc : s.calls ≤ last := Nat.le_trans (Nat.le_add_right _ _) hr
  rcases lastTable_spends R hv hc with ⟨hle, hspends⟩ | hex
  · exact ⟨hle, by rw [Room, hspends]; exact hr⟩
  · exact absurd hex hr.not_exceeds

/-! ## Installing -/

/-- The walk of `v` passes tables that exist and ends in `value`. -/
def Mapped (cr3 : UINT64) (s : MapState) (v value : UINT64) : Prop :=
  (∃ t, tableAt cr3 s (tablePath v) = some t) ∧ leafWord cr3 s (tablePath v) (pml1i v) = value

theorem Mapped.cpuWalk {v value : UINT64} (hc : address cr3 = cr3) (h : Mapped cr3 s v value) :
    Paging.cpuWalk s.mem cr3 v = .leaf value := by
  obtain ⟨⟨t, ht⟩, hw⟩ := h
  rw [leafWord_some ht] at hw
  rw [cpuWalk_of_follow hc ht, hw]

/-- Entry `j` at path `p` is none of the entries of pages `i` to `n - 1`. -/
def Off (virt : UINT64) (i n : Nat) (p : List (BitVec 9)) (j : BitVec 9) : Prop :=
  ∀ k, i ≤ k → k < n → ¬ (p = tablePath (pageAt virt k) ∧ j = pml1i (pageAt virt k))

/-- From `s` to `s'` the pages `i` to `n - 1` of a range have been mapped and
nothing else on the walks of `V` has changed. -/
structure Maps (alloc : Nat → Option UINT64) (last : Nat) (V : Set UINT64) (cr3 physical virt : UINT64)
    (flags : UINT32) (i n : Nat) (s s' : MapState) : Prop where
  grows : Grows alloc last V cr3 s s'
  mapped : ∀ k, i ≤ k → k < n → Mapped cr3 s' (pageAt virt k) (leafValue physical flags k)
  others : ∀ p ∈ PathsOf V, p.length = 3 → ∀ j, Off virt i n p j →
    leafWord cr3 s' p j = leafWord cr3 s p j
  room : Room last V cr3 s'

/-- Behind no last-level table, up to entry `bound`, lies an entry of a table
that is on the walks of `V` or may yet be put there. -/
def OverrunClear (alloc : Nat → Option UINT64) (last : Nat) (V : Set UINT64) (cr3 : UINT64)
    (s : MapState) (bound : Nat) : Prop :=
  ∀ T X, IsLastFrame alloc last V cr3 s T → IsFrame alloc last V cr3 s X →
    ∀ index : UINT64, 511 < index.toNat → index.toNat < bound → ∀ i, slot X i ≠ entry T index

theorem OverrunClear.grows {b b' : Nat} (h : OverrunClear alloc last V cr3 s b)
    (g : Grows alloc last V cr3 s s') (hb : b' ≤ b) : OverrunClear alloc last V cr3 s' b' :=
  fun T X hT hX index h1 h2 => h T X (g.isLastFrame T hT) (g.isFrame X hX) index h1 (by omega)

theorem Off.mono {virt : UINT64} {i i' n : Nat} {p : List (BitVec 9)} {j : BitVec 9}
    (h : Off virt i n p j) (hi : i ≤ i') : Off virt i' n p j :=
  fun k hk => h k (Nat.le_trans hi hk)

/-- A page is off the pages after it. -/
theorem off_after {virt : UINT64} {n i : Nat} (hn : virt.toNat + n * 4096 ≤ 2 ^ 64)
    (h48 : n ≤ 2 ^ 36) :
    Off virt (i + 1) n (tablePath (pageAt virt i)) (pml1i (pageAt virt i)) :=
  fun _ hk hkn => pages_distinct hn h48 hk hkn

/-- From `s` to `s'` the pages `i` to `n - 1` have been mapped, nothing else on
the walks of `V` has changed, and every call has paid for a table. -/
structure Fills (alloc : Nat → Option UINT64) (last : Nat) (V : Set UINT64) (cr3 physical virt : UINT64)
    (flags : UINT32) (i n : Nat) (s s' : MapState) : Prop where
  grows : Grows alloc last V cr3 s s'
  mapped : ∀ k, i ≤ k → k < n → Mapped cr3 s' (pageAt virt k) (leafValue physical flags k)
  others : ∀ p ∈ PathsOf V, p.length = 3 → ∀ j, Off virt i n p j →
    leafWord cr3 s' p j = leafWord cr3 s p j
  within : s'.calls ≤ last
  spends : Spends V cr3 s s'

theorem Fills.maps {physical virt : UINT64} {i n : Nat} (h : Fills alloc last V cr3 physical virt flags i n s s')
    (hr : Room last V cr3 s) : Maps alloc last V cr3 physical virt flags i n s s' :=
  ⟨h.grows, h.mapped, h.others, by rw [Room, h.spends]; exact hr⟩

/-- Page `i` done by a first step, the pages after it by the rest. -/
theorem Fills.cons {physical virt : UINT64} {i n : Nat} (hn : virt.toNat + n * 4096 ≤ 2 ^ 64)
    (h48 : n ≤ 2 ^ 36) (hv : pageAt virt i ∈ V) (g : Grows alloc last V cr3 s s')
    (hm : Mapped cr3 s' (pageAt virt i) (leafValue physical flags i))
    (ho : ∀ p ∈ PathsOf V, p.length = 3 → ∀ j, Off virt i n p j →
      leafWord cr3 s' p j = leafWord cr3 s p j) (hs : Spends V cr3 s s')
    (h : Fills alloc last V cr3 physical virt flags (i + 1) n s' s'') :
    Fills alloc last V cr3 physical virt flags i n s s'' where
  grows := g.trans h.grows
  mapped k hk hkn := by
    rcases Nat.eq_or_lt_of_le hk with rfl | hlt
    · obtain ⟨⟨t, ht⟩, hw⟩ := hm
      have hp := tablePath_mem hv
      refine ⟨⟨t, h.grows.mono _ hp t ht⟩, ?_⟩
      rw [h.others _ hp rfl _ (off_after hn h48), hw]
    · exact h.mapped k hlt hkn
  others p hp hl j hoff := by
    rw [h.others p hp hl j (hoff.mono (Nat.le_succ i)), ho p hp hl j hoff]
  within := h.within
  spends := hs.trans h.spends

/-- A call for the rest of the range, seen as part of the whole range. -/
theorem Fills.of_rest {physical virt : UINT64} {i n : Nat} (hi : i ≤ n)
    (h : Fills alloc last V cr3 (physical + BitVec.ofNat 64 i <<< 12) (pageAt virt i) flags 0 (n - i)
      s s') : Fills alloc last V cr3 physical virt flags i n s s' where
  grows := h.grows
  mapped k hk hkn := by
    have := h.mapped (k - i) (Nat.zero_le _) (by omega)
    rwa [pageAt_pageAt, leafValue_shift, show i + (k - i) = k by omega] at this
  others p hp hl j hoff := by
    apply h.others p hp hl j
    intro k _ hk
    rw [pageAt_pageAt]
    exact hoff (i + k) (by omega) (by omega)
  within := h.within
  spends := h.spends

/-- What a call is shown to do, for the induction. -/
def CallMaps (alloc : Nat → Option UINT64) (last : Nat) (V : Set UINT64) (cr3 : UINT64)
    (flags : UINT32) (physical virt : UINT64) (n : Nat) (s s' : MapState) : Prop :=
  virt ∈ V → (∀ k < n, pageAt virt k ∈ V) → virt.toNat + n * 4096 ≤ 2 ^ 64 → n ≤ 2 ^ 36 →
    Ready alloc last V cr3 s → OverrunClear alloc last V cr3 s ((pml1i virt).toNat + n) →
    Room last V cr3 s → Maps alloc last V cr3 physical virt flags 0 n s s'

/-- What the loop is shown to do from page `i` on, once the table is there. -/
def LoopMaps (alloc : Nat → Option UINT64) (last : Nat) (V : Set UINT64) (cr3 : UINT64)
    (flags : UINT32) (physical virt : UINT64) (n : Nat) (pml1 : UINT64) (i : Nat)
    (s s' : MapState) : Prop :=
  virt ∈ V → (∀ k < n, pageAt virt k ∈ V) → virt.toNat + n * 4096 ≤ 2 ^ 64 → n ≤ 2 ^ 36 →
    Ready alloc last V cr3 s → OverrunClear alloc last V cr3 s ((pml1i virt).toNat + n) →
    Room last V cr3 s → tableAt cr3 s (tablePath virt) = some pml1 →
    Maps alloc last V cr3 physical virt flags i n s s'

/-- What a call for the `n` pages from `virt` on starts from. -/
structure Begins (alloc : Nat → Option UINT64) (last : Nat) (V : Set UINT64) (cr3 virt : UINT64) (n : Nat)
    (s : MapState) : Prop where
  base : virt ∈ V
  pages : ∀ k < n, pageAt virt k ∈ V
  below : virt.toNat + n * 4096 ≤ 2 ^ 64
  short : n ≤ 2 ^ 36
  ready : Ready alloc last V cr3 s
  clear : OverrunClear alloc last V cr3 s ((pml1i virt).toNat + n)
  within : s.calls ≤ last

section
variable {physical virt pml1 : UINT64} {n i : Nat}

theorem Begins.grows (B : Begins alloc last V cr3 virt n s) (g : Grows alloc last V cr3 s s')
    (hc : s'.calls ≤ last) : Begins alloc last V cr3 virt n s' :=
  ⟨B.base, B.pages, B.below, B.short, g.ready, B.clear.grows g (Nat.le_refl _), hc⟩

/-- The rest of the range has a smaller reach. -/
theorem Begins.reach_rest (B : Begins alloc last V cr3 virt n s) (hi : i < n) :
    (pml1i (pageAt virt i)).toNat + (n - i) ≤ (pml1i virt).toNat + n := by
  rw [pml1i_toNat, pml1i_toNat, pageAt_toNat B.below hi]
  omega

theorem Begins.rest (B : Begins alloc last V cr3 virt n s) (hi : i < n) :
    Begins alloc last V cr3 (pageAt virt i) (n - i) s where
  base := B.pages i hi
  pages k hk := by
    rw [pageAt_pageAt]
    exact B.pages _ (by omega)
  below := by
    have := B.below
    rw [pageAt_toNat B.below hi]
    omega
  short := Nat.le_trans (Nat.sub_le n i) B.short
  ready := B.ready
  clear := B.clear.grows (Grows.refl B.ready) (B.reach_rest hi)
  within := B.within

/-- What every call does, for the induction: it fills its range and has the
table of its first page, or runs out of calls. -/
def CallTries (alloc : Nat → Option UINT64) (last : Nat) (V : Set UINT64) (cr3 : UINT64)
    (flags : UINT32) (physical virt : UINT64) (n : Nat) (s s' : MapState) : Prop :=
  s.calls ≤ s'.calls ∧ (Begins alloc last V cr3 virt n s →
    (Fills alloc last V cr3 physical virt flags 0 n s s' ∧
      ∃ t, tableAt cr3 s' (tablePath virt) = some t) ∨ Exceeds last V cr3 s s')

/-- The same for the loop from page `i` on. -/
def LoopTries (alloc : Nat → Option UINT64) (last : Nat) (V : Set UINT64) (cr3 : UINT64)
    (flags : UINT32) (physical virt : UINT64) (n : Nat) (pml1 : UINT64) (i : Nat)
    (s s' : MapState) : Prop :=
  s.calls ≤ s'.calls ∧ (Begins alloc last V cr3 virt n s → tableAt cr3 s (tablePath virt) = some pml1 →
    Fills alloc last V cr3 physical virt flags i n s s' ∨ Exceeds last V cr3 s s')

/-- One page inside the table. -/
theorem loopTries_inside (hi : i < n) (hidx : ¬ 511#64 < leafIndex virt i)
    (h : LoopTries alloc last V cr3 flags physical virt n pml1 (i + 1)
      (storeLeaf pml1 (leafIndex virt i) (leafValue physical flags i) (pageAt virt i) s) s') :
    LoopTries alloc last V cr3 flags physical virt n pml1 i s s' := by
  refine ⟨h.1, fun B ht => ?_⟩
  obtain ⟨hpath, hix⟩ := inside_index B.below hi hidx
  have hp := tablePath_mem B.base
  rw [hix] at h
  obtain ⟨g, hw⟩ := storeLeaf_spec B.ready hp rfl ht (pml1i (pageAt virt i))
    (leafValue physical flags i) (pageAt virt i)
  have hsp : Spends V cr3 s (storeLeaf pml1 ((pml1i (pageAt virt i)).setWidth 64)
      (leafValue physical flags i) (pageAt virt i) s) :=
    congrArg (s.calls + ·) (missing_congr (storeLeaf_tableAt B.ready hp rfl ht _ _ _))
  have ht' := g.mono _ hp _ ht
  refine (h.2 (B.grows g B.within) ht').imp (fun hrest => ?_) (Exceeds.after hsp)
  refine Fills.cons B.below B.short (B.pages i hi) g ⟨⟨pml1, by rw [hpath]; exact ht'⟩, ?_⟩ ?_ hsp hrest
  · rw [hpath, hw _ hp, if_pos ⟨rfl, rfl⟩]
  · intro p hpV _ j hoff
    rw [hw p hpV, if_neg]
    intro he
    exact hoff i (Nat.le_refl _) hi ⟨he.1.trans hpath.symm, he.2⟩

/-- One page past the end: the stray store hits no table, and the call maps
this page and the rest. -/
theorem loopTries_past (hi : i < n) (hidx : 511#64 < leafIndex virt i) {s₂ : MapState}
    (hcall : CallTries alloc last V cr3 flags (physical + BitVec.ofNat 64 i <<< 12) (pageAt virt i)
      (n - i) (storeLeaf pml1 (leafIndex virt i) (leafValue physical flags i) (pageAt virt i) s) s₂)
    (h : LoopTries alloc last V cr3 flags physical virt n pml1 (i + 1) s₂ s') :
    LoopTries alloc last V cr3 flags physical virt n pml1 i s s' := by
  refine ⟨Nat.le_trans hcall.1 h.1, fun B ht => ?_⟩
  have hp := tablePath_mem B.base
  have hlt := leafIndex_toNat B.below hi
  have hgt : 511 < (leafIndex virt i).toNat := by
    rw [BitVec.lt_def] at hidx
    simpa only [BitVec.toNat_ofNat] using hidx
  have hT : IsLastFrame alloc last V cr3 s pml1 := .inl ⟨_, hp, rfl, ht⟩
  have hmiss : ∀ p ∈ PathsOf V, ∀ t j, tableAt cr3 s p = some t →
      slot t j ≠ entry pml1 (leafIndex virt i) :=
    fun p hpV t j htp => B.clear pml1 t hT (.inl ⟨p, hpV, htp⟩) _ hgt (by omega) j
  obtain ⟨g, hw⟩ := storeLeaf_foreign B.ready pml1 (leafIndex virt i) hmiss
    (leafValue physical flags i) (pageAt virt i)
  have hsp : Spends V cr3 s (storeLeaf pml1 (leafIndex virt i) (leafValue physical flags i)
      (pageAt virt i) s) :=
    congrArg (s.calls + ·) (missing_congr (storeLeaf_foreign_tableAt _ _ hmiss _ _))
  rcases hcall.2 ((B.grows g B.within).rest hi) with ⟨hcalled, -⟩ | hex
  · have M := hcalled.of_rest (Nat.le_of_lt hi)
    have g' := g.trans M.grows
    refine (h.2 (B.grows g' M.within) (g'.mono _ hp _ ht)).imp (fun hrest => ?_)
      (Exceeds.after (hsp.trans M.spends))
    refine Fills.cons B.below B.short (B.pages i hi) g' (M.mapped i (Nat.le_refl _) hi) ?_
      (hsp.trans M.spends) hrest
    intro p hpV hl j hoff
    rw [M.others p hpV hl j hoff, hw p hpV]
  · exact Or.inr (Exceeds.after hsp (hex.mono h.1))

theorem callTries_of_loop
    (h : LoopTries alloc last V cr3 flags physical virt n (lastTable alloc cr3 virt s).1 0
      (lastTable alloc cr3 virt s).2 s') :
    CallTries alloc last V cr3 flags physical virt n s s' := by
  refine ⟨Nat.le_trans (lastTable_calls_mono alloc cr3 virt s) h.1, fun B => ?_⟩
  rcases lastTable_spends B.ready B.base B.within with ⟨hlast, hsp⟩ | hex
  · obtain ⟨g, ht, hw⟩ := lastTable_spec B.ready B.base hlast
    refine (h.2 (B.grows g hlast) ht).imp (fun M => ?_) (Exceeds.after hsp)
    refine ⟨⟨g.trans M.grows, M.mapped, fun p hp hl j hoff => ?_, M.within, hsp.trans M.spends⟩,
      _, M.grows.mono _ (tablePath_mem B.base) _ ht⟩
    rw [M.others p hp hl j hoff, hw p hp hl]
  · exact Or.inr (hex.mono h.1)

variable (alloc last V cr3 flags) in
/-- Every call fills its range or runs out of calls, and so does every loop. -/
theorem mapVirtualPages_tries :
    (∀ physical virt n s, CallTries alloc last V cr3 flags physical virt n s
      (mapVirtualPages alloc cr3 physical virt n flags s).2) ∧
    ∀ physical virt n pml1 i s, LoopTries alloc last V cr3 flags physical virt n pml1 i s
      (leafLoop alloc cr3 physical virt n flags pml1 i s) := by
  refine mapVirtualPages_rule (C := CallTries alloc last V cr3 flags)
    (L := LoopTries alloc last V cr3 flags) ?call ?inside ?past ?done
  case call => exact fun _ _ _ _ _ h => callTries_of_loop h
  case inside => exact fun _ _ _ _ _ _ _ hi hidx h => loopTries_inside hi hidx h
  case past => exact fun _ _ _ _ _ _ _ _ hi hidx hc h => loopTries_past hi hidx hc h
  case done =>
    intro physical virt n pml1 i s hi
    refine ⟨Nat.le_refl _, fun B _ => Or.inl ⟨Grows.refl B.ready, ?_, fun _ _ _ _ _ => rfl, B.within, rfl⟩⟩
    intro k hk hkn
    omega

end

variable (alloc last V cr3 flags) in
/-- With room for the missing tables, the loop maps its pages. -/
theorem leafLoop_maps (physical virt : UINT64) (n : Nat) (pml1 : UINT64) (i : Nat) (s : MapState) :
    LoopMaps alloc last V cr3 flags physical virt n pml1 i s
      (leafLoop alloc cr3 physical virt n flags pml1 i s) := by
  intro hv hV hn h48 R hc hr ht
  have hwithin : s.calls ≤ last := Nat.le_trans (Nat.le_add_right _ _) hr
  have htries := (mapVirtualPages_tries alloc last V cr3 flags).2 physical virt n pml1 i s
  rcases htries.2 ⟨hv, hV, hn, h48, R, hc, hwithin⟩ ht with hfills | hex
  · exact hfills.maps hr
  · exact absurd hex hr.not_exceeds

theorem callMaps_of_loop {physical virt : UINT64} {n : Nat}
    (h : LoopMaps alloc last V cr3 flags physical virt n (lastTable alloc cr3 virt s).1 0
      (lastTable alloc cr3 virt s).2 s') :
    CallMaps alloc last V cr3 flags physical virt n s s' := by
  intro hv hV hn h48 R hc hr
  obtain ⟨hlast, hr'⟩ := lastTable_room R hv hr
  obtain ⟨g, ht, hw⟩ := lastTable_spec R hv hlast
  have M := h hv hV hn h48 g.ready (hc.grows g (Nat.le_refl _)) hr' ht
  exact ⟨g.trans M.grows, M.mapped,
    fun p hp hl j hoff => by rw [M.others p hp hl j hoff, hw p hp hl], M.room⟩

variable (alloc last V cr3 flags) in
/-- Every call maps its range. -/
theorem mapVirtualPages_maps (physical virt : UINT64) (n : Nat) (s : MapState) :
    CallMaps alloc last V cr3 flags physical virt n s
      (mapVirtualPages alloc cr3 physical virt n flags s).2 := by
  rw [mapVirtualPages_eq]
  exact callMaps_of_loop (leafLoop_maps alloc last V cr3 flags physical virt n _ 0 _)

end

/-! ## Two pages astride the end of a page table -/

/-- The 4 KiB below 2 MiB are mapped through tables at 0x1000, 0x2000, `pml2`
and 0x4000. -/
def astride (pml2 : UINT64) : MapState where
  mem a := if a = 0x1000#64 then 0x2003#64 else if a = 0x2000#64 then pml2 ||| 0x01#64 ||| 0x02#64
    else if a = pml2 then 0x4003#64 else 0#64
  calls := 0
  log := []

/-- Frames from 1 MiB on, one after the other. -/
def framesFrom1M (k : Nat) : Option UINT64 := some (0x100000#64 + BitVec.ofNat 64 k <<< 12)

section Astride
variable {pml2 : UINT64}

end Astride

end PiousOS.Loader
