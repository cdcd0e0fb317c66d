import PiousOS.L3Loader.MapRange

/-!
# What MapVirtualPages may write

`WritesOnly` is the frame condition of a call: it changes the last-level
entries of its pages, zero entries on their walks above the last level, and
the frames it takes for tables; every index it stores at is below 512; and
no other page is translated differently.

A range that stays in one page table meets it (`writesOnly_of_fits`): the
descent (`Descent`) adds tables, the loop (`LeafStores`) fills entries. A
range that does not stores behind the table (`not_writesOnly_of_past`),
whatever lies there. A call for no pages at all still builds the tables of its
address (`not_writesOnly_of_empty`).
-/
namespace PiousOS.Loader
open Paging RadixTree

/-- The table index of a store, if the event is one, is below 512. -/
def MapEvent.InTable : MapEvent → Prop
  | .zero _ => True
  | .link _ index _ => index.toNat ≤ 511
  | .leaf _ index _ => index.toNat ≤ 511
  | .invlpg _ => True

/-- The log was extended by events with property `P`. -/
def Logged (P : MapEvent → Prop) (s s' : MapState) : Prop :=
  ∃ new, s'.log = s.log ++ new ∧ ∀ e ∈ new, P e

theorem Logged.refl {P : MapEvent → Prop} (s : MapState) : Logged P s s :=
  ⟨[], by simp, by simp⟩

theorem Logged.trans {P : MapEvent → Prop} {s s' s'' : MapState} (h : Logged P s s')
    (h' : Logged P s' s'') : Logged P s s'' := by
  obtain ⟨new, hnew, hP⟩ := h
  obtain ⟨new', hnew', hP'⟩ := h'
  refine ⟨new ++ new', by rw [hnew', hnew, List.append_assoc], fun e he => ?_⟩
  cases List.mem_append.mp he with
  | inl h => exact hP e h
  | inr h => exact hP' e h

section
variable {alloc : Nat → Option UINT64} {last : Nat} {V : Set UINT64} {cr3 : UINT64}
  {s s' s'' : MapState} {flags : UINT32}

/-! ## The descent -/

/-- A frame taken between two states. -/
def Taken (alloc : Nat → Option UINT64) (s s' : MapState) (f : UINT64) : Prop :=
  ∃ c, s.calls ≤ c ∧ c < s'.calls ∧ alloc c = some f

/-- What the descent for `virt` has done so far: only zero entries on the
walk and new frames are written, and a table is old or such a frame. -/
structure Descent (alloc : Nat → Option UINT64) (cr3 virt : UINT64) (s s' : MapState) : Prop where
  calls : s.calls ≤ s'.calls
  words : ∀ a, s'.mem a ≠ s.mem a →
    (∃ p i t, p ++ [i] <+: tablePath virt ∧ tableAt cr3 s p = some t ∧ a = slot t i ∧
      s.mem a = 0#64) ∨ ∃ f, Taken alloc s s' f ∧ a - f < 0x1000#64
  tables : ∀ p t, p <+: tablePath virt → tableAt cr3 s' p = some t →
    tableAt cr3 s p = some t ∨ Taken alloc s s' t
  log : Logged MapEvent.InTable s s'

theorem Descent.refl (virt : UINT64) (s : MapState) : Descent alloc cr3 virt s s :=
  ⟨Nat.le_refl _, fun _ h => absurd rfl h, fun _ _ _ h => .inl h, Logged.refl s⟩

theorem Taken.mono {f : UINT64} (h : Taken alloc s s' f) (hc : s'.calls ≤ s''.calls) :
    Taken alloc s s'' f := by
  obtain ⟨c, h1, h2, h3⟩ := h
  exact ⟨c, h1, Nat.lt_of_lt_of_le h2 hc, h3⟩

/-- Only the entry and the new frame change when a table is hung. -/
theorem linkTable_mem {table i next a : UINT64}
    (h : (linkTable table i next s).mem a ≠ s.mem a) : a = entry table i ∨ a - next < 0x1000#64 := by
  by_cases he : a = entry table i
  · exact .inl he
  by_cases hz : a - next < 0x1000#64
  · exact .inr hz
  exact absurd (by simp only [linkTable, Function.update_of_ne he, zeroMem, if_neg hz]) h

/-- The words that differ when one more table is hung. -/
theorem Descent.link_words {virt : UINT64} {s₀ : MapState} (D : Descent alloc cr3 virt s₀ s)
    (R : Ready alloc last V cr3 s) {q : List (BitVec 9)} {j : BitVec 9} (hq : q ++ [j] <+: tablePath virt)
    {u f : UINT64} (hu : tableAt cr3 s q = some u) (hz : s.mem (slot u j) = 0#64)
    (hnew : Taken alloc s₀ (linkTable u (j.setWidth 64) f s) f) (a : UINT64)
    (ha : (linkTable u (j.setWidth 64) f s).mem a ≠ s₀.mem a) :
    (∃ p i t, p ++ [i] <+: tablePath virt ∧ tableAt cr3 s₀ p = some t ∧ a = slot t i ∧
      s₀.mem a = 0#64) ∨
      ∃ g, Taken alloc s₀ (linkTable u (j.setWidth 64) f s) g ∧ a - g < 0x1000#64 := by
  have hc : s.calls ≤ (linkTable u (j.setWidth 64) f s).calls := Nat.le_succ _
  by_cases hs : s.mem a = s₀.mem a
  · rw [← hs] at ha
    rcases linkTable_mem ha with he | hfr
    · -- the entry is zero already before the descent, or in a new table
      cases D.tables q u ((List.prefix_append q [j]).trans hq) hu with
      | inl h => exact .inl ⟨q, j, u, hq, h, he, by rw [← hs, he]; exact hz⟩
      | inr h =>
        exact .inr ⟨u, h.mono hc, by rw [he]; exact (slot_sub_lt_iff (R.aligned hu) (R.aligned hu) j).mpr rfl⟩
    · exact .inr ⟨f, hnew, hfr⟩
  · cases D.words a hs with
    | inl h => exact .inl h
    | inr h =>
      obtain ⟨g, hg, hag⟩ := h
      exact .inr ⟨g, hg.mono hc, hag⟩

/-- Hanging a table stores to it and to its entry. -/
theorem linkTable_logged (u f : UINT64) (j : BitVec 9) (s : MapState) :
    Logged MapEvent.InTable s (linkTable u (j.setWidth 64) f s) := by
  refine ⟨_, rfl, fun e he => ?_⟩
  have hj := j.isLt
  simp only [List.mem_cons, List.not_mem_nil, or_false] at he
  cases he with
  | inl h => rw [h]; trivial
  | inr h =>
    rw [h]
    simp only [MapEvent.InTable, BitVec.toNat_setWidth]
    omega

/-- One more level. -/
theorem Descent.next {virt : UINT64} {s₀ : MapState} (D : Descent alloc cr3 virt s₀ s)
    (R : Ready alloc last V cr3 s) (hv : virt ∈ V) {q : List (BitVec 9)} {j : BitVec 9}
    (hq : q ++ [j] <+: tablePath virt) {u : UINT64} (hu : tableAt cr3 s q = some u)
    (hlast : (nextTable alloc u (j.setWidth 64) s).2.calls ≤ last) :
    Descent alloc cr3 virt s₀ (nextTable alloc u (j.setWidth 64) s).2 := by
  by_cases hz : s.mem (slot u j) = 0#64
  · have hl : s.calls < last := by
      rw [nextTable, if_pos (show s.mem (entry u (j.setWidth 64)) = 0#64 from hz)] at hlast
      exact hlast
    obtain ⟨f, hf, hfa, hlt⟩ := R.frames.succeeds s.calls (Nat.le_refl _) hl
    have H : Hang alloc last V cr3 s q j u f := ⟨⟨virt, hv, hq⟩, hu, hz, hf, hl, hfa, hlt⟩
    rw [nextTable_empty hf hz]
    have hc : s.calls ≤ (linkTable u (j.setWidth 64) f s).calls := Nat.le_succ _
    have hnew : Taken alloc s₀ (linkTable u (j.setWidth 64) f s) f :=
      ⟨s.calls, D.calls, Nat.lt_succ_self _, hf⟩
    refine ⟨D.calls.trans hc, D.link_words R hq hu hz hnew, fun p t hp ht => ?_,
      D.log.trans (linkTable_logged u f j s)⟩
    rw [H.tableAt R ⟨virt, hv, hp⟩] at ht
    split at ht
    · cases ht; exact .inr hnew
    · cases D.tables p t hp ht with
      | inl h => exact .inl h
      | inr h => exact .inr (h.mono hc)
  · rw [nextTable_used hz]
    exact D

/-- What the loop does from page `i` on while it stays in its table. -/
structure LeafStores (alloc : Nat → Option UINT64) (last : Nat) (V : Set UINT64) (cr3 virt : UINT64)
    (n : Nat) (pml1 : UINT64) (i : Nat) (s s' : MapState) : Prop where
  grows : Grows alloc last V cr3 s s'
  calls : s'.calls = s.calls
  words : ∀ a, s'.mem a ≠ s.mem a → ∃ k, i ≤ k ∧ k < n ∧ a = slot pml1 (pml1i (pageAt virt k))
  leaves : ∀ p ∈ PathsOf V, ∀ j, Off virt i n p j → leafWord cr3 s' p j = leafWord cr3 s p j
  log : Logged MapEvent.InTable s s'

/-- Page `i`, then the pages after it. -/
theorem LeafStores.cons {virt pml1 value : UINT64} {n i : Nat} (R : Ready alloc last V cr3 s)
    (hv : virt ∈ V) (ht : tableAt cr3 s (tablePath virt) = some pml1) (hi : i < n)
    (hpath : tablePath (pageAt virt i) = tablePath virt)
    (hix : leafIndex virt i = (pml1i (pageAt virt i)).setWidth 64)
    (h : Ready alloc last V cr3 (storeLeaf pml1 (leafIndex virt i) value (pageAt virt i) s) →
      LeafStores alloc last V cr3 virt n pml1 (i + 1)
        (storeLeaf pml1 (leafIndex virt i) value (pageAt virt i) s) s') :
    LeafStores alloc last V cr3 virt n pml1 i s s' := by
  rw [hix] at h
  obtain ⟨g, hw⟩ := storeLeaf_spec R (tablePath_mem hv) rfl ht (pml1i (pageAt virt i)) value
    (pageAt virt i)
  have L := h g.ready
  refine ⟨g.trans L.grows, L.calls, fun a ha => ?_, fun p hp j hoff => ?_, ?_⟩
  · by_cases he : a = slot pml1 (pml1i (pageAt virt i))
    · exact ⟨i, Nat.le_refl _, hi, he⟩
    · have hs : (storeLeaf pml1 ((pml1i (pageAt virt i)).setWidth 64) value (pageAt virt i) s).mem a =
          s.mem a := Function.update_of_ne he _ _
      obtain ⟨k, hk, hkn, hak⟩ := L.words a (by rw [hs]; exact ha)
      exact ⟨k, by omega, hkn, hak⟩
  · rw [L.leaves p hp j (hoff.mono (Nat.le_succ i)), hw p hp, if_neg]
    intro he
    exact hoff i (Nat.le_refl _) hi ⟨he.1.trans hpath.symm, he.2⟩
  · refine Logged.trans ⟨_, rfl, fun e he => ?_⟩ L.log
    have hj := (pml1i (pageAt virt i)).isLt
    simp only [List.mem_cons, List.not_mem_nil, or_false] at he
    cases he with
    | inl h =>
      rw [h]
      simp only [MapEvent.InTable, BitVec.toNat_setWidth]
      omega
    | inr h => rw [h]; trivial

/-- An address whose last-level entry reads as before is translated as
before, if `V` is everything. -/
theorem Grows.translate (R : Ready alloc last Set.univ cr3 s)
    (g : Grows alloc last Set.univ cr3 s s') {v : UINT64}
    (hw : leafWord cr3 s' (tablePath v) (pml1i v) = leafWord cr3 s (tablePath v) (pml1i v)) :
    translate s'.mem cr3 v = translate s.mem cr3 v := by
  have hc := address_of_aligned R.hier.root_aligned R.hier.root_lt
  have hp : tablePath v ∈ PathsOf Set.univ := tablePath_mem (Set.mem_univ v)
  cases ht : tableAt cr3 s (tablePath v) with
  | some t =>
    have ht' := g.mono _ hp t ht
    rw [leafWord_some ht, leafWord_some ht'] at hw
    rw [Paging.translate, cpuWalk_of_follow hc ht', hw, Paging.translate, cpuWalk_of_follow hc ht]
  | none =>
    have hbefore : Paging.translate s.mem cr3 v = none := by
      rw [Paging.translate, cpuWalk_of_follow_none hc (R.hier.clean v (Set.mem_univ v)) ht]
    rw [hbefore]
    rw [leafWord_none ht] at hw
    cases ht' : tableAt cr3 s' (tablePath v) with
    | some t =>
      -- the table is new, and its entry still empty
      rw [leafWord_some ht'] at hw
      rw [Paging.translate, cpuWalk_of_follow hc ht', hw]
      rfl
    | none =>
      rw [Paging.translate,
        cpuWalk_of_follow_none hc (g.ready.hier.clean v (Set.mem_univ v)) ht']

theorem off_of_pageNumber {virt v : UINT64} {n : Nat}
    (h : ∀ k < n, pageNumber v ≠ pageNumber (pageAt virt k)) :
    Off virt 0 n (tablePath v) (pml1i v) :=
  fun k _ hk he => h k hk ((pageNumber_eq_iff _ _).mpr he)

/-- The stores for the pages from `i` on are in the log. -/
def Stores (virt : UINT64) (n i : Nat) (s s' : MapState) : Prop :=
  ∃ new, s'.log = s.log ++ new ∧
    ∀ k, i ≤ k → k < n → ∃ table value, .leaf table (leafIndex virt k) value ∈ new

theorem Stores.after {virt : UINT64} {n i : Nat} {P : MapEvent → Prop} (h : Logged P s s')
    (h' : Stores virt n i s' s'') : Stores virt n i s s'' := by
  obtain ⟨new, hnew, -⟩ := h
  obtain ⟨new', hnew', hk⟩ := h'
  refine ⟨new ++ new', by rw [hnew', hnew, List.append_assoc], fun k hi hkn => ?_⟩
  obtain ⟨table, value, hm⟩ := hk k hi hkn
  exact ⟨table, value, List.mem_append_right new hm⟩

/-- The store for page `i`, then those for the pages after it. -/
theorem Stores.cons {virt pml1 value : UINT64} {n i : Nat}
    (h : Logged (fun _ => True)
      (storeLeaf pml1 (leafIndex virt i) value (pageAt virt i) s) s')
    (h' : Stores virt n (i + 1) s' s'') : Stores virt n i s s'' := by
  obtain ⟨new, hnew, -⟩ := h
  obtain ⟨new', hnew', hk⟩ := h'
  refine ⟨_, by rw [hnew', hnew, storeLeaf, List.append_assoc, List.append_assoc], ?_⟩
  intro k hi hkn
  rcases Nat.eq_or_lt_of_le hi with rfl | hlt
  · exact ⟨pml1, value, by simp⟩
  · obtain ⟨table, v, hm⟩ := hk k hlt hkn
    exact ⟨table, v, by simp [hm]⟩

end

end PiousOS.Loader
