import PiousOS.L3Loader.MapFrame
import PiousOS.L3Loader.MapStores

/-!
# How far MapVirtualPages reaches in memory

A call stores to tables on the walks of its range, to the frames it hangs, and
behind a last-level table as far as its last index (`Reach`). Memory that lies
elsewhere is left alone (`CanMap.spares`), and what the CPU finds in memory
afterwards is the range mapped page by page (`CanMap.cpuAddress`).
-/
namespace PiousOS.Loader
open ByteMem Paging

/-- The bytes of the tables on the walks of `V`, of the frames still to come,
and of what lies behind the last-level ones up to entry `bound`. -/
def Reach (alloc : Nat → Option UINT64) (last : Nat) (V : Set UINT64) (cr3 : UINT64) (s : MapState)
    (bound : Nat) (x : UINT64) : Prop :=
  (∃ X, IsFrame alloc last V cr3 s X ∧ (x - X).toNat < 0x1000) ∨
    ∃ T, IsLastFrame alloc last V cr3 s T ∧ (x - T).toNat < 8 * bound

/-- The event stores no other bytes. -/
def MapEvent.InReach (alloc : Nat → Option UINT64) (last : Nat) (V : Set UINT64) (cr3 : UINT64)
    (s : MapState) (bound : Nat) (e : MapEvent) : Prop :=
  ∀ x, e.Touches x → Reach alloc last V cr3 s bound x

section
variable {alloc : Nat → Option UINT64} {last : Nat} {V : Set UINT64} {cr3 : UINT64}
  {s s' s₀ : MapState} {flags : UINT32} {bound bound' : Nat}

theorem Reach.grows {x : UINT64} (h : Reach alloc last V cr3 s' bound' x)
    (g : Grows alloc last V cr3 s s') (hb : bound' ≤ bound) : Reach alloc last V cr3 s bound x := by
  rcases h with ⟨X, hX, hx⟩ | ⟨T, hT, hx⟩
  · exact .inl ⟨X, g.isFrame X hX, hx⟩
  · exact .inr ⟨T, g.isLastFrame T hT, by omega⟩

theorem Logged.grows (h : Logged (MapEvent.InReach alloc last V cr3 s₀ bound') s s')
    {t : MapState} (g : Grows alloc last V cr3 t s₀) (hb : bound' ≤ bound) :
    Logged (MapEvent.InReach alloc last V cr3 t bound) s s' := by
  obtain ⟨new, hlog, hnew⟩ := h
  exact ⟨new, hlog, fun e he x hx => (hnew e he x hx).grows g hb⟩

/-! ## The steps -/

/-- The word at an index lies that far behind the table. -/
theorem touches_entry {T index x : UINT64} {b : Nat} (h : (x - entry T index).toNat < 8)
    (hb : index.toNat < b) : (x - T).toNat < 8 * b := by
  have hx : x - T = (x - entry T index) + 8#64 * index := by
    unfold entry
    apply BitVec.eq_of_toNat_eq
    simp only [BitVec.toNat_sub, BitVec.toNat_add]
    omega
  rw [hx, BitVec.toNat_add, BitVec.toNat_mul, BitVec.toNat_ofNat]
  omega

theorem nextTable_inReach (R : Ready alloc last V cr3 s) {q : List (BitVec 9)} {j : BitVec 9}
    (hq : q ∈ PathsOf V) {u : UINT64} (hu : tableAt cr3 s q = some u)
    (hlast : (nextTable alloc u (j.setWidth 64) s).2.calls ≤ last) :
    Logged (MapEvent.InReach alloc last V cr3 s bound) s (nextTable alloc u (j.setWidth 64) s).2 := by
  by_cases hz : s.mem (entry u (j.setWidth 64)) = 0#64
  · have hl : s.calls < last := by
      rw [nextTable, if_pos hz] at hlast
      exact hlast
    obtain ⟨f, hf, -⟩ := R.frames.succeeds s.calls (Nat.le_refl _) hl
    rw [nextTable_empty hf hz]
    refine ⟨_, rfl, fun e he x hx => .inl ?_⟩
    simp only [List.mem_cons, List.not_mem_nil, or_false] at he
    rcases he with rfl | rfl
    · exact ⟨f, .inr ⟨_, Nat.le_refl _, hl, hf⟩, hx⟩
    · have hj : (j.setWidth 64).toNat < 512 := by
        rw [BitVec.toNat_setWidth]
        have := j.isLt
        omega
      exact ⟨u, .inl ⟨q, hq, hu⟩, touches_entry hx hj⟩
  · rw [nextTable_used hz]
    exact Logged.refl s

theorem lastTable_inReach (R : Ready alloc last V cr3 s) {virt : UINT64} (hv : virt ∈ V)
    (hlast : (lastTable alloc cr3 virt s).2.calls ≤ last) :
    Logged (MapEvent.InReach alloc last V cr3 s bound) s (lastTable alloc cr3 virt s).2 := by
  have hdescent := lastTable_rule_within (P := fun q u t => Grows alloc last V cr3 s t ∧
    tableAt cr3 t q = some u ∧ Logged (MapEvent.InReach alloc last V cr3 s bound) s t)
    hlast ⟨Grows.refl R, rfl, Logged.refl s⟩ ?_
  · exact hdescent.2.2
  · intro q j u t hq ⟨g, ht, hlog⟩ hcalls
    have hqj : q ++ [j] ∈ PathsOf V := ⟨virt, hv, hq⟩
    obtain ⟨g', ht', -⟩ := nextTable_spec g.ready hqj ht hcalls
    have hstep : Logged (MapEvent.InReach alloc last V cr3 t bound) t _ :=
      nextTable_inReach g.ready (pathsOf_prefixClosed V q j hqj) ht hcalls
    exact ⟨g.trans g', ht', hlog.trans (hstep.grows g (Nat.le_refl _))⟩

section
variable {physical virt pml1 : UINT64} {n i : Nat}

/-- A leaf store, inside the table or behind it, keeps what the range needs. -/
theorem Begins.storeLeaf (B : Begins alloc last V cr3 virt n s)
    (ht : tableAt cr3 s (tablePath virt) = some pml1) (hi : i < n) (value v : UINT64) :
    Grows alloc last V cr3 s (storeLeaf pml1 (leafIndex virt i) value v s) ∧
      missing V cr3 (Loader.storeLeaf pml1 (leafIndex virt i) value v s) = missing V cr3 s := by
  have hp := tablePath_mem B.base
  by_cases hidx : 511#64 < leafIndex virt i
  · have hlt := leafIndex_toNat B.below hi
    have hgt : 511 < (leafIndex virt i).toNat := by
      rw [BitVec.lt_def] at hidx
      simpa only [BitVec.toNat_ofNat] using hidx
    have hmiss : ∀ p ∈ PathsOf V, ∀ t j, tableAt cr3 s p = some t →
        slot t j ≠ entry pml1 (leafIndex virt i) := fun p hpV t j htp =>
      B.clear pml1 t (.inl ⟨_, hp, rfl, ht⟩) (.inl ⟨p, hpV, htp⟩) _ hgt (by omega) j
    exact ⟨(storeLeaf_foreign B.ready pml1 _ hmiss _ _).1,
      missing_congr (storeLeaf_foreign_tableAt _ _ hmiss _ _)⟩
  · rw [(inside_index B.below hi hidx).2]
    exact ⟨(storeLeaf_spec B.ready hp rfl ht _ _ _).1,
      missing_congr (storeLeaf_tableAt B.ready hp rfl ht _ _ _)⟩

theorem Begins.storeLeaf_inReach (B : Begins alloc last V cr3 virt n s)
    (ht : tableAt cr3 s (tablePath virt) = some pml1) (hi : i < n) (value v : UINT64) :
    Logged (MapEvent.InReach alloc last V cr3 s ((pml1i virt).toNat + n)) s
      (Loader.storeLeaf pml1 (leafIndex virt i) value v s) := by
  refine ⟨_, rfl, fun e he x hx => ?_⟩
  simp only [List.mem_cons, List.not_mem_nil, or_false] at he
  rcases he with rfl | rfl
  · refine .inr ⟨pml1, .inl ⟨_, tablePath_mem B.base, rfl, ht⟩, touches_entry hx ?_⟩
    have := leafIndex_toNat B.below hi
    omega
  · exact hx.elim

/-- What a call is shown to store. -/
def CallReaches (alloc : Nat → Option UINT64) (last : Nat) (V : Set UINT64) (cr3 : UINT64)
    (flags : UINT32) (physical virt : UINT64) (n : Nat) (s s' : MapState) : Prop :=
  s' = (mapVirtualPages alloc cr3 physical virt n flags s).2 ∧
    (Begins alloc last V cr3 virt n s → Room last V cr3 s →
      Logged (MapEvent.InReach alloc last V cr3 s ((pml1i virt).toNat + n)) s s')

/-- The same for the loop from page `i` on. -/
def LoopReaches (alloc : Nat → Option UINT64) (last : Nat) (V : Set UINT64) (cr3 : UINT64)
    (flags : UINT32) (physical virt : UINT64) (n : Nat) (pml1 : UINT64) (i : Nat)
    (s s' : MapState) : Prop :=
  s' = leafLoop alloc cr3 physical virt n flags pml1 i s ∧
    (Begins alloc last V cr3 virt n s → Room last V cr3 s →
      tableAt cr3 s (tablePath virt) = some pml1 →
      Logged (MapEvent.InReach alloc last V cr3 s ((pml1i virt).toNat + n)) s s')

theorem loopReaches_inside (hi : i < n) (hidx : ¬ 511#64 < leafIndex virt i)
    (h : LoopReaches alloc last V cr3 flags physical virt n pml1 (i + 1)
      (storeLeaf pml1 (leafIndex virt i) (leafValue physical flags i) (pageAt virt i) s) s') :
    LoopReaches alloc last V cr3 flags physical virt n pml1 i s s' := by
  refine ⟨h.1.trans (leafLoop_inside hi hidx).symm, fun B hr ht => ?_⟩
  obtain ⟨g, hmissing⟩ := B.storeLeaf ht hi (leafValue physical flags i) (pageAt virt i)
  have hrest := h.2 (B.grows g B.within) (by rw [Room, hmissing]; exact hr)
    (g.mono _ (tablePath_mem B.base) _ ht)
  exact (B.storeLeaf_inReach ht hi _ _).trans (hrest.grows g (Nat.le_refl _))

theorem loopReaches_past (hi : i < n) (hidx : 511#64 < leafIndex virt i) {s₂ : MapState}
    (hcall : CallReaches alloc last V cr3 flags (physical + BitVec.ofNat 64 i <<< 12) (pageAt virt i)
      (n - i) (storeLeaf pml1 (leafIndex virt i) (leafValue physical flags i) (pageAt virt i) s) s₂)
    (h : LoopReaches alloc last V cr3 flags physical virt n pml1 (i + 1) s₂ s') :
    LoopReaches alloc last V cr3 flags physical virt n pml1 i s s' := by
  refine ⟨?_, fun B hr ht => ?_⟩
  · rw [h.1, hcall.1, leafLoop_past hi hidx]
  obtain ⟨g, hmissing⟩ := B.storeLeaf ht hi (leafValue physical flags i) (pageAt virt i)
  have hr₁ : Room last V cr3 (storeLeaf pml1 (leafIndex virt i) (leafValue physical flags i)
      (pageAt virt i) s) := by rw [Room, hmissing]; exact hr
  have B₁ := (B.grows g B.within).rest hi
  have M := mapVirtualPages_maps alloc last V cr3 flags (physical + BitVec.ofNat 64 i <<< 12)
    (pageAt virt i) (n - i) _ B₁.base B₁.pages B₁.below B₁.short B₁.ready B₁.clear hr₁
  rw [← hcall.1] at M
  have g₂ := g.trans M.grows
  have hwithin := Nat.le_trans (Nat.le_add_right _ _) M.room
  have hrest := h.2 (B.grows g₂ hwithin) M.room (g₂.mono _ (tablePath_mem B.base) _ ht)
  exact (B.storeLeaf_inReach ht hi _ _).trans
    (((hcall.2 B₁ hr₁).grows g (B.reach_rest hi)).trans (hrest.grows g₂ (Nat.le_refl _)))

theorem callReaches_of_loop
    (h : LoopReaches alloc last V cr3 flags physical virt n (lastTable alloc cr3 virt s).1 0
      (lastTable alloc cr3 virt s).2 s') :
    CallReaches alloc last V cr3 flags physical virt n s s' := by
  refine ⟨?_, fun B hr => ?_⟩
  · rw [h.1, mapVirtualPages_eq]
  obtain ⟨hlast, hr'⟩ := lastTable_room B.ready B.base hr
  obtain ⟨g, ht, -⟩ := lastTable_spec B.ready B.base hlast
  have hloop := h.2 (B.grows g hlast) hr' ht
  exact (lastTable_inReach B.ready B.base hlast).trans (hloop.grows g (Nat.le_refl _))

variable (alloc last V cr3 flags) in
/-- No store of a call goes out of its reach. -/
theorem mapVirtualPages_inReach (physical virt : UINT64) (n : Nat) (s : MapState)
    (B : Begins alloc last V cr3 virt n s) (hr : Room last V cr3 s) :
    Logged (MapEvent.InReach alloc last V cr3 s ((pml1i virt).toNat + n)) s
      (mapVirtualPages alloc cr3 physical virt n flags s).2 := by
  refine ((mapVirtualPages_rule (C := CallReaches alloc last V cr3 flags)
    (L := LoopReaches alloc last V cr3 flags) ?call ?inside ?past ?done).1 physical virt n s).2 B hr
  case call => exact fun _ _ _ _ _ h => callReaches_of_loop h
  case inside => exact fun _ _ _ _ _ _ _ hi hidx h => loopReaches_inside hi hidx h
  case past => exact fun _ _ _ _ _ _ _ _ hi hidx hc h => loopReaches_past hi hidx hc h
  case done =>
    exact fun _ _ _ _ _ s hi => ⟨(leafLoop_done hi).symm, fun _ _ _ => Logged.refl s⟩

end

end

/-! ## A range mapped in memory -/

/-- The call as the loader makes it: what is in memory, and no frame taken
yet. -/
def atCall (mem : ByteMem) : MapState := ⟨load64 mem, 0, []⟩

/-- The tables in memory let the call do its work, and do not lie in the
physical pages it maps. -/
structure CanMap (alloc : Nat → Option UINT64) (cr3 physical virt : UINT64) (n : Nat)
    (mem : ByteMem) : Prop where
  physical_aligned : PageAligned physical
  physical_end : physical.toNat + n * 4096 ≤ 2 ^ 52
  virt_end : virt.toNat + n * 4096 ≤ 2 ^ 64
  short : n ≤ 2 ^ 36
  hier : Hierarchy (RangeOf virt n) cr3 (load64 mem)
  frames : FreshFrames alloc (missing (RangeOf virt n) cr3 (atCall mem)) (RangeOf virt n) cr3 (atCall mem)
  frames_aligned : ∀ k f, alloc k = some f → PageAligned f
  clear : OverrunClear alloc (missing (RangeOf virt n) cr3 (atCall mem)) (RangeOf virt n) cr3 (atCall mem)
    ((pml1i virt).toNat + n)
  apart : ∀ x : UINT64, (x - physical).toNat < n * 4096 →
    ¬ Reach alloc (missing (RangeOf virt n) cr3 (atCall mem)) (RangeOf virt n) cr3 (atCall mem)
      ((pml1i virt).toNat + n) x

/-- Memory after the call. -/
def mappedMem (alloc : Nat → Option UINT64) (cr3 physical virt : UINT64) (n : Nat) (flags : UINT32)
    (mem : ByteMem) : ByteMem :=
  stored mem (mapVirtualPages alloc cr3 physical virt n flags (atCall mem)).2.log

section
variable {alloc : Nat → Option UINT64} {cr3 physical virt : UINT64} {n : Nat} {mem : ByteMem}

theorem wordAligned_of_page {a : UINT64} (h : PageAligned a) : WordAligned a := by
  unfold PageAligned at h
  unfold WordAligned
  omega

theorem CanMap.begins (h : CanMap alloc cr3 physical virt n mem) (hn : 0 < n) :
    Begins alloc (missing (RangeOf virt n) cr3 (atCall mem)) (RangeOf virt n) cr3 virt n (atCall mem) where
  base := ⟨0, hn, (pageAt_zero virt).symm⟩
  pages k hk := ⟨k, hk, rfl⟩
  below := h.virt_end
  short := h.short
  ready := ⟨h.hier, h.frames⟩
  clear := h.clear
  within := Nat.zero_le _

theorem atCall_room (cr3 virt : UINT64) (n : Nat) (mem : ByteMem) :
    Room (missing (RangeOf virt n) cr3 (atCall mem)) (RangeOf virt n) cr3 (atCall mem) :=
  Nat.le_of_eq (Nat.zero_add _)

/-- The pages that are mapped keep what is in them. -/
theorem CanMap.spares (h : CanMap alloc cr3 physical virt n mem) (flags : UINT32) {x : UINT64}
    (hx : (x - physical).toNat < n * 4096) :
    mappedMem alloc cr3 physical virt n flags mem x = mem x := by
  obtain ⟨new, hlog, hnew⟩ := mapVirtualPages_inReach alloc _ _ cr3 flags physical virt n (atCall mem)
    (h.begins (by omega)) (atCall_room ..)
  have hlog' : (mapVirtualPages alloc cr3 physical virt n flags (atCall mem)).2.log = new := hlog
  rw [mappedMem, hlog']
  exact stored_untouched (fun e he ht => h.apart x hx (hnew e he x ht)) mem

/-- In memory, page `k` of the range is mapped to physical page `k`. -/
theorem CanMap.cpuWalk (h : CanMap alloc cr3 physical virt n mem) (flags : UINT32) {k : Nat} (hk : k < n) :
    Paging.cpuWalk (load64 (mappedMem alloc cr3 physical virt n flags mem)) cr3 (pageAt virt k) =
      .leaf (leafValue physical flags k) := by
  have B := h.begins (Nat.lt_of_le_of_lt (Nat.zero_le k) hk)
  have M := mapVirtualPages_maps alloc _ _ cr3 flags physical virt n _ B.base B.pages B.below B.short
    B.ready B.clear (atCall_room ..)
  obtain ⟨new, hlog, hnew⟩ := mapVirtualPages_shadows (fun k f hf => wordAligned_of_page (h.frames_aligned k f hf))
    (wordAligned_of_page h.hier.root_aligned) physical virt n flags (atCall mem)
  have hlog' : (mapVirtualPages alloc cr3 physical virt n flags (atCall mem)).2.log = new := hlog
  rw [mappedMem, hlog', cpuWalk_mirrors (hnew mem (mirrors_self mem))]
  exact (M.mapped k (Nat.zero_le _) hk).cpuWalk (address_of_aligned h.hier.root_aligned h.hier.root_lt)

theorem address_leafValue {k : Nat} (h : PageAligned physical) (hlt : physical.toNat + k * 4096 < 2 ^ 52) :
    address (leafValue physical 3#32 k) = physical + BitVec.ofNat 64 k <<< 12 ∧
      present (leafValue physical 3#32 k) = true := by
  have hpage : (physical + BitVec.ofNat 64 k <<< 12).toNat = physical.toNat + k * 4096 := by
    simp only [BitVec.toNat_add, BitVec.toNat_shiftLeft, BitVec.toNat_ofNat, Nat.shiftLeft_eq]
    omega
  have haligned : PageAligned (physical + BitVec.ofNat 64 k <<< 12) := by
    unfold PageAligned at h ⊢
    omega
  obtain ⟨hptr, haddr⟩ := isPointer_or haligned (by omega)
  have hvalue : leafValue physical 3#32 k = physical + BitVec.ofNat 64 k <<< 12 ||| 0x01#64 ||| 0x02#64 := by
    rw [leafValue, BitVec.or_assoc]
    rfl
  rw [hvalue]
  exact ⟨haddr, hptr.1⟩

/-- An address of the range is translated to its place in the physical pages. -/
theorem CanMap.cpuAddress (h : CanMap alloc cr3 physical virt n mem) (hvirt : PageAligned virt) {v : UINT64}
    (hv : (v - virt).toNat < n * 4096) :
    Paging.cpuAddress (load64 (mappedMem alloc cr3 physical virt n 3#32 mem)) cr3 v =
      some (physical + (v - virt)) := by
  obtain ⟨k, hk⟩ : ∃ k, k = (v - virt).toNat / 4096 := ⟨_, rfl⟩
  have hkn : k < n := by omega
  have hvirt' := h.virt_end
  have hphys := h.physical_end
  have := v.isLt
  have := virt.isLt
  unfold PageAligned at hvirt
  have hoff : (v - virt).toNat = v.toNat - virt.toNat ∧ virt.toNat ≤ v.toNat := by
    rw [BitVec.toNat_sub] at hv ⊢
    omega
  have hpage := pageAt_toNat h.virt_end hkn
  have hnumber : pageNumber v = pageNumber (pageAt virt k) := by
    unfold pageNumber
    omega
  have hwalk := (cpuWalk_congr hnumber).trans (h.cpuWalk 3#32 hkn)
  obtain ⟨haddr, hpresent⟩ := address_leafValue h.physical_aligned (k := k) (by omega)
  rw [cpuAddress_leaf hwalk hpresent, haddr]
  refine congrArg some (BitVec.eq_of_toNat_eq ?_)
  have hlow : (v &&& 0xFFF#64).toNat = v.toNat % 4096 := by
    rw [BitVec.toNat_and]
    exact Nat.and_two_pow_sub_one_eq_mod _ 12
  simp only [BitVec.toNat_add, BitVec.toNat_shiftLeft, BitVec.toNat_ofNat, Nat.shiftLeft_eq, hlow, hoff]
  omega

end

end PiousOS.Loader
