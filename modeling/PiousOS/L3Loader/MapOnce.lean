import PiousOS.L3Loader.MapFrame

/-!
# How often MapVirtualPages does a page

The loop calls the function again inside its body and then goes on with the
next page itself. Past the end of the table every page is stored by the loop,
by the call it makes there, by the calls that one makes.

Results:
* `mapVirtualPages_leafStores_le`: a call stores a leaf for each page, and one
  more if a page lies past the end of the table.
* `leafLoop_inOrder`: inside one table the loop stores page after page, each
  with its `invlpg`.
* `mapVirtualPages_once_iff`: each page is done once exactly if the range ends
  in the table it begins in.
-/
namespace PiousOS.Loader
open Paging

/-! ## The events of a page -/

/-- A leaf store or the `invlpg` after it. -/
def MapEvent.ofPage : MapEvent → Bool
  | .leaf .. | .invlpg _ => true
  | .zero _ | .link .. => false

def MapEvent.isLeaf : MapEvent → Bool
  | .leaf .. => true
  | .zero _ | .link .. | .invlpg _ => false

def pageEvents (log : List MapEvent) : List MapEvent := log.filter MapEvent.ofPage

def leafStores (log : List MapEvent) : Nat := log.countP MapEvent.isLeaf

theorem pageEvents_append (log new : List MapEvent) :
    pageEvents (log ++ new) = pageEvents log ++ pageEvents new :=
  List.filter_append _ _

theorem leafStores_append (log new : List MapEvent) :
    leafStores (log ++ new) = leafStores log + leafStores new :=
  List.countP_append

/-- Page `k` of a range is done: its entry is stored, in some table, and its
address is invalidated. -/
def doesPage (physical virt : UINT64) (flags : UINT32) (table index : Nat → UINT64) (k : Nat) :
    List MapEvent :=
  [.leaf (table k) (index k) (leafValue physical flags k), .invlpg (pageAt virt k)]

/-- The pages `i`, …, `i + n - 1` are done in this order, each once. -/
def doesPages (physical virt : UINT64) (flags : UINT32) (table index : Nat → UINT64) (i n : Nat) :
    List MapEvent :=
  (List.range' i n).flatMap (doesPage physical virt flags table index)

/-- From `s` to `s'` each page of the range has been done once, in ascending
order. -/
structure EachPageOnce (physical virt : UINT64) (flags : UINT32) (n : Nat) (s s' : MapState) :
    Prop where
  order : ∃ new table index, s'.log = s.log ++ new ∧
    pageEvents new = doesPages physical virt flags table index 0 n
  count : leafStores s'.log = leafStores s.log + n

section
variable {alloc : Nat → Option UINT64} {cr3 : UINT64} {flags : UINT32} {s s' : MapState}

/-! ## The descent does no page -/

/-- The log has grown, by events that do no page. -/
def NoPageDone (s s' : MapState) : Prop := ∃ new, s'.log = s.log ++ new ∧ ∀ e ∈ new, e.ofPage = false

theorem NoPageDone.trans {s'' : MapState} (h : NoPageDone s s') (h' : NoPageDone s' s'') :
    NoPageDone s s'' :=
  Logged.trans h h'

theorem nextTable_noPageDone (table i : UINT64) (s : MapState) :
    NoPageDone s (nextTable alloc table i s).2 := by
  unfold nextTable
  split
  · refine ⟨_, rfl, fun e he => ?_⟩
    simp only [List.mem_cons, List.not_mem_nil, or_false] at he
    rcases he with rfl | rfl
    · rfl
    · rfl
  · exact Logged.refl s

variable (alloc cr3) in
theorem lastTable_noPageDone (virt : UINT64) (s : MapState) :
    NoPageDone s (lastTable alloc cr3 virt s).2 :=
  (nextTable_noPageDone _ _ s).trans ((nextTable_noPageDone _ _ _).trans (nextTable_noPageDone _ _ _))

theorem NoPageDone.leafStores (h : NoPageDone s s') : leafStores s'.log = leafStores s.log := by
  obtain ⟨new, hlog, hnew⟩ := h
  have hnone : Loader.leafStores new = 0 := by
    refine List.countP_eq_zero.mpr fun e he hleaf => ?_
    have := hnew e he
    cases e with
    | leaf t i v => cases this
    | zero f => cases hleaf
    | link t i v => cases hleaf
    | invlpg v => cases hleaf
  rw [hlog, leafStores_append, hnone, Nat.add_zero]

theorem storeLeaf_leafStores (pml1 index value virt : UINT64) (s : MapState) :
    leafStores (storeLeaf pml1 index value virt s).log = leafStores s.log + 1 :=
  leafStores_append _ _

/-! ## At least one store a page -/

/-- Some page from `i` on lies past the end of the first page's table. -/
def Crosses (virt : UINT64) (i n : Nat) : Prop := ∃ k, i ≤ k ∧ k < n ∧ 511#64 < leafIndex virt k

/-- From `s` to `s'` the pages `i` to `n - 1` have been stored, one of them
twice if one lies past the end of the table. -/
structure StoresAll (virt : UINT64) (i n : Nat) (s s' : MapState) : Prop where
  each : leafStores s.log + (n - i) ≤ leafStores s'.log
  twice : Crosses virt i n → leafStores s.log + (n - i) + 1 ≤ leafStores s'.log

/-- A call stores a leaf for each page, and one more if a page lies past the
end of the table: that page is stored by the loop and by the call it makes. -/
theorem mapVirtualPages_leafStores_le (alloc : Nat → Option UINT64) (cr3 physical virt : UINT64)
    (flags : UINT32) (n : Nat) (s : MapState) :
    StoresAll virt 0 n s (mapVirtualPages alloc cr3 physical virt n flags s).2 := by
  refine (mapVirtualPages_rule (C := fun _ virt n s s' => StoresAll virt 0 n s s')
    (L := fun _ virt n _ i s s' => StoresAll virt i n s s') ?call ?inside ?past ?done).1 physical virt n s
  case call =>
    intro physical virt n s s' h
    have hsame := (lastTable_noPageDone alloc cr3 virt s).leafStores
    refine ⟨?_, fun hcross => ?_⟩
    · rw [← hsame]
      exact h.each
    · rw [← hsame]
      exact h.twice hcross
  case inside =>
    intro physical virt n pml1 i s s' hi hidx h
    have hstore := storeLeaf_leafStores pml1 (leafIndex virt i) (leafValue physical flags i) (pageAt virt i) s
    have heach := h.each
    refine ⟨by omega, fun hcross => ?_⟩
    obtain ⟨k, hik, hkn, hpast⟩ := hcross
    have hlater : i + 1 ≤ k := by
      rcases Nat.eq_or_lt_of_le hik with rfl | hlt
      · exact absurd hpast hidx
      · exact hlt
    have htwice := h.twice ⟨k, hlater, hkn, hpast⟩
    omega
  case past =>
    intro physical virt n pml1 i s s₂ s' hi hidx hcall h
    have hstore := storeLeaf_leafStores pml1 (leafIndex virt i) (leafValue physical flags i) (pageAt virt i) s
    -- the call for the rest of the range stores page `i` once more
    have hrest := hcall.each
    have heach := h.each
    exact ⟨by omega, fun _ => by omega⟩
  case done =>
    intro physical virt n pml1 i s hi
    refine ⟨by omega, fun hcross => ?_⟩
    obtain ⟨k, hik, hkn, -⟩ := hcross
    omega

/-! ## Inside one table -/

theorem doesPages_succ (physical virt : UINT64) (flags : UINT32) (table index : Nat → UINT64) (i n : Nat) :
    doesPages physical virt flags table index i (n + 1) =
      doesPage physical virt flags table index i ++ doesPages physical virt flags table index (i + 1) n := by
  rw [doesPages, List.range'_succ, List.flatMap_cons]
  rfl

variable (alloc cr3 flags) in
/-- Inside one table the loop does the pages in order and nothing else. -/
theorem leafLoop_inOrder (physical : UINT64) {virt : UINT64} {n : Nat}
    (hn : virt.toNat + n * 4096 ≤ 2 ^ 64) (hfit : (pml1i virt).toNat + n ≤ 512) (pml1 : UINT64) :
    ∀ m i s, i + m = n → (leafLoop alloc cr3 physical virt n flags pml1 i s).log =
      s.log ++ doesPages physical virt flags (fun _ => pml1) (leafIndex virt) i m := by
  intro m
  induction m with
  | zero =>
    intro i s hm
    rw [leafLoop_done (by omega), doesPages]
    exact (List.append_nil _).symm
  | succ m ih =>
    intro i s hm
    have hi : i < n := by omega
    have hidx := not_past_of_fits hn hi hfit
    rw [leafLoop_inside hi hidx, ih (i + 1) _ (by omega), doesPages_succ, ← List.append_assoc]
    rfl

theorem pageEvents_doesPages (physical virt : UINT64) (flags : UINT32) (table index : Nat → UINT64)
    (i n : Nat) : pageEvents (doesPages physical virt flags table index i n) =
      doesPages physical virt flags table index i n := by
  refine List.filter_eq_self.mpr fun e he => ?_
  obtain ⟨k, -, hk⟩ := List.mem_flatMap.mp he
  simp only [doesPage, List.mem_cons, List.not_mem_nil, or_false] at hk
  rcases hk with rfl | rfl
  · rfl
  · rfl

theorem leafStores_doesPages (physical virt : UINT64) (flags : UINT32) (table index : Nat → UINT64)
    (i n : Nat) : leafStores (doesPages physical virt flags table index i n) = n := by
  induction n generalizing i with
  | zero => rfl
  | succ n ih =>
    rw [doesPages_succ, leafStores_append, ih, Nat.add_comm]
    rfl

variable (alloc cr3 flags s) in
theorem mapVirtualPages_once_of_fits (physical : UINT64) {virt : UINT64} {n : Nat}
    (hn : virt.toNat + n * 4096 ≤ 2 ^ 64) (hfit : (pml1i virt).toNat + n ≤ 512) :
    EachPageOnce physical virt flags n s (mapVirtualPages alloc cr3 physical virt n flags s).2 := by
  obtain ⟨new, hnew, hnone⟩ := lastTable_noPageDone alloc cr3 virt s
  obtain ⟨pml1, hpml1⟩ : ∃ pml1, pml1 = (lastTable alloc cr3 virt s).1 := ⟨_, rfl⟩
  have hlog : (mapVirtualPages alloc cr3 physical virt n flags s).2.log =
      s.log ++ (new ++ doesPages physical virt flags (fun _ => pml1) (leafIndex virt) 0 n) := by
    rw [mapVirtualPages_eq, ← hpml1, leafLoop_inOrder alloc cr3 flags physical hn hfit pml1 n 0 _
      (Nat.zero_add n), hnew, List.append_assoc]
  have hdescent : pageEvents new = [] :=
    List.filter_eq_nil_iff.mpr fun e he hpage => by simp [hnone e he] at hpage
  have hnoLeaf : leafStores new = 0 := by
    have hcount := (lastTable_noPageDone alloc cr3 virt s).leafStores
    rw [hnew, leafStores_append] at hcount
    omega
  refine ⟨⟨_, fun _ => pml1, leafIndex virt, hlog, ?_⟩, ?_⟩
  · rw [pageEvents_append, hdescent, List.nil_append, pageEvents_doesPages]
  · rw [hlog, leafStores_append, leafStores_append, hnoLeaf, leafStores_doesPages, Nat.zero_add]

end

/-- **Each page is done once only in one table.** For every range below 2^64,
whatever the tables and the allocator, a call does each page once, in
ascending order and with its `invlpg`, exactly if the range ends in the table
it begins in; and otherwise it stores more leaves than there are pages. -/
theorem mapVirtualPages_once_iff (alloc : Nat → Option UINT64) (cr3 physical virt : UINT64) (n : Nat)
    (flags : UINT32) (s : MapState) (hn : virt.toNat + n * 4096 ≤ 2 ^ 64) :
    (EachPageOnce physical virt flags n s (mapVirtualPages alloc cr3 physical virt n flags s).2 ↔
      (pml1i virt).toNat + n ≤ 512) ∧
    (leafStores (mapVirtualPages alloc cr3 physical virt n flags s).2.log = leafStores s.log + n ↔
      (pml1i virt).toNat + n ≤ 512) := by
  have hmust : leafStores (mapVirtualPages alloc cr3 physical virt n flags s).2.log = leafStores s.log + n →
      (pml1i virt).toNat + n ≤ 512 := by
    intro hcount
    by_contra hlong
    -- page `512 - pml1i` is the first past the end
    have hi := (pml1i virt).isLt
    have hpast : 511#64 < leafIndex virt (512 - (pml1i virt).toNat) := by
      have h511 : (511#64).toNat = 511 := rfl
      rw [BitVec.lt_def, leafIndex_toNat hn (by omega), h511]
      omega
    have htwice := (mapVirtualPages_leafStores_le alloc cr3 physical virt flags n s).twice
      ⟨512 - (pml1i virt).toNat, Nat.zero_le _, by omega, hpast⟩
    omega
  have hdoes := fun hfit => mapVirtualPages_once_of_fits alloc cr3 flags s physical hn hfit
  exact ⟨⟨fun h => hmust h.count, hdoes⟩, hmust, fun hfit => (hdoes hfit).count⟩

/-- The last three pages of a table are stored once each. -/
theorem mapVirtualPages_once_lastPages :
    EachPageOnce 0x200000#64 0x1FD000#64 3#32 3 (astride 0x3000#64)
      (mapVirtualPages framesFrom1M 0x1000#64 0x200000#64 0x1FD000#64 3 3#32 (astride 0x3000#64)).2 :=
  (mapVirtualPages_once_iff framesFrom1M 0x1000#64 0x200000#64 0x1FD000#64 3 3#32 (astride 0x3000#64)
    (by decide)).1.mpr (by decide)

/-- Two pages astride the end of a table take three stores. -/
theorem mapVirtualPages_twice_astride :
    leafStores (mapVirtualPages framesFrom1M 0x1000#64 0x200000#64 0x1FF000#64 2 3#32
        (astride 0x3000#64)).2.log = 3 ∧
      ¬ EachPageOnce 0x200000#64 0x1FF000#64 3#32 2 (astride 0x3000#64)
        (mapVirtualPages framesFrom1M 0x1000#64 0x200000#64 0x1FF000#64 2 3#32
          (astride 0x3000#64)).2 := by
  have hthree : leafStores (mapVirtualPages framesFrom1M 0x1000#64 0x200000#64 0x1FF000#64 2 3#32
      (astride 0x3000#64)).2.log = 3 := by
    rw [mapVirtualPages_eq, leafLoop_inside (by decide) (by decide), leafLoop_past (by decide) (by decide),
      leafLoop_done (by decide), mapVirtualPages_eq, leafLoop_inside (by decide) (by decide),
      leafLoop_done (by decide)]
    decide +kernel
  refine ⟨hthree, fun h => ?_⟩
  have htwo := h.count
  rw [hthree] at htwo
  exact absurd htwo (by decide)

end PiousOS.Loader
