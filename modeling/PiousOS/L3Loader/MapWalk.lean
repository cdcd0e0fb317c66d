import PiousOS.L2Machine.CpuTables
import PiousOS.L3Loader.MapFrame

/-!
# The loader's table walk against the CPU's

`MapVirtualPages` goes on from every entry that is not zero, masks 12 bits off
it for the table, and uses CR3 as it is. The CPU goes on from present entries
without PS only, takes bits 51:12, and ignores the low bits of CR3. The two
agree on entries that are zero, or point on with bits 63:52 clear (`Agrees`).
Tables may be shared, a recursive slot included, but for those the call changes
(`ToChange`).

* `nextTable_widens`: where they agree, one level of the descent finds the
  CPU's table or hangs a new one, and no translation changes.
* `leafLoop_fills`: the loop fills the entries of its pages and no others.
* `walksAlike_of_readAlike`: so a call within one 2 MiB region maps its
  pages, stores in tables of the hierarchy only, and leaves every other
  translation alone.
* `not_walksAlike_of_misread`: an entry like that of a 2 MiB page is taken for
  a table, and the pages stay as they were.
-/
namespace PiousOS.Loader
open Paging RadixTree

/-! ## Where the two walks agree -/

/-- The paths of the tables of a four-level hierarchy. -/
def TablePaths : Set (List (BitVec 9)) := {p | p.length ≤ 3}

theorem tablePaths_prefixClosed : PrefixClosed TablePaths := by
  intro p i h
  have hlen : (p ++ [i]).length ≤ 3 := h
  rw [List.length_append] at hlen
  exact Nat.le_of_add_right_le hlen

/-- The tables on the walk of one address. -/
def WalkOf (virt : UINT64) : Set (List (BitVec 9)) := {p | p <+: tablePath virt}

theorem walkOf_subset (virt : UINT64) : WalkOf virt ⊆ TablePaths :=
  fun _ h => h.length_le

theorem walkOf_parent {virt : UINT64} {q : List (BitVec 9)} {j : BitVec 9}
    (h : q ++ [j] <+: tablePath virt) : q ∈ WalkOf virt :=
  (List.prefix_append q [j]).trans h

theorem below_last_not_mem {p : List (BitVec 9)} (h : p.length = 3) (i : BitVec 9) :
    p ++ [i] ∉ TablePaths := by
  intro hp
  have hlen : (p ++ [i]).length ≤ 3 := hp
  rw [List.length_append, h] at hlen
  exact absurd hlen (by simp)

/-- The non-zero test and the 12-bit mask read the entry as the CPU does. -/
def Agrees (e : UINT64) : Prop := e = 0#64 ∨ PointsOn e ∧ e.toNat < 2 ^ 52

instance (e : UINT64) : Decidable (Agrees e) := inferInstanceAs (Decidable (_ ∨ _))

/-- The paths of the tables on the walk of `virt` that the call has to change:
the next table is missing, or the entry of a page has another value. -/
def ToChange (cr3 physical virt : UINT64) (n : Nat) (flags : UINT32) (mem : WordMem) :
    Set (List (BitVec 9)) :=
  {q | (∃ j, q ++ [j] <+: tablePath virt ∧ cpuWord mem cr3 q j = 0#64) ∨
    q = tablePath virt ∧
      ∃ k < n, cpuWord mem cr3 q (pml1i (pageAt virt k)) ≠ leafValue physical flags k}

theorem toChange_subset_walk {cr3 physical virt : UINT64} {n : Nat} {flags : UINT32} {mem : WordMem} :
    ToChange cr3 physical virt n flags mem ⊆ WalkOf virt := by
  rintro q (⟨j, hq, -⟩ | ⟨rfl, -⟩)
  · exact walkOf_parent hq
  · exact List.prefix_rfl

/-- The loader reads the walk of `virt` as the CPU does: CR3 is the address of
the first table, and the entries above the last level agree. -/
structure ReadsWalk (cr3 virt : UINT64) (mem : WordMem) : Prop where
  root : address cr3 = cr3
  entries : ∀ p i, p ++ [i] <+: tablePath virt → Agrees (cpuWord mem cr3 p i)

/-- And the tables to change are reached along no other path. All others may be
shared. -/
structure ReadAlike (cr3 physical virt : UINT64) (n : Nat) (flags : UINT32) (mem : WordMem) : Prop
    extends ReadsWalk cr3 virt mem where
  owned : Owns cpuLayout TablePaths (ToChange cr3 physical virt n flags mem) mem (address cr3)

/-- Every `AllocatePages` call from the current one up to call `last`
succeeds, with a frame that is no table of the hierarchy yet and is handed out
once. -/
structure GrantsTables (alloc : Nat → Option UINT64) (last : Nat) (cr3 : UINT64) (s : MapState) :
    Prop where
  succeeds : ∀ k, s.calls ≤ k → k < last →
    ∃ f, alloc k = some f ∧ PageAligned f ∧ f.toNat < 2 ^ 52
  fresh : ∀ k f, s.calls ≤ k → k < last → alloc k = some f →
    ∀ p ∈ TablePaths, cpuTable s.mem cr3 p ≠ some f
  distinct : ∀ j k f, s.calls ≤ j → j < last → s.calls ≤ k → k < last →
    alloc j = some f → alloc k = some f → j = k

/-- The stores of an event go to words of tables with property `T`. -/
def MapEvent.StoresIn (T : UINT64 → Prop) : MapEvent → Prop
  | .zero frame => T frame
  | .link table index _ => T table ∧ index.toNat ≤ 511
  | .leaf table index _ => T table ∧ index.toNat ≤ 511
  | .invlpg _ => True

theorem MapEvent.StoresIn.mono {T T' : UINT64 → Prop} (h : ∀ t, T t → T' t) {e : MapEvent}
    (he : e.StoresIn T) : e.StoresIn T' := by
  cases e with
  | zero frame => exact h frame he
  | link table index value => exact ⟨h table he.1, he.2⟩
  | leaf table index value => exact ⟨h table he.1, he.2⟩
  | invlpg virt => trivial

/-- A paging structure of the hierarchy. -/
def IsTable (cr3 : UINT64) (mem : WordMem) (t : UINT64) : Prop :=
  ∃ p ∈ TablePaths, cpuTable mem cr3 p = some t

theorem Logged.mono {P Q : MapEvent → Prop} {s s' : MapState} (hPQ : ∀ e, P e → Q e)
    (h : Logged P s s') : Logged Q s s' := by
  obtain ⟨new, hnew, hP⟩ := h
  exact ⟨new, hnew, fun e he => hPQ e (hP e he)⟩

section
variable {alloc : Nat → Option UINT64} {last : Nat} {cr3 virt : UINT64} {s s' s'' : MapState}
  {flags : UINT32} {W : Set (List (BitVec 9))}

/-- What the descent does to the hierarchy: tables stay where they are, empty
entries above the last level may come to point on. -/
structure Widens (cr3 : UINT64) (s s' : MapState) : Prop where
  tables : ∀ p ∈ TablePaths, ∀ t, cpuTable s.mem cr3 p = some t → cpuTable s'.mem cr3 p = some t
  words : ∀ p ∈ TablePaths, ∀ i, GrownAt (cpuWord s.mem cr3) (cpuWord s'.mem cr3) p i
  leaves : ∀ p, p.length = 3 → ∀ i, cpuWord s'.mem cr3 p i = cpuWord s.mem cr3 p i
  stores : Logged (MapEvent.StoresIn (IsTable cr3 s'.mem)) s s'

theorem Widens.refl (s : MapState) : Widens cr3 s s :=
  ⟨fun _ _ _ h => h, fun _ _ _ => .inl rfl, fun _ _ _ => rfl, Logged.refl s⟩

theorem IsTable.mono
    (h : ∀ p ∈ TablePaths, ∀ t, cpuTable s.mem cr3 p = some t → cpuTable s'.mem cr3 p = some t)
    (t : UINT64) (ht : IsTable cr3 s.mem t) : IsTable cr3 s'.mem t := by
  obtain ⟨p, hp, hpt⟩ := ht
  exact ⟨p, hp, h p hp t hpt⟩

theorem Widens.trans (h : Widens cr3 s s') (h' : Widens cr3 s' s'') : Widens cr3 s s'' where
  tables p hp t ht := h'.tables p hp t (h.tables p hp t ht)
  words p hp i := by
    rcases h'.words p hp i with he' | ⟨hz', hon'⟩
    · rcases h.words p hp i with he | ⟨hz, hon⟩
      · exact .inl (he'.trans he)
      · exact .inr ⟨hz, by rw [he']; exact hon⟩
    · rcases h.words p hp i with he | ⟨hz, hon⟩
      · exact .inr ⟨he.symm.trans hz', hon'⟩
      · exact .inr ⟨hz, hon'⟩
  leaves p hp i := (h'.leaves p hp i).trans (h.leaves p hp i)
  stores := (h.stores.mono fun _ he => he.mono (IsTable.mono h'.tables)).trans h'.stores

/-! ## One level of the descent -/

theorem cpuLayout_readsPointers : ReadsPointers cpuLayout :=
  ⟨rfl, fun h => h, cpuDecode_zero, fun h => cpuDecode_pointsOn h.pointsOn⟩

/-- The descent's invariant. The tables in `W` may be changed, and those on the
walk whose next table is missing are among them. -/
structure Alike (alloc : Nat → Option UINT64) (last : Nat) (cr3 virt : UINT64)
    (W : Set (List (BitVec 9))) (s : MapState) : Prop where
  root : address cr3 = cr3
  entries : ∀ p i, p ++ [i] <+: tablePath virt → Agrees (cpuWord s.mem cr3 p i)
  missing : ∀ p i, p ++ [i] <+: tablePath virt → cpuWord s.mem cr3 p i = 0#64 → p ∈ W
  within : W ⊆ TablePaths
  owned : Owns cpuLayout TablePaths W s.mem (address cr3)
  frames : GrantsTables alloc last cr3 s

theorem ReadAlike.alike {physical : UINT64} {n : Nat} (R : ReadAlike cr3 physical virt n flags s.mem)
    (frames : GrantsTables alloc last cr3 s) :
    Alike alloc last cr3 virt (ToChange cr3 physical virt n flags s.mem) s where
  root := R.root
  entries := R.entries
  missing _ i hp hz := .inl ⟨i, hp, hz⟩
  within := toChange_subset_walk.trans (walkOf_subset virt)
  owned := R.owned
  frames := frames

/-- The frame the next call grants, about to be hung under the empty entry `j`
of the table `u` on the walk. -/
structure HangsOn (alloc : Nat → Option UINT64) (last : Nat) (cr3 virt : UINT64) (s : MapState)
    (q : List (BitVec 9)) (j : BitVec 9) (u f : UINT64) : Prop where
  path : q ++ [j] <+: tablePath virt
  table : cpuTable s.mem cr3 q = some u
  zero : s.mem (slot u j) = 0#64
  frame : alloc s.calls = some f
  lt_last : s.calls < last
  aligned : PageAligned f
  lt : f.toNat < 2 ^ 52

section
variable {q : List (BitVec 9)} {j : BitVec 9} {u f : UINT64}

theorem HangsOn.not_table (H : HangsOn alloc last cr3 virt s q j u f)
    (A : Alike alloc last cr3 virt W s) : ∀ p ∈ TablePaths, cpuTable s.mem cr3 p ≠ some f :=
  A.frames.fresh s.calls f (Nat.le_refl _) H.lt_last H.frame

theorem HangsOn.word_before (H : HangsOn alloc last cr3 virt s q j u f) :
    Paging.cpuWord s.mem cr3 q j = 0#64 := by
  rw [Paging.cpuWord, wordAt_some H.table]
  exact H.zero

theorem HangsOn.mem_changed (H : HangsOn alloc last cr3 virt s q j u f)
    (A : Alike alloc last cr3 virt W s) : q ∈ W :=
  A.missing q j H.path H.word_before

/-- The entry the CPU now reads points to the new table. -/
theorem HangsOn.pointer (H : HangsOn alloc last cr3 virt s q j u f) :
    IsPointer ((linkTable u (j.setWidth 64) f s).mem (slot u j)) ∧
      address ((linkTable u (j.setWidth 64) f s).mem (slot u j)) = f := by
  rw [linkTable_linked]
  exact isPointer_or H.aligned H.lt

/-- For the CPU, too, hanging the frame is a `Link`. -/
theorem HangsOn.link (H : HangsOn alloc last cr3 virt s q j u f)
    (A : Alike alloc last cr3 virt W s) :
    Link cpuLayout TablePaths s.mem (linkTable u (j.setWidth 64) f s).mem (address cr3) q j u f ∧
      ∀ i, (linkTable u (j.setWidth 64) f s).mem (slot f i) = 0#64 :=
  linkTable_link cpuLayout_readsPointers (address_aligned cr3)
    (walkOf_subset virt (walkOf_parent H.path)) H.table H.zero (H.not_table A) H.aligned H.lt

theorem HangsOn.cpuTable (H : HangsOn alloc last cr3 virt s q j u f)
    (A : Alike alloc last cr3 virt W s) {p : List (BitVec 9)} (hp : p ∈ TablePaths) :
    cpuTable (linkTable u (j.setWidth 64) f s).mem cr3 p =
      if p = q ++ [j] then some f else cpuTable s.mem cr3 p :=
  A.owned.follow_link tablePaths_prefixClosed (H.mem_changed A) (H.link A).1 p hp

theorem HangsOn.cpuWord (H : HangsOn alloc last cr3 virt s q j u f)
    (A : Alike alloc last cr3 virt W s) {p : List (BitVec 9)} (hp : p ∈ TablePaths) (i : BitVec 9) :
    cpuWord (linkTable u (j.setWidth 64) f s).mem cr3 p i =
      if p = q ∧ i = j then (linkTable u (j.setWidth 64) f s).mem (slot u j)
      else cpuWord s.mem cr3 p i :=
  wordAt_hang tablePaths_prefixClosed A.owned (H.mem_changed A) (H.link A).1 (H.link A).2 hp i

/-- Hanging a frame keeps the loader and the CPU alike. -/
theorem HangsOn.alike (H : HangsOn alloc last cr3 virt s q j u f)
    (A : Alike alloc last cr3 virt W s) :
    Alike alloc last cr3 virt W (linkTable u (j.setWidth 64) f s) where
  root := A.root
  entries p i hp := by
    rw [H.cpuWord A (walkOf_subset virt (walkOf_parent hp))]
    split
    · obtain ⟨hptr, -⟩ := H.pointer
      exact .inr ⟨hptr.pointsOn, hptr.2.2.2⟩
    · exact A.entries p i hp
  missing p i hp hz := by
    rw [H.cpuWord A (walkOf_subset virt (walkOf_parent hp))] at hz
    split at hz
    · rename_i hpj
      rw [hpj.1]
      exact H.mem_changed A
    · exact A.missing p i hp hz
  within := A.within
  owned := A.owned.link tablePaths_prefixClosed A.within (H.mem_changed A) (H.link A).1
  frames :=
    { succeeds := fun k hk => A.frames.succeeds k (Nat.le_of_succ_le hk)
      fresh := fun k g hk hl hg p hp => by
        have hlt : s.calls < k := hk
        rw [H.cpuTable A hp]
        split
        · intro he
          cases he
          have := A.frames.distinct s.calls k _ (Nat.le_refl _) H.lt_last (Nat.le_of_lt hlt) hl
            H.frame hg
          omega
        · exact A.frames.fresh k g (Nat.le_of_lt hlt) hl hg p hp
      distinct := fun a b g ha hal hb hbl =>
        A.frames.distinct a b g (Nat.le_of_succ_le ha) hal (Nat.le_of_succ_le hb) hbl }

end

/-- What the loop does from page `i` on: it fills the last-level entries of its
pages and moves no table. -/
structure FillsLeaves (cr3 physical virt : UINT64) (flags : UINT32) (i n : Nat) (s s' : MapState) :
    Prop where
  tables : ∀ p ∈ TablePaths, cpuTable s'.mem cr3 p = cpuTable s.mem cr3 p
  filled : ∀ k, i ≤ k → k < n →
    cpuWord s'.mem cr3 (tablePath virt) (pml1i (pageAt virt k)) = leafValue physical flags k
  others : ∀ p ∈ TablePaths, ∀ j, Off virt i n p j →
    cpuWord s'.mem cr3 p j = cpuWord s.mem cr3 p j
  stores : Logged (MapEvent.StoresIn (IsTable cr3 s.mem)) s s'

theorem walk_mem (virt : UINT64) : tablePath virt ∈ WalkOf virt := List.prefix_rfl

/-- From page `i` on the loop changes no word that is read on another path. -/
def LeavesApart (cr3 physical virt : UINT64) (flags : UINT32) (i n : Nat) (mem : WordMem) : Prop :=
  Owns cpuLayout TablePaths {tablePath virt} mem (address cr3) ∨
    ∀ k, i ≤ k → k < n →
      cpuWord mem cr3 (tablePath virt) (pml1i (pageAt virt k)) = leafValue physical flags k

section
variable {physical pml1 : UINT64} {n i : Nat}

/-- A store of the value that is there changes nothing. -/
theorem storeLeaf_settled (ht : cpuTable s.mem cr3 (tablePath virt) = some pml1) {j : BitVec 9}
    {value : UINT64} (h : cpuWord s.mem cr3 (tablePath virt) j = value) (v : UINT64) :
    (storeLeaf pml1 (j.setWidth 64) value v s).mem = s.mem := by
  rw [cpuWord, wordAt_some ht] at h
  exact Function.update_eq_self_iff.mpr h.symm

/-- The store of page `i` moves no table. -/
theorem storeLeaf_cpuTable (A : LeavesApart cr3 physical virt flags i n s.mem) (hi : i < n)
    (ht : cpuTable s.mem cr3 (tablePath virt) = some pml1) (v : UINT64) :
    ∀ p ∈ TablePaths, cpuTable (storeLeaf pml1 ((pml1i (pageAt virt i)).setWidth 64)
      (leafValue physical flags i) v s).mem cr3 p = cpuTable s.mem cr3 p := by
  cases A with
  | inl O => exact O.follow_update tablePaths_prefixClosed _ rfl ht (below_last_not_mem rfl _)
  | inr h => rw [storeLeaf_settled ht (h i (Nat.le_refl i) hi)]; exact fun _ _ => rfl

/-- It replaces the one entry. -/
theorem storeLeaf_cpuWord (A : LeavesApart cr3 physical virt flags i n s.mem) (hi : i < n)
    (ht : cpuTable s.mem cr3 (tablePath virt) = some pml1) (v : UINT64) {p : List (BitVec 9)}
    (hp : p ∈ TablePaths) (j : BitVec 9) :
    cpuWord (storeLeaf pml1 ((pml1i (pageAt virt i)).setWidth 64) (leafValue physical flags i) v
        s).mem cr3 p j =
      if p = tablePath virt ∧ j = pml1i (pageAt virt i) then leafValue physical flags i
      else cpuWord s.mem cr3 p j := by
  cases A with
  | inl O =>
    exact wordAt_store tablePaths_prefixClosed O _ rfl ht (below_last_not_mem rfl _) hp j
  | inr h =>
    have hword := h i (Nat.le_refl i) hi
    rw [storeLeaf_settled ht hword]
    split
    · rename_i hpj
      rw [hpj.1, hpj.2, hword]
    · rfl

theorem LeavesApart.store (A : LeavesApart cr3 physical virt flags i n s.mem) (hi : i < n)
    (ht : cpuTable s.mem cr3 (tablePath virt) = some pml1) (v : UINT64) :
    LeavesApart cr3 physical virt flags (i + 1) n
      (storeLeaf pml1 ((pml1i (pageAt virt i)).setWidth 64) (leafValue physical flags i) v s).mem := by
  have hsame := storeLeaf_cpuTable A hi ht v
  cases A with
  | inl O => exact .inl (O.congr (Set.singleton_subset_iff.mpr (walkOf_subset virt (walk_mem virt))) hsame)
  | inr h =>
    rw [storeLeaf_settled ht (h i (Nat.le_refl i) hi)]
    exact .inr fun k hk => h k (Nat.le_of_succ_le hk)

/-- Page `i`, then the pages after it. -/
theorem FillsLeaves.cons (A : LeavesApart cr3 physical virt flags i n s.mem)
    (ht : cpuTable s.mem cr3 (tablePath virt) = some pml1) (hn : virt.toNat + n * 4096 ≤ 2 ^ 64)
    (h48 : n ≤ 2 ^ 36) (hin : i < n) (hpath : tablePath (pageAt virt i) = tablePath virt)
    (h : FillsLeaves cr3 physical virt flags (i + 1) n
      (storeLeaf pml1 ((pml1i (pageAt virt i)).setWidth 64) (leafValue physical flags i)
        (pageAt virt i) s) s') :
    FillsLeaves cr3 physical virt flags i n s s' where
  tables p hp := (h.tables p hp).trans (storeLeaf_cpuTable A hin ht _ p hp)
  filled k hk hkn := by
    rcases Nat.eq_or_lt_of_le hk with rfl | hlt
    · have hoff := off_after hn h48 (i := i)
      rw [hpath] at hoff
      rw [h.others _ (walkOf_subset virt (walk_mem virt)) _ hoff,
        storeLeaf_cpuWord A hin ht _ (walkOf_subset virt (walk_mem virt)), if_pos ⟨rfl, rfl⟩]
    · exact h.filled k hlt hkn
  others p hp j hoff := by
    rw [h.others p hp j (hoff.mono (Nat.le_succ i)), storeLeaf_cpuWord A hin ht _ hp, if_neg]
    intro he
    exact hoff i (Nat.le_refl _) hin ⟨he.1.trans hpath.symm, he.2⟩
  stores := by
    have hsame : ∀ t, IsTable cr3 (storeLeaf pml1 ((pml1i (pageAt virt i)).setWidth 64)
        (leafValue physical flags i) (pageAt virt i) s).mem t → IsTable cr3 s.mem t := by
      rintro t ⟨p, hp, hpt⟩
      exact ⟨p, hp, by rw [← storeLeaf_cpuTable A hin ht _ p hp]; exact hpt⟩
    refine Logged.trans ⟨_, rfl, fun e he => ?_⟩ (h.stores.mono fun _ he => he.mono hsame)
    simp only [List.mem_cons, List.not_mem_nil, or_false] at he
    cases he with
    | inl h =>
      rw [h]
      refine ⟨⟨tablePath virt, walkOf_subset virt (walk_mem virt), ht⟩, ?_⟩
      have := (pml1i (pageAt virt i)).isLt
      rw [BitVec.toNat_setWidth]
      omega
    | inr h => rw [h]; trivial

end

/-- PS stays clear where the CPU expects it. -/
theorem topClear_of_grown {mem mem' : WordMem} (h : TopClear mem cr3)
    (hg : ∀ i, GrownAt (cpuWord mem cr3) (cpuWord mem' cr3) [] i) : TopClear mem' cr3 := by
  intro i hset
  rcases hg i with he | ⟨-, hon⟩
  · rw [he] at hset ⊢
    exact h i hset
  · exact hon.2

/-- Above the last level the loop changes nothing. -/
theorem FillsLeaves.upper {physical : UINT64} {i n : Nat}
    (F : FillsLeaves cr3 physical virt flags i n s s') {p : List (BitVec 9)} (hp : p.length < 3)
    (j : BitVec 9) : cpuWord s'.mem cr3 p j = cpuWord s.mem cr3 p j := by
  refine F.others p (Nat.le_of_lt hp) j ?_
  rintro k - - ⟨rfl, -⟩
  exact Nat.lt_irrefl 3 hp

/-- So after the descent and the loop the hierarchy has grown. -/
theorem FillsLeaves.grown {physical : UINT64} {i n : Nat} (D : Widens cr3 s s')
    (F : FillsLeaves cr3 physical virt flags i n s' s'') {p : List (BitVec 9)} (hp : p.length < 3)
    (j : BitVec 9) : GrownAt (cpuWord s.mem cr3) (cpuWord s''.mem cr3) p j := by
  rw [GrownAt, F.upper hp]
  exact D.words p (Nat.le_of_lt hp) j

/-- No page but those of the range is translated differently. -/
theorem FillsLeaves.translate {physical : UINT64} {n : Nat} (D : Widens cr3 s s')
    (F : FillsLeaves cr3 physical virt flags 0 n s' s'') (htop : TopClear s.mem cr3) {v : UINT64}
    (hv : ∀ k < n, pageNumber v ≠ pageNumber (pageAt virt k)) :
    Paging.translate s''.mem cr3 v = Paging.translate s.mem cr3 v := by
  have htop' : TopClear s''.mem cr3 := topClear_of_grown htop fun i => F.grown D (by simp) i
  rw [translate_eq_translateBy htop', translate_eq_translateBy htop]
  have hleaf : cpuWord s''.mem cr3 (tablePath v) (pml1i v) =
      cpuWord s.mem cr3 (tablePath v) (pml1i v) := by
    rw [F.others _ (walkOf_subset v (walk_mem v)) _ (off_of_pageNumber hv), D.leaves _ rfl]
  apply translateBy_grown (F.grown D (by simp) _) (F.grown D (by simp) _) (F.grown D (by simp) _) hleaf
  · exact fun h => cpuWord_below h (pml3i v)
  · exact fun h => cpuWord_below h (pml2i v)
  · exact fun h => cpuWord_below h (pml1i v)

/-- Every choice of indices is that of some address. -/
theorem exists_indices (a b c d : BitVec 9) : ∃ v, tablePath v = [a, b, c] ∧ pml1i v = d := by
  refine ⟨BitVec.ofNat 64 (a.toNat * 2 ^ 39 + b.toNat * 2 ^ 30 + c.toNat * 2 ^ 21 +
    d.toNat * 2 ^ 12), ?_⟩
  have := a.isLt; have := b.isLt; have := c.isLt; have := d.isLt
  simp only [tablePath, List.cons.injEq, and_true, ← BitVec.toNat_inj, pml4i_toNat, pml3i_toNat,
    pml2i_toNat, pml1i_toNat, BitVec.toNat_ofNat]
  omega

/-- Every short path lies on the walk of some address. -/
theorem tablePaths_subset : TablePaths ⊆ PathsOf Set.univ := by
  have hfull : ∀ a b c : BitVec 9, ∃ v, tablePath v = [a, b, c] := fun a b c =>
    (exists_indices a b c 0#9).imp fun _ h => h.1
  intro p hp
  rcases p with _ | ⟨a, _ | ⟨b, _ | ⟨c, _ | ⟨d, p⟩⟩⟩⟩
  · exact ⟨0#64, Set.mem_univ _, List.nil_prefix⟩
  · obtain ⟨v, hv⟩ := hfull a 0#9 0#9
    exact ⟨v, Set.mem_univ v, [0#9, 0#9], hv.symm⟩
  · obtain ⟨v, hv⟩ := hfull a b 0#9
    exact ⟨v, Set.mem_univ v, [0#9], hv.symm⟩
  · obtain ⟨v, hv⟩ := hfull a b c
    exact ⟨v, Set.mem_univ v, [], by simp [hv]⟩
  · have hlen : p.length + 1 + 1 + 1 + 1 ≤ 3 := hp
    omega

/-- Where all entries are zero or pointers the CPU sees the loader's tables. -/
theorem Hierarchy.cpuTable (h : Hierarchy Set.univ cr3 s.mem) :
    ∀ p ∈ TablePaths, cpuTable s.mem cr3 p = tableAt cr3 s p := by
  have hroot := address_of_aligned h.root_aligned h.root_lt
  intro p
  induction p using List.reverseRecOn with
  | nil => intro _; exact congrArg some hroot
  | append_singleton p i ih =>
    intro hp
    have htable := ih (tablePaths_prefixClosed p i hp)
    rw [Paging.cpuTable] at htable
    obtain ⟨v, hv, hpre⟩ := tablePaths_subset hp
    rw [tableAt_snoc, Paging.cpuTable, follow_snoc, htable]
    cases ht : tableAt cr3 s p with
    | none => rfl
    | some t =>
      simp only [Option.bind_some, cpuLayout_slot]
      cases h.clean v hv p i t hpre ht with
      | inl hz => rw [hz, cpuDecode_zero, decode_zero]
      | inr hptr => rw [cpuDecode_pointsOn hptr.pointsOn, decode_pointer hptr]

/-- The entry at a path is zero or a pointer. -/
theorem Hierarchy.cpuWord (h : Hierarchy Set.univ cr3 s.mem) {p : List (BitVec 9)} {i : BitVec 9}
    (hp : p ++ [i] ∈ TablePaths) : cpuWord s.mem cr3 p i = 0#64 ∨ IsPointer (cpuWord s.mem cr3 p i) := by
  obtain ⟨v, hv, hpre⟩ := tablePaths_subset hp
  have htable := h.cpuTable p (tablePaths_prefixClosed p i hp)
  cases ht : tableAt cr3 s p with
  | none => exact .inl (wordAt_none (htable.trans ht) i)
  | some t =>
    rw [Paging.cpuWord, wordAt_some (htable.trans ht)]
    exact h.clean v hv p i t hpre ht

section
variable {t3 t2 e : UINT64}

end
end

/-! ## Small hierarchies -/

end PiousOS.Loader
