import PiousOS.L3Loader.MapVirtualPages
import PiousOS.Core.RadixWords
import Mathlib.Data.Set.Basic

/-!
# What one store of MapVirtualPages does to the hierarchy

`V` is the set of virtual addresses whose walks matter: the pages of a range,
or all of them. `Ready` is the invariant: the tables on those walks form a
tree of zero entries and pointers, and the frames `AllocatePages` will still
hand out are none of them.

`leafWord` reads the hierarchy as a map from last-level entries to words (0
where a table is missing). One step of the source then is one of

* `nextTable_spec`: a table is found or added; no `leafWord` changes;
* `storeLeaf_spec`: one `leafWord` is replaced;
* `storeLeaf_foreign`: a store past the end of a table that hits no table
  changes nothing.

`Grows` collects what all of them keep.
-/
namespace PiousOS.Loader
open Paging RadixTree

/-- The table paths on the walks of `V`. -/
def PathsOf (V : Set UINT64) : Set (List (BitVec 9)) := {p | ∃ v ∈ V, p <+: tablePath v}

theorem pathsOf_prefixClosed (V : Set UINT64) : PrefixClosed (PathsOf V) := by
  rintro p i ⟨v, hv, hp⟩
  exact ⟨v, hv, (List.prefix_append p [i]).trans hp⟩

theorem tablePath_mem {V : Set UINT64} {v : UINT64} (hv : v ∈ V) : tablePath v ∈ PathsOf V :=
  ⟨v, hv, List.prefix_rfl⟩

theorem length_le_of_mem {V : Set UINT64} {p : List (BitVec 9)} (hp : p ∈ PathsOf V) :
    p.length ≤ 3 := by
  obtain ⟨v, -, hp⟩ := hp
  exact hp.length_le

/-- Below a last-level table there is no further path. -/
theorem snoc_not_mem {V : Set UINT64} {p : List (BitVec 9)} (h : p.length = 3) (i : BitVec 9) :
    p ++ [i] ∉ PathsOf V := by
  intro hp
  have := length_le_of_mem hp
  simp only [List.length_append, List.length_singleton] at this
  omega

/-- The table at the end of a path, in a given state. -/
abbrev tableAt (cr3 : UINT64) (s : MapState) (p : List (BitVec 9)) : Option UINT64 :=
  follow pageLayout s.mem cr3 p

/-- A well-formed hierarchy on the walks of `V`: zero entries and pointers,
and no table reached along two paths. -/
structure Hierarchy (V : Set UINT64) (cr3 : UINT64) (mem : WordMem) : Prop where
  root_aligned : PageAligned cr3
  root_lt : cr3.toNat < 2 ^ 52
  tree : Tree pageLayout (PathsOf V) mem cr3
  clean : ∀ v ∈ V, CleanPath mem cr3 v

/-- Every `AllocatePages` call from the current one up to call `last`
succeeds, with a frame that is no table yet and is handed out once. -/
structure FreshFrames (alloc : Nat → Option UINT64) (last : Nat) (V : Set UINT64) (cr3 : UINT64)
    (s : MapState) : Prop where
  succeeds : ∀ k, s.calls ≤ k → k < last →
    ∃ f, alloc k = some f ∧ PageAligned f ∧ f.toNat < 2 ^ 52
  fresh : ∀ k f, s.calls ≤ k → k < last → alloc k = some f →
    ∀ p ∈ PathsOf V, tableAt cr3 s p ≠ some f
  distinct : ∀ j k f, s.calls ≤ j → j < last → s.calls ≤ k → k < last →
    alloc j = some f → alloc k = some f → j = k

structure Ready (alloc : Nat → Option UINT64) (last : Nat) (V : Set UINT64) (cr3 : UINT64)
    (s : MapState) : Prop where
  hier : Hierarchy V cr3 s.mem
  frames : FreshFrames alloc last V cr3 s

/-- The last-level entry at index `i` of the table at path `p`, 0 if there is
no such table. -/
def leafWord (cr3 : UINT64) (s : MapState) (p : List (BitVec 9)) (i : BitVec 9) : UINT64 :=
  match tableAt cr3 s p with
  | some t => s.mem (slot t i)
  | none => 0#64

theorem leafWord_some {cr3 : UINT64} {s : MapState} {p : List (BitVec 9)} {t : UINT64}
    (h : tableAt cr3 s p = some t) (i : BitVec 9) : leafWord cr3 s p i = s.mem (slot t i) := by
  simp only [leafWord, h]

theorem leafWord_none {cr3 : UINT64} {s : MapState} {p : List (BitVec 9)}
    (h : tableAt cr3 s p = none) (i : BitVec 9) : leafWord cr3 s p i = 0#64 := by
  simp only [leafWord, h]

theorem leafWord_eq_wordAt (cr3 : UINT64) (s : MapState) (p : List (BitVec 9)) (i : BitVec 9) :
    leafWord cr3 s p i = wordAt pageLayout s.mem cr3 0#64 p i := by
  cases h : tableAt cr3 s p with
  | some t => rw [leafWord_some h, wordAt_some h]; rfl
  | none => rw [leafWord_none h, wordAt_none h]

/-- A frame that is, or may become, a table on the walks of `V`. -/
def IsFrame (alloc : Nat → Option UINT64) (last : Nat) (V : Set UINT64) (cr3 : UINT64) (s : MapState)
    (X : UINT64) : Prop :=
  (∃ p ∈ PathsOf V, tableAt cr3 s p = some X) ∨ ∃ k, s.calls ≤ k ∧ k < last ∧ alloc k = some X

/-- A frame that is, or may become, a last-level table. -/
def IsLastFrame (alloc : Nat → Option UINT64) (last : Nat) (V : Set UINT64) (cr3 : UINT64) (s : MapState)
    (X : UINT64) : Prop :=
  (∃ p ∈ PathsOf V, p.length = 3 ∧ tableAt cr3 s p = some X) ∨
    ∃ k, s.calls ≤ k ∧ k < last ∧ alloc k = some X

/-- What every step keeps: the invariant holds, tables stay where they are,
and no frame comes out of nowhere. -/
structure Grows (alloc : Nat → Option UINT64) (last : Nat) (V : Set UINT64) (cr3 : UINT64)
    (s s' : MapState) : Prop where
  ready : Ready alloc last V cr3 s'
  mono : ∀ p ∈ PathsOf V, ∀ t, tableAt cr3 s p = some t → tableAt cr3 s' p = some t
  isFrame : ∀ X, IsFrame alloc last V cr3 s' X → IsFrame alloc last V cr3 s X
  isLastFrame : ∀ X, IsLastFrame alloc last V cr3 s' X → IsLastFrame alloc last V cr3 s X

section
variable {alloc : Nat → Option UINT64} {last : Nat} {V : Set UINT64} {cr3 : UINT64} {s s' s'' : MapState}

theorem Grows.refl (R : Ready alloc last V cr3 s) : Grows alloc last V cr3 s s :=
  ⟨R, fun _ _ _ h => h, fun _ h => h, fun _ h => h⟩

theorem Grows.trans (h : Grows alloc last V cr3 s s') (h' : Grows alloc last V cr3 s' s'') :
    Grows alloc last V cr3 s s'' :=
  ⟨h'.ready, fun p hp t ht => h'.mono p hp t (h.mono p hp t ht),
    fun X hX => h.isFrame X (h'.isFrame X hX), fun X hX => h.isLastFrame X (h'.isLastFrame X hX)⟩

theorem Ready.aligned (R : Ready alloc last V cr3 s) {p : List (BitVec 9)} {t : UINT64}
    (h : tableAt cr3 s p = some t) : PageAligned t :=
  follow_isNode pageLayout R.hier.root_aligned h

/-- A step that leaves the tables of `V` and the allocator alone. -/
theorem Grows.of_same (R : Ready alloc last V cr3 s) (hc : s'.calls = s.calls)
    (ht : ∀ p ∈ PathsOf V, tableAt cr3 s' p = tableAt cr3 s p)
    (hclean : ∀ v ∈ V, CleanPath s'.mem cr3 v) : Grows alloc last V cr3 s s' where
  ready :=
    { hier := ⟨R.hier.root_aligned, R.hier.root_lt, R.hier.tree.congr ht, hclean⟩
      frames :=
        { succeeds := fun k hk => R.frames.succeeds k (hc ▸ hk)
          fresh := fun k f hk hl hf p hp => by
            rw [ht p hp]; exact R.frames.fresh k f (hc ▸ hk) hl hf p hp
          distinct := fun j k f hj hjl hk hkl =>
            R.frames.distinct j k f (hc ▸ hj) hjl (hc ▸ hk) hkl } }
  mono p hp t h := by rw [ht p hp]; exact h
  isFrame X hX := by
    rcases hX with ⟨p, hp, h⟩ | ⟨k, hk, hl, h⟩
    · exact .inl ⟨p, hp, by rw [← ht p hp]; exact h⟩
    · exact .inr ⟨k, hc ▸ hk, hl, h⟩
  isLastFrame X hX := by
    rcases hX with ⟨p, hp, hl, h⟩ | ⟨k, hk, hl, h⟩
    · exact .inl ⟨p, hp, hl, by rw [← ht p hp]; exact h⟩
    · exact .inr ⟨k, hc ▸ hk, hl, h⟩

/-- The walks of `V` are clean if the words on them are. -/
theorem clean_iff : (∀ v ∈ V, CleanPath s.mem cr3 v) ↔
    ∀ p i, p ++ [i] ∈ PathsOf V → leafWord cr3 s p i = 0#64 ∨ IsPointer (leafWord cr3 s p i) := by
  constructor
  · rintro h p i ⟨v, hv, hpre⟩
    cases ht : tableAt cr3 s p with
    | none => exact .inl (leafWord_none ht i)
    | some t =>
      rw [leafWord_some ht]
      exact h v hv p i t hpre ht
  · intro h v hv p i t hpre ht
    have hword := h p i ⟨v, hv, hpre⟩
    rw [leafWord_some ht] at hword
    exact hword

/-! ## Leaf stores -/

/-- A store into a last-level table moves no table. -/
theorem storeLeaf_tableAt (R : Ready alloc last V cr3 s) {q : List (BitVec 9)} (hq : q ∈ PathsOf V)
    (hlen : q.length = 3) {T : UINT64} (hT : tableAt cr3 s q = some T) (j : BitVec 9)
    (value virt : UINT64) :
    ∀ p ∈ PathsOf V, tableAt cr3 (storeLeaf T (j.setWidth 64) value virt s) p = tableAt cr3 s p :=
  follow_update_data (pathsOf_prefixClosed V) R.hier.tree value hq hT (snoc_not_mem hlen j)

/-- Neither does a store to a word of no table. -/
theorem storeLeaf_foreign_tableAt (T index : UINT64)
    (h : ∀ p ∈ PathsOf V, ∀ t i, tableAt cr3 s p = some t → slot t i ≠ entry T index)
    (value virt : UINT64) :
    ∀ p ∈ PathsOf V, tableAt cr3 (storeLeaf T index value virt s) p = tableAt cr3 s p :=
  follow_update_foreign (pathsOf_prefixClosed V) value h

/-- The store the source means: entry `j` of the last-level table at path
`q` becomes `value`, nothing else moves. -/
theorem storeLeaf_spec (R : Ready alloc last V cr3 s) {q : List (BitVec 9)} (hq : q ∈ PathsOf V)
    (hlen : q.length = 3) {T : UINT64} (hT : tableAt cr3 s q = some T) (j : BitVec 9)
    (value virt : UINT64) :
    Grows alloc last V cr3 s (storeLeaf T (j.setWidth 64) value virt s) ∧
      ∀ p ∈ PathsOf V, ∀ i, leafWord cr3 (storeLeaf T (j.setWidth 64) value virt s) p i =
        if p = q ∧ i = j then value else leafWord cr3 s p i := by
  have hword : ∀ p ∈ PathsOf V, ∀ i, leafWord cr3 (storeLeaf T (j.setWidth 64) value virt s) p i =
      if p = q ∧ i = j then value else leafWord cr3 s p i := by
    intro p hp i
    rw [leafWord_eq_wordAt, leafWord_eq_wordAt]
    exact wordAt_store (pathsOf_prefixClosed V) R.hier.tree.owns value hq hT (snoc_not_mem hlen j) hp i
  refine ⟨Grows.of_same R rfl (storeLeaf_tableAt R hq hlen hT j value virt) ?_, hword⟩
  refine clean_iff.mpr fun p i hpi => ?_
  rw [hword p (pathsOf_prefixClosed V p i hpi), if_neg]
  · exact clean_iff.mp R.hier.clean p i hpi
  · rintro ⟨rfl, rfl⟩
    exact snoc_not_mem hlen _ hpi

/-- The store the source makes past the end of a table, when the word hit
belongs to no table of `V`. -/
theorem storeLeaf_foreign (R : Ready alloc last V cr3 s) (T index : UINT64)
    (h : ∀ p ∈ PathsOf V, ∀ t i, tableAt cr3 s p = some t → slot t i ≠ entry T index)
    (value virt : UINT64) :
    Grows alloc last V cr3 s (storeLeaf T index value virt s) ∧
      ∀ p ∈ PathsOf V, ∀ i,
        leafWord cr3 (storeLeaf T index value virt s) p i = leafWord cr3 s p i := by
  have hword : ∀ p ∈ PathsOf V, ∀ i,
      leafWord cr3 (storeLeaf T index value virt s) p i = leafWord cr3 s p i := by
    intro p hp i
    rw [leafWord_eq_wordAt, leafWord_eq_wordAt]
    exact wordAt_foreign (pathsOf_prefixClosed V) value h hp i
  refine ⟨Grows.of_same R rfl (storeLeaf_foreign_tableAt T index h value virt) ?_, hword⟩
  refine clean_iff.mpr fun p i hpi => ?_
  rw [hword p (pathsOf_prefixClosed V p i hpi)]
  exact clean_iff.mp R.hier.clean p i hpi

/-! ## Descending one level -/

/-- An entry lies in the frame of its own table only. -/
theorem slot_sub_lt_iff {f t : UINT64} (hf : PageAligned f) (ht : PageAligned t) (i : BitVec 9) :
    slot t i - f < 0x1000#64 ↔ t = f := by
  have hs := slot_toNat ht i
  have := t.isLt; have := f.isLt; have := i.isLt
  unfold PageAligned at hf ht
  rw [BitVec.lt_def, BitVec.toNat_sub, hs, ← BitVec.toNat_inj]
  simp only [BitVec.toNat_ofNat]
  omega

/-- Zeroing a frame empties its entries and leaves every other table alone. -/
theorem zeroMem_slot (mem : WordMem) {f t : UINT64} (hf : PageAligned f) (ht : PageAligned t)
    (i : BitVec 9) : zeroMem mem f 0x1000#64 (slot t i) = if t = f then 0#64 else mem (slot t i) := by
  simp only [zeroMem, slot_sub_lt_iff hf ht]

/-- The entry of a table just hung. -/
theorem linkTable_linked (u f : UINT64) (j : BitVec 9) :
    (linkTable u (j.setWidth 64) f s).mem (slot u j) = f ||| 0x01#64 ||| 0x02#64 :=
  Function.update_self _ _ _

/-- Of a table other than the new one the entry alone changes. -/
theorem linkTable_slot {u f t : UINT64} {i j : BitVec 9} (hf : PageAligned f) (ht : PageAligned t)
    (hne : t ≠ f) (hslot : slot t i ≠ slot u j) :
    (linkTable u (j.setWidth 64) f s).mem (slot t i) = s.mem (slot t i) := by
  show Function.update (zeroMem s.mem f 0x1000#64) (slot u j) _ (slot t i) = _
  rw [Function.update_of_ne hslot, zeroMem_slot _ hf ht, if_neg hne]

/-- The new table is empty. -/
theorem linkTable_blank {u f : UINT64} (hf : PageAligned f) (hu : PageAligned u) (hne : u ≠ f)
    (i j : BitVec 9) : (linkTable u (j.setWidth 64) f s).mem (slot f i) = 0#64 := by
  have hslot : slot f i ≠ slot u j := fun he => hne (slot_inj hf hu he).1.symm
  show Function.update (zeroMem s.mem f 0x1000#64) (slot u j) _ (slot f i) = _
  rw [Function.update_of_ne hslot, zeroMem_slot _ hf hf, if_pos rfl]

/-- Page tables in which 0 is empty and pointers point on. -/
structure ReadsPointers (L : Layout UINT64 (BitVec 9) UINT64) : Prop where
  slot : L.slot = slot
  aligned : ∀ {t}, L.isNode t → PageAligned t
  zero : L.decode 0#64 = none
  pointer : ∀ {e}, IsPointer e → L.decode e = some (address e)

theorem pageLayout_readsPointers : ReadsPointers pageLayout :=
  ⟨rfl, fun h => h, decode_zero, fun h => decode_pointer h⟩

/-- Hanging a fresh frame under an empty entry is a `Link`, to a table of
zeros. -/
theorem linkTable_link {L : Layout UINT64 (BitVec 9) UINT64} (hL : ReadsPointers L)
    {S : Set (List (BitVec 9))} {root u f : UINT64} {q : List (BitVec 9)} {j : BitVec 9}
    (hroot : L.isNode root) (hq : q ∈ S) (hu : follow L s.mem root q = some u)
    (hz : s.mem (slot u j) = 0#64) (hfresh : ∀ p ∈ S, follow L s.mem root p ≠ some f)
    (hf : PageAligned f) (hlt : f.toNat < 2 ^ 52) :
    Link L S s.mem (linkTable u (j.setWidth 64) f s).mem root q j u f ∧
      ∀ i, (linkTable u (j.setWidth 64) f s).mem (slot f i) = 0#64 := by
  have haligned : ∀ {p t}, follow L s.mem root p = some t → PageAligned t := fun h =>
    hL.aligned (follow_isNode L hroot h)
  have hblank : ∀ i, (linkTable u (j.setWidth 64) f s).mem (slot f i) = 0#64 := fun i =>
    linkTable_blank hf (haligned hu) (fun he => hfresh q hq (by rw [← he]; exact hu)) i j
  refine ⟨⟨hu, ?_, hfresh, ?_, fun i => ?_, fun p hp t i ht hne => ?_⟩, hblank⟩
  · rw [hL.slot, hz, hL.zero]
  · obtain ⟨hptr, ha⟩ := isPointer_or hf hlt
    rw [hL.slot, linkTable_linked, hL.pointer hptr, ha]
  · rw [hL.slot, hblank, hL.zero]
  · have htf : t ≠ f := fun he => hfresh p hp (by rw [← he]; exact ht)
    rw [hL.slot] at hne ⊢
    exact linkTable_slot hf (haligned ht) htf hne

/-- An empty entry gets the next frame. -/
theorem nextTable_empty {u i f : UINT64} (hf : alloc s.calls = some f)
    (h : s.mem (entry u i) = 0#64) : nextTable alloc u i s = (f, linkTable u i f s) := by
  simp only [nextTable, h, if_true, hf, Option.getD_some]

/-- A used entry is followed. -/
theorem nextTable_used {u i : UINT64} (h : s.mem (entry u i) ≠ 0#64) :
    nextTable alloc u i s = (s.mem (entry u i) &&& ~~~0xFFF#64, s) := by
  simp only [nextTable, if_neg h]

theorem tableAt_snoc (cr3 : UINT64) (s : MapState) (q : List (BitVec 9)) (j : BitVec 9) :
    tableAt cr3 s (q ++ [j]) =
      (tableAt cr3 s q).bind fun t => pageLayout.decode (s.mem (slot t j)) :=
  follow_snoc pageLayout s.mem cr3 q j

/-- A fresh frame `f` about to be hung under the empty entry `j` of the table
`u` at path `q`. -/
structure Hang (alloc : Nat → Option UINT64) (last : Nat) (V : Set UINT64) (cr3 : UINT64) (s : MapState)
    (q : List (BitVec 9)) (j : BitVec 9) (u f : UINT64) : Prop where
  mem : q ++ [j] ∈ PathsOf V
  path : tableAt cr3 s q = some u
  zero : s.mem (slot u j) = 0#64
  frame : alloc s.calls = some f
  lt_last : s.calls < last
  aligned : PageAligned f
  lt : f.toNat < 2 ^ 52

section
variable {q : List (BitVec 9)} {j : BitVec 9} {u f : UINT64}

theorem Hang.parent (H : Hang alloc last V cr3 s q j u f) : q ∈ PathsOf V :=
  pathsOf_prefixClosed V q j H.mem

theorem Hang.not_table (H : Hang alloc last V cr3 s q j u f) (R : Ready alloc last V cr3 s) :
    ∀ p ∈ PathsOf V, tableAt cr3 s p ≠ some f :=
  R.frames.fresh s.calls f (Nat.le_refl _) H.lt_last H.frame

/-- Hanging the frame is a `Link` of the radix tree, to a table of zeros. -/
theorem Hang.link (H : Hang alloc last V cr3 s q j u f) (R : Ready alloc last V cr3 s) :
    Link pageLayout (PathsOf V) s.mem (linkTable u (j.setWidth 64) f s).mem cr3 q j u f ∧
      ∀ i, (linkTable u (j.setWidth 64) f s).mem (slot f i) = 0#64 :=
  linkTable_link pageLayout_readsPointers R.hier.root_aligned H.parent H.path H.zero (H.not_table R)
    H.aligned H.lt

theorem Hang.tableAt (H : Hang alloc last V cr3 s q j u f) (R : Ready alloc last V cr3 s)
    {p : List (BitVec 9)} (hp : p ∈ PathsOf V) :
    tableAt cr3 (linkTable u (j.setWidth 64) f s) p =
      if p = q ++ [j] then some f else tableAt cr3 s p :=
  follow_link (pathsOf_prefixClosed V) R.hier.tree H.mem (H.link R).1 p hp

theorem Hang.before (H : Hang alloc last V cr3 s q j u f) : Loader.tableAt cr3 s (q ++ [j]) = none := by
  rw [tableAt_snoc, H.path, Option.bind_some, H.zero, decode_zero]

/-- One word has changed; those of the new table read 0, as missing ones do. -/
theorem Hang.word (H : Hang alloc last V cr3 s q j u f) (R : Ready alloc last V cr3 s)
    {p : List (BitVec 9)} (hp : p ∈ PathsOf V) (i : BitVec 9) :
    Loader.leafWord cr3 (linkTable u (j.setWidth 64) f s) p i =
      if p = q ∧ i = j then f ||| 0x01#64 ||| 0x02#64 else Loader.leafWord cr3 s p i := by
  rw [leafWord_eq_wordAt, leafWord_eq_wordAt, ← linkTable_linked (s := s) u f j]
  exact wordAt_hang (pathsOf_prefixClosed V) R.hier.tree.owns H.parent (H.link R).1 (H.link R).2 hp i

theorem Hang.hierarchy (H : Hang alloc last V cr3 s q j u f) (R : Ready alloc last V cr3 s) :
    Hierarchy V cr3 (linkTable u (j.setWidth 64) f s).mem where
  root_aligned := R.hier.root_aligned
  root_lt := R.hier.root_lt
  tree := R.hier.tree.link (pathsOf_prefixClosed V) H.mem (H.link R).1
  clean := by
    refine clean_iff.mpr fun p i hpi => ?_
    rw [H.word R (pathsOf_prefixClosed V p i hpi)]
    split
    · exact .inr (isPointer_or H.aligned H.lt).1
    · exact clean_iff.mp R.hier.clean p i hpi

theorem Hang.freshFrames (H : Hang alloc last V cr3 s q j u f) (R : Ready alloc last V cr3 s) :
    FreshFrames alloc last V cr3 (linkTable u (j.setWidth 64) f s) where
  succeeds k hk := R.frames.succeeds k (Nat.le_of_succ_le hk)
  fresh k g hk hl hg p hp := by
    have hlt : s.calls < k := hk
    rw [H.tableAt R hp]
    split
    · intro e
      cases e
      have := R.frames.distinct s.calls k _ (Nat.le_refl _) H.lt_last (by omega) hl H.frame hg
      omega
    · exact R.frames.fresh k g (by omega) hl hg p hp
  distinct a b g ha hal hb hbl :=
    R.frames.distinct a b g (Nat.le_of_succ_le ha) hal (Nat.le_of_succ_le hb) hbl

theorem Hang.grows (H : Hang alloc last V cr3 s q j u f) (R : Ready alloc last V cr3 s) :
    Grows alloc last V cr3 s (linkTable u (j.setWidth 64) f s) where
  ready := ⟨H.hierarchy R, H.freshFrames R⟩
  mono p hp t ht := by
    rw [H.tableAt R hp, if_neg]
    · exact ht
    · rintro rfl; rw [H.before] at ht; cases ht
  isFrame X := by
    rintro (⟨p, hp, hX⟩ | ⟨k, hk, hl, hX⟩)
    · rw [H.tableAt R hp] at hX
      split at hX
      · cases hX; exact .inr ⟨s.calls, Nat.le_refl _, H.lt_last, H.frame⟩
      · exact .inl ⟨p, hp, hX⟩
    · exact .inr ⟨k, Nat.le_of_succ_le hk, hl, hX⟩
  isLastFrame X := by
    rintro (⟨p, hp, hl, hX⟩ | ⟨k, hk, hl, hX⟩)
    · rw [H.tableAt R hp] at hX
      split at hX
      · cases hX; exact .inr ⟨s.calls, Nat.le_refl _, H.lt_last, H.frame⟩
      · exact .inl ⟨p, hp, hl, hX⟩
    · exact .inr ⟨k, Nat.le_of_succ_le hk, hl, hX⟩

/-- No last-level entry changes. -/
theorem Hang.leafWord (H : Hang alloc last V cr3 s q j u f) (R : Ready alloc last V cr3 s)
    {p : List (BitVec 9)} (hp : p ∈ PathsOf V) (hl : p.length = 3) (i : BitVec 9) :
    leafWord cr3 (linkTable u (j.setWidth 64) f s) p i = leafWord cr3 s p i := by
  rw [H.word R hp, if_neg]
  rintro ⟨rfl, -⟩
  exact snoc_not_mem hl j H.mem

end

/-- Whether the table was there or is made now: afterwards it is there, the
invariant holds and every last-level entry reads as before. -/
theorem nextTable_spec (R : Ready alloc last V cr3 s) {q : List (BitVec 9)} {j : BitVec 9}
    (hq : q ++ [j] ∈ PathsOf V) {u : UINT64} (hu : tableAt cr3 s q = some u)
    (hlast : (nextTable alloc u (j.setWidth 64) s).2.calls ≤ last) :
    Grows alloc last V cr3 s (nextTable alloc u (j.setWidth 64) s).2 ∧
      tableAt cr3 (nextTable alloc u (j.setWidth 64) s).2 (q ++ [j]) =
        some (nextTable alloc u (j.setWidth 64) s).1 ∧
      ∀ p ∈ PathsOf V, p.length = 3 → ∀ i,
        leafWord cr3 (nextTable alloc u (j.setWidth 64) s).2 p i = leafWord cr3 s p i := by
  by_cases hz : s.mem (slot u j) = 0#64
  · have hl : s.calls < last := by
      rw [nextTable, if_pos (show s.mem (entry u (j.setWidth 64)) = 0#64 from hz)] at hlast
      exact hlast
    obtain ⟨f, hf, hfa, hlt⟩ := R.frames.succeeds s.calls (Nat.le_refl _) hl
    have H : Hang alloc last V cr3 s q j u f := ⟨hq, hu, hz, hf, hl, hfa, hlt⟩
    rw [nextTable_empty hf hz]
    exact ⟨H.grows R, by rw [H.tableAt R hq, if_pos rfl], fun p hp hl i => H.leafWord R hp hl i⟩
  · obtain ⟨v, hv, hpre⟩ := hq
    have hptr : IsPointer (s.mem (slot u j)) :=
      (R.hier.clean v hv q j u hpre hu).resolve_left hz
    rw [nextTable_used hz]
    refine ⟨Grows.refl R, ?_, fun _ _ _ _ => rfl⟩
    rw [tableAt_snoc, hu, Option.bind_some, decode_pointer hptr, address_eq_page_mask hptr.2.2.2]
    rfl

end

end PiousOS.Loader
