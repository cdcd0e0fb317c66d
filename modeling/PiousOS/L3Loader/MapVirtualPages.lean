import PiousOS.L2Machine.Paging

/-!
# MapVirtualPages (`src/bootloader/boot.c`)

The loader maps the kernel by editing the firmware's page tables in place.
Physical memory is identity mapped while it runs, so a table is the word
memory at its physical address.

`AllocatePages` is an oracle: its `k`-th call answers `alloc k`, a frame or a
failure. A failing call leaves the caller's pointer, `NULL`, unchanged. The
state keeps a log of the stores and `invlpg`s in program order.

The loop of the source calls the function again, for the rest of the range,
at every page from the first one past the end of the table on, after it has
stored that page's entry behind the table; it then goes on with the next
page. The definitions follow it literally.
-/
namespace PiousOS.Loader
open Paging

/-- One effect of `MapVirtualPages` on memory or on the TLB. -/
inductive MapEvent where
  | zero (frame : UINT64)
  | link (table index value : UINT64)
  | leaf (table index value : UINT64)
  | invlpg (virt : UINT64)
  deriving DecidableEq, Repr

structure MapState where
  mem : WordMem
  /-- `AllocatePages` calls made so far -/
  calls : Nat
  log : List MapEvent

/-- `ZeroMem(p, size)` on words. -/
def zeroMem (mem : WordMem) (p size : UINT64) : WordMem :=
  fun a => if a - p < size then 0#64 else mem a

/-- The frame at `next` has been allocated: zero it and hang it under
`table[i]`, present and writable. -/
def linkTable (table i next : UINT64) (s : MapState) : MapState :=
  let value := next ||| 0x01#64 ||| 0x02#64
  { mem := Function.update (zeroMem s.mem next 0x1000#64) (entry table i) value,
    calls := s.calls + 1,
    log := s.log ++ [.zero next, .link table i value] }

/-- One level of the descent: the three near-identical blocks of the source,
for `pml3`, `pml2` and `pml1`.
mirrors src/bootloader/boot.c:2022-2047 -/
def nextTable (alloc : Nat → Option UINT64) (table i : UINT64) (s : MapState) :
    UINT64 × MapState :=
  if s.mem (entry table i) = 0#64 then
    -- a failing AllocatePages leaves the NULL the pointer was initialised with
    let next := (alloc s.calls).getD 0#64
    (next, linkTable table i next s)
  else (s.mem (entry table i) &&& ~~~0xFFF#64, s)

/-- `pml1[index] = value;` and the `invlpg` after it.
mirrors src/bootloader/boot.c:2050-2051 -/
def storeLeaf (pml1 index value virt : UINT64) (s : MapState) : MapState :=
  { s with mem := Function.update s.mem (entry pml1 index) value,
           log := s.log ++ [.leaf pml1 index value, .invlpg virt] }

/-- The entry for page `i`: `(physical + (i << 12)) | flags`. -/
def leafValue (physical : UINT64) (flags : UINT32) (i : Nat) : UINT64 :=
  (physical + BitVec.ofNat 64 i <<< 12) ||| flags.setWidth 64

/-- The `i`-th page of a range: `virt + (i << 12)`. -/
def pageAt (virt : UINT64) (i : Nat) : UINT64 := virt + BitVec.ofNat 64 i <<< 12

theorem mask_lt (v : UINT64) (n : Nat) : (v >>> n &&& 0x1FF#64).toNat < 512 := by
  rw [mask_index, BitVec.toNat_setWidth]
  have := (v.extractLsb' n 9).isLt
  omega

/-- Page 0 of a range never lies past the end of its table. -/
theorem pos_of_past {virt : UINT64} {i : Nat}
    (h : 511#64 < (virt >>> 12 &&& 0x1FF#64) + BitVec.ofNat 64 i) : 0 < i := by
  rcases Nat.eq_zero_or_pos i with rfl | hi
  · have := mask_lt virt 12
    rw [BitVec.lt_def] at h
    simp only [BitVec.add_zero, BitVec.toNat_ofNat] at h
    omega
  · exact hi

mutual

/-- mirrors src/bootloader/boot.c:1999-2060 (x86_64) -/
def mapVirtualPages (alloc : Nat → Option UINT64) (cr3 physical virt : UINT64) (pages : Nat)
    (flags : UINT32) (s : MapState) : EFI_STATUS × MapState :=
  let pml3 := nextTable alloc cr3 (virt >>> 39 &&& 0x1FF#64) s
  let pml2 := nextTable alloc pml3.1 (virt >>> 30 &&& 0x1FF#64) pml3.2
  let pml1 := nextTable alloc pml2.1 (virt >>> 21 &&& 0x1FF#64) pml2.2
  (EFI_SUCCESS, leafLoop alloc cr3 physical virt pages flags pml1.1 0 pml1.2)
termination_by (pages, pages + 1)

/-- The loop over the pages, from page `i` on.
mirrors src/bootloader/boot.c:2049-2056 -/
def leafLoop (alloc : Nat → Option UINT64) (cr3 physical virt : UINT64) (pages : Nat)
    (flags : UINT32) (pml1 : UINT64) (i : Nat) (s : MapState) : MapState :=
  if i < pages then
    let index := (virt >>> 12 &&& 0x1FF#64) + BitVec.ofNat 64 i
    let s₁ := storeLeaf pml1 index (leafValue physical flags i) (pageAt virt i) s
    let s₂ := if 511#64 < index then
        (mapVirtualPages alloc cr3 (physical + BitVec.ofNat 64 i <<< 12) (pageAt virt i)
          (pages - i) flags s₁).2
      else s₁
    leafLoop alloc cr3 physical virt pages flags pml1 (i + 1) s₂
  else s
termination_by (pages, pages - i)
decreasing_by
  · have := pos_of_past ‹_›
    exact Prod.Lex.left _ _ (by omega)
  · exact Prod.Lex.right _ (by omega)

end

/-- The descent of the three levels together: the last-level table of `virt`. -/
def lastTable (alloc : Nat → Option UINT64) (cr3 virt : UINT64) (s : MapState) :
    UINT64 × MapState :=
  let pml3 := nextTable alloc cr3 (virt >>> 39 &&& 0x1FF#64) s
  let pml2 := nextTable alloc pml3.1 (virt >>> 30 &&& 0x1FF#64) pml3.2
  nextTable alloc pml2.1 (virt >>> 21 &&& 0x1FF#64) pml2.2

/-- `pml1i + i`, the index the loop stores page `i` at. -/
def leafIndex (virt : UINT64) (i : Nat) : UINT64 :=
  (virt >>> 12 &&& 0x1FF#64) + BitVec.ofNat 64 i

section Rule
variable {alloc : Nat → Option UINT64} {cr3 : UINT64} {flags : UINT32}

theorem mapVirtualPages_eq (physical virt : UINT64) (pages : Nat) (s : MapState) :
    mapVirtualPages alloc cr3 physical virt pages flags s =
      (EFI_SUCCESS, leafLoop alloc cr3 physical virt pages flags (lastTable alloc cr3 virt s).1 0
        (lastTable alloc cr3 virt s).2) := by
  rw [mapVirtualPages]; rfl

theorem leafLoop_done {physical virt pml1 : UINT64} {pages i : Nat} {s : MapState}
    (h : ¬ i < pages) : leafLoop alloc cr3 physical virt pages flags pml1 i s = s := by
  rw [leafLoop, if_neg h]

theorem leafLoop_inside {physical virt pml1 : UINT64} {pages i : Nat} {s : MapState}
    (h : i < pages) (hi : ¬ 511#64 < leafIndex virt i) :
    leafLoop alloc cr3 physical virt pages flags pml1 i s =
      leafLoop alloc cr3 physical virt pages flags pml1 (i + 1)
        (storeLeaf pml1 (leafIndex virt i) (leafValue physical flags i) (pageAt virt i) s) := by
  rw [leafLoop, if_pos h, ← leafIndex]
  dsimp only
  rw [if_neg hi]

theorem leafLoop_past {physical virt pml1 : UINT64} {pages i : Nat} {s : MapState}
    (h : i < pages) (hi : 511#64 < leafIndex virt i) :
    leafLoop alloc cr3 physical virt pages flags pml1 i s =
      leafLoop alloc cr3 physical virt pages flags pml1 (i + 1)
        (mapVirtualPages alloc cr3 (physical + BitVec.ofNat 64 i <<< 12) (pageAt virt i) (pages - i)
          flags (storeLeaf pml1 (leafIndex virt i) (leafValue physical flags i) (pageAt virt i) s)).2 := by
  rw [leafLoop, if_pos h, ← leafIndex]
  dsimp only
  rw [if_pos hi]

/-- The proof rule for `mapVirtualPages`: a relation `C` between the states
before and after a call and a relation `L` for the loop from page `i` on hold
if they follow through one step of the loop. -/
theorem mapVirtualPages_rule
    {C : UINT64 → UINT64 → Nat → MapState → MapState → Prop}
    {L : UINT64 → UINT64 → Nat → UINT64 → Nat → MapState → MapState → Prop}
    (call : ∀ physical virt pages s s',
      L physical virt pages (lastTable alloc cr3 virt s).1 0 (lastTable alloc cr3 virt s).2 s' →
      C physical virt pages s s')
    (inside : ∀ physical virt pages pml1 i s s', i < pages → ¬ 511#64 < leafIndex virt i →
      L physical virt pages pml1 (i + 1)
        (storeLeaf pml1 (leafIndex virt i) (leafValue physical flags i) (pageAt virt i) s) s' →
      L physical virt pages pml1 i s s')
    (past : ∀ physical virt pages pml1 i s s₂ s', i < pages → 511#64 < leafIndex virt i →
      C (physical + BitVec.ofNat 64 i <<< 12) (pageAt virt i) (pages - i)
        (storeLeaf pml1 (leafIndex virt i) (leafValue physical flags i) (pageAt virt i) s) s₂ →
      L physical virt pages pml1 (i + 1) s₂ s' → L physical virt pages pml1 i s s')
    (done : ∀ physical virt pages pml1 i s, ¬ i < pages → L physical virt pages pml1 i s s) :
    (∀ physical virt pages s,
      C physical virt pages s (mapVirtualPages alloc cr3 physical virt pages flags s).2) ∧
    ∀ physical virt pages pml1 i s,
      L physical virt pages pml1 i s (leafLoop alloc cr3 physical virt pages flags pml1 i s) := by
  refine mapVirtualPages.mutual_induct alloc cr3 flags
    (fun physical virt pages s =>
      C physical virt pages s (mapVirtualPages alloc cr3 physical virt pages flags s).2)
    (fun physical virt pages pml1 i s =>
      L physical virt pages pml1 i s (leafLoop alloc cr3 physical virt pages flags pml1 i s))
    ?_ ?_ ?_
  · intro physical virt pages s
    dsimp only
    intro ih
    rw [mapVirtualPages_eq]
    exact call _ _ _ _ _ ih
  · intro physical virt pages pml1 i s h
    dsimp only
    intro ihC _ ihL
    by_cases hi : 511#64 < leafIndex virt i
    · rw [dif_pos (show 511#64 < (virt >>> 12 &&& 511#64) + BitVec.ofNat 64 i from hi)] at ihL
      rw [leafLoop_past h hi]
      exact past _ _ _ _ _ _ _ _ h hi (ihC hi) ihL
    · rw [dif_neg (show ¬ 511#64 < (virt >>> 12 &&& 511#64) + BitVec.ofNat 64 i from hi)] at ihL
      rw [leafLoop_inside h hi]
      exact inside _ _ _ _ _ _ _ h hi ihL
  · intro physical virt pages pml1 i s h
    rw [leafLoop_done h]
    exact done _ _ _ _ _ _ h

theorem nextTable_calls_le (table i : UINT64) (s : MapState) :
    s.calls ≤ (nextTable alloc table i s).2.calls := by
  unfold nextTable
  split
  · exact Nat.le_succ _
  · exact Nat.le_refl _

variable (alloc cr3) in
theorem lastTable_eq (virt : UINT64) (s : MapState) :
    lastTable alloc cr3 virt s =
      let pml3 := nextTable alloc cr3 ((pml4i virt).setWidth 64) s
      let pml2 := nextTable alloc pml3.1 ((pml3i virt).setWidth 64) pml3.2
      nextTable alloc pml2.1 ((pml2i virt).setWidth 64) pml2.2 := by
  simp only [lastTable, mask_index, pml4i, pml3i, pml2i]

variable (alloc cr3) in
/-- The proof rule for the descent: what holds of CR3 and is kept by each level
holds of the last-level table. -/
theorem lastTable_rule (virt : UINT64) (s : MapState) {P : List (BitVec 9) → UINT64 → MapState → Prop}
    (start : P [] cr3 s)
    (next : ∀ q j u t, q ++ [j] <+: tablePath virt → P q u t →
      P (q ++ [j]) (nextTable alloc u (j.setWidth 64) t).1 (nextTable alloc u (j.setWidth 64) t).2) :
    P (tablePath virt) (lastTable alloc cr3 virt s).1 (lastTable alloc cr3 virt s).2 := by
  rw [lastTable_eq]
  have p3 := next [] (pml4i virt) cr3 s ⟨[pml3i virt, pml2i virt], rfl⟩ start
  have p2 := next [pml4i virt] (pml3i virt) _ _ ⟨[pml2i virt], rfl⟩ p3
  exact next [pml4i virt, pml3i virt] (pml2i virt) _ _ ⟨[], rfl⟩ p2

/-- The same, for a descent that ends within `last` calls. -/
theorem lastTable_rule_within {P : List (BitVec 9) → UINT64 → MapState → Prop} {virt : UINT64}
    {s : MapState} {last : Nat} (hlast : (lastTable alloc cr3 virt s).2.calls ≤ last)
    (start : P [] cr3 s)
    (next : ∀ q j u t, q ++ [j] <+: tablePath virt → P q u t →
      (nextTable alloc u (j.setWidth 64) t).2.calls ≤ last →
      P (q ++ [j]) (nextTable alloc u (j.setWidth 64) t).1 (nextTable alloc u (j.setWidth 64) t).2) :
    P (tablePath virt) (lastTable alloc cr3 virt s).1 (lastTable alloc cr3 virt s).2 := by
  refine lastTable_rule alloc cr3 virt s (P := fun q u t => t.calls ≤ last → P q u t)
    (fun _ => start) ?_ hlast
  intro q j u t hq hP hcalls
  exact next q j u t hq (hP (Nat.le_trans (nextTable_calls_le _ _ _) hcalls)) hcalls

end Rule

end PiousOS.Loader
