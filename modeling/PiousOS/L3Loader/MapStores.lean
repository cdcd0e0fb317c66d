import PiousOS.Core.AlignedWords
import PiousOS.L3Loader.MapVirtualPages

/-!
# The stores of MapVirtualPages in memory

`mapVirtualPages` computes on words. In memory its stores are those of its
log, in order (`stored`). With word-aligned tables the words of memory are
those it computed with (`mapVirtualPages_shadows`), so the CPU's walk in memory
is the walk of the word model; and a byte that no store touches is left alone
(`stored_untouched`).
-/
namespace PiousOS.Loader
open ByteMem Paging

/-- A store in memory. -/
def MapEvent.store (mem : ByteMem) : MapEvent → ByteMem
  | .zero frame => fill mem frame 0x1000 fun _ => 0
  | .link table index value => store64 mem (entry table index) value
  | .leaf table index value => store64 mem (entry table index) value
  | .invlpg _ => mem

/-- Memory after the stores of a log. -/
def stored (mem : ByteMem) (log : List MapEvent) : ByteMem := log.foldl MapEvent.store mem

/-- The byte at `x` is one of those stored. -/
def MapEvent.Touches (x : UINT64) : MapEvent → Prop
  | .zero frame => (x - frame).toNat < 0x1000
  | .link table index _ => (x - entry table index).toNat < 8
  | .leaf table index _ => (x - entry table index).toNat < 8
  | .invlpg _ => False

theorem stored_append (mem : ByteMem) (log new : List MapEvent) :
    stored mem (log ++ new) = stored (stored mem log) new := List.foldl_append

theorem MapEvent.store_untouched {mem : ByteMem} {e : MapEvent} {x : UINT64} (h : ¬ e.Touches x) :
    e.store mem x = mem x := by
  cases e with
  | zero frame => exact if_neg h
  | link table index value => exact store64_outside h
  | leaf table index value => exact store64_outside h
  | invlpg virt => rfl

theorem stored_untouched {log : List MapEvent} {x : UINT64} (h : ∀ e ∈ log, ¬ e.Touches x)
    (mem : ByteMem) : stored mem log x = mem x := by
  induction log generalizing mem with
  | nil => rfl
  | cons e log ih =>
    refine (ih (fun e' he' => h e' (List.mem_cons_of_mem _ he')) _).trans ?_
    exact MapEvent.store_untouched (h e List.mem_cons_self)

/-! ## Words and bytes -/

/-- From `s` to `s'` the stores in memory do what the stores to words did. -/
def Shadows (s s' : MapState) : Prop :=
  ∃ new, s'.log = s.log ++ new ∧ ∀ mem, Mirrors mem s.mem → Mirrors (stored mem new) s'.mem

theorem Shadows.refl (s : MapState) : Shadows s s := ⟨[], (List.append_nil _).symm, fun _ h => h⟩

theorem Shadows.trans {s s' s'' : MapState} (h : Shadows s s') (h' : Shadows s' s'') :
    Shadows s s'' := by
  obtain ⟨new, hlog, hmem⟩ := h
  obtain ⟨new', hlog', hmem'⟩ := h'
  refine ⟨new ++ new', by rw [hlog', hlog, List.append_assoc], fun mem hm => ?_⟩
  rw [stored_append]
  exact hmem' _ (hmem mem hm)

theorem storeLeaf_shadows {pml1 : UINT64} (h : WordAligned pml1) (index value virt : UINT64)
    (s : MapState) : Shadows s (storeLeaf pml1 index value virt s) :=
  ⟨_, rfl, fun _ hm => hm.store64 (h.add index) value⟩

theorem linkTable_shadows {table next : UINT64} (ht : WordAligned table) (hn : WordAligned next)
    (i : UINT64) (s : MapState) : Shadows s (linkTable table i next s) := by
  refine ⟨_, rfl, fun mem hm => ?_⟩
  have hzero : Mirrors (fill mem next 0x1000 fun _ => 0) (zeroMem s.mem next 0x1000#64) :=
    hm.zero hn (by decide)
  exact hzero.store64 (ht.add i) _

theorem page_mask_aligned (e : UINT64) : WordAligned (e &&& ~~~0xFFF#64) := by
  unfold WordAligned
  rw [page_mask_toNat]
  omega

section
variable {alloc : Nat → Option UINT64} {cr3 : UINT64} (hframes : ∀ k f, alloc k = some f → WordAligned f)
include hframes

theorem nextTable_shadows {table : UINT64} (ht : WordAligned table) (i : UINT64) (s : MapState) :
    WordAligned (nextTable alloc table i s).1 ∧ Shadows s (nextTable alloc table i s).2 := by
  unfold nextTable
  split
  · have hnext : WordAligned ((alloc s.calls).getD 0#64) := by
      cases hf : alloc s.calls with
      | none => exact (by decide : WordAligned 0#64)
      | some f => exact hframes _ f hf
    exact ⟨hnext, linkTable_shadows ht hnext i s⟩
  · exact ⟨page_mask_aligned _, Shadows.refl s⟩

/-- With a word-aligned CR3 and word-aligned frames, memory after the call has
the words the call computed. -/
theorem mapVirtualPages_shadows (hcr3 : WordAligned cr3) (physical virt : UINT64) (pages : Nat)
    (flags : UINT32) (s : MapState) :
    Shadows s (mapVirtualPages alloc cr3 physical virt pages flags s).2 := by
  refine (mapVirtualPages_rule (C := fun _ _ _ s s' => Shadows s s')
    (L := fun _ _ _ pml1 _ s s' => WordAligned pml1 → Shadows s s')
    ?call ?inside ?past ?done).1 physical virt pages s
  case call =>
    intro _ virt _ s s' h
    obtain ⟨ha, hs⟩ := lastTable_rule alloc cr3 virt s (P := fun _ u t => WordAligned u ∧ Shadows s t)
      ⟨hcr3, Shadows.refl s⟩ fun _ j u t _ ⟨hu, ht⟩ =>
        ⟨(nextTable_shadows hframes hu _ t).1, ht.trans (nextTable_shadows hframes hu _ t).2⟩
    exact hs.trans (h ha)
  case inside =>
    intro _ _ _ _ _ s _ _ _ h ha
    exact (storeLeaf_shadows ha _ _ _ s).trans (h ha)
  case past =>
    intro _ _ _ _ _ s _ _ _ _ hcall h ha
    exact ((storeLeaf_shadows ha _ _ _ s).trans hcall).trans (h ha)
  case done => exact fun _ _ _ _ _ s _ _ => Shadows.refl s

end

/-! ## The walk in memory -/

theorem slot_aligned {t : UINT64} (ht : PageAligned t) (i : BitVec 9) : WordAligned (slot t i) := by
  unfold PageAligned at ht
  unfold WordAligned
  rw [slot_toNat ht]
  omega

/-- The CPU walks word-aligned entries only. -/
theorem cpuWalk_mirrors {mem : ByteMem} {words : WordMem} (h : Mirrors mem words) (cr3 v : UINT64) :
    cpuWalk (load64 mem) cr3 v = cpuWalk words cr3 v := by
  have hword : ∀ e i, load64 mem (slot (address e) i) = words (slot (address e) i) := fun e i =>
    h _ (slot_aligned (address_aligned e) i)
  unfold cpuWalk
  simp only [hword]

end PiousOS.Loader
