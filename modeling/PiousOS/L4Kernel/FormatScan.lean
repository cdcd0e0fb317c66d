import PiousOS.L4Kernel.PrintString

/-!
# The two passes of `PrintString`

* `passes_agree_iff`: the scan counts the arguments the printing pass takes
  exactly when the format has no conversion that only one of them knows, and
  at most 255 conversions with an argument;
* `PrintString_stops_iff`: neither pass reads past the NUL, and both end,
  exactly when the format does not end inside a conversion and no infinite
  floating-point argument is printed.
-/
namespace PiousOS.Kernel

section
variable {call : PrintCall} {fuel k : Nat}

/-! ## Arguments -/

/-- The two passes agree on the arguments of a call whose format ends at `n`:
at every boundary between conversions, on the whole format, and on the
argument each counted conversion prints. -/
structure ArgsAgree (call : PrintCall) (n : Nat) : Prop where
  atBoundary : ∀ fuel k p, position call.fmt k ≤ n → printed call fuel k = some p →
    (scanned call.fmt k).num_args.toNat = p.arg
  whole : ∀ fuel s p, scanLoop call.fmt fuel {} = some s → printLoop call fuel {} = some p →
    s.num_args.toNat = p.arg
  prints : ∀ fuel k p, position call.fmt k < n → printed call fuel k = some p →
    scanCounts call.fmt (position call.fmt k) = true →
    ∃ conversion, call.conversionAt fuel (position call.fmt k) = some conversion ∧
      printStep call fuel p = (conversion (call.args (scanned call.fmt k).num_args.toNat)).map
        (p.convert call (stride call.fmt (position call.fmt k)))

/-- Every conversion takes an argument in both passes or in none. -/
def Matching (fmt : Nat → UINT8) (n : Nat) : Prop :=
  ∀ k, position fmt k < n → scanCounts fmt (position fmt k) = printTakes fmt (position fmt k)

/-- At most 255 conversions take an argument. -/
def FitsCounter (fmt : Nat → UINT8) (n : Nat) : Prop :=
  ∀ k, position fmt k ≤ n → countedBefore fmt k ≤ 255

instance (fmt : Nat → UINT8) (n : Nat) : Decidable (Matching fmt n) :=
  decidable_of_iff
    (∀ k < n, position fmt k < n → scanCounts fmt (position fmt k) = printTakes fmt (position fmt k))
    ⟨fun h k hk => h k (Nat.lt_of_le_of_lt (le_position fmt k) hk) hk, fun h k _ => h k⟩

instance (fmt : Nat → UINT8) (n : Nat) : Decidable (FitsCounter fmt n) :=
  decidable_of_iff (∀ k < n + 1, position fmt k ≤ n → countedBefore fmt k ≤ 255)
    ⟨fun h k hk => h k (Nat.lt_succ_of_le (Nat.le_trans (le_position fmt k) hk)) hk, fun h k _ => h k⟩

theorem countedBefore_eq_takenBefore {fmt : Nat → UINT8} {n : Nat} (h : Matching fmt n)
    (hk : position fmt k ≤ n) : countedBefore fmt k = takenBefore fmt k := by
  induction k with
  | zero => rfl
  | succ k ih =>
    have hlt : position fmt k < n := Nat.lt_of_lt_of_le (position_strictMono fmt (Nat.lt_succ_self k)) hk
    rw [countedBefore_succ, takenBefore_succ, ih (Nat.le_of_lt hlt), h k hlt]

theorem scanned_num_args (fmt : Nat → UINT8) (k : Nat) :
    (scanned fmt k).num_args.toNat = countedBefore fmt k % 256 := by
  rw [scanned_eq, BitVec.toNat_ofNat]

/-- Both loops stop at the NUL of a format that ends between conversions. -/
theorem position_of_endsAt {fmt : Nat → UINT8} {n m : Nat} (ht : Terminated fmt n) (he : EndsBetween fmt n)
    (hm : EndsAt fmt 0 m) : position fmt m = n := by
  obtain ⟨K, hK⟩ := he
  apply position_eq_of_terminated ht hm.nul
  have hmK : m ≤ K := Nat.le_of_not_lt fun hlt => hm.before K (Nat.zero_le K) hlt (hK ▸ ht.1)
  exact hK ▸ (position_strictMono fmt).monotone hmK

theorem argsAgree_of_matching {n : Nat} (ht : Terminated call.fmt n) (he : EndsBetween call.fmt n)
    (hmatch : Matching call.fmt n) (hfits : FitsCounter call.fmt n) : ArgsAgree call n := by
  have hcount (k : Nat) (hk : position call.fmt k ≤ n) :
      (scanned call.fmt k).num_args.toNat = takenBefore call.fmt k := by
    rw [scanned_num_args, ← countedBefore_eq_takenBefore hmatch hk]
    exact Nat.mod_eq_of_lt (Nat.lt_succ_of_le (hfits k hk))
  refine ⟨fun fuel k p hk hp => ?_, fun fuel s p hs hp => ?_, fun fuel k p hk hp hc => ?_⟩
  · rw [hcount k hk, (printed_at hp).arg]
  · obtain ⟨m, hm, hnum, -⟩ := scanLoop_end (k := 0) hs
    obtain ⟨m', hm', harg, -⟩ := printLoop_end printedAt_zero hp
    have hpos := position_of_endsAt ht he hm
    have hmm : m' = m := (position_strictMono call.fmt).injective
      (by rw [hpos, position_of_endsAt ht he hm'])
    rw [hnum, harg, hmm, hcount m (Nat.le_of_eq hpos)]
  · have hat := printed_at hp
    have hpercent : call.fmt p.str = ascii '%' := by
      rw [hat.str]
      simp only [scanCounts, decide_eq_true_eq] at hc
      exact hc.1
    rw [hmatch k hk, ← hat.str] at hc
    rw [hcount k (Nat.le_of_lt hk), ← hat.arg, ← hat.str]
    exact printStep_conversion hpercent hc

/-- A call with zero arguments, which no conversion gets stuck on. -/
def zeroCall (fmt : Nat → UINT8) : PrintCall := { callOf [] 0 with fmt := fmt }

theorem printed_zeroCall (fmt : Nat → UINT8) (k : Nat) : ∃ p, printed (zeroCall fmt) 2099 k = some p := by
  induction k with
  | zero => exact ⟨{}, rfl⟩
  | succ k ih =>
    obtain ⟨p, hp⟩ := ih
    have hfinite : FiniteAt (zeroCall fmt) p.str p.arg := fun c _ => FloatConversion.narrow_ofBits_zero
    obtain ⟨q, hq⟩ := Option.isSome_iff_exists.mp (printStep_isSome (Nat.lt_succ_self 2098) hfinite)
    exact ⟨q, by rw [printed, hp, Option.bind_some, hq]⟩

/-- **The passes agree on arguments** for every call with a format exactly
when it has no conversion that only one of them takes an argument for, and no
more than 255 that take one. -/
theorem passes_agree_iff (fmt : Nat → UINT8) (n : Nat) (ht : Terminated fmt n) (he : EndsBetween fmt n) :
    (∀ call : PrintCall, call.fmt = fmt → ArgsAgree call n) ↔ Matching fmt n ∧ FitsCounter fmt n := by
  constructor
  · intro h
    have hagree (k : Nat) (hk : position fmt k ≤ n) : countedBefore fmt k % 256 = takenBefore fmt k := by
      obtain ⟨p, hp⟩ := printed_zeroCall fmt k
      have harg : p.arg = takenBefore fmt k := (printed_at hp).arg
      rw [← scanned_num_args, ← harg]
      exact (h (zeroCall fmt) rfl).atBoundary 2099 k p hk hp
    -- one more counted than taken, or the other way, shows at the next boundary
    have hstep (k : Nat) (hk : position fmt k ≤ n) :
        countedBefore fmt k ≤ 255 ∧ countedBefore fmt k = takenBefore fmt k := by
      induction k with
      | zero => exact ⟨Nat.zero_le _, rfl⟩
      | succ k ih =>
        have hlt : position fmt k < n := Nat.lt_of_lt_of_le (position_strictMono fmt (Nat.lt_succ_self k)) hk
        obtain ⟨hle, heq⟩ := ih (Nat.le_of_lt hlt)
        have hnext := hagree (k + 1) hk
        rw [countedBefore_succ, takenBefore_succ] at hnext ⊢
        have hone (b : Bool) : (if b then 1 else 0 : Nat) ≤ 1 := by cases b <;> decide
        have hs := hone (scanCounts fmt (position fmt k))
        have hp := hone (printTakes fmt (position fmt k))
        omega
    refine ⟨fun k hk => ?_, fun k hk => (hstep k hk).1⟩
    by_cases hnext : position fmt (k + 1) ≤ n
    · have h1 := (hstep k (Nat.le_of_lt hk)).2
      have h2 := (hstep (k + 1) hnext).2
      rw [countedBefore_succ, takenBefore_succ, h1] at h2
      cases hs : scanCounts fmt (position fmt k) <;> cases hp : printTakes fmt (position fmt k) <;>
        simp [hs, hp] at h2 ⊢
    · -- the format would end inside this conversion
      obtain ⟨K, hK⟩ := he
      have hkK : k < K := (position_strictMono fmt).lt_iff_lt.mp (hK ▸ hk)
      exact absurd (hK ▸ (position_strictMono fmt).monotone hkK) hnext
  · rintro ⟨hmatch, hfits⟩ call rfl
    exact argsAgree_of_matching ht he hmatch hfits

theorem passes_agree_percent_d : ArgsAgree (callOf ['%', 'd', '%', 'l', 'u'] 7) 5 :=
  (passes_agree_iff (formatOf ['%', 'd', '%', 'l', 'u']) 5 (by decide) (by decide)).mpr
    ⟨by decide, by decide⟩ (callOf ['%', 'd', '%', 'l', 'u'] 7) rfl

/-- `%s` is counted and not printed. -/
theorem percent_s_disagrees : ¬ ArgsAgree (callOf ['%', 's', '%', 'd'] 7) 4 := fun h =>
  absurd (h.atBoundary 0 1 _ (by decide) rfl) (by decide)

/-! ## The end of the format -/

/-- Neither pass reads past the NUL at `n`, and both end. -/
def Stops (call : PrintCall) (n : Nat) : Prop :=
  (∃ fuel s, scanLoop call.fmt fuel {} = some s ∧ ∀ r ∈ s.reads, r ≤ n) ∧
    ∃ fuel p, printLoop call fuel {} = some p ∧ ∀ r ∈ p.reads, r ≤ n

/-- **`PrintString` stops at the end of its format** exactly when that is not
inside a conversion and no infinite floating-point argument is printed. -/
theorem PrintString_stops_iff (call : PrintCall) (n : Nat) (ht : Terminated call.fmt n) :
    Stops call n ↔ EndsBetween call.fmt n ∧ FiniteArgs call n := by
  rw [Stops, scanLoop_safe_iff ht, printLoop_safe_iff ht]
  exact ⟨fun h => h.2, fun h => ⟨h.1, h⟩⟩

/-- 1.0 is `0x3FF0000000000000`. -/
theorem PrintString_stops_float : Stops (callOf ['5', '0', '%', '%', ' ', '%', 'f'] 0x3FF0000000000000) 7 :=
  (PrintString_stops_iff (callOf ['5', '0', '%', '%', ' ', '%', 'f'] 0x3FF0000000000000) 7 (by decide)).mpr
    ⟨by decide, by decide +kernel⟩

/-- A lone `%` takes both passes past the NUL. -/
theorem percent_runs_past_nul : ¬ Stops (callOf ['5', '0', '%'] 0) 3 := by
  rintro ⟨hscan, -⟩
  exact absurd ((scanLoop_safe_iff (by decide)).mp hscan) (by decide)

end

end PiousOS.Kernel
