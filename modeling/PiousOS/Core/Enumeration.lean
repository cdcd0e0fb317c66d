import Mathlib.Order.Bounds.Basic
import Mathlib.Data.List.Nodup

/-!
# Going through an order with a next-function

A function that is asked again for what comes after its last answer, until it
answers `stop`, goes through a list of values (`visits`).

Results:
* `NextTarget.visits`: if every answer is the least target above the last,
  the values are the targets above the start, ascending, each once.
* `firstAbove_next`: the first element of a list above the last answer is the
  least of the list's records, the elements that exceed all before them.
* `forall_record_iff`: all elements of a list without repetitions are records
  exactly if it ascends.
-/
namespace PiousOS.Enumeration

variable {α : Type} [LinearOrder α]

/-- The answers of `f`, each asked for from the last one, until `stop`. -/
def visits (f : α → α) (stop : α) : ℕ → α → Option (List α)
  | 0, _ => none
  | n + 1, a => if f a = stop then some [] else (visits f stop n (f a)).map (f a :: ·)

/-- From a start in `D`, `f` answers the least target in `T` above it, `stop`
if there is none. -/
structure NextTarget (f : α → α) (stop : α) (D T : α → Prop) : Prop where
  stops : ∀ a, D a → f a = stop → ∀ b, T b → ¬ a < b
  least : ∀ a, D a → f a ≠ stop → IsLeast {b | T b ∧ a < b} (f a)
  stays : ∀ a, D a → f a ≠ stop → D (f a)

/-- The values are the targets above the start, ascending. `μ` bounds the
values still ahead. -/
theorem NextTarget.visits {f : α → α} {stop : α} {D T : α → Prop} (h : NextTarget f stop D T)
    {μ : α → ℕ} (hμ : ∀ a b, a < b → μ b < μ a) {n : ℕ} {a : α} (ha : D a) (hn : μ a < n) :
    ∃ l, visits f stop n a = some l ∧ l.Pairwise (· < ·) ∧ ∀ b, b ∈ l ↔ T b ∧ a < b := by
  induction n generalizing a with
  | zero => omega
  | succ n ih =>
    unfold Enumeration.visits
    by_cases hstop : f a = stop
    · refine ⟨[], by rw [if_pos hstop], List.Pairwise.nil, fun b => ⟨fun hb => ?_, fun hb => ?_⟩⟩
      · cases hb
      · exact absurd hb.2 (h.stops a ha hstop b hb.1)
    · obtain ⟨⟨htarget, hup⟩, hleast⟩ := h.least a ha hstop
      have hfuel : μ (f a) < n := by
        have := hμ a (f a) hup
        omega
      obtain ⟨l, hl, hasc, hmem⟩ := ih (h.stays a ha hstop) hfuel
      refine ⟨f a :: l, by rw [if_neg hstop, hl, Option.map_some], ?_, fun b => ?_⟩
      · exact List.pairwise_cons.mpr ⟨fun b hb => ((hmem b).mp hb).2, hasc⟩
      · rw [List.mem_cons, hmem]
        constructor
        · intro hb
          rcases hb with rfl | ⟨htb, hlt⟩
          · exact ⟨htarget, hup⟩
          · exact ⟨htb, lt_trans hup hlt⟩
        · intro hb
          rcases eq_or_lt_of_le (hleast hb) with heq | hlt
          · exact Or.inl heq.symm
          · exact Or.inr ⟨hb.1, hlt⟩

/-! ## The first element above -/

/-- An element of the list that exceeds all before it. -/
def Record (l : List α) (x : α) : Prop := ∃ pre post, l = pre ++ x :: post ∧ ∀ y ∈ pre, y < x

theorem Record.mem {l : List α} {x : α} (h : Record l x) : x ∈ l := by
  obtain ⟨pre, post, rfl, -⟩ := h
  simp

/-- The first element of the list above `a`, `stop` if there is none. -/
def firstAbove (l : List α) (stop a : α) : α := (l.find? (a < ·)).getD stop

/-- The first element above `a` is a record, and below any other record above
`a`. -/
theorem find?_above {l : List α} {a c : α} (h : l.find? (a < ·) = some c) :
    IsLeast {b | Record l b ∧ a < b} c := by
  obtain ⟨hac, pre, post, hl, hpre⟩ := List.find?_eq_some_iff_append.mp h
  have hup : a < c := by simpa using hac
  have hnot : ∀ y ∈ pre, y ≤ a := fun y hy => by simpa using hpre y hy
  refine ⟨⟨⟨pre, post, hl, fun y hy => lt_of_le_of_lt (hnot y hy) hup⟩, hup⟩, fun b hb => ?_⟩
  obtain ⟨⟨pre', post', hl', hbefore⟩, hab⟩ := hb
  -- `b` does not stand before `c`, so `c` is `b` or stands before it
  rw [hl] at hl'
  rcases List.append_eq_append_iff.mp hl' with ⟨mid, hmid, hrest⟩ | ⟨mid, hmid, hrest⟩
  · cases mid with
    | nil =>
      rw [List.nil_append, List.cons.injEq] at hrest
      exact le_of_eq hrest.1
    | cons m mid =>
      rw [List.cons_append, List.cons.injEq] at hrest
      refine le_of_lt (hbefore c ?_)
      rw [hmid, hrest.1]
      simp
  · cases mid with
    | nil =>
      rw [List.nil_append, List.cons.injEq] at hrest
      exact le_of_eq hrest.1.symm
    | cons m mid =>
      rw [List.cons_append, List.cons.injEq] at hrest
      have hmem : b ∈ pre := by
        rw [hmid, hrest.1]
        simp
      exact absurd hab (not_lt_of_ge (hnot b hmem))

/-- The search for the first element above goes through the records. -/
theorem firstAbove_next {l : List α} {stop : α} (htop : ∀ b, b ≤ stop) :
    NextTarget (firstAbove l stop) stop (fun _ => True) fun b => Record l b ∧ b ≠ stop := by
  refine ⟨fun a _ hstop b hb hab => ?_, fun a _ hne => ?_, fun _ _ _ => trivial⟩
  · obtain ⟨hrec, hbtop⟩ := hb
    cases hfind : l.find? (a < ·) with
    | none =>
      have := List.find?_eq_none.mp hfind b hrec.mem
      simp [hab] at this
    | some c =>
      rw [firstAbove, hfind, Option.getD_some] at hstop
      have hle := (find?_above hfind).2 ⟨hrec, hab⟩
      rw [hstop] at hle
      exact hbtop (le_antisymm (htop b) hle)
  · cases hfind : l.find? (a < ·) with
    | none =>
      rw [firstAbove, hfind] at hne
      exact absurd rfl hne
    | some c =>
      rw [firstAbove, hfind, Option.getD_some] at hne ⊢
      obtain ⟨⟨hrec, hup⟩, hleast⟩ := find?_above hfind
      exact ⟨⟨⟨hrec, hne⟩, hup⟩, fun b hb => hleast ⟨hb.1.1, hb.2⟩⟩

/-- Every element of an ascending list is a record, and without repetitions
only the ascending lists are such. -/
theorem forall_record_iff {l : List α} (hnodup : l.Nodup) :
    (∀ x ∈ l, Record l x) ↔ l.Pairwise (· < ·) := by
  constructor
  · intro h
    induction l with
    | nil => exact List.Pairwise.nil
    | cons x l ih =>
      obtain ⟨hx, hl⟩ := List.nodup_cons.mp hnodup
      -- a record of the tail stands behind `x`
      have hrecords : ∀ y ∈ l, x < y ∧ Record l y := by
        intro y hy
        obtain ⟨pre, post, heq, hbefore⟩ := h y (List.mem_cons_of_mem _ hy)
        cases pre with
        | nil =>
          rw [List.nil_append, List.cons.injEq] at heq
          rw [heq.1] at hx
          exact absurd hy hx
        | cons p pre =>
          rw [List.cons_append, List.cons.injEq] at heq
          rw [heq.1]
          exact ⟨hbefore p List.mem_cons_self,
            pre, post, heq.2, fun z hz => hbefore z (List.mem_cons_of_mem _ hz)⟩
      exact List.pairwise_cons.mpr ⟨fun y hy => (hrecords y hy).1, ih hl fun y hy => (hrecords y hy).2⟩
  · intro h x hx
    obtain ⟨pre, post, rfl⟩ := List.append_of_mem hx
    refine ⟨pre, post, rfl, fun y hy => ?_⟩
    exact (List.pairwise_append.mp h).2.2 y hy x List.mem_cons_self

end PiousOS.Enumeration
