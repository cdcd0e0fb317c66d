import Mathlib.Data.List.Basic

/-!
# Terminated sequences

A sequence in an array of any type that ends at its first terminator. What
lies behind the terminator is not part of it.

* `agree_iff`: two arrays that agree up to and including the terminator of
  the shorter sequence hold the same sequence. A sequence is no proper prefix
  of another one once the terminators are counted.
-/
namespace PiousOS.Terminated

variable {α : Type} {t : α} {f f' : Nat → α} {l l' : List α}

/-- The array `f` holds `l` and then its first terminator. -/
structure Holds (t : α) (f : Nat → α) (l : List α) : Prop where
  elems : ∀ i (hi : i < l.length), f i = l[i]
  stop : f l.length = t
  clean : t ∉ l

instance [DecidableEq α] : Decidable (Holds t f l) :=
  decidable_of_iff ((∀ i (hi : i < l.length), f i = l[i]) ∧ f l.length = t ∧ t ∉ l)
    ⟨fun h => ⟨h.1, h.2.1, h.2.2⟩, fun h => ⟨h.elems, h.stop, h.clean⟩⟩

/-- Before the end there is no terminator. -/
theorem Holds.ne (h : Holds t f l) {i : Nat} (hi : i < l.length) : f i ≠ t := by
  intro heq
  rw [h.elems i hi] at heq
  exact h.clean (heq ▸ List.getElem_mem hi)

/-- The terminator of one is not met before that of the other. -/
theorem Holds.length_le (h : Holds t f l) (h' : Holds t f' l')
    (hagree : ∀ i < min l.length l'.length + 1, f i = f' i) : l.length ≤ l'.length := by
  by_contra hlt
  have hend := hagree l'.length (by omega)
  rw [h'.stop] at hend
  exact h.ne (Nat.lt_of_not_le hlt) hend

theorem agree_iff (h : Holds t f l) (h' : Holds t f' l') :
    (∀ i < min l.length l'.length + 1, f i = f' i) ↔ l = l' := by
  constructor
  · intro hagree
    have hle := h.length_le h' hagree
    have hge := h'.length_le h fun i hi => (hagree i (by omega)).symm
    apply List.ext_getElem (Nat.le_antisymm hle hge)
    intro i hi hi'
    rw [← h.elems i hi, ← h'.elems i hi']
    exact hagree i (by omega)
  · intro heq i hi
    subst heq
    rw [Nat.min_self] at hi
    by_cases hlt : i < l.length
    · rw [h.elems i hlt, h'.elems i hlt]
    · have hlast : i = l.length := by omega
      rw [hlast, h.stop, h'.stop]

end PiousOS.Terminated
