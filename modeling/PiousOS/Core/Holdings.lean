import Mathlib.Data.List.Basic

/-!
# What a program holds

Resources that a program takes and gives back: those it has, in the order in
which it took them, and those it gave back without having them. A program
that never does the latter leaves `⟨held, []⟩`.
-/
namespace PiousOS

structure Holdings (ρ : Type) where
  held : List ρ
  wild : List ρ
  deriving DecidableEq, Repr

namespace Holdings
variable {ρ : Type}

def empty : Holdings ρ := ⟨[], []⟩

def take (h : Holdings ρ) (r : ρ) : Holdings ρ := { h with held := h.held ++ [r] }

def give [DecidableEq ρ] (h : Holdings ρ) (r : ρ) : Holdings ρ :=
  if r ∈ h.held then { h with held := h.held.erase r } else { h with wild := h.wild ++ [r] }

section
variable [DecidableEq ρ] {l l' wild : List ρ} {r : ρ}

/-- One of several that are held is given back. -/
theorem give_held (h : r ∉ l) : (⟨l ++ r :: l', wild⟩ : Holdings ρ).give r = ⟨l ++ l', wild⟩ := by
  have hmem : r ∈ l ++ r :: l' := List.mem_append_right l List.mem_cons_self
  rw [give, if_pos hmem]
  show Holdings.mk ((l ++ r :: l').erase r) wild = _
  rw [List.erase_append_right _ h, List.erase_cons_head]

/-- Taken and given back. -/
theorem give_take : ((⟨[], wild⟩ : Holdings ρ).take r).give r = ⟨[], wild⟩ :=
  give_held List.not_mem_nil

end

end Holdings

end PiousOS
