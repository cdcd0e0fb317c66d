import Mathlib.Data.List.Basic

/-!
# Codes for sequences of tokens

Each token is written as a nonempty sequence of symbols from which a reader
can split it off without looking at what follows. Written one after the other,
tokens can then be read back: `decodeAll` and `encodeAll` are inverse to each
other (`decodeAll_eq_some_iff`).
-/
namespace PiousOS

structure TokenCode (τ α : Type) where
  encode : τ → List α
  next : List α → Option (τ × List α)
  encode_ne_nil : ∀ x, encode x ≠ []
  next_encode : ∀ x rest, next (encode x ++ rest) = some (x, rest)
  encode_of_next : ∀ {l x rest}, next l = some (x, rest) → l = encode x ++ rest

namespace TokenCode
variable {τ α : Type} (c : TokenCode τ α)

def encodeAll (xs : List τ) : List α := xs.flatMap c.encode

@[simp] theorem encodeAll_nil : c.encodeAll [] = [] := rfl

@[simp] theorem encodeAll_cons (x : τ) (xs : List τ) :
    c.encodeAll (x :: xs) = c.encode x ++ c.encodeAll xs := rfl

/-- Tokens are split off while there are symbols, at most `fuel` of them. -/
def decodeFuel : Nat → List α → Option (List τ)
  | _, [] => some []
  | 0, _ => none
  | fuel + 1, l => (c.next l).bind fun r => (decodeFuel fuel r.2).map (r.1 :: ·)

/-- There are no more tokens than symbols. -/
def decodeAll (l : List α) : Option (List τ) := c.decodeFuel l.length l

variable {c}

theorem decodeFuel_encodeAll {fuel : Nat} {xs : List τ} (h : (c.encodeAll xs).length ≤ fuel) :
    c.decodeFuel fuel (c.encodeAll xs) = some xs := by
  induction xs generalizing fuel with
  | nil => cases fuel <;> rfl
  | cons x xs ih =>
    have hpos := List.length_pos_of_ne_nil (c.encode_ne_nil x)
    rw [encodeAll_cons] at h ⊢
    rw [List.length_append] at h
    obtain ⟨fuel, rfl⟩ : ∃ k, fuel = k + 1 := ⟨fuel - 1, by omega⟩
    rw [decodeFuel, c.next_encode, Option.bind_some, ih (by omega), Option.map_some]
    exact fun hnil => c.encode_ne_nil x (List.append_eq_nil_iff.mp hnil).1

theorem encodeAll_of_decodeFuel {fuel : Nat} {l : List α} {xs : List τ}
    (h : c.decodeFuel fuel l = some xs) : c.encodeAll xs = l := by
  induction fuel generalizing l xs with
  | zero =>
    cases l with
    | nil =>
      cases h
      rfl
    | cons a l => cases h
  | succ fuel ih =>
    cases l with
    | nil =>
      cases h
      rfl
    | cons a l =>
      rw [decodeFuel] at h
      · obtain ⟨⟨x, rest⟩, hnext, hrest⟩ := Option.bind_eq_some_iff.mp h
        obtain ⟨ys, hys, rfl⟩ := Option.map_eq_some_iff.mp hrest
        rw [encodeAll_cons, ih hys]
        exact (c.encode_of_next hnext).symm
      · exact List.cons_ne_nil a l

/-- **What is read is what was written.** -/
theorem decodeAll_eq_some_iff {l : List α} {xs : List τ} :
    c.decodeAll l = some xs ↔ c.encodeAll xs = l := by
  refine ⟨encodeAll_of_decodeFuel, fun h => ?_⟩
  subst h
  exact decodeFuel_encodeAll (Nat.le_refl _)

theorem length_le_encodeAll (xs : List τ) : xs.length ≤ (c.encodeAll xs).length := by
  induction xs with
  | nil => exact Nat.le_refl 0
  | cons x xs ih =>
    have hpos := List.length_pos_of_ne_nil (c.encode_ne_nil x)
    rw [encodeAll_cons, List.length_append, List.length_cons]
    omega

end TokenCode

end PiousOS
