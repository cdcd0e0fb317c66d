import PiousOS.Core.RadixTree

/-!
# A radix tree as a map from paths to words

`wordAt` reads the entry at index `i` of the table at the end of a path, and
an empty word where there is no table. It determines the tree: one more index
is followed by decoding the word (`follow_snoc_wordAt`). Under an owned table

* `wordAt_store`: a store to a data entry changes that word and no other;
* `wordAt_foreign`: a store to a word of no table changes none;
* `wordAt_hang`: so does hanging a cleared fresh table under an empty entry.
-/
namespace PiousOS.RadixTree

variable {Addr Index Word : Type} (L : Layout Addr Index Word)

/-- The word at index `i` of the table at path `p`, `zero` if there is none. -/
def wordAt (mem : Addr → Word) (root : Addr) (zero : Word) (p : List Index) (i : Index) : Word :=
  match follow L mem root p with
  | some t => mem (L.slot t i)
  | none => zero

variable {L} {S W : Set (List Index)} {mem mem' : Addr → Word} {root : Addr} {zero : Word}

theorem wordAt_some {p : List Index} {t : Addr} (h : follow L mem root p = some t) (i : Index) :
    wordAt L mem root zero p i = mem (L.slot t i) := by
  simp only [wordAt, h]

theorem wordAt_none {p : List Index} (h : follow L mem root p = none) (i : Index) :
    wordAt L mem root zero p i = zero := by
  simp only [wordAt, h]

/-- One more index: decode the word. -/
theorem follow_snoc_wordAt (hzero : L.decode zero = none) (p : List Index) (i : Index) :
    follow L mem root (p ++ [i]) = L.decode (wordAt L mem root zero p i) := by
  rw [follow_snoc]
  cases h : follow L mem root p with
  | some t => rw [wordAt_some h]; rfl
  | none => rw [wordAt_none h, hzero]; rfl

/-- Below a word that does not point on there is nothing. -/
theorem wordAt_below (hzero : L.decode zero = none) {p : List Index} {i : Index}
    (h : L.decode (wordAt L mem root zero p i) = none) (j : Index) :
    wordAt L mem root zero (p ++ [i]) j = zero := by
  apply wordAt_none
  rw [follow_snoc_wordAt hzero, h]

/-- A store to an entry of an owned table that leads nowhere on `S`. -/
theorem wordAt_store [DecidableEq Addr] [DecidableEq Index] (hS : PrefixClosed S)
    (O : Owns L S W mem root) {q : List Index} {u : Addr} {j : Index} (w : Word) (hq : q ∈ W)
    (hu : follow L mem root q = some u) (hj : q ++ [j] ∉ S) {p : List Index} (hp : p ∈ S) (i : Index) :
    wordAt L (Function.update mem (L.slot u j) w) root zero p i =
      if p = q ∧ i = j then w else wordAt L mem root zero p i := by
  have hsame := O.follow_update hS w hq hu hj p hp
  cases ht : follow L mem root p with
  | none =>
    rw [wordAt_none (hsame.trans ht), wordAt_none ht, if_neg]
    rintro ⟨rfl, -⟩
    rw [hu] at ht
    cases ht
  | some t =>
    rw [wordAt_some (hsame.trans ht), wordAt_some ht]
    by_cases hpj : p = q ∧ i = j
    · obtain ⟨rfl, rfl⟩ := hpj
      rw [Option.some.inj (ht.symm.trans hu), Function.update_self, if_pos ⟨rfl, rfl⟩]
    · rw [if_neg hpj, Function.update_of_ne]
      exact fun he => hpj (O.slot_path hp hq ht hu he)

/-- A store to a word of no table. -/
theorem wordAt_foreign [DecidableEq Addr] (hS : PrefixClosed S) {a : Addr} (w : Word)
    (ha : ∀ p ∈ S, ∀ t i, follow L mem root p = some t → L.slot t i ≠ a) {p : List Index} (hp : p ∈ S)
    (i : Index) : wordAt L (Function.update mem a w) root zero p i = wordAt L mem root zero p i := by
  have hsame := follow_update_foreign hS w ha p hp
  cases ht : follow L mem root p with
  | none => rw [wordAt_none (hsame.trans ht), wordAt_none ht]
  | some t =>
    rw [wordAt_some (hsame.trans ht), wordAt_some ht, Function.update_of_ne (ha p hp t i ht)]

/-- A table hung under an empty entry of an owned table, its own entries
empty. -/
theorem wordAt_hang [DecidableEq Index] (hS : PrefixClosed S) (O : Owns L S W mem root)
    {q : List Index} {j : Index} {u f : Addr} (hq : q ∈ W) (K : Link L S mem mem' root q j u f)
    (hclear : ∀ i, mem' (L.slot f i) = zero) {p : List Index} (hp : p ∈ S) (i : Index) :
    wordAt L mem' root zero p i =
      if p = q ∧ i = j then mem' (L.slot u j) else wordAt L mem root zero p i := by
  have htable := O.follow_link hS hq K p hp
  by_cases hpq : p = q ++ [j]
  · rw [if_pos hpq] at htable
    rw [wordAt_some htable, hclear, if_neg, wordAt_none (hpq ▸ K.before)]
    rintro ⟨rfl, -⟩
    simp at hpq
  · rw [if_neg hpq] at htable
    cases ht : follow L mem root p with
    | none =>
      rw [wordAt_none (htable.trans ht), wordAt_none ht, if_neg]
      rintro ⟨rfl, -⟩
      rw [K.path] at ht
      cases ht
    | some t =>
      rw [wordAt_some (htable.trans ht), wordAt_some ht]
      by_cases hs : L.slot t i = L.slot u j
      · rw [if_pos (O.slot_path hp hq ht K.path hs), hs]
      · rw [if_neg, K.same p hp t i ht hs]
        rintro ⟨rfl, rfl⟩
        exact hs (by rw [Option.some.inj (ht.symm.trans K.path)])

end PiousOS.RadixTree
