import Mathlib.Logic.Function.Basic
import Mathlib.Data.List.Infix

/-!
# Radix trees stored in a word memory

A table is an array of words at some base address; a word is empty, a
pointer to a further table, or data. `Layout` fixes where entry `i` of a
table lies (`slot`) and which words are pointers (`decode`). `follow` walks
a path of indices from a root.

`Tree S` says that the paths in the prefix-closed set `S` reach pairwise
different tables, `Owns S W` only that those at the ends of the paths in `W`
are reached along no other path. Under it three kinds of store are local:

* `follow_update_data`: a store into an entry of a table that is not itself
  on a path of `S` (a leaf entry) moves no table;
* `follow_update_foreign`: so does a store to a word of no table at all;
* `follow_link`: hanging an empty fresh table under an empty entry adds
  exactly that one path.
-/
namespace PiousOS.RadixTree

/-- Where entries lie and which words point on. `isNode` delimits the
addresses a table may have; distinct tables share no entry. -/
structure Layout (Addr Index Word : Type) where
  slot : Addr → Index → Addr
  decode : Word → Option Addr
  isNode : Addr → Prop
  decode_isNode : ∀ {w t}, decode w = some t → isNode t
  slot_inj : ∀ {t u i j}, isNode t → isNode u → slot t i = slot u j → t = u ∧ i = j

variable {Addr Index Word : Type} (L : Layout Addr Index Word)

/-- The table reached from `t` along a path, if every entry on it points on. -/
def follow (mem : Addr → Word) : Addr → List Index → Option Addr
  | t, [] => some t
  | t, i :: p => (L.decode (mem (L.slot t i))).bind fun u => follow mem u p

theorem follow_append (mem : Addr → Word) (t : Addr) (p q : List Index) :
    follow L mem t (p ++ q) = (follow L mem t p).bind fun u => follow L mem u q := by
  induction p generalizing t with
  | nil => rfl
  | cons i p ih =>
    simp only [List.cons_append, follow]
    cases L.decode (mem (L.slot t i)) with
    | none => rfl
    | some u => exact ih u

theorem follow_snoc (mem : Addr → Word) (t : Addr) (p : List Index) (i : Index) :
    follow L mem t (p ++ [i]) =
      (follow L mem t p).bind fun u => L.decode (mem (L.slot u i)) := by
  rw [follow_append]
  congr 1; funext u
  cases h : L.decode (mem (L.slot u i)) <;> simp [follow, h]

theorem follow_isNode {mem : Addr → Word} {t u : Addr} {p : List Index} (ht : L.isNode t)
    (h : follow L mem t p = some u) : L.isNode u := by
  induction p using List.reverseRecOn with
  | nil => cases h; exact ht
  | append_singleton p i _ =>
    rw [follow_snoc, Option.bind_eq_some_iff] at h
    obtain ⟨v, -, hv⟩ := h
    exact L.decode_isNode hv

/-- With a path, all its prefixes exist. -/
theorem follow_prefix_isSome {mem : Addr → Word} {t u : Addr} {p q : List Index} (hpq : p <+: q)
    (h : follow L mem t q = some u) : (follow L mem t p).isSome := by
  obtain ⟨r, rfl⟩ := hpq
  rw [follow_append, Option.bind_eq_some_iff] at h
  obtain ⟨v, hv, -⟩ := h
  rw [hv]; rfl

/-- Paths of interest: with a path, all its prefixes. -/
def PrefixClosed (S : Set (List Index)) : Prop := ∀ p i, p ++ [i] ∈ S → p ∈ S

/-- The paths in `S` that exist reach pairwise different tables. -/
structure Tree (S : Set (List Index)) (mem : Addr → Word) (root : Addr) : Prop where
  root_isNode : L.isNode root
  inj : ∀ {p q t}, p ∈ S → q ∈ S → follow L mem root p = some t →
    follow L mem root q = some t → p = q

variable {L} {S W : Set (List Index)} {mem mem' : Addr → Word} {root : Addr}

/-- The tables at the ends of the paths in `W` are reached along no other
path of `S`; elsewhere tables may be shared. -/
structure Owns (L : Layout Addr Index Word) (S W : Set (List Index)) (mem : Addr → Word) (root : Addr) :
    Prop where
  root_isNode : L.isNode root
  inj : ∀ {p q t}, p ∈ S → q ∈ W → follow L mem root p = some t →
    follow L mem root q = some t → p = q

theorem Tree.owns (T : Tree L S mem root) : Owns L S S mem root := ⟨T.root_isNode, T.inj⟩

/-- Owning is asked of each table alone. -/
theorem Owns.mono {W' : Set (List Index)} (hW : W' ⊆ W) (O : Owns L S W mem root) :
    Owns L S W' mem root where
  root_isNode := O.root_isNode
  inj hp hq := O.inj hp (hW hq)

/-- An entry of an owned table is no other table's. -/
theorem Owns.slot_path (O : Owns L S W mem root) {p q : List Index} {t u : Addr} {i j : Index}
    (hp : p ∈ S) (hq : q ∈ W) (ht : follow L mem root p = some t)
    (hu : follow L mem root q = some u) (h : L.slot t i = L.slot u j) : p = q ∧ i = j := by
  obtain ⟨rfl, rfl⟩ := L.slot_inj (follow_isNode L O.root_isNode ht)
    (follow_isNode L O.root_isNode hu) h
  exact ⟨O.inj hp hq ht hu, rfl⟩

/-- An entry belongs to one table on `S` only, at one index. -/
theorem Tree.slot_path (T : Tree L S mem root) {p q : List Index} {t u : Addr} {i j : Index}
    (hp : p ∈ S) (hq : q ∈ S) (ht : follow L mem root p = some t)
    (hu : follow L mem root q = some u) (h : L.slot t i = L.slot u j) : p = q ∧ i = j :=
  T.owns.slot_path hp hq ht hu h

/-- The walk along paths of `S` only reads how the entries on `S` decode. -/
theorem follow_congr (hS : PrefixClosed S)
    (h : ∀ p i t, p ++ [i] ∈ S → follow L mem root p = some t →
      L.decode (mem' (L.slot t i)) = L.decode (mem (L.slot t i))) :
    ∀ p ∈ S, follow L mem' root p = follow L mem root p := by
  intro p
  induction p using List.reverseRecOn with
  | nil => intro _; rfl
  | append_singleton p i ih =>
    intro hp
    rw [follow_snoc, follow_snoc, ih (hS p i hp)]
    cases ht : follow L mem root p with
    | none => rfl
    | some t => exact h p i t hp ht

/-- If `S` sees the same tables, the same ones are owned. -/
theorem Owns.congr (hW : W ⊆ S) (O : Owns L S W mem root)
    (h : ∀ p ∈ S, follow L mem' root p = follow L mem root p) : Owns L S W mem' root where
  root_isNode := O.root_isNode
  inj hp hq ht hu := O.inj hp hq (by rwa [← h _ hp]) (by rwa [← h _ (hW hq)])

/-- If `S` sees the same tables, it still sees a tree. -/
theorem Tree.congr (T : Tree L S mem root)
    (h : ∀ p ∈ S, follow L mem' root p = follow L mem root p) : Tree L S mem' root :=
  have O := T.owns.congr (fun _ hp => hp) h
  ⟨O.root_isNode, O.inj⟩

section Stores
variable [DecidableEq Addr]

/-- A store into an entry of an owned table that leads nowhere on `S`. -/
theorem Owns.follow_update (hS : PrefixClosed S) (O : Owns L S W mem root) {q : List Index}
    {u : Addr} {j : Index} (w : Word) (hq : q ∈ W) (hu : follow L mem root q = some u)
    (hj : q ++ [j] ∉ S) :
    ∀ p ∈ S, follow L (Function.update mem (L.slot u j) w) root p = follow L mem root p := by
  apply follow_congr hS
  intro p i t hp ht
  rw [Function.update_of_ne]
  intro he
  obtain ⟨rfl, rfl⟩ := O.slot_path (hS p i hp) hq ht hu he
  exact hj hp

/-- A store into an entry of a table on `S` that leads nowhere on `S`. -/
theorem follow_update_data (hS : PrefixClosed S) (T : Tree L S mem root) {q : List Index}
    {u : Addr} {j : Index} (w : Word) (hq : q ∈ S) (hu : follow L mem root q = some u)
    (hj : q ++ [j] ∉ S) :
    ∀ p ∈ S, follow L (Function.update mem (L.slot u j) w) root p = follow L mem root p :=
  T.owns.follow_update hS w hq hu hj

/-- A store to a word that is an entry of no table on `S`. -/
theorem follow_update_foreign (hS : PrefixClosed S) {a : Addr} (w : Word)
    (ha : ∀ p ∈ S, ∀ t i, follow L mem root p = some t → L.slot t i ≠ a) :
    ∀ p ∈ S, follow L (Function.update mem a w) root p = follow L mem root p := by
  apply follow_congr hS
  intro p i t hp ht
  rw [Function.update_of_ne (ha p (hS p i hp) t i ht)]

end Stores

/-- Hanging the empty table `f` under the empty entry `j` of table `u`. -/
structure Link (L : Layout Addr Index Word) (S : Set (List Index)) (mem mem' : Addr → Word)
    (root : Addr) (q : List Index) (j : Index) (u f : Addr) : Prop where
  path : follow L mem root q = some u
  empty : L.decode (mem (L.slot u j)) = none
  fresh : ∀ p ∈ S, follow L mem root p ≠ some f
  linked : L.decode (mem' (L.slot u j)) = some f
  blank : ∀ i, L.decode (mem' (L.slot f i)) = none
  same : ∀ p ∈ S, ∀ t i, follow L mem root p = some t → L.slot t i ≠ L.slot u j →
    mem' (L.slot t i) = mem (L.slot t i)

section Link
variable [DecidableEq Index] {q : List Index} {j : Index} {u f : Addr}

omit [DecidableEq Index] in
theorem Link.before (K : Link L S mem mem' root q j u f) : follow L mem root (q ++ [j]) = none := by
  rw [follow_snoc, K.path, Option.bind_some, K.empty]

/-- Linking under an owned table adds the one path `q ++ [j]`. -/
theorem Owns.follow_link (hS : PrefixClosed S) (O : Owns L S W mem root) (hq : q ∈ W)
    (K : Link L S mem mem' root q j u f) :
    ∀ p ∈ S, follow L mem' root p = if p = q ++ [j] then some f else follow L mem root p := by
  intro p
  induction p using List.reverseRecOn with
  | nil => intro _; rw [if_neg (by simp)]; rfl
  | append_singleton p i ih =>
    intro hp
    have hpS := hS p i hp
    rw [follow_snoc, ih hpS]
    by_cases hpq : p = q ++ [j]
    · -- below the new table there is nothing, before or after
      subst hpq
      rw [if_pos rfl, if_neg (by simp), Option.bind_some, K.blank, follow_snoc, K.before,
        Option.bind_none]
    · rw [if_neg hpq, follow_snoc]
      cases ht : follow L mem root p with
      | none =>
        rw [if_neg]
        · rfl
        · intro he
          have hpe : p = q := (List.append_inj' he rfl).1
          rw [hpe, K.path] at ht; cases ht
      | some t =>
        by_cases hs : L.slot t i = L.slot u j
        · obtain ⟨rfl, rfl⟩ := O.slot_path hpS hq ht K.path hs
          have htu : t = u := Option.some.inj (ht.symm.trans K.path)
          subst htu
          simpa using K.linked
        · rw [if_neg]
          · simp only [Option.bind_some]; rw [K.same p hpS t i ht hs]
          · intro he
            obtain ⟨hpe, hie⟩ := List.append_inj' he rfl
            simp only [List.cons.injEq, and_true] at hie
            subst hpe; subst hie
            exact hs (by rw [Option.some.inj (ht.symm.trans K.path)])

/-- Linking adds the one path `q ++ [j]`. -/
theorem follow_link (hS : PrefixClosed S) (T : Tree L S mem root) (hq : q ++ [j] ∈ S)
    (K : Link L S mem mem' root q j u f) :
    ∀ p ∈ S, follow L mem' root p = if p = q ++ [j] then some f else follow L mem root p :=
  T.owns.follow_link hS (hS q j hq) K

/-- The new table is owned, and what was owned still is. -/
theorem Owns.link (hS : PrefixClosed S) (hW : W ⊆ S) (O : Owns L S W mem root) (hq : q ∈ W)
    (K : Link L S mem mem' root q j u f) : Owns L S W mem' root where
  root_isNode := O.root_isNode
  inj {p p' t} hp hp' ht ht' := by
    rw [O.follow_link hS hq K p hp] at ht
    rw [O.follow_link hS hq K p' (hW hp')] at ht'
    by_cases h : p = q ++ [j] <;> by_cases h' : p' = q ++ [j]
    · rw [h, h']
    · rw [if_pos h] at ht; rw [if_neg h', ← ht] at ht'; exact absurd ht' (K.fresh p' (hW hp'))
    · rw [if_pos h'] at ht'; rw [if_neg h, ← ht'] at ht; exact absurd ht (K.fresh p hp)
    · rw [if_neg h] at ht; rw [if_neg h'] at ht'; exact O.inj hp hp' ht ht'

/-- A linked table keeps the tree a tree. -/
theorem Tree.link (hS : PrefixClosed S) (T : Tree L S mem root) (hq : q ++ [j] ∈ S)
    (K : Link L S mem mem' root q j u f) : Tree L S mem' root :=
  have O := T.owns.link hS (fun _ hp => hp) (hS q j hq) K
  ⟨O.root_isNode, O.inj⟩

end Link

end PiousOS.RadixTree
