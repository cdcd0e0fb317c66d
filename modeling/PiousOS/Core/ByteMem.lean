import PiousOS.Core.CInt

/-!
# Byte memory

Memory as a function from 64-bit addresses to bytes. `fill` is the one store:
an object of `n` bytes at `a`, given byte by byte; C stores of 1 to 8 bytes
(`store`, little-endian), `ZeroMem` and block reads are instances. Regions
are compared modulo 2^64 (`Apart`), so no result needs a region not to wrap.

* `load_store_same`, `load_store_apart`: a load sees the last store to its
  bytes and no other;
* `apart_of_offsets`: fields of one object are apart when their offsets are;
* `loadField_storeField_same`, `loadField_storeField_ne`: the fields of a
  packed struct, laid out one after the other, are independent;
* `loadField_storeFields`: after any stores to fields of one struct, each
  field holds the last value it was given.
-/
namespace PiousOS

abbrev ByteMem := UINT64 → UINT8

namespace ByteMem

/-- The bytes `f 0`, …, `f (n - 1)` at `a`. -/
def fill (mem : ByteMem) (a : UINT64) (n : Nat) (f : Nat → UINT8) : ByteMem :=
  fun x => if (x - a).toNat < n then f (x - a).toNat else mem x

/-- The `n` bytes at `a` as a little-endian number. -/
def load (mem : ByteMem) (a : UINT64) : Nat → Nat
  | 0 => 0
  | n + 1 => load mem a n + (mem (a + BitVec.ofNat 64 n)).toNat * 256 ^ n

/-- The low `n` bytes of `v` at `a`, little-endian. -/
def store (mem : ByteMem) (a : UINT64) (n v : Nat) : ByteMem :=
  fill mem a n fun i => BitVec.ofNat 8 (v / 256 ^ i)

def load64 (mem : ByteMem) (a : UINT64) : UINT64 := BitVec.ofNat 64 (load mem a 8)
def store64 (mem : ByteMem) (a : UINT64) (v : UINT64) : ByteMem := store mem a 8 v.toNat

/-- `n` bytes at `a` and `k` bytes at `b` have no byte in common. -/
def Apart (a : UINT64) (n : Nat) (b : UINT64) (k : Nat) : Prop :=
  ∀ x : UINT64, (x - a).toNat < n → ¬ (x - b).toNat < k

theorem Apart.symm {a b : UINT64} {n k : Nat} (h : Apart a n b k) : Apart b k a n :=
  fun x hx hy => h x hy hx

/-- Parts of regions that are apart are apart. -/
theorem Apart.mono {a b a' b' : UINT64} {n k n' k' : Nat} (h : Apart a n b k)
    (ha : ∀ x : UINT64, (x - a').toNat < n' → (x - a).toNat < n)
    (hb : ∀ x : UINT64, (x - b').toNat < k' → (x - b).toNat < k) : Apart a' n' b' k' :=
  fun x hx hy => h x (ha x hx) (hb x hy)

/-- A field of an object lies in the object. -/
theorem field_subset {a x : UINT64} {o n size : Nat} (ho : o + n ≤ size) (hs : size ≤ 2 ^ 64)
    (h : (x - (a + BitVec.ofNat 64 o)).toNat < n) : (x - a).toNat < size := by
  have := x.isLt
  have := a.isLt
  simp only [BitVec.toNat_sub, BitVec.toNat_add, BitVec.toNat_ofNat] at h ⊢
  omega

/-- Fields of one object at disjoint offsets. -/
theorem apart_of_offsets {a : UINT64} {o n o' n' : Nat} (h : o + n ≤ o' ∨ o' + n' ≤ o)
    (ho : o + n ≤ 2 ^ 64) (ho' : o' + n' ≤ 2 ^ 64) :
    Apart (a + BitVec.ofNat 64 o) n (a + BitVec.ofNat 64 o') n' := by
  intro x hx hy
  have := x.isLt
  have := a.isLt
  simp only [BitVec.toNat_sub, BitVec.toNat_add, BitVec.toNat_ofNat] at hx hy
  omega

/-- Objects at disjoint address ranges. -/
theorem apart_of_ranges {a b : UINT64} {n k : Nat}
    (h : a.toNat + n ≤ b.toNat ∨ b.toNat + k ≤ a.toNat) (ha : a.toNat + n ≤ 2 ^ 64)
    (hb : b.toNat + k ≤ 2 ^ 64) : Apart a n b k := by
  intro x hx hy
  have := x.isLt
  simp only [BitVec.toNat_sub] at hx hy
  omega

theorem add_ofNat_sub (a : UINT64) {i : Nat} (h : i < 2 ^ 64) :
    (a + BitVec.ofNat 64 i - a).toNat = i := by
  have := a.isLt
  simp only [BitVec.toNat_sub, BitVec.toNat_add, BitVec.toNat_ofNat]
  omega

section
variable {mem mem' : ByteMem} {a b x : UINT64} {n k : Nat} {f : Nat → UINT8}

theorem fill_inside (h : (x - a).toNat < n) : fill mem a n f x = f (x - a).toNat := if_pos h

theorem fill_outside (h : ¬ (x - a).toNat < n) : fill mem a n f x = mem x := if_neg h

/-- A load depends on its bytes only, wherever they are. -/
theorem load_congr_at (h : ∀ i < n, mem' (b + BitVec.ofNat 64 i) = mem (a + BitVec.ofNat 64 i)) :
    load mem' b n = load mem a n := by
  induction n with
  | zero => rfl
  | succ n ih =>
    rw [load, load, ih fun i hi => h i (Nat.lt_succ_of_lt hi), h n (Nat.lt_succ_self n)]

theorem load_congr (h : ∀ i < n, mem' (a + BitVec.ofNat 64 i) = mem (a + BitVec.ofNat 64 i)) :
    load mem' a n = load mem a n :=
  load_congr_at h

theorem load_lt (mem : ByteMem) (a : UINT64) (n : Nat) : load mem a n < 256 ^ n := by
  induction n with
  | zero => exact Nat.one_pos
  | succ n ih =>
    have hbyte := (mem (a + BitVec.ofNat 64 n)).isLt
    have hle := Nat.mul_le_mul_right (256 ^ n) (Nat.le_of_lt_succ hbyte)
    rw [load, Nat.pow_succ]
    omega

/-- Equal loads have equal bytes. -/
theorem load_injective (h : load mem' b n = load mem a n) :
    ∀ i < n, mem' (b + BitVec.ofNat 64 i) = mem (a + BitVec.ofNat 64 i) := by
  induction n with
  | zero => exact fun i hi => absurd hi (Nat.not_lt_zero i)
  | succ n ih =>
    have hlow := load_lt mem a n
    have hlow' := load_lt mem' b n
    have hpos : 0 < 256 ^ n := Nat.pow_pos (by decide)
    rw [load, load] at h
    have htop : (mem' (b + BitVec.ofNat 64 n)).toNat = (mem (a + BitVec.ofNat 64 n)).toNat := by
      have hdiv := congrArg (· / 256 ^ n) h
      simpa only [Nat.add_mul_div_right _ _ hpos, Nat.div_eq_of_lt hlow, Nat.div_eq_of_lt hlow',
        Nat.zero_add] using hdiv
    rw [htop] at h
    intro i hi
    by_cases hin : i < n
    · exact ih (Nat.add_right_cancel h) i hin
    · have hlast : i = n := by omega
      rw [hlast]
      exact BitVec.eq_of_toNat_eq htop

/-- A load in two parts. -/
theorem load_add (mem : ByteMem) (a : UINT64) (n k : Nat) :
    load mem a (n + k) = load mem a n + 256 ^ n * load mem (a + BitVec.ofNat 64 n) k := by
  induction k with
  | zero => rfl
  | succ k ih =>
    rw [← Nat.add_assoc, load, ih, load, Nat.mul_add, BitVec.add_assoc, ← BitVec.ofNat_add, Nat.pow_add]
    ac_rfl

/-- The bytes from `o` to `o + n` of a load. -/
theorem load_slice (mem : ByteMem) (a : UINT64) {o n size : Nat} (h : o + n ≤ size) :
    load mem (a + BitVec.ofNat 64 o) n = load mem a size / 256 ^ o % 256 ^ n := by
  obtain ⟨rest, rfl⟩ := Nat.exists_eq_add_of_le h
  have hpos : ∀ k, 0 < 256 ^ k := fun k => Nat.pow_pos (by decide)
  rw [Nat.add_assoc, load_add, Nat.add_mul_div_left _ _ (hpos o), Nat.div_eq_of_lt (load_lt mem a o),
    Nat.zero_add, load_add, Nat.add_mul_mod_self_left, Nat.mod_eq_of_lt (load_lt mem _ n)]

/-- Byte `i` of a load. -/
theorem load_byte (mem : ByteMem) (a : UINT64) {i size : Nat} (h : i < size) :
    BitVec.ofNat 8 (load mem a size / 256 ^ i) = mem (a + BitVec.ofNat 64 i) := by
  have hslice := load_slice mem a (n := 1) h
  have hz : a + BitVec.ofNat 64 i + BitVec.ofNat 64 0 = a + BitVec.ofNat 64 i := BitVec.add_zero _
  rw [load, load, Nat.pow_zero, Nat.mul_one, Nat.zero_add, hz] at hslice
  have hpow : (256 : Nat) ^ 1 = 2 ^ 8 := rfl
  apply BitVec.eq_of_toNat_eq
  rw [hslice, BitVec.toNat_ofNat, hpow]

/-- Unit `i` of an array of `w`-byte units. -/
def unitAt (mem : ByteMem) (w : Nat) (a : UINT64) (i : Nat) : Nat :=
  load mem (a + BitVec.ofNat 64 (w * i)) w

/-- Arrays agree byte by byte exactly if they agree unit by unit. -/
theorem bytes_agree_iff {w : Nat} :
    (∀ k < w * n, mem' (b + BitVec.ofNat 64 k) = mem (a + BitVec.ofNat 64 k)) ↔
      ∀ i < n, unitAt mem' w b i = unitAt mem w a i := by
  have hoff : ∀ (p : UINT64) i j, p + BitVec.ofNat 64 (w * i) + BitVec.ofNat 64 j =
      p + BitVec.ofNat 64 (w * i + j) := fun p i j => by rw [BitVec.add_assoc, ← BitVec.ofNat_add]
  constructor
  · intro h i hi
    refine load_congr_at fun j hj => ?_
    have hle : w * (i + 1) ≤ w * n := Nat.mul_le_mul_left w hi
    rw [Nat.mul_add, Nat.mul_one] at hle
    rw [hoff, hoff]
    exact h _ (by omega)
  · intro h k hk
    have hw : 0 < w := Nat.pos_of_mul_pos_right (Nat.lt_of_le_of_lt (Nat.zero_le k) hk)
    have hbyte := load_injective (h (k / w) (Nat.div_lt_of_lt_mul hk)) (k % w) (Nat.mod_lt k hw)
    rwa [hoff, hoff, Nat.div_add_mod] at hbyte

/-- Loading `n` bytes that are the digits of `v`. -/
theorem load_of_digits {v : Nat}
    (h : ∀ i < n, mem (a + BitVec.ofNat 64 i) = BitVec.ofNat 8 (v / 256 ^ i)) :
    load mem a n = v % 256 ^ n := by
  induction n with
  | zero => simp [load, Nat.mod_one]
  | succ n ih =>
    have hd : v % 256 ^ (n + 1) = v % 256 ^ n + 256 ^ n * (v / 256 ^ n % 256) := by
      rw [Nat.pow_succ, Nat.mod_mul]
    rw [load, ih fun i hi => h i (Nat.lt_succ_of_lt hi), h n (Nat.lt_succ_self n),
      BitVec.toNat_ofNat, hd, Nat.mul_comm]

theorem load_fill_apart (h : Apart b k a n) (hk : k ≤ 2 ^ 64) :
    load (fill mem a n f) b k = load mem b k :=
  load_congr fun i hi => fill_outside (h _ (by rw [add_ofNat_sub b (by omega)]; exact hi))

theorem load_store_apart {v : Nat} (h : Apart b k a n) (hk : k ≤ 2 ^ 64) :
    load (store mem a n v) b k = load mem b k :=
  load_fill_apart h hk

theorem load_store_same {v : Nat} (hn : n ≤ 2 ^ 64) : load (store mem a n v) a n = v % 256 ^ n :=
  load_of_digits fun i hi => by
    have hi' := add_ofNat_sub a (show i < 2 ^ 64 by omega)
    rw [store, fill_inside (by rw [hi']; exact hi), hi']

theorem store64_outside {v : UINT64} (h : ¬ (x - a).toNat < 8) : store64 mem a v x = mem x := by
  rw [store64, store, fill_outside h]

@[simp] theorem load64_store64 {v : UINT64} : load64 (store64 mem a v) a = v := by
  have hv : v.toNat % 256 ^ 8 = v.toNat := Nat.mod_eq_of_lt v.isLt
  rw [load64, store64, load_store_same (by omega), hv, BitVec.ofNat_toNat, BitVec.setWidth_eq]

/-- A word is its bytes. -/
theorem load64_toNat : (load64 mem a).toNat = load mem a 8 := by
  have hlt : load mem a 8 < 2 ^ 64 := load_lt mem a 8
  rw [load64, BitVec.toNat_ofNat, Nat.mod_eq_of_lt hlt]

/-- An array of words, stored one after the other. -/
def storeWords (mem : ByteMem) (a : UINT64) : List UINT64 → ByteMem
  | [] => mem
  | v :: vs => store64 (storeWords mem (a + 8#64) vs) a v

theorem load64_storeWords {vs : List UINT64} (hlen : 8 * vs.length ≤ 2 ^ 64) {i : Nat} (hi : i < vs.length) :
    load64 (storeWords mem a vs) (a + BitVec.ofNat 64 (8 * i)) = vs[i] := by
  induction vs generalizing a i with
  | nil => exact absurd hi (Nat.not_lt_zero i)
  | cons v vs ih =>
    rw [List.length_cons] at hlen hi
    cases i with
    | zero =>
      have hz : a + BitVec.ofNat 64 (8 * 0) = a := BitVec.add_zero a
      rw [hz]
      exact load64_store64
    | succ i =>
      have hnext : a + BitVec.ofNat 64 (8 * (i + 1)) = a + 8#64 + BitVec.ofNat 64 (8 * i) := by
        rw [BitVec.add_assoc, ← BitVec.ofNat_add, Nat.mul_add, Nat.add_comm]
      have hapart : Apart (a + BitVec.ofNat 64 (8 * (i + 1))) 8 (a + BitVec.ofNat 64 0) 8 :=
        apart_of_offsets (by omega) (by omega) (by omega)
      have hz : a + BitVec.ofNat 64 0 = a := BitVec.add_zero a
      rw [hz] at hapart
      rw [storeWords, load64, store64, load_store_apart hapart (by decide), hnext, ← load64,
        ih (by omega) (by omega), List.getElem_cons_succ]

end

/-! ## Packed structs -/

section Packed
variable {F : Type} [DecidableEq F]

/-- `offsetof` in a packed struct: the fields before `f` in declaration order. -/
def offsetOf : List (F × Nat) → F → Nat
  | [], _ => 0
  | (g, size) :: fields, f => if g = f then 0 else size + offsetOf fields f

def fieldSize : List (F × Nat) → F → Nat
  | [], _ => 0
  | (g, size) :: fields, f => if g = f then size else fieldSize fields f

/-- `sizeof` of the struct. -/
def structSize (fields : List (F × Nat)) : Nat := (fields.map Prod.snd).sum

theorem offsetOf_add_le (fields : List (F × Nat)) (f : F) :
    offsetOf fields f + fieldSize fields f ≤ structSize fields := by
  induction fields with
  | nil => exact Nat.le_refl 0
  | cons e fields ih =>
    obtain ⟨g, size⟩ := e
    simp only [offsetOf, fieldSize, structSize, List.map_cons, List.sum_cons] at ih ⊢
    split
    · omega
    · omega

/-- Different fields do not overlap. -/
theorem offsetOf_disjoint (fields : List (F × Nat)) {f g : F} (h : f ≠ g) :
    offsetOf fields f + fieldSize fields f ≤ offsetOf fields g ∨
      offsetOf fields g + fieldSize fields g ≤ offsetOf fields f := by
  induction fields with
  | nil => exact .inl (Nat.le_refl 0)
  | cons e fields ih =>
    obtain ⟨k, size⟩ := e
    simp only [offsetOf, fieldSize]
    by_cases hf : k = f
    · rw [if_pos hf, if_pos hf, if_neg (fun hg => h (hf.symm.trans hg))]
      omega
    by_cases hg : k = g
    · rw [if_neg hf, if_neg hf, if_pos hg, if_pos hg]
      omega
    · rw [if_neg hf, if_neg hf, if_neg hg, if_neg hg]
      omega

def loadField (mem : ByteMem) (fields : List (F × Nat)) (a : UINT64) (f : F) : Nat :=
  load mem (a + BitVec.ofNat 64 (offsetOf fields f)) (fieldSize fields f)

def storeField (mem : ByteMem) (fields : List (F × Nat)) (a : UINT64) (f : F) (v : Nat) : ByteMem :=
  store mem (a + BitVec.ofNat 64 (offsetOf fields f)) (fieldSize fields f) v

variable {mem mem' : ByteMem} {fields : List (F × Nat)} {a b : UINT64} {f g : F} {v k : Nat}

/-- A field depends on the bytes of its struct only, wherever they are. -/
theorem loadField_congr_at
    (h : ∀ i < structSize fields, mem' (b + BitVec.ofNat 64 i) = mem (a + BitVec.ofNat 64 i)) :
    loadField mem' fields b f = loadField mem fields a f := by
  have hf := offsetOf_add_le fields f
  refine load_congr_at fun i hi => ?_
  rw [BitVec.add_assoc, BitVec.add_assoc, ← BitVec.ofNat_add]
  exact h _ (by omega)

theorem loadField_storeField_same (hs : structSize fields ≤ 2 ^ 64) :
    loadField (storeField mem fields a f v) fields a f = v % 256 ^ fieldSize fields f :=
  load_store_same (by have := offsetOf_add_le fields f; omega)

theorem loadField_storeField_ne (hs : structSize fields ≤ 2 ^ 64) (h : f ≠ g) :
    loadField (storeField mem fields a g v) fields a f = loadField mem fields a f := by
  have hf := offsetOf_add_le fields f
  have hg := offsetOf_add_le fields g
  exact load_store_apart (apart_of_offsets (offsetOf_disjoint fields h) (by omega) (by omega))
    (by omega)

/-- Stores to fields of one struct, in order. -/
def storeFields (mem : ByteMem) (fields : List (F × Nat)) (a : UINT64) (stores : List (F × Nat)) :
    ByteMem :=
  stores.foldl (fun mem st => storeField mem fields a st.1 st.2) mem

/-- Stores to fields stay in their struct. -/
theorem storeFields_outside {x : UINT64} (hs : structSize fields ≤ 2 ^ 64) (stores : List (F × Nat))
    (hx : ¬ (x - a).toNat < structSize fields) : storeFields mem fields a stores x = mem x := by
  induction stores generalizing mem with
  | nil => rfl
  | cons st stores ih =>
    have hst : ¬ (x - (a + BitVec.ofNat 64 (offsetOf fields st.1))).toNat < fieldSize fields st.1 :=
      fun hin => hx (field_subset (offsetOf_add_le fields st.1) hs hin)
    rw [storeFields, List.foldl_cons, ← storeFields, ih, storeField, store, fill_outside hst]

/-- The value the last store to `f` gives it. -/
def lastStored (f : F) : List (F × Nat) → Option Nat
  | [] => none
  | (g, v) :: stores => (lastStored f stores).or (if g = f then some v else none)

/-- A field holds the last value stored in it, whatever the other fields are
given. -/
theorem loadField_storeFields (hs : structSize fields ≤ 2 ^ 64) {stores : List (F × Nat)} :
    loadField (storeFields mem fields a stores) fields a f =
      match lastStored f stores with
      | some v => v % 256 ^ fieldSize fields f
      | none => loadField mem fields a f := by
  induction stores generalizing mem with
  | nil => rfl
  | cons st stores ih =>
    obtain ⟨g, v⟩ := st
    rw [storeFields, List.foldl_cons, ← storeFields, ih, lastStored]
    cases lastStored f stores with
    | some u => rfl
    | none =>
      by_cases hg : g = f
      · subst hg
        rw [if_pos rfl]
        exact loadField_storeField_same hs
      · rw [if_neg hg]
        exact loadField_storeField_ne hs fun h => hg h.symm

/-- An 8-byte field gives back the last word stored in it. -/
theorem loadField_storeFields_word (hs : structSize fields ≤ 2 ^ 64) (hf : fieldSize fields f = 8)
    {stores : List (F × Nat)} {u : UINT64} (hu : lastStored f stores = some u.toNat) :
    BitVec.ofNat 64 (loadField (storeFields mem fields a stores) fields a f) = u := by
  rw [loadField_storeFields hs, hu, hf]
  apply BitVec.eq_of_toNat_eq
  have := u.isLt
  rw [BitVec.toNat_ofNat]
  show u.toNat % 256 ^ 8 % 2 ^ 64 = u.toNat
  omega

/-- A store to a field changes nothing outside its struct. -/
theorem load_storeField_apart (hs : structSize fields ≤ 2 ^ 64)
    (h : Apart b k a (structSize fields)) (hk : k ≤ 2 ^ 64) :
    load (storeField mem fields a g v) b k = load mem b k :=
  load_store_apart (h.mono (fun _ hx => hx) fun _ hx => field_subset (offsetOf_add_le fields g) hs hx)
    hk

end Packed

end ByteMem

end PiousOS
