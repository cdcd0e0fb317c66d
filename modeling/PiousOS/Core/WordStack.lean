import Mathlib.Data.List.Basic
import Mathlib.Data.List.Induction
import PiousOS.Core.ByteMem

/-!
# A stack of words

`pushWords mem sp vs` is memory after the words `vs` are pushed below `sp`,
first word first; the stack pointer is then `8 * vs.length` lower. A struct of
words (`words fs`) whose fields are pushed from the last to the first lies at
the final stack pointer with every field in place.

* `loadField_pushWords`: each field of the pushed struct has the word pushed
  for it.
-/
namespace PiousOS.ByteMem

/-- The words `vs` pushed below `sp`, in order. -/
def pushWords (mem : ByteMem) (sp : UINT64) : List UINT64 → ByteMem
  | [] => mem
  | v :: vs => pushWords (store64 mem (sp - 8#64) v) (sp - 8#64) vs

/-- The stack pointer below `n` more words. -/
def below (sp : UINT64) (n : Nat) : UINT64 := sp - BitVec.ofNat 64 (8 * n)

@[simp] theorem below_zero (sp : UINT64) : below sp 0 = sp := by simp [below]

theorem below_add (sp : UINT64) (n k : Nat) : below (below sp n) k = below sp (n + k) := by
  unfold below
  rw [BitVec.sub_sub, ← BitVec.ofNat_add, Nat.mul_add]

theorem below_add_ofNat (sp : UINT64) {n k : Nat} (h : k ≤ n) :
    below sp n + BitVec.ofNat 64 (8 * k) = below sp (n - k) := by
  have hn : 8 * n = 8 * (n - k) + 8 * k := by omega
  unfold below
  rw [hn, BitVec.ofNat_add, ← BitVec.sub_sub, BitVec.sub_add_cancel]

theorem pushWords_append (mem : ByteMem) (sp : UINT64) (vs ws : List UINT64) :
    pushWords mem sp (vs ++ ws) = pushWords (pushWords mem sp vs) (below sp vs.length) ws := by
  induction vs generalizing mem sp with
  | nil => rw [List.nil_append, List.length_nil, below_zero]; rfl
  | cons v vs ih =>
    have hb : sp - 8#64 = below sp 1 := rfl
    rw [List.cons_append, pushWords, ih, hb, below_add, List.length_cons, Nat.add_comm 1, pushWords, hb]

theorem pushWords_concat (mem : ByteMem) (sp : UINT64) (vs : List UINT64) (v : UINT64) :
    pushWords mem sp (vs ++ [v]) =
      store64 (pushWords mem sp vs) (below sp (vs.length + 1)) v := by
  have hb : below sp vs.length - 8#64 = below sp (vs.length + 1) := below_add sp vs.length 1
  rw [pushWords_append, pushWords, pushWords, hb]

/-! ## Structs of words -/

section Words
variable {F : Type}

/-- A packed struct of 8-byte fields. -/
def words (fs : List F) : List (F × Nat) := fs.map fun f => (f, 8)

/-- The words of a struct pushed from its last field to its first. -/
def pushOrder (fs : List F) (val : F → UINT64) : List UINT64 := fs.reverse.map val

@[simp] theorem length_pushOrder (fs : List F) (val : F → UINT64) :
    (pushOrder fs val).length = fs.length := by simp [pushOrder]

theorem pushOrder_cons (f : F) (fs : List F) (val : F → UINT64) :
    pushOrder (f :: fs) val = pushOrder fs val ++ [val f] := by simp [pushOrder]

variable [DecidableEq F]

theorem offsetOf_words (fs : List F) (f : F) : offsetOf (words fs) f = 8 * fs.idxOf f := by
  induction fs with
  | nil => rfl
  | cons g fs ih =>
    rw [words, List.map_cons, ← words, offsetOf, ih]
    by_cases h : g = f
    · rw [if_pos h, List.idxOf_cons_eq _ h]
    · rw [if_neg h, List.idxOf_cons_ne _ h]
      omega

theorem fieldSize_words {fs : List F} {f : F} (hf : f ∈ fs) : fieldSize (words fs) f = 8 := by
  induction fs with
  | nil => cases hf
  | cons g fs ih =>
    rw [words, List.map_cons, ← words, fieldSize]
    by_cases h : g = f
    · rw [if_pos h]
    · rw [if_neg h]
      exact ih (List.mem_of_ne_of_mem (fun hfg => h hfg.symm) hf)

/-- A field of a struct of words is the word at its place. -/
theorem loadField_words (mem : ByteMem) {fs : List F} {a : UINT64} {f : F} (hf : f ∈ fs) :
    loadField mem (words fs) a f = load mem (a + BitVec.ofNat 64 (8 * fs.idxOf f)) 8 := by
  rw [loadField, offsetOf_words, fieldSize_words hf]

/-- Each field of a pushed struct has the word pushed for it. -/
theorem loadField_pushWords {mem : ByteMem} {sp : UINT64} {fs : List F} {val : F → UINT64} {f : F}
    (hs : 8 * fs.length ≤ 2 ^ 64) (hf : f ∈ fs) :
    loadField (pushWords mem sp (pushOrder fs val)) (words fs) (below sp fs.length) f =
      (val f).toNat := by
  induction fs with
  | nil => cases hf
  | cons g fs ih =>
    rw [List.length_cons] at hs ⊢
    rw [loadField_words _ hf, pushOrder_cons, pushWords_concat, length_pushOrder]
    by_cases h : g = f
    · subst h
      rw [List.idxOf_cons_self, Nat.mul_zero, BitVec.add_zero, store64, load_store_same (by omega)]
      exact Nat.mod_eq_of_lt (val g).isLt
    · have hmem : f ∈ fs := List.mem_of_ne_of_mem (fun hfg => h hfg.symm) hf
      have hidx := List.idxOf_lt_length_of_mem hmem
      have hbelow : below sp fs.length = below sp (fs.length + 1) + BitVec.ofNat 64 8 :=
        (below_add_ofNat sp (by omega) : below sp (fs.length + 1) + BitVec.ofNat 64 (8 * 1) = _).symm
      have happ : Apart (below sp (fs.length + 1) + BitVec.ofNat 64 (8 * (fs.idxOf f + 1))) 8
          (below sp (fs.length + 1)) 8 := by
        have hoff : Apart (below sp (fs.length + 1) + BitVec.ofNat 64 (8 * (fs.idxOf f + 1))) 8
            (below sp (fs.length + 1) + BitVec.ofNat 64 0) 8 :=
          apart_of_offsets (by omega) (by omega) (by omega)
        rwa [BitVec.add_zero] at hoff
      have hih := ih (by omega) hmem
      rw [loadField_words _ hmem, hbelow, BitVec.add_assoc, ← BitVec.ofNat_add] at hih
      have hoff : 8 + 8 * fs.idxOf f = 8 * (fs.idxOf f + 1) := by omega
      rw [hoff] at hih
      rw [List.idxOf_cons_ne _ h, store64, load_store_apart happ (by omega), hih]

end Words

end PiousOS.ByteMem
