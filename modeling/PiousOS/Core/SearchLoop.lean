import Mathlib.Data.List.Basic
import PiousOS.Core.EarlyReturn

/-!
# Search loops

A `for` loop over a list of candidates, in a program with early returns, whose
body says whether to stop: `break` is a body that says yes, `continue` one
that says no.

`searchFold` is what such a loop makes of a part of the state when the
candidates alone decide where it stops (`triple_searchFold`). A loop in a loop
that stops when the inner one does is one loop over all pairs
(`searchFold_flatMap`).
-/
namespace PiousOS.EarlyExit

variable {ε σ ι κ β : Type}

def searchLoop (body : ι → EStateM ε σ Bool) : List ι → EStateM ε σ Unit
  | [] => pure ()
  | i :: is => do
    let stop ← body i
    if stop then pure () else searchLoop body is

section
variable {body : ι → EStateM ε σ Bool} {Q : σ → Prop} {E : ε → σ → Prop} {l : List ι}

/-- The invariant may speak of the candidates that are left. -/
theorem triple_searchLoop {I : List ι → σ → Prop}
    (hbody : ∀ i is, i :: is <:+ l → Triple (I (i :: is)) (body i) (fun stop s => if stop then Q s else I is s) E)
    (hend : ∀ s, I [] s → Q s) : Triple (I l) (searchLoop body l) (fun _ => Q) E := by
  induction l with
  | nil => exact Triple.pure hend
  | cons i is ih =>
    refine Triple.bind (hbody i is (List.suffix_refl _)) fun stop => ?_
    have hrest := ih fun j js hjs => hbody j js (hjs.trans (List.suffix_cons i is))
    cases stop with
    | true => exact Triple.pure fun s hs => by simpa using hs
    | false => exact Triple.pre hrest fun s hs => by simpa using hs

end

/-- A loop over a whole list; the invariant may speak of what is done. -/
theorem triple_forM_prefix {I : List ι → σ → Prop} {E : ε → σ → Prop} {f : ι → EStateM ε σ PUnit} {l : List ι}
    (hf : ∀ done i, done ++ [i] <+: l → Triple (I done) (f i) (fun _ => I (done ++ [i])) E) :
    Triple (I []) (l.forM f) (fun _ => I l) E := by
  suffices h : ∀ done rest, done ++ rest = l → Triple (I done) (rest.forM f) (fun _ => I l) E from h [] l rfl
  intro done rest hsplit
  induction rest generalizing done with
  | nil =>
    rw [List.append_nil] at hsplit
    exact Triple.pure fun s hs => hsplit ▸ hs
  | cons i rest ih =>
    have hnext : (done ++ [i]) ++ rest = l := by rw [List.append_assoc, List.singleton_append, hsplit]
    exact Triple.bind (hf done i ⟨rest, hnext⟩) fun _ => ih (done ++ [i]) hnext

/-! ## What a loop computes -/

/-- `next` once for each candidate, up to the first that stops the loop. -/
def searchFold (stops : ι → Bool) (next : ι → β → β) : List ι → β → β
  | [], b => b
  | i :: is, b => if stops i then next i b else searchFold stops next is (next i b)

section
variable {stops : ι → Bool} {next : ι → β → β} {l : List ι}

/-- Where `stops` decides, the loop is the fold. `P` holds of the view until
it stops, `I` of the rest of the state throughout. -/
theorem triple_searchFold {body : ι → EStateM ε σ Bool} {E : ε → σ → Prop} {I : σ → Prop} {view : σ → β} {P : β → Prop}
    (hbody : ∀ i ∈ l, ∀ b, P b → Triple (fun s => I s ∧ view s = b) (body i)
      (fun stop s => stop = stops i ∧ I s ∧ view s = next i b) E)
    (hP : ∀ i ∈ l, ∀ b, P b → stops i = false → P (next i b)) {b : β} (hb : P b) :
    Triple (fun s => I s ∧ view s = b) (searchLoop body l)
      (fun _ s => I s ∧ view s = searchFold stops next l b) E := by
  induction l generalizing b with
  | nil => exact Triple.pure fun _ hs => hs
  | cons i is ih =>
    refine Triple.bind (hbody i List.mem_cons_self b hb) fun stop => Triple.assume fun hstop => ?_
    subst hstop
    rw [searchFold]
    cases hi : stops i with
    | true => exact Triple.pure fun _ hs => by simpa using hs
    | false =>
      have hrest := ih (fun j hj => hbody j (List.mem_cons_of_mem i hj))
        (fun j hj => hP j (List.mem_cons_of_mem i hj)) (hP i List.mem_cons_self b hb hi)
      exact Triple.post hrest fun _ _ hs => by simpa using hs

/-- If only the candidate that stops the loop has an effect, it is the first
one found. -/
theorem searchFold_find? {final : ι → β → β} (h : ∀ i ∈ l, ∀ b, next i b = if stops i then final i b else b) (b : β) :
    searchFold stops next l b = (l.find? stops).elim b fun i => final i b := by
  induction l with
  | nil => rfl
  | cons i is ih =>
    rw [searchFold, List.find?_cons, h i List.mem_cons_self b]
    cases hi : stops i with
    | true => rfl
    | false => exact ih fun j hj => h j (List.mem_cons_of_mem i hj)

theorem searchFold_append (l' : List ι) (b : β) :
    searchFold stops next (l ++ l') b =
      if l.any stops then searchFold stops next l b else searchFold stops next l' (searchFold stops next l b) := by
  induction l generalizing b with
  | nil => rfl
  | cons i is ih =>
    rw [List.cons_append, searchFold, searchFold, List.any_cons]
    cases hi : stops i with
    | true => rfl
    | false => exact ih (next i b)

theorem searchFold_map (f : κ → ι) (ks : List κ) (b : β) :
    searchFold stops next (ks.map f) b = searchFold (fun k => stops (f k)) (fun k => next (f k)) ks b := by
  induction ks generalizing b with
  | nil => rfl
  | cons k ks ih => rw [List.map_cons, searchFold, searchFold, ih]

/-- What only a candidate that stops the loop can break tells whether one
did. -/
theorem searchFold_any (stops : ι → Bool) (next : ι → β → β) (l : List ι) {P : β → Prop} (hP : ∀ i ∈ l, ∀ b, P b → (P (next i b) ↔ stops i = false)) {b : β} (hb : P b) :
    P (searchFold stops next l b) ↔ l.any stops = false := by
  induction l generalizing b with
  | nil => exact iff_of_true hb rfl
  | cons i is ih =>
    have hi := hP i List.mem_cons_self b hb
    rw [searchFold, List.any_cons]
    cases hstop : stops i with
    | true => simpa [hstop] using hi
    | false => simpa using ih (fun j hj => hP j (List.mem_cons_of_mem i hj)) (hi.mpr hstop)

/-- A loop of loops. -/
theorem searchFold_flatMap (inner : κ → List ι) (ks : List κ) (b : β) :
    searchFold (fun k => (inner k).any stops) (fun k => searchFold stops next (inner k)) ks b =
      searchFold stops next (ks.flatMap inner) b := by
  induction ks generalizing b with
  | nil => rfl
  | cons k ks ih => rw [List.flatMap_cons, searchFold_append, searchFold, ih]

/-- If a candidate that stops the loop leaves a value of its own, the others
count only where there is none. -/
theorem searchFold_eq {final : ι → β} (h : ∀ i ∈ l, stops i = true → ∀ b, next i b = final i) (b : β) :
    searchFold stops next l b =
      match l.find? stops with
      | some i => final i
      | none => l.foldl (fun b i => next i b) b := by
  induction l generalizing b with
  | nil => rfl
  | cons i is ih =>
    rw [searchFold, List.find?_cons]
    cases hi : stops i with
    | true => exact h i List.mem_cons_self hi b
    | false => exact ih (fun j hj => h j (List.mem_cons_of_mem i hj)) (next i b)

end

end PiousOS.EarlyExit
