import Mathlib.Logic.Basic

/-!
# Programs with early returns

A C function that returns from the middle of its body is a program of
`EStateM ε σ`: it runs on a state of type `σ` and either goes through with a
value or leaves early with a reason of type `ε`, and there is a state
afterwards in both cases.

* `Triple P x Q E`: from a state in `P`, `x` goes through into `Q` or leaves
  early into `E`. The rules follow the constructors of the monad.
* `Runs P x Q`: from a state in `P`, `x` goes through into `Q`.
* `KeepsInv I R x`: `x` keeps `I` on every path, early returns included, and
  `R` has the reasons for these.
* `ok_of_bind`, `bind_of_ok`: a run of a sequence is taken apart, and put
  together, at its intermediate state.
* `loopWhile` is a loop with fuel; `Triple.loopWhile` is its invariant rule.
-/
namespace PiousOS.EarlyExit

variable {ε σ α β : Type}

/-- `Q` of a run that went through, `E` of one that returned early. -/
def Outcome (Q : α → σ → Prop) (E : ε → σ → Prop) : EStateM.Result ε σ α → Prop
  | .ok a s => Q a s
  | .error e s => E e s

def Triple (P : σ → Prop) (x : EStateM ε σ α) (Q : α → σ → Prop) (E : ε → σ → Prop) : Prop :=
  ∀ s, P s → Outcome Q E (x s)

/-- `x` goes through. -/
def Runs (P : σ → Prop) (x : EStateM ε σ α) (Q : α → σ → Prop) : Prop :=
  Triple P x Q fun _ _ => False

/-- The state a run leaves, however it ends. -/
def final : EStateM.Result ε σ α → σ
  | .ok _ s => s
  | .error _ s => s

/-! ## Runs -/

theorem bind_of_ok {x : EStateM ε σ α} {f : α → EStateM ε σ β} {s s' : σ} {a : α}
    (h : x s = .ok a s') : (x >>= f) s = f a s' := by
  show EStateM.bind x f s = f a s'
  simp only [EStateM.bind, h]

theorem bind_of_error {x : EStateM ε σ α} {f : α → EStateM ε σ β} {s s' : σ} {e : ε}
    (h : x s = .error e s') : (x >>= f) s = .error e s' := by
  show EStateM.bind x f s = .error e s'
  simp only [EStateM.bind, h]

theorem get_bind (f : σ → EStateM ε σ β) (s : σ) : (get >>= f) s = f s s := rfl

/-- A sequence went through: so did its first part, and the rest from there. -/
theorem ok_of_bind {x : EStateM ε σ α} {f : α → EStateM ε σ β} {s s' : σ} {b : β}
    (h : (x >>= f) s = .ok b s') : ∃ a s₁, x s = .ok a s₁ ∧ f a s₁ = .ok b s' := by
  cases hx : x s with
  | ok a s₁ => exact ⟨a, s₁, rfl, (bind_of_ok hx).symm.trans h⟩
  | error e s₁ => rw [bind_of_error hx] at h; cases h

section Rules
variable {P P' : σ → Prop} {Q Q' : α → σ → Prop} {E E' : ε → σ → Prop} {x : EStateM ε σ α}

theorem Triple.ok {s s' : σ} {a : α} (h : Triple P x Q E) (hs : P s) (hx : x s = .ok a s') :
    Q a s' := by
  have := h s hs
  rwa [hx] at this

theorem Triple.error {s s' : σ} {e : ε} (h : Triple P x Q E) (hs : P s) (hx : x s = .error e s') :
    E e s' := by
  have := h s hs
  rwa [hx] at this

theorem Runs.ok {s : σ} (h : Runs P x Q) (hs : P s) : ∃ a s', x s = .ok a s' ∧ Q a s' := by
  have := h s hs
  cases hx : x s with
  | ok a s' => exact ⟨a, s', rfl, by rwa [hx] at this⟩
  | error e s' => rw [hx] at this; exact this.elim

theorem Triple.consequence (h : Triple P x Q E) (hP : ∀ s, P' s → P s)
    (hQ : ∀ a s, Q a s → Q' a s) (hE : ∀ e s, E e s → E' e s) : Triple P' x Q' E' := by
  intro s hs
  have := h s (hP s hs)
  cases hx : x s with
  | ok a s' => rw [hx] at this; exact hQ a s' this
  | error e s' => rw [hx] at this; exact hE e s' this

theorem Triple.pre (h : Triple P x Q E) (hP : ∀ s, P' s → P s) : Triple P' x Q E :=
  h.consequence hP (fun _ _ hs => hs) fun _ _ hs => hs

theorem Triple.post (h : Triple P x Q E) (hQ : ∀ a s, Q a s → Q' a s) : Triple P x Q' E :=
  h.consequence (fun _ hs => hs) hQ fun _ _ hs => hs

theorem Triple.early (h : Triple P x Q E) (hE : ∀ e s, E e s → E' e s) : Triple P x Q E' :=
  h.consequence (fun _ hs => hs) (fun _ _ hs => hs) hE

/-- What goes through has no early return to account for. -/
theorem Runs.triple (h : Runs P x Q) : Triple P x Q E :=
  Triple.early h fun _ _ hs => hs.elim

theorem Triple.pure {a : α} (h : ∀ s, P s → Q a s) :
    Triple P (Pure.pure a : EStateM ε σ α) Q E := h

theorem Triple.throw {e : ε} (h : ∀ s, P s → E e s) :
    Triple P (MonadExcept.throw e : EStateM ε σ α) Q E := h

theorem Triple.bind {R : α → σ → Prop} {f : α → EStateM ε σ β} {S : β → σ → Prop}
    (hx : Triple P x R E) (hf : ∀ a, Triple (R a) (f a) S E) : Triple P (x >>= f) S E := by
  intro s hs
  cases h : x s with
  | ok a s' => rw [bind_of_ok h]; exact hf a s' (hx.ok hs h)
  | error e s' => rw [bind_of_error h]; exact hx.error hs h

/-- What is read is the state. -/
theorem Triple.get {f : σ → EStateM ε σ α} (h : ∀ s₀, P s₀ → Triple (fun s => s = s₀) (f s₀) Q E) :
    Triple P (MonadState.get >>= f) Q E :=
  fun s hs => h s hs s rfl

/-- Reading keeps the precondition. -/
theorem Triple.read {f : σ → EStateM ε σ α} (h : ∀ s₀, P s₀ → Triple P (f s₀) Q E) :
    Triple P (MonadState.get >>= f) Q E :=
  Triple.get fun s₀ hs₀ => Triple.pre (h s₀ hs₀) fun _ hs => hs ▸ hs₀

/-- One starting state at a time. -/
theorem Triple.start (h : ∀ s₀, P s₀ → Triple (fun s => s = s₀) x Q E) : Triple P x Q E :=
  fun s hs => h s hs s rfl

/-- A part of the precondition that is not about the state. -/
theorem Triple.assume {c : Prop} (h : c → Triple P x Q E) : Triple (fun s => c ∧ P s) x Q E :=
  fun s hs => h hs.1 s hs.2

theorem Triple.modify {f : σ → σ} {S : σ → Prop} (h : ∀ s, P s → S (f s)) :
    Triple P (modify f : EStateM ε σ PUnit) (fun _ => S) E := h

theorem Triple.ite {c : Prop} [Decidable c] {y : EStateM ε σ α}
    (hx : c → Triple P x Q E) (hy : ¬ c → Triple P y Q E) :
    Triple P (if c then x else y) Q E := by
  by_cases h : c
  · rw [if_pos h]; exact hx h
  · rw [if_neg h]; exact hy h

end Rules

/-! ## Invariants -/

/-- `I` holds after `x`, however it ends, if it held before, and `x` returns
early for no reason outside `R`. -/
def KeepsInv (I : σ → Prop) (R : ε → Prop) (x : EStateM ε σ α) : Prop :=
  Triple I x (fun _ => I) fun e s => R e ∧ I s

section KeepsInv
variable {I : σ → Prop} {R R' : ε → Prop} {x y : EStateM ε σ α} {f : α → EStateM ε σ β}

theorem KeepsInv.final {s : σ} (hx : KeepsInv I R x) (hs : I s) : I (final (x s)) := by
  have := hx s hs
  cases h : x s with
  | ok a s' => rwa [h] at this
  | error e s' => rw [h] at this; exact this.2

theorem KeepsInv.mono (hx : KeepsInv I R x) (h : ∀ e, R e → R' e) : KeepsInv I R' x :=
  Triple.early hx fun e _ hs => ⟨h e hs.1, hs.2⟩

theorem KeepsInv.pure (a : α) : KeepsInv I R (Pure.pure a : EStateM ε σ α) :=
  Triple.pure fun _ h => h

theorem KeepsInv.throw {e : ε} (he : R e) :
    KeepsInv I R (MonadExcept.throw e : EStateM ε σ α) :=
  Triple.throw fun _ h => ⟨he, h⟩

theorem KeepsInv.bind (hx : KeepsInv I R x) (hf : ∀ a, KeepsInv I R (f a)) :
    KeepsInv I R (x >>= f) :=
  Triple.bind hx hf

theorem KeepsInv.ite {c : Prop} [Decidable c] (hx : c → KeepsInv I R x)
    (hy : ¬ c → KeepsInv I R y) : KeepsInv I R (if c then x else y) :=
  Triple.ite hx hy

end KeepsInv

/-! ## Loops -/

/-- A loop whose body says whether to go on; it leaves with `out` when the
fuel runs out. -/
def loopWhile (out : ε) (body : EStateM ε σ Bool) : Nat → EStateM ε σ Unit
  | 0 => throw out
  | fuel + 1 => do
    let more ← body
    if more then loopWhile out body fuel else pure ()

section
variable {I Q : σ → Prop} {E : ε → σ → Prop} {out : ε}
  {body : EStateM ε σ Bool}

/-- Over a list, each part keeps `I`. -/
theorem Triple.forM {γ : Type} {l : List γ} {f : γ → EStateM ε σ PUnit}
    (hf : ∀ c ∈ l, Triple I (f c) (fun _ => I) E) : Triple I (l.forM f) (fun _ => I) E := by
  induction l with
  | nil => exact Triple.pure fun _ h => h
  | cons c l ih =>
    refine Triple.bind (hf c List.mem_cons_self) fun _ => ?_
    exact ih fun c' hc' => hf c' (List.mem_cons_of_mem _ hc')

/-- The body keeps `I` while it goes on, and ends in `Q`. -/
theorem Triple.loopWhile {fuel : Nat}
    (hbody : Triple I body (fun more s => if more then I s else Q s) E) (hout : ∀ s, I s → E out s) :
    Triple I (loopWhile out body fuel) (fun _ => Q) E := by
  induction fuel with
  | zero => exact Triple.throw hout
  | succ fuel ih =>
    refine Triple.bind hbody fun more => ?_
    cases more with
    | true => exact Triple.pre ih fun s hs => by simpa using hs
    | false => exact Triple.pure fun s hs => by simpa using hs

/-- A loop with a guard, whose rounds can break off. -/
theorem triple_loopGuarded {fuel : Nat} {guard : σ → Prop} [DecidablePred guard] {round : σ → EStateM ε σ Bool}
    (hround : ∀ s, I s → guard s →
      Triple (fun s' => s' = s) (round s) (fun more s' => if more then I s' else Q s') E)
    (hend : ∀ s, I s → ¬ guard s → Q s) (hout : ∀ s, I s → E out s) :
    Triple I (loopWhile out (do
      let s ← get
      if guard s then round s else pure false) fuel) (fun _ => Q) E := by
  refine Triple.loopWhile (Triple.get fun s hs => Triple.ite (hround s hs) fun hguard => ?_) hout
  refine Triple.pure fun s' hs' => ?_
  subst hs'
  exact hend s' hs hguard

end

end PiousOS.EarlyExit
