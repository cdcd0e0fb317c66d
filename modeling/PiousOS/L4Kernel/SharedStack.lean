import PiousOS.L4Kernel.Nesting

/-!
# Two exceptions on one stack

The gates of the double fault and of the machine check are both set by
`SetMCInterruptEntry`, and so have one stack. If one of the two comes in the
stub of the other, before its call, its frame replaces the frame there: the
first stub then gets to its `iretq` with the words of the second delivery, which
take it back into itself.

* `Circling.goesOn`: a pass of the stub ends where it began;
* `circling_of_delivery`: the second exception leaves its words;
* `shared_stack_circles`: the first stub goes round and round.
-/
namespace PiousOS.Kernel
open ByteMem X86

/-! ## Where a stub goes on -/

/-- From `s` a stub calls its handler, and its `iretq` leaves `t`. -/
def StubGoesOn (L : Layout) (R : Kept → Cpu → Cpu → Prop) (K : Kept) (top : UINT64) (s t : Cpu) : Prop :=
  ∃ l c y e, StubPass L R K top l s c y e ∧ HandlerRun R (StackKept K top c) c.called y ∧ t = exec id .iretq e

/-- At the instruction of `q`, with its stack. -/
structure BackAt (q t : Cpu) : Prop where
  rip : t.rip = q.rip
  rsp : t.rsp = q.rsp
  cs : t.cs = q.cs
  rflags : t.rflags = q.rflags
  ss : t.ss = q.ss

/-- The words at the top of the stack are those of a delivery to `q`. -/
def DeliveredTo (top : UINT64) (q s : Cpu) : Prop :=
  ∀ f ∈ iretqFields, load64 s.mem (below top 5 + BitVec.ofNat 64 (8 * iretqFields.idxOf f)) = frameValue q 0 0 f

theorem frameValue_iretq {f : FrameField} (hf : f ∈ iretqFields) (s : Cpu) (num : UINT8) (code : UINT64) :
    frameValue s num code f = frameValue s 0 0 f := by
  simp only [iretqFields, List.mem_cons, List.not_mem_nil, or_false] at hf
  rcases hf with rfl | rfl | rfl | rfl | rfl <;> rfl

/-- `iretq` goes where its words say. -/
theorem backAt_iretq {top : UINT64} {q e : Cpu} (hrsp : e.rsp = below top 5) (h : DeliveredTo top q e) :
    BackAt q (exec id .iretq e) := by
  -- with the general registers of `e`
  obtain ⟨s, hs⟩ : ∃ s, s = { q with regs := (e.setReg .rsp q.rsp).regs } := ⟨_, rfl⟩
  have hsp : s.regs .rsp = q.rsp := by
    rw [hs]
    exact Cpu.setReg_same e .rsp _
  have hregs : ∀ r, r ≠ .rsp → e.regs r = s.regs r := fun r hr => by
    rw [hs]
    exact (Cpu.setReg_ne e .rsp _ hr).symm
  have hfields : ∀ f ∈ iretqFields, load64 e.mem (e.rsp + BitVec.ofNat 64 (8 * iretqFields.idxOf f)) =
      frameValue s 0 0 f := by
    intro f hf
    rw [hrsp, h f hf]
    simp only [iretqFields, List.mem_cons, List.not_mem_nil, or_false] at hf
    rcases hf with rfl | rfl | rfl | rfl | rfl
    · rw [hs]; rfl
    · rw [hs]; rfl
    · rw [hs]; rfl
    · exact hsp.symm
    · rw [hs]; rfl
  obtain ⟨hall, hrip, hcs, hflags, hss⟩ := iretq_resumes_of_fields (h := id) hregs hfields
  rw [hs] at hrip hcs hflags hss
  exact ⟨hrip, (congrFun hall .rsp).trans hsp, hcs, hflags, hss⟩

section
variable {p : Placement} {L : Layout} {m : Machine} {R : Kept → Cpu → Cpu → Prop} {K : Kept} {top : UINT64}
  {l : StubLine} {pre is : List Instr} {n : Nat} {q s t : Cpu}

theorem BeforeCall.back (h : BeforeCall L top l pre is n q) (hback : BackAt q t) : BeforeCall L top l pre is n t :=
  ⟨h.stub, h.entry, hback.rip.trans h.rip, hback.rsp.trans h.rsp, h.bounds, h.depth⟩

/-- The next instruction is one of the stub. -/
theorem BeforeCall.fetch (h : BeforeCall L top l pre is n q) : ∃ i, fetchText L q.rip = some (l, i) := by
  rw [h.rip]
  cases is with
  | nil => exact ⟨_, fetchText_at h.stub (by rw [h.code, List.append_nil])⟩
  | cons i is =>
    have hcode : l.code = pre ++ i :: (is ++ .callq :: (l.kind.exit ++ [.iretq])) := by simp [h.code]
    exact ⟨i, fetchText_at h.stub hcode⟩

theorem DeliveredTo.congr (h : DeliveredTo top q s) (hfixed : Keeps (Room top 5) s t) : DeliveredTo top q t := by
  intro f hf
  have hidx : iretqFields.idxOf f < 5 := List.idxOf_lt_length_of_mem hf
  rw [← h f hf, load64, load64]
  refine congrArg (BitVec.ofNat 64) (load_congr fun i hi => hfixed _ ?_)
  rw [Room, BitVec.add_assoc, ← BitVec.ofNat_add, add_ofNat_sub _ (by omega)]
  omega

/-! ## Round and round -/

/-- On the way from `q` back to `q`. -/
structure Circling (p : Placement) (L : Layout) (m : Machine) (K : Kept) (top : UINT64) (q t : Cpu) : Prop where
  back : BackAt q t
  words : DeliveredTo top q t
  idt : IdtKept p L m K t

section
variable (hR : Sound p L m R)
include hR

/-- A pass of the stub ends where it began. -/
theorem Circling.goesOn (hq : BeforeCall L top l pre is n q) (h : Circling p L m K top q s)
    (hpass : StubGoesOn L R K top s t) : Circling p L m K top q t := by
  obtain ⟨l', c, y, e, hpass, hbody, rfl⟩ := hpass
  have hs := hq.back h.back
  obtain ⟨-, he⟩ := hpass.ends hR (fun a ha => ha) hs h.idt fun hcalled => handlerRun_keeps hR hcalled hbody
  have hwords : DeliveredTo top q e := h.words.congr he.fixed
  exact ⟨backAt_iretq he.rsp hwords, hwords, (h.idt.then he.keeps).then fun _ _ => rfl⟩

theorem circling_runs (hq : BeforeCall L top l pre is n q) (h : Circling p L m K top q s)
    (hpasses : Relation.ReflTransGen (StubGoesOn L R K top) s t) : Circling p L m K top q t := by
  induction hpasses with
  | refl => exact h
  | tail _ hpass ih => exact ih.goesOn hR hq hpass

omit hR in
/-- There is a pass with a handler that does nothing. -/
theorem BeforeCall.exists_goesOn (hq : BeforeCall L top l pre is n q) (hroom : ∀ a, Room top 23 a → ¬ K a) :
    ∃ t, StubGoesOn L R K top q t := by
  have hid : GivesBack top K id := fun c _ _ _ => ⟨rfl, Keeps.refl _ c⟩
  obtain ⟨c, e, hpass, -⟩ := hq.exists_pass (R := R) hroom hid
  exact ⟨_, l, c, c.called, e, hpass, .stop _, rfl⟩

end

/-! ## Two deliveries -/

section
variable {v : Fin 256} {code : UINT64} (hR : Sound p L m R)
include hR

/-- Nothing but instructions and interrupts: the stub is before its call. -/
theorem beforeCall_of_run (hv : ¬ OffByOne v) (hidt : IdtKept p L m K s)
    (htop : stackOf (InitializeISR p L.pusher m) v s = top) (hroom : ∀ a, Room top 23 a → ¬ K a)
    (hrun : StubRun L R K top (interrupt (InitializeISR p L.pusher m) v code s) q) :
    (∃ l pre is n, Lines v l ∧ BeforeCall L top l pre is n q) ∧ Keeps K s q := by
  obtain ⟨l, hl⟩ := exists_lines v.isLt
  obtain ⟨n, hstart⟩ := beforeCall_of_delivery hl hv code hidt htop
  have hkeeps := interrupt_keeps code htop hroom
  obtain ⟨done, rest, j, hsplit, hq⟩ := stubRun_reached hR id hroom hl.stub hstart.code (fun hs => hs.1 rfl) hrun
    (hidt.then hkeeps) (Alike.refl top _) hstart.rip hstart.rsp hstart.bounds hstart.depth
  exact ⟨⟨l, done, rest, j, hl, hl.stub, hsplit, hq.rip, hq.rsp, hq.bounds, hq.depth⟩, hkeeps.trans hq.keeps⟩

/-- What is handled has put its words on the stack. -/
theorem circling_of_delivery (hv : ¬ OffByOne v) (hidt : IdtKept p L m K q)
    (htop : stackOf (InitializeISR p L.pusher m) v q = top)
    (h : StubGoesOn L R K top (interrupt (InitializeISR p L.pusher m) v code q) t) : Circling p L m K top q t := by
  obtain ⟨l', c, y, e, hpass, hbody, rfl⟩ := h
  subst htop
  have he := hpass.atReturn hR hv (fun a ha => ha) hidt fun hcalled => handlerRun_keeps hR hcalled hbody
  have hwords : DeliveredTo (stackOf (InitializeISR p L.pusher m) v q) q e := by
    intro f hf
    rw [← he.rsp, he.words f hf, frameValue_iretq hf]
  exact ⟨backAt_iretq he.rsp hwords, hwords, (hidt.then he.keeps).then fun _ _ => rfl⟩

end

theorem not_offByOne_shared {v : Fin 256} (hv : v = 8 ∨ v = 18) : ¬ OffByOne v := by
  rcases hv with rfl | rfl <;> decide

end

/-- **Two exceptions on one stack.** Wherever tables, stacks and stubs lie: when
a machine check comes in the stub of a double fault before its call, or the
other way round, and is handled with the tables kept, every pass of the first
stub ends at the instruction where the second exception came, with the stack of
that time, after any number of passes, and there is always one more. The
handlers of these passes keep the tables, the words on their stack and RSP; the
interrupts in between, of any vectors but 21 and 29, find room off what is kept
and off the live words of the stack, so no further one of the two is among
them. -/
theorem shared_stack_circles (p : Placement) (L : Layout) (m : Machine) (K : Kept) (n : Nat) {v w : Fin 256}
    (hv : v = 8 ∨ v = 18) (hw : w = 8 ∨ w = 18) (code code' : UINT64) (s q r : Cpu)
    (hK : ∀ a, TableBytes p a → K a)
    (htables : ∀ a, TableBytes p a → s.mem a = (InitializeISR p L.pusher m).mem a) :
    let kernel := InitializeISR p L.pusher m
    let top := alignStack (stackTop p.DF_stack)
    StubRun L (Handled L kernel n) K top (interrupt kernel v code s) q →
    StubGoesOn L (Handled L kernel n) K top (interrupt kernel w code' q) r →
      ∃ l, Lines v l ∧ ∀ t, Relation.ReflTransGen (StubGoesOn L (Handled L kernel n) K top) r t →
        BackAt q t ∧ (∃ i, fetchText L t.rip = some (l, i)) ∧
          ∃ t', StubGoesOn L (Handled L kernel n) K top t t' := by
  intro kernel top hstub hsecond
  have hR := handled_sound p L m n
  have hroom : ∀ a, Room top 23 a → ¬ K a := by
    obtain ⟨_, _, _, _, hpass, -⟩ := hsecond
    exact hpass.room
  obtain ⟨⟨l, pre, is, j, hl, hq⟩, hkeeps⟩ := beforeCall_of_run hR (not_offByOne_shared hv)
    (idtKept_of_tables htables hK) (stackOf_shared htables hv) hroom hstub
  have htablesq : ∀ a, TableBytes p a → q.mem a = kernel.mem a := fun a ha =>
    (hkeeps a (hK a ha)).trans (htables a ha)
  have hr := circling_of_delivery hR (not_offByOne_shared hw) (idtKept_of_tables htablesq hK)
    (stackOf_shared htablesq hw) hsecond
  refine ⟨l, hl, fun t hpasses => ?_⟩
  have ht := circling_runs hR hq hr hpasses
  have hback := hq.back ht.back
  exact ⟨ht.back, hback.fetch, hback.exists_goesOn hroom⟩

/-- A machine check at the first instruction of the stub of a double fault, with
handlers that do nothing. -/
theorem shared_stack_circles_idle :
    let kernel := InitializeISR higherHalf spaced.pusher (atEntry higherHalf.toObjects)
    let goesOn := StubGoesOn spaced (Handled spaced kernel 0) (TableBytes higherHalf)
      (alignStack (stackTop higherHalf.DF_stack))
    let q := interrupt kernel 8 0 (idleOn kernel)
    ∃ r t, goesOn (interrupt kernel 18 0 q) r ∧ BackAt q r ∧ goesOn r t ∧ BackAt q t := by
  intro kernel goesOn q
  have hidle : ∀ a, TableBytes higherHalf a → (idleOn kernel).mem a = kernel.mem a := fun a _ => by rw [idleOn_mem]
  have hkeeps := interrupt_keeps (v := 8) 0 (stackOf_shared hidle (.inl rfl)) df_room_tables
  have hq : ∀ a, TableBytes higherHalf a → q.mem a = kernel.mem a := fun a ha => (hkeeps a ha).trans (hidle a ha)
  -- the machine check is handled
  have hstack := stackOf_shared (L := spaced) (m := atEntry higherHalf.toObjects) (v := 18) hq (.inr rfl)
  obtain ⟨l', c, e, hpass, -⟩ := exists_pass (R := Handled spaced kernel 0) (not_offByOne_shared (.inr rfl)) 0
    (fun _ => id) (idtKept_of_tables hq fun _ ha => ha) (hstack ▸ df_room_tables) fun _ c _ _ _ => ⟨rfl, Keeps.refl _ c⟩
  rw [hstack] at hpass
  have hr : goesOn (interrupt kernel 18 0 q) (exec id .iretq e) := ⟨l', c, _, e, hpass, .stop _, rfl⟩
  -- and then the stub of the double fault makes a pass
  obtain ⟨_, _, hall⟩ := shared_stack_circles higherHalf spaced (atEntry higherHalf.toObjects)
    (TableBytes higherHalf) 0 (.inl rfl) (.inr rfl) 0 0 (idleOn kernel) q _ (fun _ ha => ha) hidle (.stop _) hr
  obtain ⟨hback, -, t, ht⟩ := hall _ .refl
  exact ⟨_, t, hr, hback, ht, (hall t (.single ht)).1⟩

end PiousOS.Kernel
