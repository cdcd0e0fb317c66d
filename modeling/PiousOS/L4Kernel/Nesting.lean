import PiousOS.L2Machine.StackCode
import PiousOS.L4Kernel.Dispatch

/-!
# Interrupts in interrupts

An interrupt may come between any two instructions of a stub, and in the C
code that the stub calls. `Handled` is such a run from a delivery to what is
left by its `iretq`, with interrupts nested at most `n` deep: stubs run their
instructions, a handler does anything that leaves alone what is kept and gives
the stack pointer back, and every delivery finds room for its frame.

* `stubRun_reached`: with interrupts in between, a stub does what it does alone;
* `StubPass.atReturn`: at the `iretq` the interrupted registers and the words of
  the delivery are back;
* `interrupts_nest`: the interrupted program is resumed, and what is kept has
  not changed.
-/
namespace PiousOS.Kernel
open ByteMem X86

/-! ## Runs -/

/-- Memory that has to stay. -/
abbrev Kept := UINT64 → Prop

def Keeps (K : Kept) (s t : Cpu) : Prop := ∀ a, K a → t.mem a = s.mem a

/-- The program of `s` goes on at `t`. -/
structure Resumes (s t : Cpu) : Prop where
  regs : t.regs = s.regs
  rip : t.rip = s.rip
  cs : t.cs = s.cs
  rflags : t.rflags = s.rflags
  ss : t.ss = s.ss

/-- The top of the frame that a delivery of `v` to `s` pushes. -/
def stackOf (kernel : Machine) (v : Fin 256) (s : Cpu) : UINT64 :=
  alignStack (loadedStack { kernel with mem := s.mem } v s.rsp)

/-- A delivery pushes the frame that `deliver` gives the place of, and writes
nothing else. -/
theorem interrupt_frame (m : Machine) (v : Fin 256) (code : UINT64) (s : Cpu) :
    let frame := deliver { m with mem := s.mem } v s.rsp
    (interrupt m v code s).rsp = frame.1 ∧
      ∀ a, ¬ (a - frame.1).toNat < frame.2 → (interrupt m v code s).mem a = s.mem a := by
  intro frame
  obtain ⟨top, htop⟩ : ∃ top, top = alignStack (loadedStack { m with mem := s.mem } v s.rsp) := ⟨_, rfl⟩
  obtain ⟨error, herror⟩ : ∃ error, error = if pushesErrorCode v then some code else none := ⟨_, rfl⟩
  have hlen : frame.2 = 8 * (s.pushedFrame error).length := by
    show (if pushesErrorCode v then 48 else 40) = _
    rw [herror]
    split <;> rfl
  have hplace : frame.1 = below top (s.pushedFrame error).length := by
    show alignStack _ - BitVec.ofNat 64 frame.2 = _
    rw [hlen, htop]
    rfl
  refine ⟨?_, fun a ha => ?_⟩
  · rw [hplace, htop, herror]
    exact Cpu.setReg_same s .rsp _
  · have hmem : (interrupt m v code s).mem = pushWords s.mem (below top 0) (s.pushedFrame error) := by
      rw [below_zero, htop, herror]
      rfl
    have hout : ¬ Room top (0 + (s.pushedFrame error).length) a := by
      rw [Nat.zero_add, Room, ← hplace, ← hlen]
      exact ha
    have hsmall : (s.pushedFrame error).length ≤ 6 := by
      rw [herror]
      split <;> simp [Cpu.pushedFrame]
    rw [hmem, pushWords_outside (by omega) hout]

/-- A row of instructions of a stub whose stack has its top at `top`. `R` runs
the interrupts in between; what is on the stack is kept from them. -/
inductive StubRun (L : Layout) (R : Kept → Cpu → Cpu → Prop) (K : Kept) (top : UINT64) : Cpu → Cpu → Prop where
  | stop (s : Cpu) : StubRun L R K top s s
  | instr {s t : Cpu} {l : StubLine} {i : Instr} (hfetch : fetchText L s.rip = some (l, i)) (hi : i.Straight)
      (hrest : StubRun L R K top (exec id i s) t) : StubRun L R K top s t
  | interrupt {s q t : Cpu} (hnested : R (fun a => K a ∨ Live top s a) s q)
      (hrest : StubRun L R K top q t) : StubRun L R K top s t

/-- C code that leaves `K` alone, with interrupts in between. -/
inductive HandlerRun (R : Kept → Cpu → Cpu → Prop) (K : Kept) : Cpu → Cpu → Prop where
  | stop (s : Cpu) : HandlerRun R K s s
  | code {s q t : Cpu} (hkeeps : Keeps K s q) (hrest : HandlerRun R K q t) : HandlerRun R K s t
  | interrupt {s q t : Cpu} (hnested : R K s q) (hrest : HandlerRun R K q t) : HandlerRun R K s t

/-- The stub of `l` from `d`, before its call, to its `iretq` at `e`: it calls
its handler at `c`, which leaves `y`. It has room on its stack. -/
structure StubPass (L : Layout) (R : Kept → Cpu → Cpu → Prop) (K : Kept) (top : UINT64) (l : StubLine)
    (d c y e : Cpu) : Prop where
  room : ∀ a, Room top 23 a → ¬ K a
  entry : StubRun L R K top d c
  call : fetchText L c.rip = some (l, .callq)
  rsp : y.rsp = c.called.rsp
  exit : StubRun L R K top (exec (fun _ => y) .callq c) e
  iretq : fetchText L e.rip = some (l, .iretq)

/-- What a handler called at `c` has to keep: `K`, and the words on its stack. -/
def StackKept (K : Kept) (top : UINT64) (c : Cpu) : Kept := fun a => K a ∨ Live top c.called a

/-- An interrupt of `s`, of any vector but 21 and 29, is handled at `t`, with
interrupts in interrupts at most `n` deep. -/
def Handled (L : Layout) (kernel : Machine) : Nat → Kept → Cpu → Cpu → Prop
  | 0, _, _, _ => False
  | n + 1, K, s, t => ∃ (v : Fin 256) (code : UINT64) (l : StubLine) (c y e : Cpu), ¬ OffByOne v ∧
      StubPass L (Handled L kernel n) K (stackOf kernel v s) l (interrupt kernel v code s) c y e ∧
      HandlerRun (Handled L kernel n) (StackKept K (stackOf kernel v s) c) c.called y ∧ t = exec id .iretq e

/-! ## The tables -/

/-- The bytes of `tss64`, `IDT_data` and `MinimalGDT`. -/
def TableBytes (p : Placement) : Kept := fun a => ∃ e ∈ p.extents.take 3, (a - e.1).toNat < e.2

section
variable (p : Placement) (pusher : Nat → UINT64) (m : Machine) {a : UINT64}

theorem setGates_outside {calls : List (SetEntry × Nat)} {mem : ByteMem} (hlt : ∀ c ∈ calls, c.2 < 256)
    (ha : ¬ (a - p.IDT_data).toNat < 4096) : setGates p.IDT_data pusher calls mem a = mem a := by
  induction calls generalizing mem with
  | nil => rfl
  | cons c calls ih =>
    have hc := hlt c List.mem_cons_self
    obtain ⟨addr, misc, hcall⟩ := c.1.call_eq p.IDT_data c.2 (pusher c.2)
    have hgate : ¬ (a - gateAddr p.IDT_data c.2).toNat < 16 := fun hin =>
      ha (field_subset (o := 16 * c.2) (n := 16) (by omega) (by decide) hin)
    rw [setGates, List.foldl_cons, ← setGates, ih fun d hd => hlt d (List.mem_cons_of_mem c hd), hcall,
      setGate_outside hgate]

/-- `InitializeISR` writes the tables only. -/
theorem InitializeISR_outside (ha : ¬ TableBytes p a) : (InitializeISR p pusher m).mem a = m.mem a := by
  have htss : ¬ (a - p.tss64).toNat < structSize TSS64_STRUCT := fun h => ha ⟨_, .head _, h⟩
  have hidt : ¬ (a - p.IDT_data).toNat < 4096 := fun h => ha ⟨_, .tail _ (.head _), h⟩
  have hgdt : ¬ (a - p.MinimalGDT).toNat < 40 := fun h => ha ⟨_, .tail _ (.tail _ (.head _)), h⟩
  have hentry : ¬ (a - (p.MinimalGDT + 24#64)).toNat < structSize TSS_LDT_ENTRY_STRUCT := fun h =>
    hgdt (field_subset (o := 24) (by decide) (by decide) h)
  have hbase : setTssBase p.MinimalGDT p.tss64 m.mem = storeFields m.mem TSS_LDT_ENTRY_STRUCT (p.MinimalGDT + 24#64)
      [(.BaseAddress1, p.tss64.toNat), (.BaseAddress2, (p.tss64 >>> 16).toNat),
        (.BaseAddress3, (p.tss64 >>> 24).toNat), (.BaseAddress4, (p.tss64 >>> 32).toNat)] := rfl
  rw [InitializeISR_mem, setGates_outside p pusher isrEntries_lt hidt, setStacks_eq,
    storeFields_outside (by decide) _ htss, hbase, storeFields_outside (by decide) _ hentry]

theorem tableBytes_idt {i : Nat} (hi : i < 4096) : TableBytes p (p.IDT_data + BitVec.ofNat 64 i) := by
  refine ⟨_, .tail _ (.head _), ?_⟩
  rw [add_ofNat_sub _ (by omega)]
  exact hi

theorem tableBytes_tss {i : Nat} (hi : i < 112) : TableBytes p (p.tss64 + BitVec.ofNat 64 i) := by
  refine ⟨_, .head _, ?_⟩
  rw [add_ofNat_sub _ (by omega)]
  exact hi

/-- The stack of a delivery is chosen by the tables. -/
theorem loadedStack_congr {mem : ByteMem} (htables : ∀ a, TableBytes p a → mem a = (InitializeISR p pusher m).mem a)
    (v : Fin 256) (rsp : UINT64) :
    loadedStack { InitializeISR p pusher m with mem := mem } v rsp = loadedStack (InitializeISR p pusher m) v rsp := by
  have hv := v.isLt
  have hidt : (InitializeISR p pusher m).idtr.BaseAddress = p.IDT_data := rfl
  have hist : gateIST mem p.IDT_data v = gateIST (InitializeISR p pusher m).mem p.IDT_data v := by
    rw [gateIST, gateIST]
    refine congrArg (· % 8) (load_congr fun i hi => htables _ ?_)
    have hbyte : gateAddr p.IDT_data v + 4#64 + BitVec.ofNat 64 i = p.IDT_data + BitVec.ofNat 64 (16 * v + (4 + i)) := by
      rw [gateAddr, BitVec.add_assoc, BitVec.add_assoc, BitVec.ofNat_add, BitVec.ofNat_add]
    rw [hbyte]
    exact tableBytes_idt p (by omega)
  have hpointer : ∀ n < 8, istPointer { InitializeISR p pusher m with mem := mem } n =
      istPointer (InitializeISR p pusher m) n := by
    intro n hn
    rw [istPointer, istPointer, InitializeISR_trBase, load64, load64]
    refine congrArg (BitVec.ofNat 64) (load_congr fun i hi => htables _ ?_)
    rw [BitVec.add_assoc, ← BitVec.ofNat_add]
    exact tableBytes_tss p (by omega)
  have hlt : gateIST (InitializeISR p pusher m).mem p.IDT_data v < 8 := Nat.mod_lt _ (by decide)
  rw [loadedStack, loadedStack, hidt, hist, hpointer _ hlt]

end

/-! ## Keeping -/

/-- An interrupt that resumes and keeps the stack changes nothing for a stub. -/
theorem alike_of_resumes {top : UINT64} {s t q : Cpu} (ha : Alike top s q) (hr : Resumes s t)
    (hlive : ∀ a, Live top s a → t.mem a = s.mem a) : Alike top t q := by
  have hrsp : t.rsp = s.rsp := congrFun hr.regs .rsp
  refine ⟨hr.regs.trans ha.regs, hr.rip.trans ha.rip, hr.cs.trans ha.cs, hr.ss.trans ha.ss,
    hr.rflags.trans ha.rflags, fun a hin => ?_⟩
  rw [Live, hrsp] at hin
  exact (hlive a hin).trans (ha.mem a hin)

theorem Keeps.refl (K : Kept) (s : Cpu) : Keeps K s s := fun _ _ => rfl

theorem Keeps.trans {K : Kept} {s t u : Cpu} (hst : Keeps K s t) (htu : Keeps K t u) : Keeps K s u :=
  fun a ha => (htu a ha).trans (hst a ha)

theorem Keeps.mono {K K' : Kept} {s t : Cpu} (h : Keeps K' s t) (hsub : ∀ a, K a → K' a) : Keeps K s t :=
  fun a ha => h a (hsub a ha)

section
variable (p : Placement) (L : Layout) (m : Machine)

/-- The IDT is kept, and as `InitializeISR` left it. -/
structure IdtKept (K : Kept) (s : Cpu) : Prop where
  kept : ∀ i < 4096, K (p.IDT_data + BitVec.ofNat 64 i)
  intact : ∀ i < 4096, s.mem (p.IDT_data + BitVec.ofNat 64 i) =
    (InitializeISR p L.pusher m).mem (p.IDT_data + BitVec.ofNat 64 i)

variable {p L m} {K K' : Kept} {s t : Cpu}

theorem IdtKept.then (h : IdtKept p L m K s) (hst : Keeps K s t) : IdtKept p L m K t :=
  ⟨h.kept, fun i hi => (hst _ (h.kept i hi)).trans (h.intact i hi)⟩

theorem IdtKept.more (h : IdtKept p L m K s) (hsub : ∀ a, K a → K' a) : IdtKept p L m K' s :=
  ⟨fun i hi => hsub _ (h.kept i hi), h.intact⟩

variable (p L m) in
/-- What is to be shown of the nested interrupts. -/
def Sound (R : Kept → Cpu → Cpu → Prop) : Prop :=
  ∀ K s t, IdtKept p L m K s → R K s t → Resumes s t ∧ Keeps K s t

/-- Behind `pre` the text has the next instruction of the stub. -/
theorem fetchText_at {l : StubLine} {pre post : List Instr} {i : Instr} (hl : l ∈ stubLines)
    (hcode : l.code = pre ++ i :: post) :
    fetchText L (L.addr l.label + BitVec.ofNat 64 (codeSize pre)) = some (l, i) := by
  refine fetchText_eq hl ?_
  have hle := l.codeSize_le
  have hpos := i.size_pos
  have hcons : codeSize (i :: post) = i.size + codeSize post := rfl
  rw [hcode, codeSize_append] at hle
  rw [hcode]
  exact fetch_at pre i post _ (by omega)

variable {R : Kept → Cpu → Cpu → Prop} (hR : Sound p L m R)
include hR

theorem handlerRun_keeps (hidt : IdtKept p L m K s) (hrun : HandlerRun R K s t) : Keeps K s t := by
  induction hrun with
  | stop s => exact Keeps.refl K s
  | code hkeeps hrest ih => exact hkeeps.trans (ih (hidt.then hkeeps))
  | interrupt hnested hrest ih =>
    have hkeeps := (hR _ _ _ hidt hnested).2
    exact hkeeps.trans (ih (hidt.then hkeeps))

/-! ## A stub with interrupts in between -/

/-- How far a run of a stub has got from `s`: at `t`, with `done` behind it and
`rest` before it, and so is the stub alone from `q`. -/
structure Reached (L : Layout) (K : Kept) (top : UINT64) (floor : Nat) (l : StubLine) (h : Handler)
    (pre done rest : List Instr) (j k : Nat) (s q t : Cpu) : Prop where
  alike : Alike top t (execs h done q)
  rip : t.rip = L.addr l.label + BitVec.ofNat 64 (codeSize (pre ++ done))
  rsp : t.rsp = below top j
  bounds : floor ≤ j ∧ j ≤ 22
  depth : stackDepth floor 22 rest j = some k
  keeps : Keeps K s t
  fixed : Keeps (Room top floor) s t

/-- From machines alike, the stub with interrupts in between and the stub alone
get to machines alike. -/
theorem stubRun_reached {top : UINT64} {l : StubLine} {i : Instr} {pre is post : List Instr} {q : Cpu}
    {floor n k : Nat} (h : Handler) (hroom : ∀ a, Room top 23 a → ¬ K a) (hl : l ∈ stubLines)
    (hcode : l.code = pre ++ is ++ i :: post) (hi : ¬ i.Straight) (hrun : StubRun L R K top s t)
    (hidt : IdtKept p L m K s) (halike : Alike top s q)
    (hrip : s.rip = L.addr l.label + BitVec.ofNat 64 (codeSize pre)) (hrsp : s.rsp = below top n)
    (hbounds : floor ≤ n ∧ n ≤ 22) (hdepth : stackDepth floor 22 is n = some k) :
    ∃ done rest j, is = done ++ rest ∧ Reached L K top floor l h pre done rest j k s q t := by
  induction hrun generalizing pre is q n with
  | stop s =>
    exact ⟨[], is, n, rfl, halike, by rw [List.append_nil]; exact hrip, hrsp, hbounds, hdepth, Keeps.refl K s,
      Keeps.refl _ s⟩
  | @instr s t l' i' hinstr hstraight hrest ih =>
    rw [hrip] at hinstr
    cases is with
    | nil =>
      rw [List.append_nil] at hcode
      rw [fetchText_at hl hcode] at hinstr
      obtain ⟨-, rfl⟩ := Prod.mk.inj (Option.some.inj hinstr)
      exact absurd hstraight hi
    | cons j is =>
      obtain ⟨k', hj, hlater⟩ := Option.bind_eq_some_iff.mp hdepth
      split_ifs at hlater with hk'
      have hsplit : l.code = pre ++ [j] ++ is ++ i :: post := by simp [hcode]
      rw [List.append_assoc] at hcode
      rw [fetchText_at hl hcode] at hinstr
      obtain ⟨-, rfl⟩ := Prod.mk.inj (Option.some.inj hinstr)
      have hstep : Advanced top floor 22 s.mem (exec id j s) (exec h j q) k' :=
        exec_alike halike hrsp hj hbounds.1 hbounds.2 hk'.2 (by decide)
      have hkeeps : Keeps K s (exec id j s) := fun a ha =>
        hstep.frame a (.inr fun hin => hroom a (hin.mono (by decide) (by decide)) ha)
      have hfixed : Keeps (Room top floor) s (exec id j s) := fun a ha => hstep.frame a (.inl ha)
      have hnext : (exec id j s).rip = L.addr l.label + BitVec.ofNat 64 (codeSize (pre ++ [j])) := by
        have hone : codeSize [j] = j.size := rfl
        rw [exec_rip hstraight, hrip, codeSize_append, hone, BitVec.ofNat_add, BitVec.add_assoc]
      obtain ⟨done, rest, n', rfl, hreached⟩ :=
        ih hsplit (hidt.then hkeeps) hstep.alike hnext hstep.rsp hk' hlater
      have hpre : pre ++ [j] ++ done = pre ++ j :: done := by simp
      exact ⟨j :: done, rest, n', rfl, hreached.alike, hpre ▸ hreached.rip, hreached.rsp, hreached.bounds,
        hreached.depth, hkeeps.trans hreached.keeps, hfixed.trans hreached.fixed⟩
  | interrupt hnested hrest ih =>
    obtain ⟨hresumes, hkept⟩ := hR _ _ _ (hidt.more fun a ha => .inl ha) hnested
    have hkeeps := hkept.mono fun a (ha : K a) => .inl ha
    have hfixed : Keeps (Room top floor) _ _ := hkept.mono fun a ha =>
      .inr ((live_iff_room hrsp (by omega)).mpr (ha.mono hbounds.1 (by omega)))
    have halike' : Alike top _ q := alike_of_resumes halike hresumes fun a ha => hkept a (.inr ha)
    obtain ⟨done, rest, n', his, hreached⟩ := ih hcode (hidt.then hkeeps) halike'
      (hresumes.rip.trans hrip) ((congrFun hresumes.regs .rsp).trans hrsp) hbounds hdepth
    exact ⟨done, rest, n', his, hreached.alike, hreached.rip, hreached.rsp, hreached.bounds, hreached.depth,
      hkeeps.trans hreached.keeps, hfixed.trans hreached.fixed⟩

/-- A run up to a call or an `iretq` has done all of the straight code. -/
theorem stubRun_ends {top : UINT64} {l l' : StubLine} {i i' : Instr} {pre is post : List Instr} {q : Cpu}
    {floor n k : Nat} (h : Handler) (hroom : ∀ a, Room top 23 a → ¬ K a) (hl : l ∈ stubLines)
    (hcode : l.code = pre ++ is ++ i :: post) (hi : ¬ i.Straight) (hrun : StubRun L R K top s t)
    (hend : fetchText L t.rip = some (l', i')) (hi' : ¬ i'.Straight) (hidt : IdtKept p L m K s)
    (halike : Alike top s q) (hrip : s.rip = L.addr l.label + BitVec.ofNat 64 (codeSize pre))
    (hrsp : s.rsp = below top n) (hbounds : floor ≤ n ∧ n ≤ 22) (hdepth : stackDepth floor 22 is n = some k) :
    l' = l ∧ Reached L K top floor l h pre is [] k k s q t := by
  obtain ⟨done, rest, j, rfl, hreached⟩ :=
    stubRun_reached hR h hroom hl hcode hi hrun hidt halike hrip hrsp hbounds hdepth
  cases rest with
  | nil =>
    obtain rfl : j = k := Option.some.inj hreached.depth
    rw [List.append_nil] at hcode ⊢
    rw [hreached.rip, fetchText_at hl hcode] at hend
    exact ⟨(Prod.mk.inj (Option.some.inj hend)).1.symm, hreached⟩
  | cons i'' rest =>
    -- the next instruction would be straight
    obtain ⟨k', hk', -⟩ := Option.bind_eq_some_iff.mp hreached.depth
    have hsplit : l.code = (pre ++ done) ++ i'' :: (rest ++ i :: post) := by simp [hcode]
    rw [hreached.rip, fetchText_at hl hsplit] at hend
    obtain ⟨-, rfl⟩ := Prod.mk.inj (Option.some.inj hend)
    exact absurd (straight_of_depth hk') hi'

/-! ## From the entry of a stub to its return -/

/-- In the stub of `l`, with `is` between it and the call. -/
structure BeforeCall (L : Layout) (top : UINT64) (l : StubLine) (pre is : List Instr) (n : Nat) (q : Cpu) : Prop where
  stub : l ∈ stubLines
  entry : l.kind.entry (BitVec.ofNat 8 l.num) = pre ++ is
  rip : q.rip = L.addr l.label + BitVec.ofNat 64 (codeSize pre)
  rsp : q.rsp = below top n
  bounds : 5 ≤ n ∧ n ≤ 22
  depth : stackDepth 5 22 is n = some l.kind.frame.length

omit hR in
theorem BeforeCall.code {top : UINT64} {l : StubLine} {pre is : List Instr} {n : Nat} {q : Cpu}
    (h : BeforeCall L top l pre is n q) : l.code = pre ++ is ++ .callq :: (l.kind.exit ++ [.iretq]) := by
  rw [StubLine.code, l.kind.code_eq, h.entry]

omit hR in
/-- From the words of the delivery a stub pushes its frame, and no more. -/
theorem entry_depth (kind : Stub) (num : UINT8) (code : UINT64) (s : Cpu) :
    stackDepth 5 22 (kind.entry num) (s.pushedFrame (kind.errorCode code)).length = some kind.frame.length := by
  cases kind with
  | USER_ISR => rfl
  | CPU_ISR => rfl
  | CPU_EXC => rfl

omit hR in
theorem exit_depth (kind : Stub) : stackDepth 5 22 kind.exit kind.frame.length = some 5 := by
  cases kind with
  | USER_ISR => rfl
  | CPU_ISR => rfl
  | CPU_EXC => rfl

omit hR in
theorem frame_length_ge (kind : Stub) : 5 ≤ kind.frame.length ∧ kind.frame.length ≤ 22 := by
  cases kind <;> decide

variable {l : StubLine} {top : UINT64} {c d y e : Cpu}

omit hR in
theorem called_rsp {n : Nat} (hrsp : c.rsp = below top n) : c.called.rsp = below top (n + 1) := by
  rw [Cpu.called, Cpu.push_rsp, hrsp]
  exact below_add top n 1

omit hR in
/-- The return address goes below the frame. -/
theorem called_outside {n : Nat} {a : UINT64} (hrsp : c.rsp = below top n)
    (ha : ¬ (a - below top (n + 1)).toNat < 8) : c.called.mem a = c.mem a := by
  have hone : c.rsp - 8#64 = below top (n + 1) := by
    rw [hrsp]
    exact below_add top n 1
  rw [Cpu.called, Cpu.push_mem, hone]
  exact store64_outside ha

omit hR in
/-- A handler that keeps what is on the stack and gives RSP back returns behind
the call. -/
theorem returns_of_keeps {n : Nat} (hrsp : c.rsp = below top n) (hn : n ≤ 22) (hyrsp : y.rsp = c.called.rsp)
    (hkeeps : Keeps (Live top c.called) c.called y) :
    (exec (fun _ => y) .callq c).rip = c.rip + BitVec.ofNat 64 Instr.callq.size ∧
      (exec (fun _ => y) .callq c).rsp = c.rsp := by
  have hcalled := called_rsp hrsp
  have hword : load64 y.mem y.rsp = load64 c.called.mem c.called.rsp := by
    rw [hyrsp, load64, load64]
    refine congrArg (BitVec.ofNat 64) (load_congr fun i hi => hkeeps _ ?_)
    rw [live_iff_room hcalled (by omega), hcalled, Room, add_ofNat_sub _ (by omega)]
    omega
  refine ⟨?_, ?_⟩
  · have hrip : (exec (fun _ => y) .callq c).rip = load64 y.mem y.rsp := rfl
    rw [hrip, hword, Cpu.called, Cpu.push_rsp, Cpu.push_mem, load64_store64]
  · have hset : (exec (fun _ => y) .callq c).rsp = y.rsp + 8#64 := Cpu.setReg_same y .rsp _
    rw [hset, hyrsp, Cpu.called, Cpu.push_rsp, BitVec.sub_add_cancel]

/-- What a pass leaves, begun at `d` with `is` before the call: RSP at the words
of the delivery, which are as they were. The stub keeps `K`, the handler `Kh`. -/
structure PassEnds (K Kh : Kept) (top : UINT64) (l : StubLine) (is : List Instr) (d c y e : Cpu) : Prop where
  call : Alike top c (execs id is d)
  call_rsp : c.rsp = below top l.kind.frame.length
  entry_keeps : Keeps K d c.called
  body : Keeps (StackKept Kh top c) c.called y
  alike : Alike top e (execs (fun _ => y) l.kind.exit (exec (fun _ => y) .callq c))
  rsp : e.rsp = below top 5
  exit_keeps : Keeps K y e
  keeps : Keeps Kh d e
  fixed : Keeps (Room top 5) d e

theorem StubPass.ends {Kh : Kept} {k : StubLine} {pre is : List Instr} {n : Nat} (hsub : ∀ a, Kh a → K a)
    (hd : BeforeCall L top k pre is n d) (hidt : IdtKept p L m Kh d) (h : StubPass L R K top l d c y e)
    (hhandler : IdtKept p L m (StackKept Kh top c) c.called → Keeps (StackKept Kh top c) c.called y) :
    l = k ∧ PassEnds K Kh top k is d c y e := by
  obtain ⟨hge, hle⟩ := frame_length_ge k.kind
  have hroom := h.room
  obtain ⟨rfl, hc⟩ := stubRun_ends hR id hroom hd.stub hd.code (fun hs => hs.1 rfl) h.entry h.call
    (fun hs => hs.1 rfl) (hidt.more hsub) (Alike.refl top d) hd.rip hd.rsp hd.bounds hd.depth
  have hcalled := called_rsp hc.rsp
  have hpush : Keeps K c c.called := fun a ha => called_outside hc.rsp fun hin =>
    hroom a (Room.mono ((room_succ (by omega)).mpr (.inl hin)) (by omega) (by decide)) ha
  have hpushed : Keeps (Room top 5) c c.called := fun a ha => called_outside hc.rsp fun hin =>
    not_room_of_last (by omega) hin (ha.mono hge (by omega))
  have hcall := hc.keeps.trans hpush
  have hbody := hhandler ((hidt.then (hcall.mono hsub)).more fun a ha => .inl ha)
  have hlive : Keeps (Live top c.called) c.called y := hbody.mono fun a ha => .inr ha
  obtain ⟨hback, hbackrsp⟩ := returns_of_keeps hc.rsp hle h.rsp hlive
  have hkept : Keeps Kh d y := (hcall.mono hsub).trans (hbody.mono fun a ha => .inl ha)
  have hfixed : Keeps (Room top 5) d y :=
    (hc.fixed.trans hpushed).trans (hlive.mono fun a ha =>
      (live_iff_room hcalled (by omega)).mpr (ha.mono (by omega) (by omega)))
  have hsplit : l.code = (pre ++ is ++ [.callq]) ++ l.kind.exit ++ .iretq :: [] := by simp [hd.code]
  have hstart : (exec (fun _ => y) .callq c).rip = L.addr l.label +
      BitVec.ofNat 64 (codeSize (pre ++ is ++ [.callq])) := by
    have hone : codeSize [.callq] = Instr.callq.size := rfl
    rw [hback, hc.rip, codeSize_append (pre ++ is), hone, BitVec.ofNat_add, BitVec.add_assoc]
  have hreturned : IdtKept p L m K (exec (fun _ => y) .callq c) := ((hidt.then hkept).more hsub).then fun _ _ => rfl
  obtain ⟨-, he⟩ := stubRun_ends hR (fun _ => y) hroom hd.stub hsplit (fun hs => hs.2 rfl) h.exit h.iretq
    (fun hs => hs.2 rfl) hreturned (Alike.refl top _) hstart (hbackrsp.trans hc.rsp) ⟨hge, hle⟩
    (exit_depth l.kind)
  exact ⟨rfl, hc.alike, hc.rsp, hcall, hbody, he.alike, he.rsp, he.keeps, hkept.trans (he.keeps.mono hsub),
    hfixed.trans he.fixed⟩

/-! ## One level -/

omit hR in
theorem pushedFrame_length (error : Option UINT64) :
    5 ≤ (s.pushedFrame error).length ∧ (s.pushedFrame error).length ≤ 6 := by
  cases error with
  | none => exact ⟨Nat.le_refl 5, Nat.le_succ 5⟩
  | some code => exact ⟨Nat.le_succ 5, Nat.le_refl 6⟩

omit hR in
/-- A delivery that has room writes there. -/
theorem interrupt_keeps {v : Fin 256} (code : UINT64) (htop : stackOf m v s = top)
    (hroom : ∀ a, Room top 23 a → ¬ K a) : Keeps K s (interrupt m v code s) := by
  intro a ha
  refine (interrupt_frame m v code s).2 a fun hin => ?_
  rw [deliver] at hin
  cases hcode : pushesErrorCode v with
  | true =>
    rw [hcode] at hin
    have hplace : Room (stackOf m v s) 6 a := hin
    exact hroom a ((htop ▸ hplace).mono (by decide) (by decide)) ha
  | false =>
    rw [hcode] at hin
    have hplace : Room (stackOf m v s) 5 a := hin
    exact hroom a ((htop ▸ hplace).mono (by decide) (by decide)) ha

omit hR in
/-- A delivery gets to the first instruction of its stub. -/
theorem beforeCall_of_delivery {v : Fin 256} (hl : Lines v l) (hv : ¬ OffByOne v) (code : UINT64)
    (hidt : IdtKept p L m K s) (htop : stackOf (InitializeISR p L.pusher m) v s = top) :
    ∃ n, BeforeCall L top l [] (l.kind.entry (BitVec.ofNat 8 l.num)) n
      (interrupt (InitializeISR p L.pusher m) v code s) := by
  rw [interrupt_eq p L m hl code hidt.intact, hl.errorCode code hv]
  obtain ⟨hfive, hsix⟩ := pushedFrame_length (s := s) (l.kind.errorCode code)
  refine ⟨_, hl.stub, rfl, (BitVec.add_zero _).symm, ?_, ⟨hfive, by omega⟩, entry_depth l.kind _ code s⟩
  rw [← htop]
  exact Cpu.setReg_same s .rsp _

omit hR in
theorem structSize_frame (kind : Stub) : structSize (words kind.frame) = 8 * kind.frame.length := by
  cases kind with
  | USER_ISR => rfl
  | CPU_ISR => rfl
  | CPU_EXC => rfl

omit hR in
/-- A handler that keeps what is on the stack returns with the frame. -/
theorem handlerReturns_of_keeps {kind : Stub} (hrsp : c.rsp = below top kind.frame.length)
    (hrdi : c.regs .rdi = c.rsp) (hyrsp : y.rsp = c.called.rsp) (hkeeps : Keeps (Live top c.called) c.called y) :
    HandlerReturns kind c y := by
  have hlen := frame_length_le kind
  have hcalled := called_rsp hrsp
  have hroom : ∀ a, Room top (kind.frame.length + 1) a → y.mem a = c.called.mem a := fun a ha =>
    hkeeps a ((live_iff_room hcalled (by omega)).mpr ha)
  refine ⟨hyrsp, ?_, fun i hi => hroom _ ?_⟩
  · rw [hyrsp, load64, load64]
    refine congrArg (BitVec.ofNat 64) (load_congr fun i hi => hroom _ ?_)
    rw [hcalled, Room, add_ofNat_sub _ (by omega)]
    omega
  · rw [structSize_frame] at hi
    have hin : Room top kind.frame.length (c.regs .rdi + BitVec.ofNat 64 i) := by
      rw [hrdi, hrsp, Room, add_ofNat_sub _ (by omega)]
      exact hi
    exact hin.mono (Nat.le_succ _) (by omega)

variable {v : Fin 256} {code : UINT64} {Kh : Kept}

/-- The registers of `s` are back at the `iretq` of `v`, and so are the words of
the delivery; what is kept is so up to the handler, in it and behind it. -/
structure AtReturn (K Kh : Kept) (s : Cpu) (v : Fin 256) (code top : UINT64) (l : StubLine) (c y e : Cpu) : Prop where
  lines : Lines v l
  rsp : e.rsp = below top 5
  regs : ∀ r, r ≠ .rsp → e.regs r = s.regs r
  words : ∀ f ∈ iretqFields, load64 e.mem (e.rsp + BitVec.ofNat 64 (8 * iretqFields.idxOf f)) =
    frameValue s (BitVec.ofNat 8 v) code f
  entry_keeps : Keeps K s c.called
  body : Keeps (StackKept Kh top c) c.called y
  exit_keeps : Keeps K y e
  keeps : Keeps Kh s e

theorem StubPass.atReturn (hv : ¬ OffByOne v) (hsub : ∀ a, Kh a → K a) (hidt : IdtKept p L m Kh s)
    (h : StubPass L R K (stackOf (InitializeISR p L.pusher m) v s) l
      (interrupt (InitializeISR p L.pusher m) v code s) c y e)
    (hhandler : IdtKept p L m (StackKept Kh (stackOf (InitializeISR p L.pusher m) v s) c) c.called →
      Keeps (StackKept Kh (stackOf (InitializeISR p L.pusher m) v s) c) c.called y) :
    AtReturn K Kh s v code (stackOf (InitializeISR p L.pusher m) v s) l c y e := by
  obtain ⟨k, hk⟩ := exists_lines v.isLt
  obtain ⟨stack, hstack⟩ : ∃ stack, stack = loadedStack { InitializeISR p L.pusher m with mem := s.mem } v s.rsp :=
    ⟨_, rfl⟩
  have hdeliver := interrupt_eq p L m hk code hidt.intact
  rw [hk.errorCode code hv, ← hstack] at hdeliver
  obtain ⟨_, hd⟩ := beforeCall_of_delivery hk hv code hidt rfl
  have hdkeeps := interrupt_keeps code rfl h.room
  obtain ⟨num, hnum⟩ : ∃ num, num = BitVec.ofNat 8 v.val := ⟨_, rfl⟩
  rw [hk.num, ← hnum] at hd
  generalize stackOf (InitializeISR p L.pusher m) v s = top at h hd hhandler ⊢
  generalize interrupt (InitializeISR p L.pusher m) v code s = d at h hd hdkeeps hdeliver
  obtain ⟨rfl, he⟩ := h.ends hR hsub hd (hidt.then (hdkeeps.mono hsub)) hhandler
  -- the handler has the frame
  have hlen := frame_length_le l.kind
  have hrdi : c.regs .rdi = c.rsp :=
    (congrFun he.call.regs .rdi).trans ((atCall_rdi id num l.kind d).trans he.call.rsp.symm)
  have hwords : ∀ f ∈ l.kind.frame, load64 c.mem (c.rsp + BitVec.ofNat 64 (8 * l.kind.frame.idxOf f)) =
      frameValue s num code f := by
    intro f hf
    rw [he.call.load he.call_rsp (by omega) (List.idxOf_lt_length_of_mem hf)]
    have hshown := atCall_shown id s ⟨L.addr l.label, 8, true⟩ stack code num hk hf
    rw [shownField, if_neg hv, hk.errorCode code hv, ← hdeliver] at hshown
    exact hshown
  have hreturns := handlerReturns_of_keeps he.call_rsp hrdi h.rsp (he.body.mono fun a ha => .inr ha)
  obtain ⟨hregs, hback⟩ := iretq_finds (h := fun _ => y) hreturns hrdi hwords
  refine ⟨hk, he.rsp, fun r hr => ?_, fun f hf => ?_, hdkeeps.trans he.entry_keeps, he.body, he.exit_keeps,
    (hdkeeps.mono hsub).trans he.keeps⟩
  · rw [he.alike.regs]
    exact hregs r hr
  · have hidx : iretqFields.idxOf f < 5 := List.idxOf_lt_length_of_mem hf
    rw [he.alike.load he.rsp (by decide) hidx, ← hnum]
    exact hback f hf

omit hR in
theorem AtReturn.resumes {top : UINT64} (h : AtReturn K Kh s v code top l c y e) : Resumes s (exec id .iretq e) := by
  obtain ⟨hregs, hrip, hcs, hflags, hss⟩ := iretq_resumes_of_fields (h := id) h.regs h.words
  exact ⟨hregs, hrip, hcs, hflags, hss⟩

end

/-! ## Handling one interrupt -/

section
variable {p : Placement} {L : Layout} {m : Machine} {R : Kept → Cpu → Cpu → Prop} {K : Kept} {s : Cpu}

/-- Straight code of a stub is a run of it, and ends behind it. -/
theorem stubRun_straight {top : UINT64} {l : StubLine} {pre is post : List Instr} (hl : l ∈ stubLines)
    (hcode : l.code = pre ++ is ++ post) (his : ∀ i ∈ is, i.Straight)
    (hrip : s.rip = L.addr l.label + BitVec.ofNat 64 (codeSize pre)) :
    StubRun L R K top s (execs id is s) ∧
      (execs id is s).rip = L.addr l.label + BitVec.ofNat 64 (codeSize (pre ++ is)) := by
  induction is generalizing pre s with
  | nil => exact ⟨.stop s, by rw [List.append_nil]; exact hrip⟩
  | cons i is ih =>
    have hi := his i List.mem_cons_self
    have hsplit : l.code = pre ++ [i] ++ is ++ post := by simp [hcode]
    have hnext : (exec id i s).rip = L.addr l.label + BitVec.ofNat 64 (codeSize (pre ++ [i])) := by
      have hone : codeSize [i] = i.size := rfl
      rw [exec_rip hi, hrip, codeSize_append, hone, BitVec.ofNat_add, BitVec.add_assoc]
    obtain ⟨hrun, hend⟩ := ih hsplit (fun j hj => his j (List.mem_cons_of_mem i hj)) hnext
    rw [List.append_assoc] at hcode
    have hfetch : fetchText L s.rip = some (l, i) := by
      rw [hrip]
      exact fetchText_at hl hcode
    refine ⟨.instr hfetch hi hrun, ?_⟩
    rw [List.append_assoc] at hend
    exact hend

/-- What a handler called on this stack has to keep. -/
def GivesBack (top : UINT64) (K : Kept) (handler : Handler) : Prop :=
  ∀ c n, n ≤ 23 → c.rsp = below top n → (handler c).rsp = c.rsp ∧ Keeps (fun a => K a ∨ Live top c a) c (handler c)

/-- With such a handler a stub before its call gets to its `iretq`. -/
theorem BeforeCall.exists_pass {top : UINT64} {l : StubLine} {pre is : List Instr} {n : Nat} {K Kh : Kept}
    (hs : BeforeCall L top l pre is n s) (hroom : ∀ a, Room top 23 a → ¬ K a) {handler : Handler}
    (hhandler : GivesBack top Kh handler) :
    ∃ c e, StubPass L R K top l s c (handler c.called) e ∧ c.called.rsp = below top (l.kind.frame.length + 1) := by
  have hstub : ∀ {q : Cpu} {pre is post : List Instr}, l.code = pre ++ is ++ post → (∀ i ∈ is, i.Straight) →
      q.rip = L.addr l.label + BitVec.ofNat 64 (codeSize pre) →
      StubRun L R K top q (execs id is q) ∧
        (execs id is q).rip = L.addr l.label + BitVec.ofNat 64 (codeSize (pre ++ is)) := stubRun_straight hs.stub
  -- the stub gets to its call
  obtain ⟨hentry, hcrip⟩ := hstub hs.code (fun i hi =>
    entry_straight l.kind _ i (hs.entry ▸ List.mem_append_right pre hi)) hs.rip
  have hcrsp := execs_rsp (h := id) hs.rsp hs.bounds.1 hs.bounds.2 (by decide) hs.depth
  generalize execs id is s = c at hentry hcrip hcrsp
  have hcall := fetchText_at (L := L) hs.stub hs.code
  rw [← hcrip] at hcall
  -- the handler returns to it
  obtain ⟨-, hlen⟩ := frame_length_ge l.kind
  have hcalled := called_rsp hcrsp
  obtain ⟨y, hy⟩ : ∃ y, y = handler c.called := ⟨_, rfl⟩
  obtain ⟨hrsp, hkeeps⟩ := hhandler c.called _ (by omega) hcalled
  rw [← hy] at hrsp hkeeps
  obtain ⟨hreturn, -⟩ := returns_of_keeps hcrsp hlen hrsp (hkeeps.mono fun a ha => .inr ha)
  have hback : (exec (fun _ => y) .callq c).rip =
      L.addr l.label + BitVec.ofNat 64 (codeSize (pre ++ is ++ [.callq])) := by
    have hone : codeSize [.callq] = Instr.callq.size := rfl
    rw [hreturn, hcrip, codeSize_append (pre ++ is), hone, BitVec.ofNat_add, BitVec.add_assoc]
  have hsplit : l.code = (pre ++ is ++ [.callq]) ++ l.kind.exit ++ .iretq :: [] := by simp [hs.code]
  obtain ⟨hexit, herip⟩ := hstub hsplit (exit_straight l.kind) hback
  have hiretq := fetchText_at (L := L) hs.stub hsplit
  rw [← herip] at hiretq
  exact ⟨c, _, ⟨hroom, hentry, hcall, hy ▸ hrsp, hy ▸ hexit, hiretq⟩, hcalled⟩

/-- A delivery that finds room, with a handler that keeps what it should, gets to
the `iretq`. -/
theorem exists_pass {v : Fin 256} (hv : ¬ OffByOne v) (code : UINT64) {K Kh : Kept} (handlers : HandlerName → Handler)
    (hidt : IdtKept p L m Kh s)
    (hroom : ∀ a, Room (stackOf (InitializeISR p L.pusher m) v s) 23 a → ¬ K a)
    (hhandlers : ∀ name, GivesBack (stackOf (InitializeISR p L.pusher m) v s) Kh (handlers name)) :
    ∃ l c e, StubPass L R K (stackOf (InitializeISR p L.pusher m) v s) l
        (interrupt (InitializeISR p L.pusher m) v code s) c (handlers l.name c.called) e ∧
      ∃ n, n ≤ 23 ∧ c.called.rsp = below (stackOf (InitializeISR p L.pusher m) v s) n := by
  obtain ⟨l, hl⟩ := exists_lines v.isLt
  obtain ⟨_, hd⟩ := beforeCall_of_delivery hl hv code hidt rfl
  obtain ⟨c, e, hpass, hrsp⟩ := hd.exists_pass hroom (hhandlers l.name)
  obtain ⟨-, hlen⟩ := frame_length_ge l.kind
  exact ⟨l, c, e, hpass, _, by omega, hrsp⟩

end

theorem handled_sound (p : Placement) (L : Layout) (m : Machine) (n : Nat) :
    Sound p L m (Handled L (InitializeISR p L.pusher m) n) := by
  induction n with
  | zero => exact fun K s t _ hrun => absurd hrun id
  | succ n ih =>
    intro K s t hidt hrun
    obtain ⟨v, code, l, c, y, e, hv, hpass, hbody, rfl⟩ := hrun
    have he := hpass.atReturn ih hv (fun a ha => ha) hidt fun hcalled => handlerRun_keeps ih hcalled hbody
    exact ⟨he.resumes, he.keeps⟩

/-- **Interrupts nest.** Wherever the tables and the stubs lie, and whatever
interrupts come in the stubs and the handlers, however deep: an interrupt that
is handled resumes the interrupted program, and memory that is kept is as it
was. Where a delivery of any vector but 21 and 29 has room for its frame and the
handler keeps what it should, the interrupt is handled. Memory is flat, and all
of it can be written: the stack of vector 2, whose pointer `InitializeISR` never
sets, counts as room like any other. -/
theorem interrupts_nest (p : Placement) (L : Layout) (m : Machine) (K : Kept) (s : Cpu)
    (hidt : IdtKept p L m K s) :
    let kernel := InitializeISR p L.pusher m
    (∀ n t, Handled L kernel n K s t → Resumes s t ∧ Keeps K s t) ∧
      ∀ (v : Fin 256) (code : UINT64) (handlers : HandlerName → Handler) (n : Nat), ¬ OffByOne v →
        (∀ a, Room (stackOf kernel v s) 23 a → ¬ K a) →
        (∀ name, GivesBack (stackOf kernel v s) K (handlers name)) →
        ∃ l c e, StubPass L (Handled L kernel n) K (stackOf kernel v s) l (interrupt kernel v code s) c
            (handlers l.name c.called) e ∧
          Handled L kernel (n + 1) K s (exec id .iretq e) := by
  intro kernel
  refine ⟨fun n t h => handled_sound p L m n K s t hidt h, fun v code handlers n hv hroom hhandlers => ?_⟩
  obtain ⟨l, c, e, hpass, k, hk, hrsp⟩ :=
    exists_pass (R := Handled L kernel n) hv code handlers hidt hroom hhandlers
  have hkeeps := (hhandlers l.name c.called k hk hrsp).2
  exact ⟨l, c, e, hpass, v, code, l, c, _, e, hv, hpass, .code hkeeps (.stop _), rfl⟩

/-- A stub that is resumed goes on before its call. -/
theorem BeforeCall.resumed {L : Layout} {top : UINT64} {l : StubLine} {pre is : List Instr} {n : Nat} {s t : Cpu}
    (h : BeforeCall L top l pre is n s) (hr : Resumes s t) : BeforeCall L top l pre is n t :=
  ⟨h.stub, h.entry, hr.rip.trans h.rip, (congrFun hr.regs .rsp).trans h.rsp, h.bounds, h.depth⟩

section
variable {p : Placement} {L : Layout} {m : Machine} {K : Kept} {s : Cpu}
  (htables : ∀ a, TableBytes p a → s.mem a = (InitializeISR p L.pusher m).mem a)
include htables

theorem idtKept_of_tables (hK : ∀ a, TableBytes p a → K a) : IdtKept p L m K s :=
  ⟨fun _ hi => hK _ (tableBytes_idt p hi), fun _ hi => htables _ (tableBytes_idt p hi)⟩

/-- With the tables in place, the double fault and the machine check come in on
`DF_stack`. -/
theorem stackOf_shared {v : Fin 256} (hv : v = 8 ∨ v = 18) :
    stackOf (InitializeISR p L.pusher m) v s = alignStack (stackTop p.DF_stack) := by
  rw [stackOf, loadedStack_congr p L.pusher m htables]
  rcases hv with rfl | rfl
  · exact congrArg alignStack (loadedStack_df p L.pusher m s.rsp)
  · exact congrArg alignStack (loadedStack_mc p L.pusher m s.rsp)

/-- And the breakpoint on `MC_stack`. -/
theorem stackOf_bp : stackOf (InitializeISR p L.pusher m) 3 s = alignStack (stackTop p.MC_stack) := by
  rw [stackOf, loadedStack_congr p L.pusher m htables]
  exact congrArg alignStack (loadedStack_bp p L.pusher m s.rsp)

end

/-- The top words of `DF_stack` are off the tables. -/
theorem df_room_tables (a : UINT64) (ha : Room (alignStack (stackTop higherHalf.DF_stack)) 23 a) :
    ¬ TableBytes higherHalf a := by
  rintro ⟨e, he, hin⟩
  have hgap : ∀ e ∈ higherHalf.extents.take 3,
      8 * 23 + e.2 ≤ (alignStack (stackTop higherHalf.DF_stack) - e.1).toNat := by decide
  exact ha.apart (hgap e he) hin

/-- A double fault on an idle machine with the tables kept, and a breakpoint at
the first instruction of its stub: that is handled up to `q`, and then the stub
gets to its `iretq`. -/
theorem interrupts_nest_idle :
    let kernel := InitializeISR higherHalf spaced.pusher (atEntry higherHalf.toObjects)
    let top := alignStack (stackTop higherHalf.DF_stack)
    let K := TableBytes higherHalf
    let d := interrupt kernel 8 0 (idleOn kernel)
    ∃ q l c y e, Handled spaced kernel 1 (fun a => K a ∨ Live top d a) d q ∧
      StubPass spaced (Handled spaced kernel 1) K top l q c y e ∧
      Handled spaced kernel 2 K (idleOn kernel) (exec id .iretq e) ∧
      Resumes (idleOn kernel) (exec id .iretq e) := by
  intro kernel top K d
  have hidle : ∀ a, TableBytes higherHalf a → (idleOn kernel).mem a = kernel.mem a := fun a _ => by rw [idleOn_mem]
  have hkept := idtKept_of_tables hidle fun _ ha => ha
  have htop : stackOf kernel 8 (idleOn kernel) = top := stackOf_shared hidle (.inl rfl)
  -- the delivery of the double fault
  have htables : ∀ a, TableBytes higherHalf a → d.mem a = kernel.mem a := fun a ha =>
    (interrupt_keeps 0 htop df_room_tables a ha).trans (hidle a ha)
  obtain ⟨l, hl⟩ := exists_lines (v := 8) (by decide)
  obtain ⟨n, hd⟩ := beforeCall_of_delivery (v := 8) hl (by decide) 0 hkept htop
  -- the breakpoint has a stack of its own
  obtain ⟨hsound, hexists⟩ := interrupts_nest higherHalf spaced (atEntry higherHalf.toObjects)
    (fun a => K a ∨ Live top d a) d (idtKept_of_tables htables fun _ ha => .inl ha)
  have hroom : ∀ a, Room (stackOf kernel 3 d) 23 a → ¬ (K a ∨ Live top d a) := by
    intro a ha
    rw [stackOf_bp htables] at ha
    rintro (⟨e, he, hin⟩ | hin)
    · have hgap : ∀ e ∈ higherHalf.extents.take 3,
          8 * 23 + e.2 ≤ (alignStack (stackTop higherHalf.MC_stack) - e.1).toNat := by decide
      exact ha.apart (hgap e he) hin
    · have hlive := (live_iff_room hd.rsp (by have := hd.bounds; omega)).mp hin
      exact ha.apart (by decide) (hlive.mono (Nat.le_succ_of_le hd.bounds.2) (by decide))
  obtain ⟨_, _, e, -, hbreak⟩ := hexists 3 0 (fun _ => id) 0 (by decide) hroom fun _ c _ _ _ => ⟨rfl, Keeps.refl _ c⟩
  -- the stub of the double fault goes on
  have hid : GivesBack top K id := fun c _ _ _ => ⟨rfl, Keeps.refl _ c⟩
  obtain ⟨c, e', hpass, -⟩ :=
    (hd.resumed (hsound 1 _ hbreak).1).exists_pass (R := Handled spaced kernel 1) df_room_tables hid
  have hall : StubPass spaced (Handled spaced kernel 1) K top l d c c.called e' :=
    ⟨hpass.room, .interrupt hbreak hpass.entry, hpass.call, hpass.rsp, hpass.exit, hpass.iretq⟩
  rw [← htop] at hall
  have ht : Handled spaced kernel 2 K (idleOn kernel) (exec id .iretq e') :=
    ⟨8, 0, l, c, c.called, e', by decide, hall, .stop _, rfl⟩
  obtain ⟨hsound, -⟩ := interrupts_nest higherHalf spaced (atEntry higherHalf.toObjects) K (idleOn kernel) hkept
  exact ⟨_, l, c, c.called, e', hbreak, hpass, ht, (hsound 2 _ ht).1⟩

end PiousOS.Kernel
