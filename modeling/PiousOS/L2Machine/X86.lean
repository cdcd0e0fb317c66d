import Mathlib.Logic.Function.Basic
import Mathlib.Logic.Relation
import PiousOS.Core.WordStack

/-!
# x86-64: the instructions of the interrupt stubs

The 64-bit machine as far as a stub of `ISR_asm.S` uses it: sixteen general
registers, RIP, CS, SS, RFLAGS and memory. `exec` is one instruction; code is
a list of instructions laid out at an address, fetched by RIP (`fetch`) and run
by `Steps`. A `callq` runs a whole C function, a parameter: what it leaves when
its `ret` is about to execute. `deliver` is an interrupt or exception
delivery to 64-bit mode without a change of privilege.

* `fetch_at`: RIP at the end of a prefix fetches the next instruction;
* `Steps.straight`: code without `callq` and `iretq` runs in order;
* `execs_pushq`, `execs_popq`: a row of pushes stores the registers below the
  stack pointer, a row of pops loads them back.
-/
namespace PiousOS.X86
open ByteMem

inductive Reg where
  | rax | rbx | rcx | rdx | rsi | rdi | rbp | rsp
  | r8 | r9 | r10 | r11 | r12 | r13 | r14 | r15
  deriving DecidableEq, Repr

structure Cpu where
  regs : Reg → UINT64
  rip : UINT64
  cs : UINT16
  ss : UINT16
  rflags : UINT64
  mem : ByteMem

namespace Cpu

def rsp (s : Cpu) : UINT64 := s.regs .rsp

def setReg (s : Cpu) (r : Reg) (v : UINT64) : Cpu :=
  { s with regs := Function.update s.regs r v }

def push (s : Cpu) (v : UINT64) : Cpu :=
  { s.setReg .rsp (s.rsp - 8#64) with mem := store64 s.mem (s.rsp - 8#64) v }

/-- The word on top of the stack, and the machine with it dropped. -/
def pop (s : Cpu) : UINT64 × Cpu := (load64 s.mem s.rsp, s.setReg .rsp (s.rsp + 8#64))

section
variable (s : Cpu) (r : Reg) (v : UINT64)

@[simp] theorem setReg_same : (s.setReg r v).regs r = v := Function.update_self ..

@[simp] theorem setReg_ne {q : Reg} (h : q ≠ r) : (s.setReg r v).regs q = s.regs q :=
  Function.update_of_ne h ..

@[simp] theorem push_rsp : (s.push v).rsp = s.rsp - 8#64 :=
  setReg_same s .rsp _

@[simp] theorem push_regs {q : Reg} (h : q ≠ .rsp) : (s.push v).regs q = s.regs q :=
  setReg_ne s .rsp _ h

@[simp] theorem push_mem : (s.push v).mem = store64 s.mem (s.rsp - 8#64) v := rfl

end

end Cpu

/-! ## Flags -/

def setFlag (bit : Nat) (on : Bool) (flags : UINT64) : UINT64 :=
  if on then flags ||| 1#64 <<< bit else flags &&& ~~~(1#64 <<< bit)

/-- CF, PF, AF, ZF, SF and OF after `a + b`. -/
def addFlags (a b flags : UINT64) : UINT64 :=
  let sum := a + b
  let ones := (List.range 8).countP fun i => sum.getLsbD i
  flags
    |> setFlag 0 (sum.ult a)
    |> setFlag 2 (ones % 2 = 0)
    |> setFlag 4 ((a ^^^ b ^^^ sum).getLsbD 4)
    |> setFlag 6 (sum = 0#64)
    |> setFlag 7 sum.msb
    |> setFlag 11 (a.msb = b.msb ∧ sum.msb ≠ a.msb)

/-! ## Instructions -/

/-- Operands in the order of the assembler: source first. -/
inductive Instr where
  | pushq (r : Reg)
  | pushqImm (n : UINT32)
  | popq (r : Reg)
  | movq (src dst : Reg)
  | movlImm (n : UINT32) (dst : Reg)
  | addqImm (n : UINT32) (dst : Reg)
  | cld
  | callq
  | iretq
  deriving DecidableEq, Repr

/-- A register whose one-byte `push` and `pop` need a REX prefix. -/
def Reg.extended (r : Reg) : Bool := r ∈ [.r8, .r9, .r10, .r11, .r12, .r13, .r14, .r15]

/-- An immediate that is encoded as one sign-extended byte. -/
def isImm8 (n : UINT32) : Bool := (n.setWidth 8).signExtend 32 = n

/-- The length of the encoding. -/
def Instr.size : Instr → Nat
  | .pushq r | .popq r => if r.extended then 2 else 1
  | .pushqImm n => if isImm8 n then 2 else 5
  | .movq _ _ => 3
  | .movlImm _ dst => if dst.extended then 6 else 5
  | .addqImm n _ => if isImm8 n then 4 else 7
  | .cld => 1
  | .callq => 5
  | .iretq => 2

theorem Instr.size_pos (i : Instr) : 0 < i.size := by
  unfold size
  split <;> first | decide | (split <;> decide)

theorem Instr.size_le (i : Instr) : i.size ≤ 7 := by
  unfold size
  split <;> first | decide | (split <;> decide)

/-- A called function: from the machine at its entry, return address on top of
the stack, to the machine as its `ret` is about to execute. -/
abbrev Handler := Cpu → Cpu

/-- The machine at the entry of the function that a `callq` at RIP calls. -/
def Cpu.called (s : Cpu) : Cpu := s.push (s.rip + BitVec.ofNat 64 Instr.callq.size)

/-- One instruction, with RIP at it. -/
def exec (h : Handler) (i : Instr) (s : Cpu) : Cpu :=
  let next := { s with rip := s.rip + BitVec.ofNat 64 i.size }
  match i with
  | .pushq r => next.push (s.regs r)
  | .pushqImm n => next.push (n.signExtend 64)
  | .popq r => next.pop.2.setReg r next.pop.1
  | .movq src dst => next.setReg dst (s.regs src)
  | .movlImm n dst => next.setReg dst (n.setWidth 64)
  | .addqImm n dst =>
    { next.setReg dst (s.regs dst + n.signExtend 64) with
      rflags := addFlags (s.regs dst) (n.signExtend 64) s.rflags }
  | .cld => { next with rflags := setFlag 10 false s.rflags }
  | .callq =>
    let returned := (h s.called).pop
    { returned.2 with rip := returned.1 }
  | .iretq =>
    let word := fun n => load64 s.mem (s.rsp + BitVec.ofNat 64 (8 * n))
    { s.setReg .rsp (word 3) with
      rip := word 0, cs := (word 1).setWidth 16, rflags := word 2, ss := (word 4).setWidth 16 }

def execs (h : Handler) (is : List Instr) (s : Cpu) : Cpu := is.foldl (fun s i => exec h i s) s

theorem execs_cons (h : Handler) (i : Instr) (is : List Instr) (s : Cpu) :
    execs h (i :: is) s = execs h is (exec h i s) := rfl

theorem execs_singleton (h : Handler) (i : Instr) (s : Cpu) : execs h [i] s = exec h i s := rfl

theorem execs_append (h : Handler) (is js : List Instr) (s : Cpu) :
    execs h (is ++ js) s = execs h js (execs h is s) := List.foldl_append ..

/-! ## Running code -/

def codeSize (code : List Instr) : Nat := (code.map Instr.size).sum

theorem codeSize_append (is js : List Instr) : codeSize (is ++ js) = codeSize is + codeSize js := by
  simp [codeSize]

theorem codeSize_le (code : List Instr) : codeSize code ≤ 7 * code.length := by
  induction code with
  | nil => exact Nat.le_refl 0
  | cons i code ih =>
    have := i.size_le
    have hcons : codeSize (i :: code) = i.size + codeSize code := rfl
    rw [hcons, List.length_cons]
    omega

/-- The instruction at `rip` of code laid out at `base`. -/
def fetch : List Instr → UINT64 → UINT64 → Option Instr
  | [], _, _ => none
  | i :: code, base, rip =>
    if rip = base then some i else fetch code (base + BitVec.ofNat 64 i.size) rip

/-- Behind `pre` stands the instruction that follows it. -/
theorem fetch_at (pre : List Instr) (i : Instr) (post : List Instr) (base : UINT64)
    (hsize : codeSize pre < 2 ^ 64) :
    fetch (pre ++ i :: post) base (base + BitVec.ofNat 64 (codeSize pre)) = some i := by
  induction pre generalizing base with
  | nil => simp [fetch, codeSize]
  | cons j pre ih =>
    have hcons : codeSize (j :: pre) = j.size + codeSize pre := rfl
    have hpos := j.size_pos
    rw [hcons] at hsize ⊢
    have hne : base + BitVec.ofNat 64 (j.size + codeSize pre) ≠ base := by
      intro heq
      have := congrArg BitVec.toNat heq
      rw [BitVec.toNat_add, BitVec.toNat_ofNat] at this
      have := base.isLt
      omega
    rw [List.cons_append, fetch, if_neg hne, BitVec.ofNat_add, ← BitVec.add_assoc]
    exact ih _ (by omega)

section Run
variable (h : Handler) (code : List Instr) (base : UINT64)

def step (s : Cpu) : Option Cpu := (fetch code base s.rip).map fun i => exec h i s

/-- Any number of steps of `code`, laid out at `base`. -/
def Steps : Cpu → Cpu → Prop := Relation.ReflTransGen fun s t => step h code base s = some t

end Run

def Instr.Straight (i : Instr) : Prop := i ≠ .callq ∧ i ≠ .iretq

instance (i : Instr) : Decidable i.Straight := inferInstanceAs (Decidable (_ ∧ _))

theorem exec_rip {i : Instr} (hi : i.Straight) (h : Handler) (s : Cpu) :
    (exec h i s).rip = s.rip + BitVec.ofNat 64 i.size := by
  cases i with
  | callq => exact absurd rfl hi.1
  | iretq => exact absurd rfl hi.2
  | _ => rfl

section
variable {h : Handler} {code : List Instr} {base : UINT64} {s t u : Cpu}

theorem Steps.trans (hst : Steps h code base s t) (htu : Steps h code base t u) :
    Steps h code base s u := Relation.ReflTransGen.trans hst htu

theorem Steps.one {i : Instr} (hf : fetch code base s.rip = some i) :
    Steps h code base s (exec h i s) :=
  Relation.ReflTransGen.single (by rw [step, hf]; rfl)

/-- Code without `callq` and `iretq` runs in order and leaves RIP behind it. -/
theorem Steps.straight {pre is : List Instr} (post : List Instr) (his : ∀ i ∈ is, i.Straight)
    (hsize : codeSize (pre ++ is) < 2 ^ 64)
    (hrip : s.rip = base + BitVec.ofNat 64 (codeSize pre)) :
    Steps h (pre ++ is ++ post) base s (execs h is s) ∧
      (execs h is s).rip = base + BitVec.ofNat 64 (codeSize (pre ++ is)) := by
  induction is generalizing pre s with
  | nil => exact ⟨Relation.ReflTransGen.refl, by rw [List.append_nil]; exact hrip⟩
  | cons i is ih =>
    have hsplit : pre ++ i :: is = (pre ++ [i]) ++ is := by simp
    have hone : codeSize (pre ++ [i]) = codeSize pre + i.size := by simp [codeSize]
    rw [hsplit] at hsize ⊢
    have hnext : (exec h i s).rip = base + BitVec.ofNat 64 (codeSize (pre ++ [i])) := by
      rw [exec_rip (his i (by simp)), hrip, hone, BitVec.ofNat_add, BitVec.add_assoc]
    have hfetch : fetch (pre ++ [i] ++ is ++ post) base s.rip = some i := by
      rw [hrip, List.append_assoc, List.append_assoc, List.singleton_append]
      exact fetch_at pre i (is ++ post) base (by rw [codeSize_append] at hsize; omega)
    obtain ⟨hsteps, hend⟩ := ih (fun j hj => his j (by simp [hj])) hsize hnext
    exact ⟨(Steps.one hfetch).trans hsteps, hend⟩

end

/-! ## Moves and sums -/

section
variable (h : Handler) (s : Cpu) (n : UINT32) (src : Reg) {q dst : Reg}

theorem exec_movq_same : (exec h (.movq src dst) s).regs dst = s.regs src := Cpu.setReg_same ..

theorem exec_movq_regs (hq : q ≠ dst) : (exec h (.movq src dst) s).regs q = s.regs q :=
  Cpu.setReg_ne _ _ _ hq

theorem exec_addqImm_same :
    (exec h (.addqImm n dst) s).regs dst = s.regs dst + n.signExtend 64 := Cpu.setReg_same ..

theorem exec_addqImm_regs (hq : q ≠ dst) : (exec h (.addqImm n dst) s).regs q = s.regs q :=
  Cpu.setReg_ne _ _ _ hq

theorem exec_addqImm_mem : (exec h (.addqImm n dst) s).mem = s.mem := rfl

theorem exec_movlImm_regs (hq : q ≠ dst) : (exec h (.movlImm n dst) s).regs q = s.regs q :=
  Cpu.setReg_ne _ _ _ hq

end

/-! ## Rows of pushes and pops -/

section Rows
variable (h : Handler) (s : Cpu) {rs : List Reg}

/-- The stack of `t` is that of `s` with the words `vs` pushed. -/
structure Pushed (s : Cpu) (vs : List UINT64) (t : Cpu) : Prop where
  mem : t.mem = pushWords s.mem s.rsp vs
  rsp : t.rsp = below s.rsp vs.length

theorem Pushed.refl (s : Cpu) : Pushed s [] s := ⟨rfl, (below_zero _).symm⟩

theorem Pushed.append {s t u : Cpu} {vs ws : List UINT64} (hst : Pushed s vs t)
    (htu : Pushed t ws u) : Pushed s (vs ++ ws) u where
  mem := by rw [pushWords_append, ← hst.mem, ← hst.rsp, htu.mem]
  rsp := by rw [htu.rsp, hst.rsp, below_add, List.length_append]

/-- An instruction that writes neither memory nor RSP. -/
theorem Pushed.then {s t u : Cpu} {vs : List UINT64} (hst : Pushed s vs t) (hmem : u.mem = t.mem)
    (hrsp : u.rsp = t.rsp) : Pushed s vs u := ⟨hmem.trans hst.mem, hrsp.trans hst.rsp⟩

/-- The words of a pushed struct, from the stack pointer up. -/
theorem Pushed.load {s t : Cpu} {F : Type} [DecidableEq F] {fs : List F} {val : F → UINT64} {f : F}
    (hst : Pushed s (pushOrder fs val) t) (hsize : 8 * fs.length ≤ 2 ^ 64) (hf : f ∈ fs) :
    load64 t.mem (t.rsp + BitVec.ofNat 64 (8 * fs.idxOf f)) = val f := by
  have hfield : loadField (pushWords s.mem s.rsp (pushOrder fs val)) (words fs) (below s.rsp fs.length) f =
      (val f).toNat := loadField_pushWords hsize hf
  have hrsp := hst.rsp
  rw [length_pushOrder] at hrsp
  rw [loadField_words _ hf, ← hrsp, ← hst.mem] at hfield
  rw [load64, hfield, BitVec.ofNat_toNat, BitVec.setWidth_eq]

theorem exec_pushq (r : Reg) : Pushed s [s.regs r] (exec h (.pushq r) s) :=
  ⟨rfl, Cpu.push_rsp ..⟩

theorem exec_pushqImm (n : UINT32) : Pushed s [n.signExtend 64] (exec h (.pushqImm n) s) :=
  ⟨rfl, Cpu.push_rsp ..⟩

theorem exec_pushq_regs {q r : Reg} (hq : q ≠ .rsp) :
    (exec h (.pushq r) s).regs q = s.regs q := Cpu.push_regs _ _ hq

theorem execs_pushq (hrsp : .rsp ∉ rs) :
    Pushed s (rs.map s.regs) (execs h (rs.map .pushq) s) := by
  induction rs generalizing s with
  | nil => exact Pushed.refl s
  | cons r rs ih =>
    rw [List.mem_cons, not_or] at hrsp
    have hregs : rs.map (exec h (.pushq r) s).regs = rs.map s.regs :=
      List.map_congr_left fun q hq => exec_pushq_regs h s fun heq => hrsp.2 (heq ▸ hq)
    have hrest := ih (exec h (.pushq r) s) hrsp.2
    rw [hregs] at hrest
    exact (exec_pushq h s r).append hrest

/-- `t` is `s` with the registers `rs` popped. -/
structure Popped (s : Cpu) (rs : List Reg) (t : Cpu) : Prop where
  mem : t.mem = s.mem
  rsp : t.rsp = s.rsp + BitVec.ofNat 64 (8 * rs.length)
  popped : ∀ r ∈ rs, t.regs r = load64 s.mem (s.rsp + BitVec.ofNat 64 (8 * rs.idxOf r))
  regs : ∀ r, r ∉ rs → r ≠ .rsp → t.regs r = s.regs r

theorem exec_popq {r : Reg} (hr : r ≠ .rsp) : Popped s [r] (exec h (.popq r) s) where
  mem := rfl
  rsp := (Cpu.setReg_ne _ _ _ hr.symm).trans (Cpu.setReg_same ..)
  popped q hq := by
    rw [List.mem_singleton] at hq
    subst hq
    rw [List.idxOf_cons_self, Nat.mul_zero, BitVec.add_zero]
    exact Cpu.setReg_same ..
  regs q hq hqr :=
    (Cpu.setReg_ne _ _ _ (List.ne_of_not_mem_cons hq)).trans (Cpu.setReg_ne _ _ _ hqr)

theorem Popped.cons {s t u : Cpu} {r : Reg} (hr : r ∉ rs) (hst : Popped s [r] t)
    (htu : Popped t rs u) (hrsp : r ≠ .rsp) : Popped s (r :: rs) u where
  mem := htu.mem.trans hst.mem
  rsp := by
    have hlen : 8 * [r].length + 8 * rs.length = 8 * (r :: rs).length := by
      rw [← Nat.mul_add, List.length_singleton, List.length_cons, Nat.add_comm]
    rw [htu.rsp, hst.rsp, BitVec.add_assoc, ← BitVec.ofNat_add, hlen]
  popped q hq := by
    by_cases h : q = r
    · subst h
      have hone := hst.popped q (List.mem_singleton_self q)
      rw [htu.regs q hr hrsp, hone, List.idxOf_cons_self, List.idxOf_cons_self]
    · have hidx : (r :: rs).idxOf q = 1 + rs.idxOf q := by
        rw [List.idxOf_cons_ne rs fun heq => h heq.symm, Nat.add_comm]
      rw [htu.popped q (List.mem_of_ne_of_mem h hq), hst.mem, hst.rsp, hidx, Nat.mul_add,
        BitVec.ofNat_add, ← BitVec.add_assoc, List.length_singleton]
  regs q hq hqr :=
    (htu.regs q (List.not_mem_of_not_mem_cons hq) hqr).trans
      (hst.regs q (fun hm => hq (List.mem_singleton.mp hm ▸ List.mem_cons_self)) hqr)

theorem execs_popq (hrsp : .rsp ∉ rs) (hnodup : rs.Nodup) :
    Popped s rs (execs h (rs.map .popq) s) := by
  induction rs generalizing s with
  | nil => exact ⟨rfl, (BitVec.add_zero _).symm, fun _ hr => (List.not_mem_nil hr).elim, fun _ _ _ => rfl⟩
  | cons r rs ih =>
    rw [List.mem_cons, not_or] at hrsp
    rw [List.nodup_cons] at hnodup
    have hr : r ≠ .rsp := fun heq => hrsp.1 heq.symm
    exact (exec_popq h s hr).cons hnodup.1 (ih (exec h (.popq r) s) hrsp.2 hnodup.2) hr

end Rows

/-! ## Delivery -/

/-- What a gate of the IDT says: where the stub is, its code segment, and
whether it is an interrupt gate. -/
structure Gate where
  offset : UINT64
  selector : UINT16
  clearsIF : Bool

/-- RFLAGS as delivery leaves it: TF, NT, RF and VM clear, IF as the gate says. -/
def Gate.flags (g : Gate) (flags : UINT64) : UINT64 :=
  let cleared := [8, 14, 16, 17].foldl (fun flags bit => setFlag bit false flags) flags
  if g.clearsIF then setFlag 9 false cleared else cleared

/-- The words a delivery pushes, the first one first. -/
def Cpu.pushedFrame (s : Cpu) (error : Option UINT64) : List UINT64 :=
  [s.ss.setWidth 64, s.rsp, s.rflags, s.cs.setWidth 64, s.rip] ++ error.toList

/-- The stack pointer aligned down to 16 bytes. -/
def alignStack (stack : UINT64) : UINT64 := stack &&& ~~~0xF#64

/-- Delivery through `g` on `stack`, the interrupted RSP or one of the TSS. -/
def Cpu.deliver (g : Gate) (stack : UINT64) (error : Option UINT64) (s : Cpu) : Cpu :=
  let frame := s.pushedFrame error
  { s.setReg .rsp (below (alignStack stack) frame.length) with
    rip := g.offset
    cs := g.selector
    rflags := g.flags s.rflags
    mem := pushWords s.mem (alignStack stack) frame }

theorem alignStack_mod (stack : UINT64) : (alignStack stack).toNat % 16 = 0 := by
  have hmask : (15#64).toNat = 2 ^ 4 - 1 := rfl
  have hand : (alignStack stack &&& 15#64).toNat = 0 := by
    rw [alignStack, BitVec.and_assoc]
    simp
  rwa [BitVec.toNat_and, hmask, Nat.and_two_pow_sub_one_eq_mod] at hand

/-- From a 16-byte aligned stack, an even number of words keeps the alignment. -/
theorem below_mod {sp : UINT64} (hsp : sp.toNat % 16 = 0) (n : Nat) :
    (below sp n).toNat % 16 = 8 * (n % 2) := by
  have := sp.isLt
  rw [below, BitVec.toNat_sub, BitVec.toNat_ofNat]
  omega

end PiousOS.X86
