import PiousOS.L2Machine.X86

/-!
# Interrupt stubs

The assembly stubs the IDT points to. `USER_ISR_MACRO` and `CPU_ISR_MACRO`
serve the vectors without an error code, `CPU_EXC_MACRO` those with one; each
saves the registers, calls a C handler with a pointer to the frame, restores
the registers and returns. The name argument of the macros only says which
handler the `callq` reaches.

* `atCall_pushed`: at the call the stack below the delivered pointer is the
  frame struct of `ISR.h`, field by field;
* `exit_restores`: after any handler that returns and keeps the frame, the
  stub is back at the delivered stack with the interrupted registers;
* `stub_transparent`: both along a run of the stub from the delivery;
* `call_aligned_iff`: which stubs call their handler on an aligned stack.
-/
namespace PiousOS.Kernel
open ByteMem X86

/-! ## Frames -/

/-- A field of the frame structs; `reg r` is the field named after `r`. -/
inductive FrameField where
  | isr_num | reg (r : Reg) | error_code | rip | cs | rflags | ss
  deriving DecidableEq

/-- mirrors arch/kernel/x86_64/ISR.h:76-104 -/
def INTERRUPT_FRAME : List FrameField :=
  [.isr_num,
   .reg .rax, .reg .rbx, .reg .rcx, .reg .rdx, .reg .rsi, .reg .rdi, .reg .r8, .reg .r9,
   .reg .r10, .reg .r11, .reg .r12, .reg .r13, .reg .r14, .reg .r15, .reg .rbp,
   .rip, .cs, .rflags, .reg .rsp, .ss]

/-- mirrors arch/kernel/x86_64/ISR.h:107-135 -/
def EXCEPTION_FRAME : List FrameField :=
  [.reg .rax, .reg .rbx, .reg .rcx, .reg .rdx, .reg .rsi, .reg .rdi, .reg .r8, .reg .r9,
   .reg .r10, .reg .r11, .reg .r12, .reg .r13, .reg .r14, .reg .r15, .reg .rbp,
   .isr_num, .error_code,
   .rip, .cs, .rflags, .reg .rsp, .ss]

/-- What a field says about the interrupted machine `s`, vector and error code. -/
def frameValue (s : Cpu) (num : UINT8) (code : UINT64) : FrameField → UINT64
  | .isr_num => num.setWidth 64
  | .reg r => s.regs r
  | .error_code => code
  | .rip => s.rip
  | .cs => s.cs.setWidth 64
  | .rflags => s.rflags
  | .ss => s.ss.setWidth 64

/-! ## Stubs -/

/-- mirrors arch/kernel/x86_64/ISR_asm.S:49-67 -/
def SAVE_ISR_REGISTERS : List Instr :=
  [.pushq .rbp, .movq .rsp .rbp, .pushq .r15, .pushq .r14, .pushq .r13, .pushq .r12, .pushq .r11,
   .pushq .r10, .pushq .r9, .pushq .r8, .pushq .rdi, .pushq .rsi, .pushq .rdx, .pushq .rcx,
   .pushq .rbx, .pushq .rax, .cld]

/-- mirrors arch/kernel/x86_64/ISR_asm.S:69-85 -/
def RESTORE_ISR_REGISTERS : List Instr :=
  [.popq .rax, .popq .rbx, .popq .rcx, .popq .rdx, .popq .rsi, .popq .rdi, .popq .r8, .popq .r9,
   .popq .r10, .popq .r11, .popq .r12, .popq .r13, .popq .r14, .popq .r15, .popq .rbp]

/-- The body that the two macros for vectors without error code share. -/
def isrBody (num : UINT8) : List Instr :=
  SAVE_ISR_REGISTERS ++
  [.pushqImm (num.setWidth 32), .movq .rsp .rdi, .movlImm 0#32 .rax, .callq, .addqImm 8#32 .rsp] ++
  RESTORE_ISR_REGISTERS ++
  [.iretq]

/-- mirrors arch/kernel/x86_64/ISR_asm.S:103-123 -/
def USER_ISR_MACRO (num : UINT8) : List Instr := isrBody num

/-- mirrors arch/kernel/x86_64/ISR_asm.S:129-150 -/
def CPU_ISR_MACRO (num : UINT8) : List Instr := isrBody num

/-- mirrors arch/kernel/x86_64/ISR_asm.S:156-177 -/
def CPU_EXC_MACRO (num : UINT8) : List Instr :=
  [.pushqImm (num.setWidth 32)] ++
  SAVE_ISR_REGISTERS ++
  [.movq .rsp .rdi, .movlImm 0#32 .rax, .callq] ++
  RESTORE_ISR_REGISTERS ++
  [.addqImm 16#32 .rsp, .iretq]

/-- The macro a stub is made by. -/
inductive Stub where
  | USER_ISR | CPU_ISR | CPU_EXC
  deriving DecidableEq

namespace Stub

def code : Stub → UINT8 → List Instr
  | USER_ISR => USER_ISR_MACRO
  | CPU_ISR => CPU_ISR_MACRO
  | CPU_EXC => CPU_EXC_MACRO

/-- The struct the handler's argument points to. -/
def frame : Stub → List FrameField
  | USER_ISR | CPU_ISR => INTERRUPT_FRAME
  | CPU_EXC => EXCEPTION_FRAME

/-- The error code the CPU pushes before it enters the stub. -/
def errorCode (m : Stub) (code : UINT64) : Option UINT64 :=
  if m = CPU_EXC then some code else none

/-- The stub up to its call. -/
def entry (m : Stub) (num : UINT8) : List Instr := (m.code num).takeWhile (· ≠ .callq)

/-- The stub from its call to its `iretq`. -/
def exit : Stub → List Instr
  | USER_ISR | CPU_ISR => .addqImm 8#32 .rsp :: RESTORE_ISR_REGISTERS
  | CPU_EXC => RESTORE_ISR_REGISTERS ++ [.addqImm 16#32 .rsp]

/-- The machine as the stub's `callq` executes, from the delivered machine. -/
def atCall (m : Stub) (h : Handler) (num : UINT8) (delivered : Cpu) : Cpu :=
  execs h (m.entry num) delivered

theorem code_eq (m : Stub) (num : UINT8) :
    m.code num = m.entry num ++ .callq :: (m.exit ++ [.iretq]) := by
  cases m with
  | USER_ISR => rfl
  | CPU_ISR => rfl
  | CPU_EXC => rfl

end Stub

/-- What a handler called by `c` leaves as its `ret` executes: RSP as at its
entry, where it also left its return address, and the frame as it was. -/
structure HandlerReturns (m : Stub) (c exit : Cpu) : Prop where
  rsp : exit.rsp = c.called.rsp
  returnAddress : load64 exit.mem exit.rsp = load64 c.called.mem c.called.rsp
  frame : ∀ i < structSize (words m.frame), exit.mem (c.regs .rdi + BitVec.ofNat 64 i) =
    c.called.mem (c.regs .rdi + BitVec.ofNat 64 i)

/-! ## Up to the call -/

/-- The registers that a stub saves, lowest first. -/
def savedRegs : List Reg :=
  [.rax, .rbx, .rcx, .rdx, .rsi, .rdi, .r8, .r9, .r10, .r11, .r12, .r13, .r14, .r15, .rbp]

section Entry
variable (h : Handler) (s : Cpu)

theorem SAVE_ISR_REGISTERS_eq : SAVE_ISR_REGISTERS =
    [.pushq .rbp] ++ [.movq .rsp .rbp] ++ (savedRegs.take 14).reverse.map .pushq ++ [.cld] := rfl

theorem exec_cld_pushed {s t : Cpu} {vs : List UINT64} (hst : Pushed s vs t) :
    Pushed s vs (exec h .cld t) := hst.then rfl rfl

/-- The registers are pushed as they are before the stub sets up RBP. -/
theorem SAVE_ISR_REGISTERS_pushed :
    Pushed s (pushOrder savedRegs s.regs) (execs h SAVE_ISR_REGISTERS s) := by
  rw [SAVE_ISR_REGISTERS_eq, execs_append, execs_append, execs_append]
  have hrbp : Pushed s [s.regs .rbp] (execs h [.movq .rsp .rbp] (execs h [.pushq .rbp] s)) :=
    (exec_pushq h s .rbp).then rfl (exec_movq_regs h _ .rsp (by decide : Reg.rsp ≠ .rbp))
  have hregs : ∀ r ∈ (savedRegs.take 14).reverse,
      (execs h [.movq .rsp .rbp] (execs h [.pushq .rbp] s)).regs r = s.regs r := by
    intro r hr
    have hne : r ≠ .rbp ∧ r ≠ .rsp := by
      revert r
      decide
    exact (exec_movq_regs h _ .rsp hne.1).trans (exec_pushq_regs h s hne.2)
  generalize execs h [.movq .rsp .rbp] (execs h [.pushq .rbp] s) = t at hrbp hregs
  have hrest := execs_pushq h t (by decide : .rsp ∉ (savedRegs.take 14).reverse)
  rw [List.map_congr_left hregs] at hrest
  exact exec_cld_pushed h (hrbp.append hrest)

/-- The argument registers: RDI points to the frame. -/
def passFrame : List Instr := [.movq .rsp .rdi, .movlImm 0#32 .rax]

theorem passFrame_rsp : (execs h passFrame s).rsp = s.rsp :=
  (exec_movlImm_regs h _ 0#32 (by decide : Reg.rsp ≠ .rax)).trans
    (exec_movq_regs h s .rsp (by decide : Reg.rsp ≠ .rdi))

theorem passFrame_rdi : (execs h passFrame s).regs .rdi = (execs h passFrame s).rsp := by
  have hrdi : (execs h passFrame s).regs .rdi = s.rsp :=
    (exec_movlImm_regs h _ 0#32 (by decide : Reg.rdi ≠ .rax)).trans (exec_movq_same h s .rsp)
  rw [hrdi, passFrame_rsp]

theorem passFrame_pushed {s t : Cpu} {vs : List UINT64} (hst : Pushed s vs t) :
    Pushed s vs (execs h passFrame t) := hst.then rfl (passFrame_rsp h t)

/-- A vector is a positive 32-bit immediate. -/
theorem vector_signExtend (num : UINT8) : (num.setWidth 32 : UINT32).signExtend 64 = num.setWidth 64 := by
  have hmsb : (num.setWidth 32 : UINT32).msb = false := by
    have := num.isLt
    rw [BitVec.msb_eq_false_iff_two_mul_lt, BitVec.toNat_setWidth]
    omega
  rw [BitVec.signExtend_eq_setWidth_of_msb_false hmsb]
  apply BitVec.eq_of_toNat_eq
  have := num.isLt
  simp only [BitVec.toNat_setWidth]
  omega

variable (g : Gate) (stack code : UINT64) (num : UINT8)

/-- Delivery pushes its frame on the aligned stack. -/
theorem deliver_pushed (error : Option UINT64) :
    Pushed (s.setReg .rsp (alignStack stack)) (s.pushedFrame error) (s.deliver g stack error) := by
  have htop : (s.setReg .rsp (alignStack stack)).rsp = alignStack stack := Cpu.setReg_same ..
  refine ⟨?_, ?_⟩
  · rw [htop]
    rfl
  · rw [htop]
    exact Cpu.setReg_same s .rsp _

theorem pushOrder_savedRegs {t : Cpu} (ht : ∀ r, r ≠ .rsp → t.regs r = s.regs r) :
    pushOrder savedRegs t.regs = pushOrder savedRegs s.regs := by
  refine List.map_congr_left fun r hr => ht r ?_
  revert r
  decide

theorem isrBody_pushed (d : Cpu) (hd : ∀ r, r ≠ .rsp → d.regs r = s.regs r) :
    Pushed d (pushOrder (.isr_num :: savedRegs.map .reg) (frameValue s num code))
      (execs h (SAVE_ISR_REGISTERS ++ [.pushqImm (num.setWidth 32)] ++ passFrame) d) := by
  rw [execs_append, execs_append]
  have hsaved := SAVE_ISR_REGISTERS_pushed h d
  rw [pushOrder_savedRegs s hd] at hsaved
  have hnum := exec_pushqImm h (execs h SAVE_ISR_REGISTERS d) (num.setWidth 32)
  rw [vector_signExtend] at hnum
  exact passFrame_pushed h (hsaved.append hnum)

theorem excBody_pushed (d : Cpu) (hd : ∀ r, r ≠ .rsp → d.regs r = s.regs r) :
    Pushed d (pushOrder (savedRegs.map .reg ++ [.isr_num]) (frameValue s num code))
      (execs h ([.pushqImm (num.setWidth 32)] ++ SAVE_ISR_REGISTERS ++ passFrame) d) := by
  rw [execs_append, execs_append]
  have hnum := exec_pushqImm h d (num.setWidth 32)
  rw [vector_signExtend] at hnum
  have hregs : ∀ r, r ≠ .rsp → (execs h [.pushqImm (num.setWidth 32)] d).regs r = s.regs r :=
    fun r hr => (Cpu.push_regs _ _ hr).trans (hd r hr)
  have hsaved := SAVE_ISR_REGISTERS_pushed h (execs h [.pushqImm (num.setWidth 32)] d)
  rw [pushOrder_savedRegs s hregs] at hsaved
  exact passFrame_pushed h (hnum.append hsaved)

variable (m : Stub)

section
variable (m : Stub)

theorem entry_isr : Stub.USER_ISR.entry num =
    SAVE_ISR_REGISTERS ++ [.pushqImm (num.setWidth 32)] ++ passFrame := rfl

theorem entry_exc : Stub.CPU_EXC.entry num =
    [.pushqImm (num.setWidth 32)] ++ SAVE_ISR_REGISTERS ++ passFrame := rfl

/-- The words of the frame, in the order of the pushes: first those of the
delivery, then those of the stub. -/
theorem pushOrder_INTERRUPT_FRAME : pushOrder INTERRUPT_FRAME (frameValue s num code) =
    s.pushedFrame none ++ pushOrder (.isr_num :: savedRegs.map .reg) (frameValue s num code) := rfl

theorem pushOrder_EXCEPTION_FRAME : pushOrder EXCEPTION_FRAME (frameValue s num code) =
    s.pushedFrame (some code) ++
      pushOrder (savedRegs.map .reg ++ [.isr_num]) (frameValue s num code) := rfl

theorem deliver_regs (error : Option UINT64) {r : Reg} (hr : r ≠ .rsp) :
    (s.deliver g stack error).regs r = s.regs r := Cpu.setReg_ne s _ _ hr

theorem atCall_pushed_isr : Pushed (s.setReg .rsp (alignStack stack))
    (pushOrder INTERRUPT_FRAME (frameValue s num code))
    (Stub.USER_ISR.atCall h num (s.deliver g stack none)) := by
  rw [pushOrder_INTERRUPT_FRAME, Stub.atCall, entry_isr]
  exact (deliver_pushed s g stack none).append
    (isrBody_pushed h s code num _ fun r hr => deliver_regs s g stack none hr)

theorem atCall_pushed_exc : Pushed (s.setReg .rsp (alignStack stack))
    (pushOrder EXCEPTION_FRAME (frameValue s num code))
    (Stub.CPU_EXC.atCall h num (s.deliver g stack (some code))) := by
  rw [pushOrder_EXCEPTION_FRAME, Stub.atCall, entry_exc]
  exact (deliver_pushed s g stack (some code)).append
    (excBody_pushed h s code num _ fun r hr => deliver_regs s g stack (some code) hr)

/-- At the call the stack below the delivered pointer is the frame struct. -/
theorem atCall_pushed : Pushed (s.setReg .rsp (alignStack stack))
    (pushOrder m.frame (frameValue s num code))
    (m.atCall h num (s.deliver g stack (m.errorCode code))) := by
  cases m with
  | USER_ISR => exact atCall_pushed_isr h s g stack code num
  | CPU_ISR => exact atCall_pushed_isr h s g stack code num
  | CPU_EXC => exact atCall_pushed_exc h s g stack code num

/-- The handler's argument is the address of the frame. -/
theorem atCall_rdi (d : Cpu) : (m.atCall h num d).regs .rdi = (m.atCall h num d).rsp := by
  have hisr : (Stub.USER_ISR.atCall h num d).regs .rdi = (Stub.USER_ISR.atCall h num d).rsp := by
    rw [Stub.atCall, entry_isr, execs_append]
    exact passFrame_rdi h _
  cases m with
  | USER_ISR => exact hisr
  | CPU_ISR => exact hisr
  | CPU_EXC =>
    rw [Stub.atCall, entry_exc, execs_append]
    exact passFrame_rdi h _

end

end Entry

/-! ## From the call to the return -/

section Return
variable {h : Handler} {s c : Cpu} {g : Gate} {stack code : UINT64} {num : UINT8} {m : Stub}

theorem frame_length_le (m : Stub) : 8 * m.frame.length ≤ 176 := by
  cases m with
  | USER_ISR => decide
  | CPU_ISR => decide
  | CPU_EXC => decide

/-- The machine `c`, at the call, has the frame of `s` on its stack. -/
structure HasFrame (m : Stub) (s : Cpu) (stack code : UINT64) (num : UINT8) (c : Cpu) : Prop where
  pushed : Pushed (s.setReg .rsp (alignStack stack)) (pushOrder m.frame (frameValue s num code)) c
  rdi : c.regs .rdi = c.rsp

theorem HasFrame.rsp (hc : HasFrame m s stack code num c) :
    c.rsp = below (alignStack stack) m.frame.length := by
  have htop : (s.setReg .rsp (alignStack stack)).rsp = alignStack stack := Cpu.setReg_same ..
  rw [hc.pushed.rsp, htop, length_pushOrder]

/-- Each field holds the interrupted value it is named after. -/
theorem HasFrame.field (hc : HasFrame m s stack code num c) {f : FrameField} (hf : f ∈ m.frame) :
    loadField c.mem (words m.frame) (c.regs .rdi) f = (frameValue s num code f).toNat := by
  have := frame_length_le m
  have htop : (s.setReg .rsp (alignStack stack)).rsp = alignStack stack := Cpu.setReg_same ..
  rw [hc.rdi, hc.rsp, hc.pushed.mem, htop]
  exact loadField_pushWords (by omega) hf

/-- The return address goes below the frame. -/
theorem HasFrame.called_field (hc : HasFrame m s stack code num c) {f : FrameField}
    (hf : f ∈ m.frame) : loadField c.called.mem (words m.frame) (c.regs .rdi) f =
      (frameValue s num code f).toNat := by
  have hlen := frame_length_le m
  have hidx := List.idxOf_lt_length_of_mem hf
  have hoff : c.rsp = c.rsp - 8#64 + BitVec.ofNat 64 8 := (BitVec.sub_add_cancel ..).symm
  have happ : Apart (c.rsp + BitVec.ofNat 64 (8 * m.frame.idxOf f)) 8 (c.rsp - 8#64) 8 := by
    have hfields : Apart (c.rsp - 8#64 + BitVec.ofNat 64 (8 + 8 * m.frame.idxOf f)) 8
        (c.rsp - 8#64 + BitVec.ofNat 64 0) 8 :=
      apart_of_offsets (by omega) (by omega) (by omega)
    rw [BitVec.add_zero, BitVec.ofNat_add, ← BitVec.add_assoc, ← hoff] at hfields
    exact hfields
  have hfield := hc.field hf
  rw [loadField_words _ hf, hc.rdi] at hfield ⊢
  rw [Cpu.called, Cpu.push_mem, store64, load_store_apart happ (by omega), hfield]

variable (hc : HasFrame m s stack code num c) (hr : HandlerReturns m c (h c.called))
include hr

/-- A handler that returns comes back behind the call, to the stack as it was. -/
theorem callq_returns : (exec h .callq c).rip = c.rip + BitVec.ofNat 64 Instr.callq.size ∧
    (exec h .callq c).rsp = c.rsp := by
  refine ⟨?_, ?_⟩
  · have hrip : (exec h .callq c).rip = load64 (h c.called).mem (h c.called).rsp := rfl
    rw [hrip, hr.returnAddress, Cpu.called, Cpu.push_rsp, Cpu.push_mem, load64_store64]
  · have hrsp : (exec h .callq c).rsp = (h c.called).rsp + 8#64 :=
      Cpu.setReg_same (h c.called) .rsp _
    rw [hrsp, hr.rsp, Cpu.called, Cpu.push_rsp, BitVec.sub_add_cancel]

include hc

/-- The word of a field, after the handler returns. -/
theorem returned_word {f : FrameField} (hf : f ∈ m.frame) :
    load64 (exec h .callq c).mem (c.rsp + BitVec.ofNat 64 (8 * m.frame.idxOf f)) =
      frameValue s num code f := by
  have hmem : (exec h .callq c).mem = (h c.called).mem := rfl
  have hkept := loadField_congr_at (f := f) hr.frame
  rw [hc.called_field hf, loadField_words _ hf, hc.rdi] at hkept
  rw [hmem, load64, hkept, BitVec.ofNat_toNat, BitVec.setWidth_eq]

/-- The pops, started where the saved registers are, `k` words into the frame. -/
theorem RESTORE_ISR_REGISTERS_restores {t : Cpu} {k : Nat} (hmem : t.mem = (exec h .callq c).mem)
    (hrsp : t.rsp = c.rsp + BitVec.ofNat 64 (8 * k))
    (hidx : ∀ r ∈ savedRegs, .reg r ∈ m.frame ∧ m.frame.idxOf (.reg r) = k + savedRegs.idxOf r) :
    (execs h RESTORE_ISR_REGISTERS t).rsp = c.rsp + BitVec.ofNat 64 (8 * (k + 15)) ∧
      ∀ r, r ≠ .rsp → (execs h RESTORE_ISR_REGISTERS t).regs r = s.regs r := by
  have hrestore : RESTORE_ISR_REGISTERS = savedRegs.map .popq := rfl
  have hpop := execs_popq h t (by decide : .rsp ∉ savedRegs) (by decide)
  rw [hrestore]
  refine ⟨?_, fun r hr' => ?_⟩
  · have hlen : savedRegs.length = 15 := rfl
    rw [hpop.rsp, hrsp, hlen, BitVec.add_assoc, ← BitVec.ofNat_add, ← Nat.mul_add]
  · have hsaved : r ∈ savedRegs := by
      cases r <;> first | contradiction | decide
    obtain ⟨hmem', hplace⟩ := hidx r hsaved
    have hword := returned_word hc hr hmem'
    rw [hplace, Nat.mul_add, BitVec.ofNat_add, ← BitVec.add_assoc] at hword
    rw [hpop.popped r hsaved, hmem, hrsp, hword, frameValue]

theorem exit_restores_isr (hframe : m.frame = INTERRUPT_FRAME) :
    (execs h Stub.USER_ISR.exit (exec h .callq c)).rsp = below (alignStack stack) 5 ∧
      ∀ r, r ≠ .rsp → (execs h Stub.USER_ISR.exit (exec h .callq c)).regs r = s.regs r := by
  have hdrop : (exec h (.addqImm 8#32 .rsp) (exec h .callq c)).rsp =
      c.rsp + BitVec.ofNat 64 (8 * 1) := by
    rw [Cpu.rsp, exec_addqImm_same, ← Cpu.rsp, (callq_returns hr).2]
    rfl
  have hend := RESTORE_ISR_REGISTERS_restores hc hr (k := 1)
    (t := exec h (.addqImm 8#32 .rsp) (exec h .callq c)) rfl hdrop (by rw [hframe]; decide)
  have hup : c.rsp + BitVec.ofNat 64 (8 * (1 + 15)) = below (alignStack stack) 5 := by
    rw [hc.rsp, hframe]
    exact below_add_ofNat _ (by decide)
  have hexit : Stub.USER_ISR.exit = .addqImm 8#32 .rsp :: RESTORE_ISR_REGISTERS := rfl
  rw [hexit, execs_cons, ← hup]
  exact hend

theorem exit_restores_exc (hframe : m.frame = EXCEPTION_FRAME) :
    (execs h Stub.CPU_EXC.exit (exec h .callq c)).rsp = below (alignStack stack) 5 ∧
      ∀ r, r ≠ .rsp → (execs h Stub.CPU_EXC.exit (exec h .callq c)).regs r = s.regs r := by
  have hstart : (exec h .callq c).rsp = c.rsp + BitVec.ofNat 64 (8 * 0) := by
    rw [(callq_returns hr).2, Nat.mul_zero, BitVec.add_zero]
  have hend := RESTORE_ISR_REGISTERS_restores hc hr (k := 0) (t := exec h .callq c) rfl hstart
    (by rw [hframe]; decide)
  have hup : c.rsp + BitVec.ofNat 64 (8 * 17) = below (alignStack stack) 5 := by
    rw [hc.rsp, hframe]
    exact below_add_ofNat _ (by decide)
  have hexit : Stub.CPU_EXC.exit = RESTORE_ISR_REGISTERS ++ [.addqImm 16#32 .rsp] := rfl
  rw [hexit, execs_append, execs_cons, ← hup]
  refine ⟨?_, fun r hr' => ?_⟩
  · have hsum : (exec h (.addqImm 16#32 .rsp) (execs h RESTORE_ISR_REGISTERS (exec h .callq c))).rsp =
        c.rsp + BitVec.ofNat 64 (8 * (0 + 15)) + BitVec.ofNat 64 16 := by
      rw [Cpu.rsp, exec_addqImm_same, ← Cpu.rsp, hend.1]
      rfl
    rw [BitVec.add_assoc, ← BitVec.ofNat_add] at hsum
    exact hsum
  · exact (exec_addqImm_regs h _ _ hr').trans (hend.2 r hr')

/-- The stub's end undoes its beginning: RSP is at the RIP that the delivery
pushed and the other registers are the interrupted ones. -/
theorem exit_restores : (execs h m.exit (exec h .callq c)).rsp = below (alignStack stack) 5 ∧
    ∀ r, r ≠ .rsp → (execs h m.exit (exec h .callq c)).regs r = s.regs r := by
  cases m with
  | USER_ISR => exact exit_restores_isr hc hr rfl
  | CPU_ISR => exact exit_restores_isr hc hr rfl
  | CPU_EXC => exact exit_restores_exc hc hr rfl

omit hc hr in
/-- The stub's end writes no memory. -/
theorem exit_mem (m : Stub) (t : Cpu) : (execs h m.exit t).mem = t.mem := by
  have hpops : ∀ u, (execs h RESTORE_ISR_REGISTERS u).mem = u.mem := fun u =>
    (execs_popq h u (by decide : .rsp ∉ savedRegs) (by decide)).mem
  have hisr : (execs h (.addqImm 8#32 .rsp :: RESTORE_ISR_REGISTERS) t).mem = t.mem := by
    rw [execs_cons, hpops, exec_addqImm_mem]
  cases m with
  | USER_ISR => exact hisr
  | CPU_ISR => exact hisr
  | CPU_EXC =>
    have hexit : Stub.CPU_EXC.exit = RESTORE_ISR_REGISTERS ++ [.addqImm 16#32 .rsp] := rfl
    rw [hexit, execs_append, execs_singleton, exec_addqImm_mem, hpops]

end Return

/-! ## Running a stub -/

section Run
variable (m : Stub) (h : Handler) (num : UINT8)

theorem straight_of_all {is : List Instr} (his : is.all fun i => decide i.Straight) :
    ∀ i ∈ is, i.Straight := fun i hi => of_decide_eq_true (List.all_eq_true.mp his i hi)

theorem entry_straight : ∀ i ∈ m.entry num, i.Straight := by
  refine straight_of_all ?_
  cases m with
  | USER_ISR => rfl
  | CPU_ISR => rfl
  | CPU_EXC => rfl

theorem exit_straight : ∀ i ∈ m.exit, i.Straight := by
  refine straight_of_all ?_
  cases m with
  | USER_ISR => rfl
  | CPU_ISR => rfl
  | CPU_EXC => rfl

theorem code_length : (m.code num).length ≤ 40 := by
  cases m with
  | USER_ISR => exact Nat.le_of_ble_eq_true rfl
  | CPU_ISR => exact Nat.le_of_ble_eq_true rfl
  | CPU_EXC => exact Nat.le_of_ble_eq_true rfl

/-- The parts of a stub are small. -/
theorem codeSize_part {pre post : List Instr} (hsplit : m.code num = pre ++ post) :
    codeSize pre < 2 ^ 64 := by
  have := codeSize_le (m.code num)
  have := code_length m num
  have := congrArg codeSize hsplit
  rw [codeSize_append] at this
  omega

variable {d c : Cpu} {base : UINT64}

/-- From its first instruction a stub reaches its call. -/
theorem reaches_call (hd : d.rip = base) :
    Steps h (m.code num) base d (m.atCall h num d) ∧
      (m.atCall h num d).rip = base + BitVec.ofNat 64 (codeSize (m.entry num)) ∧
      fetch (m.code num) base (m.atCall h num d).rip = some .callq := by
  have hsplit := m.code_eq num
  have hsize := codeSize_part m num hsplit
  have hstart : d.rip = base + BitVec.ofNat 64 (codeSize []) := by
    rw [hd]
    exact (BitVec.add_zero base).symm
  obtain ⟨hsteps, hrip⟩ := Steps.straight (h := h) (.callq :: (m.exit ++ [.iretq]))
    (entry_straight m num) hsize hstart
  rw [List.nil_append] at hsteps hrip
  rw [← hsplit] at hsteps
  refine ⟨hsteps, hrip, ?_⟩
  rw [Stub.atCall, hrip, hsplit]
  exact fetch_at _ _ _ _ hsize

/-- From its call, if the handler returns, a stub reaches its `iretq`. -/
theorem reaches_iretq (hc : c.rip = base + BitVec.ofNat 64 (codeSize (m.entry num)))
    (hr : HandlerReturns m c (h c.called)) :
    Steps h (m.code num) base c (execs h m.exit (exec h .callq c)) ∧
      fetch (m.code num) base (execs h m.exit (exec h .callq c)).rip = some .iretq := by
  have hsplit : m.code num = m.entry num ++ [.callq] ++ m.exit ++ [.iretq] := by
    rw [m.code_eq num]
    simp
  have hsize : codeSize (m.entry num ++ [.callq] ++ m.exit) < 2 ^ 64 := codeSize_part m num hsplit
  have hcall : fetch (m.code num) base c.rip = some .callq := by
    rw [hc, m.code_eq num]
    exact fetch_at _ _ _ _ (codeSize_part m num (m.code_eq num))
  have hback : (exec h .callq c).rip =
      base + BitVec.ofNat 64 (codeSize (m.entry num ++ [.callq])) := by
    have hone : codeSize [.callq] = Instr.callq.size := rfl
    rw [(callq_returns hr).1, hc, codeSize_append, hone, BitVec.ofNat_add, BitVec.add_assoc]
  obtain ⟨hsteps, hrip⟩ := Steps.straight (h := h) [.iretq] (exit_straight m) hsize hback
  rw [← hsplit] at hsteps
  refine ⟨(Steps.one hcall).trans hsteps, ?_⟩
  rw [hrip, hsplit]
  exact fetch_at _ _ _ _ hsize

/-- A delivered stub has the frame at its call. -/
theorem atCall_hasFrame (s : Cpu) (g : Gate) (stack code : UINT64) :
    HasFrame m s stack code num (m.atCall h num (s.deliver g stack (m.errorCode code))) :=
  ⟨atCall_pushed h s g stack code num m, atCall_rdi h num m _⟩

end Run

/-! ## Transparency -/

/-- For every interrupted machine and every stub, delivered with an error code
exactly where the stub is made for one: at the call RDI points to the frame
struct with every field as interrupted, and after any handler that returns and
keeps the frame the stub executes its `iretq` with RSP at the pushed RIP and
every other register as interrupted. -/
theorem stub_transparent (m : Stub) (num : UINT8) (g : Gate) (stack code : UINT64) (s : Cpu)
    (h : Handler) :
    let delivered := s.deliver g stack (m.errorCode code)
    let c := m.atCall h num delivered
    (Steps h (m.code num) g.offset delivered c ∧
      fetch (m.code num) g.offset c.rip = some .callq ∧
      ∀ f ∈ m.frame, loadField c.mem (words m.frame) (c.regs .rdi) f =
        (frameValue s num code f).toNat) ∧
    (HandlerReturns m c (h c.called) →
      ∃ e, Steps h (m.code num) g.offset delivered e ∧
        fetch (m.code num) g.offset e.rip = some .iretq ∧
        e.rsp = below (alignStack stack) 5 ∧ ∀ r, r ≠ .rsp → e.regs r = s.regs r) := by
  have hframe := atCall_hasFrame m h num s g stack code
  obtain ⟨hsteps, hrip, hcall⟩ := reaches_call m h num (d := s.deliver g stack (m.errorCode code)) rfl
  refine ⟨⟨hsteps, hcall, fun f hf => hframe.field hf⟩, fun hr => ?_⟩
  obtain ⟨hreturn, hiretq⟩ := reaches_iretq m h num hrip hr
  obtain ⟨hrsp, hregs⟩ := exit_restores hframe hr
  exact ⟨_, hsteps.trans hreturn, hiretq, hrsp, hregs⟩

/-- A machine at a code address with all registers equal. -/
def idle : Cpu where
  regs _ := 0x8000#64
  rip := 0x100000#64
  cs := 8#16
  ss := 16#16
  rflags := 0x202#64
  mem _ := 0#8

/-- The gate of a stub at 2 MiB. -/
def idleGate : Gate := ⟨0x200000#64, 8#16, true⟩

/-- A handler that keeps the stack pointer and the memory and wrecks the other
registers. -/
def wreck (c : Cpu) : Cpu := { c with regs := fun r => if r = .rsp then c.rsp else 0xDEAD#64 }

theorem stub_transparent_idle :
    ∃ e, Steps wreck (Stub.CPU_EXC.code 14) idleGate.offset
        (idle.deliver idleGate idle.rsp (some 2#64)) e ∧
      fetch (Stub.CPU_EXC.code 14) idleGate.offset e.rip = some .iretq ∧
      e.rsp = below (alignStack idle.rsp) 5 ∧ ∀ r, r ≠ .rsp → e.regs r = idle.regs r :=
  (stub_transparent .CPU_EXC 14 idleGate idle.rsp 2 idle wreck).2 ⟨rfl, rfl, fun _ _ => rfl⟩

/-! ## Alignment of the call -/

/-- From the aligned stack, the words of the frame decide the alignment. -/
theorem HasFrame.rsp_mod {m : Stub} {s c : Cpu} {stack code : UINT64} {num : UINT8}
    (hc : HasFrame m s stack code num c) : c.rsp.toNat % 16 = 8 * (m.frame.length % 2) := by
  rw [hc.rsp]
  exact below_mod (alignStack_mod stack) _

/-- RSP is a multiple of 16 at the call of the stubs with an error code, where
the frame has 22 words, and never at the call of the others, where it has 21. -/
theorem call_aligned_iff (m : Stub) (num : UINT8) (g : Gate) (stack code : UINT64) (s : Cpu)
    (h : Handler) :
    let c := m.atCall h num (s.deliver g stack (m.errorCode code))
    fetch (m.code num) g.offset c.rip = some .callq ∧ (16 ∣ c.rsp.toNat ↔ m = .CPU_EXC) := by
  have hmod := (atCall_hasFrame m h num s g stack code).rsp_mod
  have hdelivered : (s.deliver g stack (m.errorCode code)).rip = g.offset := rfl
  refine ⟨(reaches_call m h num hdelivered).2.2, ?_⟩
  rw [Nat.dvd_iff_mod_eq_zero, hmod]
  cases m with
  | USER_ISR => decide
  | CPU_ISR => decide
  | CPU_EXC => decide

theorem idle_call_misaligned : ¬ 16 ∣ (Stub.USER_ISR.atCall id 32
    (idle.deliver idleGate idle.rsp (Stub.USER_ISR.errorCode 0))).rsp.toNat := by
  have hmod := (atCall_hasFrame .USER_ISR id 32 idle idleGate idle.rsp 0).rsp_mod
  rw [Nat.dvd_iff_mod_eq_zero, hmod]
  decide

end PiousOS.Kernel
