import PiousOS.L4Kernel.GateTable
import PiousOS.L4Kernel.InterruptStub

/-!
# From a vector to its handler

`InitializeISR` names a stub of `ISR_asm.S` for each vector, the linker places
the stubs, the CPU finds its stub through the IDT in memory, and the stub calls
the C handler of its name. `fetchText` is the code of all stubs at the linker's
addresses, `interrupt` a delivery through the bytes of the IDT.

The CPU pushes an error code for vectors 21 and 29, whose stubs are made for
none: their handlers see the frame one word off (`shownField`).

Results:
* `exists_lines`: every vector has a stub of its own number.
* `idtOf_InitializeISR`: the gates after `InitializeISR`, as the CPU reads them.
* `textSteps_of_steps`: what a stub does alone it does in the kernel's text.
* `atCall_shown`, `iretq_finds`: the frame, with or without the odd word.
* `vector_reaches_handler`: the whole way, for all 256 vectors.
-/
namespace PiousOS.Kernel
open ByteMem X86

/-! ## Stubs and gates by name -/

/-- The name argument of the stub macros; the handler called is
`name_ISR_handler` or `name_EXC_handler`. -/
inductive HandlerName where
  | DE | DB | NMI | BP | OF | BR | UD | NM | DF | CSO | TS | NP | SS | GP | PF | MF | AC | MC | XM
  | VE | SX | CPU | User
  deriving DecidableEq, Repr

/-- A label `name_ISR_pusherN` or `name_EXC_pusherN`. -/
structure Pusher where
  name : HandlerName
  exc : Bool
  num : Nat
  deriving DecidableEq, Repr

structure StubLine where
  kind : Stub
  num : Nat
  name : HandlerName
  deriving DecidableEq

def StubLine.label (l : StubLine) : Pusher := ⟨l.name, l.kind = .CPU_EXC, l.num⟩

def StubLine.code (l : StubLine) : List Instr := l.kind.code (BitVec.ofNat 8 l.num)

/-- mirrors arch/kernel/x86_64/ISR_asm.S:193-238 -/
def cpuStubLines : List StubLine :=
  [⟨.CPU_ISR, 0, .DE⟩, ⟨.CPU_ISR, 1, .DB⟩, ⟨.CPU_ISR, 2, .NMI⟩, ⟨.CPU_ISR, 3, .BP⟩,
   ⟨.CPU_ISR, 4, .OF⟩, ⟨.CPU_ISR, 5, .BR⟩, ⟨.CPU_ISR, 6, .UD⟩, ⟨.CPU_ISR, 7, .NM⟩,
   ⟨.CPU_EXC, 8, .DF⟩, ⟨.CPU_ISR, 9, .CSO⟩, ⟨.CPU_EXC, 10, .TS⟩, ⟨.CPU_EXC, 11, .NP⟩,
   ⟨.CPU_EXC, 12, .SS⟩, ⟨.CPU_EXC, 13, .GP⟩, ⟨.CPU_EXC, 14, .PF⟩, ⟨.CPU_ISR, 16, .MF⟩,
   ⟨.CPU_EXC, 17, .AC⟩, ⟨.CPU_ISR, 18, .MC⟩, ⟨.CPU_ISR, 19, .XM⟩, ⟨.CPU_ISR, 20, .VE⟩,
   ⟨.CPU_EXC, 30, .SX⟩, ⟨.CPU_ISR, 15, .CPU⟩] ++
  (List.range' 21 9).map (⟨.CPU_ISR, ·, .CPU⟩) ++ [⟨.CPU_ISR, 31, .CPU⟩]

/-- mirrors arch/kernel/x86_64/ISR_asm.S:193-469 -/
def stubLines : List StubLine :=
  cpuStubLines ++ (List.range' 32 224).map (⟨.USER_ISR, ·, .User⟩)

/-- A line of `InitializeISR`: the helper, the vector and the stub it names. -/
structure GateLine where
  entry : SetEntry
  isrNum : Nat
  pusher : Pusher
  deriving DecidableEq

/-- mirrors arch/kernel/x86_64/ISR.c:114-162 -/
def cpuGateLines : List GateLine :=
  [⟨.interrupt, 0, .DE, false, 0⟩, ⟨.interrupt, 1, .DB, false, 1⟩, ⟨.nmi, 2, .NMI, false, 2⟩,
   ⟨.bp, 3, .BP, false, 3⟩, ⟨.interrupt, 4, .OF, false, 4⟩, ⟨.interrupt, 5, .BR, false, 5⟩,
   ⟨.interrupt, 6, .UD, false, 6⟩, ⟨.interrupt, 7, .NM, false, 7⟩, ⟨.mc, 8, .DF, true, 8⟩,
   ⟨.interrupt, 9, .CSO, false, 9⟩, ⟨.interrupt, 10, .TS, true, 10⟩, ⟨.interrupt, 11, .NP, true, 11⟩,
   ⟨.interrupt, 12, .SS, true, 12⟩, ⟨.interrupt, 13, .GP, true, 13⟩, ⟨.interrupt, 14, .PF, true, 14⟩,
   ⟨.interrupt, 16, .MF, false, 16⟩, ⟨.interrupt, 17, .AC, true, 17⟩, ⟨.mc, 18, .MC, false, 18⟩,
   ⟨.interrupt, 19, .XM, false, 19⟩, ⟨.interrupt, 20, .VE, false, 20⟩, ⟨.interrupt, 30, .SX, true, 30⟩,
   ⟨.interrupt, 15, .CPU, false, 15⟩] ++
  (List.range' 21 9).map (fun n => ⟨.interrupt, n, .CPU, false, n⟩) ++
  [⟨.interrupt, 31, .CPU, false, 31⟩]

/-- mirrors arch/kernel/x86_64/ISR.c:114-393 -/
def gateLines : List GateLine :=
  cpuGateLines ++ (List.range' 32 224).map (fun n => ⟨.interrupt, n, .User, false, n⟩)

/-- The argument a handler calls `Abort` with.
mirrors arch/kernel/x86_64/ISR.c:490-665 (the `xsave64` of `User_ISR_handler` left out) -/
def abortCode : HandlerName → UINT64
  | .DE => 0 | .DB => 1 | .NMI => 2 | .BP => 3 | .OF => 4 | .BR => 5 | .UD => 6 | .NM => 7 | .DF => 8
  | .CSO => 9 | .TS => 10 | .NP => 11 | .SS => 12 | .GP => 13 | .PF => 14 | .MF => 16 | .AC => 17
  | .MC => 18 | .XM => 19 | .VE => 20 | .SX => 30
  | .CPU => 0xFFFFFFFFFFFFFFFF
  | .User => 0xFFFFFFFFFFFFFFFF

/-- The stub that the line of vector `v` names. -/
def pusherOf (v : Nat) : Option Pusher := (gateLines.find? (·.isrNum = v)).map (·.pusher)

/-- `InitializeISR` calls the helpers as its lines say. -/
theorem gateLines_entries : gateLines.map (fun g => (g.entry, g.isrNum)) = isrEntries := by
  simp only [gateLines, List.map_append, List.map_map]
  rfl

/-- Vectors 21 and 29: the stub is not made for the frame the CPU pushes. -/
def OffByOne (v : Nat) : Prop := v = 21 ∨ v = 29

instance (v : Nat) : Decidable (OffByOne v) := inferInstanceAs (Decidable (_ ∨ _))

/-- What the lines give vector `v`: a stub of its own number, with an error
code where the CPU pushes one, and its handler. -/
structure Lines (v : Nat) (l : StubLine) : Prop where
  pusher : pusherOf v = some l.label
  stub : l ∈ stubLines
  num : l.num = v
  error : (l.kind = .CPU_EXC ↔ pushesErrorCode v) ↔ ¬ OffByOne v
  code : abortCode l.name = if v ≤ 20 ∧ v ≠ 15 ∨ v = 30 then BitVec.ofNat 64 v else BitVec.allOnes 64

theorem lines_cpu : ∀ v < 32, ∃ l ∈ cpuStubLines,
    (cpuGateLines.find? (·.isrNum = v)).map (·.pusher) = some l.label ∧ l.num = v ∧
    ((l.kind = .CPU_EXC ↔ pushesErrorCode v) ↔ ¬ OffByOne v) ∧
    abortCode l.name = if v ≤ 20 ∧ v ≠ 15 ∨ v = 30 then BitVec.ofNat 64 v else BitVec.allOnes 64 := by
  decide +kernel

/-- Past the vectors of the CPU every line is a user line. -/
theorem pusherOf_user {v : Nat} (hcpu : 32 ≤ v) (hv : v < 256) : pusherOf v = some ⟨.User, false, v⟩ := by
  have hnone : cpuGateLines.find? (fun g => decide (g.isrNum = v)) = none := by
    have hlt : ∀ g ∈ cpuGateLines, g.isrNum < 32 := by decide
    refine List.find?_eq_none.mpr fun g hg => ?_
    have := hlt g hg
    rw [decide_eq_true_eq]
    omega
  have huser : (List.range' 32 224).find? (fun n => decide (n = v)) = some v := by
    refine List.find?_range'_eq_some.mpr
      ⟨decide_eq_true rfl, List.mem_range'_1.mpr ⟨hcpu, by omega⟩, fun j _ hj => ?_⟩
    simp only [Bool.not_eq_true', decide_eq_false_iff_not]
    omega
  rw [pusherOf, gateLines, List.find?_append, hnone, Option.none_or, List.find?_map]
  have hcomp : ((fun g : GateLine => decide (g.isrNum = v)) ∘ fun n => ⟨.interrupt, n, .User, false, n⟩) =
      fun n => decide (n = v) := rfl
  rw [hcomp, huser]
  rfl

theorem exists_lines {v : Nat} (hv : v < 256) : ∃ l, Lines v l := by
  by_cases hcpu : v < 32
  · obtain ⟨l, hl, hpusher, hnum, herror, hcode⟩ := lines_cpu v hcpu
    refine ⟨l, ?_, List.mem_append_left _ hl, hnum, herror, hcode⟩
    obtain ⟨g, hg, hlabel⟩ := Option.map_eq_some_iff.mp hpusher
    rw [pusherOf, gateLines, List.find?_append, hg, Option.some_or, Option.map_some, hlabel]
  · refine ⟨⟨.USER_ISR, v, .User⟩, pusherOf_user (by omega) hv, ?_, rfl, ?_, ?_⟩
    · exact List.mem_append_right _ (List.mem_map.mpr ⟨v, List.mem_range'_1.mpr ⟨by omega, by omega⟩, rfl⟩)
    · have hpushes : pushesErrorCode v = false := by
        simp only [pushesErrorCode, List.mem_cons, List.not_mem_nil, or_false, decide_eq_false_iff_not]
        omega
      have hoff : ¬ OffByOne v := by
        unfold OffByOne
        omega
      simp [hpushes, hoff]
    · rw [if_neg (by omega)]
      rfl

/-! ## The IDT -/

def isrCalls (pusher : Nat → UINT64) : List EntryCall :=
  isrEntries.map fun c => ⟨c.1, Fin.ofNat 256 c.2, pusher c.2⟩

def isrEntry (v : Nat) : SetEntry :=
  if v = 2 then .nmi else if v = 3 then .bp else if v = 8 ∨ v = 18 then .mc else .interrupt

section
variable (p : Placement) (pusher : Nat → UINT64) (m : Machine)

theorem setGates_isrCalls (IDT_data : UINT64) (mem : ByteMem) :
    setGates IDT_data pusher isrEntries mem = setEntries IDT_data (isrCalls pusher) mem := by
  have hcalls : ∀ calls : List (SetEntry × Nat), (∀ c ∈ calls, c.2 < 256) → ∀ mem,
      setGates IDT_data pusher calls mem = setEntries IDT_data
        (calls.map fun c => ⟨c.1, Fin.ofNat 256 c.2, pusher c.2⟩) mem := by
    intro calls hlt
    induction calls with
    | nil => exact fun _ => rfl
    | cons c calls ih =>
      intro mem
      have hc : (Fin.ofNat 256 c.2).val = c.2 := Nat.mod_eq_of_lt (hlt c List.mem_cons_self)
      rw [setGates, List.foldl_cons, ← setGates, ih fun d hd => hlt d (List.mem_cons_of_mem c hd),
        List.map_cons, setEntries, setEntries, List.foldl_cons, EntryCall.run, hc]
  exact hcalls isrEntries isrEntries_lt mem

theorem lastCall_isrCalls (v : Fin 256) :
    lastCall v (isrCalls pusher) = some ⟨isrEntry v, v, pusher v⟩ := by
  have hlast : ∀ v : Fin 256, isrEntries.reverse.find? (fun c => decide (Fin.ofNat 256 c.2 = v)) =
      some (isrEntry v, v.val) := by
    decide +kernel
  have hmap := congrArg (Option.map fun c => EntryCall.mk c.1 (Fin.ofNat 256 c.2) (pusher c.2)) (hlast v)
  rw [lastCall, isrCalls, ← List.map_reverse, List.find?_map]
  exact hmap.trans (by simp)

/-- After `InitializeISR` the gate of `v` is a present interrupt gate to the
address given for `v`. -/
theorem idtOf_InitializeISR (v : Fin 256) :
    idtOf (InitializeISR p pusher m).mem p.IDT_data v =
      interruptGate (pusher v) (BitVec.ofNat 3 (isrEntry v).ist.toNat) := by
  rw [InitializeISR_mem, setGates_isrCalls, idtOf_setEntries, foldl_update_lastCall,
    lastCall_isrCalls]
  simp only [isrEntry]
  split
  · rfl
  · split
    · rfl
    · split <;> rfl

end

/-! ## The code of the stubs -/

theorem StubLine.codeSize_le (l : StubLine) : codeSize l.code ≤ 2 ^ 64 := by
  have hsize := X86.codeSize_le l.code
  have hlen : l.code.length ≤ 40 := code_length l.kind _
  omega

/-- A linker's choice of addresses for the stubs: no two overlap. -/
structure Layout where
  addr : Pusher → UINT64
  disjoint : stubLines.Pairwise fun l k =>
    Apart (addr l.label) (codeSize l.code) (addr k.label) (codeSize k.code)

def fetchText (L : Layout) (rip : UINT64) : Option (StubLine × Instr) :=
  stubLines.findSome? fun l => (fetch l.code (L.addr l.label) rip).map (l, ·)

/-- One instruction of the stubs; `callq` runs the handler of the stub's name. -/
def textStep (L : Layout) (handlers : HandlerName → Handler) (s : Cpu) : Option Cpu :=
  (fetchText L s.rip).map fun at' => exec (handlers at'.1.name) at'.2 s

def TextSteps (L : Layout) (handlers : HandlerName → Handler) : Cpu → Cpu → Prop :=
  Relation.ReflTransGen fun s t => textStep L handlers s = some t

theorem fetch_range {code : List Instr} {base rip : UINT64} {i : Instr} (hsize : codeSize code ≤ 2 ^ 64)
    (h : fetch code base rip = some i) : (rip - base).toNat < codeSize code := by
  induction code generalizing base with
  | nil => cases h
  | cons j code ih =>
    have hcons : codeSize (j :: code) = j.size + codeSize code := rfl
    have hpos := j.size_pos
    rw [hcons] at hsize ⊢
    by_cases hrip : rip = base
    · rw [hrip, BitVec.sub_self]
      exact Nat.lt_of_lt_of_le hpos (Nat.le_add_right ..)
    · rw [fetch, if_neg hrip] at h
      have hin := ih (by omega) h
      have hle := j.size_le
      have hbase : rip - (base + BitVec.ofNat 64 j.size) = rip - base - BitVec.ofNat 64 j.size := by
        rw [BitVec.sub_sub]
      rw [hbase, BitVec.toNat_sub, BitVec.toNat_ofNat] at hin
      have := (rip - base).isLt
      omega

section
variable {L : Layout} {handlers : HandlerName → Handler} {l : StubLine} {rip : UINT64} {i : Instr}
  {s t : Cpu}

/-- Within a stub the whole text has the stub's instructions. -/
theorem fetchText_eq (hl : l ∈ stubLines) (h : fetch l.code (L.addr l.label) rip = some i) :
    fetchText L rip = some (l, i) := by
  obtain ⟨before, after, hsplit⟩ := List.append_of_mem hl
  have hdisjoint := L.disjoint
  rw [hsplit, List.pairwise_append] at hdisjoint
  rw [fetchText, List.findSome?_eq_some_iff]
  refine ⟨before, l, after, hsplit, by rw [h]; rfl, fun k hk => ?_⟩
  have hapart := hdisjoint.2.2 k hk l List.mem_cons_self
  have hin := fetch_range l.codeSize_le h
  rw [Option.map_eq_none_iff, Option.eq_none_iff_forall_ne_some]
  intro j hj
  exact hapart rip (fetch_range k.codeSize_le hj) hin

theorem textSteps_of_steps (hl : l ∈ stubLines)
    (h : Steps (handlers l.name) l.code (L.addr l.label) s t) : TextSteps L handlers s t := by
  refine Relation.ReflTransGen.mono (fun s t hst => ?_) s t h
  obtain ⟨i, hi, ht⟩ := Option.map_eq_some_iff.mp hst
  rw [textStep, fetchText_eq hl hi]
  exact congrArg some ht

end

/-! ## What the handler is shown, and what it returns to -/

/-- What stands in a field of the frame when the CPU pushed an error code that
the stub does not know of. -/
def shiftedField : FrameField → FrameField
  | .rip => .error_code
  | .cs => .rip
  | .rflags => .cs
  | .reg .rsp => .rflags
  | .ss => .reg .rsp
  | f => f

def SHIFTED_FRAME : List FrameField :=
  .isr_num :: savedRegs.map .reg ++ [.error_code, .rip, .cs, .rflags, .reg .rsp, .ss]

def shownField (v : Nat) (f : FrameField) : FrameField := if OffByOne v then shiftedField f else f

section Return
variable {h : Handler} {c t : Cpu} {m : Stub} {val : FrameField → UINT64}

/-- The end of a stub pops each register from its field and leaves RSP at the
last five words of the frame. -/
theorem exit_pops (m : Stub) (t : Cpu) :
    (execs h m.exit t).rsp = t.rsp + BitVec.ofNat 64 (8 * (m.frame.length - 5)) ∧
      ∀ r ∈ savedRegs, (execs h m.exit t).regs r =
        load64 t.mem (t.rsp + BitVec.ofNat 64 (8 * m.frame.idxOf (.reg r))) := by
  have hpop := fun u => execs_popq h u (by decide : .rsp ∉ savedRegs) (by decide)
  have hrestore : RESTORE_ISR_REGISTERS = savedRegs.map .popq := rfl
  have hne : ∀ r ∈ savedRegs, r ≠ .rsp := by decide
  have hisr : (execs h (.addqImm 8#32 .rsp :: RESTORE_ISR_REGISTERS) t).rsp =
        t.rsp + BitVec.ofNat 64 (8 * (INTERRUPT_FRAME.length - 5)) ∧
      ∀ r ∈ savedRegs, (execs h (.addqImm 8#32 .rsp :: RESTORE_ISR_REGISTERS) t).regs r =
        load64 t.mem (t.rsp + BitVec.ofNat 64 (8 * INTERRUPT_FRAME.idxOf (.reg r))) := by
    have hidx : ∀ r ∈ savedRegs, INTERRUPT_FRAME.idxOf (.reg r) = 1 + savedRegs.idxOf r := by decide
    have hadd : (exec h (.addqImm 8#32 .rsp) t).rsp = t.rsp + BitVec.ofNat 64 (8 * 1) :=
      exec_addqImm_same h t 8#32
    rw [execs_cons, hrestore]
    refine ⟨?_, fun r hr => ?_⟩
    · rw [(hpop _).rsp, hadd, BitVec.add_assoc, ← BitVec.ofNat_add, ← Nat.mul_add]
      rfl
    · rw [(hpop _).popped r hr, hadd, exec_addqImm_mem, BitVec.add_assoc, ← BitVec.ofNat_add,
        ← Nat.mul_add, hidx r hr]
  cases m with
  | USER_ISR => exact hisr
  | CPU_ISR => exact hisr
  | CPU_EXC =>
    have hidx : ∀ r ∈ savedRegs, EXCEPTION_FRAME.idxOf (.reg r) = savedRegs.idxOf r := by decide
    have hexit : Stub.CPU_EXC.exit = RESTORE_ISR_REGISTERS ++ [.addqImm 16#32 .rsp] := rfl
    rw [hexit, execs_append, execs_singleton, hrestore]
    refine ⟨?_, fun r hr => ?_⟩
    · have hadd : (exec h (.addqImm 16#32 .rsp) (execs h (savedRegs.map .popq) t)).rsp =
          (execs h (savedRegs.map .popq) t).rsp + BitVec.ofNat 64 (8 * 2) :=
        exec_addqImm_same h _ 16#32
      rw [hadd, (hpop t).rsp, BitVec.add_assoc, ← BitVec.ofNat_add, ← Nat.mul_add]
      rfl
    · have hframe : Stub.CPU_EXC.frame = EXCEPTION_FRAME := rfl
      rw [exec_addqImm_regs h _ _ (hne r hr), (hpop t).popped r hr, hframe, hidx r hr]

theorem returned_load (hr : HandlerReturns m c (h c.called)) (hrdi : c.regs .rdi = c.rsp)
    {f : FrameField} (hf : f ∈ m.frame) :
    load64 (exec h .callq c).mem (c.rsp + BitVec.ofNat 64 (8 * m.frame.idxOf f)) =
      load64 c.mem (c.rsp + BitVec.ofNat 64 (8 * m.frame.idxOf f)) := by
  have hlen := frame_length_le m
  have hidx := List.idxOf_lt_length_of_mem hf
  have hoff : c.rsp = c.rsp - 8#64 + BitVec.ofNat 64 8 := (BitVec.sub_add_cancel ..).symm
  have hfields : Apart (c.rsp - 8#64 + BitVec.ofNat 64 (8 + 8 * m.frame.idxOf f)) 8
      (c.rsp - 8#64 + BitVec.ofNat 64 0) 8 :=
    apart_of_offsets (by omega) (by omega) (by omega)
  rw [BitVec.add_zero, BitVec.ofNat_add, ← BitVec.add_assoc, ← hoff] at hfields
  have hkept := loadField_congr_at (f := f) hr.frame
  rw [loadField_words _ hf, loadField_words _ hf, hrdi, Cpu.called, Cpu.push_mem, store64,
    load_store_apart hfields (by omega)] at hkept
  exact congrArg (BitVec.ofNat 64) hkept

def iretqFields : List FrameField := [.rip, .cs, .rflags, .reg .rsp, .ss]

/-- At the stub's `iretq` the registers and the words it takes are what the
fields of the frame say. -/
theorem iretq_finds (hr : HandlerReturns m c (h c.called)) (hrdi : c.regs .rdi = c.rsp)
    (hval : ∀ f ∈ m.frame, load64 c.mem (c.rsp + BitVec.ofNat 64 (8 * m.frame.idxOf f)) = val f) :
    (∀ r, r ≠ .rsp → (execs h m.exit (exec h .callq c)).regs r = val (.reg r)) ∧
      ∀ f ∈ iretqFields, load64 (execs h m.exit (exec h .callq c)).mem
        ((execs h m.exit (exec h .callq c)).rsp + BitVec.ofNat 64 (8 * iretqFields.idxOf f)) = val f := by
  have hword : ∀ f ∈ m.frame, load64 (exec h .callq c).mem
      (c.rsp + BitVec.ofNat 64 (8 * m.frame.idxOf f)) = val f :=
    fun f hf => (returned_load hr hrdi hf).trans (hval f hf)
  obtain ⟨hrsp, hregs⟩ := exit_pops (h := h) m (exec h .callq c)
  rw [(callq_returns hr).2] at hrsp hregs
  refine ⟨fun r hne => ?_, fun f hf => ?_⟩
  · have hin : r ∈ savedRegs := by
      cases r <;> first | contradiction | decide
    have hframe : ∀ r ∈ savedRegs, .reg r ∈ m.frame := by
      cases m <;> decide
    exact (hregs r hin).trans (hword _ (hframe r hin))
  · have hplaces : ∀ f ∈ iretqFields,
        f ∈ m.frame ∧ m.frame.idxOf f = m.frame.length - 5 + iretqFields.idxOf f := by
      cases m <;> decide
    have hfield := hword f (hplaces f hf).1
    rw [(hplaces f hf).2, Nat.mul_add, BitVec.ofNat_add, ← BitVec.add_assoc] at hfield
    rw [exit_mem, hrsp, hfield]

theorem iretq_resumes_of_fields {s e : Cpu} {num : UINT8} {code : UINT64}
    (hregs : ∀ r, r ≠ .rsp → e.regs r = s.regs r)
    (hfields : ∀ f ∈ iretqFields, load64 e.mem (e.rsp + BitVec.ofNat 64 (8 * iretqFields.idxOf f)) =
      frameValue s num code f) :
    (exec h .iretq e).regs = s.regs ∧ (exec h .iretq e).rip = s.rip ∧ (exec h .iretq e).cs = s.cs ∧
      (exec h .iretq e).rflags = s.rflags ∧ (exec h .iretq e).ss = s.ss := by
  have hwidth : ∀ x : UINT16, (x.setWidth 64).setWidth 16 = x := fun x => by
    rw [BitVec.setWidth_setWidth_of_le _ (by decide), BitVec.setWidth_eq]
  have hcs := congrArg (BitVec.setWidth 16) (hfields .cs (by decide))
  have hss := congrArg (BitVec.setWidth 16) (hfields .ss (by decide))
  refine ⟨funext fun r => ?_, hfields .rip (by decide), hcs.trans (hwidth s.cs),
    hfields .rflags (by decide), hss.trans (hwidth s.ss)⟩
  by_cases hr : r = .rsp
  · subst hr
    exact (Cpu.setReg_same e .rsp _).trans (hfields (.reg .rsp) (by decide))
  · exact (Cpu.setReg_ne e .rsp _ hr).trans (hregs r hr)

end Return

section Entry
variable (h : Handler) (s : Cpu) (g : Gate) (stack code : UINT64) (num : UINT8) {m : Stub}

/-- A stub without an error code, delivered with one. -/
theorem atCall_pushed_shifted (hm : m ≠ .CPU_EXC) : Pushed (s.setReg .rsp (alignStack stack))
    (pushOrder SHIFTED_FRAME (frameValue s num code))
    (m.atCall h num (s.deliver g stack (some code))) := by
  have hframe : pushOrder SHIFTED_FRAME (frameValue s num code) =
      s.pushedFrame (some code) ++ pushOrder (.isr_num :: savedRegs.map .reg) (frameValue s num code) := rfl
  have hisr : Pushed (s.setReg .rsp (alignStack stack))
      (s.pushedFrame (some code) ++ pushOrder (.isr_num :: savedRegs.map .reg) (frameValue s num code))
      (Stub.USER_ISR.atCall h num (s.deliver g stack (some code))) := by
    rw [Stub.atCall, entry_isr]
    exact (deliver_pushed s g stack (some code)).append
      (isrBody_pushed h s code num _ fun r hr => deliver_regs s g stack (some code) hr)
  rw [hframe]
  cases m with
  | USER_ISR => exact hisr
  | CPU_ISR => exact hisr
  | CPU_EXC => exact absurd rfl hm

variable {v : Nat} {l : StubLine} (hl : Lines v l)
include hl

/-- The stubs of vectors 21 and 29 are not made for an error code. -/
theorem Lines.shifted (hv : OffByOne v) : pushesErrorCode v = true ∧ l.kind ≠ .CPU_EXC := by
  have hpushes : pushesErrorCode v = true := by
    cases hv with
    | inl h => rw [h]; rfl
    | inr h => rw [h]; rfl
  exact ⟨hpushes, fun hexc => hl.error.mp (iff_of_true hexc hpushes) hv⟩

/-- The other stubs are made for the frame that the CPU pushes. -/
theorem Lines.errorCode (hv : ¬ OffByOne v) :
    (if pushesErrorCode v then some code else none) = l.kind.errorCode code := by
  have hiff := hl.error.mpr hv
  rw [Stub.errorCode]
  by_cases hexc : l.kind = .CPU_EXC
  · rw [if_pos hexc, if_pos (hiff.mp hexc)]
  · rw [if_neg hexc, if_neg fun hp => hexc (hiff.mpr hp)]

/-- The words at the call, by the fields of the frame that the stub is made for. -/
theorem atCall_shown {f : FrameField} (hf : f ∈ l.kind.frame) :
    let c := l.kind.atCall h num (s.deliver g stack (if pushesErrorCode v then some code else none))
    load64 c.mem (c.rsp + BitVec.ofNat 64 (8 * l.kind.frame.idxOf f)) =
      frameValue s num code (shownField v f) := by
  by_cases hv : OffByOne v
  · obtain ⟨hpushes, hkind⟩ := hl.shifted hv
    have hframe : l.kind.frame = INTERRUPT_FRAME := by
      cases hm : l.kind with
      | USER_ISR => rfl
      | CPU_ISR => rfl
      | CPU_EXC => exact absurd hm hkind
    have hplaces : ∀ f ∈ INTERRUPT_FRAME,
        shiftedField f ∈ SHIFTED_FRAME ∧ SHIFTED_FRAME.idxOf (shiftedField f) = INTERRUPT_FRAME.idxOf f := by
      decide
    rw [hframe] at hf ⊢
    obtain ⟨hmem, hidx⟩ := hplaces f hf
    have hload := (atCall_pushed_shifted h s g stack code num hkind).load (by decide) hmem
    rw [hidx] at hload
    rw [if_pos hpushes, shownField, if_pos hv]
    exact hload
  · have hlen := frame_length_le l.kind
    have hload := (atCall_pushed h s g stack code num l.kind).load (by omega) hf
    rw [hl.errorCode code hv, shownField, if_neg hv]
    exact hload

end Entry

/-! ## Interrupts stay masked -/

theorem setFlag_other {bit i : Nat} (hne : i ≠ bit) (on : Bool) (flags : UINT64) :
    (setFlag bit on flags).getLsbD i = flags.getLsbD i := by
  have hbit : (1#64 <<< bit).getLsbD i = false := by
    rw [BitVec.getLsbD_shiftLeft, BitVec.getLsbD_one]
    simp
    omega
  unfold setFlag
  split
  · rw [BitVec.getLsbD_or, hbit, Bool.or_false]
  · rw [BitVec.getLsbD_and, BitVec.getLsbD_not, hbit, Bool.not_false, Bool.and_true]
    by_cases hi : i < 64
    · rw [decide_eq_true hi, Bool.and_true]
    · rw [BitVec.getLsbD_of_ge flags i (by omega), Bool.false_and]

theorem atCall_flags (h : Handler) (m : Stub) (num : UINT8) (d : Cpu) :
    (m.atCall h num d).rflags.getLsbD 9 = d.rflags.getLsbD 9 := by
  have hrun : ∀ is : List Instr, (∀ i ∈ is, i.Straight ∧ ∀ n r, i ≠ .addqImm n r) → ∀ d,
      (execs h is d).rflags.getLsbD 9 = d.rflags.getLsbD 9 := by
    intro is his
    induction is with
    | nil => exact fun _ => rfl
    | cons i is ih =>
      intro d
      have hi := his i List.mem_cons_self
      have hstep : (exec h i d).rflags.getLsbD 9 = d.rflags.getLsbD 9 := by
        cases i with
        | addqImm n r => exact absurd rfl (hi.2 n r)
        | callq => exact absurd rfl hi.1.1
        | iretq => exact absurd rfl hi.1.2
        | cld => exact setFlag_other (by decide) false d.rflags
        | _ => rfl
      rw [execs_cons, ih (fun j hj => his j (List.mem_cons_of_mem i hj)), hstep]
  refine hrun _ (fun i hi => ⟨entry_straight m num i hi, fun n r heq => ?_⟩) d
  subst heq
  cases m <;> simp [Stub.entry, Stub.code, USER_ISR_MACRO, CPU_ISR_MACRO, CPU_EXC_MACRO, isrBody,
    SAVE_ISR_REGISTERS] at hi

/-! ## The whole way -/

/-- Delivery of vector `v` to `s` through the IDT in its memory, on the stack
that the gate and the task state choose. -/
def interrupt (m : Machine) (v : Fin 256) (code : UINT64) (s : Cpu) : Cpu :=
  let d := idtOf s.mem m.idtr.BaseAddress v
  s.deliver ⟨d.offset, d.selector, d.type = 0xE⟩ (loadedStack { m with mem := s.mem } v s.rsp)
    (if pushesErrorCode v then some code else none)

/-- The address `InitializeISR` passes for vector `v`. -/
def Layout.pusher (L : Layout) (v : Nat) : UINT64 := ((pusherOf v).map L.addr).getD 0

section
variable (p : Placement) (L : Layout) (m : Machine) {s : Cpu} {v : Fin 256} {l : StubLine}

/-- Through an IDT as `InitializeISR` left it the CPU enters the stub with
interrupts masked. -/
theorem interrupt_eq (hl : Lines v l) (code : UINT64)
    (hidt : ∀ i < 4096, s.mem (p.IDT_data + BitVec.ofNat 64 i) =
      (InitializeISR p L.pusher m).mem (p.IDT_data + BitVec.ofNat 64 i)) :
    interrupt (InitializeISR p L.pusher m) v code s =
      s.deliver ⟨L.addr l.label, 8, true⟩
        (loadedStack { InitializeISR p L.pusher m with mem := s.mem } v s.rsp)
        (if pushesErrorCode v then some code else none) := by
  have hgate : idtOf s.mem p.IDT_data v = idtOf (InitializeISR p L.pusher m).mem p.IDT_data v := by
    refine readGate_congr fun i hi => ?_
    have := v.isLt
    rw [gateAddr, BitVec.add_assoc, ← BitVec.ofNat_add]
    exact hidt _ (by omega)
  have hpusher : L.pusher v = L.addr l.label := by
    rw [Layout.pusher, hl.pusher]
    rfl
  have hbase : (InitializeISR p L.pusher m).idtr.BaseAddress = p.IDT_data := rfl
  rw [interrupt, hbase, hgate, idtOf_InitializeISR, hpusher]
  rfl

end

/-- The call of vector `v`'s handler at `c`, delivered to `s` as `d`: the
handler that aborts with the vector's code, interrupts masked, RDI at a frame
with what `shown` says. -/
structure HandlerCall (L : Layout) (handlers : HandlerName → Handler) (v : Nat)
    (shown : FrameField → UINT64) (l : StubLine) (d c : Cpu) : Prop where
  stub : l ∈ stubLines ∧ l.num = v
  code : abortCode l.name = if v ≤ 20 ∧ v ≠ 15 ∨ v = 30 then BitVec.ofNat 64 v else BitVec.allOnes 64
  steps : TextSteps L handlers d c
  call : fetchText L c.rip = some (l, .callq)
  masked : c.rflags.getLsbD 9 = false
  frame : ∀ f ∈ l.kind.frame,
    loadField c.mem (words l.kind.frame) (c.regs .rdi) f = (shown f).toNat

/-- The stub at its `iretq`, with what `shown` says to return to. -/
structure HandlerReturn (L : Layout) (handlers : HandlerName → Handler)
    (shown : FrameField → UINT64) (l : StubLine) (c e : Cpu) : Prop where
  steps : TextSteps L handlers c e
  iretq : fetchText L e.rip = some (l, .iretq)
  regs : ∀ r, r ≠ .rsp → e.regs r = shown (.reg r)
  words : ∀ f ∈ iretqFields,
    load64 e.mem (e.rsp + BitVec.ofNat 64 (8 * iretqFields.idxOf f)) = shown f

section
variable {L : Layout} {handlers : HandlerName → Handler} {v : Nat} {l : StubLine} {s : Cpu} {g : Gate}
  (stack code : UINT64)

/-- What a delivery of `v` through `g` shows the handler. -/
def shown (s : Cpu) (v : Nat) (code : UINT64) (f : FrameField) : UINT64 :=
  frameValue s (BitVec.ofNat 8 v) code (shownField v f)

/-- The machine as the stub of `v` calls its handler. -/
def atHandler (handlers : HandlerName → Handler) (v : Nat) (l : StubLine) (d : Cpu) : Cpu :=
  l.kind.atCall (handlers l.name) (BitVec.ofNat 8 v) d

theorem stub_code (hl : Lines v l) : l.code = l.kind.code (BitVec.ofNat 8 v) := by
  rw [StubLine.code, hl.num]

theorem gate_masks {g : Gate} (hmask : g.clearsIF = true) (error : Option UINT64) :
    (s.deliver g stack error).rflags.getLsbD 9 = false := by
  have hflags : (s.deliver g stack error).rflags = g.flags s.rflags := rfl
  rw [hflags, Gate.flags, if_pos hmask, setFlag]
  simp

variable (hl : Lines v l) (hoffset : g.offset = L.addr l.label)
include hl hoffset

/-- A delivery through a masking gate to the stub of `v` gets to its call. -/
theorem handlerCall_of_lines (hmask : g.clearsIF = true) :
    let d := s.deliver g stack (if pushesErrorCode v then some code else none)
    HandlerCall L handlers v (shown s v code) l d (atHandler handlers v l d) := by
  intro d
  have hd : d.rip = L.addr l.label := hoffset
  obtain ⟨hsteps, -, hcall⟩ := reaches_call l.kind (handlers l.name) (BitVec.ofNat 8 v) hd
  rw [← stub_code hl] at hsteps hcall
  refine ⟨⟨hl.stub, hl.num⟩, hl.code, textSteps_of_steps hl.stub hsteps, fetchText_eq hl.stub hcall, ?_,
    fun f hf => ?_⟩
  · rw [atHandler, atCall_flags]
    exact gate_masks stack hmask _
  · have hword := atCall_shown (handlers l.name) s g stack code (BitVec.ofNat 8 v) hl hf
    rw [atHandler, atCall_rdi, loadField_words _ hf, ← load64_toNat]
    exact congrArg BitVec.toNat hword

theorem handlerReturn_of_lines :
    let d := s.deliver g stack (if pushesErrorCode v then some code else none)
    let c := atHandler handlers v l d
    HandlerReturns l.kind c (handlers l.name c.called) →
      HandlerReturn L handlers (shown s v code) l c
        (execs (handlers l.name) l.kind.exit (exec (handlers l.name) .callq c)) := by
  intro d c hr
  have hd : d.rip = L.addr l.label := hoffset
  obtain ⟨-, hrip, -⟩ := reaches_call l.kind (handlers l.name) (BitVec.ofNat 8 v) hd
  obtain ⟨hsteps, hiretq⟩ := reaches_iretq l.kind (handlers l.name) (BitVec.ofNat 8 v) hrip hr
  rw [← stub_code hl] at hsteps hiretq
  obtain ⟨hregs, hwords⟩ := iretq_finds hr (atCall_rdi _ _ _ d) fun f hf =>
    atCall_shown (handlers l.name) s g stack code (BitVec.ofNat 8 v) hl hf
  exact ⟨textSteps_of_steps hl.stub hsteps, fetchText_eq hl.stub hiretq, hregs, hwords⟩

end

/-- With the fields in their places the next step resumes the interrupted program. -/
theorem HandlerReturn.resumes {L : Layout} {handlers : HandlerName → Handler} {v : Nat} {code : UINT64}
    {l : StubLine} {s c e : Cpu} (hret : HandlerReturn L handlers (shown s v code) l c e)
    (hv : ¬ OffByOne v) : ∃ t, textStep L handlers e = some t ∧
      t.regs = s.regs ∧ t.rip = s.rip ∧ t.cs = s.cs ∧ t.rflags = s.rflags ∧ t.ss = s.ss := by
  have hshown : shown s v code = frameValue s (BitVec.ofNat 8 v) code := by
    funext f
    rw [shown, shownField, if_neg hv]
  obtain ⟨_, hiretq, hregs, hwords⟩ := hret
  rw [hshown] at hregs hwords
  refine ⟨exec (handlers l.name) .iretq e, ?_, iretq_resumes_of_fields hregs hwords⟩
  rw [textStep, hiretq]
  rfl

/-- **Every vector reaches its handler.** Wherever the linker puts the tables
and the stubs, delivery of any vector through an IDT as `InitializeISR` left it
runs the stub of that number up to the call of the handler whose `Abort` code
is the vector, all ones for reserved and user vectors. Interrupts are masked,
and the fields of the frame are those of the interrupted machine, one word off
for vectors 21 and 29. After any handler that returns the stub gets to its
`iretq` with those words, so for all vectors but these two the interrupted
program is resumed. Memory is flat, and all of it can be written, the stack of
vector 2 too, whose pointer is never set. -/
theorem vector_reaches_handler (p : Placement) (L : Layout) (m : Machine)
    (handlers : HandlerName → Handler) (v : Fin 256) (code : UINT64) (s : Cpu)
    (hidt : ∀ i < 4096, s.mem (p.IDT_data + BitVec.ofNat 64 i) =
      (InitializeISR p L.pusher m).mem (p.IDT_data + BitVec.ofNat 64 i)) :
    let d := interrupt (InitializeISR p L.pusher m) v code s
    ∃ l c, HandlerCall L handlers v (shown s v code) l d c ∧
      (HandlerReturns l.kind c (handlers l.name c.called) →
        ∃ e, HandlerReturn L handlers (shown s v code) l c e ∧
          (¬ OffByOne v → ∃ t, textStep L handlers e = some t ∧
            t.regs = s.regs ∧ t.rip = s.rip ∧ t.cs = s.cs ∧ t.rflags = s.rflags ∧ t.ss = s.ss)) := by
  intro d
  obtain ⟨l, hl⟩ := exists_lines v.isLt
  have hd : d = _ := interrupt_eq p L m hl code hidt
  refine ⟨l, atHandler handlers v l d, ?_, fun hr => ?_⟩
  · rw [hd]
    exact handlerCall_of_lines _ code hl rfl rfl
  · rw [hd] at hr ⊢
    have hreturn := handlerReturn_of_lines _ code hl rfl hr
    exact ⟨_, hreturn, hreturn.resumes⟩

theorem stubLines_lt : ∀ l ∈ stubLines, l.num < 256 := by
  have hcpu : ∀ l ∈ cpuStubLines, l.num < 32 := by decide
  intro l hl
  cases List.mem_append.mp hl with
  | inl h =>
    have := hcpu l h
    omega
  | inr h =>
    obtain ⟨n, hn, rfl⟩ := List.mem_map.mp h
    have := List.mem_range'_1.mp hn
    dsimp only
    omega

theorem stubLines_num : stubLines.Pairwise fun l k => l.num ≠ k.num := by
  have hcpu : cpuStubLines.Pairwise fun l k => l.num ≠ k.num := by decide
  have hlt : ∀ l ∈ cpuStubLines, l.num < 32 := by decide
  refine List.pairwise_append.mpr ⟨hcpu, List.pairwise_map.mpr List.nodup_range', fun l hl k hk => ?_⟩
  obtain ⟨n, hn, rfl⟩ := List.mem_map.mp hk
  have := hlt l hl
  have := List.mem_range'_1.mp hn
  dsimp only
  omega

def spaced : Layout where
  addr q := 0xFFFFFFFFC0100000 + BitVec.ofNat 64 (1024 * q.num)
  disjoint := by
    refine stubLines_num.imp_of_mem fun {l k} hl hk hne => ?_
    have := stubLines_lt l hl
    have := stubLines_lt k hk
    have hsize : ∀ l : StubLine, codeSize l.code ≤ 280 := fun l => by
      have := X86.codeSize_le l.code
      have : l.code.length ≤ 40 := code_length l.kind _
      omega
    have := hsize l
    have := hsize k
    exact apart_of_offsets (by dsimp [StubLine.label]; omega) (by dsimp [StubLine.label]; omega)
      (by dsimp [StubLine.label]; omega)

def idleOn (m : Machine) : Cpu := { idle with mem := m.mem }

@[simp] theorem idleOn_mem (m : Machine) : (idleOn m).mem = m.mem := rfl

/-- A page fault on an idle machine, with the tables as `InitializeISR` leaves them. -/
theorem vector_reaches_handler_idle :
    let kernel := InitializeISR higherHalf spaced.pusher (atEntry higherHalf.toObjects)
    ∃ l c, HandlerCall spaced (fun _ => wreck) 14 (shown (idleOn kernel) 14 2) l
      (interrupt kernel 14 2 (idleOn kernel)) c := by
  intro kernel
  have hidt : ∀ i < 4096, (idleOn kernel).mem (higherHalf.IDT_data + BitVec.ofNat 64 i) =
      kernel.mem (higherHalf.IDT_data + BitVec.ofNat 64 i) := fun i _ => by rw [idleOn_mem]
  obtain ⟨l, c, hcall, -⟩ := vector_reaches_handler higherHalf spaced (atEntry higherHalf.toObjects)
    (fun _ => wreck) 14 2 (idleOn kernel) hidt
  exact ⟨l, c, hcall⟩

end PiousOS.Kernel
