import Mathlib.Data.List.Induction
import Mathlib.Logic.Function.Basic
import PiousOS.L2Machine.Descriptors
import PiousOS.L4Kernel.ISR

/-!
# The descriptors as a table (`arch/kernel/x86_64/ISR.c`)

The seven helpers and the TSS setup split 64-bit addresses over the fields of
packed structs. Read back by the CPU, the IDT is a table from vectors to gates,
and a call of a helper is an update of that table at one vector.

Results:
* `idtOf_run`, `idtOf_setEntries`: a call, and any sequence of calls, updates
  the table; no address bit is lost and no other gate is touched.
* `readSystemDescriptor_setTssBase`: the four stores of the TSS address change
  the base of the descriptor, to exactly that address, and nothing else.
* `descriptors_lossless`: both, with the values of `MinimalGDT`.
-/
namespace PiousOS.Kernel
open ByteMem X86

/-! ## Calls and their gates -/

/-- A call of a helper on a vector. -/
structure EntryCall where
  entry : SetEntry
  isrNum : Fin 256
  isrAddr : UINT64
  deriving DecidableEq, Repr

def EntryCall.run (IDT_data : UINT64) (c : EntryCall) : ByteMem → ByteMem :=
  c.entry.call IDT_data c.isrNum c.isrAddr

def setEntries (IDT_data : UINT64) (calls : List EntryCall) (mem : ByteMem) : ByteMem :=
  calls.foldl (fun mem c => c.run IDT_data mem) mem

/-- An interrupt gate of the kernel's code segment. -/
def interruptGate (isrAddr : UINT64) (ist : BitVec 3) : GateDescriptor where
  offset := isrAddr
  selector := 0x08
  ist := ist
  type := 0xE
  dpl := 0
  present := true

/-- The gate a call asks for. -/
def EntryCall.gate (c : EntryCall) : GateDescriptor :=
  match c.entry with
  | .interrupt => interruptGate c.isrAddr 0
  | .trap => { interruptGate c.isrAddr 0 with type := 0xF }
  | .unused => { interruptGate 0 0 with present := false }
  | .nmi => interruptGate c.isrAddr 1
  | .df => interruptGate c.isrAddr 2
  | .mc => interruptGate c.isrAddr 3
  | .bp => interruptGate c.isrAddr 4

/-- The IDT in memory, as a table. -/
def idtOf (mem : ByteMem) (IDT_data : UINT64) (v : Fin 256) : GateDescriptor := readGate mem (gateAddr IDT_data v)

/-- The last call on a vector. -/
def lastCall (v : Fin 256) (calls : List EntryCall) : Option EntryCall :=
  calls.reverse.find? fun c => c.isrNum = v

section
variable {IDT_data isrAddr x : UINT64} {n : Nat} {ist misc : UINT8} {mem : ByteMem}

/-- An address in the three parts of a gate. -/
theorem gate_offset (addr : UINT64) :
    BitVec.ofNat 64 (addr.toNat % 256 ^ 2 + (addr >>> 16).toNat % 256 ^ 2 * 2 ^ 16 +
      (addr >>> 32).toNat % 256 ^ 4 * 2 ^ 32) = addr := by
  apply BitVec.eq_of_toNat_eq
  have hlt := addr.isLt
  simp only [BitVec.toNat_ushiftRight, Nat.shiftRight_eq_div_pow, BitVec.toNat_ofNat]
  omega

/-- What the CPU reads, by the fields of the struct. -/
theorem readGate_eq (mem : ByteMem) (a : UINT64) : readGate mem a =
    { offset := BitVec.ofNat 64 (loadField mem IDT_GATE_STRUCT a .Offset1 +
        loadField mem IDT_GATE_STRUCT a .Offset2 * 2 ^ 16 +
        loadField mem IDT_GATE_STRUCT a .Offset3 * 2 ^ 32)
      selector := BitVec.ofNat 16 (loadField mem IDT_GATE_STRUCT a .SegmentSelector)
      ist := BitVec.ofNat 3 (loadField mem IDT_GATE_STRUCT a .ISTandZero)
      type := BitVec.ofNat 4 (loadField mem IDT_GATE_STRUCT a .Misc)
      dpl := BitVec.ofNat 2 (loadField mem IDT_GATE_STRUCT a .Misc / 2 ^ 5)
      present := loadField mem IDT_GATE_STRUCT a .Misc / 2 ^ 7 = 1 } := rfl

/-- What the helpers store in a field. -/
theorem loadField_setGate_eq (f : GateField) {v : Nat}
    (hv : lastStored f [(.Offset1, isrAddr.toNat), (.SegmentSelector, 0x08), (.ISTandZero, ist.toNat),
      (.Misc, misc.toNat), (.Offset2, (isrAddr >>> 16).toNat), (.Offset3, (isrAddr >>> 32).toNat),
      (.Reserved, 0)] = some v) :
    loadField (setGate IDT_data n isrAddr ist misc mem) IDT_GATE_STRUCT (gateAddr IDT_data n) f =
      v % 256 ^ fieldSize IDT_GATE_STRUCT f := by
  have hstores : setGate IDT_data n isrAddr ist misc mem = storeFields mem IDT_GATE_STRUCT
      (gateAddr IDT_data n) [(.Offset1, isrAddr.toNat), (.SegmentSelector, 0x08),
        (.ISTandZero, ist.toNat), (.Misc, misc.toNat), (.Offset2, (isrAddr >>> 16).toNat),
        (.Offset3, (isrAddr >>> 32).toNat), (.Reserved, 0)] := rfl
  rw [hstores, loadField_storeFields (by decide), hv]

/-- The gate in what the helpers store. -/
theorem readGate_setGate : readGate (setGate IDT_data n isrAddr ist misc mem) (gateAddr IDT_data n) =
    { offset := isrAddr
      selector := 0x08
      ist := BitVec.ofNat 3 ist.toNat
      type := BitVec.ofNat 4 misc.toNat
      dpl := BitVec.ofNat 2 (misc.toNat / 2 ^ 5)
      present := misc.toNat / 2 ^ 7 = 1 } := by
  have hist : ist.toNat % 256 ^ 1 = ist.toNat := Nat.mod_eq_of_lt ist.isLt
  have hmisc : misc.toNat % 256 ^ 1 = misc.toNat := Nat.mod_eq_of_lt misc.isLt
  rw [readGate_eq, loadField_setGate_eq .Offset1 rfl, loadField_setGate_eq .Offset2 rfl,
    loadField_setGate_eq .Offset3 rfl, loadField_setGate_eq .SegmentSelector rfl,
    loadField_setGate_eq .ISTandZero rfl, loadField_setGate_eq .Misc rfl]
  have hoffset := gate_offset isrAddr
  simp only [fieldSize, IDT_GATE_STRUCT, reduceCtorEq, if_true, if_false, hist, hmisc, hoffset]
  rfl

/-- A helper leaves the gate its call asks for. -/
theorem readGate_run (c : EntryCall) :
    readGate (c.run IDT_data mem) (gateAddr IDT_data c.isrNum) = c.gate := by
  obtain ⟨entry, isrNum, isrAddr⟩ := c
  cases entry with
  | interrupt => exact readGate_setGate
  | trap => exact readGate_setGate
  | unused => exact readGate_setGate
  | nmi => exact readGate_setGate
  | df => exact readGate_setGate
  | mc => exact readGate_setGate
  | bp => exact readGate_setGate

/-- A helper writes the 16 bytes of its gate only. -/
theorem setGate_outside (hx : ¬ (x - gateAddr IDT_data n).toNat < 16) :
    setGate IDT_data n isrAddr ist misc mem x = mem x := by
  have hapart : Apart x 1 (gateAddr IDT_data n) 16 := by
    intro y hy
    have hyx : y = x := by bv_omega
    rwa [hyx]
  have hload : load (setGate IDT_data n isrAddr ist misc mem) x 1 = load mem x 1 :=
    load_setGate_apart hapart (by decide)
  have hbyte := load_injective hload 0 Nat.one_pos
  have hz : x + BitVec.ofNat 64 0 = x := BitVec.add_zero x
  rwa [hz] at hbyte

theorem run_outside {c : EntryCall} (hx : ¬ (x - gateAddr IDT_data c.isrNum).toNat < 16) :
    c.run IDT_data mem x = mem x := by
  obtain ⟨addr, misc, hcall⟩ := c.entry.call_eq IDT_data c.isrNum c.isrAddr
  rw [EntryCall.run, hcall]
  exact setGate_outside hx

/-- The bytes of one gate are not in another. -/
theorem gate_byte_outside {v n : Fin 256} (h : v ≠ n) {i : Nat} (hi : i < 16) :
    ¬ (gateAddr IDT_data v + BitVec.ofNat 64 i - gateAddr IDT_data n).toNat < 16 := by
  have hv := v.isLt
  have hn := n.isLt
  have hne : v.val ≠ n.val := fun heq => h (Fin.ext heq)
  have hapart : Apart (gateAddr IDT_data v) 16 (gateAddr IDT_data n) 16 :=
    apart_of_offsets (by omega) (by omega) (by omega)
  exact hapart _ (by rw [add_ofNat_sub _ (by omega)]; exact hi)

end

/-! ## The IDT is a table -/

section
variable {IDT_data : UINT64} {mem : ByteMem} {calls : List EntryCall} {v : Fin 256}

/-- A call updates the table at its vector. -/
theorem idtOf_run (c : EntryCall) :
    idtOf (c.run IDT_data mem) IDT_data = Function.update (idtOf mem IDT_data) c.isrNum c.gate := by
  funext v
  by_cases hv : v = c.isrNum
  · rw [hv, Function.update_self]
    exact readGate_run c
  · rw [Function.update_of_ne hv]
    exact readGate_congr fun i hi => run_outside (gate_byte_outside hv hi)

/-- Calls update the table one after the other. -/
theorem idtOf_setEntries (IDT_data : UINT64) (calls : List EntryCall) (mem : ByteMem) :
    idtOf (setEntries IDT_data calls mem) IDT_data =
      calls.foldl (fun table c => Function.update table c.isrNum c.gate) (idtOf mem IDT_data) := by
  induction calls generalizing mem with
  | nil => rfl
  | cons c calls ih => rw [setEntries, List.foldl_cons, ← setEntries, ih, idtOf_run, List.foldl_cons]

/-- Of the updates at a vector the last one counts. -/
theorem foldl_update_lastCall (table : Fin 256 → GateDescriptor) :
    calls.foldl (fun table c => Function.update table c.isrNum c.gate) table v =
      match lastCall v calls with
      | some c => c.gate
      | none => table v := by
  induction calls using List.reverseRecOn with
  | nil => rfl
  | append_singleton calls c ih =>
    rw [List.foldl_append, List.foldl_cons, List.foldl_nil, lastCall, List.reverse_append,
      List.reverse_singleton, List.singleton_append, List.find?_cons]
    by_cases hv : c.isrNum = v
    · simp [hv]
    · rw [Function.update_of_ne (Ne.symm hv), ih]
      simp [hv, lastCall]

/-- A vector no call names keeps the bytes of its gate. -/
theorem setEntries_unnamed (h : lastCall v calls = none) {i : Nat} (hi : i < 16) :
    setEntries IDT_data calls mem (gateAddr IDT_data v + BitVec.ofNat 64 i) =
      mem (gateAddr IDT_data v + BitVec.ofNat 64 i) := by
  have hnamed : ∀ c ∈ calls, v ≠ c.isrNum := by
    intro c hc heq
    have hnone := List.find?_eq_none.mp h c (List.mem_reverse.mpr hc)
    exact hnone (decide_eq_true heq.symm)
  clear h
  induction calls generalizing mem with
  | nil => rfl
  | cons c calls ih =>
    rw [setEntries, List.foldl_cons, ← setEntries, ih fun d hd => hnamed d (List.mem_cons_of_mem c hd)]
    exact run_outside (gate_byte_outside (hnamed c List.mem_cons_self) hi)

end

/-! ## The TSS descriptor -/

/-- mirrors arch/kernel/x86_64/system.c:7 -/
def MinimalGDT : List UINT64 := [0, 0x00af9a000000ffff, 0x00cf92000000ffff, 0x0080890000000067, 0]

section
variable {gdt tss64 : UINT64} {mem : ByteMem}

theorem readSystemDescriptor_eq (mem : ByteMem) (a : UINT64) : readSystemDescriptor mem a =
    { base := descriptorBase mem a
      limit := BitVec.ofNat 20 (loadField mem TSS_LDT_ENTRY_STRUCT a .SegmentLimit1 +
        loadField mem TSS_LDT_ENTRY_STRUCT a .SegmentLimit2andMisc2 % 2 ^ 4 * 2 ^ 16)
      type := BitVec.ofNat 4 (loadField mem TSS_LDT_ENTRY_STRUCT a .Misc1)
      dpl := BitVec.ofNat 2 (loadField mem TSS_LDT_ENTRY_STRUCT a .Misc1 / 2 ^ 5)
      present := loadField mem TSS_LDT_ENTRY_STRUCT a .Misc1 / 2 ^ 7 = 1
      granularity := loadField mem TSS_LDT_ENTRY_STRUCT a .SegmentLimit2andMisc2 / 2 ^ 7 = 1 } := rfl

/-- The four stores leave the fields without address bits alone. -/
theorem loadField_setTssBase {f : DescriptorField}
    (hf : lastStored f [(.BaseAddress1, tss64.toNat), (.BaseAddress2, (tss64 >>> 16).toNat),
      (.BaseAddress3, (tss64 >>> 24).toNat), (.BaseAddress4, (tss64 >>> 32).toNat)] = none) :
    loadField (setTssBase gdt tss64 mem) TSS_LDT_ENTRY_STRUCT (gdt + 24#64) f =
      loadField mem TSS_LDT_ENTRY_STRUCT (gdt + 24#64) f := by
  have hstores : setTssBase gdt tss64 mem = storeFields mem TSS_LDT_ENTRY_STRUCT (gdt + 24#64)
      [(.BaseAddress1, tss64.toNat), (.BaseAddress2, (tss64 >>> 16).toNat),
        (.BaseAddress3, (tss64 >>> 24).toNat), (.BaseAddress4, (tss64 >>> 32).toNat)] := rfl
  rw [hstores, loadField_storeFields (by decide), hf]

/-- They change the base to the whole address, and nothing else. -/
theorem readSystemDescriptor_setTssBase (gdt tss64 : UINT64) (mem : ByteMem) :
    readSystemDescriptor (setTssBase gdt tss64 mem) (gdt + 24#64) =
      { readSystemDescriptor mem (gdt + 24#64) with base := tss64 } := by
  rw [readSystemDescriptor_eq, readSystemDescriptor_eq, descriptorBase_setTssBase,
    loadField_setTssBase (f := .SegmentLimit1) rfl, loadField_setTssBase (f := .SegmentLimit2andMisc2) rfl,
    loadField_setTssBase (f := .Misc1) rfl]

/-- The descriptor in `MinimalGDT` as initialised. -/
theorem readSystemDescriptor_MinimalGDT (gdt : UINT64) (mem : ByteMem) :
    { readSystemDescriptor (storeWords mem gdt MinimalGDT) (gdt + 24#64) with base := tss64 } =
      { base := tss64, limit := 0x67, type := 9, dpl := 0, present := true, granularity := true } := by
  have hword : load (storeWords mem gdt MinimalGDT) (gdt + 24#64) 8 = 0x0080890000000067 := by
    have h3 : load64 (storeWords mem gdt MinimalGDT) (gdt + BitVec.ofNat 64 (8 * 3)) = MinimalGDT[3] :=
      load64_storeWords (by decide) (by decide)
    rw [← load64_toNat]
    exact congrArg BitVec.toNat h3
  have hpart : ∀ o n, o + n ≤ 8 →
      load (storeWords mem gdt MinimalGDT) (gdt + 24#64 + BitVec.ofNat 64 o) n =
        0x0080890000000067 / 256 ^ o % 256 ^ n := fun o n h => by rw [load_slice _ _ h, hword]
  have h0 := hpart 0 2 (by decide)
  have h5 := hpart 5 1 (by decide)
  have h6 := hpart 6 1 (by decide)
  simp only [readSystemDescriptor, h0, h5, h6]
  rfl

/-- With G set the 0x67 are pages: the segment ends long after the TSS. -/
theorem tss_lastByte (gdt tss64 : UINT64) (mem : ByteMem) :
    (readSystemDescriptor (setTssBase gdt tss64 (storeWords mem gdt MinimalGDT)) (gdt + 24#64)).lastByte =
      0x67FFF := by
  rw [readSystemDescriptor_setTssBase, readSystemDescriptor_MinimalGDT]
  simp [SystemDescriptor.lastByte]

end

/-- **Descriptors lose no bit and touch no neighbour.** After any calls of the
seven helpers on vectors 0 to 255, with any addresses, the CPU reads in each
gate what the last call on its vector asked for, and a vector no call names
keeps its 16 bytes. For any address of `tss64` the CPU reads in the descriptor
at selector 0x18 that base, and limit field, type, present bit and the
remaining flags as initialised. -/
theorem descriptors_lossless (IDT_data : UINT64) (calls : List EntryCall) (mem : ByteMem)
    (gdt tss64 : UINT64) :
    (∀ v : Fin 256, match lastCall v calls with
      | some c => readGate (setEntries IDT_data calls mem) (gateAddr IDT_data v) = c.gate
      | none => ∀ i < 16, setEntries IDT_data calls mem (gateAddr IDT_data v + BitVec.ofNat 64 i) =
          mem (gateAddr IDT_data v + BitVec.ofNat 64 i)) ∧
    readSystemDescriptor (setTssBase gdt tss64 (storeWords mem gdt MinimalGDT)) (gdt + 0x18#64) =
      { base := tss64, limit := 0x67, type := 9, dpl := 0, present := true, granularity := true } := by
  refine ⟨fun v => ?_, ?_⟩
  · cases hlast : lastCall v calls with
    | some c =>
      have htable := congrFun (idtOf_setEntries IDT_data calls mem) v
      rw [foldl_update_lastCall, hlast] at htable
      exact htable
    | none => exact fun i hi => setEntries_unnamed hlast hi
  · rw [readSystemDescriptor_setTssBase]
    exact readSystemDescriptor_MinimalGDT gdt mem

end PiousOS.Kernel
