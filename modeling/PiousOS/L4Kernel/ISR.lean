import PiousOS.Core.ByteMem

/-!
# Interrupt setup (`arch/kernel/x86_64/ISR.c`)

`InitializeISR` fills the TSS descriptor of the GDT, the interrupt stack
pointers of the TSS and the 256 gates of the IDT, all packed structs in byte
memory. The linker chooses where they and the four stacks lie; a `Placement`
is any choice with disjoint objects.

The CPU half follows the manuals: `ltr` latches the base in the descriptor,
a gate with IST = n ≥ 1 makes delivery load RSP from the 8 bytes at TSS offset
0x24 + 8 (n - 1) (`loadedStack`), and the frame is pushed below it (`deliver`).

* `gateIST_setGates`: a gate has the IST number of the last call for it;
* `istPointer_eq`: TSS offset 0x24 holds `IST0`, so IST = n loads the field
  `IST(n - 1)`;
* `loadedStack_nmi`, `loadedStack_df`, `loadedStack_mc`, `loadedStack_bp`:
  the stack each critical exception gets.
-/
namespace PiousOS.Kernel
open ByteMem

/-! ## Structs of `system.h` -/

/-- mirrors arch/kernel/x86_64/system.h:9-12 -/
structure DT_STRUCT where
  Limit : UINT16
  BaseAddress : UINT64

inductive TSS64Field where
  | Reserved_0 | RSP0 | RSP1 | RSP2 | Reserved_1
  | IST0 | IST1 | IST2 | IST3 | IST4 | IST5 | IST6 | IST7
  | Reserved_2 | Reserved_3 | IO_Map_Base
  deriving DecidableEq, Repr

/-- mirrors arch/kernel/x86_64/system.h:15-38 -/
def TSS64_STRUCT : List (TSS64Field × Nat) :=
  [(.Reserved_0, 4), (.RSP0, 8), (.RSP1, 8), (.RSP2, 8), (.Reserved_1, 8),
   (.IST0, 8), (.IST1, 8), (.IST2, 8), (.IST3, 8), (.IST4, 8), (.IST5, 8), (.IST6, 8), (.IST7, 8),
   (.Reserved_2, 8), (.Reserved_3, 2), (.IO_Map_Base, 2)]

inductive DescriptorField where
  | SegmentLimit1 | BaseAddress1 | BaseAddress2 | Misc1 | SegmentLimit2andMisc2 | BaseAddress3
  | BaseAddress4 | Reserved | Misc3andReserved2 | Reserved3
  deriving DecidableEq, Repr

/-- mirrors arch/kernel/x86_64/system.h:40-51 -/
def TSS_LDT_ENTRY_STRUCT : List (DescriptorField × Nat) :=
  [(.SegmentLimit1, 2), (.BaseAddress1, 2), (.BaseAddress2, 1), (.Misc1, 1),
   (.SegmentLimit2andMisc2, 1), (.BaseAddress3, 1), (.BaseAddress4, 4), (.Reserved, 1),
   (.Misc3andReserved2, 1), (.Reserved3, 2)]

inductive GateField where
  | Offset1 | SegmentSelector | ISTandZero | Misc | Offset2 | Offset3 | Reserved
  deriving DecidableEq, Repr

/-- mirrors arch/kernel/x86_64/system.h:62-70 -/
def IDT_GATE_STRUCT : List (GateField × Nat) :=
  [(.Offset1, 2), (.SegmentSelector, 2), (.ISTandZero, 1), (.Misc, 1), (.Offset2, 2), (.Offset3, 4),
   (.Reserved, 4)]

/-! ## Gates -/

/-- `&IDT_data[isrNum]` -/
def gateAddr (IDT_data : UINT64) (isrNum : Nat) : UINT64 :=
  IDT_data + BitVec.ofNat 64 (16 * isrNum)

/-- The body the seven helpers share, store by store; they differ in IST and
type. -/
def setGate (IDT_data : UINT64) (isrNum : Nat) (isrAddr : UINT64) (ist misc : UINT8)
    (mem : ByteMem) : ByteMem :=
  let gate := gateAddr IDT_data isrNum
  let mem := storeField mem IDT_GATE_STRUCT gate .Offset1 isrAddr.toNat
  let mem := storeField mem IDT_GATE_STRUCT gate .SegmentSelector 0x08
  let mem := storeField mem IDT_GATE_STRUCT gate .ISTandZero ist.toNat
  let mem := storeField mem IDT_GATE_STRUCT gate .Misc misc.toNat
  let mem := storeField mem IDT_GATE_STRUCT gate .Offset2 (isrAddr >>> 16).toNat
  let mem := storeField mem IDT_GATE_STRUCT gate .Offset3 (isrAddr >>> 32).toNat
  storeField mem IDT_GATE_STRUCT gate .Reserved 0

/-- mirrors arch/kernel/x86_64/ISR.c:409-418 -/
def SetInterruptEntry (IDT_data : UINT64) (isrNum : Nat) (isrAddr : UINT64) : ByteMem → ByteMem :=
  setGate IDT_data isrNum isrAddr 0x00 0x8E

/-- mirrors arch/kernel/x86_64/ISR.c:420-429 -/
def SetTrapEntry (IDT_data : UINT64) (isrNum : Nat) (isrAddr : UINT64) : ByteMem → ByteMem :=
  setGate IDT_data isrNum isrAddr 0x00 0x8F

/-- mirrors arch/kernel/x86_64/ISR.c:431-440 -/
def SetUnusedEntry (IDT_data : UINT64) (isrNum : Nat) : ByteMem → ByteMem :=
  setGate IDT_data isrNum 0 0 0x0E

/-- mirrors arch/kernel/x86_64/ISR.c:441-451 -/
def SetNMIInterruptEntry (IDT_data : UINT64) (isrNum : Nat) (isrAddr : UINT64) : ByteMem → ByteMem :=
  setGate IDT_data isrNum isrAddr 1 0x8E

/-- mirrors arch/kernel/x86_64/ISR.c:454-463 -/
def SetDFInterruptEntry (IDT_data : UINT64) (isrNum : Nat) (isrAddr : UINT64) : ByteMem → ByteMem :=
  setGate IDT_data isrNum isrAddr 2 0x8E

/-- mirrors arch/kernel/x86_64/ISR.c:466-475 -/
def SetMCInterruptEntry (IDT_data : UINT64) (isrNum : Nat) (isrAddr : UINT64) : ByteMem → ByteMem :=
  setGate IDT_data isrNum isrAddr 3 0x8E

/-- mirrors arch/kernel/x86_64/ISR.c:478-487 -/
def SetBPInterruptEntry (IDT_data : UINT64) (isrNum : Nat) (isrAddr : UINT64) : ByteMem → ByteMem :=
  setGate IDT_data isrNum isrAddr 4 0x8E

/-- The helper a line of `InitializeISR` or another caller names. -/
inductive SetEntry where
  | interrupt | trap | unused | nmi | df | mc | bp
  deriving DecidableEq, Repr

def SetEntry.call (e : SetEntry) (IDT_data : UINT64) (isrNum : Nat) (isrAddr : UINT64) :
    ByteMem → ByteMem :=
  match e with
  | .interrupt => SetInterruptEntry IDT_data isrNum isrAddr
  | .trap => SetTrapEntry IDT_data isrNum isrAddr
  | .unused => SetUnusedEntry IDT_data isrNum
  | .nmi => SetNMIInterruptEntry IDT_data isrNum isrAddr
  | .df => SetDFInterruptEntry IDT_data isrNum isrAddr
  | .mc => SetMCInterruptEntry IDT_data isrNum isrAddr
  | .bp => SetBPInterruptEntry IDT_data isrNum isrAddr

/-- The calls of `InitializeISR` in program order. Vector 8, the double
fault, is set with the machine-check helper, as in the source.
mirrors arch/kernel/x86_64/ISR.c:114-393 -/
def isrEntries : List (SetEntry × Nat) :=
  [(.interrupt, 0), (.interrupt, 1), (.nmi, 2), (.bp, 3), (.interrupt, 4), (.interrupt, 5),
   (.interrupt, 6), (.interrupt, 7), (.mc, 8), (.interrupt, 9), (.interrupt, 10), (.interrupt, 11),
   (.interrupt, 12), (.interrupt, 13), (.interrupt, 14), (.interrupt, 16), (.interrupt, 17),
   (.mc, 18), (.interrupt, 19), (.interrupt, 20), (.interrupt, 30), (.interrupt, 15)] ++
  (List.range' 21 9).map (.interrupt, ·) ++ [(.interrupt, 31)] ++
  (List.range' 32 224).map (.interrupt, ·)

/-- Calls of the helpers, one after the other; `pusher v` is the address of
the stub of vector `v`. -/
def setGates (IDT_data : UINT64) (pusher : Nat → UINT64) (calls : List (SetEntry × Nat))
    (mem : ByteMem) : ByteMem :=
  calls.foldl (fun mem c => c.1.call IDT_data c.2 (pusher c.2) mem) mem

/-! ## Placement and InitializeISR -/

/-- The addresses of the static objects. -/
structure Objects where
  tss64 : UINT64
  IDT_data : UINT64
  MinimalGDT : UINT64
  NMI_stack : UINT64
  DF_stack : UINT64
  MC_stack : UINT64
  BP_stack : UINT64

/-- Each object with its size. -/
def Objects.extents (o : Objects) : List (UINT64 × Nat) :=
  [(o.tss64, structSize TSS64_STRUCT), (o.IDT_data, 256 * structSize IDT_GATE_STRUCT),
   (o.MinimalGDT, 40), (o.NMI_stack, 4096), (o.DF_stack, 4096), (o.MC_stack, 4096),
   (o.BP_stack, 4096)]

/-- A linker's choice of addresses: no object wraps, no two overlap. -/
structure Placement extends Objects where
  fits : ∀ e ∈ toObjects.extents, e.1.toNat + e.2 ≤ 2 ^ 64
  disjoint : toObjects.extents.Pairwise fun e e' =>
    e.1.toNat + e.2 ≤ e'.1.toNat ∨ e'.1.toNat + e'.2 ≤ e.1.toNat

/-- The parts of the machine `InitializeISR` works on. `trBase` is the base
`ltr` has latched. -/
structure Machine where
  mem : ByteMem
  cr0 : UINT64
  cr4 : UINT64
  gdtr : DT_STRUCT
  idtr : DT_STRUCT
  trBase : UINT64

/-- The base in a 16-byte system descriptor at `d`, as the CPU assembles it. -/
def descriptorBase (mem : ByteMem) (d : UINT64) : UINT64 :=
  BitVec.ofNat 64 (load mem (d + 2#64) 2 + load mem (d + 4#64) 1 * 2 ^ 16 +
    load mem (d + 7#64) 1 * 2 ^ 24 + load mem (d + 8#64) 4 * 2 ^ 32)

/-- `ltr`: latch the base of the descriptor `selector` names. -/
def ltr (selector : UINT16) (m : Machine) : Machine :=
  let d := m.gdtr.BaseAddress + (selector &&& 0xFFF8#16).setWidth 64
  { m with trBase := descriptorBase m.mem d }

/-- The four partial stores of the TSS address into `MinimalGDT[3]`.
mirrors arch/kernel/x86_64/ISR.c:66-69 -/
def setTssBase (MinimalGDT tss64 : UINT64) (mem : ByteMem) : ByteMem :=
  let entry := MinimalGDT + 24#64
  let mem := storeField mem TSS_LDT_ENTRY_STRUCT entry .BaseAddress1 tss64.toNat
  let mem := storeField mem TSS_LDT_ENTRY_STRUCT entry .BaseAddress2 (tss64 >>> 16).toNat
  let mem := storeField mem TSS_LDT_ENTRY_STRUCT entry .BaseAddress3 (tss64 >>> 24).toNat
  storeField mem TSS_LDT_ENTRY_STRUCT entry .BaseAddress4 (tss64 >>> 32).toNat

/-- `stack + (1 << 12)` -/
def stackTop (stack : UINT64) : UINT64 := stack + 0x1000#64

/-- The interrupt stack pointers.
mirrors arch/kernel/x86_64/ISR.c:105-108 -/
def setStacks (o : Objects) (mem : ByteMem) : ByteMem :=
  let mem := storeField mem TSS64_STRUCT o.tss64 .IST1 (stackTop o.NMI_stack).toNat
  let mem := storeField mem TSS64_STRUCT o.tss64 .IST2 (stackTop o.DF_stack).toNat
  let mem := storeField mem TSS64_STRUCT o.tss64 .IST3 (stackTop o.MC_stack).toNat
  storeField mem TSS64_STRUCT o.tss64 .IST4 (stackTop o.BP_stack).toNat

/-- mirrors arch/kernel/x86_64/ISR.c:29-403 (the segment register reloads
left out) -/
def InitializeISR (p : Placement) (pusher : Nat → UINT64) (m : Machine) : Machine :=
  let m := { m with cr0 := m.cr0 ||| 1#64 <<< 5, cr4 := m.cr4 ||| 1#64 <<< 10 }
  let m := { m with mem := setTssBase p.MinimalGDT p.tss64 m.mem }
  let m := { m with gdtr := ⟨40 - 1, p.MinimalGDT⟩ }
  let m := ltr 0x18 m
  let m := { m with mem := setStacks p.toObjects m.mem }
  let m := { m with mem := setGates p.IDT_data pusher isrEntries m.mem }
  { m with idtr := ⟨256 * 16 - 1, p.IDT_data⟩ }

/-! ## Delivery -/

/-- The IST number of a vector's gate, as the CPU reads it. -/
def gateIST (mem : ByteMem) (idt : UINT64) (v : Nat) : Nat :=
  load mem (gateAddr idt v + 4#64) 1 % 8

/-- The stack pointer IST = n selects, n ≥ 1. -/
def istPointer (m : Machine) (n : Nat) : UINT64 :=
  load64 m.mem (m.trBase + BitVec.ofNat 64 (0x24 + 8 * (n - 1)))

/-- RSP as loaded on delivery of `v` to code running on `rsp` at the same
privilege. -/
def loadedStack (m : Machine) (v : Nat) (rsp : UINT64) : UINT64 :=
  if gateIST m.mem m.idtr.BaseAddress v = 0 then rsp
  else istPointer m (gateIST m.mem m.idtr.BaseAddress v)

/-- The vectors that push an error code. -/
def pushesErrorCode (v : Nat) : Bool := v ∈ [8, 10, 11, 12, 13, 14, 17, 21, 29, 30]

/-- The frame a delivery pushes, as its lowest address and its size: SS, RSP,
RFLAGS, CS, RIP and maybe an error code, below the aligned stack pointer. -/
def deliver (m : Machine) (v : Nat) (rsp : UINT64) : UINT64 × Nat :=
  let sp := loadedStack m v rsp &&& ~~~0xF#64
  let size := if pushesErrorCode v then 48 else 40
  (sp - BitVec.ofNat 64 size, size)

/-- The frames of nested deliveries: each one interrupts the handler of the
one before, after that has pushed some bytes. -/
def nestedFrames (m : Machine) : UINT64 → List (Nat × UINT64) → List (UINT64 × Nat)
  | _, [] => []
  | rsp, (v, pushed) :: ds =>
    let frame := deliver m v (rsp - pushed)
    frame :: nestedFrames m frame.1 ds

/-- NMI, double fault, machine check and breakpoint. -/
def criticalVectors : List Nat := [2, 8, 18, 3]

/-- Each critical exception gets the top of its own stack. -/
structure OwnStacks (o : Objects) (m : Machine) : Prop where
  nmi : ∀ rsp, loadedStack m 2 rsp = stackTop o.NMI_stack
  df : ∀ rsp, loadedStack m 8 rsp = stackTop o.DF_stack
  mc : ∀ rsp, loadedStack m 18 rsp = stackTop o.MC_stack
  bp : ∀ rsp, loadedStack m 3 rsp = stackTop o.BP_stack

/-- However distinct critical exceptions nest, their frames stay apart. -/
def FramesKept (m : Machine) : Prop :=
  ∀ rsp ds, (∀ d ∈ ds, d.1 ∈ criticalVectors) → (ds.map Prod.fst).Nodup →
    (nestedFrames m rsp ds).Pairwise fun f g => Apart f.1 f.2 g.1 g.2

/-! ## What the gates hold -/

/-- The IST number a helper writes. -/
def SetEntry.ist : SetEntry → UINT8
  | .interrupt => 0
  | .trap => 0
  | .unused => 0
  | .nmi => 1
  | .df => 2
  | .mc => 3
  | .bp => 4

section Gates
variable {IDT_data isrAddr b : UINT64} {n v k : Nat} {ist misc : UINT8} {mem : ByteMem}

theorem gateIST_eq (mem : ByteMem) (idt : UINT64) (v : Nat) :
    gateIST mem idt v = loadField mem IDT_GATE_STRUCT (gateAddr idt v) .ISTandZero % 8 := rfl

theorem loadField_setGate : loadField (setGate IDT_data n isrAddr ist misc mem) IDT_GATE_STRUCT
    (gateAddr IDT_data n) .ISTandZero = ist.toNat := by
  have hstores : setGate IDT_data n isrAddr ist misc mem = storeFields mem IDT_GATE_STRUCT
      (gateAddr IDT_data n) [(.Offset1, isrAddr.toNat), (.SegmentSelector, 0x08),
        (.ISTandZero, ist.toNat), (.Misc, misc.toNat), (.Offset2, (isrAddr >>> 16).toNat),
        (.Offset3, (isrAddr >>> 32).toNat), (.Reserved, 0)] := rfl
  rw [hstores, loadField_storeFields (by decide)]
  exact Nat.mod_eq_of_lt ist.isLt

/-- A helper writes its own gate only. -/
theorem load_setGate_apart (h : Apart b k (gateAddr IDT_data n) 16) (hk : k ≤ 2 ^ 64) :
    load (setGate IDT_data n isrAddr ist misc mem) b k = load mem b k := by
  have hs : structSize IDT_GATE_STRUCT ≤ 2 ^ 64 := by decide
  have h' : Apart b k (gateAddr IDT_data n) (structSize IDT_GATE_STRUCT) := h
  simp only [setGate, load_storeField_apart hs h' hk]

/-- Every helper is `setGate` at its own values. -/
theorem SetEntry.call_eq (e : SetEntry) (IDT_data : UINT64) (n : Nat) (isrAddr : UINT64) :
    ∃ addr misc, e.call IDT_data n isrAddr = setGate IDT_data n addr e.ist misc := by
  cases e with
  | interrupt => exact ⟨isrAddr, 0x8E, rfl⟩
  | trap => exact ⟨isrAddr, 0x8F, rfl⟩
  | unused => exact ⟨0, 0x0E, rfl⟩
  | nmi => exact ⟨isrAddr, 0x8E, rfl⟩
  | df => exact ⟨isrAddr, 0x8E, rfl⟩
  | mc => exact ⟨isrAddr, 0x8E, rfl⟩
  | bp => exact ⟨isrAddr, 0x8E, rfl⟩

/-- Calls whose gates are apart from a region leave it alone. -/
theorem load_setGates_apart {pusher : Nat → UINT64} {calls : List (SetEntry × Nat)}
    (h : ∀ c ∈ calls, Apart b k (gateAddr IDT_data c.2) 16) (hk : k ≤ 2 ^ 64) :
    load (setGates IDT_data pusher calls mem) b k = load mem b k := by
  induction calls generalizing mem with
  | nil => rfl
  | cons c calls ih =>
    obtain ⟨addr, misc, hc⟩ := c.1.call_eq IDT_data c.2 (pusher c.2)
    rw [setGates, List.foldl_cons, ← setGates, ih fun d hd => h d (List.mem_cons_of_mem c hd), hc,
      load_setGate_apart (h c List.mem_cons_self) hk]

theorem gates_apart (hv : v < 256) (hn : n < 256) (h : v ≠ n) :
    Apart (gateAddr IDT_data v + 4#64) 1 (gateAddr IDT_data n) 16 := by
  have hsub : ∀ x : UINT64, (x - (gateAddr IDT_data v + 4#64)).toNat < 1 →
      (x - gateAddr IDT_data v).toNat < 16 := fun x hx =>
    field_subset (o := 4) (by decide) (by decide) hx
  refine Apart.mono ?_ hsub fun x hx => hx
  exact apart_of_offsets (by omega) (by omega) (by omega)

/-- The last call for a vector decides its IST number. -/
theorem gateIST_setGates {pusher : Nat → UINT64} {before after : List (SetEntry × Nat)}
    {e : SetEntry} (hv : v < 256) (h : ∀ c ∈ after, c.2 ≠ v ∧ c.2 < 256) :
    gateIST (setGates IDT_data pusher (before ++ (e, v) :: after) mem) IDT_data v = e.ist.toNat % 8 := by
  obtain ⟨addr, misc, hc⟩ := e.call_eq IDT_data v (pusher v)
  rw [setGates, List.foldl_append, List.foldl_cons, ← setGates, ← setGates, gateIST,
    load_setGates_apart (fun c hc => gates_apart hv (h c hc).2 (h c hc).1.symm) (by decide), ← gateIST,
    gateIST_eq]
  dsimp only
  rw [hc, loadField_setGate]

end Gates

/-! ## What InitializeISR leaves -/

/-- The four partial stores give the CPU the whole address. -/
theorem descriptorBase_setTssBase (gdt tss64 : UINT64) (mem : ByteMem) :
    descriptorBase (setTssBase gdt tss64 mem) (gdt + 24#64) = tss64 := by
  have hstores : setTssBase gdt tss64 mem = storeFields mem TSS_LDT_ENTRY_STRUCT (gdt + 24#64)
      [(.BaseAddress1, tss64.toNat), (.BaseAddress2, (tss64 >>> 16).toNat),
        (.BaseAddress3, (tss64 >>> 24).toNat), (.BaseAddress4, (tss64 >>> 32).toNat)] := rfl
  have hread : ∀ m : ByteMem, descriptorBase m (gdt + 24#64) = BitVec.ofNat 64
      (loadField m TSS_LDT_ENTRY_STRUCT (gdt + 24#64) .BaseAddress1 +
        loadField m TSS_LDT_ENTRY_STRUCT (gdt + 24#64) .BaseAddress2 * 2 ^ 16 +
        loadField m TSS_LDT_ENTRY_STRUCT (gdt + 24#64) .BaseAddress3 * 2 ^ 24 +
        loadField m TSS_LDT_ENTRY_STRUCT (gdt + 24#64) .BaseAddress4 * 2 ^ 32) := fun _ => rfl
  have hparts : descriptorBase (setTssBase gdt tss64 mem) (gdt + 24#64) = BitVec.ofNat 64
      (tss64.toNat % 2 ^ 16 + tss64.toNat / 2 ^ 16 % 2 ^ 8 * 2 ^ 16 +
        tss64.toNat / 2 ^ 24 % 2 ^ 8 * 2 ^ 24 + tss64.toNat / 2 ^ 32 % 2 ^ 32 * 2 ^ 32) := by
    simp only [hread, hstores, loadField_storeFields
      (show structSize TSS_LDT_ENTRY_STRUCT ≤ 2 ^ 64 by decide), BitVec.toNat_ushiftRight,
      Nat.shiftRight_eq_div_pow]
    rfl
  have hlt := tss64.isLt
  rw [hparts]
  apply BitVec.eq_of_toNat_eq
  rw [BitVec.toNat_ofNat]
  omega

section Initialized
variable (p : Placement) (pusher : Nat → UINT64) (m : Machine)

/-- The task register holds the address of `tss64`. -/
theorem InitializeISR_trBase : (InitializeISR p pusher m).trBase = p.tss64 :=
  descriptorBase_setTssBase p.MinimalGDT p.tss64 m.mem

/-- The vectors `InitializeISR` sets, and only those, are below 256. -/
theorem isrEntries_lt : ∀ c ∈ isrEntries, c.2 < 256 := by
  have huser : ∀ c ∈ (List.range' 32 224).map (SetEntry.interrupt, ·), c.2 < 256 := by
    simp only [List.forall_mem_map, List.mem_range'_1]
    omega
  have hpre : ∀ c ∈ isrEntries.take 32, c.2 < 256 := by decide
  intro c hc
  rw [show isrEntries = isrEntries.take 32 ++ (List.range' 32 224).map (SetEntry.interrupt, ·) from rfl]
    at hc
  cases List.mem_append.mp hc with
  | inl h => exact hpre c h
  | inr h => exact huser c h

/-- A gate of the IDT is apart from the TSS. -/
theorem tss_apart {n : Nat} (hn : n < 256) : Apart p.tss64 112 (gateAddr p.IDT_data n) 16 := by
  have hd := p.disjoint
  have hf := p.fits
  simp only [Objects.extents, List.pairwise_cons, List.forall_mem_cons] at hd hf
  refine Apart.mono (apart_of_ranges hd.1.1 hf.1 hf.2.1) (fun _ hx => hx) fun x hx => ?_
  exact field_subset (o := 16 * n) (n := 16)
    (by rw [show structSize IDT_GATE_STRUCT = 16 from rfl]; omega) (by decide) hx

theorem InitializeISR_mem : (InitializeISR p pusher m).mem =
    setGates p.IDT_data pusher isrEntries
      (setStacks p.toObjects (setTssBase p.MinimalGDT p.tss64 m.mem)) := by
  simp only [InitializeISR, ltr]

/-- A field of the TSS is what `setStacks` left there. -/
theorem InitializeISR_tss (f : TSS64Field) :
    loadField (InitializeISR p pusher m).mem TSS64_STRUCT p.tss64 f =
      loadField (setStacks p.toObjects (setTssBase p.MinimalGDT p.tss64 m.mem)) TSS64_STRUCT p.tss64 f := by
  have hle : offsetOf TSS64_STRUCT f + fieldSize TSS64_STRUCT f ≤ 112 := offsetOf_add_le TSS64_STRUCT f
  rw [InitializeISR_mem, loadField, loadField, load_setGates_apart (fun c hc => ?_) (by omega)]
  exact (tss_apart p (isrEntries_lt c hc)).mono (fun _ hx => field_subset hle (by decide) hx)
    fun _ hx => hx

/-- TSS offset 0x24 holds `IST0`: IST = n loads the field `IST(n - 1)`. -/
theorem istPointer_eq {n : Nat} {f : TSS64Field}
    (hf : offsetOf TSS64_STRUCT f = 0x24 + 8 * (n - 1) ∧ fieldSize TSS64_STRUCT f = 8) :
    istPointer (InitializeISR p pusher m) n =
      BitVec.ofNat 64 (loadField (setStacks p.toObjects (setTssBase p.MinimalGDT p.tss64 m.mem))
        TSS64_STRUCT p.tss64 f) := by
  rw [← InitializeISR_tss p pusher m f, istPointer, InitializeISR_trBase, loadField, hf.1, hf.2, load64]

/-- The entry that decides a vector's gate, when no later one is for it. -/
theorem InitializeISR_gateIST {v : Nat} {e : SetEntry} (before after : List (SetEntry × Nat))
    (hsplit : isrEntries = before ++ (e, v) :: after) (hlater : ∀ c ∈ after, c.2 ≠ v) :
    gateIST (InitializeISR p pusher m).mem p.IDT_data v = e.ist.toNat % 8 := by
  have hlt : ∀ c ∈ before ++ (e, v) :: after, c.2 < 256 := hsplit ▸ isrEntries_lt
  rw [InitializeISR_mem, hsplit]
  exact gateIST_setGates (hlt (e, v) (by simp)) fun c hc => ⟨hlater c hc, hlt c (by simp [hc])⟩

/-- After the first 22 entries, those for the architectural vectors up to
20, only other vectors follow. -/
theorem isrEntries_later {v : Nat} (hv : v ∈ criticalVectors) :
    ∀ c ∈ (List.range' 21 9).map (SetEntry.interrupt, ·) ++ [(.interrupt, 31)] ++
      (List.range' 32 224).map (.interrupt, ·), c.2 ≠ v := by
  have hlt : v < 21 := by
    simp only [criticalVectors, List.mem_cons, List.not_mem_nil, or_false] at hv
    omega
  intro c hc
  simp only [List.mem_append, List.mem_map, List.mem_range'_1, List.mem_singleton] at hc
  rcases hc with (⟨n, hn, rfl⟩ | rfl) | ⟨n, hn, rfl⟩
  · exact fun h => by have : n = v := h; omega
  · exact fun h => by have : 31 = v := h; omega
  · exact fun h => by have : n = v := h; omega

/-- A critical vector with its entry among the first 22. -/
theorem InitializeISR_gateIST_of_first {v : Nat} {e : SetEntry} {mid : List (SetEntry × Nat)}
    (before : List (SetEntry × Nat))
    (hv : v ∈ criticalVectors) (hsplit : isrEntries.take 22 = before ++ (e, v) :: mid)
    (hmid : ∀ c ∈ mid, c.2 ≠ v) :
    gateIST (InitializeISR p pusher m).mem p.IDT_data v = e.ist.toNat % 8 := by
  refine InitializeISR_gateIST p pusher m before (mid ++ isrEntries.drop 22) ?_ ?_
  · rw [← List.cons_append, ← List.append_assoc, ← hsplit, List.take_append_drop]
  · intro c hc
    cases List.mem_append.mp hc with
    | inl h => exact hmid c h
    | inr h => exact isrEntries_later hv c h

end Initialized

section Stacks
variable (o : Objects) (mem : ByteMem)

theorem setStacks_eq : setStacks o mem = storeFields mem TSS64_STRUCT o.tss64
    [(.IST1, (stackTop o.NMI_stack).toNat), (.IST2, (stackTop o.DF_stack).toNat),
      (.IST3, (stackTop o.MC_stack).toNat), (.IST4, (stackTop o.BP_stack).toNat)] := rfl

theorem setStacks_IST0 :
    loadField (setStacks o mem) TSS64_STRUCT o.tss64 .IST0 = loadField mem TSS64_STRUCT o.tss64 .IST0 := by
  rw [setStacks_eq, loadField_storeFields (by decide)]
  rfl

theorem setStacks_IST2 :
    BitVec.ofNat 64 (loadField (setStacks o mem) TSS64_STRUCT o.tss64 .IST2) = stackTop o.DF_stack := by
  rw [setStacks_eq]
  exact loadField_storeFields_word (by decide) rfl rfl

theorem setStacks_IST3 :
    BitVec.ofNat 64 (loadField (setStacks o mem) TSS64_STRUCT o.tss64 .IST3) = stackTop o.MC_stack := by
  rw [setStacks_eq]
  exact loadField_storeFields_word (by decide) rfl rfl

end Stacks

/-! ## The stacks of the critical exceptions -/

section Delivery
variable (p : Placement) (pusher : Nat → UINT64) (m : Machine) (rsp : UINT64)

/-- A critical vector whose deciding entry writes the IST number `n` gets the
word in field `IST(n - 1)`. -/
theorem loadedStack_eq {v : Nat} {e : SetEntry} {f : TSS64Field} {mid : List (SetEntry × Nat)}
    (before : List (SetEntry × Nat)) (hv : v ∈ criticalVectors)
    (hsplit : isrEntries.take 22 = before ++ (e, v) :: mid) (hmid : ∀ c ∈ mid, c.2 ≠ v)
    (hist : e.ist.toNat % 8 ≠ 0)
    (hf : offsetOf TSS64_STRUCT f = 0x24 + 8 * (e.ist.toNat % 8 - 1) ∧ fieldSize TSS64_STRUCT f = 8) :
    loadedStack (InitializeISR p pusher m) v rsp =
      BitVec.ofNat 64 (loadField (setStacks p.toObjects (setTssBase p.MinimalGDT p.tss64 m.mem))
        TSS64_STRUCT p.tss64 f) := by
  have hg := InitializeISR_gateIST_of_first p pusher m before hv hsplit hmid
  have hidt : (InitializeISR p pusher m).idtr.BaseAddress = p.IDT_data := rfl
  rw [loadedStack, hidt, hg, if_neg hist, istPointer_eq p pusher m hf]

/-- The non-maskable interrupt gets the word at `IST0`, which nothing sets. -/
theorem loadedStack_nmi : loadedStack (InitializeISR p pusher m) 2 rsp = BitVec.ofNat 64
    (loadField (setTssBase p.MinimalGDT p.tss64 m.mem) TSS64_STRUCT p.tss64 .IST0) := by
  rw [loadedStack_eq p pusher m rsp (e := .nmi) (f := .IST0) (isrEntries.take 2) (by decide) rfl
    (by decide) (by decide) ⟨rfl, rfl⟩, setStacks_IST0]

/-- The double fault, set with the machine-check helper, gets its own stack. -/
theorem loadedStack_df : loadedStack (InitializeISR p pusher m) 8 rsp = stackTop p.DF_stack := by
  rw [loadedStack_eq p pusher m rsp (e := .mc) (f := .IST2) (isrEntries.take 8) (by decide) rfl
    (by decide) (by decide) ⟨rfl, rfl⟩, setStacks_IST2]

/-- The machine check gets the double fault's. -/
theorem loadedStack_mc : loadedStack (InitializeISR p pusher m) 18 rsp = stackTop p.DF_stack := by
  rw [loadedStack_eq p pusher m rsp (e := .mc) (f := .IST2) (isrEntries.take 17) (by decide) rfl
    (by decide) (by decide) ⟨rfl, rfl⟩, setStacks_IST2]

/-- The breakpoint gets the machine check's. -/
theorem loadedStack_bp : loadedStack (InitializeISR p pusher m) 3 rsp = stackTop p.MC_stack := by
  rw [loadedStack_eq p pusher m rsp (e := .bp) (f := .IST3) (isrEntries.take 3) (by decide) rfl
    (by decide) (by decide) ⟨rfl, rfl⟩, setStacks_IST3]

/-- The machine check does not get its own stack. -/
theorem not_ownStacks : ¬ OwnStacks p.toObjects (InitializeISR p pusher m) := by
  intro h
  have hmc := h.mc 0
  rw [loadedStack_mc, stackTop, stackTop] at hmc
  have heq : p.DF_stack.toNat = p.MC_stack.toNat := congrArg BitVec.toNat (by simpa using hmc)
  have hd := p.disjoint
  simp only [Objects.extents, List.pairwise_cons, List.forall_mem_cons] at hd
  have := hd.2.2.2.2.1.1
  omega

/-- A machine check inside the double fault handler pushes its frame over
the double fault's. -/
theorem not_framesKept : ¬ FramesKept (InitializeISR p pusher m) := by
  intro h
  have hp := h 0 [(8, 0), (18, 0)] (by decide) (by decide)
  simp only [nestedFrames, deliver, loadedStack_df, loadedStack_mc, List.pairwise_cons,
    List.mem_singleton, forall_eq] at hp
  obtain ⟨sp, hsp⟩ : ∃ sp, sp = stackTop p.DF_stack &&& ~~~0xF#64 := ⟨_, rfl⟩
  rw [← hsp] at hp
  -- the word below the top is in both
  refine hp.1 (sp - 8#64) ?_ ?_
  · have := sp.isLt
    simp only [pushesErrorCode, BitVec.toNat_sub, BitVec.toNat_ofNat]
    simp
    omega
  · have := sp.isLt
    simp only [pushesErrorCode, BitVec.toNat_sub, BitVec.toNat_ofNat]
    simp
    omega

/-- **The stacks are not their own.** Wherever the linker places the task
state and the stacks, after `InitializeISR` some critical exception runs on
another one's stack, and nested critical exceptions can overwrite each
other's frames. -/
theorem critical_stacks_shared :
    ¬ OwnStacks p.toObjects (InitializeISR p pusher m) ∧ ¬ FramesKept (InitializeISR p pusher m) :=
  ⟨not_ownStacks p pusher m, not_framesKept p pusher m⟩

end Delivery

/-- The objects one after the other in the kernel's higher half. -/
def higherHalf : Placement where
  tss64 := 0xFFFFFFFFC0010000
  IDT_data := 0xFFFFFFFFC0011000
  MinimalGDT := 0xFFFFFFFFC0012000
  NMI_stack := 0xFFFFFFFFC0013000
  DF_stack := 0xFFFFFFFFC0014000
  MC_stack := 0xFFFFFFFFC0015000
  BP_stack := 0xFFFFFFFFC0016000
  fits := by decide
  disjoint := by decide

/-- The machine as the kernel image leaves it: `tss64` and `IDT_data` zero,
`MinimalGDT` as initialised.
mirrors arch/kernel/x86_64/system.c:7 -/
def atEntry (o : Objects) : Machine where
  mem := store64 (store64 (store64 (fun _ => 0) (o.MinimalGDT + 8#64) 0x00af9a000000ffff)
    (o.MinimalGDT + 16#64) 0x00cf92000000ffff) (o.MinimalGDT + 24#64) 0x0080890000000067
  cr0 := 0x80000011
  cr4 := 0x20
  gdtr := ⟨0, 0⟩
  idtr := ⟨0, 0⟩
  trBase := 0

theorem critical_stacks_shared_higherHalf :
    ¬ (OwnStacks higherHalf.toObjects
        (InitializeISR higherHalf (fun v => 0xFFFFFFFFC0000000 + BitVec.ofNat 64 (16 * v))
          (atEntry higherHalf.toObjects)) ∧
      FramesKept
        (InitializeISR higherHalf (fun v => 0xFFFFFFFFC0000000 + BitVec.ofNat 64 (16 * v))
          (atEntry higherHalf.toObjects))) :=
  fun h => not_ownStacks _ _ _ h.1

end PiousOS.Kernel
