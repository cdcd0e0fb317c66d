import PiousOS.Core.ByteMem

/-!
# x86-64: gates and system descriptors

A gate of the IDT and a system descriptor of the GDT have 16 bytes, with
their addresses split over several fields. `readGate` and
`readSystemDescriptor` put them together as the CPU does on delivery and on
`ltr`.

`readGate_congr`: a gate depends on its own 16 bytes only.
-/
namespace PiousOS.X86
open ByteMem

structure GateDescriptor where
  offset : UINT64
  selector : UINT16
  ist : BitVec 3
  type : BitVec 4
  dpl : BitVec 2
  present : Bool
  deriving DecidableEq, Repr

/-- `limit` is the 20-bit field; with `granularity` set it counts pages. -/
structure SystemDescriptor where
  base : UINT64
  limit : BitVec 20
  type : BitVec 4
  dpl : BitVec 2
  present : Bool
  granularity : Bool
  deriving DecidableEq, Repr

/-- The last byte of a segment, from its base. -/
def SystemDescriptor.lastByte (s : SystemDescriptor) : Nat :=
  if s.granularity then s.limit.toNat * 4096 + 4095 else s.limit.toNat

def readGate (mem : ByteMem) (a : UINT64) : GateDescriptor where
  offset := BitVec.ofNat 64 (load mem (a + 0#64) 2 + load mem (a + 6#64) 2 * 2 ^ 16 +
    load mem (a + 8#64) 4 * 2 ^ 32)
  selector := BitVec.ofNat 16 (load mem (a + 2#64) 2)
  ist := BitVec.ofNat 3 (load mem (a + 4#64) 1)
  type := BitVec.ofNat 4 (load mem (a + 5#64) 1)
  dpl := BitVec.ofNat 2 (load mem (a + 5#64) 1 / 2 ^ 5)
  present := load mem (a + 5#64) 1 / 2 ^ 7 = 1

def readSystemDescriptor (mem : ByteMem) (a : UINT64) : SystemDescriptor where
  base := BitVec.ofNat 64 (load mem (a + 2#64) 2 + load mem (a + 4#64) 1 * 2 ^ 16 +
    load mem (a + 7#64) 1 * 2 ^ 24 + load mem (a + 8#64) 4 * 2 ^ 32)
  limit := BitVec.ofNat 20 (load mem (a + 0#64) 2 + load mem (a + 6#64) 1 % 2 ^ 4 * 2 ^ 16)
  type := BitVec.ofNat 4 (load mem (a + 5#64) 1)
  dpl := BitVec.ofNat 2 (load mem (a + 5#64) 1 / 2 ^ 5)
  present := load mem (a + 5#64) 1 / 2 ^ 7 = 1
  granularity := load mem (a + 6#64) 1 / 2 ^ 7 = 1

section
variable {mem mem' : ByteMem} {a : UINT64}

/-- Part of a descriptor whose 16 bytes are the same. -/
theorem load_part_congr (h : ∀ i < 16, mem' (a + BitVec.ofNat 64 i) = mem (a + BitVec.ofNat 64 i))
    {o n : Nat} (ho : o + n ≤ 16) : load mem' (a + BitVec.ofNat 64 o) n = load mem (a + BitVec.ofNat 64 o) n := by
  refine load_congr fun i hi => ?_
  rw [BitVec.add_assoc, ← BitVec.ofNat_add]
  exact h _ (by omega)

theorem readGate_congr (h : ∀ i < 16, mem' (a + BitVec.ofNat 64 i) = mem (a + BitVec.ofNat 64 i)) :
    readGate mem' a = readGate mem a := by
  have hpart : ∀ o n, o + n ≤ 16 → _ := fun _ _ => load_part_congr h
  have h0 := hpart 0 2 (by decide)
  have h2 := hpart 2 2 (by decide)
  have h4 := hpart 4 1 (by decide)
  have h5 := hpart 5 1 (by decide)
  have h6 := hpart 6 2 (by decide)
  have h8 := hpart 8 4 (by decide)
  simp only [readGate, h0, h2, h4, h5, h6, h8]

end

end PiousOS.X86
