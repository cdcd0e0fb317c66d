import PiousOS.L2Machine.X86

/-!
# Code that keeps to its stack

Straight code whose pushes and pops stay between a floor and a limit
(`stackDepth`), in words below the top of its stack, reads its registers and
the words on the stack, and writes words below the floor. Two machines that
differ in other memory only (`Alike`) stay so.

* `exec_alike`: one instruction;
* `pushWords_outside`: pushed words stay in their room.
-/
namespace PiousOS.X86
open ByteMem

/-! ## The words below a top -/

/-- A byte of the `n` words below `top`. -/
def Room (top : UINT64) (n : Nat) (a : UINT64) : Prop := (a - below top n).toNat < 8 * n

/-- A byte from RSP up to `top`. -/
def Live (top : UINT64) (s : Cpu) (a : UINT64) : Prop := (a - s.rsp).toNat < (top - s.rsp).toNat

section
variable {top a : UINT64} {n k : Nat}

/-- How far a byte is below `top`. -/
theorem room_iff (hn : 8 * n < 2 ^ 64) : Room top n a ↔ 0 < (top - a).toNat ∧ (top - a).toNat ≤ 8 * n := by
  have := top.isLt
  have := a.isLt
  unfold Room below
  simp only [BitVec.toNat_sub, BitVec.toNat_ofNat]
  omega

theorem Room.mono (h : Room top n a) (hle : n ≤ k) (hk : 8 * k < 2 ^ 64) : Room top k a := by
  obtain ⟨hpos, hlt⟩ := (room_iff (by omega)).mp h
  exact (room_iff hk).mpr ⟨hpos, by omega⟩

/-- The words on the stack are the last one and those above it. -/
theorem room_succ (hn : 8 * (n + 1) < 2 ^ 64) :
    Room top (n + 1) a ↔ (a - below top (n + 1)).toNat < 8 ∨ Room top n a := by
  have := top.isLt
  have := a.isLt
  rw [room_iff hn, room_iff (by omega)]
  unfold below
  simp only [BitVec.toNat_sub, BitVec.toNat_ofNat]
  omega

/-- The last word is not one of those above it. -/
theorem not_room_of_last (hn : 8 * (n + 1) < 2 ^ 64) (h : (a - below top (n + 1)).toNat < 8) : ¬ Room top n a := by
  have := top.isLt
  have := a.isLt
  rw [room_iff (by omega)]
  unfold below at h
  simp only [BitVec.toNat_sub, BitVec.toNat_ofNat] at h ⊢
  omega

/-- Room that ends above an object of `len` bytes is off it. -/
theorem Room.apart {base : UINT64} {len : Nat} (h : Room top n a) (hgap : 8 * n + len ≤ (top - base).toNat) :
    ¬ (a - base).toNat < len := by
  have hlt := (top - base).isLt
  rw [room_iff (by omega)] at h
  have := top.isLt
  have := base.isLt
  have := a.isLt
  simp only [BitVec.toNat_sub] at h hgap ⊢
  omega

theorem live_iff_room {s : Cpu} (hrsp : s.rsp = below top n) (hn : 8 * n < 2 ^ 64) :
    Live top s a ↔ Room top n a := by
  have := top.isLt
  have hlen : (top - below top n).toNat = 8 * n := by
    unfold below
    simp only [BitVec.toNat_sub, BitVec.toNat_ofNat]
    omega
  rw [Live, Room, hrsp, hlen]

/-- Pushed words stay in their room. -/
theorem pushWords_outside {mem : ByteMem} {vs : List UINT64} (hn : 8 * (n + vs.length) < 2 ^ 64)
    (h : ¬ Room top (n + vs.length) a) : pushWords mem (below top n) vs a = mem a := by
  induction vs generalizing mem n with
  | nil => rfl
  | cons v vs ih =>
    have hlen : n + (v :: vs).length = n + 1 + vs.length := by
      rw [List.length_cons]
      omega
    have hone : below top n - 8#64 = below top (n + 1) := below_add top n 1
    rw [hlen] at h hn
    have hword : ¬ (a - below top (n + 1)).toNat < 8 := fun hin =>
      h (Room.mono ((room_succ (by omega)).mpr (.inl hin)) (by omega) hn)
    rw [pushWords, hone, ih hn h, store64_outside hword]

end

/-! ## Depth -/

/-- The words on the stack after an instruction, from the words before it:
none if it takes more than there is, or sets RSP in another way. -/
def Instr.depth (i : Instr) (n : Nat) : Option Nat :=
  match i with
  | .pushq _ | .pushqImm _ => some (n + 1)
  | .popq r => if r = .rsp ∨ n = 0 then none else some (n - 1)
  | .movq _ dst | .movlImm _ dst => if dst = .rsp then none else some n
  | .addqImm k dst =>
    if dst ≠ .rsp then some n
    else if k.toNat % 8 = 0 ∧ k.toNat < 2 ^ 31 ∧ k.toNat / 8 ≤ n then some (n - k.toNat / 8)
    else none
  | .cld => some n
  | .callq | .iretq => none

/-- The words on the stack after code, if there are never fewer than `floor`
and never more than `limit`. -/
def stackDepth (floor limit : Nat) : List Instr → Nat → Option Nat
  | [], n => some n
  | i :: is, n =>
    (i.depth n).bind fun k => if floor ≤ k ∧ k ≤ limit then stackDepth floor limit is k else none

theorem straight_of_depth {i : Instr} {n k : Nat} (h : i.depth n = some k) : i.Straight := by
  constructor
  · rintro rfl
    cases h
  · rintro rfl
    cases h

/-! ## Machines alike -/

/-- The machines differ at most in memory that is not on the stack. -/
structure Alike (top : UINT64) (s t : Cpu) : Prop where
  regs : s.regs = t.regs
  rip : s.rip = t.rip
  cs : s.cs = t.cs
  ss : s.ss = t.ss
  rflags : s.rflags = t.rflags
  mem : ∀ a, Live top s a → s.mem a = t.mem a

theorem Alike.refl (top : UINT64) (s : Cpu) : Alike top s s := ⟨rfl, rfl, rfl, rfl, rfl, fun _ _ => rfl⟩

section
variable {top : UINT64} {s t : Cpu} {n k : Nat} {h h' : Handler}

theorem Alike.rsp (ha : Alike top s t) : s.rsp = t.rsp := congrFun ha.regs .rsp

/-- A word on the stack is the same in both. -/
theorem Alike.load (ha : Alike top s t) (hrsp : s.rsp = below top n) (hn : 8 * n < 2 ^ 64) {j : Nat} (hj : j < n) :
    load64 s.mem (s.rsp + BitVec.ofNat 64 (8 * j)) = load64 t.mem (t.rsp + BitVec.ofNat 64 (8 * j)) := by
  rw [← ha.rsp, load64, load64]
  refine congrArg (BitVec.ofNat 64) (load_congr fun i hi => ha.mem _ ?_)
  have := s.rsp.isLt
  rw [live_iff_room hrsp hn, Room, ← hrsp]
  simp only [BitVec.toNat_sub, BitVec.toNat_add, BitVec.toNat_ofNat]
  omega

theorem Alike.next (ha : Alike top s t) (size : UINT64) :
    Alike top { s with rip := s.rip + size } { t with rip := t.rip + size } :=
  ⟨ha.regs, congrArg (· + size) ha.rip, ha.cs, ha.ss, ha.rflags, ha.mem⟩

theorem Alike.flags (ha : Alike top s t) {f f' : UINT64} (hf : f = f') :
    Alike top { s with rflags := f } { t with rflags := f' } :=
  ⟨ha.regs, ha.rip, ha.cs, ha.ss, hf, ha.mem⟩

theorem Alike.setReg (ha : Alike top s t) {r : Reg} (hr : r ≠ .rsp) {v w : UINT64} (hv : v = w) :
    Alike top (s.setReg r v) (t.setReg r w) := by
  refine ⟨?_, ha.rip, ha.cs, ha.ss, ha.rflags, fun a hlive => ha.mem a ?_⟩
  · rw [Cpu.setReg, Cpu.setReg, ha.regs, hv]
  · have hrsp : (s.setReg r v).rsp = s.rsp := Cpu.setReg_ne s r v hr.symm
    rwa [Live, hrsp] at hlive

/-- With fewer words on the stack. -/
theorem Alike.setRsp (ha : Alike top s t) (hrsp : s.rsp = below top n) (hn : 8 * n < 2 ^ 64) (hk : k ≤ n) :
    Alike top (s.setReg .rsp (below top k)) (t.setReg .rsp (below top k)) := by
  have hset : (s.setReg .rsp (below top k)).rsp = below top k := Cpu.setReg_same ..
  refine ⟨?_, ha.rip, ha.cs, ha.ss, ha.rflags, fun a hlive => ha.mem a ?_⟩
  · rw [Cpu.setReg, Cpu.setReg, ha.regs]
  · rw [live_iff_room hset (by omega)] at hlive
    exact (live_iff_room hrsp hn).mpr (hlive.mono hk hn)

/-- With one more word. -/
theorem Alike.push (ha : Alike top s t) (hrsp : s.rsp = below top n) (hn : 8 * (n + 1) < 2 ^ 64) {v w : UINT64}
    (hv : v = w) : Alike top (s.push v) (t.push w) := by
  have hone : below top n - 8#64 = below top (n + 1) := below_add top n 1
  have hpush : (s.push v).rsp = below top (n + 1) := by rw [Cpu.push_rsp, hrsp, hone]
  refine ⟨?_, ha.rip, ha.cs, ha.ss, ha.rflags, fun a hlive => ?_⟩
  · have hregs : (s.setReg .rsp (s.rsp - 8#64)).regs = (t.setReg .rsp (t.rsp - 8#64)).regs := by
      rw [Cpu.setReg, Cpu.setReg, ha.regs, ha.rsp]
    exact hregs
  · rw [live_iff_room hpush hn, room_succ hn] at hlive
    rw [Cpu.push_mem, Cpu.push_mem, ← ha.rsp, hv, hrsp, hone]
    by_cases hin : (a - below top (n + 1)).toNat < 8
    · rw [store64, store64, store, store, fill_inside hin, fill_inside hin]
    · rw [store64_outside hin, store64_outside hin]
      exact ha.mem a ((live_iff_room hrsp (by omega)).mpr (hlive.resolve_left hin))

/-! ## Running -/

/-- Machines alike have gone on to `s'` and `t'`, with `k` words on the stack,
and the first from memory `mem`: no byte of the `floor` words below the top is
written, and none outside the `limit` words. -/
structure Advanced (top : UINT64) (floor limit : Nat) (mem : ByteMem) (s' t' : Cpu) (k : Nat) : Prop where
  alike : Alike top s' t'
  rsp : s'.rsp = below top k
  frame : ∀ a, Room top floor a ∨ ¬ Room top limit a → s'.mem a = mem a

variable {floor limit : Nat}

/-- Dropping words. -/
theorem Advanced.drop (ha : Alike top s t) (hrsp : s.rsp = below top n) (hn : 8 * n < 2 ^ 64) {j : Nat}
    (hj : j ≤ n) :
    Advanced top floor limit s.mem (s.setReg .rsp (s.rsp + BitVec.ofNat 64 (8 * j)))
      (t.setReg .rsp (t.rsp + BitVec.ofNat 64 (8 * j))) (n - j) := by
  have hup : s.rsp + BitVec.ofNat 64 (8 * j) = below top (n - j) := by rw [hrsp, below_add_ofNat top hj]
  rw [← ha.rsp, hup]
  exact ⟨ha.setRsp hrsp hn (Nat.sub_le n j), Cpu.setReg_same .., fun _ _ => rfl⟩

theorem Advanced.push (ha : Alike top s t) (hrsp : s.rsp = below top n) (hlimit : 8 * limit < 2 ^ 64)
    (hfloor : floor ≤ n) (hn : n + 1 ≤ limit) {v w : UINT64} (hv : v = w) :
    Advanced top floor limit s.mem (s.push v) (t.push w) (n + 1) where
  alike := ha.push hrsp (by omega) hv
  rsp := by
    rw [Cpu.push_rsp, hrsp]
    exact below_add top n 1
  frame a hout := by
    have hone : s.rsp - 8#64 = below top (n + 1) := by
      rw [hrsp]
      exact below_add top n 1
    rw [Cpu.push_mem, hone]
    refine store64_outside fun hin => ?_
    cases hout with
    | inl hfixed => exact not_room_of_last (by omega) hin (hfixed.mono hfloor (by omega))
    | inr hfree => exact hfree (Room.mono ((room_succ (by omega)).mpr (.inl hin)) hn hlimit)

theorem Advanced.pop (ha : Alike top s t) (hrsp : s.rsp = below top n) (hn : 8 * n < 2 ^ 64) (hpos : 0 < n)
    {r : Reg} (hr : r ≠ .rsp) :
    Advanced top floor limit s.mem (s.pop.2.setReg r s.pop.1) (t.pop.2.setReg r t.pop.1) (n - 1) := by
  have hword : s.pop.1 = t.pop.1 := by
    have hload := ha.load hrsp hn hpos
    rwa [Nat.mul_zero, BitVec.add_zero, BitVec.add_zero] at hload
  have hdrop : Advanced top floor limit s.mem s.pop.2 t.pop.2 (n - 1) := Advanced.drop ha hrsp hn hpos
  exact ⟨hdrop.alike.setReg hr hword, (Cpu.setReg_ne _ r _ hr.symm).trans hdrop.rsp, hdrop.frame⟩

/-- One instruction. -/
theorem exec_alike {i : Instr} (ha : Alike top s t) (hrsp : s.rsp = below top n) (hd : i.depth n = some k)
    (hfloor : floor ≤ n) (hn : n ≤ limit) (hk : k ≤ limit) (hlimit : 8 * limit < 2 ^ 64) :
    Advanced top floor limit s.mem (exec h i s) (exec h' i t) k := by
  have hnext := ha.next (BitVec.ofNat 64 i.size)
  have hreg := fun r => congrFun ha.regs r
  cases i with
  | pushq r =>
    obtain rfl : n + 1 = k := Option.some.inj hd
    exact Advanced.push hnext hrsp hlimit hfloor hk (hreg r)
  | pushqImm c =>
    obtain rfl : n + 1 = k := Option.some.inj hd
    exact Advanced.push hnext hrsp hlimit hfloor hk rfl
  | popq r =>
    rw [Instr.depth] at hd
    split_ifs at hd with hbad
    obtain rfl : n - 1 = k := Option.some.inj hd
    exact Advanced.pop hnext hrsp (by omega) (by omega) fun hr => hbad (.inl hr)
  | movq src dst =>
    rw [Instr.depth] at hd
    split_ifs at hd with hdst
    obtain rfl : n = k := Option.some.inj hd
    exact ⟨hnext.setReg hdst (hreg src), (Cpu.setReg_ne _ _ _ fun e => hdst e.symm).trans hrsp, fun _ _ => rfl⟩
  | movlImm c dst =>
    rw [Instr.depth] at hd
    split_ifs at hd with hdst
    obtain rfl : n = k := Option.some.inj hd
    exact ⟨hnext.setReg hdst rfl, (Cpu.setReg_ne _ _ _ fun e => hdst e.symm).trans hrsp, fun _ _ => rfl⟩
  | addqImm c dst =>
    have hflags : addFlags (s.regs dst) (c.signExtend 64) s.rflags =
        addFlags (t.regs dst) (c.signExtend 64) t.rflags := by rw [ha.regs, ha.rflags]
    rw [Instr.depth] at hd
    split_ifs at hd with hdst hwords
    · obtain rfl : n = k := Option.some.inj hd
      have hset := hnext.setReg hdst (congrArg (· + c.signExtend 64) (hreg dst))
      exact ⟨hset.flags hflags, (Cpu.setReg_ne _ _ _ fun e => hdst e.symm).trans hrsp, fun _ _ => rfl⟩
    · obtain rfl : dst = .rsp := not_not.mp hdst
      obtain rfl : n - c.toNat / 8 = k := Option.some.inj hd
      have hbytes : c.signExtend 64 = BitVec.ofNat 64 (8 * (c.toNat / 8)) := by
        have hmsb : c.msb = false := by
          rw [BitVec.msb_eq_false_iff_two_mul_lt]
          omega
        rw [BitVec.signExtend_eq_setWidth_of_msb_false hmsb, Nat.mul_div_cancel' (Nat.dvd_of_mod_eq_zero hwords.1),
          BitVec.ofNat_toNat]
      have hdrop : Advanced top floor limit _ _ _ (n - c.toNat / 8) :=
        Advanced.drop hnext hrsp (by omega) hwords.2.2
      rw [← hbytes] at hdrop
      exact ⟨hdrop.alike.flags hflags, hdrop.rsp, hdrop.frame⟩
  | cld =>
    obtain rfl : n = k := Option.some.inj hd
    exact ⟨hnext.flags (congrArg (setFlag 10 false) ha.rflags), hrsp, fun _ _ => rfl⟩
  | callq => cases hd
  | iretq => cases hd

/-- What code leaves on the stack. -/
theorem execs_rsp {is : List Instr} (hrsp : s.rsp = below top n) (hfloor : floor ≤ n) (hn : n ≤ limit)
    (hlimit : 8 * limit < 2 ^ 64) (hdepth : stackDepth floor limit is n = some k) :
    (execs h is s).rsp = below top k := by
  induction is generalizing s n with
  | nil =>
    obtain rfl : n = k := Option.some.inj hdepth
    exact hrsp
  | cons i is ih =>
    obtain ⟨j, hj, hlater⟩ := Option.bind_eq_some_iff.mp hdepth
    split_ifs at hlater with hbounds
    have hstep : Advanced top floor limit s.mem (exec h i s) (exec h i s) j :=
      exec_alike (Alike.refl top s) hrsp hj hfloor hn hbounds.2 hlimit
    exact ih hstep.rsp hbounds.1 hbounds.2 hlater

end

end PiousOS.X86
