import PiousOS.L4Kernel.Graphics
import PiousOS.L4Kernel.PrintFloat

/-!
# `PrintString` (`src/kernel/graphics.c`)

A first pass over the format counts the arguments, a second one prints. Both
are written as one iteration of their loop (`scanStep`, `printStep`) and the
loop over it; pointers into the format are offsets from its start, and every
offset that is dereferenced is recorded in `reads`.

`position fmt k` is where both passes are after `k` iterations: they advance
alike (`scanned_eq`, `printed_at`).

* `printStep_conversion`: what an iteration at a conversion does;
* `countedBefore`, `takenBefore`: what has been counted and taken after `k`
  iterations;
* `scanLoop_end`, `printLoop_end`: how the loops end, and what they have read.
-/
namespace PiousOS.Kernel

/-! ## The argument scan -/

/-- The letters counted on their own. mirrors src/kernel/graphics.c:160-174 -/
def argumentLetters : List UINT8 :=
  [ascii 'c', ascii 'd', ascii 'i', ascii 'e', ascii 'E', ascii 'f', ascii 'g', ascii 'G', ascii 'o',
    ascii 's', ascii 'u', ascii 'x', ascii 'X', ascii 'p', ascii 'n']

def isModifier (letter : UINT8) : Bool := letter = ascii 'h' ∨ letter = ascii 'l'

structure Scanning where
  str_scanner : Nat := 0
  num_args : UINT8 := 0#8
  reads : List Nat := []
  deriving DecidableEq, Repr

/-- One iteration. After a modifier one more character is stepped over, which
is not looked at.
mirrors src/kernel/graphics.c:147-183 -/
def scanStep (fmt : Nat → UINT8) (s : Scanning) : Scanning :=
  if fmt s.str_scanner = ascii '%' then
    let letter := fmt (s.str_scanner + 1)
    let reads := s.reads ++ [s.str_scanner, s.str_scanner + 1]
    if isModifier letter then
      { str_scanner := s.str_scanner + 3, num_args := s.num_args + 1#8, reads := reads }
    else if letter ∈ argumentLetters then
      { str_scanner := s.str_scanner + 2, num_args := s.num_args + 1#8, reads := reads }
    else { str_scanner := s.str_scanner + 2, num_args := s.num_args, reads := reads }
  else { s with str_scanner := s.str_scanner + 1, reads := s.reads ++ [s.str_scanner] }

/-- `while(*str_scanner != '\\0')`, `none` when the fuel runs out. -/
def scanLoop (fmt : Nat → UINT8) : Nat → Scanning → Option Scanning
  | 0, _ => none
  | fuel + 1, s =>
    if fmt s.str_scanner = 0#8 then some { s with reads := s.reads ++ [s.str_scanner] }
    else scanLoop fmt fuel (scanStep fmt s)

/-! ## The printing loop -/

/-- A call: its format, its arguments as 64-bit slots, the colours, and what
an undefined conversion of a floating-point value yields. -/
structure PrintCall where
  fmt : Nat → UINT8
  args : Nat → UINT64
  foregroundColor : UINT32
  backgroundColor : UINT32
  undefined : FloatValue → UINT64

/-- A format in memory, with NULs behind it. -/
def formatOf (chars : List Char) : Nat → UINT8 := fun i => (chars.map ascii).getD i 0#8

/-- A call with one argument, repeated. -/
def callOf (chars : List Char) (arg : UINT64) : PrintCall where
  fmt := formatOf chars
  args _ := arg
  foregroundColor := 0x00FFFFFF
  backgroundColor := 0x00000000
  undefined _ := 0

/-- The conversions after `%l`. mirrors src/kernel/graphics.c:213-371 -/
def longConversion (letter : UINT8) : Option (UINT64 → List UINT8) :=
  if letter = ascii 'd' ∨ letter = ascii 'i' then some (printSigned .ld lowestLong)
  else if letter = ascii 'o' then some (printUnsigned .lo)
  else if letter = ascii 'u' then some (printUnsigned .lu)
  else if letter = ascii 'x' then some (printUnsigned .lx)
  else if letter = ascii 'X' then some (printUnsigned .lX)
  else none

/-- The conversions after `%h`. mirrors src/kernel/graphics.c:372-533 -/
def shortConversion (letter : UINT8) : Option (UINT64 → List UINT8) :=
  if letter = ascii 'd' ∨ letter = ascii 'i' then some (printSigned .hd lowestShort)
  else if letter = ascii 'o' then some (printUnsigned .ho)
  else if letter = ascii 's' ∨ letter = ascii 'u' then some (printUnsigned .hu)
  else if letter = ascii 'x' then some (printUnsigned .hx)
  else if letter = ascii 'X' then some (printUnsigned .hX)
  else none

/-- The conversions without a modifier; `none` for those that do nothing.
mirrors src/kernel/graphics.c:209-211, 534-792 -/
def plainConversion (undefined : FloatValue → UINT64) (fuel : Nat) (letter : UINT8) :
    Option (UINT64 → Option (List UINT8)) :=
  if letter = ascii 'c' then some fun slot => some [slot.setWidth 8]
  else if letter = ascii 'd' ∨ letter = ascii 'i' then some fun slot => some (printSigned .d lowestInt slot)
  else if letter = ascii 'e' ∨ letter = ascii 'E' ∨ letter = ascii 'f' then
    some (FloatConversion.float.printFloat undefined fuel)
  else if letter = ascii 'g' then some (FloatConversion.double.printFloat undefined fuel)
  else if letter = ascii 'o' then some fun slot => some (printUnsigned .o slot)
  else if letter = ascii 'u' then some fun slot => some (printUnsigned .u slot)
  else if letter = ascii 'x' then some fun slot => some (printUnsigned .x slot)
  else if letter = ascii 'X' then some fun slot => some (printUnsigned .X slot)
  else none

structure Printing where
  str : Nat := 0
  /-- how many `va_arg` values have been taken -/
  arg : Nat := 0
  out : List ConsoleOp := []
  reads : List Nat := []
  deriving DecidableEq, Repr

/-- Past `length` characters of the format, all of them read. -/
def Printing.advance (p : Printing) (length : Nat) : Printing :=
  { p with str := p.str + length, reads := p.reads ++ (List.range length).map (p.str + ·) }

section
variable (call : PrintCall)

/-- Calls of `PrintCharacter`. -/
def PrintCall.characters (text : List UINT8) : List ConsoleOp :=
  text.map fun chr => .char chr call.foregroundColor call.backgroundColor

/-- Past a conversion that printed `text` for the next argument. -/
def Printing.convert (p : Printing) (length : Nat) (text : List UINT8) : Printing :=
  { p.advance length with arg := p.arg + 1, out := p.out ++ call.characters text }

/-- The conversion that follows the `%` at `str`, if it takes an argument. -/
def PrintCall.conversionAt (fuel str : Nat) : Option (UINT64 → Option (List UINT8)) :=
  let letter := call.fmt (str + 1)
  if letter = ascii 'l' then (longConversion (call.fmt (str + 2))).map (some ∘ ·)
  else if letter = ascii 'h' then (shortConversion (call.fmt (str + 2))).map (some ∘ ·)
  else plainConversion call.undefined fuel letter

/-- One iteration; `none` when a floating-point conversion does not end.
mirrors src/kernel/graphics.c:199-808 -/
def printStep (fuel : Nat) (p : Printing) : Option Printing :=
  let chr := call.fmt p.str
  if chr = ascii '%' then
    let letter := call.fmt (p.str + 1)
    let length := if isModifier letter then 3 else 2
    if letter = ascii '%' then some { p.advance 2 with out := p.out ++ call.characters [letter] }
    else match call.conversionAt fuel p.str with
      | none => some (p.advance length)
      | some conversion => (conversion (call.args p.arg)).map (p.convert call length)
  else if chr = 10#8 then some { p.advance 1 with out := p.out ++ [.newline] }
  else some { p.advance 1 with out := p.out ++ call.characters [chr] }

/-- `while(*str != '\\0')`, `none` when the fuel runs out. -/
def printLoop : Nat → Printing → Option Printing
  | 0, _ => none
  | fuel + 1, p =>
    if call.fmt p.str = 0#8 then some { p with reads := p.reads ++ [p.str] }
    else (printStep call fuel p).bind (printLoop fuel)

/-- mirrors src/kernel/graphics.c:140-811 -/
def PrintString (behind : UINT8 → Nat → UINT8) (fuel : Nat) (d : Display) : Option Display :=
  (scanLoop call.fmt fuel {}).bind fun _ =>
    (printLoop call fuel {}).map fun p => runConsole behind p.out d

end

/-! ## Where the passes are -/

section
variable (fmt : Nat → UINT8)

/-- How far an iteration goes from `i`. -/
def stride (i : Nat) : Nat := if fmt i = ascii '%' then (if isModifier (fmt (i + 1)) then 3 else 2) else 1

/-- Where the loops are after `k` iterations. -/
def position (k : Nat) : Nat := (fun i => i + stride fmt i)^[k] 0

theorem stride_pos (i : Nat) : 0 < stride fmt i := by
  unfold stride
  split
  · split <;> decide
  · decide

theorem position_succ (k : Nat) : position fmt (k + 1) = position fmt k + stride fmt (position fmt k) :=
  Function.iterate_succ_apply' _ _ _

theorem position_strictMono : StrictMono (position fmt) :=
  strictMono_nat_of_lt_succ fun k => by
    rw [position_succ]
    exact Nat.lt_add_of_pos_right (stride_pos fmt _)

theorem le_position (k : Nat) : k ≤ position fmt k := (position_strictMono fmt).le_apply

/-- The format's first NUL is at `n`. -/
def Terminated (n : Nat) : Prop := fmt n = 0#8 ∧ ∀ i < n, fmt i ≠ 0#8

/-- The NUL at `n` is no part of a conversion. -/
def EndsBetween (n : Nat) : Prop := ∃ k, position fmt k = n

instance (n : Nat) : Decidable (Terminated fmt n) :=
  inferInstanceAs (Decidable (fmt n = 0#8 ∧ ∀ i < n, fmt i ≠ 0#8))

instance (n : Nat) : Decidable (EndsBetween fmt n) :=
  decidable_of_iff (∃ k < n + 1, position fmt k = n)
    ⟨fun ⟨k, _, hk⟩ => ⟨k, hk⟩, fun ⟨k, hk⟩ => ⟨k, Nat.lt_succ_of_le (hk ▸ le_position fmt k), hk⟩⟩

/-- What an iteration dereferences in each pass. -/
def scanReads (i : Nat) : List Nat := if fmt i = ascii '%' then [i, i + 1] else [i]

def printReads (i : Nat) : List Nat := (List.range (stride fmt i)).map (i + ·)

/-- The scan counts an argument at `i`. -/
def scanCounts (i : Nat) : Bool :=
  fmt i = ascii '%' ∧ (isModifier (fmt (i + 1)) ∨ fmt (i + 1) ∈ argumentLetters)

theorem scanStep_eq (s : Scanning) :
    scanStep fmt s =
      { str_scanner := s.str_scanner + stride fmt s.str_scanner
        num_args := if scanCounts fmt s.str_scanner then s.num_args + 1#8 else s.num_args
        reads := s.reads ++ scanReads fmt s.str_scanner } := by
  unfold scanStep stride scanCounts scanReads
  by_cases hp : fmt s.str_scanner = ascii '%'
  · by_cases hm : isModifier (fmt (s.str_scanner + 1)) = true
    · simp [hp, hm]
    · by_cases ha : fmt (s.str_scanner + 1) ∈ argumentLetters <;> simp [hp, hm, ha]
  · simp [hp]

end

/-- The conversion letters that take an argument, by modifier. -/
def longLetters : List UINT8 := [ascii 'd', ascii 'i', ascii 'o', ascii 'u', ascii 'x', ascii 'X']

def shortLetters : List UINT8 := [ascii 'd', ascii 'i', ascii 'o', ascii 's', ascii 'u', ascii 'x', ascii 'X']

def plainLetters : List UINT8 :=
  [ascii 'c', ascii 'd', ascii 'i', ascii 'e', ascii 'E', ascii 'f', ascii 'g', ascii 'o', ascii 'u',
    ascii 'x', ascii 'X']

theorem longConversion_isSome_iff (letter : UINT8) : (longConversion letter).isSome ↔ letter ∈ longLetters := by
  simp only [longLetters, List.mem_cons, List.not_mem_nil, or_false]
  unfold longConversion
  split_ifs <;> grind

theorem shortConversion_isSome_iff (letter : UINT8) :
    (shortConversion letter).isSome ↔ letter ∈ shortLetters := by
  simp only [shortLetters, List.mem_cons, List.not_mem_nil, or_false]
  unfold shortConversion
  split_ifs <;> grind

theorem plainConversion_isSome_iff (undefined : FloatValue → UINT64) (fuel : Nat) (letter : UINT8) :
    (plainConversion undefined fuel letter).isSome ↔ letter ∈ plainLetters := by
  simp only [plainLetters, List.mem_cons, List.not_mem_nil, or_false]
  unfold plainConversion
  split_ifs <;> grind

/-- The printing pass takes an argument at `i`. -/
def printTakes (fmt : Nat → UINT8) (i : Nat) : Bool :=
  fmt i = ascii '%' ∧ (fmt (i + 1) = ascii 'l' ∧ fmt (i + 2) ∈ longLetters ∨
    fmt (i + 1) = ascii 'h' ∧ fmt (i + 2) ∈ shortLetters ∨ fmt (i + 1) ∈ plainLetters)

section
variable {call : PrintCall} {fuel : Nat}

theorem conversionAt_isSome_iff {i : Nat} (h : call.fmt i = ascii '%') :
    (call.conversionAt fuel i).isSome ↔ printTakes call.fmt i = true := by
  have hl : ascii 'l' ∉ plainLetters := by decide
  have hh : ascii 'h' ∉ plainLetters := by decide
  have hlh : ascii 'h' ≠ ascii 'l' := by decide
  simp only [PrintCall.conversionAt, printTakes, h, decide_eq_true_eq, true_and]
  split
  · next e => simp [e, hl, hlh.symm, longConversion_isSome_iff]
  split
  · next hne e => simp [e, hh, hlh, shortConversion_isSome_iff]
  · next hne hne' => simp [hne, hne', plainConversion_isSome_iff]

theorem not_printTakes_percent {fmt : Nat → UINT8} {i : Nat} (h : fmt (i + 1) = ascii '%') :
    printTakes fmt i = false := by
  have hl : ascii '%' ≠ ascii 'l' := by decide
  have hh : ascii '%' ≠ ascii 'h' := by decide
  have hp : ascii '%' ∉ plainLetters := by decide
  simp [printTakes, h, hl, hh, hp]

/-- What every iteration of the printing loop does to its pointer and its
arguments. -/
theorem printStep_spec {p p' : Printing} (h : printStep call fuel p = some p') :
    p'.str = p.str + stride call.fmt p.str ∧
      p'.arg = p.arg + (if printTakes call.fmt p.str then 1 else 0) ∧
      p'.reads = p.reads ++ printReads call.fmt p.str := by
  simp only [printStep] at h
  by_cases hp : call.fmt p.str = ascii '%'
  · have hstride : stride call.fmt p.str = if isModifier (call.fmt (p.str + 1)) then 3 else 2 := if_pos hp
    rw [if_pos hp] at h
    by_cases hpp : call.fmt (p.str + 1) = ascii '%'
    · have hm : isModifier (call.fmt (p.str + 1)) = false := by rw [hpp]; decide
      rw [if_pos hpp] at h
      cases h
      simp [hstride, hm, not_printTakes_percent hpp, Printing.advance, printReads]
    · rw [if_neg hpp] at h
      have htakes : (call.conversionAt fuel p.str).isSome ↔ _ := conversionAt_isSome_iff hp
      cases hc : call.conversionAt fuel p.str with
      | none =>
        have hno : printTakes call.fmt p.str = false := by simpa [hc] using htakes
        simp only [hc, Option.some.injEq] at h
        subst h
        simp [hstride, hno, Printing.advance, printReads]
      | some conversion =>
        have hyes : printTakes call.fmt p.str = true := by simpa [hc] using htakes
        simp only [hc, Option.map_eq_some_iff] at h
        obtain ⟨text, -, rfl⟩ := h
        simp [hstride, hyes, Printing.convert, Printing.advance, printReads]
  · have hstride : stride call.fmt p.str = 1 := if_neg hp
    have hno : printTakes call.fmt p.str = false := by simp [printTakes, hp]
    rw [if_neg hp] at h
    by_cases hn : call.fmt p.str = 10#8
    · rw [if_pos hn] at h
      cases h
      simp [hstride, hno, Printing.advance, printReads]
    · rw [if_neg hn] at h
      cases h
      simp [hstride, hno, Printing.advance, printReads]

/-- At a conversion, the next argument is printed and one is taken. -/
theorem printStep_conversion {p : Printing} (hp : call.fmt p.str = ascii '%')
    (h : printTakes call.fmt p.str = true) :
    ∃ conversion, call.conversionAt fuel p.str = some conversion ∧
      printStep call fuel p =
        (conversion (call.args p.arg)).map (p.convert call (stride call.fmt p.str)) := by
  have hsome : (call.conversionAt fuel p.str).isSome := (conversionAt_isSome_iff hp).mpr h
  obtain ⟨conversion, hc⟩ := Option.isSome_iff_exists.mp hsome
  have hpp : call.fmt (p.str + 1) ≠ ascii '%' := fun e => by
    rw [not_printTakes_percent e] at h
    cases h
  refine ⟨conversion, hc, ?_⟩
  simp only [printStep, stride, if_pos hp, if_neg hpp, hc]

end

/-! ## After `k` iterations -/

section
variable (fmt : Nat → UINT8)

/-- Arguments counted, and taken, in the first `k` iterations. -/
def countedBefore (k : Nat) : Nat := (List.range k).countP fun j => scanCounts fmt (position fmt j)

def takenBefore (k : Nat) : Nat := (List.range k).countP fun j => printTakes fmt (position fmt j)

theorem countedBefore_succ (k : Nat) :
    countedBefore fmt (k + 1) = countedBefore fmt k + if scanCounts fmt (position fmt k) then 1 else 0 := by
  rw [countedBefore, List.range_succ, List.countP_append, List.countP_singleton]
  rfl

theorem takenBefore_succ (k : Nat) :
    takenBefore fmt (k + 1) = takenBefore fmt k + if printTakes fmt (position fmt k) then 1 else 0 := by
  rw [takenBefore, List.range_succ, List.countP_append, List.countP_singleton]
  rfl

/-- The scan after `k` iterations. -/
def scanned (k : Nat) : Scanning := (scanStep fmt)^[k] {}

theorem scanned_succ (k : Nat) : scanned fmt (k + 1) = scanStep fmt (scanned fmt k) :=
  Function.iterate_succ_apply' _ _ _

theorem scanned_eq (k : Nat) :
    scanned fmt k =
      { str_scanner := position fmt k
        num_args := BitVec.ofNat 8 (countedBefore fmt k)
        reads := (List.range k).flatMap fun j => scanReads fmt (position fmt j) } := by
  induction k with
  | zero => rfl
  | succ k ih =>
    rw [scanned_succ, ih, scanStep_eq, position_succ, countedBefore_succ,
      List.range_succ, List.flatMap_append, List.flatMap_singleton]
    split
    · rw [BitVec.ofNat_add]
    · rfl

end

section
variable (call : PrintCall)

/-- The printing loop after `k` iterations. -/
def printed (fuel : Nat) : Nat → Option Printing
  | 0 => some {}
  | k + 1 => (printed fuel k).bind (printStep call fuel)

/-- The printing loop's state at its `k`-th iteration, the output apart. -/
structure PrintedAt (k : Nat) (p : Printing) : Prop where
  str : p.str = position call.fmt k
  arg : p.arg = takenBefore call.fmt k
  reads : p.reads = (List.range k).flatMap fun j => printReads call.fmt (position call.fmt j)

variable {call} {fuel k : Nat} {p p' : Printing}

theorem printedAt_zero : PrintedAt call 0 {} := ⟨rfl, rfl, rfl⟩

theorem PrintedAt.step (hp : PrintedAt call k p) (h : printStep call fuel p = some p') :
    PrintedAt call (k + 1) p' := by
  obtain ⟨hstr, harg, hreads⟩ := printStep_spec h
  rw [hp.str] at hstr harg hreads
  refine ⟨by rw [hstr, position_succ], by rw [harg, hp.arg, takenBefore_succ], ?_⟩
  rw [hreads, hp.reads, List.range_succ, List.flatMap_append, List.flatMap_singleton]

theorem printed_at (h : printed call fuel k = some p) : PrintedAt call k p := by
  induction k generalizing p with
  | zero =>
    cases h
    exact printedAt_zero
  | succ k ih =>
    obtain ⟨q, hq, hstep⟩ := Option.bind_eq_some_iff.mp h
    exact (ih hq).step hstep

/-! ## Floating-point arguments -/

/-- The floating-point conversion at `i`. -/
def floatAt (fmt : Nat → UINT8) (i : Nat) : Option FloatConversion :=
  if fmt i = ascii '%' then
    if fmt (i + 1) = ascii 'e' ∨ fmt (i + 1) = ascii 'E' ∨ fmt (i + 1) = ascii 'f' then some .float
    else if fmt (i + 1) = ascii 'g' then some .double
    else none
  else none

/-- The argument a floating-point conversion at `i` prints is not infinite in
the type it is worked on in. -/
def FiniteAt (call : PrintCall) (i arg : Nat) : Prop :=
  ∀ c, floatAt call.fmt i = some c → ¬ (c.narrow (FloatValue.ofBits (call.args arg))).IsInf

instance (call : PrintCall) (i arg : Nat) : Decidable (FiniteAt call i arg) :=
  inferInstanceAs (Decidable (∀ c ∈ floatAt call.fmt i,
    ¬ (c.narrow (FloatValue.ofBits (call.args arg))).IsInf))

theorem conversionAt_float {i : Nat} {c : FloatConversion} (h : floatAt call.fmt i = some c) :
    call.conversionAt fuel i = some (c.printFloat call.undefined fuel) := by
  unfold floatAt at h
  split_ifs at h with hp hf hg
  · cases h
    rcases hf with e | e | e <;> · simp only [PrintCall.conversionAt, e]; rfl
  · cases h
    simp only [PrintCall.conversionAt, hg]
    rfl

/-- The other conversions always print. -/
theorem conversionAt_not_float {i : Nat} (hp : call.fmt i = ascii '%') (h : floatAt call.fmt i = none)
    {conversion : UINT64 → Option (List UINT8)} (hc : call.conversionAt fuel i = some conversion)
    (slot : UINT64) : (conversion slot).isSome := by
  unfold floatAt at h
  rw [if_pos hp] at h
  split_ifs at h with hf hg
  simp only [PrintCall.conversionAt] at hc
  split_ifs at hc with hl hh
  · obtain ⟨text, -, rfl⟩ := Option.map_eq_some_iff.mp hc
    rfl
  · obtain ⟨text, -, rfl⟩ := Option.map_eq_some_iff.mp hc
    rfl
  · unfold plainConversion at hc
    rw [if_neg hf, if_neg hg] at hc
    split_ifs at hc <;> · cases hc; rfl

/-- An iteration that is not at a conversion goes on. -/
theorem printStep_isSome_of_conversion
    (h : call.fmt p.str = ascii '%' → ∀ conversion, call.conversionAt fuel p.str = some conversion →
      (conversion (call.args p.arg)).isSome) : (printStep call fuel p).isSome := by
  simp only [printStep]
  by_cases hp : call.fmt p.str = ascii '%'
  · rw [if_pos hp]
    split
    · rfl
    · cases hc : call.conversionAt fuel p.str with
      | none => rfl
      | some conversion =>
        rw [Option.isSome_map]
        exact h hp conversion hc
  · rw [if_neg hp]
    split <;> rfl

/-- **An iteration gets stuck on infinite arguments only**: -/
theorem printStep_isSome (hfuel : 2098 < fuel) (h : FiniteAt call p.str p.arg) :
    (printStep call fuel p).isSome := by
  refine printStep_isSome_of_conversion fun hp conversion hc => ?_
  cases hf : floatAt call.fmt p.str with
  | none => exact conversionAt_not_float hp hf hc _
  | some c =>
    rw [conversionAt_float hf] at hc
    cases hc
    have hlimit := FloatConversion.limit_le (c := c)
    exact (FloatConversion.printFloat_isSome_iff (by omega) _).mpr (h c hf)

/-- and it does, whatever the fuel. -/
theorem finiteAt_of_printStep (h : printStep call fuel p = some p') : FiniteAt call p.str p.arg := by
  intro c hc hinf
  have hp : call.fmt p.str = ascii '%' := by
    by_contra hne
    simp [floatAt, hne] at hc
  have hconv : call.conversionAt fuel p.str = some (c.printFloat call.undefined fuel) := conversionAt_float hc
  have htakes := (conversionAt_isSome_iff hp).mp (Option.isSome_of_eq_some hconv)
  obtain ⟨conversion, hc', hstep⟩ : ∃ conversion, call.conversionAt fuel p.str = some conversion ∧
      printStep call fuel p = _ := printStep_conversion hp htakes
  rw [hconv] at hc'
  cases hc'
  rw [hstep, FloatConversion.printFloat_inf hinf] at h
  cases h

end

/-! ## How the loops end -/

section
variable {fmt : Nat → UINT8} {fuel k : Nat}

/-- The scan goes on while it meets no NUL. -/
theorem scanLoop_scanned (h : ∀ j < k, fmt (position fmt j) ≠ 0#8) :
    scanLoop fmt (k + fuel) {} = scanLoop fmt fuel (scanned fmt k) := by
  induction k generalizing fuel with
  | zero => rw [Nat.zero_add]; rfl
  | succ k ih =>
    rw [Nat.succ_add_eq_add_succ, ih fun j hj => h j (Nat.lt_succ_of_lt hj), scanLoop, if_neg, ← scanned_succ]
    rw [scanned_eq]
    exact h k (Nat.lt_succ_self k)

/-- An iteration starts at a NUL for the first time. -/
structure EndsAt (fmt : Nat → UINT8) (k m : Nat) : Prop where
  nul : fmt (position fmt m) = 0#8
  before : ∀ j, k ≤ j → j < m → fmt (position fmt j) ≠ 0#8

theorem EndsAt.back {m : Nat} (h : EndsAt fmt (k + 1) m) (hk : fmt (position fmt k) ≠ 0#8) : EndsAt fmt k m := by
  refine ⟨h.nul, fun j hkj hj => ?_⟩
  by_cases e : j = k
  · exact e ▸ hk
  · exact h.before j (by omega) hj

/-- A scan that ends has read a NUL where an iteration starts. -/
theorem scanLoop_end {s : Scanning} (h : scanLoop fmt fuel (scanned fmt k) = some s) :
    ∃ m, EndsAt fmt k m ∧ s.num_args = (scanned fmt m).num_args ∧
      s.reads = (scanned fmt m).reads ++ [position fmt m] := by
  induction fuel generalizing k with
  | zero => cases h
  | succ fuel ih =>
    have hstr : (scanned fmt k).str_scanner = position fmt k := by rw [scanned_eq]
    rw [scanLoop, hstr] at h
    split at h
    · next hnul =>
      cases h
      exact ⟨k, ⟨hnul, fun j hkj hj => absurd hj (by omega)⟩, rfl, rfl⟩
    · next hne =>
      rw [← scanned_succ] at h
      obtain ⟨m, hm, hrest⟩ := ih h
      exact ⟨m, hm.back hne, hrest⟩

/-- The NUL a loop ends at is the first one, if it was the last byte read. -/
theorem position_eq_of_terminated {n m : Nat} (ht : Terminated fmt n) (hm : fmt (position fmt m) = 0#8)
    (hle : position fmt m ≤ n) : position fmt m = n := by
  by_contra hne
  exact ht.2 _ (Nat.lt_of_le_of_ne hle hne) hm

/-- Before the end of a format that ends between conversions no iteration
reads past it. -/
theorem reads_le {n m j : Nat} (hm : position fmt m = n) (hj : j < m) :
    ∀ r ∈ printReads fmt (position fmt j), r ≤ n := by
  intro r hr
  have hnext : position fmt (j + 1) ≤ position fmt m := (position_strictMono fmt).monotone hj
  rw [position_succ, hm] at hnext
  simp only [printReads, List.mem_map, List.mem_range] at hr
  omega

theorem scanReads_subset (i : Nat) : scanReads fmt i ⊆ printReads fmt i := by
  intro r hr
  by_cases hp : fmt i = ascii '%'
  · have hlen : 2 ≤ stride fmt i := by
      unfold stride
      rw [if_pos hp]
      split <;> decide
    simp only [scanReads, if_pos hp, List.mem_cons, List.not_mem_nil, or_false] at hr
    simp only [printReads, List.mem_map, List.mem_range]
    exact ⟨r - i, by omega, by omega⟩
  · simp only [scanReads, if_neg hp, List.mem_singleton] at hr
    simp only [printReads, List.mem_map, List.mem_range]
    exact ⟨0, stride_pos fmt i, by omega⟩

/-- **The scan ends without reading past the NUL exactly when the format does
not end inside a conversion.** -/
theorem scanLoop_safe_iff {n : Nat} (ht : Terminated fmt n) :
    (∃ fuel s, scanLoop fmt fuel {} = some s ∧ ∀ r ∈ s.reads, r ≤ n) ↔ EndsBetween fmt n := by
  constructor
  · rintro ⟨fuel, s, h, hreads⟩
    obtain ⟨m, hm, -, hr⟩ := scanLoop_end (k := 0) h
    refine ⟨m, position_eq_of_terminated ht hm.nul (hreads _ ?_)⟩
    rw [hr]
    exact List.mem_append_right _ List.mem_cons_self
  · rintro ⟨m, hm⟩
    have hrun : scanLoop fmt (m + 1) {} = scanLoop fmt 1 (scanned fmt m) :=
      scanLoop_scanned fun j hj => ht.2 _ (by rw [← hm]; exact position_strictMono fmt hj)
    have hend : fmt (scanned fmt m).str_scanner = 0#8 := by
      rw [scanned_eq]
      exact hm ▸ ht.1
    refine ⟨m + 1, _, hrun.trans (if_pos hend), fun r hr => ?_⟩
    rw [scanned_eq] at hr
    cases List.mem_append.mp hr with
    | inl h =>
      obtain ⟨j, hj, hrj⟩ := List.mem_flatMap.mp h
      exact reads_le hm (List.mem_range.mp hj) r (scanReads_subset _ hrj)
    | inr h =>
      rw [List.mem_singleton.mp h, hm]

end

section
variable {call : PrintCall} {fuel k : Nat} {p p' : Printing}

/-- So has a printing loop, and it has printed no infinite argument. -/
theorem printLoop_end (hp : PrintedAt call k p) (h : printLoop call fuel p = some p') :
    ∃ m, EndsAt call.fmt k m ∧ p'.arg = takenBefore call.fmt m ∧
      p'.reads = ((List.range m).flatMap fun j => printReads call.fmt (position call.fmt j)) ++
        [position call.fmt m] ∧
      ∀ j, k ≤ j → j < m → FiniteAt call (position call.fmt j) (takenBefore call.fmt j) := by
  induction fuel generalizing k p with
  | zero => cases h
  | succ fuel ih =>
    rw [printLoop, hp.str] at h
    split at h
    · next hnul =>
      cases h
      refine ⟨k, ⟨hnul, fun j hkj hj => absurd hj (by omega)⟩, hp.arg, ?_, fun j hkj hj => absurd hj (by omega)⟩
      rw [← hp.reads]
    · next hne =>
      obtain ⟨q, hstep, hloop⟩ := Option.bind_eq_some_iff.mp h
      obtain ⟨m, hm, harg, hreads, hfin⟩ := ih (hp.step hstep) hloop
      refine ⟨m, hm.back hne, harg, hreads, fun j hkj hj => ?_⟩
      by_cases e : j = k
      · have hk := finiteAt_of_printStep hstep
        rwa [hp.str, hp.arg, ← e] at hk
      · exact hfin j (by omega) hj

/-- The printing loop goes on to the first NUL while the arguments are finite. -/
theorem printLoop_isSome {m : Nat} (hp : PrintedAt call k p) (hk : k ≤ m) (hm : EndsAt call.fmt k m)
    (hfin : ∀ j, k ≤ j → j < m → FiniteAt call (position call.fmt j) (takenBefore call.fmt j))
    (hfuel : m - k + 2099 < fuel) : (printLoop call fuel p).isSome := by
  induction fuel generalizing k p with
  | zero => omega
  | succ fuel ih =>
    rw [printLoop, hp.str]
    by_cases hnul : call.fmt (position call.fmt k) = 0#8
    · rw [if_pos hnul]
      rfl
    · rw [if_neg hnul]
      have hlt : k < m := Nat.lt_of_le_of_ne hk fun e => hnul (e ▸ hm.nul)
      have hfinite : FiniteAt call p.str p.arg := by
        rw [hp.str, hp.arg]
        exact hfin k (Nat.le_refl k) hlt
      have hstep : (printStep call fuel p).isSome := printStep_isSome (by omega) hfinite
      obtain ⟨q, hq⟩ := Option.isSome_iff_exists.mp hstep
      rw [hq, Option.bind_some]
      exact ih (hp.step hq) hlt ⟨hm.nul, fun j hkj => hm.before j (by omega)⟩
        (fun j hkj => hfin j (by omega)) (by omega)

/-- No floating-point conversion of the format prints an infinite argument. -/
def FiniteArgs (call : PrintCall) (n : Nat) : Prop :=
  ∀ j, position call.fmt j < n → FiniteAt call (position call.fmt j) (takenBefore call.fmt j)

instance (call : PrintCall) (n : Nat) : Decidable (FiniteArgs call n) :=
  decidable_of_iff (∀ j < n, position call.fmt j < n →
      FiniteAt call (position call.fmt j) (takenBefore call.fmt j))
    ⟨fun h j hj => h j (Nat.lt_of_le_of_lt (le_position call.fmt j) hj) hj, fun h j _ => h j⟩

/-- **The printing loop ends without reading past the NUL exactly when the
format does not end inside a conversion and no argument printed is infinite.** -/
theorem printLoop_safe_iff {n : Nat} (ht : Terminated call.fmt n) :
    (∃ fuel p, printLoop call fuel {} = some p ∧ ∀ r ∈ p.reads, r ≤ n) ↔
      EndsBetween call.fmt n ∧ FiniteArgs call n := by
  have hmono := position_strictMono call.fmt
  constructor
  · rintro ⟨fuel, p, h, hreads⟩
    obtain ⟨m, hm, -, hr, hfin⟩ := printLoop_end printedAt_zero h
    have hlast : position call.fmt m ≤ n := by
      apply hreads
      rw [hr]
      exact List.mem_append_right _ List.mem_cons_self
    have hpos := position_eq_of_terminated ht hm.nul hlast
    refine ⟨⟨m, hpos⟩, fun j hj => hfin j (Nat.zero_le j) ?_⟩
    rw [← hpos] at hj
    exact hmono.lt_iff_lt.mp hj
  · rintro ⟨⟨m, hpos⟩, hfin⟩
    have hbefore (j : Nat) (hj : j < m) : position call.fmt j < n := hpos ▸ hmono hj
    have hm : EndsAt call.fmt 0 m := ⟨hpos ▸ ht.1, fun j _ hj => ht.2 _ (hbefore j hj)⟩
    have hsome := printLoop_isSome printedAt_zero (Nat.zero_le m) hm (fun j _ hj => hfin j (hbefore j hj))
      (Nat.lt_succ_self _)
    obtain ⟨p, hp⟩ := Option.isSome_iff_exists.mp hsome
    refine ⟨_, p, hp, fun r hr => ?_⟩
    obtain ⟨m', hm', -, hreads, -⟩ := printLoop_end printedAt_zero hp
    have hmm : m' = m := by
      apply Nat.le_antisymm
      · exact Nat.le_of_not_lt fun hlt => hm'.before m (Nat.zero_le m) hlt hm.nul
      · exact Nat.le_of_not_lt fun hlt => hm.before m' (Nat.zero_le m') hlt hm'.nul
    rw [hreads, hmm] at hr
    cases List.mem_append.mp hr with
    | inl h =>
      obtain ⟨j, hj, hrj⟩ := List.mem_flatMap.mp h
      exact reads_le hpos (List.mem_range.mp hj) r hrj
    | inr h => rw [List.mem_singleton.mp h, hpos]

end

end PiousOS.Kernel
