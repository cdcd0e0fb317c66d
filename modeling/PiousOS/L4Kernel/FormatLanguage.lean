import PiousOS.Core.Terminated
import PiousOS.Core.TokenCode
import PiousOS.L4Kernel.PrintedNumbers

/-!
# The language of `PrintString`

A format is a sequence of directives. A directive has a meaning, which says
whether it takes an argument and which text it stands for, for characters and
integers in terms of numbers and numerals; `render` is the text of a whole
format. `Exact` leaves out the arguments for which the code prints something
else. Floating point is not given a meaning of its own: the text of `%e`, `%f`
and `%g` is what `printFloat` prints, and exact is where it ends.
-/
namespace PiousOS.Kernel

/-! ## Directives -/

inductive Modifier where
  | h | l
  deriving DecidableEq, Repr

def Modifier.letter : Modifier → UINT8
  | h => ascii 'h'
  | l => ascii 'l'

inductive Directive where
  | literal (c : UINT8) (valid : c ≠ 0#8 ∧ c ≠ ascii '%')
  | percent
  | plain (letter : UINT8) (valid : letter ≠ 0#8 ∧ letter ≠ ascii '%' ∧ isModifier letter = false)
  | modified (m : Modifier) (letter : UINT8) (valid : letter ≠ 0#8)
  deriving DecidableEq

namespace Directive

def encode : Directive → List UINT8
  | literal c _ => [c]
  | percent => [ascii '%', ascii '%']
  | plain letter _ => [ascii '%', letter]
  | modified m letter _ => [ascii '%', m.letter, letter]

/-- What may follow a `%` with a modifier. -/
def nextModified (m : Modifier) : List UINT8 → Option (Directive × List UINT8)
  | [] => none
  | letter :: rest => if h : letter = 0#8 then none else some (modified m letter h, rest)

/-- What may follow a `%`. -/
def nextConversion : List UINT8 → Option (Directive × List UINT8)
  | [] => none
  | letter :: rest =>
    if hz : letter = 0#8 then none
    else if hp : letter = ascii '%' then some (percent, rest)
    else if letter = ascii 'h' then nextModified .h rest
    else if letter = ascii 'l' then nextModified .l rest
    else if hm : isModifier letter = false then some (plain letter ⟨hz, hp, hm⟩, rest)
    else none

/-- The first directive of a format and the rest. -/
def next : List UINT8 → Option (Directive × List UINT8)
  | [] => none
  | c :: rest =>
    if hz : c = 0#8 then none
    else if hp : c = ascii '%' then nextConversion rest
    else some (literal c ⟨hz, hp⟩, rest)

theorem next_percent (rest : List UINT8) : next (ascii '%' :: rest) = nextConversion rest := by
  rw [next, dif_neg (by decide), dif_pos rfl]

theorem not_isModifier {letter : UINT8} (h : isModifier letter = false) :
    letter ≠ ascii 'h' ∧ letter ≠ ascii 'l' := by
  simpa [isModifier] using h

theorem next_encode (d : Directive) (rest : List UINT8) : next (d.encode ++ rest) = some (d, rest) := by
  cases d with
  | literal c valid =>
    rw [encode, List.singleton_append, next, dif_neg valid.1, dif_neg valid.2]
  | percent =>
    rw [encode, List.cons_append, List.singleton_append, next_percent, nextConversion, dif_neg (by decide),
      dif_pos rfl]
  | plain letter valid =>
    obtain ⟨hh, hl⟩ := not_isModifier valid.2.2
    rw [encode, List.cons_append, List.singleton_append, next_percent, nextConversion, dif_neg valid.1,
      dif_neg valid.2.1, if_neg hh, if_neg hl, dif_pos valid.2.2]
  | modified m letter valid =>
    rw [encode, List.cons_append, List.cons_append, List.singleton_append, next_percent, nextConversion]
    cases m with
    | h => rw [Modifier.letter, dif_neg (by decide), dif_neg (by decide), if_pos rfl, nextModified, dif_neg valid]
    | l =>
      rw [Modifier.letter, dif_neg (by decide), dif_neg (by decide), if_neg (by decide), if_pos rfl, nextModified,
        dif_neg valid]

theorem encode_of_nextModified {m : Modifier} {l rest : List UINT8} {d : Directive}
    (h : nextModified m l = some (d, rest)) : ascii '%' :: m.letter :: l = d.encode ++ rest := by
  cases l with
  | nil => cases h
  | cons letter l =>
    rw [nextModified] at h
    split at h
    · cases h
    · cases h
      rfl

theorem encode_of_next {l rest : List UINT8} {d : Directive} (h : next l = some (d, rest)) :
    l = d.encode ++ rest := by
  cases l with
  | nil => cases h
  | cons c l =>
    rw [next] at h
    split_ifs at h with hz hp
    · subst hp
      cases l with
      | nil => cases h
      | cons letter l =>
        rw [nextConversion] at h
        split_ifs at h with hz' hp' hh hl hm
        · cases h
          rw [hp']
          rfl
        · subst hh
          exact encode_of_nextModified h
        · subst hl
          exact encode_of_nextModified h
        · cases h
          rfl
    · cases h
      rfl

end Directive

/-- Formats as directives. -/
def formatCode : TokenCode Directive UINT8 where
  encode := Directive.encode
  next := Directive.next
  encode_ne_nil d := by cases d <;> exact List.cons_ne_nil _ _
  next_encode := Directive.next_encode
  encode_of_next := Directive.encode_of_next

/-! ## What a directive means -/

inductive Meaning where
  | nothing
  | character
  | signed (type : CType)
  | unsigned (type : CType) (base : Nat) (digits : List Char)
  | float (c : FloatConversion)
  deriving DecidableEq, Repr

/-- The integer conversions of a width. -/
def integerMeaning (signed unsigned : CType) (letter : UINT8) : Meaning :=
  if letter = ascii 'd' ∨ letter = ascii 'i' then .signed signed
  else if letter = ascii 'o' then .unsigned unsigned 8 lowerDigits
  else if letter = ascii 'u' then .unsigned unsigned 10 lowerDigits
  else if letter = ascii 'x' then .unsigned unsigned 16 lowerDigits
  else if letter = ascii 'X' then .unsigned unsigned 16 upperDigits
  else .nothing

/-- `%hs` is one more way to print an unsigned number. -/
def Directive.meaning : Directive → Meaning
  | .literal _ _ | .percent => .nothing
  | .plain letter _ =>
    if letter = ascii 'c' then .character
    else if letter = ascii 'e' ∨ letter = ascii 'E' ∨ letter = ascii 'f' then .float .float
    else if letter = ascii 'g' then .float .double
    else integerMeaning .int .uint letter
  | .modified .l letter _ => integerMeaning .long .ulong letter
  | .modified .h letter _ =>
    if letter = ascii 's' then .unsigned .ushort 10 lowerDigits else integerMeaning .short .ushort letter

namespace Meaning

/-- The text of an argument: a character, a numeral, or for a float the text of
the code itself. -/
def text (undefined : FloatValue → UINT64) : Meaning → UINT64 → List UINT8
  | nothing, _ => []
  | character, slot => [slot.setWidth 8]
  | signed type, slot => signedText (type.cast slot)
  | unsigned type base digits, slot => numeralText digits base (type.cast slot).toNat
  | float c, slot => (c.printFloat undefined 2099 slot).getD []

/-- The arguments whose text is printed: no lowest value of a signed type, no
`%o` from `2^31` on, and nothing infinite, for which `printFloat` does not end. -/
def Exact : Meaning → UINT64 → Prop
  | nothing, _ | character, _ => True
  | signed type, slot => type.cast slot ≠ type.lowest
  | unsigned type base _, slot => type = .uint → base = 8 → type.cast slot < 2 ^ 31
  | float c, slot => ¬ (c.narrow (FloatValue.ofBits slot)).IsInf

def takes (m : Meaning) : Nat := if m = nothing then 0 else 1

end Meaning

section
variable (call : PrintCall)

/-- What a directive does on the console, with its argument if it takes one. -/
def Directive.ops : Directive → UINT64 → List ConsoleOp
  | .literal c _, _ => if c = 10#8 then [.newline] else call.characters [c]
  | .percent, _ => call.characters [ascii '%']
  | d, slot => call.characters (d.meaning.text call.undefined slot)

/-- What a format does on the console, from its argument number `arg` on. -/
def render : List Directive → Nat → List ConsoleOp
  | [], _ => []
  | d :: ds, arg => d.ops call (call.args arg) ++ render ds (arg + d.meaning.takes)

/-- The text of every argument is printed. -/
def ExactArgs : List Directive → Nat → Prop
  | [], _ => True
  | d :: ds, arg => d.meaning.Exact (call.args arg) ∧ ExactArgs ds (arg + d.meaning.takes)

end

/-! ## The conversions of the code -/

/-- The code has no conversion for a directive that means nothing, and for
another one a conversion that prints the text of every exact argument, and
another text, no longer one, of the others. -/
def Meaning.Implemented (undefined : FloatValue → UINT64) (m : Meaning)
    (conversion : Option (UINT64 → Option (List UINT8))) : Prop :=
  if m = .nothing then conversion = none
  else ∃ f, conversion = some f ∧
    (∀ slot, m.Exact slot → f slot = some (m.text undefined slot)) ∧
    ∀ slot t, ¬ m.Exact slot → f slot = some t →
      t.length ≤ (m.text undefined slot).length ∧ t ≠ m.text undefined slot

section
variable {undefined : FloatValue → UINT64} {fuel : Nat} {letter : UINT8}

theorem implemented_signed {c : Conversion} {type : CType} {lowest : List UINT8} (ht : type.IsSigned)
    (hc : c = { take := type, count := type, digit := type, base := 10, letters := none }) :
    Meaning.Implemented undefined (.signed type) (some (some ∘ printSigned c lowest)) := by
  rw [Meaning.Implemented, if_neg (by simp)]
  refine ⟨_, rfl, fun slot hexact => congrArg some ((signedText_eq_printSigned_iff ht hc).mpr hexact).symm,
    fun slot t hlowest ht' => ?_⟩
  have hcast : type.cast slot = type.lowest := not_not.mp hlowest
  have hzero : printSigned c lowest slot = [45#8, 48#8] :=
    printSigned_lowest ht (by rw [hc]) (by rw [hc]) hcast
  obtain rfl : printSigned c lowest slot = t := Option.some.inj ht'
  rw [hzero, Meaning.text, hcast]
  rcases ht with rfl | rfl | rfl <;> decide +kernel

theorem cast_unsigned_lt {type : CType} (ht : type.IsUnsigned) (slot : UINT64) :
    type.cast slot = ((type.cast slot).toNat : Nat) ∧ (type.cast slot).toNat < 2 ^ type.bits := by
  rcases ht with rfl | rfl | rfl
  · exact ⟨rfl, (slot.setWidth 16).isLt⟩
  · exact ⟨rfl, (slot.setWidth 32).isLt⟩
  · exact ⟨rfl, slot.isLt⟩

theorem implemented_unsigned {c : Conversion} {type : CType} (ht : type.IsUnsigned) (htake : c.take = type)
    (hcount : c.count = type) (hdigit : c.digit = type ∨ c.digit = .ulong)
    (hoctal : type = .uint → c.base.toNat ≠ 8) :
    Meaning.Implemented undefined (.unsigned type c.base.toNat (digitsOf c.letters))
      (some (some ∘ printUnsigned c)) := by
  rw [Meaning.Implemented, if_neg (by simp)]
  refine ⟨_, rfl, fun slot _ => ?_, fun slot t hnot => ?_⟩
  · obtain ⟨hcast, hlt⟩ := cast_unsigned_lt ht slot
    exact congrArg some (printUnsigned_narrow ht htake hcount hdigit hcast hlt)
  · exact absurd (fun htype hbase => absurd hbase (hoctal htype)) hnot

theorem length_printPlaces (c : Conversion) (value : UINT64) (places : Nat) :
    (printPlaces c value places).length = places := by
  induction places with
  | zero => rfl
  | succ places ih => rw [printPlaces, List.length_cons, ih]

/-- From `2^31` on `%o` has as many digits as it should have. -/
theorem length_printUnsigned_o {slot : UINT64} (h : 2 ^ 31 ≤ (slot.setWidth 32).toNat) :
    (printUnsigned .o slot).length = (numeralText lowerDigits 8 (slot.setWidth 32).toNat).length := by
  have hlt := (slot.setWidth 32).isLt
  have htake : Conversion.o.take.cast slot = (slot.setWidth 32).toNat := rfl
  generalize (slot.setWidth 32).toNat = n at h hlt htake
  have hcount : Conversion.o.count.cast (toULong n) = n := CType.cast_toULong_unsigned (.inr (.inl rfl)) hlt
  have hplaces := places_octal h hlt
  have hp : countPlaces .o (toULong n) 0#8 = 0#8 + BitVec.ofNat 8 (places 8 n) := countPlaces_eq hcount 0#8
  rw [hplaces] at hp
  rw [printUnsigned, htake, digitsText, hp, if_neg (by decide), length_printPlaces, numeralText, digitCodes,
    List.length_map, numeral_of_ne_zero (by omega), List.length_reverse]
  exact hplaces.symm

/-- `%o` takes its digits from a signed value. -/
theorem implemented_octal :
    Meaning.Implemented undefined (.unsigned .uint 8 lowerDigits) (some (some ∘ printUnsigned .o)) := by
  rw [Meaning.Implemented, if_neg (by simp)]
  refine ⟨_, rfl, fun slot hexact => congrArg some (printUnsigned_o ?_), fun slot t hnot ht => ?_⟩
  · exact Int.ofNat_lt.mp (hexact rfl rfl)
  · have hge : 2 ^ 31 ≤ (slot.setWidth 32).toNat := by
      by_contra hlt
      exact hnot fun _ _ => Int.ofNat_lt.mpr (Nat.lt_of_not_le hlt)
    obtain rfl : printUnsigned .o slot = t := Option.some.inj ht
    exact ⟨Nat.le_of_eq (length_printUnsigned_o hge), printUnsigned_o_ne slot hge⟩

theorem implemented_long : Meaning.Implemented undefined (integerMeaning .long .ulong letter)
    ((longConversion letter).map (some ∘ ·)) := by
  have hunsigned : CType.IsUnsigned .ulong := .inr (.inr rfl)
  simp only [integerMeaning, longConversion]
  split_ifs
  · exact implemented_signed (.inr (.inr rfl)) rfl
  · exact implemented_unsigned (c := .lo) hunsigned rfl rfl (.inl rfl) (by decide)
  · exact implemented_unsigned (c := .lu) hunsigned rfl rfl (.inl rfl) (by decide)
  · exact implemented_unsigned (c := .lx) hunsigned rfl rfl (.inl rfl) (by decide)
  · exact implemented_unsigned (c := .lX) hunsigned rfl rfl (.inl rfl) (by decide)
  · rfl

theorem implemented_short :
    Meaning.Implemented undefined
      (if letter = ascii 's' then .unsigned .ushort 10 lowerDigits else integerMeaning .short .ushort letter)
      ((shortConversion letter).map (some ∘ ·)) := by
  have hunsigned : CType.IsUnsigned .ushort := .inl rfl
  by_cases hs : letter = ascii 's'
  · subst hs
    exact implemented_unsigned (c := .hu) hunsigned rfl rfl (.inl rfl) (by decide)
  · rw [if_neg hs]
    simp only [integerMeaning, shortConversion, hs, false_or]
    split_ifs
    · exact implemented_signed (.inl rfl) rfl
    · exact implemented_unsigned (c := .ho) hunsigned rfl rfl (.inl rfl) (by decide)
    · exact implemented_unsigned (c := .hu) hunsigned rfl rfl (.inl rfl) (by decide)
    · exact implemented_unsigned (c := .hx) hunsigned rfl rfl (.inl rfl) (by decide)
    · exact implemented_unsigned (c := .hX) hunsigned rfl rfl (.inl rfl) (by decide)
    · rfl

/-- With more fuel the counting loop ends the same way. -/
theorem countWhole_mono {c : FloatConversion} {more : Nat} {v : FloatValue} {places places' : UINT8}
    (h : c.countWhole fuel v places = some places') (hle : fuel ≤ more) :
    c.countWhole more v places = some places' := by
  induction fuel generalizing more v places with
  | zero => cases h
  | succ fuel ih =>
    obtain ⟨more, rfl⟩ : ∃ k, more = k + 1 := ⟨more - 1, by omega⟩
    rw [FloatConversion.countWhole] at h ⊢
    split at h
    · next hone =>
      rw [if_pos hone]
      exact ih h (by omega)
    · next hone =>
      rw [if_neg hone]
      exact h

theorem implemented_float (c : FloatConversion) (hfuel : 2099 ≤ fuel) :
    Meaning.Implemented undefined (.float c) (some (c.printFloat undefined fuel)) := by
  rw [Meaning.Implemented, if_neg (by simp)]
  have hlimit := FloatConversion.limit_le (c := c)
  refine ⟨_, rfl, fun slot hexact => ?_, fun slot t hinf ht => ?_⟩
  · have hsome : (c.printFloat undefined 2099 slot).isSome :=
      (FloatConversion.printFloat_isSome_iff (by omega) slot).mpr hexact
    obtain ⟨text, htext⟩ := Option.isSome_iff_exists.mp hsome
    rw [Meaning.text, htext, Option.getD_some]
    simp only [FloatConversion.printFloat, Option.map_eq_some_iff] at htext ⊢
    obtain ⟨places, hplaces, htext⟩ := htext
    exact ⟨places, countWhole_mono hplaces hfuel, htext⟩
  · rw [FloatConversion.printFloat_inf (not_not.mp hinf)] at ht
    cases ht

theorem implemented_plain (hfuel : 2099 ≤ fuel) :
    Meaning.Implemented undefined
      (if letter = ascii 'c' then .character
        else if letter = ascii 'e' ∨ letter = ascii 'E' ∨ letter = ascii 'f' then .float .float
        else if letter = ascii 'g' then .float .double
        else integerMeaning .int .uint letter)
      (plainConversion undefined fuel letter) := by
  have hunsigned : CType.IsUnsigned .uint := .inr (.inl rfl)
  by_cases hc : letter = ascii 'c'
  · subst hc
    rw [if_pos rfl, Meaning.Implemented, if_neg (by simp)]
    exact ⟨_, rfl, fun _ _ => rfl, fun _ _ hnot => absurd trivial hnot⟩
  by_cases hf : letter = ascii 'e' ∨ letter = ascii 'E' ∨ letter = ascii 'f'
  · have hd : ¬ (letter = ascii 'd' ∨ letter = ascii 'i') := by
      rcases hf with rfl | rfl | rfl <;> decide
    rw [if_neg hc, if_pos hf, plainConversion, if_neg hc, if_neg hd, if_pos hf]
    exact implemented_float .float hfuel
  by_cases hg : letter = ascii 'g'
  · subst hg
    exact implemented_float .double hfuel
  simp only [plainConversion, integerMeaning, if_neg hc, if_neg hf, if_neg hg]
  split_ifs
  · exact implemented_signed (.inr (.inl rfl)) rfl
  · exact implemented_octal
  · exact implemented_unsigned (c := .u) hunsigned rfl rfl (.inl rfl) (by decide)
  · exact implemented_unsigned (c := .x) hunsigned rfl rfl (.inl rfl) (by decide)
  · exact implemented_unsigned (c := .X) hunsigned rfl rfl (.inr rfl) (by decide)
  · rfl

end

/-! ## The loop -/

/-- The format has the symbols `l` from `str` on. -/
def SpelledAt (fmt : Nat → UINT8) (str : Nat) (l : List UINT8) : Prop :=
  ∀ i (hi : i < l.length), fmt (str + i) = l[i]

section
variable {call : PrintCall} {fuel : Nat}

theorem SpelledAt.append {fmt : Nat → UINT8} {str : Nat} {l l' : List UINT8} (h : SpelledAt fmt str (l ++ l')) :
    SpelledAt fmt str l ∧ SpelledAt fmt (str + l.length) l' := by
  refine ⟨fun i hi => ?_, fun i hi => ?_⟩
  · rw [h i (by rw [List.length_append]; omega), List.getElem_append_left hi]
  · rw [Nat.add_assoc, h (l.length + i) (by rw [List.length_append]; omega),
      List.getElem_append_right (by omega)]
    simp

/-- A directive with a meaning of its own. -/
def Directive.IsConversion : Directive → Prop
  | .literal _ _ | .percent => False
  | .plain _ _ | .modified _ _ _ => True

theorem Directive.ops_conversion {d : Directive} (hd : d.IsConversion) (slot : UINT64) :
    d.ops call slot = call.characters (d.meaning.text call.undefined slot) := by
  cases d with
  | literal c h => cases hd
  | percent => cases hd
  | plain letter h => rfl
  | modified m letter h => rfl

/-- A conversion of the format is the code's conversion for its meaning. -/
theorem conversionAt_implemented {d : Directive} {str : Nat} (hfuel : 2099 ≤ fuel)
    (hd : SpelledAt call.fmt str d.encode) (hconv : d.IsConversion) :
    Meaning.Implemented call.undefined d.meaning (call.conversionAt fuel str) := by
  cases d with
  | literal c h => cases hconv
  | percent => cases hconv
  | plain letter valid =>
    have hletter : call.fmt (str + 1) = letter := hd 1 (by simp [Directive.encode])
    obtain ⟨hh, hl⟩ := Directive.not_isModifier valid.2.2
    simp only [PrintCall.conversionAt, hletter, if_neg hh, if_neg hl]
    exact implemented_plain hfuel
  | modified m letter valid =>
    have hm : call.fmt (str + 1) = m.letter := hd 1 (by simp [Directive.encode])
    have hletter : call.fmt (str + 2) = letter := hd 2 (by simp [Directive.encode])
    cases m with
    | h =>
      rw [PrintCall.conversionAt, hm, if_neg (by decide), hletter]
      exact implemented_short
    | l =>
      rw [PrintCall.conversionAt, hm, if_pos (by rfl : Modifier.l.letter = ascii 'l'), hletter]
      exact implemented_long

/-- How a conversion starts and how long it is. -/
theorem conversion_shape {fmt : Nat → UINT8} {d : Directive} {str : Nat} (hd : SpelledAt fmt str d.encode)
    (hconv : d.IsConversion) :
    fmt str = ascii '%' ∧ fmt (str + 1) ≠ ascii '%' ∧
      (if isModifier (fmt (str + 1)) then 3 else 2) = d.encode.length := by
  cases d with
  | literal c h => cases hconv
  | percent => cases hconv
  | plain letter valid =>
    have hletter : fmt (str + 1) = letter := hd 1 (by simp [Directive.encode])
    rw [hletter, valid.2.2]
    exact ⟨hd 0 (by simp [Directive.encode]), valid.2.1, rfl⟩
  | modified m letter valid =>
    have hm : fmt (str + 1) = m.letter := hd 1 (by simp [Directive.encode])
    have hne : m.letter ≠ ascii '%' := by cases m <;> decide
    have hmod : isModifier m.letter = true := by cases m <;> decide
    rw [hm, hmod]
    exact ⟨hd 0 (by simp [Directive.encode]), hne, rfl⟩

/-- What an iteration at directive `d` has done, `ops` its output. -/
structure Printing.After (call : PrintCall) (p : Printing) (d : Directive) (ops : List ConsoleOp)
    (p' : Printing) : Prop where
  str : p'.str = p.str + d.encode.length
  arg : p'.arg = p.arg + d.meaning.takes
  out : p'.out = p.out ++ ops

/-- An iteration at a conversion with a meaning prints what the conversion gives. -/
theorem printStep_convert {p : Printing} {d : Directive} {f : UINT64 → Option (List UINT8)}
    (hd : SpelledAt call.fmt p.str d.encode) (hconv : d.IsConversion)
    (hf : call.conversionAt fuel p.str = some f) (hne : d.meaning ≠ .nothing) {t : List UINT8}
    (ht : f (call.args p.arg) = some t) :
    ∃ p', printStep call fuel p = some p' ∧ p.After call d (call.characters t) p' := by
  obtain ⟨hp, hpp, hlen⟩ := conversion_shape hd hconv
  have harg : d.meaning.takes = 1 := if_neg hne
  simp only [printStep, if_pos hp, if_neg hpp, hf, ht, Option.map_some, hlen]
  exact ⟨_, rfl, rfl, by rw [harg]; rfl, rfl⟩

/-- **One iteration prints one directive.** -/
theorem printStep_directive {p : Printing} {d : Directive} (hfuel : 2099 ≤ fuel)
    (hd : SpelledAt call.fmt p.str d.encode) (hexact : d.meaning.Exact (call.args p.arg)) :
    ∃ p', printStep call fuel p = some p' ∧ p.After call d (d.ops call (call.args p.arg)) p' := by
  by_cases hconv : d.IsConversion
  · obtain ⟨hp, hpp, hlen⟩ := conversion_shape hd hconv
    have himpl := conversionAt_implemented hfuel hd hconv
    rw [Directive.ops_conversion hconv]
    rw [Meaning.Implemented] at himpl
    by_cases hnothing : d.meaning = .nothing
    · rw [if_pos hnothing] at himpl
      rw [hnothing]
      simp only [printStep, if_pos hp, if_neg hpp, himpl, hlen]
      exact ⟨_, rfl, rfl, by rw [hnothing]; rfl, (List.append_nil _).symm⟩
    · rw [if_neg hnothing] at himpl
      obtain ⟨f, hf, htext, -⟩ := himpl
      exact printStep_convert hd hconv hf hnothing (htext _ hexact)
  · cases d with
    | literal c valid =>
      have hc : call.fmt p.str = c := hd 0 Nat.one_pos
      simp only [printStep, hc, if_neg valid.2]
      by_cases hn : c = 10#8
      · rw [if_pos hn]
        exact ⟨_, rfl, rfl, rfl, by rw [Directive.ops, if_pos hn]⟩
      · rw [if_neg hn]
        exact ⟨_, rfl, rfl, rfl, by rw [Directive.ops, if_neg hn]⟩
    | percent =>
      have hc : call.fmt p.str = ascii '%' := hd 0 (by decide)
      have hpp : call.fmt (p.str + 1) = ascii '%' := hd 1 (by decide)
      simp only [printStep, hc, hpp, if_true]
      exact ⟨_, rfl, rfl, rfl, rfl⟩
    | plain letter valid => exact absurd trivial hconv
    | modified m letter valid => exact absurd trivial hconv

/-- For an argument that is not exact an iteration prints something else, no
longer than it should be. -/
theorem printStep_inexact {p p' : Printing} {d : Directive} (hfuel : 2099 ≤ fuel)
    (hd : SpelledAt call.fmt p.str d.encode) (hnot : ¬ d.meaning.Exact (call.args p.arg))
    (hstep : printStep call fuel p = some p') :
    ∃ ops, p.After call d ops p' ∧ ops.length ≤ (d.ops call (call.args p.arg)).length ∧
      ops ≠ d.ops call (call.args p.arg) := by
  have hconv : d.IsConversion := by
    cases d with
    | literal c h => exact absurd trivial hnot
    | percent => exact absurd trivial hnot
    | plain letter h => trivial
    | modified m letter h => trivial
  have hnothing : d.meaning ≠ .nothing := fun e => hnot (by rw [e]; trivial)
  obtain ⟨hp, hpp, -⟩ := conversion_shape hd hconv
  have himpl := conversionAt_implemented hfuel hd hconv
  rw [Meaning.Implemented, if_neg hnothing] at himpl
  obtain ⟨f, hf, -, hother⟩ := himpl
  cases ht : f (call.args p.arg) with
  | none =>
    simp only [printStep, if_pos hp, if_neg hpp, hf, ht] at hstep
    cases hstep
  | some t =>
    obtain ⟨hlen, hne⟩ := hother _ t hnot ht
    obtain ⟨q, hq, hafter⟩ := printStep_convert hd hconv hf hnothing ht
    rw [hq] at hstep
    cases hstep
    refine ⟨_, hafter, ?_, ?_⟩
    · rw [Directive.ops_conversion hconv, PrintCall.characters, PrintCall.characters, List.length_map,
        List.length_map]
      exact hlen
    · rw [Directive.ops_conversion hconv]
      exact fun e => hne (characters_injective e)

/-- Both passes step over a directive as a whole. -/
theorem stride_directive {fmt : Nat → UINT8} {str : Nat} {d : Directive} (hd : SpelledAt fmt str d.encode) :
    stride fmt str = d.encode.length := by
  by_cases hconv : d.IsConversion
  · obtain ⟨hp, -, hlen⟩ := conversion_shape hd hconv
    rw [stride, if_pos hp, hlen]
  · cases d with
    | literal c valid =>
      have hc : fmt str = c := hd 0 Nat.one_pos
      rw [stride, hc, if_neg valid.2]
      rfl
    | percent =>
      have hc : fmt str = ascii '%' := hd 0 (by decide)
      have hpp : fmt (str + 1) = ascii '%' := hd 1 (by decide)
      rw [stride, hc, hpp]
      rfl
    | plain letter valid => exact absurd trivial hconv
    | modified m letter valid => exact absurd trivial hconv

/-- No directive starts with a NUL. -/
theorem SpelledAt.ne_nul {fmt : Nat → UINT8} {str : Nat} {d : Directive} (hd : SpelledAt fmt str d.encode) :
    fmt str ≠ 0#8 := by
  have hpercent : ascii '%' ≠ 0#8 := by decide
  cases d with
  | literal c valid => exact (hd 0 Nat.one_pos).trans_ne valid.1
  | percent => exact (hd 0 (by decide)).trans_ne hpercent
  | plain letter valid => exact (hd 0 (by simp [Directive.encode])).trans_ne hpercent
  | modified m letter valid => exact (hd 0 (by simp [Directive.encode])).trans_ne hpercent

/-- The format has the directives `ds` from `str` on, and then a NUL. -/
structure Directives (fmt : Nat → UINT8) (str : Nat) (ds : List Directive) : Prop where
  spelled : SpelledAt fmt str (formatCode.encodeAll ds)
  nul : fmt (str + (formatCode.encodeAll ds).length) = 0#8

theorem Directives.cons {fmt : Nat → UINT8} {str : Nat} {d : Directive} {ds : List Directive}
    (h : Directives fmt str (d :: ds)) :
    SpelledAt fmt str d.encode ∧ Directives fmt (str + d.encode.length) ds := by
  obtain ⟨hd, hds⟩ := SpelledAt.append h.spelled
  refine ⟨hd, hds, ?_⟩
  have hnul := h.nul
  rw [TokenCode.encodeAll_cons, List.length_append, ← Nat.add_assoc] at hnul
  exact hnul

/-- The scan gets over the directives that are left. -/
theorem scanLoop_directives {fmt : Nat → UINT8} {ds : List Directive} {s : Scanning}
    (h : Directives fmt s.str_scanner ds) (hfuel : ds.length < fuel) : (scanLoop fmt fuel s).isSome := by
  induction ds generalizing fuel s with
  | nil =>
    obtain ⟨fuel, rfl⟩ : ∃ k, fuel = k + 1 := ⟨fuel - 1, by omega⟩
    have hnul : fmt s.str_scanner = 0#8 := h.nul
    rw [scanLoop, if_pos hnul]
    rfl
  | cons d ds ih =>
    obtain ⟨fuel, rfl⟩ : ∃ k, fuel = k + 1 := ⟨fuel - 1, by omega⟩
    obtain ⟨hd, hds⟩ := h.cons
    rw [scanLoop, if_neg hd.ne_nul]
    rw [List.length_cons] at hfuel
    refine ih ?_ (by omega)
    rw [scanStep_eq, stride_directive hd]
    exact hds

/-- The printing loop prints them. -/
theorem printLoop_directives {ds : List Directive} {p : Printing} (h : Directives call.fmt p.str ds)
    (hexact : ExactArgs call ds p.arg) (hfuel : ds.length + 2099 < fuel) :
    ∃ p', printLoop call fuel p = some p' ∧ p'.out = p.out ++ render call ds p.arg := by
  induction ds generalizing fuel p with
  | nil =>
    obtain ⟨fuel, rfl⟩ : ∃ k, fuel = k + 1 := ⟨fuel - 1, by omega⟩
    have hnul : call.fmt p.str = 0#8 := h.nul
    rw [printLoop, if_pos hnul]
    exact ⟨_, rfl, (List.append_nil _).symm⟩
  | cons d ds ih =>
    obtain ⟨fuel, rfl⟩ : ∃ k, fuel = k + 1 := ⟨fuel - 1, by omega⟩
    obtain ⟨hd, hds⟩ := h.cons
    rw [List.length_cons] at hfuel
    obtain ⟨q, hstep, hq⟩ : ∃ q, printStep call fuel p = some q ∧ p.After call d _ q :=
      printStep_directive (by omega) hd hexact.1
    rw [← hq.str] at hds
    obtain ⟨p', hloop, hout⟩ : ∃ p', printLoop call fuel q = some p' ∧
        p'.out = q.out ++ render call ds q.arg := ih hds (by rw [hq.arg]; exact hexact.2) (by omega)
    rw [printLoop, if_neg hd.ne_nul, hstep, Option.bind_some]
    refine ⟨p', hloop, ?_⟩
    rw [hout, hq.out, hq.arg, List.append_assoc, render]

/-- It prints no more than the directives mean, and all of it only when the
arguments are exact. -/
theorem printLoop_bounded {ds : List Directive} {p p' : Printing} (h : Directives call.fmt p.str ds)
    (hfuel : ds.length + 2099 < fuel) (hrun : printLoop call fuel p = some p') :
    ∃ ops, p'.out = p.out ++ ops ∧ ops.length ≤ (render call ds p.arg).length ∧
      (ops = render call ds p.arg → ExactArgs call ds p.arg) := by
  induction ds generalizing fuel p with
  | nil =>
    obtain ⟨fuel, rfl⟩ : ∃ k, fuel = k + 1 := ⟨fuel - 1, by omega⟩
    have hnul : call.fmt p.str = 0#8 := h.nul
    rw [printLoop, if_pos hnul] at hrun
    cases hrun
    exact ⟨[], (List.append_nil _).symm, Nat.le_refl 0, fun _ => trivial⟩
  | cons d ds ih =>
    obtain ⟨fuel, rfl⟩ : ∃ k, fuel = k + 1 := ⟨fuel - 1, by omega⟩
    obtain ⟨hd, hds⟩ := h.cons
    rw [List.length_cons] at hfuel
    rw [printLoop, if_neg hd.ne_nul] at hrun
    obtain ⟨q, hstep, hrest⟩ := Option.bind_eq_some_iff.mp hrun
    obtain ⟨ops, hq, hlen, hexact⟩ : ∃ ops, p.After call d ops q ∧
        ops.length ≤ (d.ops call (call.args p.arg)).length ∧
        (ops = d.ops call (call.args p.arg) → d.meaning.Exact (call.args p.arg)) := by
      by_cases hexact : d.meaning.Exact (call.args p.arg)
      · obtain ⟨q', hq', hafter⟩ : ∃ q', printStep call fuel p = some q' ∧ p.After call d _ q' :=
          printStep_directive (by omega) hd hexact
        rw [hstep] at hq'
        cases hq'
        exact ⟨_, hafter, Nat.le_refl _, fun _ => hexact⟩
      · obtain ⟨ops, hafter, hle, hne⟩ := printStep_inexact (by omega) hd hexact hstep
        exact ⟨ops, hafter, hle, fun e => absurd e hne⟩
    rw [← hq.str] at hds
    obtain ⟨ops', hout, hlen', hexact'⟩ := ih hds (by omega) hrest
    rw [hq.arg] at hlen' hexact'
    refine ⟨ops ++ ops', by rw [hout, hq.out, List.append_assoc], ?_, fun heq => ?_⟩
    · rw [render, List.length_append, List.length_append]
      omega
    -- neither part is longer than it should be, so both have their lengths
    · rw [render] at heq
      have hsum := congrArg List.length heq
      rw [List.length_append, List.length_append] at hsum
      obtain ⟨hhead, htail⟩ := List.append_inj heq (by omega)
      exact ⟨hexact hhead, hexact' htail⟩

/-- `PrintString` of directives is their text on the console. -/
theorem PrintString_directives {ds : List Directive} (h : Directives call.fmt 0 ds)
    (hexact : ExactArgs call ds 0) (hfuel : ds.length + 2099 < fuel) (behind : UINT8 → Nat → UINT8)
    (d : Display) : PrintString call behind fuel d = some (runConsole behind (render call ds 0) d) := by
  have hscan : (scanLoop call.fmt fuel {}).isSome := scanLoop_directives h (by omega)
  obtain ⟨s, hs⟩ := Option.isSome_iff_exists.mp hscan
  obtain ⟨p', hp, hout⟩ : ∃ p', printLoop call fuel {} = some p' ∧ p'.out = _ :=
    printLoop_directives h hexact hfuel
  rw [PrintString, hs, Option.bind_some, hp, Option.map_some, hout]
  rfl

end

/-! ## Formats are read as directives -/

section
variable {fmt : Nat → UINT8} {n str : Nat}

/-- What an iteration steps over, without a NUL, is a directive. -/
theorem exists_directive (h : ∀ i < stride fmt str, fmt (str + i) ≠ 0#8) :
    ∃ d : Directive, SpelledAt fmt str d.encode := by
  have hspell : ∀ l : List UINT8, (List.range l.length).map (fun i => fmt (str + i)) = l → SpelledAt fmt str l := by
    intro l hl i hi
    have hi' : i < ((List.range l.length).map fun i => fmt (str + i)).length := by
      rwa [List.length_map, List.length_range]
    have hget : ((List.range l.length).map fun i => fmt (str + i))[i] = fmt (str + i) := by simp
    rw [← hget]
    exact getElem_congr_coll hl
  by_cases hp : fmt str = ascii '%'
  · have hlen : stride fmt str = if isModifier (fmt (str + 1)) then 3 else 2 := if_pos hp
    have hletter : fmt (str + 1) ≠ 0#8 := h 1 (by rw [hlen]; split <;> decide)
    by_cases hpp : fmt (str + 1) = ascii '%'
    · exact ⟨.percent, hspell _ (by simp [Directive.encode, List.range_succ, hp, hpp])⟩
    by_cases hm : isModifier (fmt (str + 1)) = true
    · rw [hm, if_pos rfl] at hlen
      have hmod : fmt (str + 1) = ascii 'h' ∨ fmt (str + 1) = ascii 'l' := by simpa [isModifier] using hm
      have hlast : fmt (str + 2) ≠ 0#8 := h 2 (by omega)
      cases hmod with
      | inl e =>
        exact ⟨.modified .h _ hlast, hspell _ (by simp [Directive.encode, Modifier.letter, List.range_succ, hp, e])⟩
      | inr e =>
        exact ⟨.modified .l _ hlast, hspell _ (by simp [Directive.encode, Modifier.letter, List.range_succ, hp, e])⟩
    · have hplain : isModifier (fmt (str + 1)) = false := Bool.eq_false_iff.mpr hm
      exact ⟨.plain _ ⟨hletter, hpp, hplain⟩, hspell _ (by simp [Directive.encode, List.range_succ, hp])⟩
  · have hone : fmt str ≠ 0#8 := h 0 (stride_pos fmt str)
    exact ⟨.literal _ ⟨hone, hp⟩, hspell _ (by simp [Directive.encode, List.range_succ])⟩

theorem SpelledAt.of_append {l l' : List UINT8} (hl : SpelledAt fmt str l)
    (hl' : SpelledAt fmt (str + l.length) l') : SpelledAt fmt str (l ++ l') := by
  intro i hi
  by_cases hlt : i < l.length
  · rw [List.getElem_append_left hlt]
    exact hl i hlt
  · rw [List.length_append] at hi
    have hback := hl' (i - l.length) (by omega)
    rw [List.getElem_append_right (by omega), ← hback]
    congr 1
    omega

/-- From any iteration on, a format that ends between conversions has
directives up to its NUL. -/
theorem exists_directives {m k : Nat} (ht : Terminated fmt n) (hm : position fmt m = n) (hk : k ≤ m) :
    ∃ ds, Directives fmt (position fmt (m - k)) ds ∧
      position fmt (m - k) + (formatCode.encodeAll ds).length = n := by
  induction k with
  | zero => exact ⟨[], ⟨fun i hi => absurd hi (Nat.not_lt_zero i), hm ▸ ht.1⟩, hm⟩
  | succ k ih =>
    obtain ⟨ds, hds, hlen⟩ := ih (by omega)
    obtain ⟨j, hj⟩ : ∃ j, j = m - (k + 1) := ⟨_, rfl⟩
    have hsucc : m - k = j + 1 := by omega
    rw [hsucc, position_succ] at hds hlen
    rw [← hj]
    obtain ⟨d, hd⟩ : ∃ d : Directive, SpelledAt fmt (position fmt j) d.encode :=
      exists_directive fun i hi => ht.2 _ (by omega)
    rw [stride_directive hd] at hds hlen
    refine ⟨d :: ds, ⟨hd.of_append hds.spelled, ?_⟩, ?_⟩
    · rw [TokenCode.encodeAll_cons, List.length_append, ← Nat.add_assoc]
      exact hds.nul
    · rw [TokenCode.encodeAll_cons, List.length_append, ← Nat.add_assoc]
      exact hlen

/-- The format is read as its directives. -/
theorem Directives.decode {ds : List Directive} (h : Directives fmt 0 ds)
    (hlen : (formatCode.encodeAll ds).length = n) :
    formatCode.decodeAll ((List.range n).map fmt) = some ds := by
  refine TokenCode.decodeAll_eq_some_iff.mpr (List.ext_getElem (by simp [hlen]) fun i hi hi' => ?_)
  rw [← h.spelled i hi]
  simp

end

/-- **`PrintString` interprets its format.** A format that does not end inside
a conversion is a sequence of directives. The printing loop does on the console
what they mean, each with its own argument, exactly when the arguments are
exact, and then the call returns with it done. For floats this says only that
the loop ends and goes on behind them. -/
theorem PrintString_interprets (call : PrintCall) {n : Nat} (ht : Terminated call.fmt n)
    (hends : EndsBetween call.fmt n) :
    ∃ ds, formatCode.decodeAll ((List.range n).map call.fmt) = some ds ∧ ∀ fuel, n + 2099 < fuel →
      ((∃ p, printLoop call fuel {} = some p ∧ p.out = render call ds 0) ↔ ExactArgs call ds 0) ∧
      (ExactArgs call ds 0 → ∀ (behind : UINT8 → Nat → UINT8) (d : Display),
        PrintString call behind fuel d = some (runConsole behind (render call ds 0) d)) := by
  obtain ⟨m, hm⟩ := hends
  obtain ⟨ds, hds, hlen⟩ := exists_directives ht hm (Nat.le_refl m)
  have hstart : position call.fmt (m - m) = 0 := by
    rw [Nat.sub_self]
    rfl
  rw [hstart, Nat.zero_add] at hlen
  rw [hstart] at hds
  have hcount : ds.length ≤ n := hlen ▸ TokenCode.length_le_encodeAll ds
  refine ⟨ds, hds.decode hlen, fun fuel hfuel => ⟨⟨?_, fun hexact => ?_⟩, fun hexact behind d =>
    PrintString_directives hds hexact (by omega) behind d⟩⟩
  · rintro ⟨p, hrun, hout⟩
    obtain ⟨ops, hops, -, hexact⟩ := printLoop_bounded hds (by omega) hrun
    rw [hout] at hops
    exact hexact hops.symm
  · exact printLoop_directives hds hexact (by omega)

/-- `"0x%lX\n"` -/
def hexLine (slot : UINT64) : PrintCall := callOf ['0', 'x', '%', 'l', 'X', '\n'] slot

theorem PrintString_interprets_hexLine :
    ∃ ds, formatCode.decodeAll ((List.range 6).map (hexLine 0xC0DE).fmt) = some ds ∧
      ∀ fuel, 2105 < fuel → (ExactArgs (hexLine 0xC0DE) ds 0 → ∀ behind d,
        PrintString (hexLine 0xC0DE) behind fuel d =
          some (runConsole behind (render (hexLine 0xC0DE) ds 0) d)) := by
  obtain ⟨ds, hds, hrun⟩ := PrintString_interprets (hexLine 0xC0DE) (n := 6) (by decide) (by decide)
  exact ⟨ds, hds, fun fuel hfuel => (hrun fuel hfuel).2⟩

/-! ## Formats in memory -/

/-- The directives of a format that can be read. -/
def directivesOf (chars : List Char) : List Directive := (formatCode.decodeAll (chars.map ascii)).getD []

theorem directives_formatOf {chars : List Char} (h : (formatCode.decodeAll (chars.map ascii)).isSome) :
    Directives (formatOf chars) 0 (directivesOf chars) := by
  obtain ⟨ds, hds⟩ := Option.isSome_iff_exists.mp h
  have hread : directivesOf chars = ds := by rw [directivesOf, hds, Option.getD_some]
  rw [hread]
  have hspell : formatCode.encodeAll ds = chars.map ascii := TokenCode.decodeAll_eq_some_iff.mp hds
  constructor
  · rw [hspell]
    intro i hi
    rw [Nat.zero_add, formatOf, List.getD_eq_getElem?_getD, List.getElem?_eq_getElem hi, Option.getD_some]
  · rw [hspell, Nat.zero_add, formatOf, List.getD_eq_getElem?_getD, List.getElem?_eq_none (Nat.le_refl _),
      Option.getD_none]

/-- The meanings with which every argument is exact. -/
def Meaning.total : Meaning → Bool
  | nothing | character => true
  | unsigned type _ _ => type ≠ .uint
  | signed _ | float _ => false

theorem exact_of_total {m : Meaning} (h : m.total = true) (slot : UINT64) : m.Exact slot := by
  cases m with
  | nothing => trivial
  | character => trivial
  | unsigned type base digits =>
    intro htype
    rw [Meaning.total, decide_eq_true_eq] at h
    exact absurd htype h
  | signed type => cases h
  | float c => cases h

theorem exactArgs_of_total {call : PrintCall} {ds : List Directive} (h : ∀ d ∈ ds, d.meaning.total = true)
    (arg : Nat) : ExactArgs call ds arg := by
  induction ds generalizing arg with
  | nil => trivial
  | cons d ds ih =>
    exact ⟨exact_of_total (h d List.mem_cons_self) _, ih (fun d' hd' => h d' (List.mem_cons_of_mem d hd')) _⟩

theorem length_directivesOf {chars : List Char} (h : (formatCode.decodeAll (chars.map ascii)).isSome) :
    (directivesOf chars).length ≤ chars.length := by
  obtain ⟨ds, hds⟩ := Option.isSome_iff_exists.mp h
  have hcount : ds.length ≤ (formatCode.encodeAll ds).length := TokenCode.length_le_encodeAll ds
  rw [TokenCode.decodeAll_eq_some_iff.mp hds, List.length_map] at hcount
  rw [directivesOf, hds]
  exact hcount

end PiousOS.Kernel
