import PiousOS.L4Kernel.PrintString

/-!
# The numbers `PrintString` prints

What an iteration of the printing loop emits at an integer conversion, in any
format and at any place of it.

* `signed_conversions_print`: `%d` and its variants print the value, all but
  the most negative one of its width, for which `-0` comes out;
* `long_conversions_exact`: `%lu`, `%lo`, `%lx`, `%lX` print the canonical
  numeral, and no divisor wraps;
* `unsigned_conversions_agree`: the narrower ones print what the long ones
  print of the extended value, but for `%o` from `2^31` on.
-/
namespace PiousOS.Kernel

/-- The loop is at `%letter`. -/
def Printing.AtPlain (call : PrintCall) (p : Printing) (letter : UINT8) : Prop :=
  call.fmt p.str = ascii '%' ∧ call.fmt (p.str + 1) = letter

/-- The loop is at a `%` with a modifier and a letter. -/
def Printing.AtModified (call : PrintCall) (p : Printing) (modifier letter : UINT8) : Prop :=
  call.fmt p.str = ascii '%' ∧ call.fmt (p.str + 1) = modifier ∧ call.fmt (p.str + 2) = letter

/-- The iteration prints `text` for the next argument, and nothing else. -/
def Emits (call : PrintCall) (fuel : Nat) (p : Printing) (text : List UINT8) : Prop :=
  printStep call fuel p = some (p.convert call (stride call.fmt p.str) text)

section
variable {call : PrintCall} {fuel : Nat} {p : Printing} {letter : UINT8} {text : List UINT8}

theorem characters_injective : Function.Injective call.characters :=
  Function.Injective.list_map fun a b h => by
    injection h

theorem emits_iff {conversion : UINT64 → Option (List UINT8)} {t : List UINT8}
    (hp : call.fmt p.str = ascii '%') (hc : call.conversionAt fuel p.str = some conversion)
    (ht : conversion (call.args p.arg) = some t) : Emits call fuel p text ↔ text = t := by
  have htakes := (conversionAt_isSome_iff hp).mp (Option.isSome_of_eq_some hc)
  obtain ⟨conversion', hc', hstep⟩ : ∃ conversion, call.conversionAt fuel p.str = some conversion ∧
      printStep call fuel p = _ := printStep_conversion hp htakes
  rw [hc] at hc'
  cases hc'
  rw [Emits, hstep, ht, Option.map_some, Option.some.injEq]
  refine ⟨fun h => ?_, fun h => by rw [h]⟩
  have hout := congrArg Printing.out h
  simp only [Printing.convert, List.append_cancel_left_eq] at hout
  exact (characters_injective hout).symm

theorem emits_long {f : UINT64 → List UINT8} (h : p.AtModified call (ascii 'l') letter)
    (hf : longConversion letter = some f) : Emits call fuel p text ↔ text = f (call.args p.arg) := by
  obtain ⟨hp, hm, hletter⟩ := h
  have hc : call.conversionAt fuel p.str = some (some ∘ f) := by
    simp only [PrintCall.conversionAt, hm, hletter, hf]
    rfl
  exact emits_iff hp hc rfl

theorem emits_short {f : UINT64 → List UINT8} (h : p.AtModified call (ascii 'h') letter)
    (hf : shortConversion letter = some f) : Emits call fuel p text ↔ text = f (call.args p.arg) := by
  obtain ⟨hp, hm, hletter⟩ := h
  have hc : call.conversionAt fuel p.str = some (some ∘ f) := by
    simp only [PrintCall.conversionAt, hm, hletter, hf]
    rfl
  exact emits_iff hp hc rfl

theorem emits_plain {f : UINT64 → List UINT8} (h : p.AtPlain call letter) (hm : isModifier letter = false)
    (hf : plainConversion call.undefined fuel letter = some (some ∘ f)) :
    Emits call fuel p text ↔ text = f (call.args p.arg) := by
  obtain ⟨hp, hletter⟩ := h
  obtain ⟨hh, hl⟩ : letter ≠ ascii 'h' ∧ letter ≠ ascii 'l' := by simpa [isModifier] using hm
  have hc : call.conversionAt fuel p.str = some (some ∘ f) := by
    simp only [PrintCall.conversionAt, hletter, if_neg hh, if_neg hl, hf]
  exact emits_iff hp hc rfl

end

/-! ## Signed numbers -/

def signedLetters : List UINT8 := [ascii 'd', ascii 'i']

theorem mem_signedLetters {letter : UINT8} (h : letter ∈ signedLetters) :
    letter = ascii 'd' ∨ letter = ascii 'i' := by
  simpa [signedLetters] using h

/-- The text of a signed conversion is the numeral for all but one value. -/
theorem signedText_eq_printSigned_iff {c : Conversion} {type : CType} {lowest : List UINT8} {slot : UINT64}
    (ht : type.IsSigned) (hc : c = { take := type, count := type, digit := type, base := 10, letters := none }) :
    signedText (type.cast slot) = printSigned c lowest slot ↔ type.cast slot ≠ type.lowest := by
  subst hc
  refine ⟨fun h he => ?_, fun h => (printSigned_eq ht rfl rfl rfl rfl rfl h).symm⟩
  rw [printSigned_lowest ht rfl rfl he, he] at h
  rcases ht with rfl | rfl | rfl <;> exact absurd h (by decide +kernel)

/-- **Signed conversions print the number, except the most negative one.**
In any format: `%ld`, `%d` and `%hd`, or the same with `i`, emit the canonical
numeral of their argument exactly when it is not the lowest value of its
width. -/
theorem signed_conversions_print (call : PrintCall) (fuel : Nat) (p : Printing) (letter : UINT8)
    (hletter : letter ∈ signedLetters) :
    (p.AtModified call (ascii 'l') letter →
      (Emits call fuel p (signedText (call.args p.arg).toInt) ↔ (call.args p.arg).toInt ≠ -2 ^ 63)) ∧
    (p.AtPlain call letter →
      (Emits call fuel p (signedText ((call.args p.arg).setWidth 32).toInt) ↔
        ((call.args p.arg).setWidth 32).toInt ≠ -2 ^ 31)) ∧
    (p.AtModified call (ascii 'h') letter →
      (Emits call fuel p (signedText ((call.args p.arg).setWidth 16).toInt) ↔
        ((call.args p.arg).setWidth 16).toInt ≠ -2 ^ 15)) := by
  have hcases := mem_signedLetters hletter
  refine ⟨fun h => ?_, fun h => ?_, fun h => ?_⟩
  · have hf : longConversion letter = some (printSigned .ld lowestLong) := by
      rcases hcases with rfl | rfl <;> rfl
    rw [emits_long h hf]
    exact signedText_eq_printSigned_iff (.inr (.inr rfl)) rfl
  · have hm : isModifier letter = false := by rcases hcases with rfl | rfl <;> decide
    have hf : plainConversion call.undefined fuel letter = some (some ∘ printSigned .d lowestInt) := by
      rcases hcases with rfl | rfl <;> rfl
    rw [emits_plain h hm hf]
    exact signedText_eq_printSigned_iff (.inr (.inl rfl)) rfl
  · have hf : shortConversion letter = some (printSigned .hd lowestShort) := by
      rcases hcases with rfl | rfl <;> rfl
    rw [emits_short h hf]
    exact signedText_eq_printSigned_iff (.inl rfl) rfl

theorem signed_conversions_print_minus5 :
    Emits (callOf ['%', 'l', 'd'] (-5)) 0 {} (signedText (-5)) ∧
      Emits (callOf ['%', 'i'] (-5)) 0 {} (signedText (-5)) ∧
      Emits (callOf ['%', 'h', 'd'] (-5)) 0 {} (signedText (-5)) :=
  ⟨((signed_conversions_print (callOf ['%', 'l', 'd'] (-5)) 0 {} (ascii 'd') (by decide)).1
      ⟨rfl, rfl, rfl⟩).mpr (by decide),
    ((signed_conversions_print (callOf ['%', 'i'] (-5)) 0 {} (ascii 'i') (by decide)).2.1
      ⟨rfl, rfl⟩).mpr (by decide),
    ((signed_conversions_print (callOf ['%', 'h', 'd'] (-5)) 0 {} (ascii 'd') (by decide)).2.2
      ⟨rfl, rfl, rfl⟩).mpr (by decide)⟩

/-- `%d` of `-2147483648` emits `-0`. -/
theorem lowest_int_prints_minus_zero :
    Emits (callOf ['%', 'd'] 0x80000000) 0 {} [ascii '-', ascii '0'] ∧
      ¬ Emits (callOf ['%', 'd'] 0x80000000) 0 {} (signedText (-2 ^ 31)) := by
  have hf : plainConversion (fun _ => 0) 0 (ascii 'd') = some (some ∘ printSigned .d lowestInt) := rfl
  have ht : printSigned .d lowestInt 0x80000000 = [45#8, 48#8] :=
    printSigned_lowest (.inr (.inl rfl)) rfl rfl (show CType.int.cast 0x80000000 = CType.int.lowest by decide)
  have hemits (text : List UINT8) :
      Emits (callOf ['%', 'd'] 0x80000000) 0 {} text ↔ text = printSigned .d lowestInt 0x80000000 :=
    emits_plain ⟨rfl, rfl⟩ (by decide) hf
  rw [hemits, hemits, ht]
  exact ⟨rfl, by decide +kernel⟩

/-! ## Unsigned numbers -/

/-- The long unsigned conversions: letter, base, digits. -/
def longUnsigned : List (UINT8 × Nat × List Char) :=
  [(ascii 'u', 10, lowerDigits), (ascii 'o', 8, lowerDigits), (ascii 'x', 16, lowerDigits),
    (ascii 'X', 16, upperDigits)]

/-- A conversion of the whole word. -/
theorem printUnsigned_long {c : Conversion} (htake : c.take = .ulong) (hcount : c.count = .ulong)
    (hdigit : c.digit = .ulong) (slot : UINT64) :
    printUnsigned c slot = numeralText (digitsOf c.letters) c.base.toNat slot.toNat :=
  printUnsigned_narrow (.inr (.inr rfl)) htake hcount (.inl hdigit) rfl slot.isLt

/-- What a long conversion prints. -/
theorem longConversion_unsigned {letter : UINT8} {base : Nat} {digits : List Char}
    (h : (letter, base, digits) ∈ longUnsigned) :
    ∃ c : Conversion, longConversion letter = some (printUnsigned c) ∧ c.base.toNat = base ∧
      ∀ slot, printUnsigned c slot = numeralText digits base slot.toNat := by
  simp only [longUnsigned, List.mem_cons, Prod.mk.injEq, List.not_mem_nil, or_false] at h
  rcases h with ⟨rfl, rfl, rfl⟩ | ⟨rfl, rfl, rfl⟩ | ⟨rfl, rfl, rfl⟩ | ⟨rfl, rfl, rfl⟩
  · exact ⟨.lu, rfl, rfl, printUnsigned_long rfl rfl rfl⟩
  · exact ⟨.lo, rfl, rfl, printUnsigned_long rfl rfl rfl⟩
  · exact ⟨.lx, rfl, rfl, printUnsigned_long rfl rfl rfl⟩
  · exact ⟨.lX, rfl, rfl, printUnsigned_long rfl rfl rfl⟩

/-- The digits of a numeral and the divisors they are taken out with. -/
theorem divisorFor_numeral {c : Conversion} {n k : Nat} (hn : n < 2 ^ 64)
    (hk : k < (numeral c.base.toNat n).length) :
    (divisorFor c.base (k + 1)).toNat = c.base.toNat ^ k := by
  by_cases h0 : n = 0
  · subst h0
    obtain rfl : k = 0 := by simpa [numeral] using hk
    rfl
  · rw [numeral_of_ne_zero h0, List.length_reverse] at hk
    exact divisorFor_toNat hn hk

/-- **The long unsigned conversions are exact.** `%lu`, `%lo`, `%lx` and
`%lX` emit the canonical numeral of their argument, and the divisor of each
of its digits is the power of the base, not wrapped. -/
theorem long_conversions_exact (call : PrintCall) (fuel : Nat) (p : Printing) (letter : UINT8) (base : Nat)
    (digits : List Char) (h : (letter, base, digits) ∈ longUnsigned)
    (hat : p.AtModified call (ascii 'l') letter) :
    ∃ ds, IsNumeral base ds (call.args p.arg).toNat ∧ Emits call fuel p (digitCodes digits ds) ∧
      ∀ k < ds.length, (divisorFor (BitVec.ofNat 64 base) (k + 1)).toNat = base ^ k := by
  obtain ⟨c, hf, rfl, htext⟩ := longConversion_unsigned h
  refine ⟨_, isNumeral_numeral c.base_gt _, ?_, fun k hk => ?_⟩
  · rw [emits_long hat hf, htext]
    rfl
  · rw [BitVec.ofNat_toNat, BitVec.setWidth_eq]
    exact divisorFor_numeral (call.args p.arg).isLt hk

theorem long_conversions_exact_max :
    ∃ ds, IsNumeral 16 ds 0xFFFFFFFFFFFFFFFF ∧
      Emits (callOf ['%', 'l', 'X'] 0xFFFFFFFFFFFFFFFF) 0 {} (digitCodes upperDigits ds) :=
  let ⟨ds, hds, hemits, _⟩ := long_conversions_exact (callOf ['%', 'l', 'X'] 0xFFFFFFFFFFFFFFFF) 0 {}
    (ascii 'X') 16 upperDigits (by decide) ⟨rfl, rfl, rfl⟩
  ⟨ds, hds, hemits⟩

/-! ## The narrow conversions -/

/-- What a conversion without a modifier prints. -/
theorem plainConversion_unsigned {letter : UINT8} {base : Nat} {digits : List Char}
    (h : (letter, base, digits) ∈ longUnsigned) (undefined : FloatValue → UINT64) (fuel : Nat) :
    isModifier letter = false ∧ ∃ c : Conversion,
      plainConversion undefined fuel letter = some (some ∘ printUnsigned c) ∧
      ∀ slot : UINT64, (letter = ascii 'o' → (slot.setWidth 32).toNat < 2 ^ 31) →
        printUnsigned c slot = numeralText digits base (slot.setWidth 32).toNat := by
  have huint : CType.IsUnsigned .uint := .inr (.inl rfl)
  simp only [longUnsigned, List.mem_cons, Prod.mk.injEq, List.not_mem_nil, or_false] at h
  rcases h with ⟨rfl, rfl, rfl⟩ | ⟨rfl, rfl, rfl⟩ | ⟨rfl, rfl, rfl⟩ | ⟨rfl, rfl, rfl⟩
  · exact ⟨by decide, .u, rfl, fun slot _ =>
      printUnsigned_narrow huint rfl rfl (.inl rfl) rfl (slot.setWidth 32).isLt⟩
  · exact ⟨by decide, .o, rfl, fun slot ho => printUnsigned_o (ho rfl)⟩
  · exact ⟨by decide, .x, rfl, fun slot _ =>
      printUnsigned_narrow huint rfl rfl (.inl rfl) rfl (slot.setWidth 32).isLt⟩
  · exact ⟨by decide, .X, rfl, fun slot _ =>
      printUnsigned_narrow huint rfl rfl (.inr rfl) rfl (slot.setWidth 32).isLt⟩

/-- What a conversion after `%h` prints. -/
theorem shortConversion_unsigned {letter : UINT8} {base : Nat} {digits : List Char}
    (h : (letter, base, digits) ∈ longUnsigned) :
    ∃ c : Conversion, shortConversion letter = some (printUnsigned c) ∧
      ∀ slot : UINT64, printUnsigned c slot = numeralText digits base (slot.setWidth 16).toNat := by
  have htext {c : Conversion} (htake : c.take = .ushort) (hcount : c.count = .ushort)
      (hdigit : c.digit = .ushort) (slot : UINT64) :
      printUnsigned c slot = numeralText (digitsOf c.letters) c.base.toNat (slot.setWidth 16).toNat :=
    printUnsigned_narrow (.inl rfl) htake hcount (.inl hdigit) rfl (slot.setWidth 16).isLt
  simp only [longUnsigned, List.mem_cons, Prod.mk.injEq, List.not_mem_nil, or_false] at h
  rcases h with ⟨rfl, rfl, rfl⟩ | ⟨rfl, rfl, rfl⟩ | ⟨rfl, rfl, rfl⟩ | ⟨rfl, rfl, rfl⟩
  · exact ⟨.hu, rfl, htext rfl rfl rfl⟩
  · exact ⟨.ho, rfl, htext rfl rfl rfl⟩
  · exact ⟨.hx, rfl, htext rfl rfl rfl⟩
  · exact ⟨.hX, rfl, htext rfl rfl rfl⟩

/-- Wherever they stand, the conversion of `v` that `At` describes and the
long one of its extension emit the same characters. -/
def SameAsLong (At : PrintCall → Printing → Prop) {w : Nat} (v : BitVec w) (letter : UINT8) : Prop :=
  ∀ call fuel p call' fuel' p', At call p → p'.AtModified call' (ascii 'l') letter →
    (call.args p.arg).setWidth w = v → call'.args p'.arg = v.setWidth 64 →
      ∀ text, Emits call fuel p text ↔ Emits call' fuel' p' text

/-- From `2^31` on the leading digit of `%o` is four too large. -/
theorem printUnsigned_o_ne (slot : UINT64) (h : 2 ^ 31 ≤ (slot.setWidth 32).toNat) :
    printUnsigned .o slot ≠ numeralText lowerDigits 8 (slot.setWidth 32).toNat := by
  intro he
  have hlt := (slot.setWidth 32).isLt
  have hhead := printUnsigned_o_head h
  rw [he, numeralText, digitCodes, List.head?_map, numeral_head (by decide) (places_octal h hlt),
    Option.map_some, Option.some.injEq] at hhead
  have hq : (slot.setWidth 32).toNat / 2 ^ 30 = 2 ∨ (slot.setWidth 32).toNat / 2 ^ 30 = 3 := by omega
  rw [show 8 ^ 10 = 2 ^ 30 from rfl] at hhead
  rcases hq with e | e <;> · rw [e] at hhead; exact absurd hhead (by decide)

theorem setWidth_64_toNat {w : Nat} (v : BitVec w) (hw : w ≤ 64) : (v.setWidth 64 : UINT64).toNat = v.toNat := by
  rw [BitVec.toNat_setWidth]
  exact Nat.mod_eq_of_lt (Nat.lt_of_lt_of_le v.isLt (Nat.pow_le_pow_right (by decide) hw))

/-- Two formats, `%o` and `%lo`, with the same value tell them apart. -/
theorem not_sameAsLong_o {v : UINT32} (hge : 2 ^ 31 ≤ v.toNat) :
    ¬ SameAsLong (fun call p => p.AtPlain call (ascii 'o')) v (ascii 'o') := by
  intro hsame
  have hword : ((v.setWidth 64).setWidth 32 : UINT32) = v := by
    rw [BitVec.setWidth_setWidth_of_le v (by decide), BitVec.setWidth_eq]
  have ho (text : List UINT8) : Emits (callOf ['%', 'o'] (v.setWidth 64)) 0 {} text ↔
      text = printUnsigned .o (v.setWidth 64) :=
    emits_plain ⟨rfl, rfl⟩ (show isModifier (ascii 'o') = false by decide) rfl
  have hlo (text : List UINT8) : Emits (callOf ['%', 'l', 'o'] (v.setWidth 64)) 0 {} text ↔
      text = printUnsigned .lo (v.setWidth 64) := emits_long ⟨rfl, rfl, rfl⟩ rfl
  have hlotext : printUnsigned .lo (v.setWidth 64) = numeralText lowerDigits 8 v.toNat := by
    rw [printUnsigned_long rfl rfl rfl, setWidth_64_toNat v (by decide)]
    rfl
  have heq := hsame (callOf ['%', 'o'] (v.setWidth 64)) 0 {} (callOf ['%', 'l', 'o'] (v.setWidth 64)) 0 {}
    ⟨rfl, rfl⟩ ⟨rfl, rfl, rfl⟩ hword rfl (printUnsigned .o (v.setWidth 64))
  rw [ho, hlo, hlotext] at heq
  refine printUnsigned_o_ne (v.setWidth 64) (by rw [hword]; exact hge) ?_
  rw [hword]
  exact heq.mp rfl

/-- **The narrow unsigned conversions agree with the long ones**, but for
`%o` of values from `2^31` on. -/
theorem unsigned_conversions_agree (v : UINT32) (w : UINT16) (letter : UINT8)
    (hletter : letter ∈ longUnsigned.map Prod.fst) :
    (SameAsLong (fun call p => p.AtPlain call letter) v letter ↔ (letter = ascii 'o' → v.toNat < 2 ^ 31)) ∧
      SameAsLong (fun call p => p.AtModified call (ascii 'h') letter) w letter := by
  obtain ⟨⟨letter, base, digits⟩, h, rfl⟩ := List.mem_map.mp hletter
  obtain ⟨c', hf', -, htext'⟩ := longConversion_unsigned h
  refine ⟨⟨fun hsame ho => ?_, fun hv => ?_⟩, ?_⟩
  · rw [ho] at hsame
    exact Nat.lt_of_not_le fun hge => not_sameAsLong_o hge hsame
  · intro call fuel p call' fuel' p' hat hat' harg harg' text
    obtain ⟨hm, c, hf, htext⟩ := plainConversion_unsigned h call.undefined fuel
    rw [emits_plain hat hm hf, emits_long hat' hf', htext _ (by rw [harg]; exact hv), htext', harg, harg',
      setWidth_64_toNat v (by decide)]
  · intro call fuel p call' fuel' p' hat hat' harg harg' text
    obtain ⟨c, hf, htext⟩ := shortConversion_unsigned h
    rw [emits_short hat hf, emits_long hat' hf', htext, htext', harg, harg', setWidth_64_toNat w (by decide)]

theorem unsigned_conversions_agree_hex :
    SameAsLong (fun call p => p.AtPlain call (ascii 'x')) (0xFFFFFFFF : UINT32) (ascii 'x') ∧
      SameAsLong (fun call p => p.AtModified call (ascii 'h') (ascii 'x')) (0xFFFF : UINT16) (ascii 'x') :=
  let ⟨h32, h16⟩ := unsigned_conversions_agree 0xFFFFFFFF 0xFFFF (ascii 'x') (by decide)
  ⟨h32.mpr (by decide), h16⟩

/-- `%o` of `2^31` is not what `%lo` makes of it. -/
theorem octal_sign_bit_differs :
    ¬ SameAsLong (fun call p => p.AtPlain call (ascii 'o')) (0x80000000 : UINT32) (ascii 'o') :=
  not_sameAsLong_o (by decide)

end PiousOS.Kernel
