import PiousOS.Core.CInt
import PiousOS.Core.Numeral

/-!
# Integer conversions of `PrintString` (`src/kernel/graphics.c`)

Every integer conversion is the same code with other casts: `value.l` is set
from the argument, a copy of it is divided down to count the digits, then
each digit is taken out with a power of the base that is computed anew.
`Conversion` holds what differs, and each letter of the source is one value
of it.

* `digitsText_eq`: where the two casts give the number itself, the text is
  its numeral, and no divisor wraps;
* `printSigned_eq`: with a sign in front, for all but the most negative value.
-/
namespace PiousOS.Kernel

/-- The code of a character. -/
def ascii (c : Char) : UINT8 := BitVec.ofNat 8 c.toNat

/-! ## Digits as characters -/

def lowerDigits : List Char :=
  ['0', '1', '2', '3', '4', '5', '6', '7', '8', '9', 'a', 'b', 'c', 'd', 'e', 'f']

def upperDigits : List Char :=
  ['0', '1', '2', '3', '4', '5', '6', '7', '8', '9', 'A', 'B', 'C', 'D', 'E', 'F']

/-- The characters of a list of digits. -/
def digitCodes (digits : List Char) (ds : List Nat) : List UINT8 := ds.map fun d => ascii (digits.getD d ' ')

/-- A number as text. -/
def numeralText (digits : List Char) (b n : Nat) : List UINT8 := digitCodes digits (numeral b n)

/-- The character of a digit; `letters` is what is added to one over 9, where
that is tested. -/
def charOf (letters : Option UINT8) (digit : Nat) : UINT8 :=
  match letters with
  | some letters => if 9 < digit then BitVec.ofNat 8 digit + letters else BitVec.ofNat 8 digit + 48#8
  | none => BitVec.ofNat 8 digit + 48#8

/-- The characters those offsets give. -/
def digitsOf (letters : Option UINT8) : List Char := if letters = some 55#8 then upperDigits else lowerDigits

/-! ## The code -/

/-- The types `value.l` is cast to. -/
inductive CType where
  | short | ushort | int | uint | long | ulong
  deriving DecidableEq, Repr

/-- `(type)l`, as a number. -/
def CType.cast : CType → UINT64 → Int
  | .short, l => (l.setWidth 16).toInt
  | .ushort, l => (l.setWidth 16).toNat
  | .int, l => (l.setWidth 32).toInt
  | .uint, l => (l.setWidth 32).toNat
  | .long, l => l.toInt
  | .ulong, l => l.toNat

/-- The width arithmetic on a type is done in. -/
def CType.promoted : CType → Nat
  | .short | .ushort | .int | .uint => 32
  | .long | .ulong => 64

/-- `(unsigned long)x` -/
def toULong (x : Int) : UINT64 := BitVec.ofInt 64 x

/-- `(unsigned long)((type)l * -1)`; a product that overflows wraps. -/
def CType.negate (type : CType) (l : UINT64) : UINT64 :=
  toULong (BitVec.ofInt type.promoted (type.cast l * -1)).toInt

/-- What one integer conversion does differently from the others. -/
structure Conversion where
  /-- the type the argument is taken as -/
  take : CType
  /-- the cast of the counting loop and of the sign tests -/
  count : CType
  /-- the cast of the digit loop -/
  digit : CType
  base : UINT64
  /-- what is added to a digit over 9, where that is tested -/
  letters : Option UINT8
  base_gt : 1 < base.toNat := by decide
  base_le : base.toNat ≤ 16 := by decide
  spells : ∀ d < base.toNat, charOf letters d = ascii ((digitsOf letters).getD d ' ') := by decide

theorem toULong_toNat {x : Int} {n : Nat} (hx : x = n) (h : n < 2 ^ 64) : (toULong x).toNat = n := by
  rw [toULong, hx, BitVec.ofInt_natCast, BitVec.toNat_ofNat]
  exact Nat.mod_eq_of_lt h

/-- What a non-negative cast says about the word. -/
theorem CType.cast_lt {type : CType} {l : UINT64} {n : Nat} (h : type.cast l = n) : n < 2 ^ 64 := by
  have h16 := (l.setWidth 16).isLt
  have h32 := (l.setWidth 32).isLt
  have h64 := l.isLt
  cases type with
  | short => have := BitVec.toInt_lt (x := l.setWidth 16); simp only [CType.cast] at h; omega
  | ushort => simp only [CType.cast] at h; omega
  | int => have := BitVec.toInt_lt (x := l.setWidth 32); simp only [CType.cast] at h; omega
  | uint => simp only [CType.cast] at h; omega
  | long => have := BitVec.toInt_lt (x := l); simp only [CType.cast] at h; omega
  | ulong => simp only [CType.cast] at h; omega

/-- A smaller number that is stored back is read back. -/
theorem CType.cast_toULong {type : CType} {l : UINT64} {n m : Nat} (h : type.cast l = n) (hm : m ≤ n) :
    type.cast (toULong m) = m := by
  have hn := CType.cast_lt h
  have hw : (toULong m).toNat = m := toULong_toNat rfl (by omega)
  have h16 : ((toULong m).setWidth 16).toNat = m % 2 ^ 16 := by rw [BitVec.toNat_setWidth, hw]
  have h32 : ((toULong m).setWidth 32).toNat = m % 2 ^ 32 := by rw [BitVec.toNat_setWidth, hw]
  cases type with
  | short =>
    have := BitVec.toInt_lt (x := l.setWidth 16)
    simp only [CType.cast] at h ⊢
    rw [BitVec.toInt_eq_toNat_of_lt (by omega)]
    omega
  | ushort =>
    have := (l.setWidth 16).isLt
    simp only [CType.cast] at h ⊢
    omega
  | int =>
    have := BitVec.toInt_lt (x := l.setWidth 32)
    simp only [CType.cast] at h ⊢
    rw [BitVec.toInt_eq_toNat_of_lt (by omega)]
    omega
  | uint =>
    have := (l.setWidth 32).isLt
    simp only [CType.cast] at h ⊢
    omega
  | long =>
    have := BitVec.toInt_lt (x := l)
    simp only [CType.cast] at h ⊢
    rw [BitVec.toInt_eq_toNat_of_lt (by omega)]
    omega
  | ulong =>
    simp only [CType.cast]
    omega

theorem CType.cast_div_lt {type : CType} {b : Nat} (hb : 1 < b) {l : UINT64} (h : 0 < type.cast l) :
    (type.cast (toULong (type.cast l / b))).toNat < (type.cast l).toNat := by
  obtain ⟨n, hn⟩ : ∃ n : Nat, type.cast l = n := ⟨(type.cast l).toNat, by omega⟩
  rw [hn, ← Int.natCast_ediv, CType.cast_toULong hn (Nat.div_le_self n b)]
  exact Nat.div_lt_self (by omega) hb

section
variable (c : Conversion)

/-- `while((type)value_cpy.l > 0) { value_cpy.l = (type)value_cpy.l / base; places++; }` -/
def countPlaces (value_cpy : UINT64) (places : UINT8) : UINT8 :=
  if 0 < c.count.cast value_cpy then
    countPlaces (toULong (c.count.cast value_cpy / c.base.toNat)) (places + 1#8)
  else places
termination_by (c.count.cast value_cpy).toNat
decreasing_by exact CType.cast_div_lt c.base_gt ‹_›

/-- `divisor = 1; for(i = 1; i < places; i++) divisor *= base;` -/
def divisorFor (base : UINT64) (places : Nat) : UINT64 :=
  (fun divisor => divisor * base)^[places - 1] 1#64

/-- `p = ((type)value.l / divisor) % base` and the character printed for it. -/
def digitChar (value : UINT64) (places : Nat) : UINT8 :=
  let p : UINT8 := (toULong (c.digit.cast value) / divisorFor c.base places % c.base).setWidth 8
  match c.letters with
  | some letters => if p > 9#8 then p + letters else p + 48#8
  | none => p + 48#8

/-- `while(places > 0) { ...; places--; }` -/
def printPlaces (value : UINT64) : Nat → List UINT8
  | 0 => []
  | places + 1 => digitChar c value (places + 1) :: printPlaces value places

/-- The characters of the digits, a lone `0` when there are none. -/
def digitsText (value : UINT64) : List UINT8 :=
  let places := countPlaces c value 0#8
  if places = 0#8 then [48#8] else printPlaces c value places.toNat

/-- An unsigned conversion of the argument in `slot`. -/
def printUnsigned (slot : UINT64) : List UINT8 := digitsText c (toULong (c.take.cast slot))

/-- A signed conversion; `lowest` is what the source prints after the sign
when the negated value is zero. -/
def printSigned (lowest : List UINT8) (slot : UINT64) : List UINT8 :=
  let value := toULong (c.take.cast slot)
  if c.count.cast value < 0 then
    let value := c.count.negate value
    if c.count.cast value = 0 then 45#8 :: lowest else 45#8 :: digitsText c value
  else digitsText c value

end

/-! ## The letters of the source -/

namespace Conversion

/-- `%ld`, `%li`. mirrors src/kernel/graphics.c:217-256 -/
def ld : Conversion := { take := .long, count := .long, digit := .long, base := 10, letters := none }

/-- mirrors src/kernel/graphics.c:257-282 -/
def lo : Conversion := { take := .ulong, count := .ulong, digit := .ulong, base := 8, letters := none }

/-- mirrors src/kernel/graphics.c:283-308 -/
def lu : Conversion := { take := .ulong, count := .ulong, digit := .ulong, base := 10, letters := none }

/-- mirrors src/kernel/graphics.c:309-337 -/
def lx : Conversion := { take := .ulong, count := .ulong, digit := .ulong, base := 16, letters := some 87 }

/-- mirrors src/kernel/graphics.c:338-366 -/
def lX : Conversion := { take := .ulong, count := .ulong, digit := .ulong, base := 16, letters := some 55 }

/-- `%hd`, `%hi`. mirrors src/kernel/graphics.c:376-414 -/
def hd : Conversion := { take := .short, count := .short, digit := .short, base := 10, letters := none }

/-- mirrors src/kernel/graphics.c:415-440 -/
def ho : Conversion := { take := .ushort, count := .ushort, digit := .ushort, base := 8, letters := none }

/-- `%hs`, `%hu`. mirrors src/kernel/graphics.c:441-467 -/
def hu : Conversion := { take := .ushort, count := .ushort, digit := .ushort, base := 10, letters := none }

/-- mirrors src/kernel/graphics.c:468-496 -/
def hx : Conversion := { take := .ushort, count := .ushort, digit := .ushort, base := 16, letters := some 87 }

/-- mirrors src/kernel/graphics.c:497-525 -/
def hX : Conversion := { take := .ushort, count := .ushort, digit := .ushort, base := 16, letters := some 55 }

/-- `%d`, `%i`. mirrors src/kernel/graphics.c:534-572 -/
def d : Conversion := { take := .int, count := .int, digit := .int, base := 10, letters := none }

/-- The digits are taken from the signed value.
mirrors src/kernel/graphics.c:677-702 -/
def o : Conversion := { take := .uint, count := .uint, digit := .int, base := 8, letters := none }

/-- mirrors src/kernel/graphics.c:703-728 -/
def u : Conversion := { take := .uint, count := .uint, digit := .uint, base := 10, letters := none }

/-- mirrors src/kernel/graphics.c:729-757 -/
def x : Conversion := { take := .uint, count := .uint, digit := .uint, base := 16, letters := some 87 }

/-- The digits are taken from the whole word.
mirrors src/kernel/graphics.c:758-786 -/
def X : Conversion := { take := .uint, count := .uint, digit := .ulong, base := 16, letters := some 55 }

end Conversion

/-- `"9223372036854775808"` -/
def lowestLong : List UINT8 := [57, 50, 50, 51, 51, 55, 50, 48, 51, 54, 56, 53, 52, 55, 55, 53, 56, 48, 56]

/-- `"32768"` -/
def lowestShort : List UINT8 := [51, 50, 55, 54, 56]

/-- `"2147483648"` -/
def lowestInt : List UINT8 := [50, 49, 52, 55, 52, 56, 51, 54, 52, 56]

/-! ## The digits are the numeral -/

section
variable {c : Conversion} {value : UINT64} {n : Nat}

/-- The counting loop counts the digits, in eight bits. -/
theorem countPlaces_eq (h : c.count.cast value = n) (p : UINT8) :
    countPlaces c value p = p + BitVec.ofNat 8 (places c.base.toNat n) := by
  induction n using Nat.strong_induction_on generalizing value p with
  | _ n ih =>
    rw [countPlaces]
    by_cases hn : n = 0
    · subst hn
      rw [if_neg (by omega), places_zero]
      simp
    · have hlt := Nat.div_lt_self (Nat.pos_of_ne_zero hn) c.base_gt
      have hnext : c.count.cast (toULong (c.count.cast value / c.base.toNat)) = (n / c.base.toNat : Nat) := by
        rw [h, ← Int.natCast_ediv]
        exact CType.cast_toULong h (Nat.le_of_lt hlt)
      rw [if_pos (by omega), ih _ hlt hnext, places_succ c.base_gt hn, BitVec.ofNat_add, BitVec.add_assoc,
        BitVec.add_comm 1#8]

theorem iterate_mul_toNat {b : UINT64} {k : Nat} (h : b.toNat ^ k < 2 ^ 64) :
    ((fun divisor => divisor * b)^[k] 1#64).toNat = b.toNat ^ k := by
  induction k with
  | zero => rfl
  | succ k ih =>
    have hk : b.toNat ^ k < 2 ^ 64 := by
      by_cases h0 : b.toNat = 0
      · rw [h0]
        exact Nat.lt_of_le_of_lt (Nat.pow_le_pow_left (by omega : 0 ≤ 1) k) (by simp)
      · exact Nat.lt_of_le_of_lt (Nat.pow_le_pow_right (Nat.pos_of_ne_zero h0) (Nat.le_succ k)) h
    rw [Function.iterate_succ_apply', BitVec.toNat_mul, ih hk, ← Nat.pow_succ]
    exact Nat.mod_eq_of_lt h

/-- **No divisor wraps**: it is a power of the base that is not over the
number. -/
theorem divisorFor_toNat (hn : n < 2 ^ 64) {k : Nat} (hk : k < places c.base.toNat n) :
    (divisorFor c.base (k + 1)).toNat = c.base.toNat ^ k := by
  by_cases h0 : n = 0
  · subst h0
    simp [places_zero] at hk
  · exact iterate_mul_toNat (Nat.lt_of_le_of_lt (pow_le_of_lt_places c.base_gt h0 hk) hn)

theorem digitChar_eq (h : c.digit.cast value = n) {k : Nat} (hk : k < places c.base.toNat n) :
    digitChar c value (k + 1) = charOf c.letters (n / c.base.toNat ^ k % c.base.toNat) := by
  have hn := CType.cast_lt h
  have hmod := Nat.mod_lt (n / c.base.toNat ^ k) (Nat.zero_lt_of_lt c.base_gt)
  have hle := c.base_le
  have hp : (toULong (c.digit.cast value) / divisorFor c.base (k + 1) % c.base).setWidth 8 =
      BitVec.ofNat 8 (n / c.base.toNat ^ k % c.base.toNat) := by
    apply BitVec.eq_of_toNat_eq
    rw [BitVec.toNat_setWidth, BitVec.toNat_umod, BitVec.toNat_udiv, toULong_toNat h hn, divisorFor_toNat hn hk,
      BitVec.toNat_ofNat]
  simp only [digitChar, charOf, hp]
  cases c.letters with
  | none => rfl
  | some letters =>
    have hgt : BitVec.ofNat 8 (n / c.base.toNat ^ k % c.base.toNat) > 9#8 ↔
        9 < n / c.base.toNat ^ k % c.base.toNat := by
      rw [gt_iff_lt, BitVec.lt_def, BitVec.toNat_ofNat, BitVec.toNat_ofNat]
      omega
    simp only [hgt]

theorem printPlaces_eq (h : c.digit.cast value = n) {k : Nat} (hk : k ≤ places c.base.toNat n) :
    printPlaces c value k = (extract c.base.toNat n k).map (charOf c.letters) := by
  induction k with
  | zero => rfl
  | succ k ih =>
    rw [printPlaces, digitChar_eq h hk, ih (Nat.le_of_lt hk)]
    rfl

theorem map_charOf {ds : List Nat} (h : ∀ d ∈ ds, d < c.base.toNat) :
    ds.map (charOf c.letters) = digitCodes (digitsOf c.letters) ds :=
  List.map_congr_left fun d hd => c.spells d (h d hd)

/-- **Where both casts give the number, its numeral is printed.** -/
theorem digitsText_eq (hc : c.count.cast value = n) (hd : c.digit.cast value = n) :
    digitsText c value = numeralText (digitsOf c.letters) c.base.toNat n := by
  have hn := CType.cast_lt hc
  have hle : places c.base.toNat n ≤ 64 := by
    refine places_le_of_lt_pow c.base_gt (Nat.lt_of_lt_of_le hn ?_)
    exact Nat.pow_le_pow_left c.base_gt 64
  have hcount : (countPlaces c value 0#8).toNat = places c.base.toNat n := by
    rw [countPlaces_eq hc, BitVec.zero_add, BitVec.toNat_ofNat]
    omega
  rw [digitsText, numeralText, ← map_charOf (isNumeral_numeral c.base_gt n).digit_lt]
  by_cases h0 : n = 0
  · subst h0
    rw [places_zero] at hcount
    rw [if_pos (BitVec.eq_of_toNat_eq hcount), numeral, if_pos rfl]
    cases c.letters <;> rfl
  · have hpos := places_pos (b := c.base.toNat) h0
    have hne : countPlaces c value 0#8 ≠ 0#8 := fun e => by
      rw [e] at hcount
      simp only [BitVec.toNat_ofNat] at hcount
      omega
    rw [if_neg hne, hcount, printPlaces_eq hd (Nat.le_refl _), extract_eq_reverse c.base_gt,
      numeral_of_ne_zero h0]

/-- An unsigned conversion of `n` that both casts give back. -/
theorem printUnsigned_eq {slot : UINT64} (h : c.take.cast slot = n) (hc : c.count.cast (toULong n) = n)
    (hd : c.digit.cast (toULong n) = n) :
    printUnsigned c slot = numeralText (digitsOf c.letters) c.base.toNat n := by
  rw [printUnsigned, h]
  exact digitsText_eq hc hd

end

/-! ## Signed values -/

/-- The canonical decimal numeral of a signed value. -/
def signedText (v : Int) : List UINT8 :=
  if v < 0 then ascii '-' :: numeralText lowerDigits 10 v.natAbs else numeralText lowerDigits 10 v.natAbs

/-- The bits of a signed type. -/
def CType.bits : CType → Nat
  | .short | .ushort => 16
  | .int | .uint => 32
  | .long | .ulong => 64

/-- The most negative value. -/
def CType.lowest (type : CType) : Int := -2 ^ (type.bits - 1)

def CType.IsSigned (type : CType) : Prop := type = .short ∨ type = .int ∨ type = .long

/-- A signed cast takes the low bits. -/
theorem CType.cast_toULong_signed {type : CType} (ht : type.IsSigned) (v : Int) :
    type.cast (toULong v) = v.bmod (2 ^ type.bits) := by
  have hmod (w : Nat) (hw : w ∣ 2 ^ 64) : (((v % (2 ^ 64 : Nat)).toNat : Int)).bmod w = v.bmod w := by
    rw [Int.toNat_of_nonneg (Int.emod_nonneg v (by decide)), Int.bmod_def, Int.bmod_def,
      Int.emod_emod_of_dvd v (Int.natCast_dvd_natCast.mpr hw)]
  rcases ht with rfl | rfl | rfl
  · show ((toULong v).setWidth 16).toInt = _
    rw [BitVec.toInt_setWidth, toULong, BitVec.toNat_ofInt, hmod _ (by decide)]
    rfl
  · show ((toULong v).setWidth 32).toInt = _
    rw [BitVec.toInt_setWidth, toULong, BitVec.toNat_ofInt, hmod _ (by decide)]
    rfl
  · exact BitVec.toInt_ofInt v

theorem CType.cast_range {type : CType} (ht : type.IsSigned) (l : UINT64) :
    type.lowest ≤ type.cast l ∧ type.cast l < -type.lowest := by
  rcases ht with rfl | rfl | rfl
  · exact ⟨BitVec.le_toInt _, BitVec.toInt_lt⟩
  · exact ⟨BitVec.le_toInt _, BitVec.toInt_lt⟩
  · exact ⟨BitVec.le_toInt _, BitVec.toInt_lt⟩

/-- A value in range is read back. -/
theorem CType.cast_toULong_of_range {type : CType} (ht : type.IsSigned) {v : Int} (hl : type.lowest ≤ v)
    (hu : v < -type.lowest) : type.cast (toULong v) = v := by
  rw [CType.cast_toULong_signed ht]
  apply Int.bmod_eq_of_le_mul_two
  · rcases ht with rfl | rfl | rfl <;> simp only [CType.lowest, CType.bits] at hl hu ⊢ <;> omega
  · rcases ht with rfl | rfl | rfl <;> simp only [CType.lowest, CType.bits] at hl hu ⊢ <;> omega

/-- Negating in the promoted type and casting back is negating in the type. -/
theorem CType.cast_negate {type : CType} (ht : type.IsSigned) (l : UINT64) :
    type.cast (type.negate l) = (-type.cast l).bmod (2 ^ type.bits) := by
  rw [CType.negate, CType.cast_toULong_signed ht, BitVec.toInt_ofInt, Int.mul_neg, Int.mul_one]
  apply Int.bmod_bmod_of_dvd
  rcases ht with rfl | rfl | rfl <;> decide

section
variable {c : Conversion} {type : CType} {lowest : List UINT8} {slot : UINT64}

/-- **A signed conversion prints its value**, unless it is the most negative
one. -/
theorem printSigned_eq (ht : type.IsSigned) (htake : c.take = type) (hcount : c.count = type)
    (hdigit : c.digit = type) (hbase : c.base = 10) (hletters : c.letters = none)
    (h : type.cast slot ≠ type.lowest) : printSigned c lowest slot = signedText (type.cast slot) := by
  obtain ⟨hl, hu⟩ := CType.cast_range ht slot
  have hback := CType.cast_toULong_of_range ht hl hu
  have htext {value : UINT64} (hnn : 0 ≤ type.cast value) :
      digitsText c value = numeralText lowerDigits 10 (type.cast value).natAbs := by
    have hv : type.cast value = ((type.cast value).natAbs : Nat) := by omega
    rw [digitsText_eq (n := (type.cast value).natAbs) (by rw [hcount]; exact hv) (by rw [hdigit]; exact hv),
      hbase, hletters]
    rfl
  simp only [printSigned, signedText, htake, hcount, hback]
  by_cases hneg : type.cast slot < 0
  · have hval : type.cast (type.negate (toULong (type.cast slot))) = -type.cast slot := by
      rw [CType.cast_negate ht, hback, ← CType.cast_toULong_signed ht]
      exact CType.cast_toULong_of_range ht (by omega) (by omega)
    rw [if_pos hneg, if_pos hneg, hval, if_neg (by omega), htext (by rw [hval]; omega), hval, Int.natAbs_neg]
    rfl
  · rw [if_neg hneg, if_neg hneg, htext (by rw [hback]; omega), hback]

/-- For the most negative value only the sign and a zero are printed: the
test for it compares with zero, and its negation is itself. -/
theorem printSigned_lowest (ht : type.IsSigned) (htake : c.take = type) (hcount : c.count = type)
    (h : type.cast slot = type.lowest) : printSigned c lowest slot = [45#8, 48#8] := by
  obtain ⟨hl, hu⟩ := CType.cast_range ht slot
  have hback := CType.cast_toULong_of_range ht hl hu
  have hneg : type.lowest < 0 := by rcases ht with rfl | rfl | rfl <;> decide
  have hval : type.cast (type.negate (toULong (type.cast slot))) = type.lowest := by
    rw [CType.cast_negate ht, hback, h]
    rcases ht with rfl | rfl | rfl <;> decide
  have hplaces : countPlaces c (type.negate (toULong (type.cast slot))) 0#8 = 0#8 := by
    rw [countPlaces, hcount, hval, if_neg (by omega)]
  simp only [printSigned, htake, hcount, hback, hval]
  rw [if_pos (by omega), if_neg (by omega), digitsText, hplaces]
  rfl

end

/-! ## Narrow unsigned values -/

def CType.IsUnsigned (type : CType) : Prop := type = .ushort ∨ type = .uint ∨ type = .ulong

theorem CType.cast_toULong_unsigned {type : CType} (ht : type.IsUnsigned) {n : Nat} (h : n < 2 ^ type.bits) :
    type.cast (toULong n) = n := by
  have hbits : type.bits ≤ 64 := by rcases ht with rfl | rfl | rfl <;> decide
  have hn : (toULong n).toNat = n := toULong_toNat rfl (Nat.lt_of_lt_of_le h (Nat.pow_le_pow_right (by decide) hbits))
  rcases ht with rfl | rfl | rfl
  · simp only [CType.cast, BitVec.toNat_setWidth, hn]
    exact congrArg _ (Nat.mod_eq_of_lt h)
  · simp only [CType.cast, BitVec.toNat_setWidth, hn]
    exact congrArg _ (Nat.mod_eq_of_lt h)
  · exact congrArg _ hn

/-- A narrow conversion prints the numeral of its narrow argument. -/
theorem printUnsigned_narrow {c : Conversion} {type : CType} {slot : UINT64} {n : Nat} (ht : type.IsUnsigned)
    (htake : c.take = type) (hcount : c.count = type) (hdigit : c.digit = type ∨ c.digit = .ulong)
    (h : type.cast slot = n) (hn : n < 2 ^ type.bits) :
    printUnsigned c slot = numeralText (digitsOf c.letters) c.base.toNat n := by
  have hback := CType.cast_toULong_unsigned ht hn
  refine printUnsigned_eq (htake ▸ h) (hcount ▸ hback) ?_
  rcases hdigit with e | e
  · exact e ▸ hback
  · rw [e]
    exact CType.cast_toULong_unsigned (.inr (.inr rfl)) (CType.cast_lt h)

/-! ## Digits taken from a signed value -/

/-- While the value is positive as an `int`, `%o` prints its numeral. -/
theorem printUnsigned_o {slot : UINT64} (h : (slot.setWidth 32).toNat < 2 ^ 31) :
    printUnsigned .o slot = numeralText lowerDigits 8 (slot.setWidth 32).toNat := by
  have hcount : Conversion.o.count.cast (toULong (slot.setWidth 32).toNat) = (slot.setWidth 32).toNat :=
    CType.cast_toULong_unsigned (.inr (.inl rfl)) (slot.setWidth 32).isLt
  refine printUnsigned_eq rfl hcount ?_
  refine CType.cast_toULong_of_range (.inr (.inl rfl)) ?_ ?_ <;> simp only [CType.lowest, CType.bits] <;> omega

theorem places_octal {n : Nat} (h : 2 ^ 31 ≤ n) (hlt : n < 2 ^ 32) : places 8 n = 11 :=
  Nat.le_antisymm (places_le_of_lt_pow (by decide) (by omega)) (lt_places_of_pow_le (by decide) (by omega))

/-- `%o` takes its digits from the value as an `int`: from `2^31` on the sign
bits show in the leading one. -/
theorem printUnsigned_o_head {slot : UINT64} (h : 2 ^ 31 ≤ (slot.setWidth 32).toNat) :
    (printUnsigned .o slot).head? = some (BitVec.ofNat 8 ((slot.setWidth 32).toNat / 2 ^ 30 + 4) + 48#8) := by
  have hlt := (slot.setWidth 32).isLt
  have htake : Conversion.o.take.cast slot = (slot.setWidth 32).toNat := rfl
  generalize (slot.setWidth 32).toNat = n at h hlt htake
  have hcount : Conversion.o.count.cast (toULong n) = n := CType.cast_toULong_unsigned (.inr (.inl rfl)) hlt
  have hplaces := places_octal h hlt
  have hp : countPlaces .o (toULong n) 0#8 = 11#8 := by
    rw [countPlaces_eq hcount]
    show 0#8 + BitVec.ofNat 8 (places 8 n) = 11#8
    rw [hplaces]
    rfl
  -- the word the digits are taken from is sign-extended
  have hword : (toULong (Conversion.o.digit.cast (toULong n))).toNat = 2 ^ 64 - 2 ^ 32 + n := by
    have hcast : Conversion.o.digit.cast (toULong n) = (n : Int) - 2 ^ 32 := by
      show CType.int.cast (toULong n) = _
      rw [CType.cast_toULong_signed (.inr (.inl rfl)), CType.bits, Int.bmod_def]
      split <;> omega
    rw [hcast, toULong, BitVec.toNat_ofInt]
    omega
  have hdiv : (divisorFor 8 11).toNat = 2 ^ 30 :=
    divisorFor_toNat (c := .o) (n := n) (k := 10) (by omega) (by show 10 < places 8 n; omega)
  rw [printUnsigned, htake, digitsText, hp, if_neg (by decide)]
  have hdigit : (toULong (Conversion.o.digit.cast (toULong n)) / divisorFor 8 11 % 8#64).setWidth 8 =
      BitVec.ofNat 8 (n / 2 ^ 30 + 4) := by
    apply BitVec.eq_of_toNat_eq
    rw [BitVec.toNat_setWidth, BitVec.toNat_umod, BitVec.toNat_udiv, hword, hdiv, BitVec.toNat_ofNat,
      BitVec.toNat_ofNat, show 8 % 2 ^ 64 = 8 from rfl]
    omega
  exact congrArg (fun p => some (p + 48#8)) hdigit

end PiousOS.Kernel
