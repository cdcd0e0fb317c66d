import PiousOS.Core.Terminated
import PiousOS.L3Loader.Firmware

/-!
# The Wall of Shame (`InitUEFI_GOP`)

Drivers that claim to control everything are known by name. The check
compares bytes, over the smaller of the two `StrSize` values, so it depends on
the terminator of the shorter name being among the bytes compared.

`StrSize` belongs to the UEFI library; here it is a parameter, and `StringAt`
says of a string that its size is answered with the terminator.

Results:
* `Compare_names_iff`: over the smaller size, `Compare` finds equal names
  equal and no others.
* `searchWall_spec`: where the loop over the names stops.
* `wall_matches_whole_names`: the driver is skipped, and its name reset,
  exactly if its name is on the wall.
-/
namespace PiousOS.Loader
open ByteMem Terminated

abbrev CHAR16 := UINT16

/-- `s[i]` -/
def charAt (mem : ByteMem) (s : UINT64) (i : Nat) : CHAR16 := BitVec.ofNat 16 (unitAt mem 2 s i)

/-- `L"…"`, without its NUL. -/
def wide (literal : String) : List CHAR16 := literal.toList.map fun c => BitVec.ofNat 16 c.toNat

/-! ## The check -/

def NUM_ON_WALL : Nat := 4

def AmiPS2Drv : List CHAR16 := wide "AMI PS/2 Driver"
def AsixUSBEth10Drv : List CHAR16 := wide "ASIX AX88772B Ethernet Driver 1.0"
def SocketLayerDrv : List CHAR16 := wide "Socket Layer Driver"
def Asix10100EthDrv : List CHAR16 := wide "AX88772 Ethernet Driver"

/-- The names on the wall.
mirrors src/bootloader/boot.c:925-932 -/
def wallNames : List (List CHAR16) := [AmiPS2Drv, AsixUSBEth10Drv, SocketLayerDrv, Asix10100EthDrv]

/-- What the check reads: memory, the library's `StrSize`, and the pointers. -/
structure WallCheck where
  mem : ByteMem
  StrSize : UINT64 → UINTN
  Wall_of_Shame : Nat → UINT64
  DefaultDriverDisplayName : UINT64

/-- The test of one name: `a` is the size of the driver's name. -/
def WallCheck.onWall (w : WallCheck) (DriverDisplayName : UINT64) (a : UINTN) (KnownBadDriversIter : Nat) :
    Bool :=
  let b := w.StrSize (w.Wall_of_Shame KnownBadDriversIter)
  Compare (bytesAt w.mem DriverDisplayName) (bytesAt w.mem (w.Wall_of_Shame KnownBadDriversIter))
    (if a < b then a else b).toNat

/-- The loop, with `left` names to go: the iterator and `DriverDisplayName`
where it stops. -/
def WallCheck.searchWall (w : WallCheck) (DriverDisplayName : UINT64) (a : UINTN) :
    Nat → Nat → Nat × UINT64
  | 0, KnownBadDriversIter => (KnownBadDriversIter, DriverDisplayName)
  | left + 1, KnownBadDriversIter =>
    if w.onWall DriverDisplayName a KnownBadDriversIter then
      (KnownBadDriversIter, w.DefaultDriverDisplayName)
    else w.searchWall DriverDisplayName a left (KnownBadDriversIter + 1)

/-- `DriverDisplayName` after the check, and whether the driver is skipped.
mirrors src/bootloader/boot.c:1241-1260 -/
def WallCheck.run (w : WallCheck) (DriverDisplayName : UINT64) : UINT64 × Bool :=
  let a := w.StrSize DriverDisplayName
  let r := w.searchWall DriverDisplayName a NUM_ON_WALL 0
  (r.2, r.1 < NUM_ON_WALL)

/-! ## What it compares -/

/-- `s` points to `name` and its NUL, and `StrSize` counts both. -/
structure StringAt (mem : ByteMem) (StrSize : UINT64 → UINTN) (s : UINT64) (name : List CHAR16) : Prop
    where
  holds : Holds 0 (charAt mem s) name
  size : (StrSize s).toNat = 2 * (name.length + 1)

instance (mem : ByteMem) (StrSize : UINT64 → UINTN) (s : UINT64) (name : List CHAR16) :
    Decidable (StringAt mem StrSize s name) :=
  decidable_of_iff (Holds 0 (charAt mem s) name ∧ (StrSize s).toNat = 2 * (name.length + 1))
    ⟨fun h => ⟨h.1, h.2⟩, fun h => ⟨h.holds, h.size⟩⟩

section
variable {mem : ByteMem} {StrSize : UINT64 → UINTN} {s s' : UINT64} {name name' : List CHAR16}

theorem charAt_eq_iff {i j : Nat} :
    charAt mem s i = charAt mem s' j ↔ unitAt mem 2 s i = unitAt mem 2 s' j := by
  have hlt : unitAt mem 2 s i < 2 ^ 16 := load_lt mem _ 2
  have hlt' : unitAt mem 2 s' j < 2 ^ 16 := load_lt mem _ 2
  rw [← BitVec.toNat_inj, charAt, charAt, BitVec.toNat_ofNat, BitVec.toNat_ofNat,
    Nat.mod_eq_of_lt hlt, Nat.mod_eq_of_lt hlt']

/-- `(a < b) ? a : b` takes in the terminator of the shorter name. -/
theorem smaller_size (h : StringAt mem StrSize s name) (h' : StringAt mem StrSize s' name') :
    (if StrSize s < StrSize s' then StrSize s else StrSize s').toNat =
      2 * (min name.length name'.length + 1) := by
  have hs := h.size
  have hs' := h'.size
  by_cases hlt : StrSize s < StrSize s'
  · have := BitVec.lt_def.mp hlt
    rw [if_pos hlt]
    omega
  · have := BitVec.lt_def.not.mp hlt
    rw [if_neg hlt]
    omega

/-- Over the smaller size equal names are equal and no others. -/
theorem Compare_names_iff (h : StringAt mem StrSize s name) (h' : StringAt mem StrSize s' name') :
    Compare (bytesAt mem s) (bytesAt mem s')
        (if StrSize s < StrSize s' then StrSize s else StrSize s').toNat = true ↔ name = name' := by
  rw [smaller_size h h', Compare_iff, ← agree_iff h.holds h'.holds]
  simp only [charAt_eq_iff]
  exact bytes_agree_iff

end

/-- The wall is where the check looks for it. -/
def WallCheck.Carved (w : WallCheck) : Prop :=
  ∀ k (hk : k < wallNames.length), StringAt w.mem w.StrSize (w.Wall_of_Shame k) wallNames[k]

instance (w : WallCheck) : Decidable w.Carved :=
  inferInstanceAs (Decidable (∀ k (hk : k < wallNames.length),
    StringAt w.mem w.StrSize (w.Wall_of_Shame k) wallNames[k]))

section
variable {w : WallCheck} {DriverDisplayName : UINT64} {name : List CHAR16}

theorem onWall_iff (hw : w.Carved) (h : StringAt w.mem w.StrSize DriverDisplayName name) {k : Nat}
    (hk : k < wallNames.length) :
    w.onWall DriverDisplayName (w.StrSize DriverDisplayName) k = true ↔ name = wallNames[k] :=
  Compare_names_iff h (hw k hk)

/-- The loop stops at the name if it is still to come, else at the end. -/
theorem searchWall_spec (hw : w.Carved) (h : StringAt w.mem w.StrSize DriverDisplayName name)
    {left k : Nat} (hk : k + left = NUM_ON_WALL) :
    let r := w.searchWall DriverDisplayName (w.StrSize DriverDisplayName) left k
    (name ∈ wallNames.drop k → r.1 < NUM_ON_WALL ∧ r.2 = w.DefaultDriverDisplayName) ∧
      (name ∉ wallNames.drop k → r = (NUM_ON_WALL, DriverDisplayName)) := by
  induction left generalizing k with
  | zero =>
    have hend : wallNames.drop k = [] := List.drop_of_length_le (Nat.le_of_eq hk.symm)
    rw [hend]
    refine ⟨fun hmem => absurd hmem List.not_mem_nil, fun _ => ?_⟩
    rw [← hk]
    rfl
  | succ left ih =>
    have hlt : k < wallNames.length := by
      have hlen : wallNames.length = NUM_ON_WALL := rfl
      omega
    have hhead := onWall_iff hw h hlt
    rw [List.drop_eq_getElem_cons hlt, List.mem_cons]
    by_cases heq : name = wallNames[k]
    · have hr : w.searchWall DriverDisplayName (w.StrSize DriverDisplayName) (left + 1) k =
          (k, w.DefaultDriverDisplayName) := if_pos (hhead.mpr heq)
      rw [hr]
      exact ⟨fun _ => ⟨hlt, rfl⟩, fun hnot => absurd (.inl heq) hnot⟩
    · have hr : w.searchWall DriverDisplayName (w.StrSize DriverDisplayName) (left + 1) k =
          w.searchWall DriverDisplayName (w.StrSize DriverDisplayName) left (k + 1) :=
        if_neg fun hon => heq (hhead.mp hon)
      rw [hr]
      obtain ⟨hin, hout⟩ := ih (k := k + 1) (by omega)
      exact ⟨fun hmem => hin (hmem.resolve_left heq), fun hnot => hout fun hmem => hnot (.inr hmem)⟩

end

/-- **Whole names only.** For a driver name of any length, the check resets
the name and skips the driver if the name is one of those on the wall, and
leaves it and goes on if it is not: over the smaller of the two sizes
`Compare` finds no proper prefix, no extension and no other name equal. -/
theorem wall_matches_whole_names (w : WallCheck) (DriverDisplayName : UINT64) (name : List CHAR16)
    (hw : w.Carved) (h : StringAt w.mem w.StrSize DriverDisplayName name) :
    w.run DriverDisplayName =
        (if name ∈ wallNames then (w.DefaultDriverDisplayName, true) else (DriverDisplayName, false)) ∧
      ∀ k (hk : k < wallNames.length),
        w.onWall DriverDisplayName (w.StrSize DriverDisplayName) k = true ↔ name = wallNames[k] := by
  refine ⟨?_, fun k hk => onWall_iff hw h hk⟩
  obtain ⟨hin, hout⟩ := searchWall_spec hw h (Nat.zero_add NUM_ON_WALL)
  rw [List.drop_zero] at hin hout
  rw [WallCheck.run]
  by_cases hmem : name ∈ wallNames
  · obtain ⟨hiter, hname⟩ := hin hmem
    rw [if_pos hmem, hname, decide_eq_true hiter]
  · rw [if_neg hmem, hout hmem]
    rfl

/-- Strings in slots of 256 bytes from 4 KiB on, slot 4 the driver's name. -/
def stringSlots (DriverName : List CHAR16) : ByteMem := fun x =>
  let slot := (wallNames ++ [DriverName]).getD (x.toNat / 256 - 16) []
  BitVec.ofNat 8 ((slot.getD (x.toNat % 256 / 2) 0).toNat / 256 ^ (x.toNat % 2))

/-- The size of the string at `s`, up to 64 characters. -/
def countedSize (mem : ByteMem) (s : UINT64) : UINTN :=
  BitVec.ofNat 64 (2 * ((List.range 64).findIdx (fun i => charAt mem s i == 0) + 1))

def slotCheck (DriverName : List CHAR16) : WallCheck where
  mem := stringSlots DriverName
  StrSize := countedSize (stringSlots DriverName)
  Wall_of_Shame k := 0x1000 + BitVec.ofNat 64 (256 * k)
  DefaultDriverDisplayName := 0x2000

set_option maxRecDepth 20000 in
/-- A name that goes on behind one on the wall is let through. -/
theorem wall_matches_whole_names_extension :
    (slotCheck (wide "Socket Layer Driver 2")).run 0x1400 = (0x1400, false) :=
  (wall_matches_whole_names (slotCheck (wide "Socket Layer Driver 2")) 0x1400 (wide "Socket Layer Driver 2")
    (by decide) (by decide)).1

end PiousOS.Loader
