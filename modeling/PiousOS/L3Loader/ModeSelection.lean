import PiousOS.L3Loader.GraphicsMode

/-!
# Which modes and devices are requested

**The firmware (`KeepsModes`, a hypothesis).** Only `SetMode` changes the mode
data of a device, and not how many modes it has.

Between two calls of `SetMode` a run changes nothing but the key, `mode`, the
timeout and the firmware (`Same`). A menu that is left has a key in its range
or has timed out, and in both cases `mode` is set anew: what listing the modes
leaves in it is never used.

Results:
* `selectMode_spec`, `selectModeTimed_spec`, `find1024x768_spec`: each leaves
  a mode the device has.
* `configureDevice_spec`: one device, from opening it to its entry.
-/
namespace PiousOS.Loader
open EarlyExit

variable {σ α : Type}

/-- Only `SetMode` changes mode data, and never `MaxMode`. -/
structure KeepsModes (fw : GraphicsFirmware σ) : Prop where
  openProtocol : ∀ d w, fw.Mode (fw.OpenProtocol d w).2 = fw.Mode w
  queryMode : ∀ d m w, fw.Mode (fw.QueryMode d m w).2 = fw.Mode w
  setMode : ∀ d m w e, (fw.Mode (fw.SetMode d m w).2 e).MaxMode = (fw.Mode w e).MaxMode
  allocatePool : ∀ n w, fw.Mode (fw.AllocatePool n w).2 = fw.Mode w
  freePool : ∀ w, fw.Mode (fw.FreePool w).2 = fw.Mode w
  waitForSingleEvent : ∀ w, fw.Mode (fw.WaitForSingleEvent w).2 = fw.Mode w
  readKeyStroke : ∀ key w, fw.Mode (fw.ReadKeyStroke key w).2 = fw.Mode w
  reset : ∀ w, fw.Mode (fw.Reset w).2 = fw.Mode w

/-! ## Keeping an invariant -/

/-- Every return before the end is with an error. -/
def GOPExit.Failed : GOPExit → Prop
  | .returned GOPStatus => EFI_ERROR GOPStatus = true
  | .waiting => True

/-- How a run in `I` stops early. -/
def Stops (I : GOPState σ → Prop) (e : GOPExit) (s : GOPState σ) : Prop := e.Failed ∧ I s

abbrev Keeps (I : GOPState σ → Prop) (x : GOP σ α) : Prop := KeepsInv I GOPExit.Failed x

/-- No call but `SetMode` can break `I`. -/
def Stable (fw : GraphicsFirmware σ) (I : GOPState σ → Prop) : Prop :=
  ∀ s w, fw.Mode w = fw.Mode s.firmware → I s → I { s with firmware := w }

section
variable {fw : GraphicsFirmware σ} {I : GOPState σ → Prop} {fuel : Nat}

theorem Stops.mono {I' : GOPState σ → Prop} (h : ∀ s, I s → I' s) :
    ∀ e s, Stops I e s → Stops I' e s := fun _ s hs => ⟨hs.1, h s hs.2⟩

theorem keeps_check (GOPStatus : EFI_STATUS) : Keeps I (checkGOP GOPStatus) :=
  KeepsInv.ite (fun he => KeepsInv.throw he) fun _ => KeepsInv.pure _

theorem keeps_call (hI : Stable fw I) {service : σ → α × σ} (h : ∀ w, fw.Mode (service w).2 = fw.Mode w) :
    Keeps I (callGOP service) :=
  fun s hs => hI s _ (h s.firmware) hs

theorem keeps_callChecked (hI : Stable fw I) {service : σ → EFI_STATUS × σ}
    (h : ∀ w, fw.Mode (service w).2 = fw.Mode w) : Keeps I (callCheckedGOP service) :=
  (keeps_call hI h).bind keeps_check

theorem keeps_loop {body : GOP σ Bool} (h : Keeps I body) : Keeps I (loopWhile .waiting body fuel) :=
  Triple.loopWhile (h.post fun more s hs => by cases more <;> exact hs) fun _ hs => ⟨trivial, hs⟩

end

/-! ## Between two calls of `SetMode` -/

/-- What `s` has of `s₀` until the next `SetMode`. -/
structure Same (fw : GraphicsFirmware σ) (NumHandles : UINTN) (s₀ s : GOPState σ) : Prop where
  DevNum : s.DevNum = s₀.DevNum
  Graphics : s.Graphics = s₀.Graphics
  calls : s.calls = s₀.calls
  stored : s.stored = s₀.stored
  modes : fw.Mode s.firmware = fw.Mode s₀.firmware
  used : ∀ d ∈ s.used, d < NumHandles

section
variable {fw : GraphicsFirmware σ} {NumHandles : UINTN} {s₀ s : GOPState σ} {fuel : Nat}

theorem Same.refl (h : ∀ d ∈ s.used, d < NumHandles) : Same fw NumHandles s s := ⟨rfl, rfl, rfl, rfl, rfl, h⟩

theorem same_stable : Stable fw (Same fw NumHandles s₀) := fun _ _ hw hs =>
  ⟨hs.DevNum, hs.Graphics, hs.calls, hs.stored, hw.trans hs.modes, hs.used⟩

/-- A change of key, mode and timeout. -/
theorem Same.select (hs : Same fw NumHandles s₀ s) (Key : UINT16) (mode : UINT32) (timeout_seconds : UINT64) :
    Same fw NumHandles s₀ { s with Key := Key, mode := mode, timeout_seconds := timeout_seconds } :=
  ⟨hs.DevNum, hs.Graphics, hs.calls, hs.stored, hs.modes, hs.used⟩

theorem Same.use {l : List UINT64} (hs : Same fw NumHandles s₀ s) (hl : ∀ d ∈ l, d < NumHandles) :
    Same fw NumHandles s₀ { s with used := s.used ++ l } := by
  refine ⟨hs.DevNum, hs.Graphics, hs.calls, hs.stored, hs.modes, fun d hd => ?_⟩
  rcases List.mem_append.mp hd with hd | hd
  · exact hs.used d hd
  · exact hl d hd

theorem useDevice_same {i : UINT64} (hi : i < NumHandles) : Keeps (Same fw NumHandles s₀) (useDevice i) :=
  Triple.modify fun _ hs => hs.use fun d hd => by rwa [List.mem_singleton.mp hd]

theorem ofNat_lt_of_lt {i : Nat} (hi : i < NumHandles.toNat) : BitVec.ofNat 64 i < NumHandles := by
  have := NumHandles.isLt
  rw [BitVec.lt_def, BitVec.toNat_ofNat]
  omega

theorem printNames_same : Keeps (Same fw NumHandles s₀) (printNames NumHandles) := by
  refine Triple.modify fun _ hs => hs.use fun d hd => ?_
  obtain ⟨i, hi, rfl⟩ := List.mem_map.mp hd
  exact ofNat_lt_of_lt (List.mem_range.mp hi)

variable (hfw : KeepsModes fw)
include hfw

theorem readKeyStroke_same : Keeps (Same fw NumHandles s₀) (readKeyStroke fw) := fun s hs =>
  ⟨hs.DevNum, hs.Graphics, hs.calls, hs.stored, (hfw.readKeyStroke s.Key s.firmware).trans hs.modes, hs.used⟩

theorem pollKey_same : Keeps (Same fw NumHandles s₀) (pollKey fw fuel) :=
  keeps_loop ((readKeyStroke_same hfw).bind fun _ => KeepsInv.pure _)

theorem awaitKey_same : Keeps (Same fw NumHandles s₀) (awaitKey fw fuel) := by
  refine keeps_loop (Triple.read fun s _ => Triple.ite (fun _ => KeepsInv.pure _) fun _ => ?_)
  refine (keeps_call same_stable hfw.waitForSingleEvent).bind fun GOPStatus => Triple.ite (fun _ => ?_) fun _ => ?_
  · exact (readKeyStroke_same hfw).bind fun _ => (keeps_check _).bind fun _ => KeepsInv.pure _
  · exact Triple.bind (Triple.modify fun s hs => hs.select _ _ _) fun _ => KeepsInv.pure _

theorem listModes_same (GOPTable : UINT64) : Keeps (Same fw NumHandles s₀) (listModes fw fuel GOPTable) := by
  refine Triple.bind (Triple.modify fun s hs => hs.select _ _ _) fun _ => keeps_loop (Triple.read fun s _ => ?_)
  refine Triple.ite (fun _ => ?_) fun _ => KeepsInv.pure _
  refine (keeps_call same_stable (hfw.queryMode GOPTable s.mode)).bind fun _ => (keeps_check _).bind fun _ => ?_
  refine (keeps_callChecked same_stable hfw.freePool).bind fun _ => ?_
  exact Triple.bind (Triple.modify fun s hs => hs.select _ _ _) fun _ => KeepsInv.pure _

theorem openDevice_same (hdev : s₀.DevNum < NumHandles) :
    Triple (Same fw NumHandles s₀) (openDevice fw)
      (fun GOPTable s => GOPTable = s₀.DevNum ∧ Same fw NumHandles s₀ s) (Stops (Same fw NumHandles s₀)) := by
  refine Triple.read fun s hs => ?_
  refine Triple.bind (useDevice_same (hs.DevNum ▸ hdev)) fun _ => ?_
  refine Triple.bind (keeps_callChecked same_stable (hfw.openProtocol _)) fun _ => ?_
  exact Triple.pure fun s' hs' => ⟨hs.DevNum, hs'⟩

end

/-! ## What a key selects -/

/-- A key in the range of a menu is one of its entries. -/
theorem keyOutside_mode {Key : UINT16} {MaxMode : UINT32} (hmax : 1 ≤ MaxMode.toNat)
    (h : keyOutside Key (0x30 + MaxMode - 1).toNat = false) : Key.setWidth 32 - 0x30 < MaxMode := by
  simp only [keyOutside, decide_eq_false_iff_not, not_or, Nat.not_lt] at h
  have hkey := Key.isLt
  bv_omega

theorem keyOutside_device {Key : UINT16} {NumHandles : UINTN} (hmax : 1 ≤ NumHandles.toNat)
    (h : keyOutside Key (0x30 + NumHandles - 1).toNat = false) : Key.setWidth 64 - 0x30 < NumHandles := by
  simp only [keyOutside, decide_eq_false_iff_not, not_or, Nat.not_lt] at h
  have hkey := Key.isLt
  bv_omega

/-! ## The menus leave modes that exist -/

/-- The mode selected is one of the device. -/
structure Selected (fw : GraphicsFirmware σ) (NumHandles : UINTN) (s₀ : GOPState σ) (GOPTable : UINT64)
    (s : GOPState σ) : Prop where
  same : Same fw NumHandles s₀ s
  mode : s.mode < (fw.Mode s₀.firmware GOPTable).MaxMode

section
variable {fw : GraphicsFirmware σ} {NumHandles : UINTN} {s₀ s : GOPState σ} {fuel : Nat} {GOPTable : UINT64}

theorem Same.maxMode (hs : Same fw NumHandles s₀ s) (GOPTable : UINT64) :
    (fw.Mode s.firmware GOPTable).MaxMode = (fw.Mode s₀.firmware GOPTable).MaxMode := by
  rw [hs.modes]

theorem Same.selectKey (hs : Same fw NumHandles s₀ s)
    (hmax : 1 ≤ (fw.Mode s₀.firmware GOPTable).MaxMode.toNat)
    (hkey : keyOutside s.Key (lastModeKey fw GOPTable s) = false) :
    Selected fw NumHandles s₀ GOPTable { s with mode := s.Key.setWidth 32 - 0x30 } := by
  rw [lastModeKey, hs.maxMode] at hkey
  exact ⟨hs.select _ _ _, keyOutside_mode hmax hkey⟩

theorem Same.selectZero (hs : Same fw NumHandles s₀ s)
    (hmax : 1 ≤ (fw.Mode s₀.firmware GOPTable).MaxMode.toNat) :
    Selected fw NumHandles s₀ GOPTable { s with mode := 0 } := by
  refine ⟨hs.select _ _ _, ?_⟩
  show (0 : UINT32) < (fw.Mode s₀.firmware GOPTable).MaxMode
  bv_omega

theorem Selected.resetKey (hs : Selected fw NumHandles s₀ GOPTable s) :
    Selected fw NumHandles s₀ GOPTable { s with Key := 0 } :=
  ⟨hs.same.select _ _ _, hs.mode⟩

variable (hfw : KeepsModes fw) (hdev : s₀.DevNum < NumHandles)
  (hmax : 1 ≤ (fw.Mode s₀.firmware GOPTable).MaxMode.toNat)
include hfw hdev hmax

theorem selectMode_spec :
    Triple (Same fw NumHandles s₀) (selectMode fw fuel GOPTable)
      (fun _ => Selected fw NumHandles s₀ GOPTable) (Stops (Same fw NumHandles s₀)) := by
  refine Triple.read fun s _ => ?_
  refine Triple.ite (fun _ => Triple.modify fun s hs => hs.selectZero hmax) fun _ => ?_
  let left (s : GOPState σ) : Prop :=
    Same fw NumHandles s₀ s ∧ keyOutside s.Key (lastModeKey fw GOPTable s) = false
  refine Triple.bind (R := fun _ => left) (triple_loopGuarded (I := Same fw NumHandles s₀) (fun s hs _ => ?_)
    (fun s hs hkey => ⟨hs, by simpa using hkey⟩) fun _ hs => ⟨trivial, hs⟩) fun _ => ?_
  · refine Triple.pre (P := Same fw NumHandles s₀) ?_ fun s' hs' => hs' ▸ hs
    refine Triple.bind (useDevice_same (hs.DevNum ▸ hdev)) fun _ => ?_
    refine Triple.bind (listModes_same hfw GOPTable) fun _ => ?_
    exact Triple.bind (pollKey_same hfw) fun _ => Triple.pure fun _ hs => hs
  · exact Triple.modify fun s hs => (hs.1.selectKey hmax hs.2).resetKey

/-- When the timeout is over the mode is 0; before that the menu is left with
a key only. -/
theorem selectModeTimed_spec :
    Triple (Same fw NumHandles s₀) (selectModeTimed fw fuel GOPTable)
      (fun _ => Selected fw NumHandles s₀ GOPTable) (Stops (Same fw NumHandles s₀)) := by
  refine Triple.read fun s _ => ?_
  refine Triple.ite (fun _ => Triple.modify fun s hs => hs.selectZero hmax) fun _ => ?_
  let running (s : GOPState σ) : Prop := Same fw NumHandles s₀ s ∧ s.timeout_seconds ≠ 0
  let left (s : GOPState σ) : Prop := Same fw NumHandles s₀ s ∧
    (s.timeout_seconds ≠ 0 → keyOutside s.Key (lastModeKey fw GOPTable s) = false) ∧
    (s.timeout_seconds = 0 → Selected fw NumHandles s₀ GOPTable s)
  have htimeout : GPU_MENU_TIMEOUT_SECONDS ≠ 0 := by decide
  refine Triple.bind (R := fun _ => running) (Triple.modify fun s hs => ⟨hs.select _ _ _, htimeout⟩) fun _ => ?_
  refine Triple.bind (R := fun _ => left) (triple_loopGuarded (I := running) (fun s hs _ => ?_)
    (fun s hs hkey => ⟨hs.1, fun _ => by simpa using hkey, fun hout => absurd hout hs.2⟩) fun _ hs =>
    ⟨trivial, hs.1⟩) fun _ => ?_
  · refine Triple.pre (P := Same fw NumHandles s₀) ?_ fun s' hs' => hs' ▸ hs.1
    refine Triple.bind (useDevice_same (hs.1.DevNum ▸ hdev)) fun _ => ?_
    refine Triple.bind (listModes_same hfw GOPTable) fun _ => ?_
    refine Triple.bind (awaitKey_same hfw) fun _ => Triple.get fun s hs => ?_
    refine Triple.ite (fun hout => ?_) fun hrest => Triple.pure fun s' hs' => hs' ▸ ⟨hs, hrest⟩
    refine Triple.bind (R := fun _ => left) (Triple.modify fun s' hs' => ?_) fun _ => Triple.pure fun _ hs => hs
    subst hs'
    have hzero := hs.selectZero hmax
    exact ⟨hzero.same, fun hrest => absurd hout hrest, fun _ => hzero⟩
  · refine Triple.bind (R := fun _ => Selected fw NumHandles s₀ GOPTable) (Triple.modify fun s hs => ?_)
      fun _ => Triple.modify fun s hs => hs.resetKey
    obtain ⟨hsame, hkey, hzero⟩ := hs
    split
    · next hrest => exact hsame.selectKey hmax (hkey hrest)
    · next hout => exact hzero (by simpa using hout)

omit hdev in
/-- The search ends at a mode or at `MaxMode`, which becomes 0. -/
theorem find1024x768_spec :
    Triple (Same fw NumHandles s₀) (find1024x768 fw fuel GOPTable)
      (fun _ => Selected fw NumHandles s₀ GOPTable) (Stops (Same fw NumHandles s₀)) := by
  let searched (s : GOPState σ) : Prop :=
    Same fw NumHandles s₀ s ∧ s.mode ≤ (fw.Mode s₀.firmware GOPTable).MaxMode
  have hstart : (0 : UINT32) ≤ (fw.Mode s₀.firmware GOPTable).MaxMode := by bv_omega
  refine Triple.bind (R := fun _ => searched) (Triple.modify fun s hs => ⟨hs.select _ _ _, hstart⟩) fun _ => ?_
  refine Triple.bind (R := fun _ => searched) (triple_loopGuarded (I := searched) (fun s hs hlt => ?_)
    (fun s hs _ => hs) fun _ hs => ⟨trivial, hs.1⟩) fun _ => ?_
  · rw [hs.1.maxMode] at hlt
    let below (s : GOPState σ) : Prop := Same fw NumHandles s₀ s ∧ s.mode < (fw.Mode s₀.firmware GOPTable).MaxMode
    have hstable : Stable fw below := fun s w hw hs => ⟨same_stable s w hw hs.1, hs.2⟩
    refine Triple.pre (P := below) (Triple.early (E := Stops below) ?_ (Stops.mono fun _ hs => hs.1)) fun s' hs' =>
      hs' ▸ ⟨hs.1, hlt⟩
    refine Triple.bind (keeps_call hstable (hfw.queryMode GOPTable s.mode)) fun r => ?_
    refine Triple.bind (keeps_check r.1) fun _ => Triple.bind (keeps_callChecked hstable hfw.freePool) fun _ => ?_
    refine Triple.ite (fun _ => Triple.pure fun s hs => ⟨hs.1, BitVec.le_of_lt hs.2⟩) fun _ => ?_
    refine Triple.bind (R := fun _ => searched) (Triple.modify fun s hs => ⟨hs.1.select _ _ _, ?_⟩) fun _ =>
      Triple.pure fun _ hs => hs
    have hnext := hs.2
    show s.mode + 1 ≤ (fw.Mode s₀.firmware GOPTable).MaxMode
    bv_omega
  · refine Triple.modify fun s hs => ?_
    split
    · exact hs.1.selectZero hmax
    · next hne =>
      refine ⟨hs.1, ?_⟩
      rw [hs.1.maxMode] at hne
      exact BitVec.lt_of_le_ne hs.2 hne

end

/-! ## Setting and storing a mode -/

/-- Device indices are those of the handle buffer, modes those of their
device, and entries are stored where the array has one. -/
structure Requests (NumHandles : UINTN) (s : GOPState σ) : Prop where
  used : ∀ d ∈ s.used, d < NumHandles
  calls : ∀ c ∈ s.calls, c.device < NumHandles ∧ c.mode < c.MaxMode
  stored : ∀ i ∈ s.stored, i < s.Graphics.NumberOfFrameBuffers

/-- The first `k` entries of an array. -/
def entries (GPUArray : UINT64 → PROTOCOL_MODE) (k : Nat) : List PROTOCOL_MODE :=
  (List.range k).map fun i => GPUArray (BitVec.ofNat 64 i)

theorem entries_update {GPUArray : UINT64 → PROTOCOL_MODE} {k : Nat} (hk : k < 2 ^ 64) (Mode : PROTOCOL_MODE) :
    entries (Function.update GPUArray (BitVec.ofNat 64 k) Mode) (k + 1) = entries GPUArray k ++ [Mode] := by
  rw [entries, List.range_succ, List.map_append, List.map_singleton, Function.update_self, entries]
  refine congrArg (· ++ [Mode]) (List.map_congr_left fun i hi => Function.update_of_ne (fun heq => ?_) _ _)
  have hi' := List.mem_range.mp hi
  have hnat := congrArg BitVec.toNat heq
  rw [BitVec.toNat_ofNat, BitVec.toNat_ofNat] at hnat
  omega

/-- What holds whenever the devices `ds` have been set, of which the first `k`
are stored. -/
structure Progress (fw : GraphicsFirmware σ) (NumHandles NumberOfFrameBuffers : UINTN) (ds : List UINT64) (k : Nat)
    (s : GOPState σ) : Prop where
  requests : Requests NumHandles s
  maxModes : ∀ d < NumHandles, 1 ≤ (fw.Mode s.firmware d).MaxMode.toNat
  succeeded : ∀ c ∈ s.calls, EFI_ERROR c.status = false
  devices : s.calls.map (·.device) = ds
  stored : s.stored = (List.range k).map (BitVec.ofNat 64)
  count : s.Graphics.NumberOfFrameBuffers = NumberOfFrameBuffers
  size : s.Graphics.size = NumberOfFrameBuffers * sizeofMode

/-- The devices `ds` are set and stored. -/
structure Configured (fw : GraphicsFirmware σ) (NumHandles NumberOfFrameBuffers : UINTN) (ds : List UINT64)
    (s : GOPState σ) : Prop extends Progress fw NumHandles NumberOfFrameBuffers ds ds.length s where
  entries : entries s.Graphics.GPUArray ds.length = s.calls.map (·.after)

/-- `GOPTable` is set after the devices `ds`, and not stored. -/
structure ModeSet (fw : GraphicsFirmware σ) (NumHandles NumberOfFrameBuffers : UINTN) (ds : List UINT64)
    (GOPTable : UINT64) (s : GOPState σ) : Prop
    extends Progress fw NumHandles NumberOfFrameBuffers (ds ++ [GOPTable]) ds.length s where
  entries : entries s.Graphics.GPUArray ds.length ++ [fw.Mode s.firmware GOPTable] = s.calls.map (·.after)

section
variable {fw : GraphicsFirmware σ} {NumHandles NumberOfFrameBuffers : UINTN} {s₀ s : GOPState σ}
  {GOPTable : UINT64} {ds : List UINT64}

theorem Same.requests (hs : Same fw NumHandles s₀ s) (h : Requests NumHandles s₀) : Requests NumHandles s :=
  ⟨hs.used, hs.calls ▸ h.calls, by rw [hs.stored, hs.Graphics]; exact h.stored⟩

theorem Same.stops (h : Requests NumHandles s₀) :
    ∀ e s, Stops (Same fw NumHandles s₀) e s → Stops (Requests NumHandles) e s :=
  Stops.mono fun _ hs => hs.requests h

/-- A run that starts in `s₀`. -/
theorem triple_same (fw : GraphicsFirmware σ) {x : GOP σ α} {Q : α → GOPState σ → Prop}
    {E : GOPExit → GOPState σ → Prop} (h : ∀ d ∈ s₀.used, d < NumHandles)
    (hx : Triple (Same fw NumHandles s₀) x Q E) : Triple (fun s => s = s₀) x Q E :=
  Triple.pre hx fun s hs => by rw [hs]; exact Same.refl h

theorem modeSet_stable : Stable fw (ModeSet fw NumHandles NumberOfFrameBuffers ds GOPTable) := fun s w hw hs =>
  { requests := ⟨hs.requests.used, hs.requests.calls, hs.requests.stored⟩
    maxModes := fun d hd => by rw [hw]; exact hs.maxModes d hd
    succeeded := hs.succeeded
    devices := hs.devices
    stored := hs.stored
    count := hs.count
    size := hs.size
    entries := by
      have h := hs.entries
      rwa [← hw] at h }

/-- If the call succeeds its device is set; otherwise the status is returned. -/
theorem setMode_spec (hfw : KeepsModes fw) (h₀ : Configured fw NumHandles NumberOfFrameBuffers ds s₀)
    (hdev : GOPTable < NumHandles) :
    Triple (Selected fw NumHandles s₀ GOPTable) (setMode fw GOPTable)
      (fun GOPStatus s => Requests NumHandles s ∧ (EFI_ERROR GOPStatus = false →
        ModeSet fw NumHandles NumberOfFrameBuffers ds GOPTable s ∧ s.DevNum = s₀.DevNum))
      (Stops (Requests NumHandles)) := by
  intro s hs
  have hreq := hs.same.requests h₀.requests
  have hmode : s.mode < (fw.Mode s.firmware GOPTable).MaxMode := by
    rw [hs.same.maxMode]
    exact hs.mode
  let r := fw.SetMode GOPTable s.mode s.firmware
  let call : SetModeCall :=
    ⟨GOPTable, s.mode, (fw.Mode s.firmware GOPTable).MaxMode, r.1, fw.Mode r.2 GOPTable⟩
  let s' : GOPState σ := { s with firmware := r.2, calls := s.calls ++ [call] }
  have hreq' : Requests NumHandles s' := by
    refine ⟨hreq.used, fun c hc => ?_, hreq.stored⟩
    rcases List.mem_append.mp hc with hc | hc
    · exact hreq.calls c hc
    · rw [List.mem_singleton.mp hc]
      exact ⟨hdev, hmode⟩
  refine ⟨hreq', fun hok => ⟨?_, hs.same.DevNum⟩⟩
  have hmap {γ : Type} (f : SetModeCall → γ) : s'.calls.map f = s₀.calls.map f ++ [f call] := by
    show (s.calls ++ [call]).map f = _
    rw [List.map_append, hs.same.calls, List.map_singleton]
  exact
    { requests := hreq'
      maxModes := fun d hd => by
        show 1 ≤ (fw.Mode r.2 d).MaxMode.toNat
        rw [hfw.setMode, hs.same.maxMode]
        exact h₀.maxModes d hd
      succeeded := fun c hc => by
        rcases List.mem_append.mp hc with hc | hc
        · exact h₀.succeeded c (hs.same.calls ▸ hc)
        · rw [List.mem_singleton.mp hc]
          exact hok
      devices := by rw [hmap, h₀.devices]
      stored := hs.same.stored.trans h₀.stored
      count := (congrArg GraphicsArray.NumberOfFrameBuffers hs.same.Graphics).trans h₀.count
      size := (congrArg GraphicsArray.size hs.same.Graphics).trans h₀.size
      entries := by
        show entries s.Graphics.GPUArray ds.length ++ _ = _
        rw [hmap, hs.same.Graphics, h₀.entries] }

theorem check_spec {P : GOPState σ → Prop} (GOPStatus : EFI_STATUS) :
    Triple (fun s => Requests NumHandles s ∧ (EFI_ERROR GOPStatus = false → P s)) (checkGOP GOPStatus)
      (fun _ => P) (Stops (Requests NumHandles)) :=
  Triple.ite (fun he => Triple.throw fun _ hs => ⟨he, hs.1⟩) fun hok =>
    Triple.pure fun _ hs => hs.2 (by simpa using hok)

theorem storeMode_spec (hfw : KeepsModes fw) (hlen : ds.length < NumberOfFrameBuffers.toNat) :
    Triple (fun s => ModeSet fw NumHandles NumberOfFrameBuffers ds GOPTable s ∧
        s.DevNum = BitVec.ofNat 64 ds.length) (storeMode fw GOPTable)
      (fun _ s => Configured fw NumHandles NumberOfFrameBuffers (ds ++ [GOPTable]) s ∧
        s.DevNum = BitVec.ofNat 64 ds.length) (Stops (Requests NumHandles)) := by
  let ready (s : GOPState σ) : Prop := ModeSet fw NumHandles NumberOfFrameBuffers ds GOPTable s ∧
    s.DevNum = BitVec.ofNat 64 ds.length
  have hstable : Stable fw ready := fun s w hw hs => ⟨modeSet_stable s w hw hs.1, hs.2⟩
  refine Triple.read fun s _ => ?_
  have hcall : Keeps ready (callCheckedGOP (fw.AllocatePool (fw.Mode s.firmware GOPTable).SizeOfInfo)) :=
    keeps_callChecked hstable (hfw.allocatePool _)
  refine Triple.bind (Triple.early hcall (Stops.mono fun s hs => hs.1.requests)) fun _ => Triple.modify fun s hs => ?_
  obtain ⟨hset, hdev⟩ := hs
  have hlength : (ds ++ [GOPTable]).length = ds.length + 1 := by rw [List.length_append, List.length_singleton]
  have hstored : s.stored ++ [s.DevNum] = (List.range (ds.length + 1)).map (BitVec.ofNat 64) := by
    rw [hset.stored, hdev, List.range_succ, List.map_append, List.map_singleton]
  have hbound := NumberOfFrameBuffers.isLt
  refine ⟨{ requests := ⟨hset.requests.used, hset.requests.calls, fun i hi => ?_⟩, maxModes := hset.maxModes,
            succeeded := hset.succeeded, devices := hset.devices, stored := ?_, count := hset.count,
            size := hset.size, entries := ?_ }, hdev⟩
  · show i < s.Graphics.NumberOfFrameBuffers
    rw [hstored] at hi
    obtain ⟨j, hj, rfl⟩ := List.mem_map.mp hi
    have hj' := List.mem_range.mp hj
    rw [hset.count]
    exact ofNat_lt_of_lt (by omega)
  · rw [hlength]
    exact hstored
  · rw [hlength, hdev, entries_update (by omega)]
    exact hset.entries

end

end PiousOS.Loader
