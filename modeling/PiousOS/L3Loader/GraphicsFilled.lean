import PiousOS.L3Loader.ModeSelection

/-!
# The graphics array is filled

Each of the five configurations goes from an allocated array (`Allocated`) to
one with an entry for every device it is about, in order; freeing the names
and the last check change nothing of that.

Results:
* `forDevices_spec`: the loop over all devices, by an invariant that counts.
* `configure_spec`: whichever configuration is chosen.
* `graphics_requests_exist`: a whole run, for every keyboard and firmware.
-/
namespace PiousOS.Loader
open EarlyExit

variable {σ : Type}

/-- Nothing is requested yet, and every device has a mode. -/
structure Named (fw : GraphicsFirmware σ) (NumHandles : UINTN) (s : GOPState σ) : Prop where
  used : ∀ d ∈ s.used, d < NumHandles
  calls : s.calls = []
  stored : s.stored = []
  maxModes : ∀ d < NumHandles, 1 ≤ (fw.Mode s.firmware d).MaxMode.toNat

section
variable {fw : GraphicsFirmware σ} {NumHandles NumberOfFrameBuffers : UINTN} {s₀ s : GOPState σ} {fuel : Nat}
  {ds : List UINT64}

theorem Named.requests (h : Named fw NumHandles s) : Requests NumHandles s := by
  refine ⟨h.used, fun c hc => ?_, fun i hi => ?_⟩
  · rw [h.calls] at hc
    cases hc
  · rw [h.stored] at hi
    cases hi

theorem named_stable : Stable fw (Named fw NumHandles) := fun s w hw hs =>
  ⟨hs.used, hs.calls, hs.stored, fun d hd => by rw [hw]; exact hs.maxModes d hd⟩

theorem Same.named (hs : Same fw NumHandles s₀ s) (h : Named fw NumHandles s₀) : Named fw NumHandles s :=
  ⟨hs.used, hs.calls.trans h.calls, hs.stored.trans h.stored, by rw [hs.modes]; exact h.maxModes⟩

theorem Configured.setDevNum (h : Configured fw NumHandles NumberOfFrameBuffers ds s) (DevNum : UINT64)
    (Key : UINT16) :
    Configured fw NumHandles NumberOfFrameBuffers ds { s with DevNum := DevNum, Key := Key } :=
  { requests := ⟨h.requests.used, h.requests.calls, h.requests.stored⟩, maxModes := h.maxModes,
    succeeded := h.succeeded, devices := h.devices, stored := h.stored, count := h.count, size := h.size,
    entries := h.entries }

theorem ModeSet.setDevNum {GOPTable : UINT64} (h : ModeSet fw NumHandles NumberOfFrameBuffers ds GOPTable s)
    (DevNum : UINT64) : ModeSet fw NumHandles NumberOfFrameBuffers ds GOPTable { s with DevNum := DevNum } :=
  { requests := ⟨h.requests.used, h.requests.calls, h.requests.stored⟩, maxModes := h.maxModes,
    succeeded := h.succeeded, devices := h.devices, stored := h.stored, count := h.count, size := h.size,
    entries := h.entries }

theorem Same.configured (hs : Same fw NumHandles s₀ s)
    (h : Configured fw NumHandles NumberOfFrameBuffers ds s₀) :
    Configured fw NumHandles NumberOfFrameBuffers ds s where
  requests := hs.requests h.requests
  maxModes := by rw [hs.modes]; exact h.maxModes
  succeeded := by rw [hs.calls]; exact h.succeeded
  devices := by rw [hs.calls]; exact h.devices
  stored := by rw [hs.stored]; exact h.stored
  count := by rw [hs.Graphics]; exact h.count
  size := by rw [hs.Graphics]; exact h.size
  entries := by rw [hs.Graphics, hs.calls]; exact h.entries

variable (hfw : KeepsModes fw)
include hfw

/-- An array with no entry stored. -/
theorem allocateArray_spec :
    Triple (Named fw NumHandles) (allocateArray fw NumberOfFrameBuffers)
      (fun _ => Configured fw NumHandles NumberOfFrameBuffers []) (Stops (Requests NumHandles)) := by
  let announced (s : GOPState σ) : Prop :=
    Named fw NumHandles s ∧ s.Graphics.NumberOfFrameBuffers = NumberOfFrameBuffers
  have hstable : Stable fw announced := fun s w hw hs => ⟨named_stable s w hw hs.1, hs.2⟩
  refine Triple.bind (R := fun _ => announced) (Triple.modify fun s hs => ?_) fun _ => ?_
  · exact ⟨⟨hs.used, hs.calls, hs.stored, hs.maxModes⟩, rfl⟩
  have hcall : Keeps announced (callCheckedGOP (fw.AllocatePool (NumberOfFrameBuffers * sizeofMode))) :=
    keeps_callChecked hstable (hfw.allocatePool _)
  refine Triple.bind (Triple.early hcall (Stops.mono fun s hs => hs.1.requests)) fun _ => Triple.modify fun s hs => ?_
  obtain ⟨hnamed, hcount⟩ := hs
  have hnone : s.calls = [] := hnamed.calls
  have hreq := hnamed.requests
  exact
    { requests := ⟨hreq.used, hreq.calls, hreq.stored⟩
      maxModes := hnamed.maxModes
      succeeded := fun c hc => by
        rw [show s.calls = [] from hnone] at hc
        cases hc
      devices := by
        show s.calls.map _ = []
        rw [hnone, List.map_nil]
      stored := hnamed.stored
      count := hcount
      size := rfl
      entries := by
        show [] = s.calls.map _
        rw [hnone, List.map_nil] }

/-- One device is opened, given a mode, and set; `rest` finds it set. -/
theorem setDevice_spec {select : UINT64 → GOP σ Unit} {rest : UINT64 → GOP σ Unit} {Q : Unit → GOPState σ → Prop}
    (h₀ : Configured fw NumHandles NumberOfFrameBuffers ds s₀) (hin : s₀.DevNum < NumHandles)
    (hselect : Triple (Same fw NumHandles s₀) (select s₀.DevNum) (fun _ => Selected fw NumHandles s₀ s₀.DevNum)
      (Stops (Same fw NumHandles s₀)))
    (hrest : Triple (fun s => ModeSet fw NumHandles NumberOfFrameBuffers ds s₀.DevNum s ∧ s.DevNum = s₀.DevNum)
      (rest s₀.DevNum) Q (Stops (Requests NumHandles))) :
    Triple (fun s => s = s₀)
      (do
        let GOPTable ← openDevice fw
        select GOPTable
        let GOPStatus ← setMode fw GOPTable
        checkGOP GOPStatus
        rest GOPTable) Q (Stops (Requests NumHandles)) := by
  have hleave : ∀ e s, Stops (Same fw NumHandles s₀) e s → Stops (Requests NumHandles) e s :=
    Same.stops h₀.requests
  refine triple_same fw h₀.requests.used ?_
  refine Triple.bind (Triple.early (openDevice_same hfw hin) hleave) fun GOPTable => Triple.assume fun htable => ?_
  subst htable
  refine Triple.bind (Triple.early hselect hleave) fun _ => ?_
  exact Triple.bind (setMode_spec hfw h₀ hin) fun GOPStatus => Triple.bind (check_spec GOPStatus) fun _ => hrest

/-- The configuration of one device, with its choice of a mode. -/
theorem configureDevice_spec (ds : List UINT64) (select : UINT64 → GOP σ Unit)
    (hlen : ds.length < NumberOfFrameBuffers.toNat) (hdev : ds.length < NumHandles.toNat)
    (hselect : ∀ s₀ : GOPState σ, s₀.DevNum < NumHandles → 1 ≤ (fw.Mode s₀.firmware s₀.DevNum).MaxMode.toNat →
      Triple (Same fw NumHandles s₀) (select s₀.DevNum) (fun _ => Selected fw NumHandles s₀ s₀.DevNum)
        (Stops (Same fw NumHandles s₀))) :
    Triple (fun s => Configured fw NumHandles NumberOfFrameBuffers ds s ∧ s.DevNum = BitVec.ofNat 64 ds.length)
      (do
        let GOPTable ← openDevice fw
        select GOPTable
        let GOPStatus ← setMode fw GOPTable
        checkGOP GOPStatus
        storeMode fw GOPTable)
      (fun _ s => Configured fw NumHandles NumberOfFrameBuffers (ds ++ [BitVec.ofNat 64 ds.length]) s ∧
        s.DevNum = BitVec.ofNat 64 ds.length) (Stops (Requests NumHandles)) := by
  refine Triple.start fun s₀ hs₀ => ?_
  obtain ⟨h₀, hnum⟩ := hs₀
  have hin : s₀.DevNum < NumHandles := hnum ▸ ofNat_lt_of_lt hdev
  have hmax := h₀.maxModes _ hin
  refine setDevice_spec hfw h₀ hin (hselect s₀ hin hmax) ?_
  rw [hnum]
  exact storeMode_spec hfw hlen

omit hfw in
/-- `P k` holds with the first `k` devices done. -/
theorem forDevices_spec {P : Nat → GOPState σ → Prop} {body : GOP σ Unit}
    (hDevNum : ∀ k s DevNum, P k s → P k { s with DevNum := DevNum })
    (hbody : ∀ k < NumHandles.toNat, Triple (fun s => P k s ∧ s.DevNum = BitVec.ofNat 64 k) body
      (fun _ s => P (k + 1) s ∧ s.DevNum = BitVec.ofNat 64 k) (Stops (Requests NumHandles)))
    (hout : ∀ k s, P k s → Requests NumHandles s) :
    Triple (P 0) (forDevices NumHandles fuel body) (fun _ => P NumHandles.toNat)
      (Stops (Requests NumHandles)) := by
  let done (s : GOPState σ) : Prop :=
    ∃ k ≤ NumHandles.toNat, P k s ∧ s.DevNum = BitVec.ofNat 64 k
  have hbound := NumHandles.isLt
  have hguard {k : Nat} (hk : k ≤ NumHandles.toNat) : BitVec.ofNat 64 k < NumHandles ↔ k < NumHandles.toNat := by
    rw [BitVec.lt_def, BitVec.toNat_ofNat]
    omega
  refine Triple.bind (R := fun _ => done) (Triple.modify fun s hs => ?_) fun _ => ?_
  · exact ⟨0, Nat.zero_le _, hDevNum 0 s _ hs, rfl⟩
  refine triple_loopGuarded (I := done) (fun s hs hlt => ?_) (fun s hs hend => ?_) fun s hs => ?_
  · obtain ⟨k, hk, hP, hnum⟩ := hs
    rw [hnum, hguard hk] at hlt
    refine Triple.pre (P := fun s => P k s ∧ s.DevNum = BitVec.ofNat 64 k) ?_ fun s' hs' => hs' ▸ ⟨hP, hnum⟩
    refine Triple.bind (hbody k hlt) fun _ => Triple.bind (R := fun _ => done) (Triple.modify fun s hs => ?_)
      fun _ => Triple.pure fun _ hs => hs
    refine ⟨k + 1, hlt, hDevNum _ _ _ hs.1, ?_⟩
    show s.DevNum + 1 = _
    rw [hs.2, BitVec.ofNat_add]
    rfl
  · obtain ⟨k, hk, hP, hnum⟩ := hs
    rw [hnum, hguard hk] at hend
    have hlast : k = NumHandles.toNat := by omega
    rwa [← hlast]
  · obtain ⟨k, -, hP, -⟩ := hs
    exact ⟨trivial, hout k s hP⟩

end

/-! ## The five configurations -/

/-- The handles in order. -/
def allDevices (NumHandles : UINTN) : List UINT64 := (List.range NumHandles.toNat).map (BitVec.ofNat 64)

/-- All devices are configured, or one is. -/
def Complete (fw : GraphicsFirmware σ) (NumHandles : UINTN) (s : GOPState σ) : Prop :=
  Configured fw NumHandles NumHandles (allDevices NumHandles) s ∨
    ∃ d < NumHandles, Configured fw NumHandles 1 [d] s

section
variable {fw : GraphicsFirmware σ} {NumHandles : UINTN} {fuel : Nat}

variable (hfw : KeepsModes fw)
include hfw

/-- A configuration of all devices, with its choice of a mode. -/
theorem configureAll_spec {select : UINT64 → GOP σ Unit}
    (hselect : ∀ s₀ : GOPState σ, s₀.DevNum < NumHandles → 1 ≤ (fw.Mode s₀.firmware s₀.DevNum).MaxMode.toNat →
      Triple (Same fw NumHandles s₀) (select s₀.DevNum) (fun _ => Selected fw NumHandles s₀ s₀.DevNum)
        (Stops (Same fw NumHandles s₀))) :
    Triple (Named fw NumHandles)
      (do
        allocateArray fw NumHandles
        forDevices NumHandles fuel (do
          let GOPTable ← openDevice fw
          select GOPTable
          let GOPStatus ← setMode fw GOPTable
          checkGOP GOPStatus
          storeMode fw GOPTable))
      (fun _ => Complete fw NumHandles) (Stops (Requests NumHandles)) := by
  let first (k : Nat) : List UINT64 := (List.range k).map (BitVec.ofNat 64)
  have hlength (k : Nat) : (first k).length = k := by rw [List.length_map, List.length_range]
  refine Triple.bind (allocateArray_spec hfw) fun _ => ?_
  refine Triple.post (forDevices_spec (P := fun k => Configured fw NumHandles NumHandles (first k))
    (fun k s DevNum h => h.setDevNum DevNum _) (fun k hk => ?_) fun k s h => h.requests) fun _ s h => Or.inl h
  have hstep := configureDevice_spec hfw (first k) select (by rwa [hlength]) (by rwa [hlength]) hselect
  have hnext : first (k + 1) = first k ++ [BitVec.ofNat 64 (first k).length] := by
    rw [hlength]
    show (List.range (k + 1)).map _ = _
    rw [List.range_succ, List.map_append, List.map_singleton]
  rwa [← hnext, hlength] at hstep

theorem configureIndividually_spec :
    Triple (Named fw NumHandles) (configureIndividually fw NumHandles fuel) (fun _ => Complete fw NumHandles)
      (Stops (Requests NumHandles)) :=
  configureAll_spec hfw fun _ hdev hmax => selectMode_spec hfw hdev hmax

theorem configureDefault_spec :
    Triple (Named fw NumHandles) (configureDefault fw NumHandles fuel) (fun _ => Complete fw NumHandles)
      (Stops (Requests NumHandles)) :=
  configureAll_spec hfw fun _ _ hmax => Triple.modify fun _ hs => hs.selectZero hmax

theorem configure1024x768_spec :
    Triple (Named fw NumHandles) (configure1024x768 fw NumHandles fuel) (fun _ => Complete fw NumHandles)
      (Stops (Requests NumHandles)) :=
  configureAll_spec hfw fun _ _ hmax => find1024x768_spec hfw hmax

variable (hN : 1 ≤ NumHandles.toNat)
include hN

theorem configureSingle_spec :
    Triple (Named fw NumHandles) (configureSingle fw fuel) (fun _ => Complete fw NumHandles)
      (Stops (Requests NumHandles)) := by
  let ready (s : GOPState σ) : Prop := Configured fw NumHandles 1 [] s ∧ s.DevNum = BitVec.ofNat 64 0
  refine Triple.bind (allocateArray_spec hfw) fun _ => ?_
  refine Triple.bind (R := fun _ => ready) (Triple.modify fun s hs => ⟨hs.setDevNum 0 _, rfl⟩) fun _ => ?_
  have hone : ([] : List UINT64).length < (1 : UINTN).toNat := Nat.one_pos
  have hdevice := configureDevice_spec hfw [] (selectModeTimed fw fuel) hone hN fun _ hdev hmax =>
    selectModeTimed_spec hfw hdev hmax
  exact Triple.post hdevice fun _ s hs => Or.inr ⟨_, ofNat_lt_of_lt hN, hs.1⟩

/-- The menu is left with a key in its range. -/
theorem selectDevice_spec :
    Triple (Configured fw NumHandles 1 []) (selectDevice fw NumHandles fuel)
      (fun _ s => Configured fw NumHandles 1 [] s ∧ s.DevNum < NumHandles) (Stops (Requests NumHandles)) := by
  refine Triple.start fun s₀ h₀ => ?_
  let left (s : GOPState σ) : Prop :=
    Same fw NumHandles s₀ s ∧ keyOutside s.Key (0x30 + NumHandles - 1).toNat = false
  refine triple_same fw h₀.requests.used ?_
  refine Triple.bind (R := fun _ => left) (triple_loopGuarded (I := Same fw NumHandles s₀) (fun s hs _ => ?_)
    (fun s hs hkey => ⟨hs, by simpa using hkey⟩) fun _ hs =>
    ⟨trivial, hs.requests h₀.requests⟩) fun _ => ?_
  · refine Triple.pre (P := Same fw NumHandles s₀) ?_ fun s' hs' => hs' ▸ hs
    refine Triple.early (E := Stops (Same fw NumHandles s₀)) ?_ (Same.stops h₀.requests)
    refine Triple.bind printNames_same fun _ => ?_
    exact Triple.bind (pollKey_same hfw) fun _ => Triple.pure fun _ hs => hs
  · exact Triple.modify fun s hs => ⟨(hs.1.configured h₀).setDevNum _ _, keyOutside_device hN hs.2⟩

/-- The device selected is stored as the only entry. -/
theorem configureOne_spec :
    Triple (Named fw NumHandles) (configureOne fw NumHandles fuel) (fun _ => Complete fw NumHandles)
      (Stops (Requests NumHandles)) := by
  refine Triple.bind (allocateArray_spec hfw) fun _ => Triple.bind (selectDevice_spec hfw hN) fun _ => ?_
  refine Triple.start fun s₀ hs₀ => ?_
  obtain ⟨h₀, hin⟩ := hs₀
  have hmax := h₀.maxModes _ hin
  refine setDevice_spec hfw h₀ hin (selectMode_spec hfw hin hmax) ?_
  let ready (s : GOPState σ) : Prop :=
    ModeSet fw NumHandles 1 [] s₀.DevNum s ∧ s.DevNum = BitVec.ofNat 64 0
  refine Triple.bind (R := fun _ => ready) (Triple.modify fun s hs => ⟨hs.1.setDevNum 0, rfl⟩) fun _ => ?_
  exact Triple.post (storeMode_spec hfw Nat.one_pos) fun _ s hs => Or.inr ⟨_, hin, hs.1⟩

/-- Whichever configuration is chosen. -/
theorem configure_spec :
    Triple (Named fw NumHandles) (configure fw NumHandles fuel) (fun _ => Complete fw NumHandles)
      (Stops (Requests NumHandles)) := by
  refine Triple.read fun s _ => ?_
  refine Triple.ite (fun _ => configureIndividually_spec hfw) fun _ => ?_
  refine Triple.ite (fun _ => configureOne_spec hfw hN) fun _ => ?_
  refine Triple.ite (fun _ => configureDefault_spec hfw) fun _ => ?_
  exact Triple.ite (fun _ => configure1024x768_spec hfw) fun _ => configureSingle_spec hfw hN

end

/-! ## The whole function -/

section
variable {fw : GraphicsFirmware σ} {NumHandles : UINTN} {fuel : Nat} {s₀ : GOPState σ}

variable (hfw : KeepsModes fw)
include hfw

theorem deviceOptionMenu_spec :
    Triple (Named fw NumHandles) (deviceOptionMenu fw NumHandles fuel) (fun _ => Named fw NumHandles)
      (Stops (Requests NumHandles)) := by
  refine Triple.start fun s₀ h₀ => ?_
  refine triple_same fw h₀.used ?_
  refine Triple.bind (R := fun _ => Same fw NumHandles s₀) (triple_loopGuarded (I := Same fw NumHandles s₀)
    (fun s hs _ => ?_) (fun s hs _ => hs) fun _ hs =>
    ⟨trivial, hs.requests h₀.requests⟩) fun _ => ?_
  · refine Triple.pre (P := Same fw NumHandles s₀) ?_ fun s' hs' => hs' ▸ hs
    refine Triple.early (E := Stops (Same fw NumHandles s₀)) ?_ (Same.stops h₀.requests)
    refine Triple.bind printNames_same fun _ => Triple.bind (awaitKey_same hfw) fun _ => ?_
    refine Triple.get fun s hs => Triple.pure fun s' hs' => ?_
    subst hs'
    split
    · exact hs
    · exact hs
  refine Triple.bind (R := fun _ => Named fw NumHandles) (Triple.modify fun s hs => ?_) fun _ => ?_
  · have hnamed := hs.named h₀
    split
    · exact ⟨hnamed.used, hnamed.calls, hnamed.stored, hnamed.maxModes⟩
    · exact hnamed
  refine Triple.bind (R := fun _ => Named fw NumHandles) (Triple.modify fun s hs => ?_) fun _ => ?_
  · exact ⟨hs.used, hs.calls, hs.stored, hs.maxModes⟩
  · exact Triple.early (keeps_callChecked named_stable hfw.reset) (Stops.mono fun s hs => hs.requests)

theorem selectOption_spec (DEBUG_PIOUS : Bool) :
    Triple (Named fw NumHandles) (selectOption fw NumHandles fuel DEBUG_PIOUS) (fun _ => Named fw NumHandles)
      (Stops (Requests NumHandles)) := by
  refine Triple.ite (fun _ => ?_) fun _ => Triple.pure fun _ hs => hs
  refine Triple.bind (R := fun _ => Named fw NumHandles) (Triple.modify fun s hs => ?_) fun _ => ?_
  · exact ⟨hs.used, hs.calls, hs.stored, hs.maxModes⟩
  · exact Triple.ite (fun _ => deviceOptionMenu_spec hfw) fun _ => Triple.pure fun _ hs => hs

theorem freeNames_same : Keeps (Same fw NumHandles s₀) (freeNames fw NumHandles) := by
  have hfree : Keeps (Same fw NumHandles s₀) (callCheckedGOP fw.FreePool) :=
    keeps_callChecked same_stable hfw.freePool
  refine KeepsInv.bind (Triple.forM fun i hi => ?_) fun _ => hfree.bind fun _ => ?_
  · exact (useDevice_same (ofNat_lt_of_lt (List.mem_range.mp hi))).bind fun _ => hfree
  · exact (keeps_call same_stable hfw.freePool).bind fun GOPStatus => (keeps_check GOPStatus).bind fun _ =>
      KeepsInv.pure GOPStatus

theorem configureGraphics_spec (hN : 1 ≤ NumHandles.toNat) (DEBUG_PIOUS : Bool) :
    Triple (Named fw NumHandles) (configureGraphics fw NumHandles fuel DEBUG_PIOUS)
      (fun _ => Complete fw NumHandles) (Stops (Requests NumHandles)) := by
  refine Triple.bind (selectOption_spec hfw DEBUG_PIOUS) fun _ => ?_
  refine Triple.bind (configure_spec hfw hN) fun _ => Triple.start fun s₀ h₀ => ?_
  have hreq : Requests NumHandles s₀ := by
    rcases h₀ with h₀ | ⟨d, -, h₀⟩
    · exact h₀.requests
    · exact h₀.requests
  have hcomplete {s : GOPState σ} (hs : Same fw NumHandles s₀ s) : Complete fw NumHandles s := by
    rcases h₀ with h₀ | ⟨d, hd, h₀⟩
    · exact Or.inl (hs.configured h₀)
    · exact Or.inr ⟨d, hd, hs.configured h₀⟩
  refine triple_same fw hreq.used ?_
  refine Triple.bind (Triple.early (freeNames_same hfw) (Stops.mono fun s hs => hs.requests hreq)) fun GOPStatus => ?_
  refine Triple.read fun s _ => ?_
  have hunsupported : EFI_ERROR EFI_UNSUPPORTED = true := by decide
  exact Triple.ite (fun _ => Triple.throw fun s hs => ⟨hunsupported, hs.requests hreq⟩) fun _ =>
    Triple.pure fun s hs => hcomplete hs

end

/-- The variables once the devices are named: no key, and `mode` and the array
as they are left uninitialised. -/
def namedState (w : σ) (mode : UINT32) (DevNum timeout_seconds : UINT64) (Graphics : GraphicsArray) :
    GOPState σ where
  firmware := w
  Key := 0
  mode := mode
  DevNum := DevNum
  timeout_seconds := timeout_seconds
  Graphics := Graphics
  used := []
  calls := []
  stored := []

/-- The array as it is announced: as many entries as frame buffers, all
stored, each with its device's mode data after `SetMode`. -/
structure Filled (NumHandles : UINTN) (s : GOPState σ) : Prop where
  devices : s.calls.map (·.device) = allDevices NumHandles ∨ ∃ d < NumHandles, s.calls.map (·.device) = [d]
  count : s.Graphics.NumberOfFrameBuffers.toNat = s.calls.length
  size : s.Graphics.size = s.Graphics.NumberOfFrameBuffers * sizeofMode
  stored : s.stored = (List.range s.calls.length).map (BitVec.ofNat 64)
  entries : entries s.Graphics.GPUArray s.calls.length = s.calls.map (·.after)
  succeeded : ∀ c ∈ s.calls, EFI_ERROR c.status = false

theorem Configured.filled {fw : GraphicsFirmware σ} {NumHandles NumberOfFrameBuffers : UINTN} {ds : List UINT64}
    {s : GOPState σ} (h : Configured fw NumHandles NumberOfFrameBuffers ds s)
    (hds : ds = allDevices NumHandles ∨ ∃ d < NumHandles, ds = [d])
    (hlen : NumberOfFrameBuffers.toNat = ds.length) : Filled NumHandles s := by
  have hcalls : s.calls.length = ds.length := by rw [← h.devices, List.length_map]
  refine ⟨by rw [h.devices]; exact hds, ?_, ?_, ?_, ?_, h.succeeded⟩
  · rw [h.count, hlen, hcalls]
  · rw [h.size, h.count]
  · rw [hcalls]
    exact h.stored
  · rw [hcalls]
    exact h.entries

theorem Complete.filled {fw : GraphicsFirmware σ} {NumHandles : UINTN} {s : GOPState σ}
    (h : Complete fw NumHandles s) : Filled NumHandles s := by
  rcases h with h | ⟨d, hd, h⟩
  · exact h.filled (Or.inl rfl) (by rw [allDevices, List.length_map, List.length_range])
  · exact h.filled (Or.inr ⟨d, hd, rfl⟩) rfl

theorem Complete.requests {fw : GraphicsFirmware σ} {NumHandles : UINTN} {s : GOPState σ}
    (h : Complete fw NumHandles s) : Requests NumHandles s := by
  rcases h with h | ⟨d, -, h⟩
  · exact h.requests
  · exact h.requests

/-- **Only devices and modes that exist are requested, and the array is
filled.** For every firmware on which only `SetMode` changes mode data,
whatever it answers and whatever the keyboard delivers, with or without the
menu of a debug build: however a run ends or wherever it waits, every device
index is one of the handles and every mode set is below its device's
`MaxMode`; and if it returns without an error the array is filled. -/
theorem graphics_requests_exist (fw : GraphicsFirmware σ) (hfw : KeepsModes fw) (NumHandles : UINTN)
    (hN : 1 ≤ NumHandles.toNat) (w : σ) (hmax : ∀ d < NumHandles, 1 ≤ (fw.Mode w d).MaxMode.toNat)
    (DEBUG_PIOUS : Bool) (fuel : Nat) (mode : UINT32) (DevNum timeout_seconds : UINT64)
    (Graphics : GraphicsArray) :
    let r := configureGraphics fw NumHandles fuel DEBUG_PIOUS
      (namedState w mode DevNum timeout_seconds Graphics)
    Requests NumHandles (final r) ∧
      (∀ GOPStatus s, r = .ok GOPStatus s → Filled NumHandles s) ∧
      ∀ GOPStatus s, r = .error (.returned GOPStatus) s → EFI_ERROR GOPStatus = true := by
  intro r
  have hnamed : Named fw NumHandles (namedState w mode DevNum timeout_seconds Graphics) :=
    ⟨fun d hd => absurd hd List.not_mem_nil, rfl, rfl, hmax⟩
  have hspec : Triple (Named fw NumHandles) (configureGraphics fw NumHandles fuel DEBUG_PIOUS) _ _ :=
    configureGraphics_spec hfw hN DEBUG_PIOUS
  cases hr : r with
  | ok GOPStatus s =>
    have hcomplete := hspec.ok hnamed hr
    refine ⟨hcomplete.requests, fun GOPStatus' s' heq => ?_, fun GOPStatus' s' heq => ?_⟩
    · cases heq
      exact hcomplete.filled
    · cases heq
  | error e s =>
    have hstops := hspec.error hnamed hr
    refine ⟨hstops.2, fun GOPStatus' s' heq => ?_, fun GOPStatus' s' heq => ?_⟩
    · cases heq
    · cases heq
      exact hstops.1

/-! ## Two devices and a keyboard -/

/-- The keys to come, 0 for none in a second, and the modes that are set. -/
structure Desk where
  keys : List UINT16
  current : UINT64 → UINT32

def deskInfo : MODE_INFORMATION := ⟨0, 1024, 768, 0, (0, 0, 0, 0), 1024⟩

/-- Every device has three modes. -/
def desk : GraphicsFirmware Desk where
  Mode w d := ⟨3, w.current d, deskInfo, 36, 0x80000000, 0x300000⟩
  OpenProtocol _ w := (EFI_SUCCESS, w)
  QueryMode _ _ w := ((EFI_SUCCESS, deskInfo), w)
  SetMode d mode w := (EFI_SUCCESS, { w with current := Function.update w.current d mode })
  AllocatePool _ w := (EFI_SUCCESS, w)
  poolContents _ _ := ⟨0, 0, deskInfo, 0, 0, 0⟩
  FreePool w := (EFI_SUCCESS, w)
  WaitForSingleEvent w :=
    match w.keys with
    | 0 :: keys => (EFI_TIMEOUT, { w with keys := keys })
    | _ => (EFI_SUCCESS, w)
  ReadKeyStroke Key w :=
    match w.keys with
    | 0 :: keys => ((EFI_NOT_READY, Key), { w with keys := keys })
    | key :: keys => ((EFI_SUCCESS, key), { w with keys := keys })
    | [] => ((EFI_NOT_READY, Key), w)
  Reset w := (EFI_SUCCESS, w)

theorem desk_keepsModes : KeepsModes desk where
  openProtocol _ _ := rfl
  queryMode _ _ _ := rfl
  setMode _ _ _ _ := rfl
  allocatePool _ _ := rfl
  freePool _ := rfl
  waitForSingleEvent w := by
    obtain ⟨keys, current⟩ := w
    simp only [desk]
    split <;> rfl
  readKeyStroke _ w := by
    obtain ⟨keys, current⟩ := w
    simp only [desk]
    split <;> rfl
  reset _ := rfl

/-- The key `9`, a second without a key, `1` for one device; `7`, then device
`1`; `9`, then mode `2`. -/
def deskKeys : List UINT16 := [0x39, 0, 0x31, 0x37, 0x31, 0x39, 0x32]

/-- The status of a run that ends, and what it set. -/
def outcomeOf : EStateM.Result GOPExit (GOPState σ) EFI_STATUS → Option (EFI_STATUS × List (UINT64 × UINT32))
  | .ok GOPStatus s => some (GOPStatus, s.calls.map fun c => (c.device, c.mode))
  | .error _ _ => none

def deskRun : EStateM.Result GOPExit (GOPState Desk) EFI_STATUS :=
  configureGraphics desk 2 4 true
    (namedState ⟨deskKeys, fun _ => 0⟩ 7 2 0 ⟨0, fun _ => ⟨0, 0, deskInfo, 0, 0, 0⟩, 0⟩)

theorem deskRun_outcome : outcomeOf deskRun = some (EFI_SUCCESS, [(1, 2)]) := by decide +kernel

/-- Device 1 is set to mode 2, in spite of three keys that are out of range. -/
theorem graphics_requests_exist_desk :
    ∃ s, deskRun = .ok EFI_SUCCESS s ∧ s.calls.map (fun c => (c.device, c.mode)) = [(1, 2)] ∧ Filled 2 s := by
  obtain ⟨-, hfilled, -⟩ := graphics_requests_exist desk desk_keepsModes 2 (by decide) ⟨deskKeys, fun _ => 0⟩
    (fun _ _ => (by decide : 1 ≤ (3 : UINT32).toNat)) true 4 7 2 0 ⟨0, fun _ => ⟨0, 0, deskInfo, 0, 0, 0⟩, 0⟩
  have houtcome := deskRun_outcome
  cases hrun : deskRun with
  | ok GOPStatus s =>
    rw [hrun] at houtcome
    obtain ⟨hstatus, hcalls⟩ := Prod.mk.inj (Option.some.inj houtcome)
    exact ⟨s, by rw [hstatus], hcalls, hfilled GOPStatus s hrun⟩
  | error e s =>
    rw [hrun] at houtcome
    cases houtcome

end PiousOS.Loader
