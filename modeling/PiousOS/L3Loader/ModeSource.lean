import PiousOS.L3Loader.EfiMain

/-!
# Where the mode data comes from

The second half of `InitUEFI_GOP` adds to the calls of `SetMode` in `setMode`
only. What each new call satisfies, therefore, all of them do, however the run
ends (`configureGraphics_keepsCalls`).

* `entry_fromFirmware`: the first entry of a full array is the mode data of a
  device after a `SetMode` that succeeded, as the firmware showed it.
-/
namespace PiousOS.Loader
open EarlyExit

variable {σ α : Type}

/-- The invariant is about the calls of `SetMode`. -/
def CallsOnly (I : GOPState σ → Prop) : Prop := ∀ s s', s'.calls = s.calls → I s → I s'

section
variable {fw : GraphicsFirmware σ} {NumHandles : UINTN} {fuel : Nat} {I : GOPState σ → Prop} (hI : CallsOnly I)
include hI

theorem modify_keepsCalls {f : GOPState σ → GOPState σ} (h : ∀ s, (f s).calls = s.calls) :
    Keeps I (modify f) :=
  Triple.modify fun s hs => hI s (f s) (h s) hs

theorem callGOP_keepsCalls (service : σ → α × σ) : Keeps I (callGOP service) := fun s hs => hI s _ rfl hs

theorem callCheckedGOP_keepsCalls (service : σ → EFI_STATUS × σ) : Keeps I (callCheckedGOP service) :=
  (callGOP_keepsCalls hI service).bind keeps_check

theorem readKeyStroke_keepsCalls : Keeps I (readKeyStroke fw) := fun s hs => hI s _ rfl hs

theorem pollKey_keepsCalls : Keeps I (pollKey fw fuel) :=
  keeps_loop ((readKeyStroke_keepsCalls hI).bind fun _ => KeepsInv.pure _)

theorem awaitKey_keepsCalls : Keeps I (awaitKey fw fuel) := by
  refine keeps_loop (Triple.read fun s _ => Triple.ite (fun _ => KeepsInv.pure _) fun _ => ?_)
  refine (callGOP_keepsCalls hI _).bind fun GOPStatus => Triple.ite (fun _ => ?_) fun _ => ?_
  · exact (readKeyStroke_keepsCalls hI).bind fun _ => (keeps_check _).bind fun _ => KeepsInv.pure _
  · exact KeepsInv.bind (modify_keepsCalls hI fun _ => rfl) fun _ => KeepsInv.pure _

/-! ## Menus -/

theorem deviceOptionMenu_keepsCalls : Keeps I (deviceOptionMenu fw NumHandles fuel) := by
  refine KeepsInv.bind (keeps_loop (Triple.read fun s _ => Triple.ite (fun _ => ?_) fun _ => KeepsInv.pure _))
    fun _ => ?_
  · refine KeepsInv.bind (modify_keepsCalls hI fun _ => rfl) fun _ => (awaitKey_keepsCalls hI).bind fun _ => ?_
    exact Triple.read fun _ _ => KeepsInv.pure _
  · refine KeepsInv.bind (modify_keepsCalls hI fun s => ?_) fun _ => KeepsInv.bind (modify_keepsCalls hI fun _ => rfl) fun _ =>
      callCheckedGOP_keepsCalls hI _
    split <;> rfl

theorem selectOption_keepsCalls (DEBUG_PIOUS : Bool) : Keeps I (selectOption fw NumHandles fuel DEBUG_PIOUS) := by
  refine KeepsInv.ite (fun _ => KeepsInv.bind (modify_keepsCalls hI fun _ => rfl) fun _ => ?_) fun _ => KeepsInv.pure _
  exact KeepsInv.ite (fun _ => deviceOptionMenu_keepsCalls hI) fun _ => KeepsInv.pure _

theorem listModes_keepsCalls (GOPTable : UINT64) : Keeps I (listModes fw fuel GOPTable) := by
  refine KeepsInv.bind (modify_keepsCalls hI fun _ => rfl) fun _ => keeps_loop (Triple.read fun s _ => ?_)
  refine Triple.ite (fun _ => ?_) fun _ => KeepsInv.pure _
  refine (callGOP_keepsCalls hI _).bind fun _ => (keeps_check _).bind fun _ => ?_
  refine (callCheckedGOP_keepsCalls hI _).bind fun _ => ?_
  exact KeepsInv.bind (modify_keepsCalls hI fun _ => rfl) fun _ => KeepsInv.pure _

theorem selectMode_keepsCalls (GOPTable : UINT64) : Keeps I (selectMode fw fuel GOPTable) := by
  refine Triple.read fun s _ => Triple.ite (fun _ => modify_keepsCalls hI fun _ => rfl) fun _ => ?_
  refine KeepsInv.bind (keeps_loop (Triple.read fun s _ => Triple.ite (fun _ => ?_) fun _ => KeepsInv.pure _))
    fun _ => modify_keepsCalls hI fun _ => rfl
  refine KeepsInv.bind (modify_keepsCalls hI fun _ => rfl) fun _ => (listModes_keepsCalls hI GOPTable).bind fun _ => ?_
  exact (pollKey_keepsCalls hI).bind fun _ => KeepsInv.pure _

theorem selectModeTimed_keepsCalls (GOPTable : UINT64) : Keeps I (selectModeTimed fw fuel GOPTable) := by
  refine Triple.read fun s _ => Triple.ite (fun _ => modify_keepsCalls hI fun _ => rfl) fun _ => ?_
  refine KeepsInv.bind (modify_keepsCalls hI fun _ => rfl) fun _ => KeepsInv.bind (keeps_loop (Triple.read fun s _ =>
    Triple.ite (fun _ => ?_) fun _ => KeepsInv.pure _)) fun _ => ?_
  · refine KeepsInv.bind (modify_keepsCalls hI fun _ => rfl) fun _ => (listModes_keepsCalls hI GOPTable).bind fun _ => ?_
    refine (awaitKey_keepsCalls hI).bind fun _ => Triple.read fun s _ => Triple.ite (fun _ => ?_) fun _ =>
      KeepsInv.pure _
    exact KeepsInv.bind (modify_keepsCalls hI fun _ => rfl) fun _ => KeepsInv.pure _
  · refine KeepsInv.bind (modify_keepsCalls hI fun s => ?_) fun _ => modify_keepsCalls hI fun _ => rfl
    split <;> rfl

theorem find1024x768_keepsCalls (GOPTable : UINT64) : Keeps I (find1024x768 fw fuel GOPTable) := by
  refine KeepsInv.bind (modify_keepsCalls hI fun _ => rfl) fun _ => KeepsInv.bind (keeps_loop (Triple.read fun s _ =>
    Triple.ite (fun _ => ?_) fun _ => KeepsInv.pure _)) fun _ => modify_keepsCalls hI fun s => ?_
  · refine (callGOP_keepsCalls hI _).bind fun _ => (keeps_check _).bind fun _ => ?_
    refine (callCheckedGOP_keepsCalls hI _).bind fun _ => Triple.ite (fun _ => KeepsInv.pure _) fun _ => ?_
    exact KeepsInv.bind (modify_keepsCalls hI fun _ => rfl) fun _ => KeepsInv.pure _
  · split <;> rfl

theorem selectDevice_keepsCalls : Keeps I (selectDevice fw NumHandles fuel) := by
  refine KeepsInv.bind (keeps_loop (Triple.read fun s _ => Triple.ite (fun _ => ?_) fun _ => KeepsInv.pure _))
    fun _ => modify_keepsCalls hI fun _ => rfl
  exact KeepsInv.bind (modify_keepsCalls hI fun _ => rfl) fun _ => (pollKey_keepsCalls hI).bind fun _ => KeepsInv.pure _

/-! ## Configuring -/

theorem allocateArray_keepsCalls (NumberOfFrameBuffers : UINT64) : Keeps I (allocateArray fw NumberOfFrameBuffers) :=
  KeepsInv.bind (modify_keepsCalls hI fun _ => rfl) fun _ => (callCheckedGOP_keepsCalls hI _).bind fun _ =>
    modify_keepsCalls hI fun _ => rfl

theorem openDevice_keepsCalls : Keeps I (openDevice fw) :=
  Triple.read fun _ _ => KeepsInv.bind (modify_keepsCalls hI fun _ => rfl) fun _ =>
    (callCheckedGOP_keepsCalls hI _).bind fun _ => KeepsInv.pure _

theorem storeMode_keepsCalls (GOPTable : UINT64) : Keeps I (storeMode fw GOPTable) :=
  Triple.read fun _ _ => (callCheckedGOP_keepsCalls hI _).bind fun _ => modify_keepsCalls hI fun _ => rfl

theorem forDevices_keepsCalls {body : GOP σ Unit} (hbody : Keeps I body) : Keeps I (forDevices NumHandles fuel body) := by
  refine KeepsInv.bind (modify_keepsCalls hI fun _ => rfl) fun _ => keeps_loop (Triple.read fun s _ => ?_)
  refine Triple.ite (fun _ => hbody.bind fun _ => ?_) fun _ => KeepsInv.pure _
  exact KeepsInv.bind (modify_keepsCalls hI fun _ => rfl) fun _ => KeepsInv.pure _

theorem freeNames_keepsCalls : Keeps I (freeNames fw NumHandles) := by
  have hfree : Keeps I (callCheckedGOP fw.FreePool) := callCheckedGOP_keepsCalls hI _
  refine KeepsInv.bind (Triple.forM fun i hi => ?_) fun _ => hfree.bind fun _ => ?_
  · exact KeepsInv.bind (modify_keepsCalls hI fun _ => rfl) fun _ => hfree
  · exact (callGOP_keepsCalls hI _).bind fun GOPStatus => (keeps_check GOPStatus).bind fun _ => KeepsInv.pure GOPStatus

variable (hset : ∀ GOPTable, Keeps I (setMode fw GOPTable))
include hset

/-- A device is opened, its mode selected, set and stored. -/
theorem configureDevice_keepsCalls {select : UINT64 → GOP σ Unit} (hselect : ∀ GOPTable, Keeps I (select GOPTable))
    {rest : UINT64 → GOP σ Unit} (hrest : ∀ GOPTable, Keeps I (rest GOPTable)) :
    Keeps I (do
      let GOPTable ← openDevice fw
      select GOPTable
      let GOPStatus ← setMode fw GOPTable
      checkGOP GOPStatus
      rest GOPTable) :=
  (openDevice_keepsCalls hI).bind fun GOPTable => (hselect GOPTable).bind fun _ => (hset GOPTable).bind fun GOPStatus =>
    (keeps_check GOPStatus).bind fun _ => hrest GOPTable

theorem configureAll_keepsCalls {select : UINT64 → GOP σ Unit} (hselect : ∀ GOPTable, Keeps I (select GOPTable)) :
    Keeps I (do
      allocateArray fw NumHandles
      forDevices NumHandles fuel (do
        let GOPTable ← openDevice fw
        select GOPTable
        let GOPStatus ← setMode fw GOPTable
        checkGOP GOPStatus
        storeMode fw GOPTable)) :=
  (allocateArray_keepsCalls hI _).bind fun _ => forDevices_keepsCalls hI
    (configureDevice_keepsCalls hI hset hselect (storeMode_keepsCalls hI))

theorem configure_keepsCalls : Keeps I (configure fw NumHandles fuel) := by
  refine Triple.read fun s _ => ?_
  refine Triple.ite (fun _ => configureAll_keepsCalls hI hset (selectMode_keepsCalls hI)) fun _ => ?_
  refine Triple.ite (fun _ => ?_) fun _ => ?_
  · exact (allocateArray_keepsCalls hI _).bind fun _ => (selectDevice_keepsCalls hI).bind fun _ =>
      configureDevice_keepsCalls hI hset (selectMode_keepsCalls hI) fun GOPTable =>
        KeepsInv.bind (modify_keepsCalls hI fun _ => rfl) fun _ => storeMode_keepsCalls hI GOPTable
  refine Triple.ite (fun _ => ?_) fun _ => ?_
  · exact configureAll_keepsCalls hI hset fun _ => modify_keepsCalls hI fun _ => rfl
  refine Triple.ite (fun _ => configureAll_keepsCalls hI hset (find1024x768_keepsCalls hI)) fun _ => ?_
  exact (allocateArray_keepsCalls hI _).bind fun _ => KeepsInv.bind (modify_keepsCalls hI fun _ => rfl) fun _ =>
    configureDevice_keepsCalls hI hset (selectModeTimed_keepsCalls hI) (storeMode_keepsCalls hI)

theorem configureGraphics_keepsCalls (DEBUG_PIOUS : Bool) :
    Keeps I (configureGraphics fw NumHandles fuel DEBUG_PIOUS) := by
  have hunsupported : EFI_ERROR EFI_UNSUPPORTED = true := by decide
  refine (selectOption_keepsCalls hI DEBUG_PIOUS).bind fun _ => (configure_keepsCalls hI hset).bind fun _ => ?_
  refine (freeNames_keepsCalls hI).bind fun GOPStatus => Triple.read fun s _ => ?_
  exact Triple.ite (fun _ => KeepsInv.throw hunsupported) fun _ => KeepsInv.pure GOPStatus

end

/-! ## The calls are of the firmware -/

/-- The mode data after each call is what the firmware showed of the device. -/
def FromFirmware (fw : GraphicsFirmware σ) (s : GOPState σ) : Prop :=
  ∀ c ∈ s.calls, ∃ w, c.after = fw.Mode w c.device

section
variable {fw : GraphicsFirmware σ}

theorem fromFirmware_callsOnly : CallsOnly (FromFirmware fw) := fun _ _ hcalls hs c hc => hs c (hcalls ▸ hc)

theorem setMode_fromFirmware (GOPTable : UINT64) : Keeps (FromFirmware fw) (setMode fw GOPTable) := by
  intro s hs c hc
  cases List.mem_append.mp hc with
  | inl hold => exact hs c hold
  | inr hnew =>
    obtain rfl := List.mem_singleton.mp hnew
    exact ⟨_, rfl⟩

/-- The first entry of a full array is of a device set to it. -/
theorem entry_fromFirmware {NumHandles : UINTN} {s : GOPState σ} (hfilled : Filled NumHandles s)
    (hN : 1 ≤ NumHandles.toNat) (hfrom : FromFirmware fw s) :
    ∃ c ∈ s.calls, EFI_ERROR c.status = false ∧ s.Graphics.GPUArray 0 = c.after ∧ ∃ w, c.after = fw.Mode w c.device := by
  have hentries := hfilled.entries
  have hsome : 0 < s.calls.length := by
    have hlen : (s.calls.map (·.device)).length = s.calls.length := List.length_map _
    rcases hfilled.devices with hall | ⟨d, -, hone⟩
    · rw [← hlen, hall, allDevices, List.length_map, List.length_range]
      exact hN
    · rw [← hlen, hone]
      exact Nat.one_pos
  obtain ⟨c, rest, hcalls⟩ := List.exists_cons_of_length_pos hsome
  rw [hcalls, entries, List.length_cons, List.range_succ_eq_map, List.map_cons, List.map_cons] at hentries
  have hmem : c ∈ s.calls := hcalls ▸ List.mem_cons_self
  exact ⟨c, hmem, hfilled.succeeded c hmem, (List.cons.inj hentries).1, hfrom c hmem⟩

end

end PiousOS.Loader
