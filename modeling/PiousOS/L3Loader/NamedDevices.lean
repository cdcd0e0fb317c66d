import PiousOS.L3Loader.DeviceNames

/-!
# What naming the devices leaves behind

Nothing is assumed of the firmware. The searches only change names, so the
account of a run is that of its loop over the devices (`nameAll_spec`), and
`nameDevices_spec` adds the calls around it.

Results:
* `every_device_stored_once`: which lines are stored, in which order.
* `naming_pools_exact`: the pools held at the end and at every early return.
* `managed_opens_closed`: no controller stays open by driver.
-/
namespace PiousOS.Loader
open EarlyExit

variable {σ α β : Type}

/-! ## The searches -/

def At (a : NamingAccount) (s : NamingState σ) : Prop := s.account = a

/-- The calls made for a single device. -/
def NamingCall.inLoop : NamingCall → Bool
  | .openGraphics | .openController | .closeManaged | .openName2 | .openAnyController | .openAnyName2 => true
  | _ => false

/-- How a search leaves an account: as it was, but for a controller that could
not be closed. -/
structure Leaves (a : NamingAccount) (e : NamingExit) (s : NamingState σ) : Prop where
  error : EFI_ERROR e.GOPStatus = true
  inLoop : e.failed.inLoop = true
  kept : e.failed ≠ .closeManaged → s.account = a
  unclosed : e.failed = .closeManaged → ∃ m, s.account = { a with managed := a.managed.take m }

section
variable {a : NamingAccount} {fw : NameFirmware σ} {d : NameData} {E : NamingExit → NamingState σ → Prop}

theorem callNaming_at (service : σ → α × σ) : Triple (At a) (callNaming service) (fun _ => At a) E :=
  fun _ hs => hs

theorem checkNaming_at (failed : NamingCall) (GOPStatus : EFI_STATUS) :
    Triple (At a) (checkNaming failed GOPStatus) (fun _ (s : NamingState σ) => EFI_ERROR GOPStatus = false ∧ At a s)
      fun e s => e = ⟨failed, GOPStatus⟩ ∧ EFI_ERROR GOPStatus = true ∧ At a s :=
  Triple.ite (fun he => Triple.throw fun _ hs => ⟨rfl, he, hs⟩)
    fun he => Triple.pure fun _ hs => ⟨by simpa using he, hs⟩

theorem record_at (change : NamingAccount → NamingAccount) :
    Triple (At a) (record change) (fun _ => At (change a) (σ := σ)) E :=
  fun s hs => congrArg change (show s.account = a from hs)

/-- A check in the loop. -/
theorem checkNaming_leaves {failed : NamingCall} (hloop : failed.inLoop = true) (hclose : failed ≠ .closeManaged)
    (GOPStatus : EFI_STATUS) :
    Triple (At a) (checkNaming failed GOPStatus) (fun _ (s : NamingState σ) => EFI_ERROR GOPStatus = false ∧ At a s)
      (Leaves a) := by
  refine Triple.early (checkNaming_at failed GOPStatus) fun e s hs => ?_
  obtain ⟨rfl, he, hs⟩ := hs
  exact ⟨he, hloop, fun _ => hs, fun h => absurd h hclose⟩

theorem testProtocol_at (Handle : EFI_HANDLE) (protocol : Protocol) :
    Triple (At a) (testProtocol fw Handle protocol) (fun _ => At a) E :=
  Triple.bind (callNaming_at _) fun _ => Triple.pure fun _ hs => hs

theorem skipController_at (Controller : EFI_HANDLE) :
    Triple (At a) (skipController fw Controller) (fun _ => At a) E := by
  refine Triple.bind (testProtocol_at _ _) fun _ => Triple.ite (fun _ => Triple.pure fun _ hs => hs) fun _ => ?_
  refine Triple.bind (testProtocol_at _ _) fun _ => Triple.ite (fun _ => Triple.pure fun _ hs => hs) fun _ => ?_
  exact testProtocol_at _ _

theorem getProtocol_leaves {failed : NamingCall} (hloop : failed.inLoop = true) (hclose : failed ≠ .closeManaged)
    (Handle : EFI_HANDLE) (protocol : Protocol) :
    Triple (At a) (getProtocol fw d failed Handle protocol) (fun _ => At a) (Leaves a) :=
  Triple.bind (callNaming_at _) fun _ => Triple.bind (checkNaming_leaves hloop hclose _) fun _ =>
    Triple.pure fun _ hs => hs.2

theorem inLanguages_at (get : Language → UINT64 → σ → (EFI_STATUS × UINT64) × σ) (default old : UINT64) :
    Triple (At a) (inLanguages get default old) (fun _ => At a) E := by
  refine Triple.bind (R := fun _ => At a) ?_ fun _ => Triple.pure fun _ hs => hs
  refine Triple.bind (callNaming_at _) fun r => Triple.ite (fun _ => ?_) fun _ => Triple.pure fun _ hs => hs
  refine Triple.bind (callNaming_at _) fun r => ?_
  exact Triple.ite (fun _ => callNaming_at _) fun _ => Triple.pure fun _ hs => hs

theorem getDriverName_at (Name2Device : UINT64) :
    Triple (At a) (getDriverName fw d Name2Device) (fun _ => At a) E :=
  Triple.read fun _ _ => Triple.bind (inLanguages_at _ _ _) fun _ =>
    Triple.bind (R := fun _ => At a) (Triple.modify fun _ hs => hs) fun _ => Triple.pure fun _ hs => hs

theorem getControllerName_at (Name2Device : UINT64) (Controller : EFI_HANDLE) :
    Triple (At a) (getControllerName fw d Name2Device Controller) (fun _ => At a) E :=
  Triple.read fun _ _ => Triple.bind (inLanguages_at _ _ _) fun _ => Triple.modify fun _ hs => hs

theorem getChildName_at (Name2Device : UINT64) (Controller GraphicsHandle : EFI_HANDLE) :
    Triple (At a) (getChildName fw d Name2Device Controller GraphicsHandle) (fun _ => At a) E :=
  Triple.read fun _ _ => Triple.bind (inLanguages_at _ _ _) fun _ => Triple.modify fun _ hs => hs

theorem checkWall_at (answered : Bool) : Triple (At a) (checkWall fw d answered) (fun _ => At a) E :=
  Triple.ite (fun _ _ hs => hs) fun _ => Triple.pure fun _ hs => hs

theorem closeManaged_at (ha : a.managed = .empty) (Controller Driver : EFI_HANDLE) :
    Triple (At { a with managed := a.managed.take (Controller, Driver) }) (closeManaged fw Controller Driver)
      (fun _ => At a) (Leaves a) := by
  have hclosed : { a with managed := (a.managed.take (Controller, Driver)).give (Controller, Driver) } = a := by
    rw [ha, Holdings.empty, Holdings.give_take, ← Holdings.empty, ← ha]
  refine Triple.bind (callNaming_at _) fun GOPStatus => ?_
  refine Triple.bind (Triple.early (checkNaming_at _ GOPStatus) fun e s hs => ?_) fun _ => Triple.assume fun _ => ?_
  · obtain ⟨rfl, he, hs⟩ := hs
    exact ⟨he, rfl, fun h => absurd rfl h, fun _ => ⟨_, hs⟩⟩
  · exact Triple.post (record_at _) fun _ s hs => Eq.trans hs hclosed

/-- A controller that is opened by a driver is closed, or its close failed. -/
theorem tryManager_at (ha : a.managed = .empty) (GraphicsHandle Controller Driver : EFI_HANDLE) :
    Triple (At a) (tryManager fw d GraphicsHandle Controller Driver) (fun _ => At a) (Leaves a) := by
  refine Triple.bind (callNaming_at _) fun r => Triple.ite (fun _ => ?_) fun _ => ?_
  · refine Triple.bind (record_at _) fun _ => Triple.bind (closeManaged_at ha _ _) fun _ => ?_
    exact Triple.pure fun _ hs => hs
  · refine Triple.ite (fun _ => Triple.pure fun _ hs => hs) fun _ => ?_
    refine Triple.bind (getProtocol_leaves rfl (by decide) _ _) fun Name2Device => ?_
    refine Triple.bind (getDriverName_at _) fun _ => Triple.bind (getControllerName_at _ _) fun _ => ?_
    exact Triple.bind (getChildName_at _ _ _) fun _ => Triple.pure fun _ hs => hs

theorem searchLoop_at {ι : Type} {body : ι → Naming σ Bool} {l : List ι}
    (h : ∀ i, Triple (At a) (body i) (fun _ => At a) (Leaves a)) :
    Triple (At a) (searchLoop body l) (fun _ => At a) (Leaves a) := by
  refine triple_searchLoop (I := fun _ => At a) (fun i _ _ => ?_) fun _ hs => hs
  refine Triple.post (h i) fun stop s hs => ?_
  split <;> exact hs

theorem tryController_at (ha : a.managed = .empty) (Name2Handles : HandleBuffer) (GraphicsHandle : EFI_HANDLE)
    (DevicePath_Graphics : UINT64) (CntlrPathSize : UINTN) (Controller : EFI_HANDLE) :
    Triple (At a) (tryController fw d Name2Handles GraphicsHandle DevicePath_Graphics CntlrPathSize Controller)
      (fun _ => At a) (Leaves a) := by
  refine Triple.bind (skipController_at _) fun _ => Triple.ite (fun _ => Triple.pure fun _ hs => hs) fun _ => ?_
  refine Triple.bind (getProtocol_leaves rfl (by decide) _ _) fun DevicePath_DevPath => Triple.read fun s _ => ?_
  refine Triple.ite (fun _ => Triple.pure fun _ hs => hs) fun _ => ?_
  refine Triple.ite (fun _ => ?_) fun _ => Triple.pure fun _ hs => hs
  exact Triple.bind (searchLoop_at fun _ => tryManager_at ha _ _ _) fun _ => Triple.pure fun _ hs => hs

theorem tryDriver_at (GraphicsHandle Controller Driver : EFI_HANDLE) :
    Triple (At a) (tryDriver fw d GraphicsHandle Controller Driver) (fun _ => At a) (Leaves a) := by
  refine Triple.bind (getProtocol_leaves rfl (by decide) _ _) fun Name2Device => ?_
  refine Triple.bind (getDriverName_at _) fun answered => Triple.bind (checkWall_at answered) fun shamed => ?_
  refine Triple.ite (fun _ => Triple.pure fun _ hs => hs) fun _ => ?_
  refine Triple.bind (getControllerName_at _ _) fun _ => Triple.bind (getChildName_at _ _ _) fun _ => ?_
  exact Triple.read fun _ _ => Triple.pure fun _ hs => hs

theorem tryAnyController_at (Name2Handles : HandleBuffer) (GraphicsHandle : EFI_HANDLE)
    (DevicePath_Graphics : UINT64) (Controller : EFI_HANDLE) :
    Triple (At a) (tryAnyController fw d Name2Handles GraphicsHandle DevicePath_Graphics Controller)
      (fun _ => At a) (Leaves a) := by
  refine Triple.bind (skipController_at _) fun _ => Triple.ite (fun _ => Triple.pure fun _ hs => hs) fun _ => ?_
  refine Triple.bind (getProtocol_leaves rfl (by decide) _ _) fun DevicePath_DevPath => Triple.read fun s _ => ?_
  refine Triple.ite (fun _ => ?_) fun _ => Triple.pure fun _ hs => hs
  refine Triple.bind (searchLoop_at fun _ => tryDriver_at _ _ _) fun _ => ?_
  exact Triple.read fun _ _ => Triple.pure fun _ hs => hs

theorem findNames_at (ha : a.managed = .empty) (Name2Handles DevPathHandles : HandleBuffer)
    (GraphicsHandle : EFI_HANDLE) (DevicePath_Graphics : UINT64) :
    Triple (At a) (findNames fw d Name2Handles DevPathHandles GraphicsHandle DevicePath_Graphics)
      (fun _ => At a) (Leaves a) := by
  refine Triple.read fun _ _ => Triple.bind (searchLoop_at fun _ => tryController_at ha _ _ _ _ _) fun _ => ?_
  refine Triple.read fun _ _ => Triple.ite (fun _ => ?_) fun _ => Triple.pure fun _ hs => hs
  exact searchLoop_at fun _ => tryAnyController_at _ _ _ _

end

/-! ## One device -/

/-- Whether a line carries names, its number and its handle. -/
def NameLine.subject : NameLine → Bool × UINT64 × EFI_HANDLE
  | .named number _ _ handle _ => (true, number, handle)
  | .unknown number handle => (false, number, handle)

/-- The index of the entry and the subject of the line, for a device whose
path was opened with `GOPStatus`. -/
def entryFor (GraphicsHandles : HandleBuffer) (DevNum : UINT64) (GOPStatus : EFI_STATUS) :
    Option (UINT64 × Bool × UINT64 × EFI_HANDLE) :=
  if GOPStatus = EFI_SUCCESS then some (DevNum, true, DevNum + 0x30, GraphicsHandles.handles DevNum)
  else if GOPStatus = EFI_UNSUPPORTED then some (DevNum, false, DevNum + 0x30, GraphicsHandles.handles DevNum)
  else none

/-- The pools of the lines. -/
def strings (stored : List NameEntry) : List (PoolVariable × UINT64) :=
  (stored.filter fun e => e.str ≠ 0).map fun e => (.StringName e.DevNum, e.str)

/-- The account once the devices in `done` are listed. -/
structure Listed (GraphicsHandles : HandleBuffer) (base : List (PoolVariable × UINT64)) (done : List UINT64)
    (a : NamingAccount) : Prop where
  answered : a.answers.length = done.length
  usable : ∀ GOPStatus ∈ a.answers, EFI_ERROR GOPStatus = true → GOPStatus = EFI_UNSUPPORTED
  stored : a.stored.map (fun e => (e.DevNum, e.line.subject)) =
    (done.zip a.answers).filterMap fun p => entryFor GraphicsHandles p.1 p.2
  pools : a.pools = ⟨base ++ strings a.stored, []⟩
  managed : a.managed = .empty

theorem strings_append (stored : List NameEntry) (e : NameEntry) :
    strings (stored ++ [e]) = strings stored ++ if e.str = 0 then [] else [(.StringName e.DevNum, e.str)] := by
  rw [strings, List.filter_append, List.map_append, ← strings]
  by_cases h : e.str = 0
  · rw [if_pos h, List.filter_cons_of_neg (by simpa using h)]
    rfl
  · rw [if_neg h, List.filter_cons_of_pos (by simpa using h)]
    rfl

section
variable {a : NamingAccount} {fw : NameFirmware σ} {d : NameData} {E : NamingExit → NamingState σ → Prop}
  {G Name2Handles DevPathHandles : HandleBuffer} {base : List (PoolVariable × UINT64)} {done : List UINT64}
  {DevNum : UINT64} {GOPStatus : EFI_STATUS}

theorem storeName_at (DevNum : UINT64) (line : NameLine) :
    Triple (At a) (storeName fw DevNum line) (fun _ s => ∃ str, At (a.store ⟨DevNum, line, str⟩) s) E :=
  Triple.bind (callNaming_at _) fun str => Triple.post (record_at _) fun _ _ hs => ⟨str, hs⟩

theorem Listed.empty (l : List (PoolVariable × UINT64)) : Listed G l [] ⟨[], [], ⟨l, []⟩, .empty⟩ where
  answered := rfl
  usable _ h := absurd h List.not_mem_nil
  stored := rfl
  pools := by rw [strings, List.filter_nil, List.map_nil, List.append_nil]
  managed := rfl

/-- The answer of one more device, whose entry is `entry`. -/
theorem Listed.stored_answer (h : Listed G base done a) {entry : Option (UINT64 × Bool × UINT64 × EFI_HANDLE)}
    (hentry : entryFor G DevNum GOPStatus = entry) :
    ((done ++ [DevNum]).zip (a.answers ++ [GOPStatus])).filterMap (fun p => entryFor G p.1 p.2) =
      a.stored.map (fun e => (e.DevNum, e.line.subject)) ++ entry.toList := by
  rw [List.zip_append h.answered.symm, List.filterMap_append, ← h.stored, ← hentry]
  cases hfor : entryFor G DevNum GOPStatus with
  | none => simp [hfor]
  | some e => simp [hfor]

/-- A device without an entry. -/
theorem Listed.skip (h : Listed G base done a) (herr : EFI_ERROR GOPStatus = false)
    (hentry : entryFor G DevNum GOPStatus = none) : Listed G base (done ++ [DevNum]) (a.answer GOPStatus) where
  answered := by simp [NamingAccount.answer, h.answered]
  usable st hst he := by
    rcases List.mem_append.mp hst with hst | hst
    · exact h.usable st hst he
    · rw [List.mem_singleton.mp hst, herr] at he
      cases he
  stored := by
    rw [NamingAccount.answer, h.stored_answer hentry]
    exact (List.append_nil _).symm
  pools := h.pools
  managed := h.managed

/-- A device with its entry. -/
theorem Listed.store (h : Listed G base done a) (hst : GOPStatus = EFI_SUCCESS ∨ GOPStatus = EFI_UNSUPPORTED)
    {line : NameLine} (hentry : entryFor G DevNum GOPStatus = some (DevNum, line.subject)) (str : UINT64) :
    Listed G base (done ++ [DevNum]) ((a.answer GOPStatus).store ⟨DevNum, line, str⟩) where
  answered := by simp [NamingAccount.answer, NamingAccount.store, h.answered]
  usable st hmem he := by
    rcases List.mem_append.mp hmem with hmem | hmem
    · exact h.usable st hmem he
    · rw [List.mem_singleton.mp hmem] at he ⊢
      rcases hst with rfl | rfl
      · rw [EFI_ERROR_success] at he
        cases he
      · rfl
  stored := by
    rw [NamingAccount.store, NamingAccount.answer, h.stored_answer hentry, List.map_append]
    rfl
  pools := by
    show (if str = 0 then a.pools else a.pools.take (.StringName DevNum, str)) =
      ⟨base ++ strings (a.stored ++ [⟨DevNum, line, str⟩]), []⟩
    rw [strings_append, ← List.append_assoc, h.pools]
    split
    · rw [List.append_nil]
    · rfl
  managed := h.managed

/-- How the loop over the devices is left: in the middle of one device, after
it has answered. -/
def LeftLoop (G : HandleBuffer) (base : List (PoolVariable × UINT64)) (e : NamingExit) (s : NamingState σ) : Prop :=
  ∃ done a GOPStatus, done <+: G.indices ∧ Listed G base done a ∧ Leaves (a.answer GOPStatus) e s

theorem nameDevice_spec (hdone : done ++ [DevNum] <+: G.indices) :
    Triple (fun s => Listed G base done s.account) (nameDevice fw d G Name2Handles DevPathHandles DevNum)
      (fun _ s => Listed G base (done ++ [DevNum]) s.account) (LeftLoop G base) := by
  refine Triple.start fun s₀ h₀ => Triple.pre (P := At s₀.account) ?_ fun s hs => congrArg NamingState.account hs
  have hleft : ∀ GOPStatus e s, Leaves (s₀.account.answer GOPStatus) e s → LeftLoop G base e (s : NamingState σ) :=
    fun GOPStatus e s hs => ⟨done, s₀.account, GOPStatus, (List.prefix_append done [DevNum]).trans hdone, h₀, hs⟩
  refine Triple.bind (R := fun _ => At s₀.account) (Triple.modify fun _ hs => hs) fun _ => ?_
  refine Triple.bind (callNaming_at _) fun r => Triple.bind (record_at _) fun _ => ?_
  refine Triple.ite (fun hst => ?_) fun hne => Triple.ite (fun hst => ?_) fun hne' => ?_
  · refine Triple.bind (Triple.early (findNames_at (a := s₀.account.answer r.1) h₀.managed _ _ _ _) (hleft r.1)) fun _ => Triple.read fun s _ => ?_
    refine Triple.post (storeName_at DevNum _) fun _ s' hs => ?_
    obtain ⟨str, hs⟩ := hs
    rw [hs]
    refine h₀.store (.inl hst) ?_ str
    exact if_pos hst
  · refine Triple.post (storeName_at DevNum _) fun _ s' hs => ?_
    obtain ⟨str, hs⟩ := hs
    rw [hs]
    refine h₀.store (.inr hst) ?_ str
    exact (if_neg hne).trans (if_pos hst)
  · refine (checkNaming_leaves rfl (by decide) r.1).consequence (fun _ hs => hs) (fun _ s hs => ?_) (hleft r.1)
    rw [hs.2]
    exact h₀.skip hs.1 ((if_neg hne).trans (if_neg hne'))

/-- The whole loop. -/
theorem nameAll_spec :
    Triple (fun s => Listed G base [] s.account) (nameAll fw d G Name2Handles DevPathHandles)
      (fun _ s => Listed G base G.indices s.account) (LeftLoop G base) :=
  triple_forM_prefix (I := fun done (s : NamingState σ) => Listed G base done s.account) fun _ _ hdone => nameDevice_spec hdone

end

/-! ## The whole function -/

/-- The pools, but for the lines, that are held when a call has failed, or at
the end: handles are only freed after the loop. -/
def heldBy : Option NamingCall → List PoolVariable
  | some .locateGraphics => []
  | some .allocateNameBuffer => [.GraphicsHandles]
  | some .locateName2 => [.GraphicsHandles, .NameBuffer]
  | some .locateDevPath | some .freeName2 => [.GraphicsHandles, .NameBuffer, .Name2Handles]
  | none => [.GraphicsHandles, .NameBuffer]
  | some _ => [.GraphicsHandles, .NameBuffer, .Name2Handles, .DevPathHandles]

/-- The account at the end, or when `failed` has failed. -/
structure NamingEnds (G : HandleBuffer) (failed : Option NamingCall) (a : NamingAccount) : Prop where
  stored : ∃ done, done <+: G.indices ∧ a.stored.map (fun e => (e.DevNum, e.line.subject)) =
    (done.zip a.answers).filterMap fun p => entryFor G p.1 p.2
  pools : ∃ base, base.map Prod.fst = heldBy failed ∧ a.pools = ⟨base ++ strings a.stored, []⟩
  closed : failed ≠ some .closeManaged → a.managed = .empty
  unclosed : failed = some .closeManaged → ∃ m, a.managed = ⟨[m], []⟩

/-- A return with an error. -/
def FailsWith (G : HandleBuffer) (e : NamingExit) (s : NamingState σ) : Prop :=
  EFI_ERROR e.GOPStatus = true ∧ NamingEnds G (some e.failed) s.account

section
variable {fw : NameFirmware σ} {d : NameData} {G : HandleBuffer} {a : NamingAccount}
  {base : List (PoolVariable × UINT64)} {done : List UINT64}

/-- At any point outside the loop. -/
theorem Listed.ends (h : Listed G base done a) (hdone : done <+: G.indices) {failed : Option NamingCall}
    (hclose : failed ≠ some .closeManaged) (hbase : base.map Prod.fst = heldBy failed) : NamingEnds G failed a where
  stored := ⟨done, hdone, h.stored⟩
  pools := ⟨base, hbase, h.pools⟩
  closed _ := h.managed
  unclosed heq := absurd heq hclose

/-- The device in which the loop is left has an answer more, and no entry. -/
theorem LeftLoop.fails {e : NamingExit} {s : NamingState σ} (h : LeftLoop G base e s)
    (hbase : base.map Prod.fst = [.GraphicsHandles, .NameBuffer, .Name2Handles, .DevPathHandles]) :
    FailsWith G e s := by
  obtain ⟨done, a, GOPStatus, hdone, hlisted, hleaves⟩ := h
  have hheld : base.map Prod.fst = heldBy (some e.failed) := by
    have hloop := hleaves.inLoop
    rw [hbase]
    cases hfailed : e.failed <;> first | rfl | (rw [hfailed] at hloop; cases hloop)
  have hstored : a.stored.map (fun e => (e.DevNum, e.line.subject)) =
      (done.zip (a.answers ++ [GOPStatus])).filterMap fun p => entryFor G p.1 p.2 := by
    have hzip : done.zip (a.answers ++ [GOPStatus]) = done.zip a.answers := by
      conv_lhs => rw [← List.append_nil done]
      rw [List.zip_append hlisted.answered.symm, List.zip_nil_left, List.append_nil]
    rw [hzip]
    exact hlisted.stored
  refine ⟨hleaves.error, ?_⟩
  by_cases hclose : e.failed = .closeManaged
  · obtain ⟨m, hm⟩ := hleaves.unclosed hclose
    rw [hm]
    refine ⟨⟨done, hdone, hstored⟩, ⟨base, hheld, hlisted.pools⟩, fun h => absurd (congrArg some hclose) h,
      fun _ => ⟨m, ?_⟩⟩
    show a.managed.take m = ⟨[m], []⟩
    rw [hlisted.managed]
    rfl
  · rw [hleaves.kept hclose]
    exact ⟨⟨done, hdone, hstored⟩, ⟨base, hheld, hlisted.pools⟩, fun _ => hlisted.managed,
      fun h => absurd (Option.some.inj h) hclose⟩

/-- A call in a known state. -/
theorem callNaming_answers {E : NamingExit → NamingState σ → Prop} (service : σ → α × σ) (w : σ) :
    Triple (fun s => s.firmware = w ∧ At a s) (callNaming service) (fun r s => r = (service w).1 ∧ At a s) E := by
  rintro s ⟨rfl, hs⟩
  exact ⟨rfl, hs⟩

/-- The pools held before the loop. -/
def held (base : List (PoolVariable × UINT64)) : NamingAccount := ⟨[], [], ⟨base, []⟩, .empty⟩

theorem checkNaming_fails {failed : NamingCall} (hclose : some failed ≠ some .closeManaged)
    (hbase : base.map Prod.fst = heldBy (some failed)) (GOPStatus : EFI_STATUS) :
    Triple (At (held base)) (checkNaming failed GOPStatus) (fun _ (s : NamingState σ) => At (held base) s)
      (FailsWith G) := by
  refine (checkNaming_at failed GOPStatus).consequence (fun _ hs => hs) (fun _ s hs => hs.2) fun e s hs => ?_
  obtain ⟨rfl, he, hat⟩ := hs
  refine ⟨he, ?_⟩
  rw [hat]
  exact (Listed.empty (G := G) base).ends List.nil_prefix hclose hbase

theorem locateHandles_spec {pool : PoolVariable} {failed : NamingCall} {protocol : Protocol}
    (hclose : some failed ≠ some .closeManaged) (hbase : base.map Prod.fst = heldBy (some failed)) (w : σ) :
    Triple (fun s => s.firmware = w ∧ At (held base) s) (locateHandles fw pool failed protocol)
      (fun b s => b = (fw.LocateHandleBuffer protocol w).1.2 ∧ At (held (base ++ [(pool, b.Buffer)])) s)
      (FailsWith G) := by
  refine Triple.bind (callNaming_answers _ w) fun r => Triple.assume fun hr => ?_
  refine Triple.bind (checkNaming_fails hclose hbase r.1) fun _ => Triple.bind (record_at _) fun _ => ?_
  exact Triple.pure fun s hs => ⟨congrArg Prod.snd hr, hs⟩

/-- Whatever the calls before it did to the firmware. -/
theorem locateHandles_next (base : List (PoolVariable × UINT64)) {pool : PoolVariable} {failed : NamingCall}
    {protocol : Protocol} (hclose : some failed ≠ some .closeManaged)
    (hbase : base.map Prod.fst = heldBy (some failed)) :
    Triple (At (held base)) (locateHandles fw pool failed protocol)
      (fun b s => At (held (base ++ [(pool, b.Buffer)])) s) (FailsWith G) :=
  fun s hs => Triple.post (locateHandles_spec hclose hbase s.firmware) (fun _ _ h => h.2) s ⟨rfl, hs⟩

theorem allocateNameBuffer_spec (hbase : base.map Prod.fst = heldBy (some .allocateNameBuffer)) (NumHandles : UINTN) :
    Triple (At (held base)) (allocateNameBuffer fw NumHandles)
      (fun address s => At (held (base ++ [(.NameBuffer, address)])) s) (FailsWith G) := by
  refine Triple.bind (callNaming_at _) fun r => ?_
  refine Triple.bind (checkNaming_fails (by decide) hbase r.1) fun _ => Triple.bind (record_at _) fun _ => ?_
  exact Triple.pure fun s hs => hs

/-- After the loop. -/
theorem freeHandles_spec (base : List (PoolVariable × UINT64)) {pool : PoolVariable} {address : UINT64}
    {failed : NamingCall} (hfail : some failed ≠ some .closeManaged) (hbase : (base ++ [(pool, address)]).map Prod.fst = heldBy (some failed))
    (hnew : ∀ p ∈ base, p.1 ≠ pool) :
    Triple (fun s => Listed G (base ++ [(pool, address)]) G.indices s.account) (freeHandles fw pool failed address)
      (fun _ s => Listed G base G.indices s.account) (FailsWith G) := by
  refine Triple.start fun s₀ h₀ => Triple.pre (P := At s₀.account) ?_ fun s hs => congrArg NamingState.account hs
  refine Triple.bind (callNaming_at _) fun GOPStatus => ?_
  refine Triple.bind (Triple.early (checkNaming_at failed GOPStatus) fun e s hs => ?_) fun _ => Triple.assume fun _ => ?_
  · obtain ⟨rfl, he, hat⟩ := hs
    refine ⟨he, ?_⟩
    rw [hat]
    exact h₀.ends List.prefix_rfl hfail hbase
  · refine Triple.post (record_at _) fun _ s hs => ?_
    rw [hs]
    refine ⟨h₀.answered, h₀.usable, h₀.stored, ?_, h₀.managed⟩
    have hnot : (pool, address) ∉ base := fun hmem => hnew _ hmem rfl
    show s₀.account.pools.give (pool, address) = ⟨base ++ strings s₀.account.stored, []⟩
    rw [h₀.pools, List.append_assoc, List.singleton_append, Holdings.give_held hnot]

/-- The function, from its first call to its last. -/
theorem nameDevices_spec (fw : NameFirmware σ) (d : NameData) (w : σ) (names : DisplayNames) :
    Triple (fun s => s = unnamed w names) (nameDevices fw d)
      (fun G s => G = (fw.LocateHandleBuffer .GraphicsOutput w).1.2 ∧
        ∃ base, base.map Prod.fst = [.GraphicsHandles, .NameBuffer] ∧ Listed G base G.indices s.account)
      (FailsWith (fw.LocateHandleBuffer .GraphicsOutput w).1.2) := by
  have hstart : ∀ s, s = unnamed w names → s.firmware = w ∧ At (held []) s := fun s hs => hs ▸ ⟨rfl, rfl⟩
  refine Triple.bind (Triple.pre (locateHandles_spec (by decide) rfl w) hstart) fun G => Triple.assume fun hG => ?_
  subst hG
  set G := (fw.LocateHandleBuffer .GraphicsOutput w).1.2
  refine Triple.bind (allocateNameBuffer_spec rfl _) fun NameBuffer => ?_
  refine Triple.bind (locateHandles_next [(.GraphicsHandles, G.Buffer), (.NameBuffer, NameBuffer)] (by decide) rfl)
    fun Name2Handles => ?_
  refine Triple.bind (locateHandles_next [(.GraphicsHandles, G.Buffer), (.NameBuffer, NameBuffer),
    (.Name2Handles, Name2Handles.Buffer)] (by decide) rfl) fun DevPathHandles => ?_
  refine Triple.bind (R := fun _ s => Listed G ([(.GraphicsHandles, G.Buffer), (.NameBuffer, NameBuffer),
    (.Name2Handles, Name2Handles.Buffer), (.DevPathHandles, DevPathHandles.Buffer)]) G.indices s.account) ?_ fun _ => ?_
  · refine nameAll_spec.consequence (fun s hs => ?_) (fun _ _ hs => hs) fun _ _ hs => hs.fails rfl
    rw [hs]
    exact Listed.empty _
  refine Triple.bind (freeHandles_spec [(.GraphicsHandles, G.Buffer), (.NameBuffer, NameBuffer),
    (.Name2Handles, Name2Handles.Buffer)] (by decide) rfl (by simp)) fun _ => ?_
  refine Triple.bind (freeHandles_spec [(.GraphicsHandles, G.Buffer), (.NameBuffer, NameBuffer)] (by decide) rfl
    (by simp)) fun _ => ?_
  exact Triple.pure fun s hs => ⟨rfl, _, rfl, hs⟩

end

/-! ## Main results -/

theorem entryFor_isSome (G : HandleBuffer) (DevNum : UINT64) {GOPStatus : EFI_STATUS} :
    (entryFor G DevNum GOPStatus).isSome = true ↔ GOPStatus = EFI_SUCCESS ∨ GOPStatus = EFI_UNSUPPORTED := by
  unfold entryFor
  split
  · simp_all
  · split <;> simp_all

theorem entryFor_fst {G : HandleBuffer} {DevNum : UINT64} {GOPStatus : EFI_STATUS}
    {e : UINT64 × Bool × UINT64 × EFI_HANDLE} (h : entryFor G DevNum GOPStatus = some e) : e.1 = DevNum := by
  unfold entryFor at h
  split at h
  · cases h
    rfl
  · split at h <;> cases h
    rfl

/-- Entries in place for all devices. -/
theorem entries_complete_iff {G : HandleBuffer} {is : List UINT64} {answers : List EFI_STATUS}
    (hlen : answers.length = is.length) :
    ((is.zip answers).filterMap fun p => entryFor G p.1 p.2).map Prod.fst = is ↔
      ∀ GOPStatus ∈ answers, GOPStatus = EFI_SUCCESS ∨ GOPStatus = EFI_UNSUPPORTED := by
  induction is generalizing answers with
  | nil =>
    rw [List.length_eq_zero_iff.mp hlen]
    simp
  | cons i is ih =>
    obtain ⟨GOPStatus, answers, rfl⟩ := List.exists_cons_of_length_eq_add_one hlen
    have hrest := ih (Nat.succ.inj hlen)
    rw [List.zip_cons_cons, List.filterMap_cons, List.forall_mem_cons, ← hrest, ← entryFor_isSome G i]
    cases hentry : entryFor G i GOPStatus with
    | some e =>
      have hfst := entryFor_fst hentry
      simp [hfst]
    | none =>
      -- an entry short
      have hshort := List.length_filterMap_le (fun p => entryFor G p.1 p.2) (is.zip answers)
      have hzip : (is.zip answers).length ≤ is.length := by
        rw [List.length_zip]
        exact Nat.min_le_left _ _
      refine iff_of_false (fun h => ?_) fun h => by cases h.1
      have := congrArg List.length h
      simp only [List.length_map, List.length_cons] at this
      omega

/-- The lines fill the buffer exactly if no device answered with a warning. -/
theorem Listed.indices_stored_iff {G : HandleBuffer} {base : List (PoolVariable × UINT64)} {done : List UINT64}
    {a : NamingAccount} (h : Listed G base done a) :
    a.stored.map (·.DevNum) = done ↔
      ∀ GOPStatus ∈ a.answers, GOPStatus = EFI_SUCCESS ∨ GOPStatus = EFI_UNSUPPORTED := by
  have hfst : a.stored.map (·.DevNum) = (a.stored.map fun e => (e.DevNum, e.line.subject)).map Prod.fst := by
    rw [List.map_map]
    rfl
  rw [hfst, h.stored]
  exact entries_complete_iff h.answered

/-- The call that ended a run early. -/
def failedCall : EStateM.Result NamingExit (NamingState σ) α → Option NamingCall
  | .ok _ _ => none
  | .error e _ => some e.failed

theorem nameDevices_ends (fw : NameFirmware σ) (d : NameData) (w : σ) (names : DisplayNames) :
    NamingEnds (fw.LocateHandleBuffer .GraphicsOutput w).1.2 (failedCall (nameDevices fw d (unnamed w names)))
      (final (nameDevices fw d (unnamed w names))).account := by
  have hspec := nameDevices_spec fw d w names
  cases hr : nameDevices fw d (unnamed w names) with
  | ok G s =>
    obtain ⟨rfl, base, hbase, hlisted⟩ := hspec.ok rfl hr
    exact hlisted.ends List.prefix_rfl (by simp [failedCall]) hbase
  | error e s => exact (hspec.error rfl hr).2

/-- **One line for each device.** Whatever the firmware answers and however the
function ends, the lines stored belong to the first devices in their order,
one for each whose path was there or was not supported, with its number and
its handle. At the end all devices have been asked, and the lines fill
`NameBuffer` exactly if none of them answered with a warning. -/
theorem every_device_stored_once (fw : NameFirmware σ) (d : NameData) (w : σ) (names : DisplayNames) :
    let G := (fw.LocateHandleBuffer .GraphicsOutput w).1.2
    let r := nameDevices fw d (unnamed w names)
    (∃ done, done <+: G.indices ∧ (final r).account.stored.map (fun e => (e.DevNum, e.line.subject)) =
      (done.zip (final r).account.answers).filterMap fun p => entryFor G p.1 p.2) ∧
    (∀ G' s, r = .ok G' s → G' = G ∧ s.account.answers.length = G.NoHandles.toNat ∧
      s.account.stored.map (fun e => (e.DevNum, e.line.subject)) =
        ((G.indices.zip s.account.answers).filterMap fun p => entryFor G p.1 p.2) ∧
      (s.account.stored.map (·.DevNum) = G.indices ↔
        ∀ GOPStatus ∈ s.account.answers, GOPStatus = EFI_SUCCESS ∨ GOPStatus = EFI_UNSUPPORTED)) ∧
    ∀ e s, r = .error e s → EFI_ERROR e.GOPStatus = true := by
  intro G r
  have hspec := nameDevices_spec fw d w names
  refine ⟨(nameDevices_ends fw d w names).stored, fun G' s hr => ?_, fun e s hr => (hspec.error rfl hr).1⟩
  obtain ⟨hG, base, -, hlisted⟩ := hspec.ok rfl hr
  subst hG
  have hindices : G.indices.length = G.NoHandles.toNat := by
    rw [HandleBuffer.indices, List.length_map, List.length_range]
  exact ⟨rfl, hlisted.answered.trans hindices, hlisted.stored, hlisted.indices_stored_iff⟩

/-- **Pools.** No pool is freed that is not held, and what is held at the end
and at every early return is exactly: the buffers up to the call that failed,
and a pool for each line. So an early return frees nothing, but for
`DevPathHandles` if `Name2Handles` cannot be freed. -/
theorem naming_pools_exact (fw : NameFirmware σ) (d : NameData) (w : σ) (names : DisplayNames) :
    let r := nameDevices fw d (unnamed w names)
    ∃ base, base.map Prod.fst = heldBy (failedCall r) ∧
      (final r).account.pools = ⟨base ++ strings (final r).account.stored, []⟩ :=
  (nameDevices_ends fw d w names).pools

/-- **Controllers opened by driver.** To find out which driver manages a
controller, the loader opens the controller for the driver. However the
function ends, every such open has been closed, unless it is a `CloseProtocol`
that failed; then it is the only one. -/
theorem managed_opens_closed (fw : NameFirmware σ) (d : NameData) (w : σ) (names : DisplayNames) :
    let r := nameDevices fw d (unnamed w names)
    (final r).account.managed.wild = [] ∧
      ((final r).account.managed.held = [] ↔ failedCall r ≠ some .closeManaged) ∧
      (final r).account.managed.held.length ≤ 1 := by
  intro r
  have hends := nameDevices_ends fw d w names
  by_cases hclose : failedCall r = some .closeManaged
  · obtain ⟨m, hm⟩ := hends.unclosed hclose
    rw [hm]
    exact ⟨rfl, iff_of_false (List.cons_ne_nil m []) fun h => h hclose, Nat.le_refl 1⟩
  · rw [hends.closed hclose]
    exact ⟨rfl, iff_of_true rfl hclose, Nat.zero_le 1⟩

end PiousOS.Loader
