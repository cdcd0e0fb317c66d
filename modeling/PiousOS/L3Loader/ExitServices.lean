import PiousOS.L1Encoding.LoaderParams
import PiousOS.L3Loader.Firmware

/-!
# Leaving boot services (`BootKernel`)

The loader fetches the memory map, allocating the pool for it between a call
that asks for the size and the call that fills the pool, and hands the key of
the map to `ExitBootServices`; if that fails, it does the same once more. The
status of the call that fills the pool is not looked at.

**The firmware's side** (`MapProtocol`). The firmware has a current map with a
size and a key, which allocating and freeing may change. A buffer that is too
small gets the size and an unspecified key, any other one gets the map and its
key; boot services end for the current key and for no other.

**Result** (`leaveBootServices_accepted_iff`). The map the loader leaves with
is the one the firmware accepted exactly if the last `GetMemoryMap` had a
buffer the map fitted.
-/
namespace PiousOS.Loader
open EarlyExit

variable {σ : Type}

/-- The loader's variables for the memory map. `pool` is not in the source:
the size of the pool at `MemMap`, 0 if there is none. -/
structure MapVars where
  MemMapSize : UINTN
  MemMapKey : UINTN
  MemMapDescriptorSize : UINTN
  MemMapDescriptorVersion : UINT32
  MemMap : UINT64
  pool : UINTN
  deriving DecidableEq, Repr

/-- `GetMemoryMap(&MemMapSize, MemMap, &MemMapKey, …)` -/
def getMemoryMap (fw : Firmware σ) (v : MapVars) : Boot σ (EFI_STATUS × MapVars) :=
  fun s =>
    let r := fw.GetMemoryMap v.MemMapSize v.MemMap s.firmware
    .ok (r.1.status, { v with
        MemMapSize := r.1.MemMapSize
        MemMapKey := r.1.MemMapKey
        MemMapDescriptorSize := r.1.MemMapDescriptorSize
        MemMapDescriptorVersion := r.1.MemMapDescriptorVersion })
      { s with
        firmware := r.2
        log := s.log ++ [.memoryMap s.firmware v.MemMapSize v.MemMap r.1] }

/-- mirrors src/bootloader/boot.c:622-633, 643-654 -/
def fetchMemMap (fw : Firmware σ) (v : MapVars) : Boot σ MapVars := do
  let (BootStatus, v) ← getMemoryMap fw v
  if BootStatus = EFI_BUFFER_TOO_SMALL then
    let (BootStatus, MemMap) ← call (fw.AllocatePool v.MemMapSize)
    check BootStatus
    let (_, v) ← getMemoryMap fw { v with MemMap := MemMap, pool := v.MemMapSize }
    pure v
  else pure v

/-- `ExitBootServices(ImageHandle, MemMapKey)` -/
def exitBootServices (fw : Firmware σ) (key : UINTN) : Boot σ EFI_STATUS :=
  fun s =>
    let r := fw.ExitBootServices key s.firmware
    .ok r.1 { s with firmware := r.2, log := s.log ++ [.exitBootServices key r.1] }

/-- One attempt, with `MemMapSize` set to 0. -/
def attemptExit (fw : Firmware σ) (v : MapVars) : Boot σ (EFI_STATUS × MapVars) := do
  let v ← fetchMemMap fw { v with MemMapSize := 0, pool := 0 }
  let BootStatus ← exitBootServices fw v.MemMapKey
  pure (BootStatus, v)

/-- The end of both attempts: the map, or what `FreePool` says as the status
of `BootKernel`.
mirrors src/bootloader/boot.c:661-673 -/
def exitedOrReturn (fw : Firmware σ) (BootStatus : EFI_STATUS) (v : MapVars) : Boot σ MapVars :=
  if EFI_ERROR BootStatus then do
    let BootStatus ← call (fw.FreePool v.MemMap)
    throw (.returned BootStatus)
  else pure v

/-- `unset`: what the variables hold that are not initialised.
mirrors src/bootloader/boot.c:618-673 -/
def leaveBootServices (fw : Firmware σ) (unset : MapVars) : Boot σ MapVars := do
  let (BootStatus, v) ← attemptExit fw { unset with MemMap := 0 }
  if EFI_ERROR BootStatus then
    let _ ← call (fw.FreePool v.MemMap)
    let (BootStatus, v) ← attemptExit fw v
    exitedOrReturn fw BootStatus v
  else exitedOrReturn fw BootStatus v

/-! ## What leaving boot services leaves in the log -/

/-- The map variables after the last `GetMemoryMap` of an attempt, and that
call: made in state `before`, with a buffer of `pool` bytes at `MemMap`. -/
structure Fetched (fw : Firmware σ) (v : MapVars) (s : LoaderState σ) (before : σ)
    (reply : MemoryMapReply) : Prop where
  reply_eq : reply = (fw.GetMemoryMap v.pool v.MemMap before).1
  log : ∃ earlier, s.log = earlier ++ [.memoryMap before v.pool v.MemMap reply]
  firmware : s.firmware = (fw.GetMemoryMap v.pool v.MemMap before).2
  size : v.MemMapSize = reply.MemMapSize
  key : v.MemMapKey = reply.MemMapKey
  descriptorSize : v.MemMapDescriptorSize = reply.MemMapDescriptorSize
  descriptorVersion : v.MemMapDescriptorVersion = reply.MemMapDescriptorVersion
  /-- a call that only asks for the size is not the last one -/
  sized : v.pool = 0 → reply.status ≠ EFI_BUFFER_TOO_SMALL

section
variable {fw : Firmware σ} {v v' : MapVars} {s s' : LoaderState σ}

theorem getMemoryMap_fetched {st : EFI_STATUS} (hpool : v.pool = v.MemMapSize)
    (h : getMemoryMap fw v s = .ok (st, v') s')
    (hsized : v.pool = 0 → st ≠ EFI_BUFFER_TOO_SMALL) :
    ∃ reply, Fetched fw v' s' s.firmware reply := by
  cases h
  refine ⟨_, ?_, ⟨s.log, ?_⟩, ?_, rfl, rfl, rfl, rfl, hsized⟩
  · rw [hpool]
  · rw [hpool]
  · rw [hpool]

theorem fetchMemMap_fetched (hzero : v.MemMapSize = 0) (hpool : v.pool = 0)
    (hsmall : ∀ p w, (fw.GetMemoryMap 0 p w).1.status = EFI_BUFFER_TOO_SMALL →
      (fw.GetMemoryMap 0 p w).1.MemMapSize ≠ 0)
    (h : fetchMemMap fw v s = .ok v' s') : ∃ before reply, Fetched fw v' s' before reply := by
  obtain ⟨⟨st, v₁⟩, s₁, h₁, hrest⟩ := ok_of_bind h
  by_cases hst : st = EFI_BUFFER_TOO_SMALL
  · simp only [hst, if_true] at hrest
    obtain ⟨⟨ast, p⟩, s₂, h₂, hcheck⟩ := ok_of_bind hrest
    obtain ⟨_, s₃, h₃, hsecond⟩ := ok_of_bind hcheck
    obtain ⟨⟨st₂, v₂⟩, s₄, h₄, hpure⟩ := ok_of_bind hsecond
    cases hpure
    have hv₁ : v₁.MemMapSize ≠ 0 := by
      cases h₁
      rw [hzero] at hst ⊢
      exact hsmall _ _ hst
    obtain ⟨reply, hf⟩ := getMemoryMap_fetched (v := { v₁ with MemMap := p, pool := v₁.MemMapSize })
      rfl h₄ fun h0 => absurd h0 hv₁
    exact ⟨_, reply, hf⟩
  · simp only [hst, if_false] at hrest
    cases hrest
    obtain ⟨reply, hf⟩ := getMemoryMap_fetched (hpool.trans hzero.symm) h₁ fun _ => hst
    exact ⟨_, reply, hf⟩

end

/-! ## The protocol -/

/-- A firmware with a current memory map of `size` bytes under `key`. -/
structure MapProtocol (fw : Firmware σ) (size key : σ → UINTN) : Prop where
  small : ∀ n p w, n < size w →
    (fw.GetMemoryMap n p w).1.status = EFI_BUFFER_TOO_SMALL ∧
      (fw.GetMemoryMap n p w).1.MemMapSize = size w
  fits : ∀ n p w, ¬ n < size w →
    (fw.GetMemoryMap n p w).1.status = EFI_SUCCESS ∧
      (fw.GetMemoryMap n p w).1.MemMapSize = size w ∧ (fw.GetMemoryMap n p w).1.MemMapKey = key w
  unchanged : ∀ n p w, size (fw.GetMemoryMap n p w).2 = size w ∧ key (fw.GetMemoryMap n p w).2 = key w
  exit_current : ∀ w, (fw.ExitBootServices (key w) w).1 = EFI_SUCCESS
  exit_stale : ∀ k w, k ≠ key w → EFI_ERROR (fw.ExitBootServices k w).1 = true

/-- The map in the loader block is the output of one `GetMemoryMap` that
succeeded, `ExitBootServices` accepted its key, and it fits its pool. -/
def MapAccepted (P : LOADER_PARAMS) (pool : UINTN) (log : List (Event σ)) : Prop :=
  (∃ before n reply status,
    Event.memoryMap before n P.Memory_Map reply ∈ log ∧ reply.status = EFI_SUCCESS ∧
    Event.exitBootServices reply.MemMapKey status ∈ log ∧ EFI_ERROR status = false ∧
    P.Memory_Map_Size = reply.MemMapSize ∧
    P.Memory_Map_Descriptor_Size = reply.MemMapDescriptorSize ∧
    P.Memory_Map_Descriptor_Version = reply.MemMapDescriptorVersion) ∧
  P.Memory_Map_Size ≤ pool

/-- The last `GetMemoryMap` before the last `ExitBootServices` found a map
that fitted its buffer. -/
def LastMapFits (size : σ → UINTN) (log : List (Event σ)) : Prop :=
  ∃ earlier before n p reply k status,
    log = earlier ++ [.memoryMap before n p reply, .exitBootServices k status] ∧ size before ≤ n

/-- The loader block holds the map variables. -/
structure HoldsMap (P : LOADER_PARAMS) (v : MapVars) : Prop where
  map : P.Memory_Map = v.MemMap
  size : P.Memory_Map_Size = v.MemMapSize
  descriptorSize : P.Memory_Map_Descriptor_Size = v.MemMapDescriptorSize
  descriptorVersion : P.Memory_Map_Descriptor_Version = v.MemMapDescriptorVersion

section
variable {fw : Firmware σ} {size key : σ → UINTN} {v v' : MapVars} {s s' : LoaderState σ}

theorem MapProtocol.small_size_ne (h : MapProtocol fw size key) (p : UINT64) (w : σ)
    (hst : (fw.GetMemoryMap 0 p w).1.status = EFI_BUFFER_TOO_SMALL) :
    (fw.GetMemoryMap 0 p w).1.MemMapSize ≠ 0 := by
  by_cases hs : 0 < size w
  · rw [(h.small 0 p w hs).2]
    intro h0
    rw [h0] at hs
    exact BitVec.lt_irrefl _ hs
  · rw [(h.fits 0 p w hs).1] at hst
    exact absurd hst (by decide)

/-- Where the loader stands when it has left boot services. -/
structure Left (fw : Firmware σ) (v : MapVars) (s : LoaderState σ) (before : σ)
    (reply : MemoryMapReply) (status : EFI_STATUS) : Prop where
  fetched : ∃ s₁ : LoaderState σ, Fetched fw v s₁ before reply ∧
    s.log = s₁.log ++ [.exitBootServices v.MemMapKey status] ∧
    status = (fw.ExitBootServices v.MemMapKey s₁.firmware).1
  accepted : EFI_ERROR status = false

theorem attemptExit_left (h : MapProtocol fw size key) {st : EFI_STATUS}
    (hrun : attemptExit fw v s = .ok (st, v') s') (hst : EFI_ERROR st = false) :
    ∃ before reply, Left fw v' s' before reply st := by
  obtain ⟨v₁, s₁, h₁, hrest⟩ := ok_of_bind hrun
  obtain ⟨st', s₂, h₂, hpure⟩ := ok_of_bind hrest
  obtain ⟨before, reply, hf⟩ := fetchMemMap_fetched rfl rfl h.small_size_ne h₁
  cases hpure
  cases h₂
  exact ⟨before, reply, ⟨s₁, hf, rfl, rfl⟩, hst⟩

theorem exitedOrReturn_ok {st : EFI_STATUS} (h : exitedOrReturn fw st v s = .ok v' s') :
    EFI_ERROR st = false ∧ v' = v ∧ s' = s := by
  unfold exitedOrReturn at h
  by_cases he : EFI_ERROR st = true
  · rw [if_pos he] at h
    obtain ⟨_, s₁, _, hthrow⟩ := ok_of_bind h
    cases hthrow
  · rw [if_neg he] at h
    cases h
    exact ⟨by simpa using he, rfl, rfl⟩

/-- Both ways out end with a `GetMemoryMap` and an `ExitBootServices` that
accepted its key. -/
theorem leaveBootServices_left (h : MapProtocol fw size key) {unset : MapVars}
    (hrun : leaveBootServices fw unset s = .ok v s') :
    ∃ before reply status, Left fw v s' before reply status := by
  obtain ⟨⟨st, v₁⟩, s₁, h₁, hrest⟩ := ok_of_bind hrun
  by_cases he : EFI_ERROR st = true
  · simp only [he, if_true] at hrest
    obtain ⟨_, s₂, _, hretry⟩ := ok_of_bind hrest
    obtain ⟨⟨st₂, v₂⟩, s₃, h₃, hend⟩ := ok_of_bind hretry
    obtain ⟨hst, rfl, rfl⟩ := exitedOrReturn_ok hend
    obtain ⟨before, reply, hl⟩ := attemptExit_left h h₃ hst
    exact ⟨before, reply, st₂, hl⟩
  · simp only [he] at hrest
    obtain ⟨hst, rfl, rfl⟩ := exitedOrReturn_ok hrest
    obtain ⟨before, reply, hl⟩ := attemptExit_left h h₁ hst
    exact ⟨before, reply, st, hl⟩

variable {P : LOADER_PARAMS} {before : σ} {reply : MemoryMapReply} {status : EFI_STATUS}

theorem Left.log_eq (h : Left fw v s before reply status) :
    ∃ earlier, s.log = earlier ++
      [.memoryMap before v.pool v.MemMap reply, .exitBootServices v.MemMapKey status] := by
  obtain ⟨s₁, hf, hlog, _⟩ := h.fetched
  obtain ⟨earlier, he⟩ := hf.log
  exact ⟨earlier, by rw [hlog, he, List.append_assoc]; rfl⟩

/-- The last map fits exactly if the buffer of the last call took it. -/
theorem Left.lastMapFits_iff (h : Left fw v s before reply status) (size : σ → UINTN) :
    LastMapFits size s.log ↔ size before ≤ v.pool := by
  obtain ⟨earlier, hlog⟩ := h.log_eq
  constructor
  · rintro ⟨earlier', before', n, p, reply', k, status', heq, hfit⟩
    rw [hlog] at heq
    have htail := (List.append_inj' heq rfl).2
    simp only [List.cons.injEq, Event.memoryMap.injEq, and_true] at htail
    obtain ⟨⟨rfl, rfl, _, _⟩, _⟩ := htail
    exact hfit
  · intro hfit
    exact ⟨earlier, before, _, _, _, _, _, hlog, hfit⟩

/-- A map that fitted is the one the firmware accepted. -/
theorem Left.accepted_of_fits (hfw : MapProtocol fw size key)
    (h : Left fw v s before reply status) (hP : HoldsMap P v) (hfit : size before ≤ v.pool) :
    MapAccepted P v.pool s.log := by
  obtain ⟨earlier, hlog⟩ := h.log_eq
  obtain ⟨s₁, hf, _, _⟩ := h.fetched
  have hnot : ¬ v.pool < size before := by
    rw [BitVec.lt_def]
    rw [BitVec.le_def] at hfit
    omega
  obtain ⟨hst, hsize, _⟩ := hfw.fits v.pool v.MemMap before hnot
  rw [← hf.reply_eq] at hst hsize
  refine ⟨⟨before, v.pool, reply, status, ?_, hst, ?_, h.accepted, ?_, ?_, ?_⟩, ?_⟩
  · rw [hlog, hP.map]
    simp
  · rw [hlog, ← hf.key]
    simp
  · rw [hP.size, hf.size]
  · rw [hP.descriptorSize, hf.descriptorSize]
  · rw [hP.descriptorVersion, hf.descriptorVersion]
  · rw [hP.size, hf.size, hsize]
    exact hfit

/-- A map that did not fit is larger than its pool. -/
theorem Left.fits_of_accepted (hfw : MapProtocol fw size key)
    (h : Left fw v s before reply status) (hP : HoldsMap P v) (hacc : MapAccepted P v.pool s.log) :
    size before ≤ v.pool := by
  obtain ⟨s₁, hf, _, _⟩ := h.fetched
  by_cases hlt : v.pool < size before
  · have hsize := (hfw.small v.pool v.MemMap before hlt).2
    rw [← hf.reply_eq] at hsize
    have hle := hacc.2
    rwa [hP.size, hf.size, hsize] at hle
  · rw [BitVec.le_def]
    rw [BitVec.lt_def] at hlt
    omega

/-- The loader leaves with the map the firmware accepted exactly if the last
map fitted. -/
theorem leaveBootServices_accepted_iff (hfw : MapProtocol fw size key) {unset : MapVars}
    (hrun : leaveBootServices fw unset s = .ok v s') (hP : HoldsMap P v) :
    MapAccepted P v.pool s'.log ↔ LastMapFits size s'.log := by
  obtain ⟨before, reply, status, h⟩ := leaveBootServices_left hfw hrun
  rw [h.lastMapFits_iff size]
  exact ⟨h.fits_of_accepted hfw hP, h.accepted_of_fits hfw hP⟩

/-- On a firmware that leaves no current key behind when the buffer is too
small, the last map always fits: `ExitBootServices` would not have accepted
the key. -/
theorem leaveBootServices_fits (hfw : MapProtocol fw size key)
    (hstale : ∀ n p w, n < size w → (fw.GetMemoryMap n p w).1.MemMapKey ≠ key w) {unset : MapVars}
    (hrun : leaveBootServices fw unset s = .ok v s') : LastMapFits size s'.log := by
  obtain ⟨before, reply, status, h⟩ := leaveBootServices_left hfw hrun
  rw [h.lastMapFits_iff size, BitVec.le_def]
  obtain ⟨s₁, hf, _, hstatus⟩ := h.fetched
  refine Nat.le_of_not_lt fun hlt => ?_
  have hne := hstale v.pool v.MemMap before hlt
  rw [← hf.reply_eq, ← hf.key, ← (hfw.unchanged v.pool v.MemMap before).2, ← hf.firmware] at hne
  have hrej := hfw.exit_stale v.MemMapKey s₁.firmware hne
  rw [← hstatus, h.accepted] at hrej
  cases hrej

end

end PiousOS.Loader
