import PiousOS.L3Loader.HeaderStride
import PiousOS.L3Loader.KernelEntry

/-!
# Files that end too early (`BootKernel`)

At the end of a file `Read` succeeds and delivers fewer bytes than it was
asked for; it says how many in the size it was given. `BootKernel` looks at the
status only, after each of its reads (`FileAsk`): of the ELF header, of the
program headers, and of each `PT_LOAD` segment's bytes.

* `GoesPast.answered`: a run that goes past the loading code got a success for
  every read.
* `truncated_not_started_iff`: which of these runs got every byte, too.
-/
namespace PiousOS.Loader
open ByteMem Elf EarlyExit

variable {σ : Type}

/-! ## The reads -/

/-- A run of `BootKernel` that goes past the ELF loading code. -/
def GoesPast (fw : Firmware σ) (fuel : Nat) (p : BootParams) (s : LoaderState σ) : Prop :=
  ∃ s₁ header s₂ image s₃, openKernel fw p s = .ok () s₁ ∧ readHeader fw p s₁ = .ok header s₂ ∧
    loadKernel fw fuel p header s₂ = .ok image s₃

/-- The load loop of the run sets out for entry `i` of the table, which it
finds at `address`, in state `s₃`. -/
def AtSegment (fw : Firmware σ) (fuel : Nat) (p : BootParams) (s : LoaderState σ) (address : UINT64)
    (i : Nat) (s₃ : LoaderState σ) : Prop :=
  ∃ s₁ A s₂ header, AtTable fw p s s₁ header address ∧ i < header.e_phnum.toNat ∧
    allocateImage fw fuel (imagePages (headersAt address s₁.mem) header.e_phnum.toNat) s₁ = .ok A s₂ ∧
    loadSegments fw p.file (headersAt address) A i s₂ = .ok () s₃

/-- The reads of the ELF loading code in a run: from which position how many
bytes, and the state in which it sets out for them. -/
inductive FileAsk (fw : Firmware σ) (fuel : Nat) (p : BootParams) (s : LoaderState σ) :
    UINT64 → UINTN → LoaderState σ → Prop where
  /-- mirrors src/bootloader/boot.c:203-213 -/
  | header {s₁ s₂ r} (opened : openKernel fw p s = .ok () s₁)
      (dos : read fw p.file sizeofDosHeader s₁ = .ok r s₂) (no_error : EFI_ERROR r.1 = false) :
      FileAsk fw fuel p s 0 (BitVec.ofNat 64 sizeofEhdr) s₂
  /-- mirrors src/bootloader/boot.c:248-254 -/
  | table {s₁ s₂ s₃ header address} (opened : openKernel fw p s = .ok () s₁)
      (header_read : readHeader fw p s₁ = .ok header s₂) (magic : hasMagic header = true)
      (native : isNative header = true)
      (pool : allocatePoolChecked fw (tableSize header) s₂ = .ok address s₃) :
      FileAsk fw fuel p s header.e_phoff (tableSize header) s₃
  /-- mirrors src/bootloader/boot.c:540-549 -/
  | segment {address i s₃} (at_segment : AtSegment fw fuel p s address i s₃)
      (load : (headersAt address s₃.mem i).p_type = PT_LOAD)
      (some : (headersAt address s₃.mem i).p_filesz ≠ 0) :
      FileAsk fw fuel p s (headersAt address s₃.mem i).p_offset (headersAt address s₃.mem i).p_filesz s₃

/-- Every read was answered, and with all the bytes. -/
def EveryByteDelivered (fw : Firmware σ) (fuel : Nat) (p : BootParams) (s : LoaderState σ) : Prop :=
  ∀ position size t, FileAsk fw fuel p s position size t →
    ∃ data t', readAt fw p.file position size t = .ok data t' ∧ data.length = size.toNat

/-- The headers lie in the file. -/
structure WholeHeaders (p : BootParams) : Prop where
  header : sizeofEhdr ≤ p.file.length
  table : hasMagic (seenHeader p) = true → tableSize (seenHeader p) ≠ 0 →
    (seenHeader p).e_phoff.toNat + (tableSize (seenHeader p)).toNat ≤ p.file.length

/-- So do the parts that the load loop finds entered in the table. -/
structure WholeRun (fw : Firmware σ) (fuel : Nat) (p : BootParams) (s : LoaderState σ) : Prop
    extends WholeHeaders p where
  segments : ∀ address i t, AtSegment fw fuel p s address i t →
    (headersAt address t.mem i).p_type = PT_LOAD → (headersAt address t.mem i).p_filesz ≠ 0 →
      (headersAt address t.mem i).p_offset.toNat + (headersAt address t.mem i).p_filesz.toNat ≤
        p.file.length

/-- Every part the loader asks for lies in the file, by the table it has read. -/
structure WholeFile (p : BootParams) : Prop extends WholeHeaders p where
  segments : hasMagic (seenHeader p) = true →
    ∀ i ∈ loads (seenTable p (seenHeader p)) (seenHeader p).e_phnum.toNat,
      (seenTable p (seenHeader p) i).p_filesz ≠ 0 →
        (seenTable p (seenHeader p) i).p_offset.toNat + (seenTable p (seenHeader p) i).p_filesz.toNat ≤
          p.file.length

/-! ## Runs that went through, taken apart -/

section
variable {fw : Firmware σ} {fuel : Nat} {p : BootParams} {s s' : LoaderState σ} {header : Elf64_Ehdr}
  {headers : ByteMem → Nat → Elf64_Phdr} {table : Nat → Elf64_Phdr} {A address : UINT64} {n i : Nat}

theorem readHeader_ok (h : readHeader fw p s = .ok header s') :
    ∃ r s₁ data, read fw p.file sizeofDosHeader s = .ok r s₁ ∧ EFI_ERROR r.1 = false ∧
      readAt fw p.file 0 (BitVec.ofNat 64 sizeofEhdr) s₁ = .ok data s' := by
  obtain ⟨r, s₁, hdos, hrest⟩ := ok_of_bind h
  obtain ⟨_, s₂, hcheck, hread⟩ := ok_of_bind hrest
  obtain ⟨hno, rfl⟩ := check_ok hcheck
  obtain ⟨data, s₃, hdata, hpure⟩ := ok_of_bind hread
  cases hpure
  exact ⟨r, s₂, data, hdos, hno, hdata⟩

theorem readTable_ok (h : readTable fw p header s = .ok address s') :
    ∃ s₁ data s₂, allocatePoolChecked fw (tableSize header) s = .ok address s₁ ∧
      readAt fw p.file header.e_phoff (tableSize header) s₁ = .ok data s₂ := by
  obtain ⟨pool, s₁, hpool, hrest⟩ := ok_of_bind h
  obtain ⟨data, s₂, hdata, hplace⟩ := ok_of_bind hrest
  cases hplace
  exact ⟨s₁, data, s₂, hpool, hdata⟩

theorem loadSegments_prefix {file : List UINT8} (h : loadSegments fw file headers A n s = .ok () s')
    (hi : i < n) : ∃ t t', loadSegments fw file headers A i s = .ok () t ∧
      loadSegment fw file (headers t.mem) A i t = .ok () t' := by
  induction n generalizing s' with
  | zero => exact absurd hi (Nat.not_lt_zero i)
  | succ n ih =>
    obtain ⟨_, s₁, hbefore, hthis⟩ := ok_of_bind h
    rw [get_bind] at hthis
    rcases Nat.lt_succ_iff_lt_or_eq.mp hi with hlt | rfl
    · exact ih hbefore hlt
    · exact ⟨s₁, s', hbefore, hthis⟩

theorem loadSegment_reads {file : List UINT8} (hp : (table i).p_type = PT_LOAD)
    (hz : (table i).p_filesz ≠ 0) (h : loadSegment fw file table A i s = .ok () s') :
    ∃ data t, readAt fw file (table i).p_offset (table i).p_filesz s = .ok data t := by
  unfold loadSegment at h
  rw [if_pos hp] at h
  obtain ⟨st, s₁, hposition, hr⟩ := ok_of_bind h
  obtain ⟨_, s₂, hcheck, hread⟩ := ok_of_bind hr
  rw [if_neg hz] at hread
  obtain ⟨⟨st', data⟩, s₃, hanswer, hplace⟩ := ok_of_bind hread
  obtain ⟨_, s₄, hplaced, hcheck'⟩ := ok_of_bind hplace
  obtain ⟨hok, -⟩ := check_ok hcheck'
  refine ⟨data, s₃, ?_⟩
  unfold readAt
  rw [bind_of_ok hposition, bind_of_ok hcheck, bind_of_ok hanswer]
  exact bind_of_ok (check_of_ok hok)

theorem loadElf_parts {image : Image} (h : loadElf fw fuel p header s = .ok image s') :
    ∃ address s₁ A s₂ s₃, ImageLoad fw fuel p header s address s₁ A s₂ s₃ := by
  obtain ⟨startAddress, t, himage, -⟩ := loadElf_ok h
  obtain ⟨address, s₁, A, s₂, s₃, w, hload, -⟩ := loadImage_ok himage
  exact ⟨address, s₁, A, s₂, s₃, hload⟩

theorem GoesPast.answered (h : GoesPast fw fuel p s) {position : UINT64} {size : UINTN}
    {t : LoaderState σ} (ask : FileAsk fw fuel p s position size t) :
    ∃ data t', readAt fw p.file position size t = .ok data t' := by
  obtain ⟨s₁, header, s₂, image, s₃, hopen, hheader, hload⟩ := h
  cases ask with
  | header opened dos no_error =>
    cases hopen.symm.trans opened
    obtain ⟨r, t₁, data, hdos, -, hdata⟩ := readHeader_ok hheader
    cases hdos.symm.trans dos
    exact ⟨data, s₂, hdata⟩
  | table opened header_read magic native pool =>
    cases hopen.symm.trans opened
    cases hheader.symm.trans header_read
    obtain ⟨address, t₁, A, t₂, t₃, hparts⟩ := loadElf_parts (loadKernel_ok magic hload).2
    obtain ⟨t₄, data, t₅, hpool, hdata⟩ := readTable_ok hparts.table
    cases hpool.symm.trans pool
    exact ⟨data, t₅, hdata⟩
  | segment at_segment load some =>
    obtain ⟨u₁, A, u₂, header', ⟨v₁, v₂, opened, header_read, magic, -, table_read⟩, hi, allocated, before⟩ :=
      at_segment
    cases hopen.symm.trans opened
    cases hheader.symm.trans header_read
    obtain ⟨address, t₁, A', t₂, t₃, hparts⟩ := loadElf_parts (loadKernel_ok magic hload).2
    cases hparts.table.symm.trans table_read
    cases hparts.pages.symm.trans allocated
    obtain ⟨w₁, w₂, hprefix, hthis⟩ := loadSegments_prefix hparts.segments hi
    cases hprefix.symm.trans before
    exact loadSegment_reads load some hthis

theorem readAt_ok {file data : List UINT8} {position : UINT64} {size : UINTN}
    (h : readAt fw file position size s = .ok data s') : data = delivered file position size :=
  ((readAt_returns (J := fun _ => True) file position size).ok trivial h).1

/-! ## The parts that are asked for -/

/-- What a read asks for is a part of the file, if the run asks for no other. -/
theorem FileAsk.inFile (h : WholeRun fw fuel p s) {position : UINT64} {size : UINTN} {t : LoaderState σ}
    (ask : FileAsk fw fuel p s position size t) :
    size ≠ 0 → position.toNat + size.toNat ≤ p.file.length := by
  intro hz
  cases ask with
  | header opened dos no_error => exact h.header
  | table opened header_read magic native pool =>
    obtain ⟨rfl, -⟩ := (readHeader_returns (J := fun _ => True)).ok trivial header_read
    exact h.table magic hz
  | segment at_segment load some => exact h.segments _ _ _ at_segment load hz

theorem EveryByteDelivered.inFile (h : EveryByteDelivered fw fuel p s) {position : UINT64} {size : UINTN}
    {t : LoaderState σ} (ask : FileAsk fw fuel p s position size t) (hz : size ≠ 0) :
    position.toNat + size.toNat ≤ p.file.length := by
  obtain ⟨data, t', hdata, hlen⟩ := h position size t ask
  rw [readAt_ok hdata] at hlen
  exact (delivered_whole_iff p.file_lt).mp hlen hz

theorem GoesPast.delivered_iff (hpast : GoesPast fw fuel p s) :
    EveryByteDelivered fw fuel p s ↔ WholeRun fw fuel p s := by
  constructor
  · intro h
    obtain ⟨s₁, header, s₂, image, s₃, hopen, hheader, hload⟩ := hpast
    obtain ⟨rfl, -⟩ := (readHeader_returns (J := fun _ => True)).ok trivial hheader
    obtain ⟨r, t₁, data, hdos, hno, -⟩ := readHeader_ok hheader
    refine ⟨⟨h.inFile (.header hopen hdos hno) (by decide), fun hm hz => ?_⟩, fun address i t hat hp hz =>
      h.inFile (.segment hat hp hz) hz⟩
    obtain ⟨hn, helf⟩ := loadKernel_ok hm hload
    obtain ⟨address, u₁, A, u₂, u₃, hparts⟩ := loadElf_parts helf
    obtain ⟨u₄, data', u₅, hpool, -⟩ := readTable_ok hparts.table
    exact h.inFile (.table hopen hheader hm hn hpool) hz
  · intro h position size t ask
    obtain ⟨data, t', hdata⟩ := hpast.answered ask
    refine ⟨data, t', hdata, ?_⟩
    rw [readAt_ok hdata]
    exact (delivered_whole_iff p.file_lt).mpr (ask.inFile h)

theorem AtSegment.seen (hkept : KeepsTable fw fuel p s) {t : LoaderState σ}
    (h : AtSegment fw fuel p s address i t) :
    hasMagic (seenHeader p) = true ∧ i < (seenHeader p).e_phnum.toNat ∧
      headersAt address t.mem i = seenTable p (seenHeader p) i := by
  obtain ⟨s₁, A, s₂, header, hat, hi, halloc, hbefore⟩ := h
  obtain ⟨rfl, -⟩ := hat.seen
  obtain ⟨v₁, v₂, hopen, hheader, hm, hn, htable⟩ := hat
  exact ⟨hm, hi, hkept v₂ ⟨⟨v₁, hopen, hheader⟩, hm, hn⟩ address s₁ A s₂ htable halloc i
    (Nat.le_of_lt hi) t hbefore i (by omega)⟩

theorem GoesPast.wholeRun_iff (hpast : GoesPast fw fuel p s) (hkept : KeepsTable fw fuel p s) :
    WholeRun fw fuel p s ↔ WholeFile p := by
  constructor
  · intro h
    refine ⟨h.toWholeHeaders, fun hm i hi hz => ?_⟩
    obtain ⟨s₁, header, s₂, image, s₃, hopen, hheader, hload⟩ := hpast
    obtain ⟨rfl, -⟩ := (readHeader_returns (J := fun _ => True)).ok trivial hheader
    obtain ⟨hn, helf⟩ := loadKernel_ok hm hload
    obtain ⟨address, u₁, A, u₂, u₃, hparts⟩ := loadElf_parts helf
    obtain ⟨hcount, hpt⟩ := mem_loads.mp hi
    obtain ⟨t, t', hprefix, -⟩ := loadSegments_prefix hparts.segments hcount
    have hat : AtSegment fw fuel p s address i t :=
      ⟨u₁, A, u₂, seenHeader p, ⟨s₁, s₂, hopen, hheader, hm, hn, hparts.table⟩, hcount, hparts.pages, hprefix⟩
    have hin := h.segments address i t hat
    rw [(hat.seen hkept).2.2] at hin
    exact hin hpt hz
  · intro h
    refine ⟨h.toWholeHeaders, fun address i t hat hp hz => ?_⟩
    obtain ⟨hm, hcount, hsame⟩ := hat.seen hkept
    rw [hsame] at hp hz ⊢
    exact h.segments hm i (mem_loads.mpr ⟨hcount, hp⟩) hz

end

/-- **Truncated files.** A run that goes past the ELF loading code got every
byte it asked for exactly if the headers lie in the file and so does every part
that the load loop finds entered in the table; exactly if the file has all the
parts its own table asks for, where nothing was read over the table. -/
theorem truncated_not_started_iff (fw : Firmware σ) (fuel : Nat) (p : BootParams) (s : LoaderState σ)
    (hpast : GoesPast fw fuel p s) :
    (EveryByteDelivered fw fuel p s ↔ WholeRun fw fuel p s) ∧
      (KeepsTable fw fuel p s → (EveryByteDelivered fw fuel p s ↔ WholeFile p)) :=
  ⟨hpast.delivered_iff, fun hkept => hpast.delivered_iff.trans (hpast.wholeRun_iff hkept)⟩

/-! ## A kernel cut short -/

theorem obliging_starts {p : BootParams} (hl : Loadable p) (hleaves : LeavesTable p) :
    (∃ entry s', bootKernel (tenDescriptors false) 0 p atBootTen = .ok entry s') ∧
      GoesPast (tenDescriptors false) 0 p atBootTen ∧ KeepsTable (tenDescriptors false) 0 p atBootTen := by
  obtain ⟨_, s₀, h₀, hs₀⟩ := (openKernel_runs (p := p) (tenDescriptors_obliging false)).ok (s := atBootTen) rfl
  obtain ⟨_, s₁, h₁, rfl, hs₁⟩ := (readHeader_runs (p := p) (tenDescriptors_obliging false).toReadsFile).ok hs₀
  have hkept := hleaves.kept (tenDescriptors_obliging false) (fun _ _ => rfl) 0 hs₁
  obtain ⟨image, s₂, h₂, hs₂⟩ := loadKernel_obliges (tenDescriptors_obliging false) hl hs₁ fun _ => hkept
  obtain ⟨entry, s', hhand, -⟩ := (handOver_tenDescriptors false p image).ok hs₂
  refine ⟨⟨entry, s', ?_⟩, ⟨s₀, _, s₁, image, s₂, h₀, h₁, h₂⟩, ?_⟩
  · rw [bootKernel, bind_of_ok h₀, bind_of_ok h₁, bind_of_ok h₂]
    exact hhand
  · rintro t ⟨⟨t₀, hopen, hread⟩, -, -⟩
    cases h₀.symm.trans hopen
    cases h₁.symm.trans hread
    exact hkept

set_option maxRecDepth 20000 in
/-- The whole kernel of two segments is read to its last byte. -/
theorem truncated_not_started_twoSegments :
    GoesPast (tenDescriptors false) 0 (bootParams twoSegments) atBootTen ∧
      EveryByteDelivered (tenDescriptors false) 0 (bootParams twoSegments) atBootTen := by
  obtain ⟨-, hpast, hkept⟩ := obliging_starts twoSegments_loadable twoSegments_leavesTable
  have hwhole : WholeFile (bootParams twoSegments) := ⟨⟨by decide, by decide⟩, by decide⟩
  exact ⟨hpast, ((truncated_not_started_iff _ _ _ _ hpast).2 hkept).mpr hwhole⟩

instance shortened_size : Fact (twoSegments.dropLast.length < 2 ^ 64) := ⟨by decide +kernel⟩

set_option maxRecDepth 20000 in
/-- Without its last byte it is started all the same: the second segment asks
for two bytes and gets one. -/
theorem truncated_started_twoSegments :
    (∃ entry s', bootKernel (tenDescriptors false) 0 (bootParams twoSegments.dropLast) atBootTen =
      .ok entry s') ∧
    GoesPast (tenDescriptors false) 0 (bootParams twoSegments.dropLast) atBootTen ∧
      ¬ EveryByteDelivered (tenDescriptors false) 0 (bootParams twoSegments.dropLast) atBootTen := by
  have hl : Loadable (bootParams twoSegments.dropLast) := by
    unfold Loadable
    decide
  have hleaves : LeavesTable (bootParams twoSegments.dropLast) :=
    ⟨by unfold SegmentsFit; decide, by decide, by decide⟩
  obtain ⟨hstarted, hpast, hkept⟩ := obliging_starts hl hleaves
  refine ⟨hstarted, hpast, fun h => ?_⟩
  have hin := ((hpast.wholeRun_iff hkept).mp (hpast.delivered_iff.mp h)).segments (by decide) 1 (by decide)
    (by decide)
  revert hin
  decide

end PiousOS.Loader
