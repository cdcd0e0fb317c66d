import PiousOS.L3Loader.ElfImage

/-!
# Where the program headers are read (`BootKernel`)

The pool for the table has `e_phnum * e_phentsize` bytes, the file's bytes
from `e_phoff` on. The loops index it as an array of `Elf64_Phdr`, so entry
`i` is at byte `56 * i`, whatever `e_phentsize` says; and the address of entry
0 is taken even if there is none. `TableRead` lists the members a run reads,
each with memory as it is then: a segment can have been read over the table.

* `extent_of_reads`, `loadedMem_of_reads`: the loops see no other members.
* `InPlace.member`: a read that is in place gives what the file has there.
* `table_read_at_stride_iff`: for which headers every read is in place.
* `StrideFits.loops`: for those the loops compute with the file's own headers.
-/
namespace PiousOS.Loader
open ByteMem Elf EarlyExit

variable {σ : Type}

/-! ## The reads -/

/-- A member of a program header, as a number. -/
def member (header : Elf64_Phdr) : PhdrField → Nat
  | .p_type => header.p_type.toNat
  | .p_flags => header.p_flags.toNat
  | .p_offset => header.p_offset.toNat
  | .p_vaddr => header.p_vaddr.toNat
  | .p_paddr => header.p_paddr.toNat
  | .p_filesz => header.p_filesz.toNat
  | .p_memsz => header.p_memsz.toNat
  | .p_align => header.p_align.toNat

/-- What the extent loop reads of entry `i`.
mirrors src/bootloader/boot.c:262-271 -/
def extentReads (i : Nat) (header : Elf64_Phdr) : List (Nat × PhdrField) :=
  (i, .p_type) :: if header.p_type = PT_LOAD then [(i, .p_vaddr), (i, .p_memsz)] else []

/-- What the load loop reads at entry `i`; the section address counts from
entry 0.
mirrors src/bootloader/boot.c:531-556 -/
def loadReads (i : Nat) (header : Elf64_Phdr) : List (Nat × PhdrField) :=
  [(i, .p_filesz), (i, .p_vaddr), (0, .p_vaddr), (i, .p_type)] ++
    if header.p_type = PT_LOAD then [(i, .p_offset)] else []

/-- A run of `BootKernel` that has read the table, to `address`, of a file it
takes for an ELF file of this machine. -/
def AtTable (fw : Firmware σ) (p : BootParams) (s s' : LoaderState σ) (header : Elf64_Ehdr)
    (address : UINT64) : Prop :=
  ∃ s₁ s₂, openKernel fw p s = .ok () s₁ ∧ readHeader fw p s₁ = .ok header s₂ ∧
    hasMagic header = true ∧ isNative header = true ∧ readTable fw p header s₂ = .ok address s'

/-- The members a run of `BootKernel` reads, and memory as it is then: in the
extent loop, in the load loop as far as it comes, and of entry 0 after it. -/
inductive TableRead (fw : Firmware σ) (fuel : Nat) (p : BootParams) (s : LoaderState σ)
    (header : Elf64_Ehdr) : UINT64 → ByteMem → Nat × PhdrField → Prop where
  | extent {s₁ address i r} (at_table : AtTable fw p s s₁ header address)
      (hi : i < header.e_phnum.toNat) (hr : r ∈ extentReads i (headersAt address s₁.mem i)) :
      TableRead fw fuel p s header address s₁.mem r
  | load {s₁ s₂ s₃ address A i r} (at_table : AtTable fw p s s₁ header address)
      (allocated : allocateImage fw fuel (imagePages (headersAt address s₁.mem) header.e_phnum.toNat) s₁ =
        .ok A s₂)
      (before : loadSegments fw p.file (headersAt address) A i s₂ = .ok () s₃)
      (hi : i < header.e_phnum.toNat) (hr : r ∈ loadReads i (headersAt address s₃.mem i)) :
      TableRead fw fuel p s header address s₃.mem r
  | start {s₁ s₂ s₃ address A} (at_table : AtTable fw p s s₁ header address)
      (allocated : allocateImage fw fuel (imagePages (headersAt address s₁.mem) header.e_phnum.toNat) s₁ =
        .ok A s₂)
      (loaded : loadSegments fw p.file (headersAt address) A header.e_phnum.toNat s₂ = .ok () s₃) :
      TableRead fw fuel p s header address s₃.mem (0, .p_vaddr)

/-- `&program_headers_table[i]`, in bytes. -/
def entryOffset (i : Nat) : Nat := sizeofPhdr * i

/-- Where a member ends in its header. -/
def memberEnd (f : PhdrField) : Nat := offsetOf Elf64_Phdr_layout f + fieldSize Elf64_Phdr_layout f

theorem memberEnd_eq (f : PhdrField) : memberEnd f = match f with
    | .p_type => 4 | .p_flags => 8 | .p_offset => 16 | .p_vaddr => 24 | .p_paddr => 32
    | .p_filesz => 40 | .p_memsz => 48 | .p_align => 56 := by
  cases f <;> rfl

/-- The read is of one of the file's headers, at the file's own stride, and
inside the pool. -/
structure InPlace (header : Elf64_Ehdr) (r : Nat × PhdrField) : Prop where
  counted : r.1 < header.e_phnum.toNat
  stride : entryOffset r.1 = r.1 * header.e_phentsize.toNat
  inside : entryOffset r.1 + memberEnd r.2 ≤ header.e_phnum.toNat * header.e_phentsize.toNat

/-- Such a read that gives what the file has there. -/
structure OwnRead (p : BootParams) (header : Elf64_Ehdr) (address : UINT64) (mem : ByteMem)
    (r : Nat × PhdrField) : Prop extends InPlace header r where
  value : member (headersAt address mem r.1) r.2 = member (programHeader p.file header r.1) r.2

/-- Every read of an entry that nothing was stored over since the table was
read is of the file's own header. -/
def ReadsAtStride (p : BootParams) : Prop :=
  ∀ (σ : Type) (fw : Firmware σ) (fuel : Nat) (s : LoaderState σ) (header : Elf64_Ehdr)
    (address : UINT64) (mem : ByteMem) (r : Nat × PhdrField),
    TableRead fw fuel p s header address mem r →
    headersAt address mem r.1 = seenTable p header r.1 → OwnRead p header address mem r

/-- The size of the entries is that of the struct; of a single entry the
members that are read may do. -/
structure StrideFits (file : List UINT8) (header : Elf64_Ehdr) : Prop where
  some : 1 ≤ header.e_phnum.toNat
  size : header.e_phentsize.toNat = sizeofPhdr ∨ header.e_phnum.toNat = 1 ∧
    (48 ≤ header.e_phentsize.toNat ∨
      40 ≤ header.e_phentsize.toNat ∧ (programHeader file header 0).p_type ≠ PT_LOAD)

/-! ## Nothing else is read -/

section
variable {table table' : Nat → Elf64_Phdr} {n : Nat}

theorem p_type_of_member {h h' : Elf64_Phdr} (hm : member h' .p_type = member h .p_type) :
    h'.p_type = h.p_type := BitVec.eq_of_toNat_eq hm

theorem p_vaddr_of_member {h h' : Elf64_Phdr} (hm : member h' .p_vaddr = member h .p_vaddr) :
    h'.p_vaddr = h.p_vaddr := BitVec.eq_of_toNat_eq hm

/-- The extent loop sees its reads only. -/
theorem extent_of_reads
    (h : ∀ i < n, ∀ r ∈ extentReads i (table i), member (table' r.1) r.2 = member (table r.1) r.2) :
    extent table' n = extent table n := by
  induction n with
  | zero => rfl
  | succ n ih =>
    rw [extent, extent, ih fun i hi => h i (Nat.lt_succ_of_lt hi)]
    have hn := h n (Nat.lt_succ_self n)
    have htype := p_type_of_member (hn (n, .p_type) (by simp [extentReads]))
    unfold extentStep
    rw [htype]
    by_cases hload : (table n).p_type = PT_LOAD
    · have hvaddr := p_vaddr_of_member (hn (n, .p_vaddr) (by simp [extentReads, hload]))
      have hmemsz : (table' n).p_memsz = (table n).p_memsz :=
        BitVec.eq_of_toNat_eq (hn (n, .p_memsz) (by simp [extentReads, hload]))
      rw [hvaddr, hmemsz]
    · rw [if_neg hload, if_neg hload]

/-- So does the load loop. -/
theorem loadedMem_of_reads {file : List UINT8} {A : UINT64} {mem : ByteMem}
    (h : ∀ i < n, ∀ r ∈ loadReads i (table i), member (table' r.1) r.2 = member (table r.1) r.2) :
    loadedMem file table' A mem n = loadedMem file table A mem n := by
  induction n with
  | zero => rfl
  | succ n ih =>
    rw [loadedMem, loadedMem, ih fun i hi => h i (Nat.lt_succ_of_lt hi)]
    have hn := h n (Nat.lt_succ_self n)
    have htype := p_type_of_member (hn (n, .p_type) (by simp [loadReads]))
    have hvaddr := p_vaddr_of_member (hn (n, .p_vaddr) (by simp [loadReads]))
    have hfirst := p_vaddr_of_member (hn (0, .p_vaddr) (by simp [loadReads]))
    have hfilesz : (table' n).p_filesz = (table n).p_filesz :=
      BitVec.eq_of_toNat_eq (hn (n, .p_filesz) (by simp [loadReads]))
    rw [htype]
    by_cases hload : (table n).p_type = PT_LOAD
    · have hoffset : (table' n).p_offset = (table n).p_offset :=
        BitVec.eq_of_toNat_eq (hn (n, .p_offset) (by simp [loadReads, hload]))
      rw [if_pos hload, if_pos hload, sectionAddress, sectionAddress, hvaddr, hfirst, hfilesz, hoffset]
    · rw [if_neg hload, if_neg hload]

end

/-! ## Reads in place -/

/-- A member has as many bits as its bytes. -/
theorem field_toNat (mem : ByteMem) (a : UINT64) (f : PhdrField) {w : Nat}
    (hw : 8 * fieldSize Elf64_Phdr_layout f = w) :
    (BitVec.ofNat w (loadField mem Elf64_Phdr_layout a f)).toNat = loadField mem Elf64_Phdr_layout a f := by
  have hlt := load_lt mem (a + BitVec.ofNat 64 (offsetOf Elf64_Phdr_layout f))
    (fieldSize Elf64_Phdr_layout f)
  rw [BitVec.toNat_ofNat, ← hw, Nat.pow_mul]
  exact Nat.mod_eq_of_lt hlt

theorem member_loadPhdr (mem : ByteMem) (a : UINT64) (f : PhdrField) :
    member (loadPhdr mem a) f = loadField mem Elf64_Phdr_layout a f := by
  cases f with
  | p_type => exact field_toNat mem a .p_type rfl
  | p_flags => exact field_toNat mem a .p_flags rfl
  | p_offset => exact field_toNat mem a .p_offset rfl
  | p_vaddr => exact field_toNat mem a .p_vaddr rfl
  | p_paddr => exact field_toNat mem a .p_paddr rfl
  | p_filesz => exact field_toNat mem a .p_filesz rfl
  | p_memsz => exact field_toNat mem a .p_memsz rfl
  | p_align => exact field_toNat mem a .p_align rfl

section
variable {fw : Firmware σ} {fuel : Nat} {p : BootParams} {s s' : LoaderState σ} {header : Elf64_Ehdr}
  {table : Nat → Elf64_Phdr} {r : Nat × PhdrField}

theorem InPlace.member (h : InPlace header r)
    (hlong : header.e_phoff.toNat + header.e_phnum.toNat * header.e_phentsize.toNat ≤ p.file.length) :
    member (seenTable p header r.1) r.2 = member (programHeader p.file header r.1) r.2 := by
  obtain ⟨i, f⟩ := r
  obtain ⟨-, hstride, hinside⟩ := h
  have hsize := tableSize_toNat header
  have hlen : (delivered p.file header.e_phoff (tableSize header)).length =
      header.e_phnum.toNat * header.e_phentsize.toNat := by
    rw [delivered_length p.file_lt (by rw [hsize]; exact hlong), hsize]
  have hlt := (tableSize header).isLt
  have hoff := offsetOf_add_le Elf64_Phdr_layout f
  rw [seenTable, headerTable, programHeader, member_loadPhdr, member_loadPhdr]
  rw [show sizeofPhdr * i = entryOffset i from rfl]
  dsimp only [memberEnd] at hstride hinside ⊢
  refine load_congr_at fun k hk => ?_
  have hfile : offsetOf Elf64_Phdr_layout f + k <
      (p.file.drop (header.e_phoff.toNat + i * header.e_phentsize.toNat)).length := by
    rw [List.length_drop]
    omega
  rw [BitVec.zero_add, ← BitVec.ofNat_add, ← BitVec.ofNat_add, ← BitVec.ofNat_add,
    fileBytes_at _ (by omega) (by omega), fileBytes_at _ hfile (by omega),
    delivered_getD p.file_lt (by omega)]
  simp only [List.getD_eq_getElem?_getD, List.getElem?_drop]
  congr 2
  omega

theorem AtTable.seen {address : UINT64} (h : AtTable fw p s s' header address) :
    header = seenHeader p ∧ TableIntact p header address s'.mem := by
  obtain ⟨s₁, s₂, -, hheader, -, -, htable⟩ := h
  exact ⟨((readHeader_returns (J := fun _ => True)).ok trivial hheader).1,
    ((readTable_returns (J := fun _ => True) header).ok trivial htable).1⟩

theorem TableRead.seen {address : UINT64} {mem : ByteMem}
    (h : TableRead fw fuel p s header address mem r) : header = seenHeader p := by
  cases h with
  | extent ht _ _ => exact ht.seen.1
  | load ht _ _ _ _ => exact ht.seen.1
  | start ht _ _ => exact ht.seen.1

/-- An obliging firmware takes the run to the table, in a pool at 64 KiB. -/
theorem obliging_atTable (hmagic : hasMagic (seenHeader p) = true)
    (hnative : isNative (seenHeader p) = true)
    (hphoff : filePosition p.file (seenHeader p).e_phoff ≤ p.file.length) :
    ∃ s₁, AtTable obliging p atBoot s₁ (seenHeader p) 0x10000 := by
  obtain ⟨_, s₁, h₁, hs₁⟩ := (openKernel_runs (p := p) obliging_obliging).ok (s := atBoot) trivial
  obtain ⟨_, s₂, h₂, rfl, hs₂⟩ := (readHeader_runs (p := p) obliging_readsFile).ok hs₁
  obtain ⟨address, s₃, h₃, -⟩ := (readTable_runs obliging_obliging hphoff).ok hs₂
  cases readTable_pool (fun _ _ => rfl) h₃
  exact ⟨s₃, s₁, s₂, h₁, h₂, hmagic, hnative, h₃⟩

/-- It gives an image without segments one page, away from that pool. -/
theorem obliging_page {s₁ : LoaderState Unit} (hat : AtTable obliging p atBoot s₁ (seenHeader p) 0x10000)
    (hpages : imagePages (headersAt 0x10000 s₁.mem) (seenHeader p).e_phnum.toNat = 1) :
    ∃ A s₂, allocateImage obliging 0
        (imagePages (headersAt 0x10000 s₁.mem) (seenHeader p).e_phnum.toNat) s₁ = .ok A s₂ ∧
      headersAt 0x10000 s₂.mem 0 = seenTable p (seenHeader p) 0 := by
  obtain ⟨A, s₂, halloc, -, -, hmem⟩ := (allocateImage_runs obliging_obliging 0
    (imagePages (headersAt 0x10000 s₁.mem) (seenHeader p).e_phnum.toNat) s₁.mem).ok (s := s₁)
    ⟨trivial, rfl⟩
  refine ⟨A, s₂, halloc, ?_⟩
  rw [← hat.seen.2 0 (by omega), hmem, hpages, zeroedFirst]
  have hone : ((1 : UINTN) <<< EFI_PAGE_SHIFT).toNat = 4096 := by decide
  have hapart : Apart 0x10000 sizeofPhdr firstAddress 4096 := apart_of_ranges (by decide) (by decide) (by decide)
  refine loadPhdr_congr fun k hk => fill_outside (hone ▸ hapart _ ?_)
  have hs : sizeofPhdr = 56 := by decide
  rw [Nat.mul_zero, BitVec.add_zero, add_ofNat_sub _ (by omega)]
  exact hk

/-- A read is of an entry that is counted, or of entry 0, and of a member up to
`p_memsz`; of `p_memsz` itself only in a `PT_LOAD` entry. -/
structure ReadEnds (header : Elf64_Ehdr) (table : Nat → Elf64_Phdr) (r : Nat × PhdrField) : Prop where
  counted : r.1 < header.e_phnum.toNat ∨ r.1 = 0
  memsz : memberEnd r.2 ≤ 48
  filesz : (table r.1).p_type ≠ PT_LOAD → memberEnd r.2 ≤ 40

theorem extentReads_ends {i : Nat} (hi : i < header.e_phnum.toNat) (hr : r ∈ extentReads i (table i)) :
    ReadEnds header table r := by
  unfold extentReads at hr
  by_cases hload : (table i).p_type = PT_LOAD
  · rw [if_pos hload] at hr
    simp only [List.mem_cons, List.not_mem_nil, or_false] at hr
    rcases hr with rfl | rfl | rfl
    · exact ⟨.inl hi, by simp [memberEnd_eq], fun _ => by simp [memberEnd_eq]⟩
    · exact ⟨.inl hi, by simp [memberEnd_eq], fun _ => by simp [memberEnd_eq]⟩
    · exact ⟨.inl hi, by simp [memberEnd_eq], fun hno => absurd hload hno⟩
  · rw [if_neg hload, List.mem_singleton] at hr
    subst hr
    exact ⟨.inl hi, by simp [memberEnd_eq], fun _ => by simp [memberEnd_eq]⟩

theorem loadReads_ends {i : Nat} (hi : i < header.e_phnum.toNat) (hr : r ∈ loadReads i (table i)) :
    ReadEnds header table r := by
  unfold loadReads at hr
  rcases List.mem_append.mp hr with hr | hr
  · simp only [List.mem_cons, List.not_mem_nil, or_false] at hr
    rcases hr with rfl | rfl | rfl | rfl
    · exact ⟨.inl hi, by simp [memberEnd_eq], fun _ => by simp [memberEnd_eq]⟩
    · exact ⟨.inl hi, by simp [memberEnd_eq], fun _ => by simp [memberEnd_eq]⟩
    · exact ⟨.inr rfl, by simp [memberEnd_eq], fun _ => by simp [memberEnd_eq]⟩
    · exact ⟨.inl hi, by simp [memberEnd_eq], fun _ => by simp [memberEnd_eq]⟩
  · split at hr
    · rw [List.mem_singleton] at hr
      subst hr
      exact ⟨.inl hi, by simp [memberEnd_eq], fun _ => by simp [memberEnd_eq]⟩
    · cases hr

theorem TableRead.ends {address : UINT64} {mem : ByteMem}
    (h : TableRead fw fuel p s header address mem r) : ReadEnds header (headersAt address mem) r := by
  cases h with
  | extent _ hi hr => exact extentReads_ends hi hr
  | load _ _ _ hi hr => exact loadReads_ends hi hr
  | start _ _ _ => exact ⟨.inr rfl, by simp [memberEnd_eq], fun _ => by simp [memberEnd_eq]⟩

/-! ## Which headers fit -/

/-- Where the header fits, every such read is in place. -/
theorem StrideFits.inPlace (h : StrideFits p.file header)
    (hlong : header.e_phoff.toNat + header.e_phnum.toNat * header.e_phentsize.toNat ≤ p.file.length)
    (hr : ReadEnds header (seenTable p header) r) : InPlace header r := by
  obtain ⟨hsome, hsize⟩ := h
  have hcounted : r.1 < header.e_phnum.toNat := by
    cases hr.counted with
    | inl hlt => exact hlt
    | inr he => rw [he]; exact hsome
  have hs : sizeofPhdr = 56 := by decide
  cases hsize with
  | inl hstruct =>
    have hnext := Nat.mul_le_mul_right 56 (Nat.succ_le_of_lt hcounted)
    have h48 := hr.memsz
    rw [hs] at hstruct
    refine ⟨hcounted, by rw [entryOffset, hs, hstruct, Nat.mul_comm], ?_⟩
    rw [entryOffset, hs, hstruct]
    omega
  | inr hone =>
    obtain ⟨hone, hmembers⟩ := hone
    have hzero : r.1 = 0 := by omega
    refine ⟨hcounted, by rw [hzero, entryOffset, Nat.mul_zero, Nat.zero_mul], ?_⟩
    rw [hone, Nat.one_mul, hzero, entryOffset, Nat.mul_zero, Nat.zero_add]
    rcases hmembers with hall | ⟨hmost, hother⟩
    · exact Nat.le_trans hr.memsz hall
    · -- the loader sees the type the file has
      have htype : InPlace header (0, .p_type) := by
        refine ⟨by rw [hone]; exact Nat.one_pos, by rw [entryOffset, Nat.mul_zero, Nat.zero_mul], ?_⟩
        rw [hone, Nat.one_mul, entryOffset, Nat.mul_zero, Nat.zero_add]
        exact Nat.le_trans (by decide) hmost
      have hseen := p_type_of_member (htype.member hlong)
      refine Nat.le_trans (hr.filesz ?_) hmost
      rw [hzero, hseen]
      exact hother

/-- Then the loops compute with the program headers of the file. -/
theorem StrideFits.loops (h : StrideFits p.file header)
    (hlong : header.e_phoff.toNat + header.e_phnum.toNat * header.e_phentsize.toNat ≤ p.file.length)
    (A : UINT64) (mem : ByteMem) :
    extent (seenTable p header) header.e_phnum.toNat =
        extent (programHeader p.file header) header.e_phnum.toNat ∧
      loadedMem p.file (seenTable p header) A mem header.e_phnum.toNat =
        loadedMem p.file (programHeader p.file header) A mem header.e_phnum.toNat := by
  constructor
  · refine (extent_of_reads fun i hi r hr => ?_).symm
    exact ((h.inPlace hlong (extentReads_ends hi hr)).member hlong).symm
  · refine (loadedMem_of_reads fun i hi r hr => ?_).symm
    exact ((h.inPlace hlong (loadReads_ends hi hr)).member hlong).symm

theorem readsAtStride_of_fits (h : StrideFits p.file (seenHeader p))
    (hlong : (seenHeader p).e_phoff.toNat +
      (seenHeader p).e_phnum.toNat * (seenHeader p).e_phentsize.toNat ≤ p.file.length) :
    ReadsAtStride p := by
  intro σ fw fuel s header address mem r hread hsame
  cases hread.seen
  obtain ⟨hcounted, h48, h40⟩ := hread.ends
  rw [hsame] at h40
  have hplace := h.inPlace hlong ⟨hcounted, h48, h40⟩
  exact ⟨hplace, by rw [hsame, hplace.member hlong]⟩

theorem imagePages_of_none {table : Nat → Elf64_Phdr} {n : Nat} (h : loads table n = ∅) :
    imagePages table n = 1 := by
  apply BitVec.eq_of_toNat_eq
  rw [imagePages_toNat, spanPages, imageEnd, imageStart, h, Finset.sup_empty, Finset.sup_empty]
  decide

theorem fits_of_readsAtStride (hmagic : hasMagic (seenHeader p) = true)
    (hnative : isNative (seenHeader p) = true)
    (hlong : (seenHeader p).e_phoff.toNat +
      (seenHeader p).e_phnum.toNat * (seenHeader p).e_phentsize.toNat ≤ p.file.length)
    (h : ReadsAtStride p) : StrideFits p.file (seenHeader p) := by
  obtain ⟨s₁, hat⟩ := obliging_atTable hmagic hnative (filePosition_le (by omega))
  have hintact := hat.seen.2
  have hextent := fun {i r} (hi : i < (seenHeader p).e_phnum.toNat)
      (hr : r ∈ extentReads i (headersAt 0x10000 s₁.mem i)) (hr' : r.1 = i) =>
    h Unit obliging 0 atBoot _ _ _ r (.extent hat hi hr) (hintact r.1 (by omega))
  -- with no entry to load, the run comes to the load loop with its table
  have hpage := fun (hnone : loads (headersAt 0x10000 s₁.mem) (seenHeader p).e_phnum.toNat = ∅) =>
    obliging_page hat (imagePages_of_none hnone)
  have hsome : 1 ≤ (seenHeader p).e_phnum.toNat := by
    by_contra hno
    have hzero : (seenHeader p).e_phnum.toNat = 0 := by omega
    obtain ⟨A, s₂, halloc, h0⟩ := hpage (by rw [hzero]; rfl)
    have hread : TableRead obliging 0 p atBoot (seenHeader p) 0x10000 s₂.mem (0, .p_vaddr) :=
      .start hat halloc (by rw [hzero]; rfl)
    have := (h Unit obliging 0 atBoot _ _ _ _ hread h0).counted
    omega
  refine ⟨hsome, ?_⟩
  rcases Nat.eq_or_lt_of_le hsome with hone | htwo
  · refine .inr ⟨hone.symm, ?_⟩
    have hinside : ∀ f, InPlace (seenHeader p) (0, f) → memberEnd f ≤ (seenHeader p).e_phentsize.toNat := by
      intro f hf
      have hin := hf.inside
      rw [← hone, Nat.one_mul, entryOffset, Nat.mul_zero, Nat.zero_add] at hin
      exact hin
    have htype := hextent hsome (r := (0, .p_type)) (by simp [extentReads]) rfl
    have hseen : (headersAt 0x10000 s₁.mem 0).p_type = (programHeader p.file (seenHeader p) 0).p_type :=
      p_type_of_member htype.value
    by_cases hpt : (programHeader p.file (seenHeader p) 0).p_type = PT_LOAD
    · refine .inl (hinside .p_memsz (hextent hsome ?_ rfl).toInPlace)
      rw [extentReads, if_pos (hseen.trans hpt)]
      simp
    · refine .inr ⟨?_, hpt⟩
      have hnone : loads (headersAt 0x10000 s₁.mem) (seenHeader p).e_phnum.toNat = ∅ := by
        rw [← hone]
        exact loads_succ_of_other fun hp => hpt (hseen.symm.trans hp)
      obtain ⟨A, s₂, halloc, h0⟩ := hpage hnone
      have hread : TableRead obliging 0 p atBoot (seenHeader p) 0x10000 s₂.mem (0, .p_filesz) :=
        .load (i := 0) hat halloc rfl hsome (by simp [loadReads])
      exact hinside .p_filesz (h Unit obliging 0 atBoot _ _ _ _ hread h0).toInPlace
  · -- the second entry is where the struct's size puts it
    have hsecond := (hextent htwo (r := (1, .p_type)) (by simp [extentReads]) rfl).stride
    rw [entryOffset, Nat.mul_one, Nat.one_mul] at hsecond
    exact .inl hsecond.symm

end

/-- **The file's stride.** Of a file long enough for its table, every program
header that is not overwritten is read where the file has it, inside the pool,
with the value it has there, and entry 0 only if it exists, exactly if there
is an entry and entries have the size of the struct, or there is one and the
members read of it fit. No header is rejected. -/
theorem table_read_at_stride_iff (p : BootParams) (hmagic : hasMagic (seenHeader p) = true)
    (hnative : isNative (seenHeader p) = true)
    (hlong : (seenHeader p).e_phoff.toNat +
      (seenHeader p).e_phnum.toNat * (seenHeader p).e_phentsize.toNat ≤ p.file.length) :
    ReadsAtStride p ↔ StrideFits p.file (seenHeader p) :=
  ⟨fits_of_readsAtStride hmagic hnative hlong, fun h => readsAtStride_of_fits h hlong⟩

set_option maxRecDepth 20000 in
theorem table_read_at_stride_twoSegments : ReadsAtStride (bootParams twoSegments) :=
  (table_read_at_stride_iff (bootParams twoSegments) (by decide) (by decide) (by decide)).mpr
    ⟨by decide, .inl (by decide)⟩

/-- Two program headers of 64 bytes each. -/
def wideEntries : List UINT8 := (encodeEhdr 0x40000000 2).set 54 64 ++ bytesOf 128 0

instance wideEntries_size : Fact (wideEntries.length < 2 ^ 64) := ⟨by decide +kernel⟩

set_option maxRecDepth 20000 in
/-- The second one is read 8 bytes before its place. -/
theorem table_not_read_at_stride_wideEntries :
    hasMagic (seenHeader (bootParams wideEntries)) = true ∧
    isNative (seenHeader (bootParams wideEntries)) = true ∧
    (seenHeader (bootParams wideEntries)).e_phoff.toNat + (seenHeader (bootParams wideEntries)).e_phnum.toNat *
      (seenHeader (bootParams wideEntries)).e_phentsize.toNat ≤ wideEntries.length ∧
    ¬ ReadsAtStride (bootParams wideEntries) := by
  have hmagic : hasMagic (seenHeader (bootParams wideEntries)) = true := by decide
  have hnative : isNative (seenHeader (bootParams wideEntries)) = true := by decide
  have hlong : (seenHeader (bootParams wideEntries)).e_phoff.toNat +
      (seenHeader (bootParams wideEntries)).e_phnum.toNat *
        (seenHeader (bootParams wideEntries)).e_phentsize.toNat ≤ wideEntries.length := by decide
  refine ⟨hmagic, hnative, hlong, fun h => ?_⟩
  have hsize := (fits_of_readsAtStride hmagic hnative hlong h).size
  revert hsize
  decide

end PiousOS.Loader
