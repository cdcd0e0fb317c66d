import PiousOS.Core.ByteMem

/-!
# ELF64 files (`inc/bootloader/elf.h`)

The ELF header and the program headers as the loader reads them: structs
in memory, little-endian, with the layout of `elf.h`. `fileBytes` is a file
as a memory that starts at address 0, so that a header of the file and a
header the loader has in a buffer are loaded the same way.
-/
namespace PiousOS.Elf
open ByteMem

inductive EhdrField where
  | e_ident | e_type | e_machine | e_version | e_entry | e_phoff | e_shoff | e_flags | e_ehsize
  | e_phentsize | e_phnum | e_shentsize | e_shnum | e_shstrndx
  deriving DecidableEq, Repr

/-- mirrors inc/bootloader/elf.h:97-113 -/
def Elf64_Ehdr_layout : List (EhdrField × Nat) :=
  [(.e_ident, 16), (.e_type, 2), (.e_machine, 2), (.e_version, 4), (.e_entry, 8), (.e_phoff, 8),
    (.e_shoff, 8), (.e_flags, 4), (.e_ehsize, 2), (.e_phentsize, 2), (.e_phnum, 2),
    (.e_shentsize, 2), (.e_shnum, 2), (.e_shstrndx, 2)]

inductive PhdrField where
  | p_type | p_flags | p_offset | p_vaddr | p_paddr | p_filesz | p_memsz | p_align
  deriving DecidableEq, Repr

/-- mirrors inc/bootloader/elf.h:702-712 -/
def Elf64_Phdr_layout : List (PhdrField × Nat) :=
  [(.p_type, 4), (.p_flags, 4), (.p_offset, 8), (.p_vaddr, 8), (.p_paddr, 8), (.p_filesz, 8),
    (.p_memsz, 8), (.p_align, 8)]

/-- The fields of the ELF header the loader looks at. -/
structure Elf64_Ehdr where
  e_ident : Nat → UINT8
  e_machine : UINT16
  e_entry : UINT64
  e_phoff : UINT64
  e_phentsize : UINT16
  e_phnum : UINT16

@[ext] structure Elf64_Phdr where
  p_type : UINT32
  p_flags : UINT32
  p_offset : UINT64
  p_vaddr : UINT64
  p_paddr : UINT64
  p_filesz : UINT64
  p_memsz : UINT64
  p_align : UINT64
  deriving DecidableEq, Repr

/-- The ELF header at `a`. -/
def loadEhdr (mem : ByteMem) (a : UINT64) : Elf64_Ehdr where
  e_ident i := mem (a + BitVec.ofNat 64 i)
  e_machine := BitVec.ofNat 16 (loadField mem Elf64_Ehdr_layout a .e_machine)
  e_entry := BitVec.ofNat 64 (loadField mem Elf64_Ehdr_layout a .e_entry)
  e_phoff := BitVec.ofNat 64 (loadField mem Elf64_Ehdr_layout a .e_phoff)
  e_phentsize := BitVec.ofNat 16 (loadField mem Elf64_Ehdr_layout a .e_phentsize)
  e_phnum := BitVec.ofNat 16 (loadField mem Elf64_Ehdr_layout a .e_phnum)

/-- The program header at `a`. -/
def loadPhdr (mem : ByteMem) (a : UINT64) : Elf64_Phdr where
  p_type := BitVec.ofNat 32 (loadField mem Elf64_Phdr_layout a .p_type)
  p_flags := BitVec.ofNat 32 (loadField mem Elf64_Phdr_layout a .p_flags)
  p_offset := BitVec.ofNat 64 (loadField mem Elf64_Phdr_layout a .p_offset)
  p_vaddr := BitVec.ofNat 64 (loadField mem Elf64_Phdr_layout a .p_vaddr)
  p_paddr := BitVec.ofNat 64 (loadField mem Elf64_Phdr_layout a .p_paddr)
  p_filesz := BitVec.ofNat 64 (loadField mem Elf64_Phdr_layout a .p_filesz)
  p_memsz := BitVec.ofNat 64 (loadField mem Elf64_Phdr_layout a .p_memsz)
  p_align := BitVec.ofNat 64 (loadField mem Elf64_Phdr_layout a .p_align)

def sizeofEhdr : Nat := structSize Elf64_Ehdr_layout
def sizeofPhdr : Nat := structSize Elf64_Phdr_layout

example : sizeofEhdr = 64 ∧ sizeofPhdr = 56 := by decide

def ELFMAG : Nat → UINT8
  | 0 => 0x7F
  | 1 => 0x45
  | 2 => 0x4C
  | _ => 0x46
def SELFMAG : Nat := 4
def EI_CLASS : Nat := 4
def ELFCLASS64 : UINT8 := 2
def EM_X86_64 : UINT16 := 62
def PT_LOAD : UINT32 := 1

/-- The file's bytes from address 0 on, over what memory held before. -/
def fileBytes (before : ByteMem) (data : List UINT8) : ByteMem :=
  fill before 0#64 data.length fun i => data.getD i 0

theorem loadPhdr_congr {mem mem' : ByteMem} {a b : UINT64}
    (h : ∀ i < sizeofPhdr, mem' (b + BitVec.ofNat 64 i) = mem (a + BitVec.ofNat 64 i)) :
    loadPhdr mem' b = loadPhdr mem a := by
  have field (f : PhdrField) :
      loadField mem' Elf64_Phdr_layout b f = loadField mem Elf64_Phdr_layout a f :=
    loadField_congr_at h
  simp only [loadPhdr, field]

/-- The file's bytes are where they belong. -/
theorem fileBytes_at (before : ByteMem) {data : List UINT8} {k : Nat} (hk : k < data.length)
    (h64 : k < 2 ^ 64) : fileBytes before data (BitVec.ofNat 64 k) = data.getD k 0 := by
  have hk' : (BitVec.ofNat 64 k - 0#64).toNat = k := by
    rw [BitVec.sub_zero, BitVec.toNat_ofNat]
    exact Nat.mod_eq_of_lt h64
  rw [fileBytes, fill_inside (by rw [hk']; exact hk), hk']

/-! ## Files as a linker writes them -/

/-- `v` in `n` bytes, little-endian. -/
def bytesOf (n v : Nat) : List UINT8 := (List.range n).map fun i => BitVec.ofNat 8 (v / 256 ^ i)

def encodePhdr (header : Elf64_Phdr) : List UINT8 :=
  bytesOf 4 header.p_type.toNat ++ bytesOf 4 header.p_flags.toNat ++
    bytesOf 8 header.p_offset.toNat ++ bytesOf 8 header.p_vaddr.toNat ++
    bytesOf 8 header.p_paddr.toNat ++ bytesOf 8 header.p_filesz.toNat ++
    bytesOf 8 header.p_memsz.toNat ++ bytesOf 8 header.p_align.toNat

/-- The ELF header of an x86-64 executable, its program headers behind it. -/
def encodeEhdr (e_entry : UINT64) (e_phnum : Nat) : List UINT8 :=
  [0x7F, 0x45, 0x4C, 0x46, 2, 1, 1, 0] ++ bytesOf 8 0 ++ bytesOf 2 2 ++ bytesOf 2 62 ++ bytesOf 4 1 ++
    bytesOf 8 e_entry.toNat ++ bytesOf 8 64 ++ bytesOf 8 0 ++ bytesOf 4 0 ++ bytesOf 2 64 ++
    bytesOf 2 56 ++ bytesOf 2 e_phnum ++ bytesOf 6 0

/-- An executable: ELF header, program headers, contents. -/
def linkedFile (e_entry : UINT64) (headers : List Elf64_Phdr) (contents : List UINT8) : List UINT8 :=
  encodeEhdr e_entry headers.length ++ headers.flatMap encodePhdr ++ contents

end PiousOS.Elf
