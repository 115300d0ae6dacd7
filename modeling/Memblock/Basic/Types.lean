import Mathlib.Data.Nat.Defs
import Mathlib.Algebra.Group.Nat.Basic

set_option autoImplicit false

/-! # Layout constants, enumerations and the memory-block descriptor

The data model of `memblock.c`. The heap geometry (`CHUNKSIZE`, `MAX_CHUNK`, the sizes of
the zone and heap headers, `RUN_METASIZE`) lives in `heap_layout.h`, which is not among the
sources: it is a parameter `Layout` here, with the facts about the constants that the
layout needs as fields, so that every result holds for every geometry with those facts.

The enumerations of `memblock.h` and `heap_layout.h` (chunk types, chunk flags, header
types, block types and states) are declared with the values the spec describes; the two
tables `header_type_to_size` and `header_type_to_flag` are the source's own.

The descriptor `struct memory_block` keeps every field but `heap`: the heap is passed to
each operation as an explicit argument (the back-reference is always the heap the
operation runs on).
-/

namespace Memblock

/-! ## Heap geometry -/

/-- Modelled from the spec: the compile-time geometry of `heap_layout.h`. A zone is a
`struct zone_header`, `MAX_CHUNK` 8-byte chunk headers and `MAX_CHUNK` chunks of
`CHUNKSIZE` bytes; a run chunk starts with `RUN_METASIZE` bytes of metadata (`block_size`,
`alignment`, then `bitmapValues` 64-bit bitmap words); `zone0` sits `heapHeaderSize`
bytes into the heap layout. -/
structure Layout where
  chunkSize : Nat
  maxChunk : Nat
  zoneHeaderSize : Nat
  heapHeaderSize : Nat
  runMetaSize : Nat
  bitmapValues : Nat
  /-- The largest allocation header (64 bytes) fits in a chunk. -/
  header_lt_chunk : 64 < chunkSize
  /-- The run metadata holds `block_size`, `alignment` and the bitmap. -/
  bitmap_le_meta : 16 + 8 * bitmapValues ≤ runMetaSize
  /-- The run metadata fits in a chunk. -/
  meta_lt_chunk : runMetaSize < chunkSize
  /-- A zone is smaller than `2 ^ ALLOC_HDR_SIZE_SHIFT`. -/
  zone_lt_size_limit : zoneHeaderSize + 8 * maxChunk + chunkSize * maxChunk < 2 ^ 48
  /-- Chunk ids are `uint32_t`. -/
  chunkId_fits : maxChunk ≤ 2 ^ 32

namespace Layout

variable (L : Layout)

/-- `sizeof(struct zone)`: the zone header and the chunk-header array. -/
def sizeofZone : Nat := L.zoneHeaderSize + 8 * L.maxChunk

/-- `ZONE_MAX_SIZE`: a zone with `MAX_CHUNK` chunks. -/
def zoneMaxSize : Nat := L.sizeofZone + L.chunkSize * L.maxChunk

theorem chunkSize_pos : 0 < L.chunkSize := by
  have := L.header_lt_chunk
  omega

theorem zoneMaxSize_lt : L.zoneMaxSize < 2 ^ 48 := L.zone_lt_size_limit

end Layout

/-- A geometry with the spec's sizes: 256 KiB chunks and 2 KiB of run metadata (254 bitmap
words), with `MAX_CHUNK = 65528` chunks behind a 64-byte zone header, and `zone0` 1 KiB
into the heap layout. -/
def specLayout : Layout where
  chunkSize := 262144
  maxChunk := 65528
  zoneHeaderSize := 64
  heapHeaderSize := 1024
  runMetaSize := 2048
  bitmapValues := 254
  header_lt_chunk := by decide
  bitmap_le_meta := by decide
  meta_lt_chunk := by decide
  zone_lt_size_limit := by decide
  chunkId_fits := by decide

/-! ## Chunk types and flags

`struct chunk_header` stores its type and flags as 16-bit fields; the constants are the
values of `enum chunk_type` and `enum chunk_flags`. -/

/-- `CHUNK_TYPE_FOOTER`. -/
def CHUNK_TYPE_FOOTER : BitVec 16 := 1
/-- `CHUNK_TYPE_FREE`. -/
def CHUNK_TYPE_FREE : BitVec 16 := 2
/-- `CHUNK_TYPE_USED`. -/
def CHUNK_TYPE_USED : BitVec 16 := 3
/-- `CHUNK_TYPE_RUN`. -/
def CHUNK_TYPE_RUN : BitVec 16 := 4
/-- `CHUNK_TYPE_RUN_DATA`. -/
def CHUNK_TYPE_RUN_DATA : BitVec 16 := 5

/-- `CHUNK_FLAG_COMPACT_HEADER`. -/
def CHUNK_FLAG_COMPACT_HEADER : BitVec 16 := 0x0001
/-- `CHUNK_FLAG_HEADER_NONE`. -/
def CHUNK_FLAG_HEADER_NONE : BitVec 16 := 0x0002
/-- `CHUNK_FLAG_ALIGNED`. -/
def CHUNK_FLAG_ALIGNED : BitVec 16 := 0x0004

/-! ## Header flavors, block kinds, block states -/

/-- `enum header_type`. -/
inductive HeaderType
  | legacy
  | compact
  | none
deriving DecidableEq, Repr

/-- `enum memory_block_type`. -/
inductive MemoryBlockType
  | huge
  | run
deriving DecidableEq, Repr

/-- `enum memblock_state`. -/
inductive MemblockState
  | stateUnknown
  | allocated
  | free
deriving DecidableEq, Repr

/-- `header_type_to_size`: `sizeof` the legacy (64 bytes) and compact (16 bytes) headers. -/
def headerTypeToSize : HeaderType → Nat
  | .legacy => 64
  | .compact => 16
  | .none => 0

/-- `header_type_to_flag`. -/
def headerTypeToFlag : HeaderType → BitVec 16
  | .legacy => 0
  | .compact => CHUNK_FLAG_COMPACT_HEADER
  | .none => CHUNK_FLAG_HEADER_NONE

theorem headerTypeToSize_le (t : HeaderType) : headerTypeToSize t ≤ 64 := by
  cases t <;> decide

/-! ## Allocation-header constants -/

/-- `ALLOC_HDR_SIZE_SHIFT`: the flags sit in the top 16 bits of a 64-bit word. -/
def ALLOC_HDR_SIZE_SHIFT : Nat := 48

/-- `ALLOC_HDR_FLAGS_MASK`: the mask of the size bits below the shift. -/
def ALLOC_HDR_FLAGS_MASK : BitVec 64 := BitVec.ofNat 64 (2 ^ ALLOC_HDR_SIZE_SHIFT - 1)

/-- `CACHELINE_SIZE`. -/
def CACHELINE_SIZE : Nat := 64

/-- `BITS_PER_VALUE`: the width of a run bitmap word. -/
def BITS_PER_VALUE : Nat := 64

/-! ## The descriptor -/

/-- `struct memory_block`. `mOps` names the entry of `mb_ops` that `m_ops` points to. -/
structure MemoryBlock where
  chunkId : BitVec 32
  zoneId : BitVec 32
  sizeIdx : BitVec 32
  blockOff : BitVec 16
  mOps : MemoryBlockType
  headerType : HeaderType
  type : MemoryBlockType
deriving DecidableEq, Repr

/-- `MEMORY_BLOCK_NONE`. The C initializer stores the sentinels `MAX_HEADER_TYPES` and
`MAX_MEMORY_BLOCK` (and a `NULL` `m_ops`) in the last three fields;
`memblock_from_offset_opt` overwrites all three before reading them, so any value does. -/
def MEMORY_BLOCK_NONE : MemoryBlock :=
  ⟨0, 0, 0, 0, .huge, .legacy, .huge⟩

/-! ## Faults

The model is the debug build: a failed `ASSERT` and a `FATAL` stop the program with a
message. -/

/-- Why a run stopped: a failed assertion (with the asserted expression) or `FATAL`. -/
inductive Fault
  | assertion (expr : String)
  | fatal (msg : String)
deriving DecidableEq, Repr

/-- `ASSERT(cond)`. -/
def assert (cond : Bool) (expr : String) : Except Fault Unit :=
  if cond then pure () else throw (.assertion expr)

@[simp] theorem assert_true (expr : String) : assert true expr = pure () := rfl

end Memblock
