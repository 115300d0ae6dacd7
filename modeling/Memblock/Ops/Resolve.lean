import Memblock.Ops.Header

set_option autoImplicit false

/-! # Resolving a descriptor

`memblock_detect_type`, `memblock_from_offset_opt` (a heap offset to a descriptor: the
zone, the chunk — corrected from a `RUN_DATA` chunk back to its `RUN` head — the flavor,
the kind, and for a run the unit index) and `memblock_rebuild_state` (the flavor, kind and
operation vector of a descriptor whose position is already filled in).

`memblock_from_offset_opt` works by subtracting from the unsigned offset `off` each part
of the layout it recognises, and asserts at the end that nothing is left. Its model
returns, with the descriptor, that residual and a ghost flag recording whether one of
the subtractions wrapped below zero; neither changes what the function computes.
-/

namespace Memblock

section

variable (L : Layout)

/-- `memblock_detect_type`: the block kind of the chunk's type, `FATAL` on an unknown type. -/
def memblockDetectType (heap : PallocHeap) (m : MemoryBlock) : Except Fault MemoryBlockType :=
  let t := (readChunkHeader heap.mem (heapGetChunkHdr L heap m)).type
  if t = CHUNK_TYPE_RUN ∨ t = CHUNK_TYPE_RUN_DATA then pure .run
  else if t = CHUNK_TYPE_FREE ∨ t = CHUNK_TYPE_USED ∨ t = CHUNK_TYPE_FOOTER then pure .huge
  else throw (.fatal "possible zone chunks metadata corruption")

/-- The unsigned offset of `memblock_from_offset_opt`, with the ghost flag `wrapped`. -/
structure Residual where
  off : BitVec 64
  wrapped : Bool
deriving DecidableEq, Repr

/-- `off -= x`. -/
def Residual.sub (s : Residual) (x : BitVec 64) : Residual :=
  ⟨s.off - x, s.wrapped || decide (s.off < x)⟩

/-- What `memblock_from_offset_opt` ends with: the descriptor it returns, the residual
offset its last assertion checks, and whether a subtraction wrapped. -/
structure Decoded where
  block : MemoryBlock
  off : BitVec 64
  wrapped : Bool
deriving DecidableEq, Repr

/-- The unit index and the residual of a run block: `off` less the alignment padding (read
through the chunk header `hdr`) and `RUN_METASIZE`, divided by the unit size. A zero unit
size, where the C division traps, gives unit index `0` here. -/
def runBlockOff (mem : Mem) (hdr run : Nat) (htype : HeaderType) (unitSize : BitVec 64)
    (s : Residual) : BitVec 16 × Residual :=
  let s := (s.sub (runGetAlignmentPadding L mem hdr run htype)).sub
    (BitVec.ofNat 64 L.runMetaSize)
  let blockOff : BitVec 16 := (s.off / unitSize).setWidth 16
  (blockOff, s.sub (unitSize * blockOff.setWidth 64))

/-- The first lines of `memblock_from_offset_opt`: the zone and chunk of `off` (the chunk
corrected from a `RUN_DATA` chunk back to its `RUN` head), the chunk header `hdr` read
before that correction, and the offset left within the chunk. -/
def fromOffsetChunk (heap : PallocHeap) (off : BitVec 64) : MemoryBlock × Nat × Residual :=
  let s := (Residual.mk off false).sub (heapPtrToOff heap (zone0 L heap))
  let zoneId : BitVec 32 := (s.off / BitVec.ofNat 64 L.zoneMaxSize).setWidth 32
  let s := s.sub (BitVec.ofNat 64 L.zoneMaxSize * zoneId.setWidth 64 +
    BitVec.ofNat 64 L.sizeofZone)
  let m := { MEMORY_BLOCK_NONE with
    zoneId, chunkId := (s.off / BitVec.ofNat 64 L.chunkSize).setWidth 32 }
  let hdr := heapGetChunkHdr L heap m
  let h := readChunkHeader heap.mem hdr
  let m := if h.type = CHUNK_TYPE_RUN_DATA then { m with chunkId := m.chunkId - h.sizeIdx }
    else m
  (m, hdr, s.sub (BitVec.ofNat 64 L.chunkSize * m.chunkId.setWidth 64))

/-- `memblock_from_offset_opt(heap, off, size)`, with its residual and ghost flag. The
fields the C code assigns to `m` one by one are collected into the descriptor at the
points where it is read (`memblock_detect_type` reads only the position). -/
def memblockFromOffsetOptAux (heap : PallocHeap) (off : BitVec 64) (size : Bool) :
    Except Fault Decoded := do
  let (m, hdr, s) := fromOffsetChunk L heap off
  let headerType := memblockHeaderType L heap m
  let s := s.sub (BitVec.ofNat 64 (headerTypeToSize headerType))
  let type := if s.off ≠ 0 then MemoryBlockType.run else .huge
  let detected ← memblockDetectType L heap m
  assert (detected == type) "memblock_detect_type(heap, &m) == m.type"
  let unitSize := blockSize L heap { m with mOps := type }
  let (blockOff, s) := if s.off ≠ 0 then
      runBlockOff L heap.mem hdr (heapGetChunkRun L heap m) headerType unitSize s
    else (m.blockOff, s)
  let m : MemoryBlock := ⟨m.chunkId, m.zoneId, m.sizeIdx, blockOff, type, headerType, type⟩
  let sizeIdx ← if size then calcSizeIdx unitSize <$> headerGetSize L headerType heap m
    else pure 0
  assert (s.off == 0) "off == 0"
  return ⟨{ m with sizeIdx }, s.off, s.wrapped⟩

/-- `memblock_from_offset_opt(heap, off, size)`: the descriptor of the block whose data
(past its header) is at heap offset `off`, with `size_idx` computed from the header when
`size` is set and left `0` otherwise. -/
def memblockFromOffsetOpt (heap : PallocHeap) (off : BitVec 64) (size : Bool) :
    Except Fault MemoryBlock :=
  Decoded.block <$> memblockFromOffsetOptAux L heap off size

/-- `memblock_from_offset`: the descriptor with its size. -/
def memblockFromOffset (heap : PallocHeap) (off : BitVec 64) : Except Fault MemoryBlock :=
  memblockFromOffsetOpt L heap off true

/-- `memblock_rebuild_state`: the flavor, the kind and the operation vector of a
descriptor whose zone, chunk, unit index and size are filled in. -/
def memblockRebuildState (heap : PallocHeap) (m : MemoryBlock) : Except Fault MemoryBlock := do
  let m := { m with headerType := memblockHeaderType L heap m }
  let type ← memblockDetectType L heap m
  return { m with type, mOps := type }

end

end Memblock
