import Memblock.Ops.Block

set_option autoImplicit false

/-! # Allocation headers and the generic block operations

The three header flavors of `memblock_header_ops` — legacy (64 bytes: `size`, `type_num`,
`root_size` with the flags in its top 16 bits, and 40 unused bytes), compact (16 bytes:
`size` with the flags in its top 16 bits, and `extra`) and none (no bytes) — and the
operations `mb_ops` shares between the two block kinds, which size, write and read a
block through its flavor.

A header write copies a local image of the header; the bytes of the image the C code
leaves uninitialized (the legacy `unused` field, the compact cacheline padding) are those
of the argument `uninit`.
-/

namespace Memblock

section

variable (L : Layout)

/-! ## Reads

Every read of a header field loads the 64-bit word at the field's offset from the block's
real data; the flavors differ in the offset and in what they do with the word. -/

/-- The 64-bit word `off` bytes into the block's header. -/
def headerWord (off : Nat) (heap : PallocHeap) (m : MemoryBlock) : Except Fault (BitVec 64) := do
  let hdr ← getRealData L heap m
  return load64 heap.mem (hdr + off)

/-- The flags in the top 16 bits of a header word: `(uint16_t)(w >> ALLOC_HDR_SIZE_SHIFT)`. -/
def headerFlagsOf (w : BitVec 64) : BitVec 16 := (w >>> ALLOC_HDR_SIZE_SHIFT).setWidth 16

/-- Modelled from the spec: `memblock_header_legacy_get_size`, `hdr->size`, read as the first
8 bytes of the legacy header. The header's struct is declared in `memblock.h`, which is not
among the sources; the field offsets of the legacy flavor follow the spec's order `size`,
`type_num`, `root_size`, unused. -/
def memblockHeaderLegacyGetSize : PallocHeap → MemoryBlock → Except Fault (BitVec 64) :=
  headerWord L 0

/-- `memblock_header_compact_get_size`: `hdr->size & ALLOC_HDR_FLAGS_MASK`. -/
def memblockHeaderCompactGetSize (heap : PallocHeap) (m : MemoryBlock) :
    Except Fault (BitVec 64) :=
  (· &&& ALLOC_HDR_FLAGS_MASK) <$> headerWord L 0 heap m

/-- `memblock_header_none_get_size`: the block's unit size. -/
def memblockHeaderNoneGetSize (heap : PallocHeap) (m : MemoryBlock) :
    Except Fault (BitVec 64) :=
  pure (blockSize L heap m)

/-- Modelled from the spec: `memblock_header_legacy_get_extra`, `hdr->type_num`, read as the
second 8 bytes of the legacy header. -/
def memblockHeaderLegacyGetExtra : PallocHeap → MemoryBlock → Except Fault (BitVec 64) :=
  headerWord L 8

/-- `memblock_header_compact_get_extra`: `hdr->extra`. -/
def memblockHeaderCompactGetExtra : PallocHeap → MemoryBlock → Except Fault (BitVec 64) :=
  headerWord L 8

/-- `memblock_header_none_get_extra`: no extra field. -/
def memblockHeaderNoneGetExtra : PallocHeap → MemoryBlock → Except Fault (BitVec 64) :=
  fun _ _ => pure 0

/-- Modelled from the spec: `memblock_header_legacy_get_flags`, the flags of
`hdr->root_size`, read as the third 8 bytes of the legacy header. -/
def memblockHeaderLegacyGetFlags (heap : PallocHeap) (m : MemoryBlock) :
    Except Fault (BitVec 16) :=
  headerFlagsOf <$> headerWord L 16 heap m

/-- `memblock_header_compact_get_flags`: the flags of `hdr->size`. -/
def memblockHeaderCompactGetFlags (heap : PallocHeap) (m : MemoryBlock) :
    Except Fault (BitVec 16) :=
  headerFlagsOf <$> headerWord L 0 heap m

/-- `memblock_header_none_get_flags`: no flags. -/
def memblockHeaderNoneGetFlags : PallocHeap → MemoryBlock → Except Fault (BitVec 16) :=
  fun _ _ => pure 0

/-- `memblock_header_ops[t].get_size`. -/
def headerGetSize : HeaderType → PallocHeap → MemoryBlock → Except Fault (BitVec 64)
  | .legacy => memblockHeaderLegacyGetSize L
  | .compact => memblockHeaderCompactGetSize L
  | .none => memblockHeaderNoneGetSize L

/-- `memblock_header_ops[t].get_extra`. -/
def headerGetExtra : HeaderType → PallocHeap → MemoryBlock → Except Fault (BitVec 64)
  | .legacy => memblockHeaderLegacyGetExtra L
  | .compact => memblockHeaderCompactGetExtra L
  | .none => memblockHeaderNoneGetExtra

/-- `memblock_header_ops[t].get_flags`. -/
def headerGetFlags : HeaderType → PallocHeap → MemoryBlock → Except Fault (BitVec 16)
  | .legacy => memblockHeaderLegacyGetFlags L
  | .compact => memblockHeaderCompactGetFlags L
  | .none => memblockHeaderNoneGetFlags

/-! ## Writes -/

/-- Modelled from the spec: the local `struct allocation_header_legacy` of
`memblock_header_legacy_write`, with `size`, `type_num` and `root_size` in its first three
words, in the spec's order, and the 40 unused bytes after them. -/
def legacyHeaderImage (uninit : Mem) (size extra : BitVec 64) (flags : BitVec 16) : Mem :=
  store64 (store64 (store64 uninit 0 size) 8 extra) 16
    (flags.setWidth 64 <<< ALLOC_HDR_SIZE_SHIFT)

/-- `memblock_header_legacy_write`: copies the 64-byte image to the block's data. -/
def memblockHeaderLegacyWrite (heap : PallocHeap) (m : MemoryBlock) (size extra : BitVec 64)
    (flags : BitVec 16) (uninit : Mem) : Except Fault PallocHeap := do
  let hdrp ← getRealData L heap m
  return heap.withMem (memcpy heap.mem hdrp (legacyHeaderImage uninit size extra flags) 64)

/-- The local `padded` of `memblock_header_compact_write`: the compact header and the
padding up to a cacheline. -/
def compactHeaderImage (uninit : Mem) (size extra : BitVec 64) (flags : BitVec 16) : Mem :=
  store64 (store64 uninit 0 (size ||| flags.setWidth 64 <<< ALLOC_HDR_SIZE_SHIFT)) 8 extra

/-- `memblock_header_compact_write`: copies the 16-byte header, or the whole cacheline
when the header is cacheline-aligned and `size` covers a cacheline. -/
def memblockHeaderCompactWrite (heap : PallocHeap) (m : MemoryBlock) (size extra : BitVec 64)
    (flags : BitVec 16) (uninit : Mem) : Except Fault PallocHeap := do
  let hdrp ← getRealData L heap m
  let hdrSize := if hdrp % CACHELINE_SIZE = 0 ∧ CACHELINE_SIZE ≤ size.toNat then CACHELINE_SIZE
    else 16
  return heap.withMem (memcpy heap.mem hdrp (compactHeaderImage uninit size extra flags) hdrSize)

/-- `memblock_header_none_write`: nothing to write. -/
def memblockHeaderNoneWrite (heap : PallocHeap) (_ : MemoryBlock) (_ _ : BitVec 64)
    (_ : BitVec 16) (_ : Mem) : Except Fault PallocHeap :=
  pure heap

/-- `memblock_header_ops[t].write`. -/
def headerWrite : HeaderType → PallocHeap → MemoryBlock → BitVec 64 → BitVec 64 → BitVec 16 →
    Mem → Except Fault PallocHeap
  | .legacy => memblockHeaderLegacyWrite L
  | .compact => memblockHeaderCompactWrite L
  | .none => memblockHeaderNoneWrite

/-! ## Invalidate and reinit

Besides instrumentation (marking bytes clean, defined or inaccessible), the legacy and
compact `invalidate` and `reinit` look the header up through `get_real_data`; the none
flavor's do nothing. -/

/-- The lookup `hdr = m->m_ops->get_real_data(m)` of an instrumentation-only function. -/
def headerLookup (heap : PallocHeap) (m : MemoryBlock) : Except Fault Unit := do
  let _ ← getRealData L heap m
  return ()

/-- `memblock_header_legacy_invalidate`. -/
def memblockHeaderLegacyInvalidate : PallocHeap → MemoryBlock → Except Fault Unit :=
  headerLookup L

/-- `memblock_header_compact_invalidate`. -/
def memblockHeaderCompactInvalidate : PallocHeap → MemoryBlock → Except Fault Unit :=
  headerLookup L

/-- `memblock_header_legacy_reinit`. -/
def memblockHeaderLegacyReinit : PallocHeap → MemoryBlock → Except Fault Unit :=
  headerLookup L

/-- `memblock_header_compact_reinit`. -/
def memblockHeaderCompactReinit : PallocHeap → MemoryBlock → Except Fault Unit :=
  headerLookup L

/-- `memblock_header_none_invalidate` and `memblock_header_none_reinit`: nothing. -/
def memblockHeaderNoneNop : PallocHeap → MemoryBlock → Except Fault Unit :=
  fun _ _ => pure ()

/-- `memblock_header_ops[t].invalidate`. -/
def headerInvalidate : HeaderType → PallocHeap → MemoryBlock → Except Fault Unit
  | .legacy => memblockHeaderLegacyInvalidate L
  | .compact => memblockHeaderCompactInvalidate L
  | .none => memblockHeaderNoneNop

/-- `memblock_header_ops[t].reinit`. -/
def headerReinit : HeaderType → PallocHeap → MemoryBlock → Except Fault Unit
  | .legacy => memblockHeaderLegacyReinit L
  | .compact => memblockHeaderCompactReinit L
  | .none => memblockHeaderNoneNop

/-! ## The generic operations -/

/-- `block_get_real_size`: `block_size * size_idx` when `size_idx` is known, the size the
header stores otherwise. -/
def blockGetRealSize (heap : PallocHeap) (m : MemoryBlock) : Except Fault (BitVec 64) :=
  if m.sizeIdx ≠ 0 then pure (blockSize L heap m * m.sizeIdx.setWidth 64)
  else headerGetSize L m.headerType heap m

/-- `block_get_user_size`: the real size less the header. -/
def blockGetUserSize (heap : PallocHeap) (m : MemoryBlock) : Except Fault (BitVec 64) := do
  let size ← blockGetRealSize L heap m
  return size - BitVec.ofNat 64 (headerTypeToSize m.headerType)

/-- `block_write_header`: the flavor's write of the real size, `extra` and `flags`. -/
def blockWriteHeader (heap : PallocHeap) (m : MemoryBlock) (extra : BitVec 64)
    (flags : BitVec 16) (uninit : Mem) : Except Fault PallocHeap := do
  let size ← blockGetRealSize L heap m
  headerWrite L m.headerType heap m size extra flags uninit

/-- `block_invalidate`: besides instrumentation, the user data and size lookups and the
flavor's invalidate. -/
def blockInvalidate (heap : PallocHeap) (m : MemoryBlock) : Except Fault Unit := do
  let _ ← blockGetUserData L heap m
  let _ ← blockGetUserSize L heap m
  headerInvalidate L m.headerType heap m

/-- `block_reinit_header`: the flavor's reinit. -/
def blockReinitHeader (heap : PallocHeap) (m : MemoryBlock) : Except Fault Unit :=
  headerReinit L m.headerType heap m

/-- `block_get_extra`. -/
def blockGetExtra (heap : PallocHeap) (m : MemoryBlock) : Except Fault (BitVec 64) :=
  headerGetExtra L m.headerType heap m

/-- `block_get_flags`. -/
def blockGetFlags (heap : PallocHeap) (m : MemoryBlock) : Except Fault (BitVec 16) :=
  headerGetFlags L m.headerType heap m

end

end Memblock
