import Memblock.Basic.Heap

set_option autoImplicit false

/-! # The operations of the two block kinds

The functions of `memblock.c` that differ between huge blocks (a run of whole chunks,
described by the chunk header) and run blocks (a range of units of a run chunk, described
by bits of the run's bitmap): the unit size, the address of the block's data, header
preparation for a redo-logged update, the lock, the state and the header-type check.

`m->m_ops->f(m)` dispatches on the entry of `mb_ops` that `m_ops` points to; each such
call is a function here that matches on `m.mOps` (`blockSize`, `getRealData`).
-/

namespace Memblock

section

variable (L : Layout)

/-! ## The header flavor of a chunk -/

/-- The flavor selected by a chunk header's flags: compact, then none, then legacy. -/
def headerTypeOfFlags (flags : BitVec 16) : HeaderType :=
  if flags &&& CHUNK_FLAG_COMPACT_HEADER ≠ 0 then .compact
  else if flags &&& CHUNK_FLAG_HEADER_NONE ≠ 0 then .none
  else .legacy

/-- `memblock_header_type`: the flavor the flags of the block's chunk header select. -/
def memblockHeaderType (heap : PallocHeap) (m : MemoryBlock) : HeaderType :=
  headerTypeOfFlags (readChunkHeader heap.mem (heapGetChunkHdr L heap m)).flags

/-! ## Unit size and data address -/

/-- `huge_block_size`: `CHUNKSIZE`. -/
def hugeBlockSize : BitVec 64 := BitVec.ofNat 64 L.chunkSize

/-- `run_block_size`: `run->block_size`. -/
def runBlockSize (heap : PallocHeap) (m : MemoryBlock) : BitVec 64 :=
  load64 heap.mem (runBlockSizeField (heapGetChunkRun L heap m))

/-- `m->m_ops->block_size(m)`. -/
def blockSize (heap : PallocHeap) (m : MemoryBlock) : BitVec 64 :=
  match m.mOps with
  | .huge => hugeBlockSize L
  | .run => runBlockSize L heap m

/-- `huge_get_real_data`: the data of the block's chunk. -/
def hugeGetRealData (heap : PallocHeap) (m : MemoryBlock) : Nat := heapGetChunk L heap m

/-- `run_get_data_start(hdr, run, htype)`: `run->data`, or, when the chunk header at `hdr`
carries `CHUNK_FLAG_ALIGNED`, the address below `run->data + hsize` rounded up to
`run->alignment`, by `hsize` (so that the user data after the header is aligned). -/
def runGetDataStart (mem : Mem) (hdr run : Nat) (htype : HeaderType) : Nat :=
  if (readChunkHeader mem hdr).flags &&& CHUNK_FLAG_ALIGNED ≠ 0 then
    let hsize : BitVec 64 := BitVec.ofNat 64 (headerTypeToSize htype)
    let base := BitVec.ofNat 64 (runDataField L run) + hsize
    (alignUp base (load64 mem (runAlignmentField run)) - hsize).toNat
  else runDataField L run

/-- `run_get_alignment_padding`: `(size_t)data_start - (size_t)&run->data`. -/
def runGetAlignmentPadding (mem : Mem) (hdr run : Nat) (htype : HeaderType) : BitVec 64 :=
  BitVec.ofNat 64 (runGetDataStart L mem hdr run htype) - BitVec.ofNat 64 (runDataField L run)

/-- `run_get_real_data`: the data start of the run plus `block_size * block_off`. -/
def runGetRealData (heap : PallocHeap) (m : MemoryBlock) : Except Fault Nat := do
  let run := heapGetChunkRun L heap m
  let hdr := heapGetChunkHdr L heap m
  let blockSize := load64 heap.mem (runBlockSizeField run)
  assert (blockSize != 0) "run->block_size != 0"
  return runGetDataStart L heap.mem hdr run m.headerType +
    (blockSize * m.blockOff.setWidth 64).toNat

/-- `m->m_ops->get_real_data(m)`. -/
def getRealData (heap : PallocHeap) (m : MemoryBlock) : Except Fault Nat :=
  match m.mOps with
  | .huge => pure (hugeGetRealData L heap m)
  | .run => runGetRealData L heap m

/-- `block_get_user_data`: the data address past the allocation header. -/
def blockGetUserData (heap : PallocHeap) (m : MemoryBlock) : Except Fault Nat := do
  let real ← getRealData L heap m
  return real + headerTypeToSize m.headerType

theorem runGetRealData_eq {heap : PallocHeap} {m : MemoryBlock}
    (h : load64 heap.mem (runBlockSizeField (heapGetChunkRun L heap m)) ≠ 0) :
    runGetRealData L heap m = .ok (runGetDataStart L heap.mem (heapGetChunkHdr L heap m)
      (heapGetChunkRun L heap m) m.headerType +
      (load64 heap.mem (runBlockSizeField (heapGetChunkRun L heap m)) *
        m.blockOff.setWidth 64).toNat) := by
  simp only [runGetRealData, assert, bne_iff_ne, ne_eq, h, not_false_eq_true, decide_True,
    if_true]
  rfl

theorem getRealData_huge {heap : PallocHeap} {m : MemoryBlock} (h : m.mOps = .huge) :
    getRealData L heap m = .ok (hugeGetRealData L heap m) := by
  simp [getRealData, h]
  rfl

theorem getRealData_run {heap : PallocHeap} {m : MemoryBlock} (h : m.mOps = .run) :
    getRealData L heap m = runGetRealData L heap m := by
  simp [getRealData, h]

theorem blockGetUserData_eq {heap : PallocHeap} {m : MemoryBlock} {real : Nat}
    (h : getRealData L heap m = .ok real) :
    blockGetUserData L heap m = .ok (real + headerTypeToSize m.headerType) := by
  simp [blockGetUserData, h]

/-! ## Header preparation -/

/-- `chunk_get_chunk_hdr_value`: the 64-bit image of a chunk header, `type` in the low
16 bits, `flags` in the next 16 and `size_idx` in the high 32 (the little-endian bytes of
the struct that `memcpy` copies). -/
def chunkGetChunkHdrValue (type flags : BitVec 16) (sizeIdx : BitVec 32) : BitVec 64 :=
  BitVec.ofNat 64 (type.toNat + 2 ^ 16 * flags.toNat + 2 ^ 32 * sizeIdx.toNat)

/-- The image of a chunk header, stored, reads back as that header. -/
theorem readChunkHeader_store64_chunkGetChunkHdrValue (mem : Mem) (a : Nat)
    (type flags : BitVec 16) (sizeIdx : BitVec 32) :
    readChunkHeader (store64 mem a (chunkGetChunkHdrValue type flags sizeIdx)) a =
      ⟨type, flags, sizeIdx⟩ := by
  have ht := type.isLt
  have hf := flags.isLt
  have hs := sizeIdx.isLt
  have hv : (chunkGetChunkHdrValue type flags sizeIdx).toNat =
      type.toNat + 65536 * flags.toNat + 4294967296 * sizeIdx.toNat := by
    rw [chunkGetChunkHdrValue, BitVec.toNat_ofNat]
    simp only [Nat.reducePow] at *
    omega
  simp only [readChunkHeader, load16, load32, store64, hv, ChunkHeader.mk.injEq,
    loadLE_storeLE_of_le mem (Nat.le_refl a) (by omega : a + 2 ≤ a + 8),
    loadLE_storeLE_of_le mem (by omega : a ≤ a + 2) (by omega : a + 2 + 2 ≤ a + 8),
    loadLE_storeLE_of_le mem (by omega : a ≤ a + 4) (by omega : a + 4 + 4 ≤ a + 8),
    Nat.sub_self, Nat.add_sub_cancel_left]
  simp only [Nat.reducePow] at *
  refine ⟨?_, ?_, ?_⟩ <;> apply BitVec.eq_of_toNat_eq <;> rw [BitVec.toNat_ofNat] <;> omega

/-- Re-encoding the chunk header read from any 8 bytes gives the word they hold. -/
theorem chunkGetChunkHdrValue_readChunkHeader (mem : Mem) (a : Nat) :
    chunkGetChunkHdrValue (readChunkHeader mem a).type (readChunkHeader mem a).flags
      (readChunkHeader mem a).sizeIdx = load64 mem a := by
  have h8 : loadLE mem a 8 =
      loadLE mem a 2 + 2 ^ 16 * loadLE mem (a + 2) 2 + 2 ^ 32 * loadLE mem (a + 4) 4 := by
    rw [show 8 = 2 + (2 + 4) from rfl, loadLE_add, loadLE_add, Nat.add_assoc a 2 2]
    simp only [Nat.reducePow]
    omega
  have ht := loadLE_lt mem a 2
  have hf := loadLE_lt mem (a + 2) 2
  have hs := loadLE_lt mem (a + 4) 4
  simp only [Nat.reducePow] at ht hf hs
  simp only [chunkGetChunkHdrValue, readChunkHeader, load16, load32, load64, BitVec.toNat_ofNat,
    Nat.mod_eq_of_lt ht, Nat.mod_eq_of_lt hf, Nat.mod_eq_of_lt hs, h8]

/-- **The chunk-header image is the header, bit for bit.** `chunk_get_chunk_hdr_value` and
the field reads of `struct chunk_header` are inverse: the image of any `(type, flags,
size_idx)`, stored, reads back as that header, and the image of the header read from any
8 bytes is the 64-bit word they hold. -/
theorem chunkHeader_image_roundTrip (mem : Mem) (a : Nat) (type flags : BitVec 16)
    (sizeIdx : BitVec 32) :
    readChunkHeader (store64 mem a (chunkGetChunkHdrValue type flags sizeIdx)) a =
        ⟨type, flags, sizeIdx⟩ ∧
      chunkGetChunkHdrValue (readChunkHeader mem a).type (readChunkHeader mem a).flags
        (readChunkHeader mem a).sizeIdx = load64 mem a :=
  ⟨readChunkHeader_store64_chunkGetChunkHdrValue mem a type flags sizeIdx,
    chunkGetChunkHdrValue_readChunkHeader mem a⟩

/-- `huge_prep_operation_hdr`: the new head header (`USED` or `FREE`, the old flags, the
block's `size_idx`), stored at once when `ctx` is `NULL` and added to `ctx` as a `SET`
entry otherwise; then, for a block of more than one chunk, the footer
`(FOOTER, 0, size_idx)` in the slot `hdr + size_idx - 1`, stored directly or added as a
transient entry. -/
def hugePrepOperationHdr (heap : PallocHeap) (m : MemoryBlock) (op : MemblockState)
    (ctx : Option OperationContext) : PallocHeap × Option OperationContext :=
  let hdr := heapGetChunkHdr L heap m
  let val := chunkGetChunkHdrValue
    (if op = .allocated then CHUNK_TYPE_USED else CHUNK_TYPE_FREE)
    (readChunkHeader heap.mem hdr).flags m.sizeIdx
  let (heap, ctx) := match ctx with
    | none => (heap.withMem (store64 heap.mem hdr val), none)
    | some c => (heap, some (operationAddEntry c hdr val .set))
  if m.sizeIdx = 1 then (heap, ctx) else
  let footer := hdr + 8 * m.sizeIdx.toNat - 8
  let val := chunkGetChunkHdrValue CHUNK_TYPE_FOOTER 0 m.sizeIdx
  match ctx with
  | none => (heap.withMem (store64 heap.mem footer val), none)
  | some c => (heap, some (operationAddTypedEntry c footer val .set .transient))

/-- `run_prep_operation_hdr`: the mask of the block's `size_idx` bits at
`block_off % 64`, added to `ctx` as an `OR` (allocate) or as its complement in an `AND`
(free) entry on the bitmap word `block_off / 64`. -/
def runPrepOperationHdr (heap : PallocHeap) (m : MemoryBlock) (op : MemblockState)
    (ctx : OperationContext) : Except Fault OperationContext := do
  let r := heapGetChunkRun L heap m
  assert (m.sizeIdx.toNat ≤ BITS_PER_VALUE) "m->size_idx <= BITS_PER_VALUE"
  let bmask ← if m.sizeIdx.toNat = BITS_PER_VALUE then do
      assert (m.blockOff.toNat % BITS_PER_VALUE == 0) "m->block_off % BITS_PER_VALUE == 0"
      pure (BitVec.allOnes 64)
    else pure ((((1 : BitVec 64) <<< m.sizeIdx.toNat) - 1) <<< (m.blockOff.toNat % BITS_PER_VALUE))
  let bpos := m.blockOff.toNat / BITS_PER_VALUE
  match op with
  | .allocated => return operationAddEntry ctx (runBitmapField r bpos) bmask .or
  | .free => return operationAddEntry ctx (runBitmapField r bpos) (~~~bmask) .and
  | .stateUnknown => do
    assert false "0"
    return ctx

/-- `m->m_ops->prep_hdr(m, op, ctx)` with a context: the preparation of the block's kind.
With a context, `huge_prep_operation_hdr` always hands one back, so the default of `getD`
is never taken. -/
def prepOperationHdr (heap : PallocHeap) (m : MemoryBlock) (op : MemblockState)
    (ctx : OperationContext) : Except Fault OperationContext :=
  match m.mOps with
  | .huge => pure ((hugePrepOperationHdr L heap m op (some ctx)).2.getD ctx)
  | .run => runPrepOperationHdr L heap m op ctx

/-! ## Locks -/

/-- `huge_get_lock`: huge blocks are not locked here (their bucket is). -/
def hugeGetLock : Option (BitVec 32) := none

/-- Modelled from the spec: `run_get_lock`, the per-run mutex of the registry, named by
the chunk id `heap_get_run_lock` selects it by. -/
def runGetLock (m : MemoryBlock) : Option (BitVec 32) := some m.chunkId

/-! ## State -/

/-- `huge_get_state`: `USED` is allocated, `FREE` is free, any other type unknown. -/
def hugeGetState (heap : PallocHeap) (m : MemoryBlock) : MemblockState :=
  let hdr := readChunkHeader heap.mem (heapGetChunkHdr L heap m)
  if hdr.type = CHUNK_TYPE_USED then .allocated
  else if hdr.type = CHUNK_TYPE_FREE then .free
  else .stateUnknown

/-- The loop of `run_get_state` over `n` bits of `bitmap` from bit `i`: allocated at the
first set bit, free if there is none. -/
def runGetStateLoop (bitmap : BitVec 64) (i : Nat) : Nat → MemblockState
  | 0 => .free
  | n + 1 => if !bitIsClr bitmap i then .allocated else runGetStateLoop bitmap (i + 1) n

/-- `run_get_state`: the bits `[b, b_last)` of bitmap word `block_off / 64`, with
`b = block_off % 64` and `b_last = b + size_idx` (an `unsigned` sum). -/
def runGetState (heap : PallocHeap) (m : MemoryBlock) : Except Fault MemblockState := do
  let z := zidToZone L heap m.zoneId.toNat
  let hdr := readChunkHeader heap.mem (z + L.zoneHeaderSize + 8 * m.chunkId.toNat)
  assert (hdr.type == CHUNK_TYPE_RUN) "hdr->type == CHUNK_TYPE_RUN"
  let r := z + L.sizeofZone + L.chunkSize * m.chunkId.toNat
  let v := m.blockOff.toNat / BITS_PER_VALUE
  let bitmap := load64 heap.mem (runBitmapField r v)
  let b : BitVec 32 := BitVec.ofNat 32 (m.blockOff.toNat % BITS_PER_VALUE)
  let bLast := b + m.sizeIdx
  assert (bLast.toNat ≤ BITS_PER_VALUE) "b_last <= BITS_PER_VALUE"
  return runGetStateLoop bitmap b.toNat (bLast.toNat - b.toNat)

/-! ## Header-type checks -/

/-- `huge_ensure_header_type`: on a free chunk, OR the flag of `t` into the header's flags
when it is not there yet. -/
def hugeEnsureHeaderType (heap : PallocHeap) (m : MemoryBlock) (t : HeaderType) :
    Except Fault PallocHeap := do
  let hdr := heapGetChunkHdr L heap m
  let h := readChunkHeader heap.mem hdr
  assert (h.type == CHUNK_TYPE_FREE) "hdr->type == CHUNK_TYPE_FREE"
  if h.flags &&& headerTypeToFlag t = 0 then
    return heap.withMem (store16 heap.mem (hdr + 2) (h.flags ||| headerTypeToFlag t))
  else return heap

/-- `run_ensure_header_type` (its debug-build checks): runs are created with their flavor. -/
def runEnsureHeaderType (heap : PallocHeap) (m : MemoryBlock) (t : HeaderType) :
    Except Fault Unit := do
  let h := readChunkHeader heap.mem (heapGetChunkHdr L heap m)
  assert (h.type == CHUNK_TYPE_RUN) "hdr->type == CHUNK_TYPE_RUN"
  assert (h.flags &&& headerTypeToFlag t == headerTypeToFlag t)
    "(hdr->flags & header_type_to_flag[t]) == header_type_to_flag[t]"

end

end Memblock
