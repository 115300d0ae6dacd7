import Memblock.Proofs.RunDecode

set_option autoImplicit false

/-! # Allocation headers: write, read back, and the two size routes

`block_write_header` stores the block's real size `block_size * size_idx`, an `extra` word
and 16 bits of flags in the flavor's header at the block's real data; `block_get_extra`,
`block_get_flags` and the flavor's `get_size` read them back. The compact flavor keeps the
flags in the top 16 bits of the size word, so the size must stay below
`2 ^ ALLOC_HDR_SIZE_SHIFT`; a block inside a zone always does.

* `blockWriteHeader_readBack`: after the write, the three reads return what was written,
  the size read through the header equals `block_size * size_idx`, and nothing outside the
  header changed;
* `blockGetRealSize_none_iff`: the none flavor stores nothing, and its header route gives
  one unit, so the two routes agree exactly for `size_idx = 1`;
* `memblockFromOffset_huge_sizeIdx` and `memblockFromOffset_run_sizeIdx`: decoding the
  offset of the user data with `size` set recovers `size_idx` from the stored size;
* `memblockFromOffset_run_stale_padding`: the run blocks that do not decode
  (`Memblock.Proofs.RunDecode`) do not decode after a header write either.
-/

namespace Memblock

/-! ## The header words -/

section Words

variable (size : BitVec 64) (flags : BitVec 16)

/-- The bits of a size below `2 ^ ALLOC_HDR_SIZE_SHIFT` above the shift are clear. -/
theorem getLsbD_of_lt_two_pow_shift (h : size.toNat < 2 ^ ALLOC_HDR_SIZE_SHIFT) {i : Nat}
    (hi : ALLOC_HDR_SIZE_SHIFT ≤ i) : size.getLsbD i = false :=
  Nat.testBit_lt_two_pow (Nat.lt_of_lt_of_le h (Nat.pow_le_pow_right (by decide) hi))

/-- The flags of a word holding them above the shift. -/
theorem headerFlagsOf_or_shiftLeft (h : size.toNat < 2 ^ ALLOC_HDR_SIZE_SHIFT) :
    headerFlagsOf (size ||| flags.setWidth 64 <<< ALLOC_HDR_SIZE_SHIFT) = flags := by
  ext i
  have hi := i.isLt
  simp only [headerFlagsOf, BitVec.getLsbD_setWidth, BitVec.getLsbD_ushiftRight,
    BitVec.getLsbD_or, BitVec.getLsbD_shiftLeft,
    getLsbD_of_lt_two_pow_shift size h (show ALLOC_HDR_SIZE_SHIFT ≤ ALLOC_HDR_SIZE_SHIFT + i by omega)]
  simp only [ALLOC_HDR_SIZE_SHIFT] at *
  simp [show i.val < 16 from hi, show 48 + i.val < 64 by omega, show i.val < 64 by omega]

/-- The flags of the legacy `root_size` word, which holds only them. -/
theorem headerFlagsOf_shiftLeft :
    headerFlagsOf (flags.setWidth 64 <<< ALLOC_HDR_SIZE_SHIFT) = flags := by
  simpa using headerFlagsOf_or_shiftLeft 0 flags (by decide)

/-- The size of a word holding flags above the shift. -/
theorem or_shiftLeft_and_mask (h : size.toNat < 2 ^ ALLOC_HDR_SIZE_SHIFT) :
    (size ||| flags.setWidth 64 <<< ALLOC_HDR_SIZE_SHIFT) &&& ALLOC_HDR_FLAGS_MASK = size := by
  ext i
  have hi := i.isLt
  simp only [ALLOC_HDR_FLAGS_MASK, BitVec.getLsbD_and, BitVec.getLsbD_or,
    BitVec.getLsbD_shiftLeft, BitVec.getLsbD_ofNat, Nat.testBit_two_pow_sub_one]
  by_cases hlt : i.val < ALLOC_HDR_SIZE_SHIFT
  · simp [hlt]
  · simp [hlt, getLsbD_of_lt_two_pow_shift size h (Nat.le_of_not_lt hlt)]

end Words

/-! ## The header images -/

section Images

variable (uninit : Mem) (size extra : BitVec 64) (flags : BitVec 16)

/-- The legacy image holds `size`, `extra` (as `type_num`) and the flags above the shift in
`root_size`. -/
theorem legacyHeaderImage_words :
    load64 (legacyHeaderImage uninit size extra flags) 0 = size ∧
      load64 (legacyHeaderImage uninit size extra flags) 8 = extra ∧
      load64 (legacyHeaderImage uninit size extra flags) 16 =
        flags.setWidth 64 <<< ALLOC_HDR_SIZE_SHIFT := by
  simp only [legacyHeaderImage, load64_store64_self,
    load64_store64_of_disjoint _ _ (show 0 + 8 ≤ 16 ∨ 16 + 8 ≤ 0 by decide),
    load64_store64_of_disjoint _ _ (show 8 + 8 ≤ 16 ∨ 16 + 8 ≤ 8 by decide),
    load64_store64_of_disjoint _ _ (show 0 + 8 ≤ 8 ∨ 8 + 8 ≤ 0 by decide), and_self]

/-- The compact image holds the size with the flags above the shift, then `extra`. -/
theorem compactHeaderImage_words :
    load64 (compactHeaderImage uninit size extra flags) 0 =
        size ||| flags.setWidth 64 <<< ALLOC_HDR_SIZE_SHIFT ∧
      load64 (compactHeaderImage uninit size extra flags) 8 = extra := by
  simp only [compactHeaderImage, load64_store64_self,
    load64_store64_of_disjoint _ _ (show 0 + 8 ≤ 8 ∨ 8 + 8 ≤ 0 by decide), and_self]

end Images

/-- A word inside the bytes a `memcpy` copied is read from the image. -/
theorem load64_memcpy (mem src : Mem) {dst n o : Nat} (h : o + 8 ≤ n) :
    load64 (memcpy mem dst src n) (dst + o) = load64 src o := by
  rw [load64, loadLE_memcpy_of_le mem src (Nat.le_add_right dst o) (by omega),
    Nat.add_sub_cancel_left, load64]

/-! ## What the write leaves alone -/

section Frame

variable (L : Layout) (heap : PallocHeap) (mem : Mem)

/-- The chunk-header array of a zone lies before its chunks. -/
theorem chunkHdrAddr_add_le_chunkAddr {z j : Nat} (hj : j < L.maxChunk) (c : Nat) :
    chunkHdrAddr L heap z j + 8 ≤ chunkAddr L heap z c := by
  unfold chunkHdrAddr chunkAddr Layout.sizeofZone
  omega

/-- A memory that agrees with the heap's below the chunks of a zone has the same chunk
headers there. -/
theorem zoneHeaders_withMem_of_agree {z j B : Nat} (hj : j < L.maxChunk)
    (hB : chunkAddr L heap z 0 ≤ B) (h : ∀ a < B, mem a = heap.mem a) :
    zoneHeaders L (heap.withMem mem) z j = zoneHeaders L heap z j := by
  have := chunkHdrAddr_add_le_chunkAddr L heap (z := z) hj 0
  exact readChunkHeader_congr fun a _ ha => h a (by rw [chunkHdrAddr_withMem] at ha; omega)

/-- A memory that agrees with the heap's below a run's data has the same data start. -/
theorem runGetDataStart_withMem_of_agree {hdr run : Nat} (t : HeaderType)
    (hhdr : hdr + 8 ≤ run) (h : ∀ a < runDataField L run, mem a = heap.mem a) :
    runGetDataStart L mem hdr run t = runGetDataStart L heap.mem hdr run t := by
  have hmeta := L.bitmap_le_meta
  have hread : readChunkHeader mem hdr = readChunkHeader heap.mem hdr :=
    readChunkHeader_congr fun a _ ha => h a (by unfold runDataField; omega)
  have halign : load64 mem (runAlignmentField run) = load64 heap.mem (runAlignmentField run) := by
    unfold load64
    rw [loadLE_congr fun i (hi : i < 8) => h (runAlignmentField run + i)
      (by unfold runAlignmentField runDataField; omega)]
  simp only [runGetDataStart, hread, halign]

/-- A memory that agrees with the heap's below a run's data has the same unit size. -/
theorem load64_runBlockSizeField_withMem_of_agree {run : Nat}
    (h : ∀ a < runDataField L run, mem a = heap.mem a) :
    load64 mem (runBlockSizeField run) = load64 heap.mem (runBlockSizeField run) := by
  have hmeta := L.bitmap_le_meta
  unfold load64
  rw [loadLE_congr fun i (hi : i < 8) => h (runBlockSizeField run + i)
    (by unfold runBlockSizeField runDataField; omega)]

/-- The real data of a block, and its unit size, read from a memory that agrees with the
heap's below the run's data (for a run block; a huge block reads no memory). -/
theorem getRealData_withMem_of_agree (m : MemoryBlock)
    (h : m.mOps = .run → m.chunkId.toNat < L.maxChunk ∧
      ∀ a < runDataField L (heapGetChunkRun L heap m), mem a = heap.mem a) :
    getRealData L (heap.withMem mem) m = getRealData L heap m ∧
      blockSize L (heap.withMem mem) m = blockSize L heap m := by
  cases hk : m.mOps with
  | huge => simp [getRealData, blockSize, hk, hugeGetRealData]
  | run =>
    obtain ⟨hc, hag⟩ := h hk
    have hsize := load64_runBlockSizeField_withMem_of_agree L heap mem hag
    have hstart : runGetDataStart L mem (heapGetChunkHdr L heap m) (heapGetChunkRun L heap m)
        m.headerType = runGetDataStart L heap.mem (heapGetChunkHdr L heap m)
          (heapGetChunkRun L heap m) m.headerType :=
      runGetDataStart_withMem_of_agree L heap mem m.headerType
        (chunkHdrAddr_add_le_chunkAddr L heap hc m.chunkId.toNat) hag
    simp only [getRealData, blockSize, hk, runGetRealData, runBlockSize, PallocHeap.withMem_mem,
      heapGetChunkRun_withMem, heapGetChunkHdr_withMem]
    exact ⟨by rw [hsize, hstart], hsize⟩

/-- Where a block's data is, and what its header stores, do not depend on its `size_idx`. -/
theorem headerGetSize_sizeIdx (t : HeaderType) (m : MemoryBlock) (s : BitVec 32) :
    headerGetSize L t heap { m with sizeIdx := s } = headerGetSize L t heap m := by
  cases t <;> rfl

/-- Nor, for a huge block, on its unit index. -/
theorem headerGetSize_huge_blockOff (t : HeaderType) (m : MemoryBlock) (b : BitVec 16)
    (hm : m.mOps = .huge) :
    headerGetSize L t heap { m with blockOff := b } = headerGetSize L t heap m := by
  cases t
  · simp only [headerGetSize, memblockHeaderLegacyGetSize, headerWord, getRealData, hm]
    rfl
  · simp only [headerGetSize, memblockHeaderCompactGetSize, headerWord, getRealData, hm]
    rfl
  · simp only [headerGetSize, memblockHeaderNoneGetSize, blockSize, hm]

/-- After `n ≤ 64` bytes are copied to the real data of a block (which, for a run block, lies
past the run's metadata), the block's real data and unit size are unchanged, its header
words are read from the copied image, and no byte outside the header has changed. -/
theorem headerWord_memcpy (m : MemoryBlock) {real n : Nat} (img : Mem)
    (hreal : getRealData L heap m = .ok real)
    (hrun : m.mOps = .run → m.chunkId.toNat < L.maxChunk ∧
      runDataField L (heapGetChunkRun L heap m) ≤ real) (hn : n ≤ 64) :
    let heap' := heap.withMem (memcpy heap.mem real img n)
    getRealData L heap' m = .ok real ∧ blockSize L heap' m = blockSize L heap m ∧
      (∀ o, o + 8 ≤ n → headerWord L o heap' m = .ok (load64 img o)) ∧
      ∀ a, a < real ∨ real + 64 ≤ a → memcpy heap.mem real img n a = heap.mem a := by
  intro heap'
  have hframe : ∀ a, a < real ∨ real + 64 ≤ a → memcpy heap.mem real img n a = heap.mem a :=
    fun a ha => by rw [memcpy_apply, if_neg (by omega)]
  obtain ⟨hdata, hsize⟩ := getRealData_withMem_of_agree L heap (memcpy heap.mem real img n) m
    fun hk => ⟨(hrun hk).1, fun a ha => hframe a (.inl (by have := (hrun hk).2; omega))⟩
  have hdata' : getRealData L heap' m = .ok real := hdata.trans hreal
  refine ⟨hdata', hsize, fun o ho => ?_, hframe⟩
  rw [headerWord, hdata']
  exact congrArg Except.ok (load64_memcpy heap.mem img ho)

end Frame

/-! ## Write, then read back -/

section ReadBack

variable (L : Layout)

/-- The two routes of `block_get_real_size` (and so of `block_get_user_size`) agree on a
block with `size_idx ≥ 1` whose header stores `block_size * size_idx`. -/
theorem blockGetRealSize_routes (heap : PallocHeap) (m : MemoryBlock) (hidx : m.sizeIdx ≠ 0)
    (hget : headerGetSize L m.headerType heap m = .ok (blockSize L heap m * m.sizeIdx.setWidth 64)) :
    blockGetRealSize L heap { m with sizeIdx := 0 } = blockGetRealSize L heap m ∧
      blockGetUserSize L heap { m with sizeIdx := 0 } = blockGetUserSize L heap m := by
  have hreal : blockGetRealSize L heap { m with sizeIdx := 0 } = blockGetRealSize L heap m := by
    rw [blockGetRealSize, if_neg (fun h => h rfl), blockGetRealSize, if_pos hidx]
    exact (headerGetSize_sizeIdx L heap _ m 0).trans hget
  exact ⟨hreal, by simp only [blockGetUserSize, hreal]⟩

/-- What `block_write_header` writes, read back through the flavor: for a block with
`size_idx ≥ 1` whose real data lies past its run's metadata (for a run block) and whose
real size is below `2 ^ ALLOC_HDR_SIZE_SHIFT`, with a legacy or compact header, the write
succeeds, changes no byte outside the 64 bytes at the real data, keeps the unit size, and
the flavor's reads return `extra`, `flags` and `block_size * size_idx`. -/
theorem blockWriteHeader_spec (heap : PallocHeap) (m : MemoryBlock) (extra : BitVec 64)
    (flags : BitVec 16) (uninit : Mem) {real : Nat} (hreal : getRealData L heap m = .ok real)
    (hrun : m.mOps = .run → m.chunkId.toNat < L.maxChunk ∧
      runDataField L (heapGetChunkRun L heap m) ≤ real)
    (hidx : m.sizeIdx ≠ 0)
    (hsize : (blockSize L heap m).toNat * m.sizeIdx.toNat < 2 ^ ALLOC_HDR_SIZE_SHIFT)
    (ht : m.headerType ≠ .none) :
    ∃ mem, blockWriteHeader L heap m extra flags uninit = .ok (heap.withMem mem) ∧
      (∀ a, a < real ∨ real + 64 ≤ a → mem a = heap.mem a) ∧
      blockSize L (heap.withMem mem) m = blockSize L heap m ∧
      blockGetExtra L (heap.withMem mem) m = .ok extra ∧
      blockGetFlags L (heap.withMem mem) m = .ok flags ∧
      headerGetSize L m.headerType (heap.withMem mem) m =
        .ok (blockSize L heap m * m.sizeIdx.setWidth 64) := by
  have hflavor : m.headerType = .legacy ∨ m.headerType = .compact := by
    revert ht; cases m.headerType <;> simp
  have hroute : blockGetRealSize L heap m = .ok (blockSize L heap m * m.sizeIdx.setWidth 64) := by
    rw [blockGetRealSize, if_pos hidx]
    rfl
  set size := blockSize L heap m * m.sizeIdx.setWidth 64 with hsize_def
  have hS : size.toNat < 2 ^ ALLOC_HDR_SIZE_SHIFT := by
    rw [hsize_def, BitVec.toNat_mul, BitVec.toNat_setWidth, Nat.mod_eq_of_lt
      (Nat.lt_trans m.sizeIdx.isLt (by decide)), Nat.mod_eq_of_lt (Nat.lt_trans hsize (by decide))]
    exact hsize
  -- the reads after a copy of `n` bytes
  have hcopy := fun img {n} (hn : n ≤ 64) => headerWord_memcpy L heap m img hreal hrun hn
  rcases hflavor with hT | hT
  · -- legacy: the 64-byte image
    obtain ⟨-, hbs, hword, hframe⟩ := hcopy (legacyHeaderImage uninit size extra flags)
      (Nat.le_refl 64)
    obtain ⟨w₀, w₈, w₁₆⟩ := legacyHeaderImage_words uninit size extra flags
    refine ⟨memcpy heap.mem real (legacyHeaderImage uninit size extra flags) 64, ?_, hframe, hbs,
      ?_, ?_, ?_⟩
    · simp only [blockWriteHeader, hroute, hT, headerWrite, memblockHeaderLegacyWrite, hreal]
      rfl
    · simp only [blockGetExtra, hT, headerGetExtra, memblockHeaderLegacyGetExtra,
        hword 8 (by decide), w₈]
    · simp only [blockGetFlags, hT, headerGetFlags, memblockHeaderLegacyGetFlags,
        hword 16 (by decide), w₁₆]
      exact congrArg Except.ok (headerFlagsOf_shiftLeft flags)
    · rw [hT]
      exact (hword 0 (by decide)).trans (congrArg _ w₀)
  · -- compact: the header alone, or the whole cacheline
    obtain ⟨w₀, w₈⟩ := compactHeaderImage_words uninit size extra flags
    obtain ⟨n, hn, h16, hwrite⟩ : ∃ n, n ≤ 64 ∧ 16 ≤ n ∧
        blockWriteHeader L heap m extra flags uninit = .ok (heap.withMem (memcpy heap.mem real
          (compactHeaderImage uninit size extra flags) n)) := by
      refine ⟨if real % CACHELINE_SIZE = 0 ∧ CACHELINE_SIZE ≤ size.toNat then CACHELINE_SIZE
        else 16, by split <;> decide, by split <;> decide, ?_⟩
      simp only [blockWriteHeader, hroute, hT, headerWrite, memblockHeaderCompactWrite, hreal]
      rfl
    obtain ⟨-, hbs, hword, hframe⟩ := hcopy (compactHeaderImage uninit size extra flags) hn
    refine ⟨memcpy heap.mem real (compactHeaderImage uninit size extra flags) n, hwrite, hframe,
      hbs, ?_, ?_, ?_⟩
    · simp only [blockGetExtra, hT, headerGetExtra, memblockHeaderCompactGetExtra,
        hword 8 (by omega), w₈]
    · simp only [blockGetFlags, hT, headerGetFlags, memblockHeaderCompactGetFlags,
        hword 0 (by omega), w₀]
      exact congrArg Except.ok (headerFlagsOf_or_shiftLeft _ flags hS)
    · simp only [hT, headerGetSize, memblockHeaderCompactGetSize, hword 0 (by omega), w₀]
      exact congrArg Except.ok (or_shiftLeft_and_mask _ flags hS)

/-- **Allocation headers read back what was written.** For a block with `size_idx ≥ 1` whose
real data lies past its run's metadata (for a run block) and whose real size
`block_size * size_idx` is below `2 ^ ALLOC_HDR_SIZE_SHIFT`, with a legacy or compact
header: `block_write_header(m, extra, flags)` succeeds, changes no byte of the mapping
outside the 64 bytes at the block's real data, and afterwards `block_get_extra` returns `extra`,
`block_get_flags` returns `flags`, the flavor's `get_size` returns `block_size * size_idx`,
and `block_get_real_size` and `block_get_user_size` give the same value by the header route
(`size_idx = 0`) as by the `size_idx` route. -/
theorem blockWriteHeader_readBack (heap : PallocHeap) (m : MemoryBlock) (extra : BitVec 64)
    (flags : BitVec 16) (uninit : Mem) {real : Nat} (hreal : getRealData L heap m = .ok real)
    (hrun : m.mOps = .run → m.chunkId.toNat < L.maxChunk ∧
      runDataField L (heapGetChunkRun L heap m) ≤ real)
    (hidx : m.sizeIdx ≠ 0)
    (hsize : (blockSize L heap m).toNat * m.sizeIdx.toNat < 2 ^ ALLOC_HDR_SIZE_SHIFT)
    (ht : m.headerType ≠ .none) :
    ∃ mem, blockWriteHeader L heap m extra flags uninit = .ok (heap.withMem mem) ∧
      (∀ a, a < real ∨ real + 64 ≤ a → mem a = heap.mem a) ∧
      blockGetExtra L (heap.withMem mem) m = .ok extra ∧
      blockGetFlags L (heap.withMem mem) m = .ok flags ∧
      headerGetSize L m.headerType (heap.withMem mem) m =
        .ok (blockSize L heap m * m.sizeIdx.setWidth 64) ∧
      blockGetRealSize L (heap.withMem mem) { m with sizeIdx := 0 } =
        blockGetRealSize L (heap.withMem mem) m ∧
      blockGetUserSize L (heap.withMem mem) { m with sizeIdx := 0 } =
        blockGetUserSize L (heap.withMem mem) m := by
  obtain ⟨mem, hw, hframe, hbs, hextra, hflags, hget⟩ :=
    blockWriteHeader_spec L heap m extra flags uninit hreal hrun hidx hsize ht
  refine ⟨mem, hw, hframe, hextra, hflags, hget, blockGetRealSize_routes L _ m hidx ?_⟩
  rw [hbs]
  exact hget

theorem blockWriteHeader_readBack_hugeBlockHeap :
    let m : MemoryBlock := ⟨0, 0, 3, 0, .huge, .compact, .huge⟩
    let real := chunkAddr specLayout hugeBlockHeap 0 0
    ∃ mem, blockWriteHeader specLayout hugeBlockHeap m 7 5 (fun _ => 0) =
        .ok (hugeBlockHeap.withMem mem) ∧
      (∀ a, a < real ∨ real + 64 ≤ a → mem a = hugeBlockHeap.mem a) ∧
      blockGetExtra specLayout (hugeBlockHeap.withMem mem) m = .ok 7 ∧
      blockGetFlags specLayout (hugeBlockHeap.withMem mem) m = .ok 5 ∧
      headerGetSize specLayout m.headerType (hugeBlockHeap.withMem mem) m =
        .ok (blockSize specLayout hugeBlockHeap m * m.sizeIdx.setWidth 64) ∧
      blockGetRealSize specLayout (hugeBlockHeap.withMem mem) { m with sizeIdx := 0 } =
        blockGetRealSize specLayout (hugeBlockHeap.withMem mem) m ∧
      blockGetUserSize specLayout (hugeBlockHeap.withMem mem) { m with sizeIdx := 0 } =
        blockGetUserSize specLayout (hugeBlockHeap.withMem mem) m :=
  blockWriteHeader_readBack specLayout hugeBlockHeap _ 7 5 (fun _ => 0)
    (getRealData_huge specLayout rfl) (by decide) (by decide) (by decide) (by decide)

/-- The none flavor stores nothing, and its `get_size` is one unit, so for a block
of `size_idx ≥ 1` units whose real size fits in 64 bits the header route of
`block_get_real_size` agrees with the `size_idx` route exactly when `size_idx = 1`. -/
theorem blockGetRealSize_none_iff (heap : PallocHeap) (m : MemoryBlock)
    (ht : m.headerType = .none) (hbs : blockSize L heap m ≠ 0) (hidx : m.sizeIdx ≠ 0)
    (hsize : (blockSize L heap m).toNat * m.sizeIdx.toNat < 2 ^ 64) :
    blockGetRealSize L heap { m with sizeIdx := 0 } = blockGetRealSize L heap m ↔
      m.sizeIdx = 1 := by
  have hb0 : 0 < (blockSize L heap m).toNat :=
    Nat.pos_of_ne_zero fun h => hbs (BitVec.eq_of_toNat_eq h)
  have hprod : (blockSize L heap m * m.sizeIdx.setWidth 64).toNat =
      (blockSize L heap m).toNat * m.sizeIdx.toNat := by
    rw [BitVec.toNat_mul, BitVec.toNat_setWidth, Nat.mod_eq_of_lt (Nat.lt_trans m.sizeIdx.isLt
      (by decide)), Nat.mod_eq_of_lt hsize]
  rw [blockGetRealSize, if_neg (fun h => h rfl), blockGetRealSize, if_pos hidx]
  show headerGetSize L m.headerType heap { m with sizeIdx := 0 } = _ ↔ _
  rw [ht]
  show (Except.ok (blockSize L heap m) : Except Fault (BitVec 64)) =
    .ok (blockSize L heap m * m.sizeIdx.setWidth 64) ↔ _
  rw [Except.ok.injEq]
  constructor
  · intro h
    have h' := congrArg BitVec.toNat h
    rw [hprod] at h'
    apply BitVec.eq_of_toNat_eq
    exact (Nat.eq_of_mul_eq_mul_left hb0 (h'.symm.trans (Nat.mul_one _).symm) :)
  · intro h
    rw [h]
    exact (BitVec.mul_one _).symm

/-! ## The size route of the decode -/

/-- `CALC_SIZE_IDX` recovers `n` from the size of `n` whole units. -/
theorem calcSizeIdx_mul (bs : BitVec 64) (n : BitVec 32) (hbs : bs ≠ 0) (hn : n ≠ 0)
    (h : bs.toNat * n.toNat < 2 ^ 64) : calcSizeIdx bs (bs * n.setWidth 64) = n := by
  have hb0 : 0 < bs.toNat := Nat.pos_of_ne_zero fun h => hbs (BitVec.eq_of_toNat_eq h)
  have hn0 : 0 < n.toNat := Nat.pos_of_ne_zero fun h => hn (BitVec.eq_of_toNat_eq h)
  have hsplit : bs.toNat * n.toNat = bs.toNat * (n.toNat - 1) + bs.toNat := by
    rw [← Nat.mul_succ, Nat.succ_eq_add_one, Nat.sub_add_cancel hn0]
  have hprod : bs * n.setWidth 64 = BitVec.ofNat 64 (bs.toNat * n.toNat) := by
    apply BitVec.eq_of_toNat_eq
    rw [BitVec.toNat_mul, BitVec.toNat_setWidth, BitVec.toNat_ofNat,
      Nat.mod_eq_of_lt (Nat.lt_trans n.isLt (by decide))]
  have hq : (bs.toNat * n.toNat - 1) / bs.toNat = n.toNat - 1 := by
    have e₁ : (n.toNat - 1) * bs.toNat = bs.toNat * (n.toNat - 1) := Nat.mul_comm _ _
    have e₂ : (n.toNat - 1 + 1) * bs.toNat = bs.toNat * n.toNat := by
      rw [Nat.sub_add_cancel hn0, Nat.mul_comm]
    exact Nat.div_eq_of_lt_le (by rw [e₁]; omega) (by rw [e₂]; omega)
  have hne : BitVec.ofNat 64 (bs.toNat * n.toNat) ≠ 0 := fun h0 => by
    have := congrArg BitVec.toNat h0
    rw [BitVec.toNat_ofNat, Nat.mod_eq_of_lt h, show (0 : BitVec 64).toNat = 0 from rfl] at this
    omega
  have hdiv : BitVec.ofNat 64 (bs.toNat * n.toNat - 1) / bs =
      BitVec.ofNat 64 ((bs.toNat * n.toNat - 1) / bs.toNat) := by
    apply BitVec.eq_of_toNat_eq
    rw [BitVec.toNat_udiv, BitVec.toNat_ofNat, BitVec.toNat_ofNat, Nat.mod_eq_of_lt (by omega),
      Nat.mod_eq_of_lt (Nat.lt_of_le_of_lt (Nat.div_le_self _ _) (by omega))]
  rw [calcSizeIdx, hprod, if_neg hne, show (1 : BitVec 64) = BitVec.ofNat 64 1 from rfl,
    ofNat_sub_ofNat_of_le h (by omega), hdiv, hq, ofNat_add_ofNat, Nat.sub_add_cancel hn0,
    BitVec.setWidth_ofNat_of_le (by decide : 32 ≤ 64), BitVec.ofNat_toNat, BitVec.setWidth_eq]

/-- The real size of a block whose real data is found can be computed by either route. -/
theorem blockGetRealSize_ok (heap : PallocHeap) (m : MemoryBlock) {real : Nat}
    (hreal : getRealData L heap m = .ok real) : ∃ size, blockGetRealSize L heap m = .ok size := by
  by_cases hidx : m.sizeIdx ≠ 0
  · exact ⟨_, by rw [blockGetRealSize, if_pos hidx]; rfl⟩
  · rw [blockGetRealSize, if_neg hidx]
    cases m.headerType
    · exact ⟨_, by rw [headerGetSize, memblockHeaderLegacyGetSize, headerWord, hreal]; rfl⟩
    · exact ⟨_, by rw [headerGetSize, memblockHeaderCompactGetSize, headerWord, hreal]; rfl⟩
    · exact ⟨_, rfl⟩

/-- What `block_write_header` does: it copies the first `n` bytes of an image to the block's
real data, `n` at most a cacheline, and more than the flavor's header only when the real
size covers them. -/
theorem blockWriteHeader_copy (heap : PallocHeap) (m : MemoryBlock) (extra : BitVec 64)
    (flags : BitVec 16) (uninit : Mem) {real : Nat} {size : BitVec 64}
    (hreal : getRealData L heap m = .ok real) (hsize : blockGetRealSize L heap m = .ok size) :
    ∃ img n, blockWriteHeader L heap m extra flags uninit =
        .ok (heap.withMem (memcpy heap.mem real img n)) ∧
      n ≤ 64 ∧ (n ≤ headerTypeToSize m.headerType ∨ n ≤ size.toNat) := by
  cases hT : m.headerType
  · refine ⟨legacyHeaderImage uninit size extra flags, 64, ?_, le_rfl, .inl le_rfl⟩
    simp only [blockWriteHeader, hsize, hT, headerWrite, memblockHeaderLegacyWrite, hreal]
    rfl
  · refine ⟨compactHeaderImage uninit size extra flags,
      if real % CACHELINE_SIZE = 0 ∧ CACHELINE_SIZE ≤ size.toNat then CACHELINE_SIZE else 16,
      ?_, by split <;> decide, ?_⟩
    · simp only [blockWriteHeader, hsize, hT, headerWrite, memblockHeaderCompactWrite, hreal]
      rfl
    · split
      · next h => exact .inr h.2
      · exact .inl le_rfl
  · refine ⟨uninit, 0, ?_, Nat.zero_le _, .inl le_rfl⟩
    have h0 : memcpy heap.mem real uninit 0 = heap.mem :=
      funext fun a => by rw [memcpy_apply, if_neg (by omega)]
    rw [h0, PallocHeap.withMem_self]
    simp only [blockWriteHeader, hsize, hT, headerWrite, memblockHeaderNoneWrite]
    rfl

/-- A header write on a block whose real data is found succeeds, and changes no byte
outside the 64 bytes at the real data. -/
theorem blockWriteHeader_frame (heap : PallocHeap) (m : MemoryBlock) (extra : BitVec 64)
    (flags : BitVec 16) (uninit : Mem) {real : Nat} (hreal : getRealData L heap m = .ok real) :
    ∃ mem, blockWriteHeader L heap m extra flags uninit = .ok (heap.withMem mem) ∧
      ∀ a, a < real ∨ real + 64 ≤ a → mem a = heap.mem a := by
  obtain ⟨size, hsize⟩ := blockGetRealSize_ok L heap m hreal
  obtain ⟨img, n, hw, hn, -⟩ := blockWriteHeader_copy L heap m extra flags uninit hreal hsize
  exact ⟨_, hw, fun a ha => by rw [memcpy_apply, if_neg (by omega)]⟩

/-- **The header write stays inside the block.** When the real size of a block covers the
header of its flavor, `block_write_header` changes no byte outside the block's real size
from its real data: the compact write copies a whole cacheline only when the size covers
one. -/
theorem blockWriteHeader_inBlock (heap : PallocHeap) (m : MemoryBlock) (extra : BitVec 64)
    (flags : BitVec 16) (uninit : Mem) {real : Nat} {size : BitVec 64}
    (hreal : getRealData L heap m = .ok real) (hsize : blockGetRealSize L heap m = .ok size)
    (hcover : headerTypeToSize m.headerType ≤ size.toNat) :
    ∃ mem, blockWriteHeader L heap m extra flags uninit = .ok (heap.withMem mem) ∧
      ∀ a, a < real ∨ real + size.toNat ≤ a → mem a = heap.mem a := by
  obtain ⟨img, n, hw, -, hn⟩ := blockWriteHeader_copy L heap m extra flags uninit hreal hsize
  exact ⟨_, hw, fun a ha => by rw [memcpy_apply, if_neg (by omega)]⟩

theorem blockWriteHeader_inBlock_hugeBlockHeap :
    ∃ mem, blockWriteHeader specLayout hugeBlockHeap ⟨0, 0, 3, 0, .huge, .compact, .huge⟩ 7 1
        (fun _ => 0) = .ok (hugeBlockHeap.withMem mem) ∧
      ∀ a, a < chunkAddr specLayout hugeBlockHeap 0 0 ∨
        chunkAddr specLayout hugeBlockHeap 0 0 + 786432 ≤ a → mem a = hugeBlockHeap.mem a :=
  @blockWriteHeader_inBlock specLayout hugeBlockHeap ⟨0, 0, 3, 0, .huge, .compact, .huge⟩ 7 1
    (fun _ => 0) (chunkAddr specLayout hugeBlockHeap 0 0) 786432 rfl rfl (by decide)

/-- The chunks of a zone come in order. -/
theorem chunkAddr_le_chunkAddr (heap : PallocHeap) (z : Nat) {c c' : Nat} (h : c ≤ c') :
    chunkAddr L heap z c ≤ chunkAddr L heap z c' := by
  have := Nat.mul_le_mul_left L.chunkSize h
  unfold chunkAddr
  omega

/-- A memory that agrees with the heap's below a run's data leaves what the decode of the
run's blocks reads before their headers unchanged: the run's chunk headers, its unit size,
its flavor and its data start. -/
theorem runDecode_withMem_of_agree (heap : PallocHeap) (mem : Mem) (m : MemoryBlock) {n : Nat}
    (hs : RunSpan L heap m.zoneId.toNat m.chunkId.toNat n) (hn : 0 < n)
    (h : ∀ a < runDataField L (heapGetChunkRun L heap m), mem a = heap.mem a) :
    (∀ i < n, zoneHeaders L (heap.withMem mem) m.zoneId.toNat (m.chunkId.toNat + i) =
      zoneHeaders L heap m.zoneId.toNat (m.chunkId.toNat + i)) ∧
    RunSpan L (heap.withMem mem) m.zoneId.toNat m.chunkId.toNat n ∧
    runBlockSize L (heap.withMem mem) m = runBlockSize L heap m ∧
    memblockHeaderType L (heap.withMem mem) m = memblockHeaderType L heap m ∧
    runGetDataStart L mem (heapGetChunkHdr L heap m) (heapGetChunkRun L heap m)
      (memblockHeaderType L heap m) = runGetDataStart L heap.mem (heapGetChunkHdr L heap m)
        (heapGetChunkRun L heap m) (memblockHeaderType L heap m) := by
  have hfits := hs.fits
  have hB : chunkAddr L heap m.zoneId.toNat 0 ≤ runDataField L (heapGetChunkRun L heap m) :=
    Nat.le_trans (chunkAddr_le_chunkAddr L heap _ (Nat.zero_le m.chunkId.toNat))
      (Nat.le_add_right _ _)
  have hslot : ∀ i < n, zoneHeaders L (heap.withMem mem) m.zoneId.toNat (m.chunkId.toNat + i) =
      zoneHeaders L heap m.zoneId.toNat (m.chunkId.toNat + i) := fun i hi =>
    zoneHeaders_withMem_of_agree L heap mem (by omega) hB h
  have hhead := hslot 0 hn
  refine ⟨hslot, ⟨hfits, hhead ▸ hs.head, fun i hi hpos => hslot i hi ▸ hs.data i hi hpos⟩,
    load64_runBlockSizeField_withMem_of_agree L heap mem h,
    congrArg (fun h : ChunkHeader => headerTypeOfFlags h.flags) hhead,
    runGetDataStart_withMem_of_agree L heap mem _
      (chunkHdrAddr_add_le_chunkAddr L heap (by omega) m.chunkId.toNat) h⟩

/-- **Huge blocks decode with their size.** For a huge block of `size_idx ≥ 1` chunks inside
its zone, whose head is free or used and whose chunk flags select the legacy or compact
flavor, in a zone inside the address space: after `memblock_rebuild_state` and
`block_write_header`, `memblock_from_offset` on the offset of the block's user data returns
the block with the `size_idx` it recovers from the size the header stores. -/
theorem memblockFromOffset_huge_sizeIdx (heap : PallocHeap) (m : MemoryBlock)
    (extra : BitVec 64) (flags : BitVec 16) (uninit : Mem)
    (hc : m.chunkId.toNat + m.sizeIdx.toNat ≤ L.maxChunk) (hidx : m.sizeIdx ≠ 0)
    (hhead : (zoneHeaders L heap m.zoneId.toNat m.chunkId.toNat).IsHuge)
    (hbase : heap.base ≤ zone0 L heap) (hfit : zidToZone L heap (m.zoneId.toNat + 1) ≤ 2 ^ 64)
    (ht : memblockHeaderType L heap m ≠ .none) :
    ∃ m', memblockRebuildState L heap m = .ok m' ∧
      ∃ mem, blockWriteHeader L heap m' extra flags uninit = .ok (heap.withMem mem) ∧
      ∃ u, blockGetUserData L (heap.withMem mem) m' = .ok u ∧
        memblockFromOffset L (heap.withMem mem) (heapPtrToOff (heap.withMem mem) u) =
          .ok ⟨m.chunkId, m.zoneId, m.sizeIdx, 0, .huge, m'.headerType, .huge⟩ := by
  refine ⟨_, memblockRebuildState_huge L heap m hhead, ?_⟩
  have hn0 : 0 < m.sizeIdx.toNat := Nat.pos_of_ne_zero fun h => hidx (BitVec.eq_of_toNat_eq h)
  have hZ := L.zoneMaxSize_lt
  unfold Layout.zoneMaxSize Layout.sizeofZone at hZ
  have hprod := Nat.mul_le_mul_left L.chunkSize (show m.sizeIdx.toNat ≤ L.maxChunk by omega)
  have hCSle : L.chunkSize ≤ L.chunkSize * m.sizeIdx.toNat := Nat.le_mul_of_pos_right _ hn0
  have hCS : (hugeBlockSize L).toNat = L.chunkSize := by
    rw [hugeBlockSize, BitVec.toNat_ofNat, Nat.mod_eq_of_lt (by omega)]
  -- the write, read back
  obtain ⟨mem, hw, hframe, -, -, -, hget⟩ := blockWriteHeader_spec L heap
    { m with headerType := memblockHeaderType L heap m, type := .huge, mOps := .huge } extra flags
    uninit (getRealData_huge L rfl) (fun h => MemoryBlockType.noConfusion h) hidx
    (by show (hugeBlockSize L).toNat * m.sizeIdx.toNat < 2 ^ 48; rw [hCS]; omega) ht
  refine ⟨mem, hw, _, blockGetUserData_eq L (getRealData_huge L rfl), ?_⟩
  -- the write leaves the chunk headers alone
  have hhdr := zoneHeaders_withMem_of_agree L heap mem (z := m.zoneId.toNat)
    (show m.chunkId.toNat < L.maxChunk by omega)
    (chunkAddr_le_chunkAddr L heap m.zoneId.toNat (Nat.zero_le m.chunkId.toNat))
    fun a ha => hframe a (.inl ha)
  have hT : memblockHeaderType L (heap.withMem mem)
      { m with headerType := memblockHeaderType L heap m, type := .huge, mOps := .huge } =
      memblockHeaderType L heap m :=
    congrArg (fun h : ChunkHeader => headerTypeOfFlags h.flags) hhdr
  have hdec := memblockFromOffsetOptAux_huge L (heap.withMem mem)
    { m with headerType := memblockHeaderType L heap m, type := .huge, mOps := .huge }
    (by show m.chunkId.toNat < L.maxChunk; omega) (hhdr ▸ hhead) hbase hfit true
  rw [hT] at hdec
  have hsz : calcSizeIdx (hugeBlockSize L) (hugeBlockSize L * m.sizeIdx.setWidth 64) = m.sizeIdx :=
    calcSizeIdx_mul _ _ (fun h => by rw [h] at hCS; exact absurd hCS (by
      have := L.chunkSize_pos; show 0 ≠ L.chunkSize; omega)) hidx (by rw [hCS]; omega)
  have hget' : headerGetSize L (memblockHeaderType L heap m) (heap.withMem mem)
      ⟨m.chunkId, m.zoneId, 0, 0, .huge, memblockHeaderType L heap m, .huge⟩ =
      .ok (hugeBlockSize L * m.sizeIdx.setWidth 64) :=
    (headerGetSize_huge_blockOff L (heap.withMem mem) _ _ 0 rfl).trans
      ((headerGetSize_sizeIdx L (heap.withMem mem) _ _ 0).trans hget)
  simp only [memblockFromOffset, memblockFromOffsetOpt]
  erw [hdec]
  simp only [if_true, hget']
  rw [show (calcSizeIdx (hugeBlockSize L) <$> (.ok (hugeBlockSize L * m.sizeIdx.setWidth 64) :
    Except Fault (BitVec 64))) = .ok m.sizeIdx from congrArg Except.ok hsz]
  rfl

theorem memblockFromOffset_huge_sizeIdx_hugeBlockHeap :
    ∃ m', memblockRebuildState specLayout hugeBlockHeap ⟨0, 0, 3, 0, .huge, .legacy, .huge⟩ =
        .ok m' ∧
      ∃ mem, blockWriteHeader specLayout hugeBlockHeap m' 7 5 (fun _ => 0) =
        .ok (hugeBlockHeap.withMem mem) ∧
      ∃ u, blockGetUserData specLayout (hugeBlockHeap.withMem mem) m' = .ok u ∧
        memblockFromOffset specLayout (hugeBlockHeap.withMem mem)
          (heapPtrToOff (hugeBlockHeap.withMem mem) u) =
          .ok ⟨0, 0, 3, 0, .huge, m'.headerType, .huge⟩ :=
  memblockFromOffset_huge_sizeIdx specLayout hugeBlockHeap _ 7 5 (fun _ => 0) (by decide)
    (by decide) (by decide) (by decide) (by decide) (by decide)

/-- **Run blocks decode with their size.** Take a block of `size_idx ≥ 1` units inside a run
of `n` chunks in which every chunk header carries the head's `CHUNK_FLAG_ALIGNED`, with data
start `p` bytes past `run->data`, unit size above the header size, and the legacy or compact
flavor. After `memblock_rebuild_state` and `block_write_header`, `memblock_from_offset` on
the offset of the block's user data returns the block with the `size_idx` it recovers from
the size the header stores. -/
theorem memblockFromOffset_run_sizeIdx (heap : PallocHeap) (m : MemoryBlock)
    (extra : BitVec 64) (flags : BitVec 16) (uninit : Mem) {n p : Nat}
    (hspan : RunSpan L heap m.zoneId.toNat m.chunkId.toNat n)
    (hbase : heap.base ≤ zone0 L heap) (hfit : zidToZone L heap (m.zoneId.toNat + 1) ≤ 2 ^ 64)
    (hbs : runBlockSize L heap m ≠ 0)
    (hhs : headerTypeToSize (memblockHeaderType L heap m) < (runBlockSize L heap m).toNat)
    (hstart : runGetDataStart L heap.mem (heapGetChunkHdr L heap m) (heapGetChunkRun L heap m)
      (memblockHeaderType L heap m) = runDataField L (heapGetChunkRun L heap m) + p)
    (hin : L.runMetaSize + p + (runBlockSize L heap m).toNat *
      (m.blockOff.toNat + m.sizeIdx.toNat) ≤ L.chunkSize * n)
    (hidx : m.sizeIdx ≠ 0)
    (haligned : ∀ i < n, (zoneHeaders L heap m.zoneId.toNat (m.chunkId.toNat + i)).flags &&&
        CHUNK_FLAG_ALIGNED = 0 ↔
      (zoneHeaders L heap m.zoneId.toNat m.chunkId.toNat).flags &&& CHUNK_FLAG_ALIGNED = 0)
    (ht : memblockHeaderType L heap m ≠ .none) :
    ∃ m', memblockRebuildState L heap m = .ok m' ∧
      ∃ mem, blockWriteHeader L heap m' extra flags uninit = .ok (heap.withMem mem) ∧
      ∃ u, blockGetUserData L (heap.withMem mem) m' = .ok u ∧
        memblockFromOffset L (heap.withMem mem) (heapPtrToOff (heap.withMem mem) u) =
          .ok ⟨m.chunkId, m.zoneId, m.sizeIdx, m.blockOff, .run, m'.headerType, .run⟩ := by
  have hn0 : 0 < m.sizeIdx.toNat := Nat.pos_of_ne_zero fun h => hidx (BitVec.eq_of_toNat_eq h)
  have hb0 : 0 < (runBlockSize L heap m).toNat :=
    Nat.pos_of_ne_zero fun h => hbs (BitVec.eq_of_toNat_eq h)
  have hin₁ : L.runMetaSize + p + (runBlockSize L heap m).toNat * (m.blockOff.toNat + 1) ≤
      L.chunkSize * n :=
    Nat.le_trans (Nat.add_le_add_left (Nat.mul_le_mul_left _ (by omega)) _) hin
  have hspan0 : 0 < n := Nat.pos_of_ne_zero fun h => by
    rw [h, Nat.mul_zero] at hin₁
    have := Nat.mul_le_mul_left (runBlockSize L heap m).toNat (Nat.le_add_left 1 m.blockOff.toNat)
    omega
  obtain ⟨hrb, hreal, -⟩ := memblockRebuildState_userData_run L heap m hspan hfit hbs hstart hin₁
  refine ⟨_, hrb, ?_⟩
  -- the size fits below the flags
  have hZ := L.zoneMaxSize_lt
  unfold Layout.zoneMaxSize Layout.sizeofZone at hZ
  have hend := Nat.mul_le_mul_left L.chunkSize (show n ≤ L.maxChunk by have := hspan.fits; omega)
  have hsz := Nat.mul_le_mul_left (runBlockSize L heap m).toNat
    (Nat.le_add_left m.sizeIdx.toNat m.blockOff.toNat)
  -- the block's real data lies past the run's metadata
  have hc : m.chunkId.toNat < L.maxChunk := by have := hspan.fits; omega
  have hD : runDataField L (heapGetChunkRun L heap m) ≤ chunkAddr L heap m.zoneId.toNat
      m.chunkId.toNat + (L.runMetaSize + (p + (runBlockSize L heap m).toNat * m.blockOff.toNat)) := by
    show chunkAddr L heap m.zoneId.toNat m.chunkId.toNat + L.runMetaSize ≤ _
    omega
  -- the write, read back
  obtain ⟨mem, hw, hframe, -, -, -, hget⟩ := blockWriteHeader_spec L heap
    { m with headerType := memblockHeaderType L heap m, type := .run, mOps := .run } extra flags
    uninit hreal (fun _ => ⟨hc, hD⟩) hidx
    (by show (runBlockSize L heap m).toNat * m.sizeIdx.toNat < 2 ^ 48; omega) ht
  have hagree : ∀ a < runDataField L (heapGetChunkRun L heap m), mem a = heap.mem a :=
    fun a ha => hframe a (.inl (Nat.lt_of_lt_of_le ha hD))
  refine ⟨mem, hw, ?_⟩
  have hreal' := (getRealData_withMem_of_agree L heap mem
    { m with headerType := memblockHeaderType L heap m, type := .run, mOps := .run }
    fun _ => ⟨hc, hagree⟩).1.trans hreal
  have hu := blockGetUserData_eq L hreal'
  refine ⟨_, hu, ?_⟩
  -- the write leaves what the decode reads before the header alone
  obtain ⟨hslot, hspan', hbs', hT, hstart'⟩ :=
    runDecode_withMem_of_agree L heap mem m hspan hspan0 hagree
  have hget' : headerGetSize L (memblockHeaderType L heap m) (heap.withMem mem)
      ⟨m.chunkId, m.zoneId, 0, m.blockOff, .run, memblockHeaderType L heap m, .run⟩ =
      .ok (runBlockSize L heap m * m.sizeIdx.setWidth 64) :=
    (headerGetSize_sizeIdx L (heap.withMem mem) _ _ 0).trans hget
  have hsize : calcSizeIdx (runBlockSize L heap m) (runBlockSize L heap m * m.sizeIdx.setWidth 64) =
      m.sizeIdx := calcSizeIdx_mul _ _ hbs hidx (by omega)
  -- the decode's hypotheses, over the heap after the write
  have hhead := hslot 0 hspan0
  rw [Nat.add_zero] at hhead
  have haligned' : ∀ i < n, (zoneHeaders L (heap.withMem mem) m.zoneId.toNat
      (m.chunkId.toNat + i)).flags &&& CHUNK_FLAG_ALIGNED = 0 ↔ (zoneHeaders L (heap.withMem mem)
        m.zoneId.toNat m.chunkId.toNat).flags &&& CHUNK_FLAG_ALIGNED = 0 := fun i hi => by
    rw [hslot i hi, hhead]; exact haligned i hi
  rw [← hstart', ← hT] at hstart
  rw [← hbs'] at hbs hin₁
  rw [← hbs', ← hT] at hhs
  have hdec := memblockFromOffsetOptAux_run_aligned L (heap.withMem mem) m hspan' hbase hfit
    hbs hhs hstart hin₁ haligned' true
  simp only [memblockFromOffset, memblockFromOffsetOpt, Nat.add_assoc, hbs', hT,
    chunkAddr_withMem] at hdec ⊢
  rw [hdec]
  simp only [if_true, hget']
  rw [show (calcSizeIdx (runBlockSize L heap m) <$>
    (.ok (runBlockSize L heap m * m.sizeIdx.setWidth 64) : Except Fault (BitVec 64))) =
      .ok m.sizeIdx from congrArg Except.ok hsize]
  rfl

/-- A block whose user data lies in the run's `RUN_DATA` chunk. -/
theorem memblockFromOffset_run_sizeIdx_alignedSpanHeap :
    ∃ m', memblockRebuildState specLayout alignedSpanHeap ⟨0, 0, 1, 64, .huge, .legacy, .huge⟩ =
        .ok m' ∧
      ∃ mem, blockWriteHeader specLayout alignedSpanHeap m' 7 5 (fun _ => 0) =
        .ok (alignedSpanHeap.withMem mem) ∧
      ∃ u, blockGetUserData specLayout (alignedSpanHeap.withMem mem) m' = .ok u ∧
        memblockFromOffset specLayout (alignedSpanHeap.withMem mem)
          (heapPtrToOff (alignedSpanHeap.withMem mem) u) =
          .ok ⟨0, 0, 1, 64, .run, m'.headerType, .run⟩ :=
  @memblockFromOffset_run_sizeIdx specLayout alignedSpanHeap _ 7 5 (fun _ => 0) 2 1008
    (by decide) (by decide) (by decide) (by decide) (by decide) (by decide) (by decide)
    (by decide) (by decide) (by decide)

/-- **A header write does not make the blocks of an aligned run decode through a `RUN_DATA`
chunk without `CHUNK_FLAG_ALIGNED`.** For the blocks of
`memblockFromOffsetOpt_run_stale_padding` (an aligned run, a positive padding, user data
landing in a chunk whose header lacks the flag), after `memblock_rebuild_state` and
`block_write_header`, `memblock_from_offset` on the offset of the block's user data stops at
`ASSERT(off == 0)` instead of returning the block's `size_idx`. -/
theorem memblockFromOffset_run_stale_padding (heap : PallocHeap) (m : MemoryBlock) (n j : Nat)
    (extra : BitVec 64) (flags : BitVec 16) (uninit : Mem) :
    let run := heapGetChunkRun L heap m
    let hs := headerTypeToSize (memblockHeaderType L heap m)
    let bs := (runBlockSize L heap m).toNat
    let p := padTo (2 ^ j) (runDataField L run + hs)
    RunSpan L heap m.zoneId.toNat m.chunkId.toNat n →
    heap.base ≤ zone0 L heap → zidToZone L heap (m.zoneId.toNat + 1) ≤ 2 ^ 64 → j < 64 →
    (zoneHeaders L heap m.zoneId.toNat m.chunkId.toNat).flags &&& CHUNK_FLAG_ALIGNED ≠ 0 →
    load64 heap.mem (runAlignmentField run) = BitVec.ofNat 64 (2 ^ j) →
    0 < bs → 2 ^ j ∣ bs → hs < bs → ¬ 2 ^ j ∣ runDataField L run + hs →
    L.runMetaSize + p + bs * (m.blockOff.toNat + 1) ≤ L.chunkSize * n →
    (zoneHeaders L heap m.zoneId.toNat (m.chunkId.toNat +
      (L.runMetaSize + (p + bs * m.blockOff.toNat) + hs) / L.chunkSize)).flags &&&
        CHUNK_FLAG_ALIGNED = 0 →
    ∃ m', memblockRebuildState L heap m = .ok m' ∧
      ∃ mem, blockWriteHeader L heap m' extra flags uninit = .ok (heap.withMem mem) ∧
      ∃ u, blockGetUserData L (heap.withMem mem) m' = .ok u ∧
        memblockFromOffset L (heap.withMem mem) (heapPtrToOff (heap.withMem mem) u) =
          .error (.assertion "off == 0") := by
  intro run hs bs p hspan hbase hfit hj hflag halign hbs0 hbsj hhs hpad hin hstale
  -- the padding of the aligned head
  have hspec := runGetDataStart_eq_padTo L heap.mem (heapGetChunkHdr L heap m) run
    (memblockHeaderType L heap m) hj hflag halign
  have hend := chunkAddr_add_mul_le L heap (z := m.zoneId.toNat) hspan.fits
  have hCS := L.chunkSize_pos
  have hmul := Nat.mul_add_one bs m.blockOff.toNat
  have hlt : runDataField L run + p < 2 ^ 64 := by
    simp only [run, runDataField, heapGetChunkRun, heapGetChunk] at hend ⊢
    omega
  have hbs : runBlockSize L heap m ≠ 0 := fun h => by
    simp only [bs, h, show (0 : BitVec 64).toNat = 0 from rfl] at hbs0
    exact absurd hbs0 (Nat.lt_irrefl 0)
  have hp := padTo_pos (Nat.two_pow_pos j) hpad
  have hpb := Nat.lt_of_lt_of_le (padTo_lt (runDataField L run + hs) (Nat.two_pow_pos j))
    (Nat.le_of_dvd hbs0 hbsj)
  obtain ⟨hrb, hreal, -⟩ := memblockRebuildState_userData_run L heap m hspan hfit hbs
    (hspec.1.trans (Nat.mod_eq_of_lt hlt)) hin
  refine ⟨_, hrb, ?_⟩
  -- the write leaves what the decode reads before the header alone
  have hn : 0 < n := Nat.pos_of_ne_zero fun h => by rw [h, Nat.mul_zero] at hin; omega
  have hc : m.chunkId.toNat < L.maxChunk := by have := hspan.fits; omega
  have hD : runDataField L (heapGetChunkRun L heap m) ≤ chunkAddr L heap m.zoneId.toNat
      m.chunkId.toNat + (L.runMetaSize + (p + bs * m.blockOff.toNat)) := by
    show chunkAddr L heap m.zoneId.toNat m.chunkId.toNat + L.runMetaSize ≤ _
    omega
  obtain ⟨mem, hw, hframe⟩ := blockWriteHeader_frame L heap
    { m with headerType := memblockHeaderType L heap m, type := .run, mOps := .run } extra flags
    uninit hreal
  refine ⟨mem, hw, ?_⟩
  have hagree : ∀ a < runDataField L (heapGetChunkRun L heap m), mem a = heap.mem a :=
    fun a ha => hframe a (.inl (Nat.lt_of_lt_of_le ha hD))
  have hreal' := (getRealData_withMem_of_agree L heap mem
    { m with headerType := memblockHeaderType L heap m, type := .run, mOps := .run }
    fun _ => ⟨hc, hagree⟩).1.trans hreal
  have hu := blockGetUserData_eq L hreal'
  refine ⟨_, hu, ?_⟩
  obtain ⟨hslot, hspan', hbs', hT, -⟩ := runDecode_withMem_of_agree L heap mem m hspan hn hagree
  have hi := Nat.div_lt_of_lt_mul (show L.runMetaSize + (p + bs * m.blockOff.toNat) + hs <
    L.chunkSize * n by omega)
  -- the decode's hypotheses, over the heap after the write
  rw [← hslot _ hi] at hstale
  simp only [bs, hs] at hhs hin hpb hstale
  rw [← hbs'] at hbs hhs hin hpb hstale
  rw [← hT] at hhs hstale
  have hdec := memblockFromOffsetOptAux_run_stale L (heap.withMem mem) m hspan' hbase hfit
    hbs hhs hin hp hpb hstale true
  simp only [memblockFromOffset, memblockFromOffsetOpt, Nat.add_assoc, hbs', hT,
    chunkAddr_withMem] at hdec ⊢
  rw [hdec]
  rfl

theorem memblockFromOffset_run_stale_padding_staleRunHeap :
    ∃ m', memblockRebuildState specLayout staleRunHeap ⟨0, 0, 1, 64, .huge, .legacy, .huge⟩ =
        .ok m' ∧
      ∃ mem, blockWriteHeader specLayout staleRunHeap m' 7 5 (fun _ => 0) =
        .ok (staleRunHeap.withMem mem) ∧
      ∃ u, blockGetUserData specLayout (staleRunHeap.withMem mem) m' = .ok u ∧
        memblockFromOffset specLayout (staleRunHeap.withMem mem)
          (heapPtrToOff (staleRunHeap.withMem mem) u) = .error (.assertion "off == 0") :=
  memblockFromOffset_run_stale_padding specLayout staleRunHeap _ 2 12 7 5 (fun _ => 0)
    (by decide) (by decide) (by decide) (by decide) (by decide) (by decide) (by decide)
    (by decide) (by decide) (by decide) (by decide) (by decide)

end ReadBack

end Memblock
