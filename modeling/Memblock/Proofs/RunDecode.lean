import Memblock.Proofs.Decode
import Memblock.Proofs.Alignment

set_option autoImplicit false

/-! # Decoding the offset of a run block

A run of `n` chunks has a `RUN` head and `n - 1` `RUN_DATA` slots that count back to it.
`memblock_from_offset_opt` finds the chunk an offset lands in, corrects it back to the head,
and takes the unit index from what is left once the alignment padding and `RUN_METASIZE`
are subtracted. The padding is computed by `run_get_alignment_padding(hdr, …)` with `hdr`
the header of the chunk the offset landed in, read before the correction: in a `RUN_DATA`
chunk, it is that slot's `CHUNK_FLAG_ALIGNED` that decides whether there is padding.

* `memblockFromOffsetOptAux_run_eq`: the decode of any offset inside a run, in closed form
  up to the unit-index computation `runBlockOff`;
* `memblockFromOffsetOpt_run`: when every chunk of the run carries the head's
  `CHUNK_FLAG_ALIGNED`, the decode of a block's user data is the block;
* `memblockFromOffsetOpt_run_stale_padding`: when the head is aligned, the block's user data
  lands in a `RUN_DATA` chunk without the flag, and the padding is not zero, the decode stops
  at `ASSERT(off == 0)`.
-/

namespace Memblock

/-- A non-multiple needs a positive padding. -/
theorem padTo_pos {a x : Nat} (ha : 0 < a) (hx : ¬ a ∣ x) : 0 < padTo a x :=
  Nat.pos_of_ne_zero fun h => hx (by simpa [h] using dvd_add_padTo x ha)

section

variable (L : Layout)

/-! ## The chunks of a run -/

/-- A run of `n` chunks at chunk `c` of zone `z`: a `RUN` head, and in each following slot a
`RUN_DATA` header whose `size_idx` counts back to the head. The flags of the `RUN_DATA`
slots are left free. -/
structure RunSpan (heap : PallocHeap) (z c n : Nat) : Prop where
  fits : c + n ≤ L.maxChunk
  head : (zoneHeaders L heap z c).type = CHUNK_TYPE_RUN
  data : ∀ i < n, 0 < i → (zoneHeaders L heap z (c + i)).type = CHUNK_TYPE_RUN_DATA ∧
    (zoneHeaders L heap z (c + i)).sizeIdx.toNat = i

instance (heap : PallocHeap) (z c n : Nat) : Decidable (RunSpan L heap z c n) :=
  decidable_of_iff (c + n ≤ L.maxChunk ∧ (zoneHeaders L heap z c).type = CHUNK_TYPE_RUN ∧
      ∀ i < n, 0 < i → (zoneHeaders L heap z (c + i)).type = CHUNK_TYPE_RUN_DATA ∧
        (zoneHeaders L heap z (c + i)).sizeIdx.toNat = i)
    ⟨fun ⟨h₁, h₂, h₃⟩ => ⟨h₁, h₂, h₃⟩, fun ⟨h₁, h₂, h₃⟩ => ⟨h₁, h₂, h₃⟩⟩

/-- Chunk `c + i` of a run, as a `uint32_t`. -/
theorem RunSpan.toNat_ofNat {heap : PallocHeap} {z c n i : Nat} (hs : RunSpan L heap z c n)
    (hi : i < n) : (BitVec.ofNat 32 (c + i)).toNat = c + i := by
  have := hs.fits
  have := L.chunkId_fits
  rw [BitVec.toNat_ofNat, Nat.mod_eq_of_lt (by omega)]

/-- The correction of `memblock_from_offset_opt` takes every chunk of a run back to its
head. -/
theorem RunSpan.chunk_back {heap : PallocHeap} {z n i : Nat} {c : BitVec 32}
    (hs : RunSpan L heap z c.toNat n) (hi : i < n) :
    (if (zoneHeaders L heap z (c.toNat + i)).type = CHUNK_TYPE_RUN_DATA
      then BitVec.ofNat 32 (c.toNat + i) - (zoneHeaders L heap z (c.toNat + i)).sizeIdx
      else BitVec.ofNat 32 (c.toNat + i)) = c := by
  rcases Nat.eq_zero_or_pos i with rfl | hpos
  · rw [Nat.add_zero, if_neg (by rw [hs.head]; decide), BitVec.ofNat_toNat, BitVec.setWidth_eq]
  · obtain ⟨ht, hsz⟩ := hs.data i hi hpos
    rw [if_pos ht]
    apply BitVec.eq_of_toNat_eq
    rw [BitVec.toNat_sub, hs.toNat_ofNat L hi, hsz]
    have := c.isLt
    simp only [Nat.reducePow] at *
    omega

/-! ## The unit index -/

/-- The last lines of the run branch of `memblock_from_offset_opt`: from `RUN_METASIZE + x`,
the padding `p'` and `RUN_METASIZE` are subtracted, and what is left is divided into whole
units and a remainder. -/
theorem runBlockOff_eq (mem : Mem) (hdr run : Nat) (t : HeaderType) (bs : BitVec 64)
    {x p' : Nat} (hpad : runGetAlignmentPadding L mem hdr run t = BitVec.ofNat 64 p')
    (hp' : p' ≤ x) (hx : L.runMetaSize + x < 2 ^ 64) (hbs : bs ≠ 0)
    (hq : (x - p') / bs.toNat < 2 ^ 16) :
    runBlockOff L mem hdr run t bs ⟨BitVec.ofNat 64 (L.runMetaSize + x), false⟩ =
      (BitVec.ofNat 16 ((x - p') / bs.toNat),
        ⟨BitVec.ofNat 64 ((x - p') % bs.toNat), false⟩) := by
  have hb0 : 0 < bs.toNat := Nat.pos_of_ne_zero fun h => hbs (BitVec.eq_of_toNat_eq h)
  have hb := bs.isLt
  have hq64 : (x - p') / bs.toNat < 2 ^ 64 := Nat.lt_trans hq (by decide)
  have hbs' : bs = BitVec.ofNat 64 bs.toNat := (BitVec.ofNat_toNat 64 bs).trans bs.setWidth_eq |>.symm
  have hwiden : (BitVec.ofNat 16 ((x - p') / bs.toNat)).setWidth 64 =
      BitVec.ofNat 64 ((x - p') / bs.toNat) := by
    apply BitVec.eq_of_toNat_eq
    rw [BitVec.toNat_setWidth, BitVec.toNat_ofNat, BitVec.toNat_ofNat, Nat.mod_eq_of_lt hq]
  have hnarrow : (BitVec.ofNat 64 ((x - p') / bs.toNat)).setWidth 16 =
      BitVec.ofNat 16 ((x - p') / bs.toNat) :=
    BitVec.setWidth_ofNat_of_le (by decide : 16 ≤ 64) _
  have hmul := Nat.div_mul_le_self (x - p') bs.toNat
  simp only [runBlockOff, hpad]
  rw [Residual.sub_ofNat _ hx (by omega), Residual.sub_ofNat _ (by omega) (by omega),
    show L.runMetaSize + x - p' - L.runMetaSize = x - p' by omega, hbs',
    ofNat_div_ofNat (by omega) hb, hnarrow, hwiden, ofNat_mul_ofNat,
    Residual.sub_ofNat _ (by omega) (by rw [Nat.mul_comm]; exact hmul), ← Nat.mod_def]
  simp only [BitVec.toNat_ofNat, Nat.mod_eq_of_lt hb]

/-! ## The data of a run block -/

/-- The chunks `c .. c + n - 1` of a zone end before the next zone. -/
theorem chunkAddr_add_mul_le (heap : PallocHeap) {z c n : Nat} (h : c + n ≤ L.maxChunk) :
    chunkAddr L heap z c + L.chunkSize * n ≤ zidToZone L heap (z + 1) := by
  have := Nat.mul_le_mul_left L.chunkSize h
  rw [zidToZone_succ, chunkAddr, Layout.zoneMaxSize, Nat.mul_add] at *
  omega

/-- Without `CHUNK_FLAG_ALIGNED` there is no padding. -/
theorem runGetAlignmentPadding_of_not_aligned (mem : Mem) (hdr run : Nat) (t : HeaderType)
    (h : (readChunkHeader mem hdr).flags &&& CHUNK_FLAG_ALIGNED = 0) :
    runGetAlignmentPadding L mem hdr run t = BitVec.ofNat 64 0 := by
  rw [runGetAlignmentPadding, runGetDataStart, if_neg (not_not.2 h), BitVec.sub_self]

/-- The data start depends on the chunk header only through its `CHUNK_FLAG_ALIGNED`. -/
theorem runGetDataStart_congr_aligned (mem : Mem) {hdr hdr' : Nat} (run : Nat) (t : HeaderType)
    (h : (readChunkHeader mem hdr').flags &&& CHUNK_FLAG_ALIGNED = 0 ↔
      (readChunkHeader mem hdr).flags &&& CHUNK_FLAG_ALIGNED = 0) :
    runGetDataStart L mem hdr' run t = runGetDataStart L mem hdr run t := by
  unfold runGetDataStart
  by_cases h0 : (readChunkHeader mem hdr).flags &&& CHUNK_FLAG_ALIGNED = 0
  · rw [if_neg (not_not.2 h0), if_neg (not_not.2 (h.2 h0))]
  · rw [if_pos h0, if_pos (mt h.1 h0)]

/-- A data start `p` bytes past `run->data` is a padding of `p`. -/
theorem runGetAlignmentPadding_of_start (mem : Mem) (hdr run : Nat) (t : HeaderType) {p : Nat}
    (hstart : runGetDataStart L mem hdr run t = runDataField L run + p)
    (hlt : runDataField L run + p < 2 ^ 64) :
    runGetAlignmentPadding L mem hdr run t = BitVec.ofNat 64 p := by
  rw [runGetAlignmentPadding, hstart, ofNat_sub_ofNat_of_le hlt (Nat.le_add_right _ _),
    Nat.add_sub_cancel_left]

theorem memblockRebuildState_run (heap : PallocHeap) (m : MemoryBlock)
    (h : (zoneHeaders L heap m.zoneId.toNat m.chunkId.toNat).type = CHUNK_TYPE_RUN) :
    memblockRebuildState L heap m =
      .ok { m with headerType := memblockHeaderType L heap m, type := .run, mOps := .run } := by
  rw [memblockRebuildState, memblockDetectType_run L heap
    { m with headerType := memblockHeaderType L heap m } h]
  rfl

/-- A run block, rebuilt, and the addresses of its real data and of its user data:
`RUN_METASIZE`, the padding `p`, `block_off` units and then the header past the start of its
run. -/
theorem memblockRebuildState_userData_run (heap : PallocHeap) (m : MemoryBlock) {n p : Nat}
    (hspan : RunSpan L heap m.zoneId.toNat m.chunkId.toNat n)
    (hfit : zidToZone L heap (m.zoneId.toNat + 1) ≤ 2 ^ 64) (hbs : runBlockSize L heap m ≠ 0)
    (hstart : runGetDataStart L heap.mem (heapGetChunkHdr L heap m) (heapGetChunkRun L heap m)
      (memblockHeaderType L heap m) = runDataField L (heapGetChunkRun L heap m) + p)
    (hin : L.runMetaSize + p + (runBlockSize L heap m).toNat * (m.blockOff.toNat + 1) ≤
      L.chunkSize * n) :
    memblockRebuildState L heap m =
        .ok { m with headerType := memblockHeaderType L heap m, type := .run, mOps := .run } ∧
      getRealData L heap
          { m with headerType := memblockHeaderType L heap m, type := .run, mOps := .run } =
        .ok (chunkAddr L heap m.zoneId.toNat m.chunkId.toNat + (L.runMetaSize +
          (p + (runBlockSize L heap m).toNat * m.blockOff.toNat))) ∧
      blockGetUserData L heap
          { m with headerType := memblockHeaderType L heap m, type := .run, mOps := .run } =
        .ok (chunkAddr L heap m.zoneId.toNat m.chunkId.toNat + (L.runMetaSize +
          (p + (runBlockSize L heap m).toNat * m.blockOff.toNat) +
            headerTypeToSize (memblockHeaderType L heap m))) := by
  have hreal : getRealData L heap
      { m with headerType := memblockHeaderType L heap m, type := .run, mOps := .run } =
      .ok (chunkAddr L heap m.zoneId.toNat m.chunkId.toNat + (L.runMetaSize +
        (p + (runBlockSize L heap m).toNat * m.blockOff.toNat))) := by
    have hend := chunkAddr_add_mul_le L heap (z := m.zoneId.toNat) hspan.fits
    have hk := m.blockOff.isLt
    have hbs' : load64 heap.mem (runBlockSizeField (heapGetChunkRun L heap
        { m with headerType := memblockHeaderType L heap m, type := .run, mOps := .run })) ≠ 0 :=
      hbs
    rw [(getRealData_run L rfl).trans (runGetRealData_eq L hbs')]
    simp only [runBlockSize, heapGetChunkHdr, heapGetChunkRun, heapGetChunk, runDataField] at *
    generalize load64 heap.mem (runBlockSizeField (chunkAddr L heap m.zoneId.toNat
      m.chunkId.toNat)) = bs at *
    have hb0 : 0 < bs.toNat := Nat.pos_of_ne_zero fun h => hbs (BitVec.eq_of_toNat_eq h)
    rw [Nat.mul_succ] at hin
    rw [hstart, BitVec.toNat_mul, BitVec.toNat_setWidth,
      Nat.mod_eq_of_lt (show m.blockOff.toNat < 2 ^ 64 by omega), Nat.mod_eq_of_lt (by omega)]
    congr 1
    omega
  refine ⟨memblockRebuildState_run L heap m hspan.head, hreal, ?_⟩
  rw [blockGetUserData_eq L hreal, Nat.add_assoc]

/-! ## The decode of an offset inside a run -/

/-- `memblock_from_offset_opt` on the offset `RUN_METASIZE + x + hsize` bytes past the start
of a run, which lands in chunk `i` of the run: the run's zone and chunk, the head's flavor
`t`, kind run, and the unit index and residual that `runBlockOff` computes through the
header of chunk `i`. -/
theorem memblockFromOffsetOptAux_run_eq (heap : PallocHeap) (z c : BitVec 32) (t : HeaderType)
    (bs : BitVec 64) {n x i : Nat} (hspan : RunSpan L heap z.toNat c.toNat n) (hi : i < n)
    (hbase : heap.base ≤ zone0 L heap) (hfit : zidToZone L heap (z.toNat + 1) ≤ 2 ^ 64)
    (ht : headerTypeOfFlags (zoneHeaders L heap z.toNat c.toNat).flags = t)
    (hbs : load64 heap.mem (runBlockSizeField (chunkAddr L heap z.toNat c.toNat)) = bs)
    (hlo : L.chunkSize * i ≤ L.runMetaSize + x + headerTypeToSize t)
    (hhi : L.runMetaSize + x + headerTypeToSize t < L.chunkSize * (i + 1)) (size : Bool) :
    memblockFromOffsetOptAux L heap (heapPtrToOff heap
        (chunkAddr L heap z.toNat c.toNat + (L.runMetaSize + x + headerTypeToSize t))) size =
      (do
        let (blockOff, s) := runBlockOff L heap.mem (chunkHdrAddr L heap z.toNat (c.toNat + i))
          (chunkAddr L heap z.toNat c.toNat) t bs ⟨BitVec.ofNat 64 (L.runMetaSize + x), false⟩
        let m : MemoryBlock := ⟨c, z, 0, blockOff, .run, t, .run⟩
        let sizeIdx ← if size then calcSizeIdx bs <$> headerGetSize L t heap m else pure 0
        assert (s.off == 0) "off == 0"
        return ⟨{ m with sizeIdx }, s.off, s.wrapped⟩) := by
  have hci := hspan.toNat_ofNat L hi
  have hfits := hspan.fits
  have hmeta := L.bitmap_le_meta
  rw [Nat.mul_succ] at hhi
  have hδ : L.runMetaSize + x + headerTypeToSize t - L.chunkSize * i < L.chunkSize := by omega
  have hu : chunkAddr L heap z.toNat c.toNat + (L.runMetaSize + x + headerTypeToSize t) =
      chunkAddr L heap z.toNat (c.toNat + i) +
        (L.runMetaSize + x + headerTypeToSize t - L.chunkSize * i) := by
    simp only [chunkAddr, Nat.mul_add]
    omega
  have hend := chunkAddr_add_lt L heap (z := z.toNat) (show c.toNat + i < L.maxChunk by omega) hδ
  have hchunk := fromOffsetChunk_eq L heap z (BitVec.ofNat 32 (c.toNat + i)) (by omega) hδ hbase
    hfit (fun hr => by
      rw [hci] at hr ⊢
      rcases Nat.eq_zero_or_pos i with rfl | hpos
      · rw [Nat.add_zero, hspan.head] at hr
        exact absurd hr (by decide)
      · rw [(hspan.data i hi hpos).2]
        omega)
  simp only [hci] at hchunk
  rw [hspan.chunk_back L hi, Nat.add_sub_cancel_left, Nat.add_sub_cancel' hlo] at hchunk
  have hsub : (⟨BitVec.ofNat 64 (L.runMetaSize + x + headerTypeToSize t), false⟩ : Residual).sub
      (BitVec.ofNat 64 (headerTypeToSize t)) = ⟨BitVec.ofNat 64 (L.runMetaSize + x), false⟩ := by
    rw [Residual.sub_ofNat _ (by omega) (by omega), Nat.add_sub_cancel]
  have hne : BitVec.ofNat 64 (L.runMetaSize + x) ≠ 0 := fun h => by
    have := congrArg BitVec.toNat h
    rw [BitVec.toNat_ofNat, Nat.mod_eq_of_lt (by omega),
      show (0 : BitVec 64).toNat = 0 from rfl] at this
    omega
  rw [memblockFromOffsetOptAux, hu, hchunk]
  simp only [show memblockHeaderType L heap ⟨c, z, 0, 0, .huge, .legacy, .huge⟩ = t from ht, hsub,
    ne_eq, hne, not_false_eq_true, if_true,
    memblockDetectType_run L heap ⟨c, z, 0, 0, .huge, .legacy, .huge⟩ hspan.head, ← hbs]
  rfl

/-! ## Blocks of a run -/

/-- `alignedRunHeap` with its second chunk marked as the run's `RUN_DATA` chunk, without
flags. -/
def staleRunHeap : PallocHeap :=
  alignedRunHeap.withMem <| store64 alignedRunHeap.mem
    (chunkHdrAddr specLayout alignedRunHeap 0 1) (chunkGetChunkHdrValue CHUNK_TYPE_RUN_DATA 0 1)

/-- `alignedRunHeap` with its second chunk marked as the run's `RUN_DATA` chunk, with the
head's flags, `CHUNK_FLAG_ALIGNED` among them. -/
def alignedSpanHeap : PallocHeap :=
  alignedRunHeap.withMem <| store64 alignedRunHeap.mem
    (chunkHdrAddr specLayout alignedRunHeap 0 1) (chunkGetChunkHdrValue CHUNK_TYPE_RUN_DATA
      (CHUNK_FLAG_COMPACT_HEADER ||| CHUNK_FLAG_ALIGNED) 1)

/-- The decode of the user data of a block `p` bytes of padding, `RUN_METASIZE` and
`block_off` units into a run of `n` chunks, when every chunk of the run carries the head's
`CHUNK_FLAG_ALIGNED`: the block's zone, head chunk, unit index, kind run and the head's
flavor, no subtraction wrapped and nothing left, and, when `size` is set, the number of units
of the size its header stores. -/
theorem memblockFromOffsetOptAux_run_aligned (heap : PallocHeap) (m : MemoryBlock) {n p : Nat}
    (hspan : RunSpan L heap m.zoneId.toNat m.chunkId.toNat n)
    (hbase : heap.base ≤ zone0 L heap) (hfit : zidToZone L heap (m.zoneId.toNat + 1) ≤ 2 ^ 64)
    (hbs : runBlockSize L heap m ≠ 0)
    (hhs : headerTypeToSize (memblockHeaderType L heap m) < (runBlockSize L heap m).toNat)
    (hstart : runGetDataStart L heap.mem (heapGetChunkHdr L heap m) (heapGetChunkRun L heap m)
      (memblockHeaderType L heap m) = runDataField L (heapGetChunkRun L heap m) + p)
    (hin : L.runMetaSize + p + (runBlockSize L heap m).toNat * (m.blockOff.toNat + 1) ≤
      L.chunkSize * n)
    (haligned : ∀ i < n, (zoneHeaders L heap m.zoneId.toNat (m.chunkId.toNat + i)).flags &&&
        CHUNK_FLAG_ALIGNED = 0 ↔
      (zoneHeaders L heap m.zoneId.toNat m.chunkId.toNat).flags &&& CHUNK_FLAG_ALIGNED = 0)
    (size : Bool) :
    memblockFromOffsetOptAux L heap (heapPtrToOff heap (chunkAddr L heap m.zoneId.toNat
        m.chunkId.toNat + (L.runMetaSize + (p + (runBlockSize L heap m).toNat * m.blockOff.toNat) +
          headerTypeToSize (memblockHeaderType L heap m)))) size =
      (do
        let m' : MemoryBlock :=
          ⟨m.chunkId, m.zoneId, 0, m.blockOff, .run, memblockHeaderType L heap m, .run⟩
        let sizeIdx ← if size then
            calcSizeIdx (runBlockSize L heap m) <$> headerGetSize L (memblockHeaderType L heap m) heap m'
          else pure 0
        return ⟨{ m' with sizeIdx }, 0, false⟩) := by
  have hCS := L.chunkSize_pos
  have hend := chunkAddr_add_mul_le L heap (z := m.zoneId.toNat) hspan.fits
  simp only [runBlockSize, heapGetChunkRun, heapGetChunk, heapGetChunkHdr] at hbs hhs hstart hin ⊢
  generalize hB : load64 heap.mem (runBlockSizeField (chunkAddr L heap m.zoneId.toNat
    m.chunkId.toNat)) = bs at hbs hhs hstart hin ⊢
  have hb0 : 0 < bs.toNat := Nat.pos_of_ne_zero fun h => hbs (BitVec.eq_of_toNat_eq h)
  rw [Nat.mul_succ] at hin
  -- the chunk `i` of the run that the user data lands in
  have hi := Nat.div_lt_of_lt_mul (show L.runMetaSize + (p + bs.toNat * m.blockOff.toNat) +
    headerTypeToSize (memblockHeaderType L heap m) < L.chunkSize * n by omega)
  -- its header selects the head's padding
  have hpad := runGetAlignmentPadding_of_start L heap.mem _ _ _
    ((runGetDataStart_congr_aligned L heap.mem _ _ (haligned _ hi)).trans hstart)
    (show runDataField L (chunkAddr L heap m.zoneId.toNat m.chunkId.toNat) + p < 2 ^ 64 by
      rw [runDataField]; omega)
  have hk : (p + bs.toNat * m.blockOff.toNat - p) / bs.toNat = m.blockOff.toNat := by
    rw [Nat.add_sub_cancel_left, Nat.mul_div_cancel_left _ hb0]
  rw [memblockFromOffsetOptAux_run_eq L heap m.zoneId m.chunkId (memblockHeaderType L heap m) bs
      hspan hi hbase hfit rfl hB (Nat.mul_div_le _ _) (Nat.lt_mul_div_succ _ hCS),
    runBlockOff_eq L _ _ _ _ _ hpad (Nat.le_add_right p (bs.toNat * m.blockOff.toNat)) (by omega)
      hbs (by rw [hk]; exact m.blockOff.isLt),
    hk, Nat.add_sub_cancel_left, Nat.mul_mod_right, BitVec.ofNat_toNat, BitVec.setWidth_eq]
  rfl


/-- **Run-block decode.** Take a block of a run of `n` chunks in which every chunk header
carries the head's `CHUNK_FLAG_ALIGNED`, whose data start is `p` bytes past `run->data`,
whose unit size exceeds the header size, and which lies inside the run. Then
`memblock_rebuild_state` binds kind run, and `memblock_from_offset_opt` on the offset of the
block's user data returns the block's zone, the run's head chunk, the block's unit index,
kind run and the rebuilt flavor, with no subtraction wrapped and nothing left of the
offset. -/
theorem memblockFromOffsetOpt_run (heap : PallocHeap) (m : MemoryBlock) {n p : Nat}
    (hspan : RunSpan L heap m.zoneId.toNat m.chunkId.toNat n)
    (hbase : heap.base ≤ zone0 L heap) (hfit : zidToZone L heap (m.zoneId.toNat + 1) ≤ 2 ^ 64)
    (hbs : runBlockSize L heap m ≠ 0)
    (hhs : headerTypeToSize (memblockHeaderType L heap m) < (runBlockSize L heap m).toNat)
    (hstart : runGetDataStart L heap.mem (heapGetChunkHdr L heap m) (heapGetChunkRun L heap m)
      (memblockHeaderType L heap m) = runDataField L (heapGetChunkRun L heap m) + p)
    (hin : L.runMetaSize + p + (runBlockSize L heap m).toNat * (m.blockOff.toNat + 1) ≤
      L.chunkSize * n)
    (haligned : ∀ i < n, (zoneHeaders L heap m.zoneId.toNat (m.chunkId.toNat + i)).flags &&&
        CHUNK_FLAG_ALIGNED = 0 ↔
      (zoneHeaders L heap m.zoneId.toNat m.chunkId.toNat).flags &&& CHUNK_FLAG_ALIGNED = 0) :
    ∃ m', memblockRebuildState L heap m = .ok m' ∧ m'.type = .run ∧ m'.mOps = .run ∧
      ∃ u, blockGetUserData L heap m' = .ok u ∧
        memblockFromOffsetOptAux L heap (heapPtrToOff heap u) false =
          .ok ⟨⟨m.chunkId, m.zoneId, 0, m.blockOff, .run, m'.headerType, .run⟩, 0, false⟩ := by
  obtain ⟨hrb, -, hu⟩ := memblockRebuildState_userData_run L heap m hspan hfit hbs hstart hin
  exact ⟨_, hrb, rfl, rfl, _, hu,
    memblockFromOffsetOptAux_run_aligned L heap m hspan hbase hfit hbs hhs hstart hin haligned false⟩

/-- A block whose user data lies in the run's `RUN_DATA` chunk. -/
theorem memblockFromOffsetOpt_run_alignedSpanHeap :
    ∃ m', memblockRebuildState specLayout alignedSpanHeap ⟨0, 0, 1, 64, .huge, .legacy, .huge⟩ =
        .ok m' ∧ m'.type = .run ∧ m'.mOps = .run ∧
      ∃ u, blockGetUserData specLayout alignedSpanHeap m' = .ok u ∧
        memblockFromOffsetOptAux specLayout alignedSpanHeap (heapPtrToOff alignedSpanHeap u) false =
          .ok ⟨⟨0, 0, 0, 64, .run, m'.headerType, .run⟩, 0, false⟩ :=
  @memblockFromOffsetOpt_run specLayout alignedSpanHeap _ 2 1008 (by decide) (by decide)
    (by decide) (by decide) (by decide) (by decide) (by decide) (by decide)

/-- The size of a run block's header can be read whatever its flavor. -/
theorem headerGetSize_run_ok (heap : PallocHeap) (t : HeaderType) (m : MemoryBlock)
    (hrun : m.mOps = .run) (hbs : runBlockSize L heap m ≠ 0) :
    ∃ v, headerGetSize L t heap m = .ok v := by
  have hreal := (getRealData_run L hrun).trans (runGetRealData_eq L hbs)
  have hword : ∃ v, headerWord L 0 heap m = .ok v := ⟨_, by rw [headerWord, hreal]; rfl⟩
  obtain ⟨v, hv⟩ := hword
  cases t
  · exact ⟨v, hv⟩
  · exact ⟨_, by rw [headerGetSize, memblockHeaderCompactGetSize, hv]; rfl⟩
  · exact ⟨_, rfl⟩

/-- The decode of the user data of a block of a run whose user data lands in a chunk whose
header lacks `CHUNK_FLAG_ALIGNED`, while the data start is `0 < p` bytes past `run->data`
with `p` below the unit size: it subtracts no padding, finds the right unit index, and
leaves `p` in the residual, so `ASSERT(off == 0)` fails, whether the size is read or not. -/
theorem memblockFromOffsetOptAux_run_stale (heap : PallocHeap) (m : MemoryBlock) {n p : Nat}
    (hspan : RunSpan L heap m.zoneId.toNat m.chunkId.toNat n)
    (hbase : heap.base ≤ zone0 L heap) (hfit : zidToZone L heap (m.zoneId.toNat + 1) ≤ 2 ^ 64)
    (hbs : runBlockSize L heap m ≠ 0)
    (hhs : headerTypeToSize (memblockHeaderType L heap m) < (runBlockSize L heap m).toNat)
    (hin : L.runMetaSize + p + (runBlockSize L heap m).toNat * (m.blockOff.toNat + 1) ≤
      L.chunkSize * n)
    (hp : 0 < p) (hpb : p < (runBlockSize L heap m).toNat)
    (hstale : (zoneHeaders L heap m.zoneId.toNat (m.chunkId.toNat + (L.runMetaSize +
      (p + (runBlockSize L heap m).toNat * m.blockOff.toNat) +
        headerTypeToSize (memblockHeaderType L heap m)) / L.chunkSize)).flags &&&
          CHUNK_FLAG_ALIGNED = 0)
    (size : Bool) :
    memblockFromOffsetOptAux L heap (heapPtrToOff heap (chunkAddr L heap m.zoneId.toNat
        m.chunkId.toNat + (L.runMetaSize + (p + (runBlockSize L heap m).toNat * m.blockOff.toNat) +
          headerTypeToSize (memblockHeaderType L heap m)))) size =
      .error (.assertion "off == 0") := by
  have hCS := L.chunkSize_pos
  have hend := chunkAddr_add_mul_le L heap (z := m.zoneId.toNat) hspan.fits
  have hsize := fun k => headerGetSize_run_ok L heap (memblockHeaderType L heap m)
    ⟨m.chunkId, m.zoneId, 0, k, .run, memblockHeaderType L heap m, .run⟩ rfl hbs
  simp only [runBlockSize, heapGetChunkRun, heapGetChunk, heapGetChunkHdr] at *
  generalize hB : load64 heap.mem (runBlockSizeField (chunkAddr L heap m.zoneId.toNat
    m.chunkId.toNat)) = bs at *
  have hb0 : 0 < bs.toNat := Nat.pos_of_ne_zero fun h => hbs (BitVec.eq_of_toNat_eq h)
  rw [Nat.mul_succ] at hin
  have hi := Nat.div_lt_of_lt_mul (show L.runMetaSize + (p + bs.toNat * m.blockOff.toNat) +
    headerTypeToSize (memblockHeaderType L heap m) < L.chunkSize * n by omega)
  have hk : (p + bs.toNat * m.blockOff.toNat - 0) / bs.toNat = m.blockOff.toNat := by
    rw [Nat.sub_zero, Nat.add_mul_div_left _ _ hb0, Nat.div_eq_of_lt hpb, Nat.zero_add]
  have hres : (p + bs.toNat * m.blockOff.toNat - 0) % bs.toNat = p := by
    rw [Nat.sub_zero, Nat.add_mul_mod_self_left, Nat.mod_eq_of_lt hpb]
  have hne : (BitVec.ofNat 64 p == 0) = false := by
    rw [beq_eq_false_iff_ne, ne_eq, BitVec.toNat_eq, BitVec.toNat_ofNat,
      Nat.mod_eq_of_lt (by omega)]
    exact Nat.pos_iff_ne_zero.mp hp
  rw [memblockFromOffsetOptAux_run_eq L heap m.zoneId m.chunkId (memblockHeaderType L heap m) bs
      hspan hi hbase hfit rfl hB (Nat.mul_div_le _ _) (Nat.lt_mul_div_succ _ hCS),
    runBlockOff_eq L _ _ _ _ _ (runGetAlignmentPadding_of_not_aligned L _ _ _ _ hstale)
      (Nat.zero_le (p + bs.toNat * m.blockOff.toNat)) (by omega) hbs
      (by rw [hk]; exact m.blockOff.isLt), hk, hres, BitVec.ofNat_toNat, BitVec.setWidth_eq]
  cases size
  · simp only [hne]
    rfl
  · obtain ⟨v, hv⟩ := hsize m.blockOff
    simp only [hne, if_true, hv, ← hB]
    rfl

/-- **A block of an aligned run does not decode through a `RUN_DATA` chunk without
`CHUNK_FLAG_ALIGNED`.** Take a run of `n` chunks whose head carries `CHUNK_FLAG_ALIGNED`
with alignment `2 ^ j`, whose unit size is a multiple of the alignment and exceeds the
header size, and a block inside the run whose user data lands in a chunk whose header lacks
the flag, while `run->data + hsize` is not aligned (so the padding `p` is positive). Then
`memblock_from_offset_opt` on the offset of the block's user data stops at
`ASSERT(off == 0)`: it computes the padding through the header of the chunk the offset
landed in, read before the correction back to the head. -/
theorem memblockFromOffsetOpt_run_stale_padding (heap : PallocHeap) (m : MemoryBlock)
    (n j : Nat) :
    let run := heapGetChunkRun L heap m
    let hs := headerTypeToSize (memblockHeaderType L heap m)
    let bs := (runBlockSize L heap m).toNat
    let p := padTo (2 ^ j) (runDataField L run + hs)
    RunSpan L heap m.zoneId.toNat m.chunkId.toNat n →
    heap.base ≤ zone0 L heap → zidToZone L heap (m.zoneId.toNat + 1) ≤ 2 ^ 64 → j < 64 →
    (zoneHeaders L heap m.zoneId.toNat m.chunkId.toNat).flags &&& CHUNK_FLAG_ALIGNED ≠ 0 →
    load64 heap.mem (runAlignmentField run) = BitVec.ofNat 64 (2 ^ j) →
    0 < bs → 2 ^ j ∣ bs → hs < bs → ¬ 2 ^ j ∣ runDataField L run + hs →
    L.runMetaSize + p + bs * (m.blockOff.toNat + 1) ≤ L.chunkSize * n →
    (zoneHeaders L heap m.zoneId.toNat (m.chunkId.toNat +
      (L.runMetaSize + (p + bs * m.blockOff.toNat) + hs) / L.chunkSize)).flags &&&
        CHUNK_FLAG_ALIGNED = 0 →
    ∃ m', memblockRebuildState L heap m = .ok m' ∧ ∃ u, blockGetUserData L heap m' = .ok u ∧
      memblockFromOffsetOpt L heap (heapPtrToOff heap u) false = .error (.assertion "off == 0") := by
  intro run hs bs p hspan hbase hfit hj hflag halign hbs0 hbsj hhs hpad hin hstale
  have hspec := runGetDataStart_eq_padTo L heap.mem (heapGetChunkHdr L heap m) run
    (memblockHeaderType L heap m) hj hflag halign
  have hend := chunkAddr_add_mul_le L heap (z := m.zoneId.toNat) hspan.fits
  have hlt : runDataField L run + p < 2 ^ 64 := by
    simp only [run, runDataField, heapGetChunkRun, heapGetChunk] at hend hin ⊢
    rw [Nat.mul_succ] at hin
    omega
  have hbs : runBlockSize L heap m ≠ 0 := fun h => by
    simp only [bs, h, show (0 : BitVec 64).toNat = 0 from rfl] at hbs0
    exact absurd hbs0 (Nat.lt_irrefl 0)
  have hstart := hspec.1.trans (Nat.mod_eq_of_lt hlt)
  obtain ⟨hrb, -, hu⟩ := memblockRebuildState_userData_run L heap m hspan hfit hbs hstart hin
  refine ⟨_, hrb, _, hu, ?_⟩
  rw [memblockFromOffsetOpt, memblockFromOffsetOptAux_run_stale L heap m hspan hbase hfit hbs hhs
    hin (padTo_pos (Nat.two_pow_pos j) hpad)
    (Nat.lt_of_lt_of_le (padTo_lt _ (Nat.two_pow_pos j)) (Nat.le_of_dvd hbs0 hbsj)) hstale false]
  rfl

theorem memblockFromOffsetOpt_run_stale_padding_staleRunHeap :
    ∃ m', memblockRebuildState specLayout staleRunHeap ⟨0, 0, 1, 64, .huge, .legacy, .huge⟩ =
        .ok m' ∧ ∃ u, blockGetUserData specLayout staleRunHeap m' = .ok u ∧
      memblockFromOffsetOpt specLayout staleRunHeap (heapPtrToOff staleRunHeap u) false =
        .error (.assertion "off == 0") :=
  memblockFromOffsetOpt_run_stale_padding specLayout staleRunHeap _ 2 12 (by decide) (by decide)
    (by decide) (by decide) (by decide) (by decide) (by decide) (by decide) (by decide)
    (by decide) (by decide) (by decide)

end

end Memblock
