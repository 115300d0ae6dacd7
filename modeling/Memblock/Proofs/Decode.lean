import Memblock.Proofs.HugeHeader
import Memblock.Ops.Resolve

set_option autoImplicit false

/-! # Decoding an offset back to its block

`memblock_from_offset_opt` inverts `block_get_user_data`: from the heap offset of a
block's user data it recovers the zone, the chunk (a `RUN_DATA` chunk is corrected back
to its `RUN` head), the header flavor, the kind and, for a run, the unit index. It does so
by subtracting from an unsigned offset each part of the layout it recognises.

With every address of the zone inside the 64-bit address space, none of these
subtractions wraps, and the decode is computed here in closed form:

* `fromOffsetChunk_eq`: the zone, the chunk and the offset left within it;
* `memblockFromOffsetOpt_huge`: a huge block decodes to itself.

The decode of run blocks is in `Memblock.Proofs.RunDecode`.
-/

namespace Memblock

/-! ## Unsigned arithmetic without wrapping -/

section Arith

variable {x y : Nat}

theorem ofNat_sub_ofNat_of_le (hx : x < 2 ^ 64) (hy : y ≤ x) :
    BitVec.ofNat 64 x - BitVec.ofNat 64 y = BitVec.ofNat 64 (x - y) := by
  apply BitVec.eq_of_toNat_eq
  simp only [BitVec.toNat_sub, BitVec.toNat_ofNat]
  rw [Nat.mod_eq_of_lt hx, Nat.mod_eq_of_lt (by omega : y < 2 ^ 64),
    Nat.mod_eq_of_lt (by omega : x - y < 2 ^ 64)]
  omega

theorem ofNat_div_ofNat (hx : x < 2 ^ 64) (hy : y < 2 ^ 64) :
    BitVec.ofNat 64 x / BitVec.ofNat 64 y = BitVec.ofNat 64 (x / y) := by
  apply BitVec.eq_of_toNat_eq
  rw [BitVec.toNat_udiv, BitVec.toNat_ofNat, BitVec.toNat_ofNat, BitVec.toNat_ofNat,
    Nat.mod_eq_of_lt hx, Nat.mod_eq_of_lt hy, Nat.mod_eq_of_lt (by
      exact Nat.lt_of_le_of_lt (Nat.div_le_self x y) hx)]

theorem ofNat_mul_ofNat (x y : Nat) :
    BitVec.ofNat 64 x * BitVec.ofNat 64 y = BitVec.ofNat 64 (x * y) := by
  apply BitVec.eq_of_toNat_eq
  simp only [BitVec.toNat_mul, BitVec.toNat_ofNat, Nat.mul_mod, Nat.mod_mod]

theorem ofNat_add_ofNat (x y : Nat) :
    BitVec.ofNat 64 x + BitVec.ofNat 64 y = BitVec.ofNat 64 (x + y) := by
  apply BitVec.eq_of_toNat_eq
  simp only [BitVec.toNat_add, BitVec.toNat_ofNat, Nat.add_mod, Nat.mod_mod]

/-- `off -= x` that does not go below zero. -/
theorem Residual.sub_ofNat (b : Bool) (hx : x < 2 ^ 64) (hy : y ≤ x) :
    (⟨BitVec.ofNat 64 x, b⟩ : Residual).sub (BitVec.ofNat 64 y) = ⟨BitVec.ofNat 64 (x - y), b⟩ := by
  simp only [Residual.sub, Residual.mk.injEq, ofNat_sub_ofNat_of_le hx hy, true_and]
  have : ¬ BitVec.ofNat 64 x < BitVec.ofNat 64 y := by
    rw [BitVec.lt_def, BitVec.toNat_ofNat, BitVec.toNat_ofNat, Nat.mod_eq_of_lt hx,
      Nat.mod_eq_of_lt (by omega : y < 2 ^ 64)]
    omega
  simp [this]

end Arith

/-! ## Zone and chunk -/

section

variable (L : Layout)

theorem setWidth_ofNat_toNat_32 (c : BitVec 32) : (BitVec.ofNat 64 c.toNat).setWidth 32 = c := by
  rw [BitVec.setWidth_ofNat_of_le (by decide), BitVec.ofNat_toNat, BitVec.setWidth_eq]

theorem readChunkHeader_chunkHdrAddr (heap : PallocHeap) (z j : Nat) :
    readChunkHeader heap.mem (chunkHdrAddr L heap z j) = zoneHeaders L heap z j := rfl

/-- The zone ends where the next one starts. -/
theorem zidToZone_succ (heap : PallocHeap) (z : Nat) :
    zidToZone L heap (z + 1) = zidToZone L heap z + L.zoneMaxSize := by
  unfold zidToZone
  rw [Nat.mul_succ, Nat.add_assoc]

/-- Byte `δ` of chunk `c` sits before the end of the zone. -/
theorem chunkAddr_add_lt (heap : PallocHeap) {z c δ : Nat} (hc : c < L.maxChunk)
    (hδ : δ < L.chunkSize) : chunkAddr L heap z c + δ < zidToZone L heap (z + 1) := by
  have := Nat.mul_le_mul_left L.chunkSize (show c + 1 ≤ L.maxChunk by omega)
  rw [Nat.mul_succ] at this
  rw [zidToZone_succ, chunkAddr, Layout.zoneMaxSize]
  omega

/-- The first lines of `memblock_from_offset_opt` on the offset of byte `δ` of chunk `c`:
zone `z`, chunk `c` (or the run head `c - size_idx` it counts back to, if it is a
`RUN_DATA` chunk), the header of chunk `c`, and what is left of the offset past the
corrected chunk's start. -/
theorem fromOffsetChunk_eq (heap : PallocHeap) (z c : BitVec 32) {δ : Nat}
    (hc : c.toNat < L.maxChunk) (hδ : δ < L.chunkSize) (hbase : heap.base ≤ zone0 L heap)
    (hfit : zidToZone L heap (z.toNat + 1) ≤ 2 ^ 64)
    (hback : (zoneHeaders L heap z.toNat c.toNat).type = CHUNK_TYPE_RUN_DATA →
      (zoneHeaders L heap z.toNat c.toNat).sizeIdx.toNat ≤ c.toNat) :
    let h := zoneHeaders L heap z.toNat c.toNat
    let c' : BitVec 32 := if h.type = CHUNK_TYPE_RUN_DATA then c - h.sizeIdx else c
    fromOffsetChunk L heap (heapPtrToOff heap (chunkAddr L heap z.toNat c.toNat + δ)) =
      (⟨c', z, 0, 0, .huge, .legacy, .huge⟩, chunkHdrAddr L heap z.toNat c.toNat,
        ⟨BitVec.ofNat 64 (L.chunkSize * (c.toNat - c'.toNat) + δ), false⟩) := by
  intro h c'
  have hend := chunkAddr_add_lt L heap (z := z.toNat) hc hδ
  rw [zidToZone_succ] at hend hfit
  have hcm := Nat.mul_le_mul_left L.chunkSize (show c.toNat + 1 ≤ L.maxChunk by omega)
  rw [Nat.mul_succ] at hcm
  have hZ : L.zoneMaxSize = L.sizeofZone + L.chunkSize * L.maxChunk := rfl
  have hCS := L.chunkSize_pos
  have hZpos : 0 < L.zoneMaxSize := by omega
  have hZ48 := L.zoneMaxSize_lt
  have hA : chunkAddr L heap z.toNat c.toNat =
      zone0 L heap + L.zoneMaxSize * z.toNat + (L.sizeofZone + L.chunkSize * c.toNat) := by
    unfold chunkAddr zidToZone
    omega
  have hzone : zidToZone L heap z.toNat = zone0 L heap + L.zoneMaxSize * z.toNat := rfl
  rw [hA] at hend ⊢
  rw [hzone] at hend hfit
  -- the offset within the zone area
  have e₁ : (Residual.mk (heapPtrToOff heap (zone0 L heap + L.zoneMaxSize * z.toNat +
      (L.sizeofZone + L.chunkSize * c.toNat) + δ)) false).sub
      (heapPtrToOff heap (zone0 L heap)) = ⟨BitVec.ofNat 64 (L.zoneMaxSize * z.toNat +
        (L.sizeofZone + L.chunkSize * c.toNat + δ)), false⟩ := by
    unfold heapPtrToOff
    rw [ofNat_sub_ofNat_of_le (by omega) (by omega), ofNat_sub_ofNat_of_le (by omega) hbase,
      Residual.sub_ofNat _ (by omega) (by omega)]
    congr 3
    omega
  -- the zone
  have e₂ : (BitVec.ofNat 64 (L.zoneMaxSize * z.toNat + (L.sizeofZone + L.chunkSize * c.toNat + δ)) /
      BitVec.ofNat 64 L.zoneMaxSize).setWidth 32 = z := by
    have hx : L.zoneMaxSize * z.toNat + (L.sizeofZone + L.chunkSize * c.toNat + δ) < 2 ^ 64 := by
      omega
    have hy : L.zoneMaxSize < 2 ^ 64 := by omega
    rw [ofNat_div_ofNat hx hy, Nat.add_comm, Nat.add_mul_div_left _ _ hZpos,
      Nat.div_eq_of_lt (by omega), Nat.zero_add, setWidth_ofNat_toNat_32]
  have e₃ : (⟨BitVec.ofNat 64 (L.zoneMaxSize * z.toNat + (L.sizeofZone + L.chunkSize * c.toNat + δ)),
      false⟩ : Residual).sub (BitVec.ofNat 64 L.zoneMaxSize * z.setWidth 64 +
        BitVec.ofNat 64 L.sizeofZone) = ⟨BitVec.ofNat 64 (L.chunkSize * c.toNat + δ), false⟩ := by
    rw [← BitVec.ofNat_toNat 64 z, ofNat_mul_ofNat, ofNat_add_ofNat,
      Residual.sub_ofNat _ (by omega) (by omega)]
    congr 3
    omega
  -- the chunk
  have e₄ : (BitVec.ofNat 64 (L.chunkSize * c.toNat + δ) / BitVec.ofNat 64 L.chunkSize).setWidth 32 =
      c := by
    have hx : L.chunkSize * c.toNat + δ < 2 ^ 64 := by omega
    have hy : L.chunkSize < 2 ^ 64 := by omega
    rw [ofNat_div_ofNat hx hy, Nat.add_comm, Nat.add_mul_div_left _ _ hCS,
      Nat.div_eq_of_lt hδ, Nat.zero_add, setWidth_ofNat_toNat_32]
  have hlast : ∀ c'' : BitVec 32, c''.toNat ≤ c.toNat →
      (⟨BitVec.ofNat 64 (L.chunkSize * c.toNat + δ), false⟩ : Residual).sub
        (BitVec.ofNat 64 L.chunkSize * c''.setWidth 64) =
        ⟨BitVec.ofNat 64 (L.chunkSize * (c.toNat - c''.toNat) + δ), false⟩ := fun c'' hle => by
    have := Nat.mul_le_mul_left L.chunkSize hle
    rw [← BitVec.ofNat_toNat 64 c'', ofNat_mul_ofNat, Residual.sub_ofNat _ (by omega) (by omega),
      Nat.mul_sub]
    congr 3
    omega
  simp only [fromOffsetChunk, e₁, e₂, e₃, e₄, heapGetChunkHdr, readChunkHeader_chunkHdrAddr, c', h]
  by_cases hr : (zoneHeaders L heap z.toNat c.toNat).type = CHUNK_TYPE_RUN_DATA
  · have hs := hback hr
    rw [if_pos hr, if_pos hr, hlast _ (by rw [BitVec.toNat_sub]; omega)]
    rfl
  · rw [if_neg hr, if_neg hr, hlast c (Nat.le_refl _)]
    rfl

/-! ## The kind of a chunk -/

theorem memblockDetectType_huge (heap : PallocHeap) (m : MemoryBlock)
    (h : (zoneHeaders L heap m.zoneId.toNat m.chunkId.toNat).IsHuge) :
    memblockDetectType L heap m = .ok .huge := by
  have hne : ¬ ((zoneHeaders L heap m.zoneId.toNat m.chunkId.toNat).type = CHUNK_TYPE_RUN ∨
      (zoneHeaders L heap m.zoneId.toNat m.chunkId.toNat).type = CHUNK_TYPE_RUN_DATA) := by
    rcases h with h | h <;> rw [h] <;> decide
  have hin : (zoneHeaders L heap m.zoneId.toNat m.chunkId.toNat).type = CHUNK_TYPE_FREE ∨
      (zoneHeaders L heap m.zoneId.toNat m.chunkId.toNat).type = CHUNK_TYPE_USED ∨
      (zoneHeaders L heap m.zoneId.toNat m.chunkId.toNat).type = CHUNK_TYPE_FOOTER := by
    rcases h with h | h
    · exact .inl h
    · exact .inr (.inl h)
  exact (if_neg hne).trans (if_pos hin)

theorem memblockDetectType_run (heap : PallocHeap) (m : MemoryBlock)
    (h : (zoneHeaders L heap m.zoneId.toNat m.chunkId.toNat).type = CHUNK_TYPE_RUN) :
    memblockDetectType L heap m = .ok .run :=
  if_pos (.inl h)

/-! ## Huge blocks -/

theorem memblockRebuildState_huge (heap : PallocHeap) (m : MemoryBlock)
    (h : (zoneHeaders L heap m.zoneId.toNat m.chunkId.toNat).IsHuge) :
    memblockRebuildState L heap m =
      .ok { m with headerType := memblockHeaderType L heap m, type := .huge, mOps := .huge } := by
  rw [memblockRebuildState, memblockDetectType_huge L heap
    { m with headerType := memblockHeaderType L heap m } h]
  rfl

/-- `memblock_from_offset_opt` on the data of a huge block past its header: the block's
zone and chunk, its flavor, kind huge, nothing left of the offset, and, when `size` is
set, the number of chunks of the size its header stores. -/
theorem memblockFromOffsetOptAux_huge (heap : PallocHeap) (m : MemoryBlock)
    (hc : m.chunkId.toNat < L.maxChunk)
    (hhead : (zoneHeaders L heap m.zoneId.toNat m.chunkId.toNat).IsHuge)
    (hbase : heap.base ≤ zone0 L heap)
    (hfit : zidToZone L heap (m.zoneId.toNat + 1) ≤ 2 ^ 64) (size : Bool) :
    memblockFromOffsetOptAux L heap (heapPtrToOff heap (chunkAddr L heap m.zoneId.toNat
        m.chunkId.toNat + headerTypeToSize (memblockHeaderType L heap m))) size =
      (do
        let m' : MemoryBlock :=
          ⟨m.chunkId, m.zoneId, 0, 0, .huge, memblockHeaderType L heap m, .huge⟩
        let sizeIdx ← if size then
            calcSizeIdx (hugeBlockSize L) <$> headerGetSize L (memblockHeaderType L heap m) heap m'
          else pure 0
        return ⟨{ m' with sizeIdx }, 0, false⟩) := by
  have hs := headerTypeToSize_le (memblockHeaderType L heap m)
  have hnot : (zoneHeaders L heap m.zoneId.toNat m.chunkId.toNat).type ≠ CHUNK_TYPE_RUN_DATA := by
    rcases hhead with h | h <;> rw [h] <;> decide
  have hchunk := fromOffsetChunk_eq L heap m.zoneId m.chunkId hc
    (Nat.lt_of_le_of_lt hs L.header_lt_chunk) hbase hfit (absurd · hnot)
  simp only [if_neg hnot, Nat.sub_self, Nat.mul_zero, Nat.zero_add] at hchunk
  have hsub : (⟨BitVec.ofNat 64 (headerTypeToSize (memblockHeaderType L heap m)), false⟩ :
      Residual).sub (BitVec.ofNat 64 (headerTypeToSize (memblockHeaderType L heap m))) =
      ⟨0, false⟩ := by
    rw [Residual.sub_ofNat _ (by omega) (Nat.le_refl _), Nat.sub_self]
    rfl
  rw [memblockFromOffsetOptAux, hchunk]
  simp only [show memblockHeaderType L heap ⟨m.chunkId, m.zoneId, 0, 0, .huge, .legacy, .huge⟩ =
    memblockHeaderType L heap m from rfl, hsub,
    memblockDetectType_huge L heap ⟨m.chunkId, m.zoneId, 0, 0, .huge, .legacy, .huge⟩ hhead]
  rfl

/-- **Huge-block decode.** For a huge block whose head is free or used, in a zone that lies
inside the address space, `memblock_rebuild_state` binds kind huge, and
`memblock_from_offset_opt` on the offset of the block's user data returns the block's
zone and chunk, unit index `0`, kind huge and the rebuilt flavor, with no subtraction
wrapped and nothing left of the offset. -/
theorem memblockFromOffsetOpt_huge (heap : PallocHeap) (m : MemoryBlock)
    (hc : m.chunkId.toNat < L.maxChunk)
    (hhead : (zoneHeaders L heap m.zoneId.toNat m.chunkId.toNat).IsHuge)
    (hbase : heap.base ≤ zone0 L heap)
    (hfit : zidToZone L heap (m.zoneId.toNat + 1) ≤ 2 ^ 64) :
    ∃ m', memblockRebuildState L heap m = .ok m' ∧ m'.type = .huge ∧ m'.mOps = .huge ∧
      ∃ u, blockGetUserData L heap m' = .ok u ∧
        memblockFromOffsetOptAux L heap (heapPtrToOff heap u) false =
          .ok ⟨⟨m.chunkId, m.zoneId, 0, 0, .huge, m'.headerType, .huge⟩, 0, false⟩ := by
  refine ⟨{ m with headerType := memblockHeaderType L heap m, type := .huge, mOps := .huge },
    memblockRebuildState_huge L heap m hhead, rfl, rfl, _, rfl,
    memblockFromOffsetOptAux_huge L heap m hc hhead hbase hfit false⟩

end

theorem memblockFromOffsetOpt_huge_hugeBlockHeap :
    ∃ m', memblockRebuildState specLayout hugeBlockHeap ⟨0, 0, 3, 0, .huge, .legacy, .huge⟩ =
        .ok m' ∧ m'.type = .huge ∧ m'.mOps = .huge ∧
      ∃ u, blockGetUserData specLayout hugeBlockHeap m' = .ok u ∧
        memblockFromOffsetOptAux specLayout hugeBlockHeap (heapPtrToOff hugeBlockHeap u) false =
          .ok ⟨⟨0, 0, 0, 0, .huge, m'.headerType, .huge⟩, 0, false⟩ :=
  memblockFromOffsetOpt_huge specLayout hugeBlockHeap _ (by decide) (by decide) (by decide)
    (by decide)

end Memblock
