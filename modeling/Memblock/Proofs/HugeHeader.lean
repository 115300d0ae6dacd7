import Memblock.Ops.Block

set_option autoImplicit false

/-! # Huge blocks: header preparation and the layout of a zone

A huge block is a range of whole chunks of one zone. Its first chunk header (the *head*)
is `FREE` or `USED` and carries the block's `size_idx`; a block of more than one chunk
ends in a *footer* `(FOOTER, 0, size_idx)` in its last slot, which lets a neighbour find
the block's start. `huge_prep_operation_hdr` rewrites the head (and the footer) for an
allocation or a free, either at once (`ctx == NULL`) or as entries of a redo log.

The zone is read here as its array of chunk headers (`zoneHeaders`), and its layout as the
walk the heap makes over that array (`ChunkWalk`): from a head to the slot `size_idx`
further on, a huge head of more than one chunk ending in its footer and a run head
followed by `RUN_DATA` slots that count back to it. Against these:

* `zoneHeaders_hugePrepOperationHdr`: the direct path writes exactly the new head and the
  footer into the array;
* `hugePrepOperationHdr_some`: the redo-log path adds entries that, applied in order,
  produce the same memory;
* `ChunkWalk.of_eq_off_huge`: changing one huge head into another of the same size keeps
  the walk, so a preparation on a head of the walk keeps the layout of the zone;
* `hugeGetState_hugePrepOperationHdr` and `hugeCommitAll_refines`: `huge_get_state` reads,
  after one operation and after any sequence of them, the states of a reference map of
  the zone's slots (the block's slot reads the operation, its footer `STATE_UNKNOWN`).
-/

namespace Memblock

/-! ## The chunk-header array of a zone and its walk -/

/-- The chunk headers of zone `z`, slot by slot. -/
def zoneHeaders (L : Layout) (heap : PallocHeap) (z j : Nat) : ChunkHeader :=
  readChunkHeader heap.mem (chunkHdrAddr L heap z j)

/-- A free or used chunk header: the head of a huge block. -/
def ChunkHeader.IsHuge (h : ChunkHeader) : Prop :=
  h.type = CHUNK_TYPE_FREE ∨ h.type = CHUNK_TYPE_USED

instance : DecidablePred ChunkHeader.IsHuge := fun h =>
  inferInstanceAs (Decidable (h.type = CHUNK_TYPE_FREE ∨ h.type = CHUNK_TYPE_USED))

/-- The footer of a huge block of `size_idx` chunks. -/
def hugeFooter (sizeIdx : BitVec 32) : ChunkHeader := ⟨CHUNK_TYPE_FOOTER, 0, sizeIdx⟩

theorem hugeFooter_not_huge (sizeIdx : BitVec 32) : ¬ (hugeFooter sizeIdx).IsHuge :=
  show ¬ (CHUNK_TYPE_FOOTER = CHUNK_TYPE_FREE ∨ CHUNK_TYPE_FOOTER = CHUNK_TYPE_USED) by decide

/-- The slots `i .. e - 1` of a chunk-header array, walked as the heap walks a zone: each
head covers `size_idx ≥ 1` slots; a huge head of more than one chunk ends in its footer; a
run head's other slots are `RUN_DATA` slots whose `size_idx` is their distance to it. -/
inductive ChunkWalk (hdrs : Nat → ChunkHeader) (e : Nat) : Nat → Prop
  | last : ChunkWalk hdrs e e
  | huge {i : Nat} (htype : (hdrs i).IsHuge) (hpos : 1 ≤ (hdrs i).sizeIdx.toNat)
      (hfooter : 1 < (hdrs i).sizeIdx.toNat →
        hdrs (i + (hdrs i).sizeIdx.toNat - 1) = hugeFooter (hdrs i).sizeIdx)
      (rest : ChunkWalk hdrs e (i + (hdrs i).sizeIdx.toNat)) : ChunkWalk hdrs e i
  | run {i : Nat} (htype : (hdrs i).type = CHUNK_TYPE_RUN) (hpos : 1 ≤ (hdrs i).sizeIdx.toNat)
      (hdata : ∀ j, 0 < j → j < (hdrs i).sizeIdx.toNat →
        (hdrs (i + j)).type = CHUNK_TYPE_RUN_DATA ∧ (hdrs (i + j)).sizeIdx.toNat = j)
      (rest : ChunkWalk hdrs e (i + (hdrs i).sizeIdx.toNat)) : ChunkWalk hdrs e i

/-- A huge head that starts a walk ends in its footer. -/
theorem ChunkWalk.footer {hdrs : Nat → ChunkHeader} {e i : Nat} (hw : ChunkWalk hdrs e i)
    (hi : i < e) (hh : (hdrs i).IsHuge) (hn : 1 < (hdrs i).sizeIdx.toNat) :
    hdrs (i + (hdrs i).sizeIdx.toNat - 1) = hugeFooter (hdrs i).sizeIdx := by
  cases hw with
  | last => omega
  | huge _ _ hfooter _ => exact hfooter hn
  | run htype _ _ _ =>
    rcases hh with h | h <;> rw [htype] at h <;> exact absurd h (by decide)

/-- Replacing one huge head by another of the same size keeps every walk. -/
theorem ChunkWalk.of_eq_off_huge {hdrs hdrs' : Nat → ChunkHeader} {c : Nat}
    (hother : ∀ j, j ≠ c → hdrs' j = hdrs j) (hc : (hdrs c).IsHuge) (hc' : (hdrs' c).IsHuge)
    (hsize : (hdrs' c).sizeIdx = (hdrs c).sizeIdx) {e i : Nat} (hw : ChunkWalk hdrs e i) :
    ChunkWalk hdrs' e i := by
  have hs : ∀ j, (hdrs' j).sizeIdx = (hdrs j).sizeIdx := fun j => by
    by_cases hj : j = c
    · rw [hj, hsize]
    · rw [hother j hj]
  have hslot : ∀ j, ¬ (hdrs j).IsHuge → hdrs' j = hdrs j := fun j hj =>
    hother j fun h => hj (h ▸ hc)
  have hrun : ∀ j, (hdrs j).type = CHUNK_TYPE_RUN → hdrs' j = hdrs j := fun j hj =>
    hslot j (by simp only [ChunkHeader.IsHuge, hj]; decide)
  induction hw with
  | last => exact .last
  | @huge i htype hpos hfooter _ ih =>
    have htype' : (hdrs' i).IsHuge := by
      by_cases hi : i = c
      · exact hi ▸ hc'
      · exact hother i hi ▸ htype
    refine .huge htype' (hs i ▸ hpos) (fun h1 => ?_) (hs i ▸ ih)
    rw [hs i] at h1 ⊢
    rw [hslot _ (by rw [hfooter h1]; exact hugeFooter_not_huge _)]
    exact hfooter h1
  | @run i htype hpos hdata _ ih =>
    refine .run (hrun i htype ▸ htype) (hs i ▸ hpos) (fun j hj hjn => ?_) (hs i ▸ ih)
    rw [hs i] at hjn
    rw [hslot (i + j) (by simp only [ChunkHeader.IsHuge, (hdata j hj hjn).1]; decide)]
    exact hdata j hj hjn

/-! ## Writing a chunk header -/

section

variable (L : Layout)

/-- Storing a header image into slot `c` of a zone changes that slot of its array, and no
other. -/
theorem zoneHeaders_store64 (heap : PallocHeap) (mem : Mem) (z c : Nat) (type flags : BitVec 16)
    (sizeIdx : BitVec 32) :
    zoneHeaders L (heap.withMem (store64 mem (chunkHdrAddr L heap z c)
      (chunkGetChunkHdrValue type flags sizeIdx))) z =
      Function.update (zoneHeaders L (heap.withMem mem) z) c ⟨type, flags, sizeIdx⟩ := by
  funext j
  simp only [zoneHeaders, PallocHeap.withMem_mem, chunkHdrAddr_withMem]
  by_cases hj : j = c
  · subst hj
    rw [Function.update_same]
    exact readChunkHeader_store64_chunkGetChunkHdrValue _ _ _ _ _
  · rw [Function.update_noteq hj]
    exact readChunkHeader_storeLE_of_disjoint _ (by unfold chunkHdrAddr; omega)

/-! ## The two paths of `huge_prep_operation_hdr` -/

/-- The redo-log path adds one `SET` entry for the head, and one for the footer of a block of
more than one chunk; applied in order they give the memory the direct path writes. -/
theorem hugePrepOperationHdr_some (heap : PallocHeap) (m : MemoryBlock) (op : MemblockState)
    (ctx : OperationContext) :
    ∃ es, hugePrepOperationHdr L heap m op (some ctx) = (heap, some ⟨ctx.entries ++ es⟩) ∧
      (∀ e ∈ es, e.op = .set) ∧
      hugePrepOperationHdr L heap m op none = (heap.withMem (operationProcess heap.mem es), none) := by
  by_cases h1 : m.sizeIdx = 1
  · simp only [hugePrepOperationHdr, h1, if_true]
    exact ⟨[_], rfl, by simp, rfl⟩
  · simp only [hugePrepOperationHdr, h1, if_false]
    refine ⟨[⟨_, _, .set, .persistent⟩, ⟨_, _, .set, .transient⟩], ?_, by simp, rfl⟩
    simp only [operationAddTypedEntry, operationAddEntry, List.append_assoc, List.singleton_append]
    rfl

/-- The direct path writes the new head into the block's slot and, for a block of more than
one chunk, its footer into the block's last slot. -/
theorem zoneHeaders_hugePrepOperationHdr (heap : PallocHeap) (m : MemoryBlock)
    (op : MemblockState) (hpos : 1 ≤ m.sizeIdx.toNat) :
    zoneHeaders L (hugePrepOperationHdr L heap m op none).1 m.zoneId.toNat =
      let head : ChunkHeader := ⟨if op = .allocated then CHUNK_TYPE_USED else CHUNK_TYPE_FREE,
        (zoneHeaders L heap m.zoneId.toNat m.chunkId.toNat).flags, m.sizeIdx⟩
      if m.sizeIdx = 1 then Function.update (zoneHeaders L heap m.zoneId.toNat) m.chunkId.toNat head
      else Function.update (Function.update (zoneHeaders L heap m.zoneId.toNat) m.chunkId.toNat head)
        (m.chunkId.toNat + m.sizeIdx.toNat - 1) (hugeFooter m.sizeIdx) := by
  have hfoot : chunkHdrAddr L heap m.zoneId.toNat m.chunkId.toNat + 8 * m.sizeIdx.toNat - 8 =
      chunkHdrAddr L heap m.zoneId.toNat (m.chunkId.toNat + m.sizeIdx.toNat - 1) := by
    unfold chunkHdrAddr
    omega
  by_cases h1 : m.sizeIdx = 1
  · simp only [hugePrepOperationHdr, heapGetChunkHdr, if_pos h1]
    rw [zoneHeaders_store64, PallocHeap.withMem_self]
    rfl
  · simp only [hugePrepOperationHdr, heapGetChunkHdr, if_neg h1, hfoot,
      PallocHeap.withMem_withMem, PallocHeap.withMem_mem]
    rw [zoneHeaders_store64, zoneHeaders_store64, PallocHeap.withMem_self]
    rfl

/-- Slot by slot: the new head, the footer, and every other slot as it was. -/
theorem zoneHeaders_hugePrepOperationHdr_apply (heap : PallocHeap) (m : MemoryBlock)
    (op : MemblockState) (hpos : 1 ≤ m.sizeIdx.toNat) (j : Nat) :
    zoneHeaders L (hugePrepOperationHdr L heap m op none).1 m.zoneId.toNat j =
      if j = m.chunkId.toNat then
        ⟨if op = .allocated then CHUNK_TYPE_USED else CHUNK_TYPE_FREE,
          (zoneHeaders L heap m.zoneId.toNat m.chunkId.toNat).flags, m.sizeIdx⟩
      else if 1 < m.sizeIdx.toNat ∧ j = m.chunkId.toNat + m.sizeIdx.toNat - 1 then
        hugeFooter m.sizeIdx
      else zoneHeaders L heap m.zoneId.toNat j := by
  have h1 : m.sizeIdx = 1 ↔ m.sizeIdx.toNat = 1 := by
    rw [BitVec.toNat_eq]
    rfl
  rw [zoneHeaders_hugePrepOperationHdr L heap m op hpos]
  by_cases hn : m.sizeIdx.toNat = 1
  · simp only [if_pos (h1.2 hn), Function.update_apply]
    split_ifs <;> first | rfl | omega
  · simp only [if_neg (mt h1.1 hn), Function.update_apply]
    split_ifs <;> first | rfl | omega

/-- The direct path keeps the head's flags, so the block's flavor. -/
theorem memblockHeaderType_hugePrepOperationHdr (heap : PallocHeap) (m : MemoryBlock)
    (op : MemblockState) (hpos : 1 ≤ m.sizeIdx.toNat) :
    memblockHeaderType L (hugePrepOperationHdr L heap m op none).1 m = memblockHeaderType L heap m := by
  show headerTypeOfFlags (zoneHeaders L _ m.zoneId.toNat m.chunkId.toNat).flags =
    headerTypeOfFlags (zoneHeaders L heap m.zoneId.toNat m.chunkId.toNat).flags
  rw [zoneHeaders_hugePrepOperationHdr_apply L heap m op hpos, if_pos rfl]

/-- The byte image of the direct path: nothing outside the head's slot and the footer's
slot changes. -/
theorem hugePrepOperationHdr_frame (heap : PallocHeap) (m : MemoryBlock) (op : MemblockState)
    (hpos : 1 ≤ m.sizeIdx.toNat) (a : Nat)
    (hhead : a < heapGetChunkHdr L heap m ∨ heapGetChunkHdr L heap m + 8 ≤ a)
    (hfoot : a < chunkHdrAddr L heap m.zoneId.toNat (m.chunkId.toNat + m.sizeIdx.toNat - 1) ∨
      chunkHdrAddr L heap m.zoneId.toNat (m.chunkId.toNat + m.sizeIdx.toNat - 1) + 8 ≤ a) :
    (hugePrepOperationHdr L heap m op none).1.mem a = heap.mem a := by
  unfold heapGetChunkHdr chunkHdrAddr at *
  by_cases h1 : m.sizeIdx = 1
  · simp only [hugePrepOperationHdr, heapGetChunkHdr, chunkHdrAddr, if_pos h1,
      PallocHeap.withMem_mem, store64, storeLE_apply]
    rw [if_neg (by omega)]
  · simp only [hugePrepOperationHdr, heapGetChunkHdr, chunkHdrAddr, if_neg h1,
      PallocHeap.withMem_mem, store64, storeLE_apply, PallocHeap.withMem_withMem]
    rw [if_neg (by omega), if_neg (by omega)]

/-! ## The state after an operation -/

/-- `huge_get_state` reads the type of the block's slot. -/
theorem hugeGetState_eq (heap : PallocHeap) (m : MemoryBlock) :
    hugeGetState L heap m =
      let t := (zoneHeaders L heap m.zoneId.toNat m.chunkId.toNat).type
      if t = CHUNK_TYPE_USED then .allocated else if t = CHUNK_TYPE_FREE then .free
      else .stateUnknown := rfl

/-- **The state of the zone's slots after a committed operation.** After
`huge_prep_operation_hdr(m, op, NULL)` for an allocation or a free of a huge block of
`size_idx ≥ 1` chunks, `huge_get_state` reads `op` at the block, `STATE_UNKNOWN` at the
footer of a block of more than one chunk, and the old state at every other slot of the
zone. -/
theorem hugeGetState_hugePrepOperationHdr (heap : PallocHeap) (m : MemoryBlock)
    (op : MemblockState) (hop : op ≠ .stateUnknown) (hpos : 1 ≤ m.sizeIdx.toNat)
    (m' : MemoryBlock) (hz : m'.zoneId = m.zoneId) :
    hugeGetState L (hugePrepOperationHdr L heap m op none).1 m' =
      if m'.chunkId = m.chunkId then op
      else if 1 < m.sizeIdx.toNat ∧ m'.chunkId.toNat = m.chunkId.toNat + m.sizeIdx.toNat - 1
        then .stateUnknown
      else hugeGetState L heap m' := by
  rw [hugeGetState_eq, hugeGetState_eq, hz, zoneHeaders_hugePrepOperationHdr_apply L heap m op hpos]
  by_cases hc : m'.chunkId = m.chunkId
  · rw [if_pos (congrArg BitVec.toNat hc), if_pos hc]
    cases op
    · exact absurd rfl hop
    · rfl
    · rfl
  · rw [if_neg (mt BitVec.eq_of_toNat_eq hc), if_neg hc]
    by_cases hf : 1 < m.sizeIdx.toNat ∧ m'.chunkId.toNat = m.chunkId.toNat + m.sizeIdx.toNat - 1
    · rw [if_pos hf, if_pos hf]
      rfl
    · rw [if_neg hf, if_neg hf]

theorem hugePrepOperationHdr_paths_agree (heap : PallocHeap) (m : MemoryBlock)
    (op : MemblockState) (hop : op ≠ .stateUnknown) (hpos : 1 ≤ m.sizeIdx.toNat)
    (ctx : OperationContext) :
    let z := m.zoneId.toNat
    let c := m.chunkId.toNat
    let n := m.sizeIdx.toNat
    let hdrs := zoneHeaders L heap z
    let heap₁ := (hugePrepOperationHdr L heap m op none).1
    let hdrs₁ := zoneHeaders L heap₁ z
    (∃ es, hugePrepOperationHdr L heap m op (some ctx) = (heap, some ⟨ctx.entries ++ es⟩) ∧
      (∀ e ∈ es, e.op = .set) ∧
      hugePrepOperationHdr L heap m op none = (heap.withMem (operationProcess heap.mem es), none)) ∧
    hdrs₁ c =
      ⟨if op = .allocated then CHUNK_TYPE_USED else CHUNK_TYPE_FREE, (hdrs c).flags, m.sizeIdx⟩ ∧
    (1 < n → hdrs₁ (c + n - 1) = hugeFooter m.sizeIdx) ∧
    (∀ j, j ≠ c → j ≠ c + n - 1 → hdrs₁ j = hdrs j) ∧
    (∀ a, a < chunkHdrAddr L heap z c ∨ chunkHdrAddr L heap z c + 8 ≤ a →
      a < chunkHdrAddr L heap z (c + n - 1) ∨ chunkHdrAddr L heap z (c + n - 1) + 8 ≤ a →
      heap₁.mem a = heap.mem a) ∧
    hugeGetState L heap₁ m = op ∧
    memblockHeaderType L heap₁ m = memblockHeaderType L heap m ∧
    (∀ e i, ChunkWalk hdrs e i → ChunkWalk hdrs e c → c < e → (hdrs c).IsHuge →
      (hdrs c).sizeIdx = m.sizeIdx → ChunkWalk hdrs₁ e i) := by
  intro z c n hdrs heap₁ hdrs₁
  have happ : ∀ j, hdrs₁ j = if j = c then
      ⟨if op = .allocated then CHUNK_TYPE_USED else CHUNK_TYPE_FREE, (hdrs c).flags, m.sizeIdx⟩
      else if 1 < n ∧ j = c + n - 1 then hugeFooter m.sizeIdx else hdrs j :=
    zoneHeaders_hugePrepOperationHdr_apply L heap m op hpos
  have hc : hdrs₁ c =
      ⟨if op = .allocated then CHUNK_TYPE_USED else CHUNK_TYPE_FREE, (hdrs c).flags, m.sizeIdx⟩ := by
    rw [happ, if_pos rfl]
  refine ⟨hugePrepOperationHdr_some L heap m op ctx, hc, fun hn => ?_, fun j hj hj' => ?_,
    hugePrepOperationHdr_frame L heap m op hpos, ?_,
    memblockHeaderType_hugePrepOperationHdr L heap m op hpos, ?_⟩
  · rw [happ, if_neg (by omega), if_pos ⟨hn, rfl⟩]
  · rw [happ, if_neg hj, if_neg fun h => hj' h.2]
  · exact (hugeGetState_hugePrepOperationHdr L heap m op hop hpos m rfl).trans (if_pos rfl)
  · intro e i hw hwc hce hhuge hsize
    refine ChunkWalk.of_eq_off_huge (c := c) (fun j hj => ?_) hhuge ?_ ?_ hw
    · by_cases hj' : 1 < n ∧ j = c + n - 1
      · have hf := hwc.footer hce hhuge (by rw [hsize]; exact hj'.1)
        rw [hsize] at hf
        rw [happ, if_neg hj, if_pos hj', hj'.2]
        exact hf.symm
      · rw [happ, if_neg hj, if_neg hj']
    · rw [hc]
      cases op <;> simp [ChunkHeader.IsHuge]
    · rw [hc, hsize]

end

/-- Zone 0 of a heap mapped at `2 ^ 40`: a free huge block of three chunks at chunk 0, with
its footer in chunk 2. -/
def hugeBlockHeap : PallocHeap :=
  let heap : PallocHeap := ⟨2 ^ 40, 2 ^ 40 + 4096, fun _ => 0⟩
  heap.withMem <|
    store64 (store64 heap.mem (chunkHdrAddr specLayout heap 0 0)
      (chunkGetChunkHdrValue CHUNK_TYPE_FREE 0 3))
      (chunkHdrAddr specLayout heap 0 2) (chunkGetChunkHdrValue CHUNK_TYPE_FOOTER 0 3)

theorem hugePrepOperationHdr_paths_agree_hugeBlockHeap :
    let m : MemoryBlock := ⟨0, 0, 3, 0, .huge, .legacy, .huge⟩
    let hdrs := zoneHeaders specLayout hugeBlockHeap 0
    let heap₁ := (hugePrepOperationHdr specLayout hugeBlockHeap m .allocated none).1
    let hdrs₁ := zoneHeaders specLayout heap₁ 0
    (∃ es, hugePrepOperationHdr specLayout hugeBlockHeap m .allocated (some ⟨[]⟩) =
        (hugeBlockHeap, some ⟨[] ++ es⟩) ∧ (∀ e ∈ es, e.op = .set) ∧
      hugePrepOperationHdr specLayout hugeBlockHeap m .allocated none =
        (hugeBlockHeap.withMem (operationProcess hugeBlockHeap.mem es), none)) ∧
    hdrs₁ 0 = ⟨CHUNK_TYPE_USED, (hdrs 0).flags, 3⟩ ∧
    (1 < 3 → hdrs₁ (0 + 3 - 1) = hugeFooter 3) ∧
    (∀ j, j ≠ 0 → j ≠ 0 + 3 - 1 → hdrs₁ j = hdrs j) ∧
    (∀ a, a < chunkHdrAddr specLayout hugeBlockHeap 0 0 ∨
        chunkHdrAddr specLayout hugeBlockHeap 0 0 + 8 ≤ a →
      a < chunkHdrAddr specLayout hugeBlockHeap 0 (0 + 3 - 1) ∨
        chunkHdrAddr specLayout hugeBlockHeap 0 (0 + 3 - 1) + 8 ≤ a →
      heap₁.mem a = hugeBlockHeap.mem a) ∧
    hugeGetState specLayout heap₁ m = .allocated ∧
    memblockHeaderType specLayout heap₁ m = memblockHeaderType specLayout hugeBlockHeap m ∧
    (∀ e i, ChunkWalk hdrs e i → ChunkWalk hdrs e 0 → 0 < e → (hdrs 0).IsHuge →
      (hdrs 0).sizeIdx = 3 → ChunkWalk hdrs₁ e i) :=
  hugePrepOperationHdr_paths_agree specLayout hugeBlockHeap _ .allocated (by decide) (by decide) _

/-! ## The slots' states over a sequence of operations -/

section

variable (L : Layout)

/-- The states the slots of zone `z` read, by chunk id. -/
def hugeZoneStates (heap : PallocHeap) (z : BitVec 32) (c : BitVec 32) : MemblockState :=
  hugeGetState L heap { MEMORY_BLOCK_NONE with chunkId := c, zoneId := z }

/-- The reference update of the slots' states by an operation on huge block `m`: the
block's slot reads `op`, the footer of a block of more than one chunk reads
`STATE_UNKNOWN`, and every other slot keeps its state. -/
def hugeStatesAfter (S : BitVec 32 → MemblockState) (m : MemoryBlock) (op : MemblockState)
    (c : BitVec 32) : MemblockState :=
  if c = m.chunkId then op
  else if 1 < m.sizeIdx.toNat ∧ c.toNat = m.chunkId.toNat + m.sizeIdx.toNat - 1 then .stateUnknown
  else S c

/-- The reference states after a sequence of operations, in order. -/
def hugeStatesAfterAll (S : BitVec 32 → MemblockState) :
    List (MemoryBlock × MemblockState) → BitVec 32 → MemblockState
  | [] => S
  | (m, op) :: ops => hugeStatesAfterAll (hugeStatesAfter S m op) ops

/-- Committing a sequence of operations on huge blocks, one after the other, each by the
direct path of `huge_prep_operation_hdr`. -/
def hugeCommitAll (heap : PallocHeap) : List (MemoryBlock × MemblockState) → PallocHeap
  | [] => heap
  | (m, op) :: ops => hugeCommitAll (hugePrepOperationHdr L heap m op none).1 ops

/-- One operation moves the slots' states as the reference update does. -/
theorem hugeZoneStates_hugePrepOperationHdr (heap : PallocHeap) (m : MemoryBlock)
    (op : MemblockState) (hop : op ≠ .stateUnknown) (hpos : 1 ≤ m.sizeIdx.toNat) :
    hugeZoneStates L (hugePrepOperationHdr L heap m op none).1 m.zoneId =
      hugeStatesAfter (hugeZoneStates L heap m.zoneId) m op :=
  funext fun _ => hugeGetState_hugePrepOperationHdr L heap m op hop hpos _ rfl

/-- **The huge blocks of a zone implement the reference states.** After any sequence of
allocations and frees of huge blocks of `size_idx ≥ 1` chunks in zone `z`, each committed
by the direct path of `huge_prep_operation_hdr`, `huge_get_state` reads at every slot of
the zone the state the reference update gives from the states before the sequence. -/
theorem hugeCommitAll_refines (heap : PallocHeap) (z : BitVec 32)
    (ops : List (MemoryBlock × MemblockState))
    (hops : ∀ p ∈ ops, p.1.zoneId = z ∧ 1 ≤ p.1.sizeIdx.toNat ∧ p.2 ≠ .stateUnknown) :
    hugeZoneStates L (hugeCommitAll L heap ops) z =
      hugeStatesAfterAll (hugeZoneStates L heap z) ops := by
  induction ops generalizing heap with
  | nil => rfl
  | cons p ops ih =>
    obtain ⟨m, op⟩ := p
    obtain ⟨hz, hpos, hop⟩ := hops (m, op) (List.mem_cons_self _ _)
    dsimp only at hz hpos hop
    subst hz
    rw [hugeCommitAll, ih _ fun p hp => hops p (List.mem_cons_of_mem _ hp),
      hugeZoneStates_hugePrepOperationHdr L heap m op hop hpos]
    rfl

end

theorem hugeCommitAll_refines_hugeBlockHeap :
    hugeZoneStates specLayout (hugeCommitAll specLayout hugeBlockHeap
        [(⟨0, 0, 3, 0, .huge, .legacy, .huge⟩, .allocated),
          (⟨0, 0, 3, 0, .huge, .legacy, .huge⟩, .free)]) 0 =
      hugeStatesAfterAll (hugeZoneStates specLayout hugeBlockHeap 0)
        [(⟨0, 0, 3, 0, .huge, .legacy, .huge⟩, .allocated),
          (⟨0, 0, 3, 0, .huge, .legacy, .huge⟩, .free)] :=
  hugeCommitAll_refines specLayout hugeBlockHeap 0 _ (by decide)

end Memblock
