import Memblock.Ops.Block
import Mathlib.Data.Set.Basic
import Mathlib.Order.Interval.Set.Defs

set_option autoImplicit false

/-! # The run bitmap refines a set of allocated units

A run tracks its units in 64-bit bitmap words, unit `u` being bit `u % 64` of word
`u / 64`, set when the unit is allocated. `run_prep_operation_hdr` turns an allocation or a
free into one redo entry that ORs a mask into a word or ANDs its complement; `run_get_state`
scans the block's bits.

The abstraction `runAllocatedUnits` reads the bitmap as a set of units. Against it:

* `runCommit_refines`: a committed allocation adds exactly the block's units to the set, a
  committed free removes exactly them, and no other byte of memory changes;
* `runGetState_eq`: `run_get_state` reports a block allocated exactly when one of its
  units is in the set;
* `runCommitAll_refines`: over any sequence of committed operations on one run the set
  follows the reference (union on allocate, difference on free), and the state of every
  block agrees with it.
-/

namespace Memblock

/-! ## Bits -/

/-- The mask `run_prep_operation_hdr` builds: `UINT64_MAX` for a whole word, otherwise the
`size_idx` bits from `block_off % 64`. -/
def runBlockMask (m : MemoryBlock) : BitVec 64 :=
  if m.sizeIdx.toNat = BITS_PER_VALUE then BitVec.allOnes 64
  else (((1 : BitVec 64) <<< m.sizeIdx.toNat) - 1) <<< (m.blockOff.toNat % BITS_PER_VALUE)

/-- The run blocks whose units sit in one word of the bitmap (what the assertions of
`run_prep_operation_hdr` and `run_get_state` check), a word the run has. -/
structure RunBlockFits (L : Layout) (m : MemoryBlock) : Prop where
  fits : m.blockOff.toNat % 64 + m.sizeIdx.toNat ≤ 64
  inBitmap : m.blockOff.toNat / 64 < L.bitmapValues

instance (L : Layout) (m : MemoryBlock) : Decidable (RunBlockFits L m) :=
  decidable_of_iff (m.blockOff.toNat % 64 + m.sizeIdx.toNat ≤ 64 ∧
      m.blockOff.toNat / 64 < L.bitmapValues)
    ⟨fun h => ⟨h.1, h.2⟩, fun h => ⟨h.1, h.2⟩⟩

theorem getLsbD_one_64 (k : Nat) : (1 : BitVec 64).getLsbD k = decide (k = 0) := by
  rw [← BitVec.testBit_toNat, show (1 : BitVec 64).toNat = 1 from rfl]
  apply Bool.eq_iff_iff.2
  simp [Nat.testBit_one_eq_true_iff_self_eq_zero]

theorem getLsbD_one_shiftLeft {i : Nat} (j : Nat) (hi : i < 64) :
    ((1 : BitVec 64) <<< i).getLsbD j = decide (j = i) := by
  rw [BitVec.getLsbD_shiftLeft, getLsbD_one_64]
  apply Bool.eq_iff_iff.2
  simp only [Bool.and_eq_true, decide_eq_true_eq, Bool.not_eq_true', decide_eq_false_iff_not]
  omega

theorem getLsbD_runBlockMask {m : MemoryBlock}
    (hfits : m.blockOff.toNat % 64 + m.sizeIdx.toNat ≤ 64) (i : Nat) :
    (runBlockMask m).getLsbD i =
      decide (m.blockOff.toNat % 64 ≤ i ∧ i < m.blockOff.toNat % 64 + m.sizeIdx.toNat) := by
  unfold runBlockMask BITS_PER_VALUE
  split
  · simp only [BitVec.getLsbD_allOnes, decide_eq_decide]
    omega
  · have hlt : m.sizeIdx.toNat < 64 := by omega
    have hlow : ((1 : BitVec 64) <<< m.sizeIdx.toNat - 1).toNat = 2 ^ m.sizeIdx.toNat - 1 := by
      have hp : 2 ^ m.sizeIdx.toNat < 2 ^ 64 := Nat.pow_lt_pow_right (by decide) hlt
      have hp0 := Nat.two_pow_pos m.sizeIdx.toNat
      simp only [BitVec.toNat_sub, BitVec.toNat_shiftLeft, Nat.shiftLeft_eq]
      rw [show (1 : BitVec 64).toNat = 1 from rfl, Nat.one_mul, Nat.mod_eq_of_lt hp]
      generalize 2 ^ m.sizeIdx.toNat = A at *
      omega
    rw [BitVec.getLsbD_shiftLeft, ← BitVec.testBit_toNat, hlow, Nat.testBit_two_pow_sub_one]
    apply Bool.eq_iff_iff.2
    simp only [Bool.and_eq_true, decide_eq_true_eq, Bool.not_eq_true', decide_eq_false_iff_not]
    omega

/-- `BIT_IS_CLR(a, i)` tests bit `i`. -/
theorem bitIsClr_eq (a : BitVec 64) {i : Nat} (hi : i < 64) : bitIsClr a i = !a.getLsbD i := by
  have hbit : ∀ j, (a &&& (1 : BitVec 64) <<< i).getLsbD j = (a.getLsbD i && decide (j = i)) := by
    intro j
    rw [BitVec.getLsbD_and, getLsbD_one_shiftLeft j hi]
    by_cases hj : j = i
    · simp [hj]
    · simp [hj]
  cases ha : a.getLsbD i
  · simp only [bitIsClr, Bool.not_false, beq_iff_eq]
    ext j
    rw [hbit, ha]
    simp
  · simp only [bitIsClr, Bool.not_true, beq_eq_false_iff_ne, ne_eq]
    intro h0
    have := hbit i
    rw [h0, ha] at this
    simp at this

open Classical in
/-- The loop of `run_get_state` finds a set bit in `[i, i + n)` if there is one. -/
theorem runGetStateLoop_eq (bitmap : BitVec 64) (i n : Nat) (h : i + n ≤ 64) :
    runGetStateLoop bitmap i n =
      if ∃ j, i ≤ j ∧ j < i + n ∧ bitmap.getLsbD j = true then .allocated else .free := by
  induction n generalizing i with
  | zero =>
    rw [runGetStateLoop, if_neg]
    omega
  | succ n ih =>
    rw [runGetStateLoop, bitIsClr_eq _ (by omega), ih (i + 1) (by omega)]
    by_cases hi : bitmap.getLsbD i = true
    · simp only [hi, Bool.not_true, Bool.not_false, if_true]
      rw [if_pos ⟨i, le_refl i, by omega, hi⟩]
    · have hiff : (∃ j, i + 1 ≤ j ∧ j < i + 1 + n ∧ bitmap.getLsbD j = true) ↔
          ∃ j, i ≤ j ∧ j < i + (n + 1) ∧ bitmap.getLsbD j = true := by
        constructor
        · rintro ⟨j, hj1, hj2, hj3⟩
          exact ⟨j, by omega, by omega, hj3⟩
        · rintro ⟨j, hj1, hj2, hj3⟩
          have hij : j ≠ i := fun h => hi (h ▸ hj3)
          exact ⟨j, by omega, by omega, hj3⟩
      simp only [Bool.not_eq_true] at hi
      simp only [hi, Bool.not_false, Bool.not_true, Bool.false_eq_true, if_false,
        if_congr hiff rfl rfl]

/-! ## The abstraction -/

/-- The units a run's bitmap marks allocated: unit `u` is bit `u % 64` of word `u / 64`. -/
def runAllocatedUnits (L : Layout) (mem : Mem) (r : Nat) : Set Nat :=
  {u | u < 64 * L.bitmapValues ∧ (load64 mem (runBitmapField r (u / 64))).getLsbD (u % 64)}

/-- The units of a run block: `block_off .. block_off + size_idx - 1`. -/
def blockUnits (m : MemoryBlock) : Set Nat :=
  Set.Ico m.blockOff.toNat (m.blockOff.toNat + m.sizeIdx.toNat)

/-- The reference update of the set of allocated units: an allocation adds the block's
units, a free removes them. -/
def unitsAfter (S : Set Nat) (m : MemoryBlock) : MemblockState → Set Nat
  | .allocated => S ∪ blockUnits m
  | .free => S \ blockUnits m
  | .stateUnknown => S

/-- The reference set after a sequence of operations, in order. -/
def unitsAfterAll (S : Set Nat) : List (MemoryBlock × MemblockState) → Set Nat
  | [] => S
  | (m, op) :: ops => unitsAfterAll (unitsAfter S m op) ops

theorem unitsAfterAll_singleton (S : Set Nat) (m : MemoryBlock) (op : MemblockState) :
    unitsAfterAll S [(m, op)] = unitsAfter S m op := rfl

theorem unitsAfterAll_append (S : Set Nat) (ops ops' : List (MemoryBlock × MemblockState)) :
    unitsAfterAll S (ops ++ ops') = unitsAfterAll (unitsAfterAll S ops) ops' := by
  induction ops generalizing S with
  | nil => rfl
  | cons p ops ih => exact ih _

/-- A block just allocated has an allocated unit, if it has a unit at all. -/
theorem exists_mem_unitsAfter_allocated (S : Set Nat) {m : MemoryBlock}
    (hpos : 1 ≤ m.sizeIdx.toNat) : ∃ u ∈ blockUnits m, u ∈ unitsAfter S m .allocated :=
  have hu : m.blockOff.toNat ∈ blockUnits m := ⟨le_refl _, by omega⟩
  ⟨_, hu, Or.inr hu⟩

/-- A block just freed has no allocated unit. -/
theorem not_exists_mem_unitsAfter_free (S : Set Nat) (m : MemoryBlock) :
    ¬ ∃ u ∈ blockUnits m, u ∈ unitsAfter S m .free :=
  fun ⟨_, hu, hS⟩ => hS.2 hu

/-- An operation on a block leaves the units of a disjoint block as they were. -/
theorem mem_unitsAfter_of_disjoint (S : Set Nat) {m m' : MemoryBlock}
    (h : blockUnits m ∩ blockUnits m' = ∅) (op : MemblockState) {u : Nat}
    (hu : u ∈ blockUnits m') : u ∈ unitsAfter S m op ↔ u ∈ S := by
  have hu' : u ∉ blockUnits m := fun hm => h.subset ⟨hm, hu⟩
  cases op <;> simp [unitsAfter, hu']

section

variable (L : Layout)

theorem mem_runAllocatedUnits_store64 (mem : Mem) {r w : Nat} (v : BitVec 64) (u : Nat) :
    u ∈ runAllocatedUnits L (store64 mem (runBitmapField r w) v) r ↔
      u < 64 * L.bitmapValues ∧
        (if u / 64 = w then v else load64 mem (runBitmapField r (u / 64))).getLsbD (u % 64) := by
  simp only [runAllocatedUnits, Set.mem_setOf_eq]
  split
  · next hw => rw [hw, load64_store64_self]
  · next hw =>
    rw [load64_store64_of_disjoint _ _ (by unfold runBitmapField; omega)]

/-- The units of a block that fits lie in its word, inside the bitmap. -/
theorem mem_blockUnits_iff {m : MemoryBlock} (hm : RunBlockFits L m) (u : Nat) :
    u ∈ blockUnits m ↔ u / 64 = m.blockOff.toNat / 64 ∧
      (m.blockOff.toNat % 64 ≤ u % 64 ∧ u % 64 < m.blockOff.toNat % 64 + m.sizeIdx.toNat) := by
  have := hm.fits
  simp only [blockUnits, Set.mem_Ico]
  omega

theorem runAllocatedUnits_or (mem : Mem) (r : Nat) {m : MemoryBlock} (hm : RunBlockFits L m) :
    let w := runBitmapField r (m.blockOff.toNat / 64)
    runAllocatedUnits L (store64 mem w (load64 mem w ||| runBlockMask m)) r =
      runAllocatedUnits L mem r ∪ blockUnits m := by
  have := hm.inBitmap
  ext u
  rw [mem_runAllocatedUnits_store64, Set.mem_union, mem_blockUnits_iff L hm]
  simp only [runAllocatedUnits, Set.mem_setOf_eq]
  split
  · next hw =>
    rw [BitVec.getLsbD_or, getLsbD_runBlockMask hm.fits, hw]
    cases (load64 mem (runBitmapField r (m.blockOff.toNat / 64))).getLsbD (u % 64) <;> simp <;>
      omega
  · next hw => simp [hw]

theorem runAllocatedUnits_and (mem : Mem) (r : Nat) {m : MemoryBlock} (hm : RunBlockFits L m) :
    let w := runBitmapField r (m.blockOff.toNat / 64)
    runAllocatedUnits L (store64 mem w (load64 mem w &&& ~~~runBlockMask m)) r =
      runAllocatedUnits L mem r \ blockUnits m := by
  ext u
  rw [mem_runAllocatedUnits_store64, Set.mem_diff, mem_blockUnits_iff L hm]
  simp only [runAllocatedUnits, Set.mem_setOf_eq]
  split
  · next hw =>
    rw [BitVec.getLsbD_and, BitVec.getLsbD_not, getLsbD_runBlockMask hm.fits, hw]
    cases (load64 mem (runBitmapField r (m.blockOff.toNat / 64))).getLsbD (u % 64)
    · simp
    · simp only [Bool.true_and, Bool.and_eq_true, decide_eq_true_eq, Bool.not_eq_true',
        decide_eq_false_iff_not, true_and, and_true]
      omega
  · next hw => simp [hw]

/-! ## Committing an operation -/

/-- Preparing an allocation or a free into a fresh context and committing it at once (what
the caller of `run_prep_operation_hdr` does with the context). -/
def runCommit (heap : PallocHeap) (m : MemoryBlock) (op : MemblockState) :
    Except Fault PallocHeap := do
  let ctx ← runPrepOperationHdr L heap m op ⟨[]⟩
  return heap.withMem (operationProcess heap.mem ctx.entries)

/-- Committing a sequence of operations, one after the other. -/
def runCommitAll (heap : PallocHeap) : List (MemoryBlock × MemblockState) →
    Except Fault PallocHeap
  | [] => pure heap
  | (m, op) :: ops => do runCommitAll (← runCommit L heap m op) ops

/-- The bitmap word of a block. -/
def runBlockWord (heap : PallocHeap) (m : MemoryBlock) : Nat :=
  runBitmapField (heapGetChunkRun L heap m) (m.blockOff.toNat / 64)

variable {L}

/-- The mask and the assertions of `run_prep_operation_hdr` pass for a block that fits. -/
theorem runPrepOperationHdr_eq (heap : PallocHeap) {m : MemoryBlock}
    (hfits : m.blockOff.toNat % 64 + m.sizeIdx.toNat ≤ 64) (ctx : OperationContext) :
    runPrepOperationHdr L heap m .allocated ctx =
        .ok (operationAddEntry ctx (runBlockWord L heap m) (runBlockMask m) .or) ∧
      runPrepOperationHdr L heap m .free ctx =
        .ok (operationAddEntry ctx (runBlockWord L heap m) (~~~runBlockMask m) .and) := by
  unfold runPrepOperationHdr runBlockMask runBlockWord BITS_PER_VALUE
  by_cases h64 : m.sizeIdx.toNat = 64
  · have h0 : m.blockOff.toNat % 64 = 0 := by omega
    simp [h64, h0]
    exact ⟨rfl, rfl⟩
  · have hle : m.sizeIdx.toNat ≤ 64 := by omega
    simp [h64, hle]
    exact ⟨rfl, rfl⟩

theorem runCommit_eq (heap : PallocHeap) {m : MemoryBlock}
    (hfits : m.blockOff.toNat % 64 + m.sizeIdx.toNat ≤ 64) :
    let w := runBlockWord L heap m
    runCommit L heap m .allocated =
        .ok (heap.withMem (store64 heap.mem w (load64 heap.mem w ||| runBlockMask m))) ∧
      runCommit L heap m .free =
        .ok (heap.withMem (store64 heap.mem w (load64 heap.mem w &&& ~~~runBlockMask m))) := by
  obtain ⟨ha, hf⟩ := runPrepOperationHdr_eq heap hfits ⟨[]⟩
  exact ⟨by rw [runCommit, ha]; rfl, by rw [runCommit, hf]; rfl⟩

/-- One committed operation refines the reference update, and writes only the block's
bitmap word. -/
theorem runCommit_refines (heap : PallocHeap) {m : MemoryBlock} (hm : RunBlockFits L m)
    {op : MemblockState} (hop : op ≠ .stateUnknown) :
    ∃ mem', runCommit L heap m op = .ok (heap.withMem mem') ∧
      runAllocatedUnits L mem' (heapGetChunkRun L heap m) =
        unitsAfter (runAllocatedUnits L heap.mem (heapGetChunkRun L heap m)) m op ∧
      ∀ a, a < runBlockWord L heap m ∨ runBlockWord L heap m + 8 ≤ a → mem' a = heap.mem a := by
  obtain ⟨ha, hf⟩ := runCommit_eq heap hm.fits
  have hframe : ∀ v : BitVec 64, ∀ a, a < runBlockWord L heap m ∨ runBlockWord L heap m + 8 ≤ a →
      store64 heap.mem (runBlockWord L heap m) v a = heap.mem a := by
    intro v a ha
    rw [store64, storeLE_apply, if_neg (by omega)]
  cases op with
  | allocated => exact ⟨_, ha, runAllocatedUnits_or L _ _ hm, hframe _⟩
  | free => exact ⟨_, hf, runAllocatedUnits_and L _ _ hm, hframe _⟩
  | stateUnknown => exact absurd rfl hop

/-! ## Reading the state -/

open Classical in
/-- `run_get_state` reports a block allocated exactly when one of its units is. -/
theorem runGetState_eq (heap : PallocHeap) {m : MemoryBlock} (hm : RunBlockFits L m)
    (hrun : (readChunkHeader heap.mem (heapGetChunkHdr L heap m)).type = CHUNK_TYPE_RUN) :
    runGetState L heap m = .ok (if ∃ u ∈ blockUnits m,
      u ∈ runAllocatedUnits L heap.mem (heapGetChunkRun L heap m) then .allocated else .free) := by
  have hfits := hm.fits
  have hb : (BitVec.ofNat 32 (m.blockOff.toNat % 64)).toNat = m.blockOff.toNat % 64 := by
    rw [BitVec.toNat_ofNat]
    omega
  have hlast : (BitVec.ofNat 32 (m.blockOff.toNat % 64) + m.sizeIdx).toNat =
      m.blockOff.toNat % 64 + m.sizeIdx.toNat := by
    rw [BitVec.toNat_add, hb]
    omega
  have hrun' : (readChunkHeader heap.mem (zidToZone L heap m.zoneId.toNat + L.zoneHeaderSize +
      8 * m.chunkId.toNat)).type = CHUNK_TYPE_RUN := hrun
  have hloop : runGetState L heap m = .ok (runGetStateLoop (load64 heap.mem (runBlockWord L heap m))
      (m.blockOff.toNat % 64) m.sizeIdx.toNat) := by
    simp only [runGetState, BITS_PER_VALUE, hrun', beq_self_eq_true, assert_true, hlast, hb, hfits,
      decide_True, Nat.add_sub_cancel_left]
    rfl
  have hiff : (∃ j, m.blockOff.toNat % 64 ≤ j ∧ j < m.blockOff.toNat % 64 + m.sizeIdx.toNat ∧
      (load64 heap.mem (runBlockWord L heap m)).getLsbD j = true) ↔
      ∃ u ∈ blockUnits m, u ∈ runAllocatedUnits L heap.mem (heapGetChunkRun L heap m) := by
    have hin := hm.inBitmap
    constructor
    · rintro ⟨j, hj1, hj2, hj⟩
      have hu : (64 * (m.blockOff.toNat / 64) + j) / 64 = m.blockOff.toNat / 64 ∧
          (64 * (m.blockOff.toNat / 64) + j) % 64 = j := by omega
      refine ⟨64 * (m.blockOff.toNat / 64) + j, (mem_blockUnits_iff L hm _).2 (by omega),
        by omega, ?_⟩
      rw [hu.1, hu.2]
      exact hj
    · rintro ⟨u, hu, -, hbit⟩
      rw [mem_blockUnits_iff L hm] at hu
      refine ⟨u % 64, hu.2.1, hu.2.2, ?_⟩
      rw [runBlockWord, ← hu.1]
      exact hbit
  rw [hloop, runGetStateLoop_eq _ _ _ hfits, if_congr hiff rfl rfl]

/-! ## Sequences of operations on one run -/

/-- A sequence of committed operations on blocks of one run follows the reference updates
and writes nothing outside the run's bitmap. -/
theorem runCommitAll_spec (heap : PallocHeap) (z c : BitVec 32)
    (ops : List (MemoryBlock × MemblockState))
    (hops : ∀ p ∈ ops, p.1.zoneId = z ∧ p.1.chunkId = c ∧ RunBlockFits L p.1 ∧
      p.2 ≠ .stateUnknown) :
    let r := chunkAddr L heap z.toNat c.toNat
    ∃ mem', runCommitAll L heap ops = .ok (heap.withMem mem') ∧
      runAllocatedUnits L mem' r = unitsAfterAll (runAllocatedUnits L heap.mem r) ops ∧
      ∀ a, a < runBitmapField r 0 ∨ runBitmapField r L.bitmapValues ≤ a → mem' a = heap.mem a := by
  induction ops generalizing heap with
  | nil => exact ⟨heap.mem, rfl, rfl, fun _ _ => rfl⟩
  | cons p ops ih =>
    obtain ⟨m, op⟩ := p
    obtain ⟨hz, hc, hm, hop⟩ := hops (m, op) (List.mem_cons_self _ _)
    dsimp only at hz hc hm hop
    subst hz hc
    obtain ⟨mem₁, h₁, hS₁, hF₁⟩ := runCommit_refines heap hm hop
    obtain ⟨mem₂, h₂, hS₂, hF₂⟩ := ih (heap.withMem mem₁) fun p hp =>
      hops p (List.mem_cons_of_mem _ hp)
    simp only [chunkAddr_withMem, PallocHeap.withMem_mem, PallocHeap.withMem_withMem] at h₂ hS₂ hF₂
    refine ⟨mem₂, by rw [runCommitAll, h₁]; exact h₂, by rw [hS₂]; exact congrArg (unitsAfterAll · ops) hS₁, ?_⟩
    intro a ha
    have hin := hm.inBitmap
    rw [hF₂ a ha, hF₁ a (by
      unfold runBlockWord heapGetChunkRun heapGetChunk runBitmapField at *
      exact ha.imp (by omega) (by omega))]

open Classical in
/-- The state of every block of the run after a sequence of operations is the one the
reference set gives it. -/
theorem runCommitAll_state (heap : PallocHeap) (z c : BitVec 32)
    (ops : List (MemoryBlock × MemblockState)) (hc : c.toNat < L.maxChunk)
    (hrun : (readChunkHeader heap.mem (chunkHdrAddr L heap z.toNat c.toNat)).type = CHUNK_TYPE_RUN)
    (hops : ∀ p ∈ ops, p.1.zoneId = z ∧ p.1.chunkId = c ∧ RunBlockFits L p.1 ∧
      p.2 ≠ .stateUnknown) (m : MemoryBlock) (hz : m.zoneId = z) (hc' : m.chunkId = c)
    (hm : RunBlockFits L m) :
    ∃ heap', runCommitAll L heap ops = .ok heap' ∧
      runGetState L heap' m = .ok (if ∃ u ∈ blockUnits m, u ∈ unitsAfterAll
        (runAllocatedUnits L heap.mem (chunkAddr L heap z.toNat c.toNat)) ops
        then .allocated else .free) := by
  obtain ⟨mem', hcommit, hS, hF⟩ := runCommitAll_spec heap z c ops hops
  subst hz hc'
  refine ⟨_, hcommit, ?_⟩
  have hhdr : readChunkHeader mem' (heapGetChunkHdr L heap m) =
      readChunkHeader heap.mem (heapGetChunkHdr L heap m) :=
    readChunkHeader_congr fun a _ ha => hF a <| Or.inl <| by
      unfold heapGetChunkHdr chunkHdrAddr chunkAddr runBitmapField Layout.sizeofZone at *
      omega
  rw [runGetState_eq _ hm (by rw [PallocHeap.withMem_mem, heapGetChunkHdr_withMem, hhdr]; exact hrun)]
  simp only [PallocHeap.withMem_mem, heapGetChunkRun_withMem]
  exact congrArg _ (if_congr (by rw [← hS]; rfl) rfl rfl)

open Classical in
theorem runCommitAll_refines (heap : PallocHeap) (z c : BitVec 32)
    (ops : List (MemoryBlock × MemblockState)) (hc : c.toNat < L.maxChunk)
    (hrun : (readChunkHeader heap.mem (chunkHdrAddr L heap z.toNat c.toNat)).type = CHUNK_TYPE_RUN)
    (hops : ∀ p ∈ ops, p.1.zoneId = z ∧ p.1.chunkId = c ∧ RunBlockFits L p.1 ∧
      p.2 ≠ .stateUnknown) :
    let r := chunkAddr L heap z.toNat c.toNat
    ∃ mem', runCommitAll L heap ops = .ok (heap.withMem mem') ∧
      runAllocatedUnits L mem' r = unitsAfterAll (runAllocatedUnits L heap.mem r) ops ∧
      (∀ m, m.zoneId = z → m.chunkId = c → RunBlockFits L m →
        runGetState L (heap.withMem mem') m = .ok (if ∃ u ∈ blockUnits m,
          u ∈ unitsAfterAll (runAllocatedUnits L heap.mem r) ops then .allocated else .free)) ∧
      ∀ a, a < runBitmapField r 0 ∨ runBitmapField r L.bitmapValues ≤ a → mem' a = heap.mem a := by
  obtain ⟨mem', hcommit, hS, hF⟩ := runCommitAll_spec heap z c ops hops
  refine ⟨mem', hcommit, hS, fun m hz hc' hm => ?_, hF⟩
  obtain ⟨heap', h', hstate⟩ := runCommitAll_state heap z c ops hc hrun hops m hz hc' hm
  rw [hcommit, Except.ok.injEq] at h'
  rw [h']
  exact hstate

open Classical in
/-- After a sequence of operations that ends with one on block `m`, `m` reads back that
operation, and every block whose units are disjoint from `m`'s reads what it read before
the last operation. -/
theorem runCommitAll_snoc_state (heap : PallocHeap) (z c : BitVec 32)
    (ops : List (MemoryBlock × MemblockState)) (m : MemoryBlock) (op : MemblockState)
    (hc : c.toNat < L.maxChunk)
    (hrun : (readChunkHeader heap.mem (chunkHdrAddr L heap z.toNat c.toNat)).type = CHUNK_TYPE_RUN)
    (hops : ∀ p ∈ ops ++ [(m, op)], p.1.zoneId = z ∧ p.1.chunkId = c ∧ RunBlockFits L p.1 ∧
      p.2 ≠ .stateUnknown) (hpos : 1 ≤ m.sizeIdx.toNat) :
    ∃ heap₁ heap₂, runCommitAll L heap ops = .ok heap₁ ∧
      runCommitAll L heap (ops ++ [(m, op)]) = .ok heap₂ ∧ runGetState L heap₂ m = .ok op ∧
      ∀ m', m'.zoneId = z → m'.chunkId = c → RunBlockFits L m' →
        blockUnits m ∩ blockUnits m' = ∅ → runGetState L heap₂ m' = runGetState L heap₁ m' := by
  have hops' : ∀ p ∈ ops, p.1.zoneId = z ∧ p.1.chunkId = c ∧ RunBlockFits L p.1 ∧
      p.2 ≠ .stateUnknown := fun p hp => hops p (List.mem_append_left _ hp)
  obtain ⟨hz, hcm, hm, hop⟩ := hops (m, op) (List.mem_append_right _ (List.mem_singleton_self _))
  obtain ⟨heap₁, h₁, -⟩ := runCommitAll_state heap z c ops hc hrun hops' m hz hcm hm
  obtain ⟨heap₂, h₂, hstate⟩ := runCommitAll_state heap z c _ hc hrun hops m hz hcm hm
  refine ⟨heap₁, heap₂, h₁, h₂, ?_, fun m' hz' hc' hm' hdisj => ?_⟩
  · rw [hstate, unitsAfterAll_append, unitsAfterAll_singleton]
    cases op with
    | allocated => rw [if_pos (exists_mem_unitsAfter_allocated _ hpos)]
    | free => rw [if_neg (not_exists_mem_unitsAfter_free _ _)]
    | stateUnknown => exact absurd rfl hop
  · obtain ⟨heap₁', h₁', s₁⟩ := runCommitAll_state heap z c ops hc hrun hops' m' hz' hc' hm'
    obtain ⟨heap₂', h₂', s₂⟩ := runCommitAll_state heap z c _ hc hrun hops m' hz' hc' hm'
    rw [h₁, Except.ok.injEq] at h₁'
    rw [h₂, Except.ok.injEq] at h₂'
    rw [h₁', h₂', s₁, s₂, unitsAfterAll_append, unitsAfterAll_singleton]
    exact congrArg _ (if_congr (exists_congr fun u => and_congr_right fun hu =>
      mem_unitsAfter_of_disjoint _ hdisj op hu) rfl rfl)

end

/-- A run at chunk 0 of zone 0 of a heap mapped at `2 ^ 40`, its bitmap all clear. -/
def bitmapRunHeap : PallocHeap :=
  let heap : PallocHeap := ⟨2 ^ 40, 2 ^ 40 + 4096, fun _ => 0⟩
  heap.withMem <| store64 heap.mem (chunkHdrAddr specLayout heap 0 0)
    (chunkGetChunkHdrValue CHUNK_TYPE_RUN CHUNK_FLAG_COMPACT_HEADER 1)

/-- Three units allocated at unit 5, then the whole word of units 128 to 191. -/
def bitmapRunOps : List (MemoryBlock × MemblockState) :=
  [(⟨0, 0, 3, 5, .run, .compact, .run⟩, .allocated),
   (⟨0, 0, 64, 128, .run, .compact, .run⟩, .allocated)]

open Classical in
theorem runCommitAll_refines_bitmapRunHeap :
    let r := chunkAddr specLayout bitmapRunHeap 0 0
    ∃ mem', runCommitAll specLayout bitmapRunHeap bitmapRunOps =
        .ok (bitmapRunHeap.withMem mem') ∧
      runAllocatedUnits specLayout mem' r =
        unitsAfterAll (runAllocatedUnits specLayout bitmapRunHeap.mem r) bitmapRunOps ∧
      (∀ m, m.zoneId = 0 → m.chunkId = 0 → RunBlockFits specLayout m →
        runGetState specLayout (bitmapRunHeap.withMem mem') m = .ok (if ∃ u ∈ blockUnits m,
          u ∈ unitsAfterAll (runAllocatedUnits specLayout bitmapRunHeap.mem r) bitmapRunOps
          then .allocated else .free)) ∧
      ∀ a, a < runBitmapField r 0 ∨ runBitmapField r specLayout.bitmapValues ≤ a →
        mem' a = bitmapRunHeap.mem a :=
  runCommitAll_refines bitmapRunHeap 0 0 bitmapRunOps (by decide) (by decide) (by decide)

/-- Freeing the first block again: it reads free, and the word-sized block still reads what
it read before. -/
theorem runCommitAll_snoc_state_bitmapRunHeap :
    let m : MemoryBlock := ⟨0, 0, 3, 5, .run, .compact, .run⟩
    ∃ heap₁ heap₂, runCommitAll specLayout bitmapRunHeap bitmapRunOps = .ok heap₁ ∧
      runCommitAll specLayout bitmapRunHeap (bitmapRunOps ++ [(m, .free)]) = .ok heap₂ ∧
      runGetState specLayout heap₂ m = .ok .free ∧
      ∀ m', m'.zoneId = 0 → m'.chunkId = 0 → RunBlockFits specLayout m' →
        blockUnits m ∩ blockUnits m' = ∅ →
          runGetState specLayout heap₂ m' = runGetState specLayout heap₁ m' :=
  runCommitAll_snoc_state bitmapRunHeap 0 0 bitmapRunOps _ .free (by decide) (by decide)
    (by decide) (by decide)

end Memblock
