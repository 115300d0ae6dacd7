import Memblock.Proofs.HugeHeader
import Mathlib.Logic.Relation

set_option autoImplicit false

/-! # The header flavor of a huge chunk over its lifecycle

The flavor of a block's allocation header is not stored in the block: `memblock_header_type`
derives it from two flag bits of the chunk header, `CHUNK_FLAG_COMPACT_HEADER` (tested
first) and `CHUNK_FLAG_HEADER_NONE`. Before a huge block is allocated with flavor `t`,
`huge_ensure_header_type` ORs `t`'s flag into the free head, and `huge_prep_operation_hdr`
keeps the head's flags across allocations and frees, of the block and of every other huge
block of the zone whose footer stays off the head (`memblockHeaderType_hugeCommitAll`).

OR-ing a flag in never clears one, so the flavor after `ensure_header_type(m, t)` is `t`
only when the head carried no flavor flag of another flavor:
`memblockHeaderType_hugeEnsureHeaderType_iff`. A chunk reused with another flavor keeps the
old one (`hugeEnsureHeaderType_reuse_keeps_compact`). Under the discipline that a head is
only ever ensured with a flavor covering the flags it carries, every header keeps at most
one flavor flag along every run (`ZoneOneFlavor`, `hugeLifecycle_zoneOneFlavor`), and each
`ensure_header_type` establishes its flavor.
-/

namespace Memblock

/-! ## Flag bits -/

theorem getLsbD_CHUNK_FLAG_COMPACT_HEADER (i : Nat) :
    CHUNK_FLAG_COMPACT_HEADER.getLsbD i = decide (i = 0) := by
  rw [← BitVec.testBit_toNat, show CHUNK_FLAG_COMPACT_HEADER.toNat = 1 from rfl]
  exact Bool.eq_iff_iff.2 (by simp [Nat.testBit_one_eq_true_iff_self_eq_zero])

theorem getLsbD_CHUNK_FLAG_HEADER_NONE (i : Nat) :
    CHUNK_FLAG_HEADER_NONE.getLsbD i = decide (i = 1) := by
  rw [← BitVec.testBit_toNat, show CHUNK_FLAG_HEADER_NONE.toNat = 2 ^ 1 from rfl,
    Nat.testBit_two_pow]
  exact Bool.eq_iff_iff.2 (by simp [eq_comm])

/-- A mask test `f & g == 0`, bit by bit. -/
theorem and_eq_zero_iff_getLsbD (f g : BitVec 16) :
    f &&& g = 0 ↔ ∀ i, g.getLsbD i = true → f.getLsbD i = false := by
  constructor
  · intro h i hg
    have := congrArg (·.getLsbD i) h
    simpa [hg] using this
  · intro h
    ext i
    simp only [BitVec.getLsbD_and, BitVec.getLsbD_zero]
    cases hg : g.getLsbD i
    · simp
    · simp [h i hg]

theorem and_compact_eq_zero_iff (f : BitVec 16) :
    f &&& CHUNK_FLAG_COMPACT_HEADER = 0 ↔ f.getLsbD 0 = false := by
  rw [and_eq_zero_iff_getLsbD]
  simp [getLsbD_CHUNK_FLAG_COMPACT_HEADER]

theorem and_none_eq_zero_iff (f : BitVec 16) :
    f &&& CHUNK_FLAG_HEADER_NONE = 0 ↔ f.getLsbD 1 = false := by
  rw [and_eq_zero_iff_getLsbD]
  simp [getLsbD_CHUNK_FLAG_HEADER_NONE]

/-- `memblock_header_type` reads bit 0 (compact), then bit 1 (none) of the flags. -/
theorem headerTypeOfFlags_eq (f : BitVec 16) :
    headerTypeOfFlags f =
      if f.getLsbD 0 then .compact else if f.getLsbD 1 then .none else .legacy := by
  unfold headerTypeOfFlags
  simp only [ne_eq, and_compact_eq_zero_iff, and_none_eq_zero_iff]
  cases f.getLsbD 0 <;> cases f.getLsbD 1 <;> rfl

theorem getLsbD_headerTypeToFlag (t : HeaderType) (i : Nat) :
    (headerTypeToFlag t).getLsbD i =
      match t with
      | .legacy => false
      | .compact => decide (i = 0)
      | .none => decide (i = 1) := by
  cases t
  · exact BitVec.getLsbD_zero
  · exact getLsbD_CHUNK_FLAG_COMPACT_HEADER i
  · exact getLsbD_CHUNK_FLAG_HEADER_NONE i

/-- The flavor flags other than `t`'s. -/
def otherFlavorFlags : HeaderType → BitVec 16
  | .legacy => CHUNK_FLAG_COMPACT_HEADER ||| CHUNK_FLAG_HEADER_NONE
  | .compact => CHUNK_FLAG_HEADER_NONE
  | .none => CHUNK_FLAG_COMPACT_HEADER

theorem and_otherFlavorFlags_eq_zero_iff (f : BitVec 16) (t : HeaderType) :
    f &&& otherFlavorFlags t = 0 ↔
      match t with
      | .legacy => f.getLsbD 0 = false ∧ f.getLsbD 1 = false
      | .compact => f.getLsbD 1 = false
      | .none => f.getLsbD 0 = false := by
  cases t
  · rw [otherFlavorFlags, and_eq_zero_iff_getLsbD]
    simp [BitVec.getLsbD_or, getLsbD_CHUNK_FLAG_COMPACT_HEADER, getLsbD_CHUNK_FLAG_HEADER_NONE,
      or_imp, forall_and]
  · exact and_none_eq_zero_iff f
  · exact and_compact_eq_zero_iff f

/-- OR-ing `t`'s flag in yields flavor `t` exactly when no flag of a flavor tested before
`t`'s is set. -/
theorem headerTypeOfFlags_or_iff (f : BitVec 16) (t : HeaderType) :
    headerTypeOfFlags (f ||| headerTypeToFlag t) = t ↔
      t = .compact ∨ f &&& otherFlavorFlags t = 0 := by
  rw [headerTypeOfFlags_eq, BitVec.getLsbD_or, BitVec.getLsbD_or, getLsbD_headerTypeToFlag,
    getLsbD_headerTypeToFlag, and_otherFlavorFlags_eq_zero_iff]
  cases t <;> cases f.getLsbD 0 <;> cases f.getLsbD 1 <;> decide

/-! ## Writing the flags of a chunk header -/

/-- A store of the flags field changes the flags of that chunk header only. -/
theorem readChunkHeader_store16_flags (mem : Mem) (hdr : Nat) (f : BitVec 16) :
    readChunkHeader (store16 mem (hdr + 2) f) hdr = { readChunkHeader mem hdr with flags := f } := by
  have hf := f.isLt
  simp only [readChunkHeader, load16, load32, store16, ChunkHeader.mk.injEq,
    loadLE_storeLE_of_disjoint mem (Or.inl (Nat.le_refl (hdr + 2))),
    loadLE_storeLE_of_le mem (Nat.le_refl (hdr + 2)) (Nat.le_refl _),
    loadLE_storeLE_of_disjoint mem (Or.inr (show hdr + 2 + 2 ≤ hdr + 4 by omega)),
    Nat.sub_self, Nat.pow_zero, Nat.div_one, true_and, and_true]
  apply BitVec.eq_of_toNat_eq
  rw [BitVec.toNat_ofNat]
  simp only [Nat.reducePow] at *
  omega

section

variable (L : Layout)

theorem zoneHeaders_store16_flags (heap : PallocHeap) (mem : Mem) (z c : Nat) (f : BitVec 16) :
    zoneHeaders L (heap.withMem (store16 mem (chunkHdrAddr L heap z c + 2) f)) z =
      Function.update (zoneHeaders L (heap.withMem mem) z) c
        { zoneHeaders L (heap.withMem mem) z c with flags := f } := by
  funext j
  simp only [zoneHeaders, PallocHeap.withMem_mem, chunkHdrAddr_withMem]
  by_cases hj : j = c
  · subst hj
    rw [Function.update_same]
    exact readChunkHeader_store16_flags _ _ _
  · rw [Function.update_noteq hj]
    exact readChunkHeader_storeLE_of_disjoint _ (by unfold chunkHdrAddr; omega)

/-! ## `huge_ensure_header_type` -/

/-- On a free head, `huge_ensure_header_type` stores the flags OR `t`'s flag, unless the
flag is already set. -/
theorem hugeEnsureHeaderType_eq (heap : PallocHeap) (m : MemoryBlock) (t : HeaderType)
    (hfree : (zoneHeaders L heap m.zoneId.toNat m.chunkId.toNat).type = CHUNK_TYPE_FREE) :
    let f := (zoneHeaders L heap m.zoneId.toNat m.chunkId.toNat).flags
    hugeEnsureHeaderType L heap m t = .ok (if f &&& headerTypeToFlag t = 0 then
      heap.withMem (store16 heap.mem (heapGetChunkHdr L heap m + 2) (f ||| headerTypeToFlag t))
      else heap) := by
  simp only [hugeEnsureHeaderType, heapGetChunkHdr, zoneHeaders] at hfree ⊢
  simp only [hfree, beq_self_eq_true, assert_true, pure_bind]
  split <;> rfl

/-- A flag that is set already: OR-ing it in changes nothing. -/
theorem or_headerTypeToFlag_of_and_ne_zero {f : BitVec 16} {t : HeaderType}
    (h : f &&& headerTypeToFlag t ≠ 0) : f ||| headerTypeToFlag t = f := by
  cases t with
  | legacy => exact BitVec.or_zero
  | compact =>
    have h0 : f.getLsbD 0 = true := by
      by_contra hc
      exact h ((and_compact_eq_zero_iff f).2 (by simpa using hc))
    ext i
    rw [BitVec.getLsbD_or, getLsbD_headerTypeToFlag]
    by_cases hi : (i : Nat) = 0
    · simp [hi, h0]
    · simp [hi]
  | none =>
    have h1 : f.getLsbD 1 = true := by
      by_contra hc
      exact h ((and_none_eq_zero_iff f).2 (by simpa using hc))
    ext i
    rw [BitVec.getLsbD_or, getLsbD_headerTypeToFlag]
    by_cases hi : (i : Nat) = 1
    · simp [hi, h1]
    · simp [hi]

/-- The zone after `huge_ensure_header_type`: the head's flags OR `t`'s flag, everything else
as it was. -/
theorem zoneHeaders_hugeEnsureHeaderType (heap : PallocHeap) (m : MemoryBlock) (t : HeaderType)
    (hfree : (zoneHeaders L heap m.zoneId.toNat m.chunkId.toNat).type = CHUNK_TYPE_FREE) :
    let hdrs := zoneHeaders L heap m.zoneId.toNat
    let h := hdrs m.chunkId.toNat
    ∃ heap', hugeEnsureHeaderType L heap m t = .ok heap' ∧
      zoneHeaders L heap' m.zoneId.toNat =
        Function.update hdrs m.chunkId.toNat { h with flags := h.flags ||| headerTypeToFlag t } ∧
      ∀ a, a < heapGetChunkHdr L heap m + 2 ∨ heapGetChunkHdr L heap m + 4 ≤ a →
        heap'.mem a = heap.mem a := by
  intro hdrs h
  refine ⟨_, hugeEnsureHeaderType_eq L heap m t hfree, ?_, ?_⟩
  · split
    · rw [heapGetChunkHdr, zoneHeaders_store16_flags, PallocHeap.withMem_self]
    · next hne => rw [or_headerTypeToFlag_of_and_ne_zero hne, Function.update_eq_self]
  · intro a ha
    split
    · rw [PallocHeap.withMem_mem, store16, storeLE_apply, if_neg (by omega)]
    · rfl

/-- A second call with the same flavor leaves the heap as the first left it. -/
theorem hugeEnsureHeaderType_idem (heap heap' : PallocHeap) (m : MemoryBlock) (t : HeaderType)
    (hfree : (zoneHeaders L heap m.zoneId.toNat m.chunkId.toNat).type = CHUNK_TYPE_FREE)
    (h : hugeEnsureHeaderType L heap m t = .ok heap') :
    hugeEnsureHeaderType L heap' m t = .ok heap' := by
  rw [hugeEnsureHeaderType_eq L heap m t hfree, Except.ok.injEq] at h
  subst h
  split
  · next hw =>
    let a := heapGetChunkHdr L heap m + 2
    let f' := (zoneHeaders L heap m.zoneId.toNat m.chunkId.toNat).flags ||| headerTypeToFlag t
    have hhdr : zoneHeaders L (heap.withMem (store16 heap.mem a f')) m.zoneId.toNat
        m.chunkId.toNat = { zoneHeaders L heap m.zoneId.toNat m.chunkId.toNat with flags := f' } :=
      readChunkHeader_store16_flags _ _ _
    rw [hugeEnsureHeaderType_eq L _ m t (by rw [hhdr]; exact hfree), hhdr]
    dsimp only
    split
    · rw [BitVec.or_assoc, BitVec.or_self, PallocHeap.withMem_withMem, PallocHeap.withMem_mem,
        heapGetChunkHdr_withMem]
      exact congrArg (fun mem => Except.ok (heap.withMem mem)) (storeLE_storeLE_same _ _ _ _ _)
    · rfl
  · exact hugeEnsureHeaderType_eq L heap m t hfree ▸ by rw [if_neg ‹_›]

/-- The flavor after `huge_ensure_header_type(m, t)` is `t` exactly when `t` is compact or
the head carried no flag of another flavor. -/
theorem memblockHeaderType_hugeEnsureHeaderType_iff (heap heap' : PallocHeap) (m : MemoryBlock)
    (t : HeaderType)
    (hfree : (zoneHeaders L heap m.zoneId.toNat m.chunkId.toNat).type = CHUNK_TYPE_FREE)
    (h : hugeEnsureHeaderType L heap m t = .ok heap') :
    memblockHeaderType L heap' m = t ↔ t = .compact ∨
      (zoneHeaders L heap m.zoneId.toNat m.chunkId.toNat).flags &&& otherFlavorFlags t = 0 := by
  obtain ⟨heap'', h'', hzone, -⟩ := zoneHeaders_hugeEnsureHeaderType L heap m t hfree
  rw [h, Except.ok.injEq] at h''
  subst h''
  show headerTypeOfFlags (zoneHeaders L heap' m.zoneId.toNat m.chunkId.toNat).flags = t ↔ _
  rw [hzone, Function.update_same]
  exact headerTypeOfFlags_or_iff _ t

/-! ## At most one flavor flag per header -/

/-- A chunk header that carries at most one of the two flavor flags. -/
def ChunkHeader.OneFlavor (h : ChunkHeader) : Prop :=
  h.flags &&& CHUNK_FLAG_COMPACT_HEADER = 0 ∨ h.flags &&& CHUNK_FLAG_HEADER_NONE = 0

instance : DecidablePred ChunkHeader.OneFlavor := fun h =>
  inferInstanceAs (Decidable
    (h.flags &&& CHUNK_FLAG_COMPACT_HEADER = 0 ∨ h.flags &&& CHUNK_FLAG_HEADER_NONE = 0))

/-- Every chunk header of zone `z` carries at most one flavor flag. -/
def ZoneOneFlavor (heap : PallocHeap) (z : Nat) : Prop :=
  ∀ j, j < L.maxChunk → (zoneHeaders L heap z j).OneFlavor

theorem ChunkHeader.oneFlavor_iff (h : ChunkHeader) :
    h.OneFlavor ↔ ¬ (h.flags.getLsbD 0 = true ∧ h.flags.getLsbD 1 = true) := by
  rw [ChunkHeader.OneFlavor, and_compact_eq_zero_iff, and_none_eq_zero_iff]
  cases h.flags.getLsbD 0 <;> cases h.flags.getLsbD 1 <;> decide

/-- OR-ing in the flag of a flavor that covers the flags a header carries keeps it at most
one flavor. -/
theorem oneFlavor_or_headerTypeToFlag (h : ChunkHeader) (t : HeaderType)
    (hown : h.flags &&& otherFlavorFlags t = 0) :
    ({ h with flags := h.flags ||| headerTypeToFlag t } : ChunkHeader).OneFlavor := by
  rw [ChunkHeader.oneFlavor_iff]
  rw [and_otherFlavorFlags_eq_zero_iff] at hown
  simp only [BitVec.getLsbD_or, getLsbD_headerTypeToFlag]
  cases t <;> simp_all

theorem zoneOneFlavor_hugePrepOperationHdr {heap : PallocHeap} {z : Nat}
    (hinv : ZoneOneFlavor L heap z) (m : MemoryBlock) (op : MemblockState)
    (hz : m.zoneId.toNat = z) (hpos : 1 ≤ m.sizeIdx.toNat) :
    ZoneOneFlavor L (hugePrepOperationHdr L heap m op none).1 z := by
  subst hz
  intro j hj
  rw [zoneHeaders_hugePrepOperationHdr_apply L heap m op hpos j]
  by_cases hc : j = m.chunkId.toNat
  · rw [if_pos hc]
    subst hc
    exact hinv _ hj
  · rw [if_neg hc]
    split
    · exact .inl BitVec.zero_and
    · exact hinv j hj

theorem zoneOneFlavor_hugeEnsureHeaderType {heap heap' : PallocHeap} {z : Nat}
    (hinv : ZoneOneFlavor L heap z) (m : MemoryBlock) (t : HeaderType) (hz : m.zoneId.toNat = z)
    (hfree : (zoneHeaders L heap z m.chunkId.toNat).type = CHUNK_TYPE_FREE)
    (hown : (zoneHeaders L heap z m.chunkId.toNat).flags &&& otherFlavorFlags t = 0)
    (h : hugeEnsureHeaderType L heap m t = .ok heap') : ZoneOneFlavor L heap' z := by
  subst hz
  obtain ⟨heap'', h'', hzone, -⟩ := zoneHeaders_hugeEnsureHeaderType L heap m t hfree
  rw [h, Except.ok.injEq] at h''
  subst h''
  intro j hj
  rw [hzone, Function.update_apply]
  split
  · exact oneFlavor_or_headerTypeToFlag _ t hown
  · exact hinv j hj

/-! ## The lifecycle -/

/-- One step of the lifecycle of the huge chunks of zone `z` under the single-flavor
discipline: the committed preparation of an allocation or a free of a huge block, or
`huge_ensure_header_type` with a flavor `t` on a free head that carries no flavor flag but
`t`'s. -/
inductive HugeLifecycleStep (z : Nat) : PallocHeap → PallocHeap → Prop
  | prep (heap : PallocHeap) (m : MemoryBlock) (op : MemblockState) (hz : m.zoneId.toNat = z)
      (hop : op ≠ .stateUnknown) (hpos : 1 ≤ m.sizeIdx.toNat) :
      HugeLifecycleStep z heap (hugePrepOperationHdr L heap m op none).1
  | ensure (heap heap' : PallocHeap) (m : MemoryBlock) (t : HeaderType) (hz : m.zoneId.toNat = z)
      (hfree : (zoneHeaders L heap z m.chunkId.toNat).type = CHUNK_TYPE_FREE)
      (hown : (zoneHeaders L heap z m.chunkId.toNat).flags &&& otherFlavorFlags t = 0)
      (h : hugeEnsureHeaderType L heap m t = .ok heap') : HugeLifecycleStep z heap heap'

/-- Every state reachable under the discipline keeps at most one flavor flag per header. -/
theorem hugeLifecycle_zoneOneFlavor {z : Nat} {heap₀ heap : PallocHeap}
    (h₀ : ZoneOneFlavor L heap₀ z) (hrun : Relation.ReflTransGen (HugeLifecycleStep L z) heap₀ heap) :
    ZoneOneFlavor L heap z := by
  induction hrun with
  | refl => exact h₀
  | tail _ hstep ih =>
    cases hstep with
    | prep m op hz _ hpos => exact zoneOneFlavor_hugePrepOperationHdr L ih m op hz hpos
    | ensure _ m t hz hfree hown h =>
      exact zoneOneFlavor_hugeEnsureHeaderType L ih m t hz hfree hown h

/-- A preparation on a huge block of the zone keeps the flags of `m`'s head, unless the
block's footer lands on it. -/
theorem flags_hugePrepOperationHdr (heap : PallocHeap) (m p : MemoryBlock) (op : MemblockState)
    (hz : p.zoneId = m.zoneId) (hpos : 1 ≤ p.sizeIdx.toNat)
    (hfoot : p.chunkId = m.chunkId ∨ p.chunkId.toNat + p.sizeIdx.toNat - 1 ≠ m.chunkId.toNat) :
    (zoneHeaders L (hugePrepOperationHdr L heap p op none).1 m.zoneId.toNat m.chunkId.toNat).flags =
      (zoneHeaders L heap m.zoneId.toNat m.chunkId.toNat).flags := by
  rw [← hz, zoneHeaders_hugePrepOperationHdr_apply L heap p op hpos]
  by_cases hhead : m.chunkId.toNat = p.chunkId.toNat
  · rw [if_pos hhead, hhead]
  · have hoff : ¬ (1 < p.sizeIdx.toNat ∧
        m.chunkId.toNat = p.chunkId.toNat + p.sizeIdx.toNat - 1) := fun hf =>
      hfoot.elim (fun heq => hhead (congrArg BitVec.toNat heq).symm) fun hne => hne hf.2.symm
    rw [if_neg hhead, if_neg hoff]

/-- The flavor of `m` after any sequence of preparations on huge blocks of its zone whose
footers stay off `m`'s head. -/
theorem memblockHeaderType_hugeCommitAll (heap : PallocHeap) (m : MemoryBlock)
    (ops : List (MemoryBlock × MemblockState))
    (hops : ∀ p ∈ ops, p.1.zoneId = m.zoneId ∧ 1 ≤ p.1.sizeIdx.toNat ∧
      (p.1.chunkId = m.chunkId ∨ p.1.chunkId.toNat + p.1.sizeIdx.toNat - 1 ≠ m.chunkId.toNat)) :
    memblockHeaderType L (hugeCommitAll L heap ops) m = memblockHeaderType L heap m := by
  induction ops generalizing heap with
  | nil => rfl
  | cons p ops ih =>
    obtain ⟨q, op⟩ := p
    obtain ⟨hz, hpos, hfoot⟩ := hops (q, op) (List.mem_cons_self _ _)
    rw [hugeCommitAll, ih _ fun p hp => hops p (List.mem_cons_of_mem _ hp)]
    show headerTypeOfFlags (zoneHeaders L _ m.zoneId.toNat m.chunkId.toNat).flags =
      headerTypeOfFlags (zoneHeaders L heap m.zoneId.toNat m.chunkId.toNat).flags
    rw [flags_hugePrepOperationHdr L heap m q op hz hpos hfoot]

/-- **The flavor of a huge chunk.** From a zone whose headers carry at most one flavor flag,
along any run of the single-flavor lifecycle, every header still carries at most one.
`huge_ensure_header_type(m, t)` on a free head then ORs `t`'s flag into the head's flags and
changes no other byte; a second call leaves the heap as it is; the flavor read afterwards is
`t` exactly when `t` is compact or the head carried no flag of another flavor (and then the
call is a lifecycle step); and the flavor stays as it is through any sequence of
preparations on the huge blocks of the zone whose footers stay off the head. -/
theorem hugeEnsureHeaderType_flavor (z : Nat) {heap₀ heap : PallocHeap}
    (h₀ : ZoneOneFlavor L heap₀ z)
    (hrun : Relation.ReflTransGen (HugeLifecycleStep L z) heap₀ heap)
    (m : MemoryBlock) (hz : m.zoneId.toNat = z) (t : HeaderType)
    (hfree : (zoneHeaders L heap z m.chunkId.toNat).type = CHUNK_TYPE_FREE) :
    let h := zoneHeaders L heap z m.chunkId.toNat
    ZoneOneFlavor L heap z ∧
    ∃ heap', hugeEnsureHeaderType L heap m t = .ok heap' ∧
      zoneHeaders L heap' z = Function.update (zoneHeaders L heap z) m.chunkId.toNat
        { h with flags := h.flags ||| headerTypeToFlag t } ∧
      (∀ a, a < heapGetChunkHdr L heap m + 2 ∨ heapGetChunkHdr L heap m + 4 ≤ a →
        heap'.mem a = heap.mem a) ∧
      hugeEnsureHeaderType L heap' m t = .ok heap' ∧
      (memblockHeaderType L heap' m = t ↔ t = .compact ∨ h.flags &&& otherFlavorFlags t = 0) ∧
      (h.flags &&& otherFlavorFlags t = 0 →
        HugeLifecycleStep L z heap heap' ∧ ZoneOneFlavor L heap' z) ∧
      ∀ ops : List (MemoryBlock × MemblockState), (∀ p ∈ ops, p.1.zoneId = m.zoneId ∧
          1 ≤ p.1.sizeIdx.toNat ∧ (p.1.chunkId = m.chunkId ∨
            p.1.chunkId.toNat + p.1.sizeIdx.toNat - 1 ≠ m.chunkId.toNat)) →
        memblockHeaderType L (hugeCommitAll L heap' ops) m = memblockHeaderType L heap' m := by
  intro h
  have hinv := hugeLifecycle_zoneOneFlavor L h₀ hrun
  subst hz
  obtain ⟨heap', hens, hzone, hframe⟩ := zoneHeaders_hugeEnsureHeaderType L heap m t hfree
  refine ⟨hinv, heap', hens, hzone, hframe, hugeEnsureHeaderType_idem L heap heap' m t hfree hens,
    memblockHeaderType_hugeEnsureHeaderType_iff L heap heap' m t hfree hens, fun hown => ?_,
    memblockHeaderType_hugeCommitAll L heap' m⟩
  exact ⟨.ensure heap heap' m t rfl hfree hown hens,
    zoneOneFlavor_hugeEnsureHeaderType L hinv m t rfl hfree hown hens⟩

end

/-- Zone 0 of a heap mapped at `2 ^ 40`: a free one-chunk huge block at chunk 0 that has
not been allocated yet (its flags are clear). -/
def freeChunkHeap : PallocHeap :=
  let heap : PallocHeap := ⟨2 ^ 40, 2 ^ 40 + 4096, fun _ => 0⟩
  heap.withMem <| store64 heap.mem (chunkHdrAddr specLayout heap 0 0)
    (chunkGetChunkHdrValue CHUNK_TYPE_FREE 0 1)

theorem zoneOneFlavor_freeChunkHeap : ZoneOneFlavor specLayout freeChunkHeap 0 := by
  intro j _
  rw [freeChunkHeap, zoneHeaders_store64, Function.update_apply]
  split
  · exact .inl BitVec.zero_and
  · refine .inl ?_
    simp only [zoneHeaders, readChunkHeader, load16, PallocHeap.withMem_mem, loadLE_zero]
    rfl

/-- The chunk of `freeChunkHeap` after it was ensured compact, allocated and freed, ensured
compact for its next allocation. -/
theorem hugeEnsureHeaderType_flavor_reusedChunk :
    let m : MemoryBlock := ⟨0, 0, 1, 0, .huge, .compact, .huge⟩
    ∃ heap₁, hugeEnsureHeaderType specLayout freeChunkHeap m .compact = .ok heap₁ ∧
      let heap := hugeCommitAll specLayout heap₁ [(m, .allocated), (m, .free)]
      let h := zoneHeaders specLayout heap 0 m.chunkId.toNat
      ZoneOneFlavor specLayout heap 0 ∧
      ∃ heap', hugeEnsureHeaderType specLayout heap m .compact = .ok heap' ∧
        zoneHeaders specLayout heap' 0 = Function.update (zoneHeaders specLayout heap 0)
          m.chunkId.toNat { h with flags := h.flags ||| headerTypeToFlag .compact } ∧
        (∀ a, a < heapGetChunkHdr specLayout heap m + 2 ∨
            heapGetChunkHdr specLayout heap m + 4 ≤ a → heap'.mem a = heap.mem a) ∧
        hugeEnsureHeaderType specLayout heap' m .compact = .ok heap' ∧
        (memblockHeaderType specLayout heap' m = .compact ↔
          HeaderType.compact = .compact ∨ h.flags &&& otherFlavorFlags .compact = 0) ∧
        (h.flags &&& otherFlavorFlags .compact = 0 →
          HugeLifecycleStep specLayout 0 heap heap' ∧ ZoneOneFlavor specLayout heap' 0) ∧
        ∀ ops : List (MemoryBlock × MemblockState), (∀ p ∈ ops, p.1.zoneId = m.zoneId ∧
            1 ≤ p.1.sizeIdx.toNat ∧ (p.1.chunkId = m.chunkId ∨
              p.1.chunkId.toNat + p.1.sizeIdx.toNat - 1 ≠ m.chunkId.toNat)) →
          memblockHeaderType specLayout (hugeCommitAll specLayout heap' ops) m =
            memblockHeaderType specLayout heap' m := by
  intro m
  have hpos : 1 ≤ m.sizeIdx.toNat := by decide
  obtain ⟨heap₁, e₁, -⟩ :=
    zoneHeaders_hugeEnsureHeaderType specLayout freeChunkHeap m .compact (by decide)
  refine ⟨heap₁, e₁, ?_⟩
  have hrun : Relation.ReflTransGen (HugeLifecycleStep specLayout 0) freeChunkHeap
      (hugeCommitAll specLayout heap₁ [(m, .allocated), (m, .free)]) :=
    .tail (.tail (.single (.ensure _ _ m .compact rfl (by decide) (by decide) e₁))
      (.prep _ m .allocated rfl (by decide) hpos)) (.prep _ m .free rfl (by decide) hpos)
  have hfree : (zoneHeaders specLayout (hugeCommitAll specLayout heap₁ [(m, .allocated),
      (m, .free)]) 0 m.chunkId.toNat).type = CHUNK_TYPE_FREE := by
    show (zoneHeaders specLayout (hugePrepOperationHdr specLayout _ m .free none).1
      m.zoneId.toNat m.chunkId.toNat).type = _
    rw [zoneHeaders_hugePrepOperationHdr_apply specLayout _ m .free hpos, if_pos rfl]
    rfl
  exact hugeEnsureHeaderType_flavor specLayout 0 zoneOneFlavor_freeChunkHeap hrun m rfl .compact
    hfree

/-- The chunk is allocated and freed with compact headers, then ensured legacy for its next
allocation: its flavor stays compact. Ensured `none` instead, it carries both flavor flags
and still reads compact. -/
theorem hugeEnsureHeaderType_reuse_keeps_compact :
    let m : MemoryBlock := ⟨0, 0, 1, 0, .huge, .legacy, .huge⟩
    ∃ heap₁, hugeEnsureHeaderType specLayout freeChunkHeap m .compact = .ok heap₁ ∧
      let heap₃ := (hugePrepOperationHdr specLayout
        (hugePrepOperationHdr specLayout heap₁ m .allocated none).1 m .free none).1
      (∃ heap₄, hugeEnsureHeaderType specLayout heap₃ m .legacy = .ok heap₄ ∧
        memblockHeaderType specLayout heap₄ m = .compact) ∧
      (∃ heap₄, hugeEnsureHeaderType specLayout heap₃ m .none = .ok heap₄ ∧
        memblockHeaderType specLayout heap₄ m = .compact ∧
        ¬ (zoneHeaders specLayout heap₄ 0 0).OneFlavor) := by
  intro m
  have hpos : 1 ≤ m.sizeIdx.toNat := by decide
  obtain ⟨heap₁, e₁, z₁, -⟩ :=
    zoneHeaders_hugeEnsureHeaderType specLayout freeChunkHeap m .compact (by decide)
  refine ⟨heap₁, e₁, ?_⟩
  intro heap₃
  have h₃ : zoneHeaders specLayout heap₃ m.zoneId.toNat m.chunkId.toNat =
      ⟨CHUNK_TYPE_FREE, CHUNK_FLAG_COMPACT_HEADER, 1⟩ := by
    rw [zoneHeaders_hugePrepOperationHdr_apply specLayout _ m .free hpos, if_pos rfl,
      zoneHeaders_hugePrepOperationHdr_apply specLayout _ m .allocated hpos, if_pos rfl, z₁,
      Function.update_same]
    decide
  have hfree₃ : (zoneHeaders specLayout heap₃ m.zoneId.toNat m.chunkId.toNat).type =
      CHUNK_TYPE_FREE := by rw [h₃]
  obtain ⟨heapL, eL, zL, -⟩ := zoneHeaders_hugeEnsureHeaderType specLayout heap₃ m .legacy hfree₃
  obtain ⟨heapN, eN, zN, -⟩ := zoneHeaders_hugeEnsureHeaderType specLayout heap₃ m .none hfree₃
  have hN : zoneHeaders specLayout heapN 0 0 =
      ⟨CHUNK_TYPE_FREE, CHUNK_FLAG_COMPACT_HEADER ||| CHUNK_FLAG_HEADER_NONE, 1⟩ := by
    show zoneHeaders specLayout heapN m.zoneId.toNat m.chunkId.toNat = _
    rw [zN, Function.update_same, h₃]
    rfl
  refine ⟨⟨heapL, eL, ?_⟩, ⟨heapN, eN, ?_, ?_⟩⟩
  · show headerTypeOfFlags (zoneHeaders specLayout heapL m.zoneId.toNat m.chunkId.toNat).flags = _
    rw [zL, Function.update_same, h₃]
    decide
  · show headerTypeOfFlags (zoneHeaders specLayout heapN 0 0).flags = _
    rw [hN]
    decide
  · rw [hN]
    decide

end Memblock
