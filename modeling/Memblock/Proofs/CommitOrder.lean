import Memblock.Proofs.RedoBatch

set_option autoImplicit false

/-! # The order of the commits

`prep_hdr` reads little. A run block's entry ORs the block's mask into its bitmap word, or
ANDs its complement, without reading the word; a huge block's entries read only the flags of
its head. So two committed operations on blocks that do not meet commute: entries on
different words touch different bytes, in one bitmap word an OR and an AND of disjoint masks
may be applied in either order, and neither operation writes what the other reads. The heap
that a list of operations committed one at a time reaches does not depend on their order,
that is on the order in which the locks let the threads through: no update is lost.

* `runBlockWord_disjoint`, `runBlockMask_and_eq_zero`: the bitmap words of different chunks
  or words do not overlap, and blocks of one word that share no unit have disjoint masks;
* `prepOperationHdr_commitOp`: what a committed operation adds, entry by entry;
* `RedoEntry.commute_of_blocksDisjoint`: the entries of operations on blocks that do not meet
  commute;
* `commitBatch_comm`: two committed operations on blocks that do not meet commute;
* `commitEach_perm`: any reordering of the operations reaches the same heap.
-/

namespace Memblock

/-! ## Masks and words -/

/-- The word a run block's entry stores, from the word it finds: the block's mask ORed in for
an allocation, its complement ANDed for a free. -/
def runWordUpdate (m : MemoryBlock) : MemblockState → BitVec 64 → BitVec 64
  | .allocated => fun x => x ||| runBlockMask m
  | .free => fun x => x &&& ~~~runBlockMask m
  | .stateUnknown => id

/-- Updates with disjoint masks commute. -/
theorem runWordUpdate_comm {m m' : MemoryBlock} (hmask : runBlockMask m &&& runBlockMask m' = 0)
    (op op' : MemblockState) (x : BitVec 64) :
    runWordUpdate m op (runWordUpdate m' op' x) = runWordUpdate m' op' (runWordUpdate m op x) := by
  have hbit : ∀ i, (runBlockMask m).getLsbD i = true → (runBlockMask m').getLsbD i = false :=
    fun i hi => by simpa [hi] using congrArg (fun v => BitVec.getLsbD v i) hmask
  cases op <;> cases op' <;> ext i <;>
    simp only [runWordUpdate, id, BitVec.getLsbD_or, BitVec.getLsbD_and, BitVec.getLsbD_not] <;>
    cases h : (runBlockMask m).getLsbD i <;> simp [h, hbit i]

section

variable {L : Layout}

/-- Blocks of one word that share no unit have disjoint masks. -/
theorem runBlockMask_and_eq_zero {m m' : MemoryBlock} (hm : RunBlockFits L m)
    (hm' : RunBlockFits L m') (hword : m.blockOff.toNat / 64 = m'.blockOff.toNat / 64)
    (hd : m.blockOff.toNat + m.sizeIdx.toNat ≤ m'.blockOff.toNat ∨
      m'.blockOff.toNat + m'.sizeIdx.toNat ≤ m.blockOff.toNat) :
    runBlockMask m &&& runBlockMask m' = 0 := by
  have := hm.fits
  have := hm'.fits
  ext i
  rw [BitVec.getLsbD_and, getLsbD_runBlockMask hm.fits, getLsbD_runBlockMask hm'.fits]
  simp only [BitVec.ofNat_eq_ofNat, BitVec.getLsbD_zero, Bool.and_eq_false_iff,
    decide_eq_false_iff_not]
  omega

end

section

variable (L : Layout)

/-- The bitmap words of blocks in different chunks, or in different words of one run, do not
overlap. -/
theorem runBlockWord_disjoint (heap : PallocHeap) {m m' : MemoryBlock}
    (hc : m.chunkId.toNat < L.maxChunk) (hc' : m'.chunkId.toNat < L.maxChunk)
    (hb : m.blockOff.toNat / 64 < L.bitmapValues) (hb' : m'.blockOff.toNat / 64 < L.bitmapValues)
    (hne : m.zoneId.toNat ≠ m'.zoneId.toNat ∨ m.chunkId.toNat ≠ m'.chunkId.toNat ∨
      m.blockOff.toNat / 64 ≠ m'.blockOff.toNat / 64) :
    runBlockWord L heap m + 8 ≤ runBlockWord L heap m' ∨
      runBlockWord L heap m' + 8 ≤ runBlockWord L heap m := by
  have hmeta := L.bitmap_le_meta
  have hlt := L.meta_lt_chunk
  have hchunk : ∀ c c' : Nat, c < c' → L.chunkSize * c + L.chunkSize ≤ L.chunkSize * c' :=
    fun c c' h => by rw [← Nat.mul_succ]; exact Nat.mul_le_mul_left _ h
  have h1 := hchunk _ _ hc
  have h2 := hchunk _ _ hc'
  unfold runBlockWord runBitmapField heapGetChunkRun heapGetChunk chunkAddr
  by_cases hz : m.zoneId.toNat = m'.zoneId.toNat
  · rw [hz]
    rcases Nat.lt_trichotomy m.chunkId.toNat m'.chunkId.toNat with h | h | h
    · have := hchunk _ _ h
      omega
    · rw [h]
      omega
    · have := hchunk _ _ h
      omega
  · have := zidToZone_disjoint L heap hz
    unfold Layout.zoneMaxSize Layout.sizeofZone at this
    omega

end

/-! ## Blocks that do not meet -/

/-- The chunk-header slots a huge block's commit writes: its head, and its footer when it has
more than one chunk. -/
def hugeSlots (m : MemoryBlock) : List (Nat × Nat) :=
  (m.zoneId.toNat, m.chunkId.toNat) ::
    if 1 < m.sizeIdx.toNat then [(m.zoneId.toNat, m.chunkId.toNat + m.sizeIdx.toNat - 1)] else []

/-- Two operations on blocks that do not meet: run blocks in different chunks or with unit
ranges that do not overlap, and huge blocks whose slots are all different. A huge block and a
run block never meet. -/
def BlocksDisjoint (p q : MemoryBlock × MemblockState) : Prop :=
  (p.1.mOps = .run → q.1.mOps = .run →
    p.1.zoneId.toNat ≠ q.1.zoneId.toNat ∨ p.1.chunkId.toNat ≠ q.1.chunkId.toNat ∨
      p.1.blockOff.toNat + p.1.sizeIdx.toNat ≤ q.1.blockOff.toNat ∨
      q.1.blockOff.toNat + q.1.sizeIdx.toNat ≤ p.1.blockOff.toNat) ∧
    (p.1.mOps = .huge → q.1.mOps = .huge → ∀ s ∈ hugeSlots p.1, s ∉ hugeSlots q.1)

instance : DecidableRel BlocksDisjoint := fun _ _ =>
  inferInstanceAs (Decidable ((_ → _ → _) ∧ (_ → _ → ∀ s ∈ _, s ∉ _)))

theorem BlocksDisjoint.symm {p q : MemoryBlock × MemblockState} (h : BlocksDisjoint p q) :
    BlocksDisjoint q p :=
  ⟨fun hq hp => by have := h.1 hp hq; omega,
    fun hq hp s hs hs' => h.2 hp hq s hs' hs⟩

/-- A huge block's head is not the footer slot of another huge block it does not meet. -/
theorem BlocksDisjoint.not_footer {p q : MemoryBlock × MemblockState} (h : BlocksDisjoint p q)
    (hp : p.1.mOps = .huge) (hn : 1 < p.1.sizeIdx.toNat) (hq : q.1.mOps = .huge) :
    ¬ (q.1.zoneId.toNat = p.1.zoneId.toNat ∧
      q.1.chunkId.toNat = p.1.chunkId.toNat + p.1.sizeIdx.toNat - 1) := by
  rintro ⟨hz, hc⟩
  refine h.2 hp hq _ ?_ (.head _)
  rw [hugeSlots, if_pos hn, hz, hc]
  exact .tail _ (.head _)

/-- An operation a commit accepts: a block inside its zone and, for a run block, one in a
bitmap word and an allocation or a free. -/
structure CommitOp (L : Layout) (p : MemoryBlock × MemblockState) : Prop where
  inZone : OpInZone L p.1
  run : p.1.mOps = .run → RunBlockFits L p.1 ∧ p.2 ≠ .stateUnknown

instance (L : Layout) (p : MemoryBlock × MemblockState) : Decidable (CommitOp L p) :=
  decidable_of_iff (OpInZone L p.1 ∧ (p.1.mOps = .run → RunBlockFits L p.1 ∧ p.2 ≠ .stateUnknown))
    ⟨fun h => ⟨h.1, h.2⟩, fun h => ⟨h.1, h.2⟩⟩

/-! ## What a committed operation adds -/

section Entries

variable {L : Layout}

/-- The slots of a huge block inside its zone are chunks of the zone. -/
theorem hugeSlots_lt {m : MemoryBlock} (hpos : 1 ≤ m.sizeIdx.toNat)
    (hend : m.chunkId.toNat + m.sizeIdx.toNat ≤ L.maxChunk) :
    ∀ s ∈ hugeSlots m, s.1 = m.zoneId.toNat ∧ s.2 < L.maxChunk := by
  intro s hs
  rw [hugeSlots, List.mem_cons] at hs
  rcases hs with rfl | hs
  · exact ⟨rfl, by omega⟩
  · split at hs
    · rw [List.mem_singleton] at hs
      subst hs
      exact ⟨rfl, by omega⟩
    · exact absurd hs (List.not_mem_nil _)

/-- What an accepted operation adds to an empty context, entry by entry: a huge block's
entries are `SET`s on its slots, and a run block's entry updates its bitmap word by
`runWordUpdate`. -/
theorem prepOperationHdr_commitOp (heap : PallocHeap) {p : MemoryBlock × MemblockState}
    (hp : CommitOp L p) :
    ∃ c, prepOperationHdr L heap p.1 p.2 ⟨[]⟩ = .ok c ∧ ∀ e ∈ c.entries,
      (p.1.mOps = .huge → e.op = .set ∧ ∃ s ∈ hugeSlots p.1, e.addr = chunkHdrAddr L heap s.1 s.2) ∧
      (p.1.mOps = .run → e.addr = runBlockWord L heap p.1 ∧ e.update = runWordUpdate p.1 p.2) := by
  obtain ⟨m, op⟩ := p
  cases hk : m.mOps
  · have hpos : 1 ≤ m.sizeIdx.toNat := (hp.inZone.1 hk).1
    refine ⟨_, by simp only [prepOperationHdr, hk]; rfl, fun e he => ⟨fun _ => ?_, nofun⟩⟩
    rw [hugePrepOperationHdr_entries, List.mem_cons] at he
    rcases he with rfl | he
    · exact ⟨rfl, _, .head _, rfl⟩
    · split at he
      · exact absurd he (List.not_mem_nil _)
      · next hn =>
        rw [List.mem_singleton] at he
        subst he
        refine ⟨rfl, (m.zoneId.toNat, m.chunkId.toNat + m.sizeIdx.toNat - 1), ?_, ?_⟩
        · show _ ∈ hugeSlots m
          rw [hugeSlots, if_pos (by omega)]
          exact .tail _ (.head _)
        · simp only [heapGetChunkHdr, chunkHdrAddr]
          omega
  · obtain ⟨hfits, hop⟩ := hp.run hk
    obtain ⟨ha, hf⟩ := runPrepOperationHdr_eq heap hfits.fits ⟨[]⟩
    simp only [prepOperationHdr, hk]
    cases op with
    | allocated =>
      refine ⟨_, ha, fun e he => ⟨nofun, fun _ => ?_⟩⟩
      rw [operationAddEntry, operationAddTypedEntry, List.nil_append, List.mem_singleton] at he
      subst he
      exact ⟨rfl, rfl⟩
    | free =>
      refine ⟨_, hf, fun e he => ⟨nofun, fun _ => ?_⟩⟩
      rw [operationAddEntry, operationAddTypedEntry, List.nil_append, List.mem_singleton] at he
      subst he
      exact ⟨rfl, rfl⟩
    | stateUnknown => exact absurd rfl hop

/-- The entries of two accepted operations on blocks that do not meet commute. -/
theorem RedoEntry.commute_of_blocksDisjoint (heap : PallocHeap) {p q : MemoryBlock × MemblockState}
    (hp : CommitOp L p) (hq : CommitOp L q) (hd : BlocksDisjoint p q) {e e' : RedoEntry}
    (he : (p.1.mOps = .huge → e.op = .set ∧
        ∃ s ∈ hugeSlots p.1, e.addr = chunkHdrAddr L heap s.1 s.2) ∧
      (p.1.mOps = .run → e.addr = runBlockWord L heap p.1 ∧ e.update = runWordUpdate p.1 p.2))
    (he' : (q.1.mOps = .huge → e'.op = .set ∧
        ∃ s ∈ hugeSlots q.1, e'.addr = chunkHdrAddr L heap s.1 s.2) ∧
      (q.1.mOps = .run → e'.addr = runBlockWord L heap q.1 ∧ e'.update = runWordUpdate q.1 q.2)) :
    e.Commute e' := by
  unfold RedoEntry.Commute
  cases hkp : p.1.mOps <;> cases hkq : q.1.mOps
  · -- two huge blocks: different slots
    obtain ⟨-, s, hs, haddr⟩ := he.1 hkp
    obtain ⟨-, s', hs', haddr'⟩ := he'.1 hkq
    obtain ⟨hpos, hend⟩ := hp.inZone.1 hkp
    obtain ⟨hpos', hend'⟩ := hq.inZone.1 hkq
    have hne : s ≠ s' := fun h => hd.2 hkp hkq s hs (h ▸ hs')
    rw [haddr, haddr']
    exact .inr (chunkHdrAddr_disjoint L heap (hugeSlots_lt hpos hend s hs).2
      (hugeSlots_lt hpos' hend' s' hs').2 (not_and_or.mp fun h => hne (Prod.ext h.1 h.2)))
  · -- a header slot and a bitmap word
    obtain ⟨-, s, hs, haddr⟩ := he.1 hkp
    obtain ⟨hpos, hend⟩ := hp.inZone.1 hkp
    obtain ⟨hc, hbit⟩ := hq.inZone.2 hkq
    obtain ⟨hlo, hhi⟩ := runBlockWord_mem_chunks L heap hc hbit
    rw [haddr, (he'.2 hkq).1]
    exact .inr (chunkHdrAddr_disjoint_chunks L heap (hugeSlots_lt hpos hend s hs).2 hlo hhi)
  · obtain ⟨-, s, hs, haddr⟩ := he'.1 hkq
    obtain ⟨hpos, hend⟩ := hq.inZone.1 hkq
    obtain ⟨hc, hbit⟩ := hp.inZone.2 hkp
    obtain ⟨hlo, hhi⟩ := runBlockWord_mem_chunks L heap hc hbit
    rw [haddr, (he.2 hkp).1]
    exact .inr (chunkHdrAddr_disjoint_chunks L heap (hugeSlots_lt hpos hend s hs).2 hlo hhi).symm
  · -- two run blocks: one word with disjoint masks, or different words
    obtain ⟨haddr, hupd⟩ := he.2 hkp
    obtain ⟨haddr', hupd'⟩ := he'.2 hkq
    obtain ⟨hc, hbit⟩ := hp.inZone.2 hkp
    obtain ⟨hc', hbit'⟩ := hq.inZone.2 hkq
    have hunits := hd.1 hkp hkq
    rw [haddr, haddr', hupd, hupd']
    by_cases hsame : p.1.zoneId.toNat = q.1.zoneId.toNat ∧ p.1.chunkId.toNat = q.1.chunkId.toNat ∧
        p.1.blockOff.toNat / 64 = q.1.blockOff.toNat / 64
    · obtain ⟨hz, hc, hw⟩ := hsame
      refine .inl ⟨by unfold runBlockWord heapGetChunkRun heapGetChunk chunkAddr; rw [hz, hc, hw],
        runWordUpdate_comm (runBlockMask_and_eq_zero (hp.run hkp).1 (hq.run hkq).1 hw (by omega))
          _ _⟩
    · exact .inr (runBlockWord_disjoint L heap hc hc' hbit hbit'
        (by simpa only [not_and_or] using hsame))

end Entries

/-! ## The order of the commits -/

section Order

variable {L : Layout}

/-- One operation committed in its own context. -/
theorem commitBatch_singleton (heap : PallocHeap) {m : MemoryBlock} {op : MemblockState}
    {c : OperationContext} (hc : prepOperationHdr L heap m op ⟨[]⟩ = .ok c) :
    commitBatch L heap [(m, op)] = .ok (heap.withMem (operationProcess heap.mem c.entries)) := by
  simp only [commitBatch, prepAll, hc]
  rfl

/-- An operation prepared after another one it does not meet is committed: it reads the same
flags. -/
theorem prepOperationHdr_after (heap : PallocHeap) {p q : MemoryBlock × MemblockState}
    (hp : CommitOp L p) (hq : CommitOp L q) (hd : BlocksDisjoint p q) {c : OperationContext}
    (hc : prepOperationHdr L heap p.1 p.2 ⟨[]⟩ = .ok c) :
    prepOperationHdr L (heap.withMem (operationProcess heap.mem c.entries)) q.1 q.2 ⟨[]⟩ =
      prepOperationHdr L heap q.1 q.2 ⟨[]⟩ := by
  refine prepOperationHdr_withMem heap _ q.1 q.2 ⟨[]⟩ fun hk => ?_
  obtain ⟨hpos, hend⟩ := hq.inZone.1 hk
  rw [flags_process_prepOperationHdr heap hp.inZone hc heap.mem (by omega)
    fun hpk hn => hd.not_footer hpk hn hk, PallocHeap.withMem_self]
  split_ifs <;> rfl

/-- **Two committed operations on blocks that do not meet commute.** -/
theorem commitBatch_comm (heap : PallocHeap) {p q : MemoryBlock × MemblockState}
    (hp : CommitOp L p) (hq : CommitOp L q) (hd : BlocksDisjoint p q) :
    (commitBatch L heap [p] >>= fun heap' => commitBatch L heap' [q]) =
      (commitBatch L heap [q] >>= fun heap' => commitBatch L heap' [p]) := by
  obtain ⟨cp, hcp, hep⟩ := prepOperationHdr_commitOp heap hp
  obtain ⟨cq, hcq, heq⟩ := prepOperationHdr_commitOp heap hq
  have hq' := (prepOperationHdr_after heap hp hq hd hcp).trans hcq
  have hp' := (prepOperationHdr_after heap hq hp hd.symm hcq).trans hcp
  rw [commitBatch_singleton heap hcp, commitBatch_singleton heap hcq]
  simp only [bind, Except.bind]
  rw [commitBatch_singleton _ hq', commitBatch_singleton _ hp']
  simp only [PallocHeap.withMem_withMem, PallocHeap.withMem_mem]
  rw [operationProcess_comm fun e he e' he' =>
    RedoEntry.commute_of_blocksDisjoint heap hp hq hd (hep e he) (heq e' he')]

/-- **The order of the commits does not matter.** Committing a list of accepted operations
on huge and run blocks that pairwise do not meet, one at a time, reaches the same heap in
every order of the list. -/
theorem commitEach_perm (heap : PallocHeap) {ops ops' : List (MemoryBlock × MemblockState)}
    (hperm : ops.Perm ops') (hops : ∀ p ∈ ops, CommitOp L p) (hd : ops.Pairwise BlocksDisjoint) :
    commitEach L heap ops = commitEach L heap ops' := by
  induction hperm generalizing heap with
  | nil => rfl
  | cons p _ ih =>
    obtain ⟨c, hc, -⟩ := prepOperationHdr_commitOp heap (hops p (List.mem_cons_self _ _))
    simp only [commitEach, commitBatch_singleton heap hc]
    exact ih _ (fun q hq => hops q (List.mem_cons_of_mem _ hq)) (List.pairwise_cons.mp hd).2
  | swap p q l =>
    have hcomm := commitBatch_comm heap (hops q (List.mem_cons_self _ _))
      (hops p (List.mem_cons_of_mem _ (List.mem_cons_self _ _)))
      ((List.pairwise_cons.mp hd).1 p (List.mem_cons_self _ _))
    simp only [commitEach, ← bind_assoc]
    rw [hcomm]
  | trans h₁ _ ih₁ ih₂ =>
    exact (ih₁ heap hops hd).trans (ih₂ heap (fun p hp => hops p (h₁.symm.subset hp))
      ((h₁.pairwise_iff fun h => h.symm).mp hd))

end Order

theorem commitEach_perm_hugeBlockHeap :
    commitEach specLayout hugeBlockHeap
        [(⟨0, 0, 3, 0, .huge, .legacy, .huge⟩, .allocated), (⟨3, 0, 3, 5, .run, .compact, .run⟩, .allocated),
          (⟨3, 0, 2, 8, .run, .compact, .run⟩, .free)] =
      commitEach specLayout hugeBlockHeap
        [(⟨3, 0, 2, 8, .run, .compact, .run⟩, .free), (⟨0, 0, 3, 0, .huge, .legacy, .huge⟩, .allocated),
          (⟨3, 0, 3, 5, .run, .compact, .run⟩, .allocated)] :=
  commitEach_perm hugeBlockHeap (by decide) (by decide) (by decide)

end Memblock
