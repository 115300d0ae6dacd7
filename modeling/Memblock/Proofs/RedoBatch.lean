import Memblock.Proofs.ZoneLayout

set_option autoImplicit false

/-! # One context for many operations

With a context, `prep_hdr` writes nothing: it appends entries, and its caller processes the
context once every operation of an action is in it. What it appends depends on the heap at
one place only. A run block's entry is an `OR` or `AND` mask on its bitmap word, computed
from the block alone; a huge block's head entry carries the flags read from its slot when it
is prepared. The entries' writes reach the chunk-header array at a huge block's head, which
keeps the flags it was prepared with, and at its footer slot, which becomes a footer.

So preparing a list of operations into one context against the heap as it is, and
processing the context once, gives the heap that committing them one at a time gives, as
long as no huge head is read from the footer slot of a huge block prepared before it:

* `prepOperationHdr_append`: preparing into a context appends to it what preparing into an
  empty context gives;
* `prepOperationHdr_withMem`: what is prepared reads the memory only at a huge head's flags;
* `zoneHeaders_process_hugePrep`, `zoneHeaders_process_runPrep`: what processing the
  entries of one operation does to the chunk-header slots, on any memory;
* `commitBatch_eq_commitEach`: one context for the list and one context per operation reach
  the same heap, or fail at the same operation.

A restart replays a committed context's persistent entries only, and the only transient
entry `memblock.c` adds is a huge block's footer:

* `operationProcess_replayEntries`: replaying the persistent entries agrees with processing
  them all outside the bytes that transient entries write, when no `OR` or `AND` reads them;
* `commitBatch_replay`: so a restart loses only the footers of the list's huge blocks.
-/

namespace Memblock

/-! ## The caller's commit -/

section Commit

variable (L : Layout)

/-- Modelled from the spec: the caller preparing a list of operations, in order, into one
context. -/
def prepAll (heap : PallocHeap) (ctx : OperationContext) :
    List (MemoryBlock × MemblockState) → Except Fault OperationContext
  | [] => pure ctx
  | (m, op) :: ops => do prepAll heap (← prepOperationHdr L heap m op ctx) ops

/-- Modelled from the spec: the caller's commit of a list of operations, each prepared against
the heap as it is into one fresh context, which is then processed. -/
def commitBatch (heap : PallocHeap) (ops : List (MemoryBlock × MemblockState)) :
    Except Fault PallocHeap := do
  let ctx ← prepAll L heap ⟨[]⟩ ops
  return heap.withMem (operationProcess heap.mem ctx.entries)

/-- The same operations committed one at a time, each in a context of its own. -/
def commitEach (heap : PallocHeap) : List (MemoryBlock × MemblockState) → Except Fault PallocHeap
  | [] => pure heap
  | (m, op) :: ops => do commitEach (← commitBatch L heap [(m, op)]) ops

/-- An operation on a block inside its zone: a huge block of at least one chunk that ends in
the chunk-header array, or a run block in a chunk of the zone whose bitmap word the run has. -/
def OpInZone (m : MemoryBlock) : Prop :=
  (m.mOps = .huge → 1 ≤ m.sizeIdx.toNat ∧ m.chunkId.toNat + m.sizeIdx.toNat ≤ L.maxChunk) ∧
    (m.mOps = .run → m.chunkId.toNat < L.maxChunk ∧ m.blockOff.toNat / 64 < L.bitmapValues)

instance (m : MemoryBlock) : Decidable (OpInZone L m) :=
  inferInstanceAs (Decidable ((_ → _) ∧ (_ → _)))

end Commit

/-- Operation `q`, prepared after `p`, does not read its head from the footer slot that `p`, a
huge block of more than one chunk, writes. -/
def FooterClear (p q : MemoryBlock × MemblockState) : Prop :=
  p.1.mOps = .huge → 1 < p.1.sizeIdx.toNat → q.1.mOps = .huge →
    ¬ (q.1.zoneId.toNat = p.1.zoneId.toNat ∧
      q.1.chunkId.toNat = p.1.chunkId.toNat + p.1.sizeIdx.toNat - 1)

instance (p q : MemoryBlock × MemblockState) : Decidable (FooterClear p q) :=
  inferInstanceAs (Decidable (_ → _ → _ → ¬ (_ ∧ _)))

/-! ## What is prepared -/

section Prepare

variable {L : Layout}

/-- What `huge_prep_operation_hdr` adds to a context: the new head as a persistent `SET`,
then, for a block of more than one chunk, the footer as a transient one. -/
theorem hugePrepOperationHdr_ctx (heap : PallocHeap) (m : MemoryBlock) (op : MemblockState)
    (ctx : OperationContext) :
    (hugePrepOperationHdr L heap m op (some ctx)).2 = some ⟨ctx.entries ++
      ⟨heapGetChunkHdr L heap m, chunkGetChunkHdrValue
          (if op = .allocated then CHUNK_TYPE_USED else CHUNK_TYPE_FREE)
          (readChunkHeader heap.mem (heapGetChunkHdr L heap m)).flags m.sizeIdx, .set, .persistent⟩ ::
        if m.sizeIdx.toNat = 1 then []
        else [⟨heapGetChunkHdr L heap m + 8 * m.sizeIdx.toNat - 8,
          chunkGetChunkHdrValue CHUNK_TYPE_FOOTER 0 m.sizeIdx, .set, .transient⟩]⟩ := by
  have h1 : m.sizeIdx = 1 ↔ m.sizeIdx.toNat = 1 := by
    rw [BitVec.toNat_eq]
    rfl
  by_cases hn : m.sizeIdx.toNat = 1
  · simp only [hugePrepOperationHdr, if_pos (h1.2 hn), if_pos hn]
    rfl
  · simp only [hugePrepOperationHdr, if_neg (mt h1.1 hn), if_neg hn, operationAddTypedEntry,
      operationAddEntry, List.append_assoc]
    rfl

/-- The same into an empty context. -/
theorem hugePrepOperationHdr_entries (heap : PallocHeap) (m : MemoryBlock) (op : MemblockState) :
    ((hugePrepOperationHdr L heap m op (some ⟨[]⟩)).2.getD ⟨[]⟩).entries =
      ⟨heapGetChunkHdr L heap m, chunkGetChunkHdrValue
          (if op = .allocated then CHUNK_TYPE_USED else CHUNK_TYPE_FREE)
          (readChunkHeader heap.mem (heapGetChunkHdr L heap m)).flags m.sizeIdx, .set, .persistent⟩ ::
        if m.sizeIdx.toNat = 1 then []
        else [⟨heapGetChunkHdr L heap m + 8 * m.sizeIdx.toNat - 8,
          chunkGetChunkHdrValue CHUNK_TYPE_FOOTER 0 m.sizeIdx, .set, .transient⟩] := by
  rw [hugePrepOperationHdr_ctx]
  rfl

/-- Preparing into a context appends to it what preparing into an empty context gives. -/
theorem prepOperationHdr_append (heap : PallocHeap) (m : MemoryBlock) (op : MemblockState)
    (ctx : OperationContext) :
    prepOperationHdr L heap m op ctx =
      (fun c => ⟨ctx.entries ++ c.entries⟩) <$> prepOperationHdr L heap m op ⟨[]⟩ := by
  unfold prepOperationHdr
  split
  · rw [hugePrepOperationHdr_ctx, hugePrepOperationHdr_ctx]
    rfl
  · unfold runPrepOperationHdr
    cases op <;> split_ifs <;> simp only [map_bind, map_pure] <;> rfl

/-- What is prepared reads the memory only at a huge block's head, for its flags. -/
theorem prepOperationHdr_withMem (heap : PallocHeap) (mem : Mem) (m : MemoryBlock)
    (op : MemblockState) (ctx : OperationContext)
    (hflags : m.mOps = .huge →
      (zoneHeaders L (heap.withMem mem) m.zoneId.toNat m.chunkId.toNat).flags =
        (zoneHeaders L heap m.zoneId.toNat m.chunkId.toNat).flags) :
    prepOperationHdr L (heap.withMem mem) m op ctx = prepOperationHdr L heap m op ctx := by
  unfold prepOperationHdr
  split
  · next hk =>
    have h := hflags hk
    simp only [zoneHeaders, PallocHeap.withMem_mem, chunkHdrAddr_withMem] at h
    simp only [hugePrepOperationHdr, heapGetChunkHdr, chunkHdrAddr_withMem,
      PallocHeap.withMem_mem, h]
    split <;> rfl
  · rfl

end Prepare

/-! ## What the entries write -/

section Process

variable {L : Layout}

/-- Storing a header image into one slot changes that slot and no other slot of any zone. -/
theorem zoneHeaders_store64_apply (heap : PallocHeap) (mem : Mem) {z c z' j : Nat}
    (hc : c < L.maxChunk) (hj : j < L.maxChunk) (type flags : BitVec 16) (sizeIdx : BitVec 32) :
    zoneHeaders L (heap.withMem (store64 mem (chunkHdrAddr L heap z c)
      (chunkGetChunkHdrValue type flags sizeIdx))) z' j =
      if z' = z ∧ j = c then ⟨type, flags, sizeIdx⟩ else zoneHeaders L (heap.withMem mem) z' j := by
  simp only [zoneHeaders, PallocHeap.withMem_mem, chunkHdrAddr_withMem]
  split_ifs with h
  · rw [h.1, h.2]
    exact readChunkHeader_store64_chunkGetChunkHdrValue _ _ _ _ _
  · exact readChunkHeader_storeLE_of_disjoint _
      (chunkHdrAddr_disjoint L heap hj hc (not_and_or.mp h))

/-- Processing the entries of a huge block, on any memory: its head slot gets the new head
with the flags it was prepared with, a block of more than one chunk gets its footer, and every
other slot of every zone is kept. -/
theorem zoneHeaders_process_hugePrep (heap : PallocHeap) (m : MemoryBlock) (op : MemblockState)
    (hpos : 1 ≤ m.sizeIdx.toNat) (hend : m.chunkId.toNat + m.sizeIdx.toNat ≤ L.maxChunk)
    (mem : Mem) {z j : Nat} (hj : j < L.maxChunk) :
    zoneHeaders L (heap.withMem (operationProcess mem
      ((hugePrepOperationHdr L heap m op (some ⟨[]⟩)).2.getD ⟨[]⟩).entries)) z j =
      if z = m.zoneId.toNat ∧ j = m.chunkId.toNat then
        ⟨if op = .allocated then CHUNK_TYPE_USED else CHUNK_TYPE_FREE,
          (zoneHeaders L heap m.zoneId.toNat m.chunkId.toNat).flags, m.sizeIdx⟩
      else if z = m.zoneId.toNat ∧ 1 < m.sizeIdx.toNat ∧
          j = m.chunkId.toNat + m.sizeIdx.toNat - 1 then hugeFooter m.sizeIdx
      else zoneHeaders L (heap.withMem mem) z j := by
  have hfoot : chunkHdrAddr L heap m.zoneId.toNat m.chunkId.toNat + 8 * m.sizeIdx.toNat - 8 =
      chunkHdrAddr L heap m.zoneId.toNat (m.chunkId.toNat + m.sizeIdx.toNat - 1) := by
    unfold chunkHdrAddr
    omega
  rw [hugePrepOperationHdr_entries, operationProcess_cons]
  by_cases hn : m.sizeIdx.toNat = 1
  · simp only [if_pos hn, operationProcess_nil, RedoEntry.apply, heapGetChunkHdr]
    rw [zoneHeaders_store64_apply heap mem (by omega) hj]
    split_ifs <;> first | rfl | omega
  · simp only [if_neg hn, operationProcess_cons, operationProcess_nil, RedoEntry.apply,
      heapGetChunkHdr, hfoot]
    rw [zoneHeaders_store64_apply heap _ (by omega) hj,
      zoneHeaders_store64_apply heap mem (by omega) hj]
    split_ifs <;> first | rfl | omega

/-- Processing the entry of a run block, on any memory, keeps every chunk-header slot: its
bitmap word lies in the chunks. -/
theorem zoneHeaders_process_runPrep (heap : PallocHeap) {m : MemoryBlock} {op : MemblockState}
    {c : OperationContext} (hc : m.chunkId.toNat < L.maxChunk)
    (hbit : m.blockOff.toNat / 64 < L.bitmapValues)
    (hprep : runPrepOperationHdr L heap m op ⟨[]⟩ = .ok c) (mem : Mem) {z j : Nat}
    (hj : j < L.maxChunk) :
    zoneHeaders L (heap.withMem (operationProcess mem c.entries)) z j =
      zoneHeaders L (heap.withMem mem) z j := by
  obtain ⟨e, he, -, hes⟩ := runPrepOperationHdr_entries L hprep
  obtain ⟨hlo, hhi⟩ := runBlockWord_mem_chunks L heap hc hbit
  rw [← he] at hlo hhi
  rw [hes, List.nil_append, operationProcess_cons, operationProcess_nil]
  simp only [zoneHeaders, PallocHeap.withMem_mem, chunkHdrAddr_withMem, RedoEntry.apply, store64]
  exact readChunkHeader_storeLE_of_disjoint _ (chunkHdrAddr_disjoint_chunks L heap hj hlo hhi)

/-- Processing one operation's entries, on any memory, keeps the flags of every slot but its
footer slot; a huge block's own head gets the flags it was prepared with. -/
theorem flags_process_prepOperationHdr (heap : PallocHeap) {m : MemoryBlock} {op : MemblockState}
    {c : OperationContext} (hm : OpInZone L m)
    (hprep : prepOperationHdr L heap m op ⟨[]⟩ = .ok c) (mem : Mem) {z j : Nat}
    (hj : j < L.maxChunk)
    (hfoot : m.mOps = .huge → 1 < m.sizeIdx.toNat →
      ¬ (z = m.zoneId.toNat ∧ j = m.chunkId.toNat + m.sizeIdx.toNat - 1)) :
    (zoneHeaders L (heap.withMem (operationProcess mem c.entries)) z j).flags =
      if m.mOps = .huge ∧ z = m.zoneId.toNat ∧ j = m.chunkId.toNat then
        (zoneHeaders L heap z j).flags
      else (zoneHeaders L (heap.withMem mem) z j).flags := by
  unfold prepOperationHdr at hprep
  split at hprep
  · next hk =>
    obtain ⟨hpos, hend⟩ := hm.1 hk
    cases hprep
    rw [zoneHeaders_process_hugePrep heap m op hpos hend mem hj]
    by_cases hh : z = m.zoneId.toNat ∧ j = m.chunkId.toNat
    · obtain ⟨rfl, rfl⟩ := hh
      simp only [hk, and_self, if_true]
    · have hB : ¬ (z = m.zoneId.toNat ∧ 1 < m.sizeIdx.toNat ∧
          j = m.chunkId.toNat + m.sizeIdx.toNat - 1) := fun h => hfoot hk h.2.1 ⟨h.1, h.2.2⟩
      rw [if_neg hh, if_neg hB, if_neg (not_and_of_not_right _ hh)]
  · next hk =>
    obtain ⟨hc, hbit⟩ := hm.2 hk
    rw [zoneHeaders_process_runPrep heap hc hbit hprep mem hj, if_neg (by rw [hk]; simp)]

end Process

/-- Allocating the three-chunk huge block of `hugeBlockHeap`, freeing it again, and
allocating units 62 and 63 of a run in chunk 3. -/
def hugeRunOps : List (MemoryBlock × MemblockState) :=
  [(⟨0, 0, 3, 0, .huge, .legacy, .huge⟩, .allocated), (⟨0, 0, 3, 0, .huge, .legacy, .huge⟩, .free),
    (⟨3, 0, 2, 62, .run, .compact, .run⟩, .allocated)]

/-! ## The batch and the one-by-one commits -/

section Batch

variable {L : Layout}

/-- The batch from a context already holding some entries: while the operations still to be
prepared read at their huge heads the flags the heap has, processing everything at the end
is committing the rest one by one after the entries already there. -/
theorem prepAll_process (heap : PallocHeap) (ops : List (MemoryBlock × MemblockState))
    (hin : ∀ p ∈ ops, OpInZone L p.1) (hclear : ops.Pairwise FooterClear)
    (ctx : OperationContext)
    (hflags : ∀ p ∈ ops, p.1.mOps = .huge →
      (zoneHeaders L (heap.withMem (operationProcess heap.mem ctx.entries))
        p.1.zoneId.toNat p.1.chunkId.toNat).flags =
        (zoneHeaders L heap p.1.zoneId.toNat p.1.chunkId.toNat).flags) :
    (fun c => heap.withMem (operationProcess heap.mem c.entries)) <$> prepAll L heap ctx ops =
      commitEach L (heap.withMem (operationProcess heap.mem ctx.entries)) ops := by
  induction ops generalizing ctx with
  | nil => rfl
  | cons p ops ih =>
    obtain ⟨m, op⟩ := p
    obtain ⟨hclear_m, hclear⟩ := List.pairwise_cons.mp hclear
    have hm := hin _ (List.mem_cons_self _ _)
    have hH := prepOperationHdr_withMem heap (operationProcess heap.mem ctx.entries) m op ⟨[]⟩
      (hflags _ (List.mem_cons_self _ _))
    simp only [prepAll, commitEach, commitBatch, prepOperationHdr_append heap m op ctx, hH]
    cases hp : prepOperationHdr L heap m op ⟨[]⟩ with
    | error f => rfl
    | ok c =>
      -- the entries of `m` keep the flags at every later huge head: its own head gets the
      -- flags it was prepared with, and no later head is its footer slot
      have hflags' : ∀ q ∈ ops, q.1.mOps = .huge →
          (zoneHeaders L (heap.withMem (operationProcess heap.mem (ctx.entries ++ c.entries)))
            q.1.zoneId.toNat q.1.chunkId.toNat).flags =
            (zoneHeaders L heap q.1.zoneId.toNat q.1.chunkId.toNat).flags := fun q hq hk => by
        have hq' := hin q (List.mem_cons_of_mem _ hq)
        rw [operationProcess_append, flags_process_prepOperationHdr heap hm hp _
          (by have := hq'.1 hk; omega) fun hmk h1 h => hclear_m q hq hmk h1 hk h]
        split_ifs
        · rfl
        · exact hflags q (List.mem_cons_of_mem _ hq) hk
      simpa only [Except.map, bind, Except.bind, pure, Except.pure, prepAll,
        PallocHeap.withMem_withMem, PallocHeap.withMem_mem, operationProcess_append] using
        ih (fun q hq => hin q (List.mem_cons_of_mem _ hq)) hclear ⟨ctx.entries ++ c.entries⟩ hflags'

/-- **One context for the whole list is one context per operation.** Preparing a list of
operations on huge and run blocks inside their zones against the heap as it is, into one
redo-log context processed once, reaches the heap that committing them one at a time reaches,
or fails where it fails, as long as no huge block's head is the footer slot of a huge block
of more than one chunk that comes before it in the list. -/
theorem commitBatch_eq_commitEach (heap : PallocHeap) (ops : List (MemoryBlock × MemblockState))
    (hin : ∀ p ∈ ops, OpInZone L p.1) (hclear : ops.Pairwise FooterClear) :
    commitBatch L heap ops = commitEach L heap ops :=
  prepAll_process heap ops hin hclear ⟨[]⟩ fun _ _ _ => rfl

end Batch

/-! ## A restart replays the persistent entries -/

section Replay

variable {L : Layout}

/-- Processing a list of entries, and replaying only its persistent ones, from memories that
agree outside `T` gives memories that agree outside `T`, when every transient entry writes
inside `T` and every `OR` or `AND` entry reads outside it. -/
theorem operationProcess_replayEntries {T : Nat → Prop} (es : List RedoEntry)
    (htrans : ∀ e ∈ es, e.kind = .transient → ∀ i < 8, T (e.addr + i))
    (hread : ∀ e ∈ es, e.op ≠ .set → ∀ i < 8, ¬ T (e.addr + i))
    {mem mem' : Mem} (hagree : ∀ a, ¬ T a → mem a = mem' a) (a : Nat) (ha : ¬ T a) :
    operationProcess mem (replayEntries es) a = operationProcess mem' es a := by
  induction es generalizing mem mem' with
  | nil => exact hagree a ha
  | cons e es ih =>
    have htrans' := fun e' he' => htrans e' (List.mem_cons_of_mem e he')
    have hread' := fun e' he' => hread e' (List.mem_cons_of_mem e he')
    rw [replayEntries_cons, operationProcess_cons]
    split
    · refine ih htrans' hread' fun b hb => ?_
      by_cases hin : e.addr ≤ b ∧ b < e.addr + 8
      · refine e.apply_congr ?_ b hin.1 hin.2
        by_cases hs : e.op = .set
        · exact .inl hs
        · exact .inr fun i hi => hagree _ (hread e (List.mem_cons_self _ _) hs i hi)
      · rw [e.apply_of_disjoint mem (by omega), e.apply_of_disjoint mem' (by omega)]
        exact hagree b hb
    · next hk =>
      have ht : e.kind = .transient := by
        cases h : e.kind
        · exact absurd h hk
        · rfl
      refine ih htrans' hread' fun b hb => ?_
      have hout : b < e.addr ∨ e.addr + 8 ≤ b := by
        by_contra hin
        have := htrans e (List.mem_cons_self _ _) ht (b - e.addr) (by omega)
        rw [Nat.add_sub_cancel' (by omega)] at this
        exact hb this
      rw [e.apply_of_disjoint mem' hout]
      exact hagree b hb

/-- An entry that preparing one operation adds: a transient entry is the footer slot of a
huge block of more than one chunk, and an `OR` or `AND` entry is a run block's bitmap word. -/
theorem prepOperationHdr_entry (heap : PallocHeap) {m : MemoryBlock} {op : MemblockState}
    {c : OperationContext} (hm : OpInZone L m) (hp : prepOperationHdr L heap m op ⟨[]⟩ = .ok c)
    {e : RedoEntry} (he : e ∈ c.entries) :
    (e.kind = .transient → m.mOps = .huge ∧ 1 < m.sizeIdx.toNat ∧
      e.addr = chunkHdrAddr L heap m.zoneId.toNat (m.chunkId.toNat + m.sizeIdx.toNat - 1)) ∧
    (e.op ≠ .set → m.mOps = .run ∧ e.addr = runBlockWord L heap m) := by
  unfold prepOperationHdr at hp
  split at hp
  · next hk =>
    obtain ⟨hpos, -⟩ := hm.1 hk
    cases hp
    rw [hugePrepOperationHdr_entries, List.mem_cons] at he
    rcases he with rfl | he
    · exact ⟨(fun h => nomatch h), fun h => absurd rfl h⟩
    · split at he
      · exact absurd he (List.not_mem_nil _)
      · rw [List.mem_singleton] at he
        subst he
        refine ⟨fun _ => ⟨hk, by omega, ?_⟩, fun h => absurd rfl h⟩
        simp only [heapGetChunkHdr, chunkHdrAddr]
        omega
  · next hk =>
    obtain ⟨e', haddr, hkind, hes⟩ := runPrepOperationHdr_entries L hp
    rw [hes, List.nil_append, List.mem_singleton] at he
    subst he
    exact ⟨(fun h => nomatch hkind.symm.trans h), fun _ => ⟨hk, haddr⟩⟩

/-- Every entry of a batch's context was there before, or is one that preparing one of its
operations alone adds. -/
theorem prepAll_entry (heap : PallocHeap) {ops : List (MemoryBlock × MemblockState)}
    {ctx c : OperationContext} (h : prepAll L heap ctx ops = .ok c) {e : RedoEntry}
    (he : e ∈ c.entries) :
    e ∈ ctx.entries ∨
      ∃ p ∈ ops, ∃ c', prepOperationHdr L heap p.1 p.2 ⟨[]⟩ = .ok c' ∧ e ∈ c'.entries := by
  induction ops generalizing ctx with
  | nil =>
    cases h
    exact .inl he
  | cons p ops ih =>
    obtain ⟨m, op⟩ := p
    simp only [prepAll, prepOperationHdr_append heap m op ctx] at h
    cases hp : prepOperationHdr L heap m op ⟨[]⟩ with
    | error f =>
      rw [hp] at h
      cases h
    | ok c₁ =>
      rw [hp] at h
      rcases ih h with h' | ⟨q, hq, c', hc', he'⟩
      · rcases List.mem_append.mp h' with h' | h'
        · exact .inl h'
        · exact .inr ⟨(m, op), List.mem_cons_self _ _, c₁, hp, h'⟩
      · exact .inr ⟨q, List.mem_cons_of_mem _ hq, c', hc', he'⟩

/-- **A restart loses only footers.** A restart replays the persistent entries of a committed
context and never its transient ones. For a list of operations on blocks inside their zones
prepared into one context, replaying only the persistent entries gives every byte that
processing the whole context gives, except in the footer slots of the list's huge blocks of
more than one chunk. -/
theorem commitBatch_replay (heap : PallocHeap) (ops : List (MemoryBlock × MemblockState))
    (hin : ∀ p ∈ ops, OpInZone L p.1) {c : OperationContext}
    (hc : prepAll L heap ⟨[]⟩ ops = .ok c) (a : Nat)
    (ha : ∀ p ∈ ops, p.1.mOps = .huge → 1 < p.1.sizeIdx.toNat →
      a < chunkHdrAddr L heap p.1.zoneId.toNat (p.1.chunkId.toNat + p.1.sizeIdx.toNat - 1) ∨
        chunkHdrAddr L heap p.1.zoneId.toNat (p.1.chunkId.toNat + p.1.sizeIdx.toNat - 1) + 8 ≤ a) :
    operationProcess heap.mem (replayEntries c.entries) a = operationProcess heap.mem c.entries a := by
  refine operationProcess_replayEntries (T := fun b => ∃ p ∈ ops, p.1.mOps = .huge ∧
      1 < p.1.sizeIdx.toNat ∧
      chunkHdrAddr L heap p.1.zoneId.toNat (p.1.chunkId.toNat + p.1.sizeIdx.toNat - 1) ≤ b ∧
      b < chunkHdrAddr L heap p.1.zoneId.toNat (p.1.chunkId.toNat + p.1.sizeIdx.toNat - 1) + 8)
    c.entries (fun e he hk i hi => ?_) (fun e he hs i hi => ?_) (fun _ _ => rfl) a ?_
  · rcases prepAll_entry heap hc he with h | ⟨p, hp, c', hc', he'⟩
    · exact absurd h (List.not_mem_nil _)
    · obtain ⟨hk', h1, haddr⟩ := (prepOperationHdr_entry heap (hin p hp) hc' he').1 hk
      exact ⟨p, hp, hk', h1, by omega, by omega⟩
  · rintro ⟨p, hp, hk, h1, hlo, hhi⟩
    rcases prepAll_entry heap hc he with h | ⟨q, hq, c', hc', he'⟩
    · exact absurd h (List.not_mem_nil _)
    · obtain ⟨hrun, haddr⟩ := (prepOperationHdr_entry heap (hin q hq) hc' he').2 hs
      obtain ⟨hcq, hbit⟩ := (hin q hq).2 hrun
      obtain ⟨hwlo, hwhi⟩ := runBlockWord_mem_chunks L heap hcq hbit
      have hend := ((hin p hp).1 hk).2
      have := chunkHdrAddr_disjoint_chunks L heap (z := p.1.zoneId.toNat)
        (show p.1.chunkId.toNat + p.1.sizeIdx.toNat - 1 < L.maxChunk by omega) hwlo hwhi
      omega
  · rintro ⟨p, hp, hk, h1, hlo, hhi⟩
    rcases ha p hp hk h1 with h | h <;> omega

theorem commitBatch_replay_hugeBlockHeap :
    operationProcess hugeBlockHeap.mem (replayEntries
        ((prepAll specLayout hugeBlockHeap ⟨[]⟩ hugeRunOps).toOption.getD ⟨[]⟩).entries)
        (chunkHdrAddr specLayout hugeBlockHeap 0 0) =
      operationProcess hugeBlockHeap.mem
        ((prepAll specLayout hugeBlockHeap ⟨[]⟩ hugeRunOps).toOption.getD ⟨[]⟩).entries
        (chunkHdrAddr specLayout hugeBlockHeap 0 0) :=
  commitBatch_replay hugeBlockHeap hugeRunOps (by decide) rfl _ (by decide)

end Replay

theorem commitBatch_eq_commitEach_hugeBlockHeap :
    commitBatch specLayout hugeBlockHeap hugeRunOps = commitEach specLayout hugeBlockHeap hugeRunOps :=
  commitBatch_eq_commitEach hugeBlockHeap hugeRunOps (by decide) (by decide)

end Memblock
