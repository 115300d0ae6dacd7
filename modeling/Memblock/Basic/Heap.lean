import Memblock.Basic.Memory

set_option autoImplicit false

/-! # The heap and its external collaborators

What `memblock.c` consumes from outside: the heap (`heap.h`: the address arithmetic that
finds a zone, a chunk header, a chunk and a run), the macros of `util.h` and `memblock.h`
(`HEAP_PTR_TO_OFF`, `ALIGN_UP`, `BIT_IS_CLR`, `CALC_SIZE_IDX`) and the redo log of
`operation.h` (an operation context that collects entries and applies them at commit).
None of these is among the sources; each is modelled from the spec's description of it.

Addresses are natural numbers (pointers into the mapping); a pointer cast to `uintptr_t`
or `size_t` becomes a 64-bit vector, and all arithmetic on such values wraps.
-/

namespace Memblock

/-- Modelled from the spec: `struct palloc_heap` as this file uses it — the pool's base
address `heap->base` (the origin of heap offsets), the address `heap->layout` of the heap
layout, and the bytes of the mapping. -/
structure PallocHeap where
  base : Nat
  layout : Nat
  mem : Mem

/-- A heap whose memory is replaced. -/
def PallocHeap.withMem (heap : PallocHeap) (mem : Mem) : PallocHeap := { heap with mem }

@[simp] theorem PallocHeap.withMem_mem (heap : PallocHeap) (mem : Mem) :
    (heap.withMem mem).mem = mem := rfl

@[simp] theorem PallocHeap.withMem_base (heap : PallocHeap) (mem : Mem) :
    (heap.withMem mem).base = heap.base := rfl

@[simp] theorem PallocHeap.withMem_layout (heap : PallocHeap) (mem : Mem) :
    (heap.withMem mem).layout = heap.layout := rfl

@[simp] theorem PallocHeap.withMem_withMem (heap : PallocHeap) (mem mem' : Mem) :
    (heap.withMem mem).withMem mem' = heap.withMem mem' := rfl

@[simp] theorem PallocHeap.withMem_self (heap : PallocHeap) : heap.withMem heap.mem = heap := rfl

/-! ## Address arithmetic of `heap.h` -/

section Addresses

variable (L : Layout) (heap : PallocHeap)

/-- `&heap->layout->zone0`. -/
def zone0 : Nat := heap.layout + L.heapHeaderSize

/-- `ZID_TO_ZONE(heap->layout, zone_id)`. -/
def zidToZone (zoneId : Nat) : Nat := zone0 L heap + L.zoneMaxSize * zoneId

/-- `&z->chunk_headers[chunk_id]`: the header slot of a chunk. -/
def chunkHdrAddr (zoneId chunkId : Nat) : Nat :=
  zidToZone L heap zoneId + L.zoneHeaderSize + 8 * chunkId

/-- `&z->chunks[chunk_id]`: the first byte of a chunk. -/
def chunkAddr (zoneId chunkId : Nat) : Nat :=
  zidToZone L heap zoneId + L.sizeofZone + L.chunkSize * chunkId

/-- Modelled from the spec: `heap_get_chunk_hdr(heap, m)`. -/
def heapGetChunkHdr (m : MemoryBlock) : Nat := chunkHdrAddr L heap m.zoneId.toNat m.chunkId.toNat

/-- Modelled from the spec: `heap_get_chunk(heap, m)`; its `->data` is the same address. -/
def heapGetChunk (m : MemoryBlock) : Nat := chunkAddr L heap m.zoneId.toNat m.chunkId.toNat

/-- Modelled from the spec: `heap_get_chunk_run(heap, m)`, the chunk seen as a run. -/
def heapGetChunkRun (m : MemoryBlock) : Nat := heapGetChunk L heap m

/-! The addresses depend on the layout only, not on the bytes of the mapping. -/

variable (mem : Mem) (m : MemoryBlock)

@[simp] theorem zidToZone_withMem (zoneId : Nat) :
    zidToZone L (heap.withMem mem) zoneId = zidToZone L heap zoneId := rfl

@[simp] theorem chunkHdrAddr_withMem (zoneId chunkId : Nat) :
    chunkHdrAddr L (heap.withMem mem) zoneId chunkId = chunkHdrAddr L heap zoneId chunkId := rfl

@[simp] theorem chunkAddr_withMem (zoneId chunkId : Nat) :
    chunkAddr L (heap.withMem mem) zoneId chunkId = chunkAddr L heap zoneId chunkId := rfl

@[simp] theorem heapGetChunkHdr_withMem :
    heapGetChunkHdr L (heap.withMem mem) m = heapGetChunkHdr L heap m := rfl

@[simp] theorem heapGetChunk_withMem :
    heapGetChunk L (heap.withMem mem) m = heapGetChunk L heap m := rfl

@[simp] theorem heapGetChunkRun_withMem :
    heapGetChunkRun L (heap.withMem mem) m = heapGetChunkRun L heap m := rfl

end Addresses

/-! ## The fields of a run

Modelled from the spec: `struct chunk_run` holds `block_size`, `alignment`, the bitmap
words and then, `RUN_METASIZE` bytes from its start, the data. -/

/-- `&run->block_size`. -/
def runBlockSizeField (run : Nat) : Nat := run

/-- `&run->alignment`. -/
def runAlignmentField (run : Nat) : Nat := run + 8

/-- `&run->bitmap[i]`. -/
def runBitmapField (run i : Nat) : Nat := run + 16 + 8 * i

/-- `&run->data`. -/
def runDataField (L : Layout) (run : Nat) : Nat := run + L.runMetaSize

/-! ## Chunk headers -/

/-- `struct chunk_header`. -/
structure ChunkHeader where
  type : BitVec 16
  flags : BitVec 16
  sizeIdx : BitVec 32
deriving DecidableEq, Repr

/-- The chunk header at `hdr`: `type`, `flags` and `size_idx` at byte offsets 0, 2, 4. -/
def readChunkHeader (mem : Mem) (hdr : Nat) : ChunkHeader :=
  ⟨load16 mem hdr, load16 mem (hdr + 2), load32 mem (hdr + 4)⟩

/-- A chunk header is read from its 8 bytes only. -/
theorem readChunkHeader_congr {mem mem' : Mem} {hdr : Nat}
    (h : ∀ a, hdr ≤ a → a < hdr + 8 → mem a = mem' a) :
    readChunkHeader mem hdr = readChunkHeader mem' hdr := by
  simp only [readChunkHeader, load16, load32, ChunkHeader.mk.injEq]
  refine ⟨congrArg _ ?_, congrArg _ ?_, congrArg _ ?_⟩ <;>
    exact loadLE_congr fun i hi => h _ (by omega) (by omega)

/-- A store that misses the 8 bytes of a chunk header leaves it unchanged. -/
theorem readChunkHeader_storeLE_of_disjoint (mem : Mem) {a n v hdr : Nat}
    (h : hdr + 8 ≤ a ∨ a + n ≤ hdr) :
    readChunkHeader (storeLE mem a n v) hdr = readChunkHeader mem hdr := by
  simp only [readChunkHeader, load16, load32,
    loadLE_storeLE_of_disjoint mem (show hdr + 2 ≤ a ∨ a + n ≤ hdr by omega),
    loadLE_storeLE_of_disjoint mem (show hdr + 2 + 2 ≤ a ∨ a + n ≤ hdr + 2 by omega),
    loadLE_storeLE_of_disjoint mem (show hdr + 4 + 4 ≤ a ∨ a + n ≤ hdr + 4 by omega)]

/-! ## Macros -/

/-- Modelled from the spec: `HEAP_PTR_TO_OFF(heap, ptr)`, the heap offset of a pointer,
`(uintptr_t)ptr - (uintptr_t)heap->base`. -/
def heapPtrToOff (heap : PallocHeap) (ptr : Nat) : BitVec 64 :=
  BitVec.ofNat 64 ptr - BitVec.ofNat 64 heap.base

/-- Modelled from the spec: `ALIGN_UP(size, align)` of `util.h`, the bit-mask rounding
`((size) + (align) - 1) & ~((align) - 1)`, which the spec reads as the least multiple of a
power-of-two `align` not below `size`. -/
def alignUp (size align : BitVec 64) : BitVec 64 := (size + align - 1) &&& ~~~(align - 1)

/-- Modelled from the spec: `BIT_IS_CLR(a, i)` of `util.h`, `!((a) & (1ULL << (i)))`. -/
def bitIsClr (a : BitVec 64) (i : Nat) : Bool := a &&& ((1 : BitVec 64) <<< i) == 0

/-- Modelled from the spec: `CALC_SIZE_IDX(unit_size, size)`, the number of units of
`unit_size` bytes that hold `size` bytes, rounded up, as a `uint32_t`:
`size == 0 ? 0 : (uint32_t)((size - 1) / unit_size + 1)`. A zero `unit_size`, where the C
division traps, gives `1` for a non-zero size here. -/
def calcSizeIdx (unitSize size : BitVec 64) : BitVec 32 :=
  if size = 0 then 0 else ((size - 1) / unitSize + 1).setWidth 32

/-! ## The redo log

Modelled from the spec: an operation context is the list of entries added to it, each an
address, a 64-bit value, an operation (`SET`, `OR`, `AND`) and a kind (persistent or
transient); committing it applies the entries in the order they were added. -/

/-- `enum redo_operation_type`. -/
inductive RedoOperation
  | set
  | or
  | and
deriving DecidableEq, Repr

/-- `enum log_type`. -/
inductive LogType
  | persistent
  | transient
deriving DecidableEq, Repr

/-- One entry of an operation context. -/
structure RedoEntry where
  addr : Nat
  value : BitVec 64
  op : RedoOperation
  kind : LogType
deriving DecidableEq, Repr

/-- `struct operation_context`: its entries, oldest first. -/
structure OperationContext where
  entries : List RedoEntry
deriving DecidableEq, Repr

/-- `operation_add_typed_entry(ctx, ptr, value, type, kind)`. -/
def operationAddTypedEntry (ctx : OperationContext) (addr : Nat) (value : BitVec 64)
    (op : RedoOperation) (kind : LogType) : OperationContext :=
  ⟨ctx.entries ++ [⟨addr, value, op, kind⟩]⟩

/-- `operation_add_entry(ctx, ptr, value, type)`: a persistent entry. -/
def operationAddEntry (ctx : OperationContext) (addr : Nat) (value : BitVec 64)
    (op : RedoOperation) : OperationContext :=
  operationAddTypedEntry ctx addr value op .persistent

/-- The effect of one entry on the memory: the 64-bit word at its address is set to, or
OR-ed or AND-ed with, its value. -/
def RedoEntry.apply (mem : Mem) (e : RedoEntry) : Mem :=
  store64 mem e.addr <|
    match e.op with
    | .set => e.value
    | .or => load64 mem e.addr ||| e.value
    | .and => load64 mem e.addr &&& e.value

/-- Committing the entries of a context, oldest first. -/
def operationProcess (mem : Mem) (entries : List RedoEntry) : Mem :=
  entries.foldl RedoEntry.apply mem

@[simp] theorem operationProcess_nil (mem : Mem) : operationProcess mem [] = mem := rfl

@[simp] theorem operationProcess_append (mem : Mem) (es es' : List RedoEntry) :
    operationProcess mem (es ++ es') = operationProcess (operationProcess mem es) es' :=
  List.foldl_append _ _ _ _

@[simp] theorem operationProcess_cons (mem : Mem) (e : RedoEntry) (es : List RedoEntry) :
    operationProcess mem (e :: es) = operationProcess (e.apply mem) es := rfl

/-- An entry writes its own 8 bytes only. -/
theorem RedoEntry.apply_of_disjoint (mem : Mem) (e : RedoEntry) {a : Nat}
    (h : a < e.addr ∨ e.addr + 8 ≤ a) : e.apply mem a = mem a := by
  rw [RedoEntry.apply, store64, storeLE_apply, if_neg (by omega)]

/-- What an entry writes into its bytes depends on nothing for a `SET`, and on those same
bytes for an `OR` or an `AND`. -/
theorem RedoEntry.apply_congr {mem mem' : Mem} (e : RedoEntry)
    (h : e.op = .set ∨ ∀ i < 8, mem (e.addr + i) = mem' (e.addr + i)) (a : Nat) :
    e.addr ≤ a → a < e.addr + 8 → e.apply mem a = e.apply mem' a := by
  intro h₁ h₂
  have hload : e.op ≠ .set → load64 mem e.addr = load64 mem' e.addr := fun hs => by
    rw [load64, load64, loadLE_congr (h.resolve_left hs)]
  rw [RedoEntry.apply, RedoEntry.apply, store64, store64, storeLE_apply, storeLE_apply,
    if_pos ⟨h₁, h₂⟩, if_pos ⟨h₁, h₂⟩]
  cases hop : e.op with
  | set => rfl
  | or => rw [hload (by rw [hop]; decide)]
  | and => rw [hload (by rw [hop]; decide)]

/-- The word an entry stores, from the word it finds at its address. -/
def RedoEntry.update (e : RedoEntry) (x : BitVec 64) : BitVec 64 :=
  match e.op with
  | .set => e.value
  | .or => x ||| e.value
  | .and => x &&& e.value

theorem RedoEntry.apply_eq (mem : Mem) (e : RedoEntry) :
    e.apply mem = store64 mem e.addr (e.update (load64 mem e.addr)) := by
  unfold RedoEntry.apply RedoEntry.update
  cases e.op <;> rfl

/-- Two entries commute: on words that do not overlap, or on one word with updates that
commute. -/
def RedoEntry.Commute (e e' : RedoEntry) : Prop :=
  (e.addr = e'.addr ∧ ∀ x, e.update (e'.update x) = e'.update (e.update x)) ∨
    e.addr + 8 ≤ e'.addr ∨ e'.addr + 8 ≤ e.addr

theorem RedoEntry.apply_comm (mem : Mem) {e e' : RedoEntry} (h : e.Commute e') :
    e'.apply (e.apply mem) = e.apply (e'.apply mem) := by
  simp only [RedoEntry.apply_eq]
  exact store64_update_comm mem _ _ h

/-- An entry that commutes with every entry of a list can be processed before or after it. -/
theorem RedoEntry.apply_operationProcess {e : RedoEntry} {es : List RedoEntry}
    (h : ∀ e' ∈ es, e.Commute e') (mem : Mem) :
    e.apply (operationProcess mem es) = operationProcess (e.apply mem) es := by
  induction es generalizing mem with
  | nil => rfl
  | cons e' es ih =>
    rw [operationProcess_cons, operationProcess_cons, ih (fun e'' he => h e'' (.tail _ he)),
      RedoEntry.apply_comm mem (h e' (.head _))]

/-- Two lists whose entries commute pairwise can be processed in either order. -/
theorem operationProcess_comm {es es' : List RedoEntry}
    (h : ∀ e ∈ es, ∀ e' ∈ es', e.Commute e') (mem : Mem) :
    operationProcess (operationProcess mem es) es' =
      operationProcess (operationProcess mem es') es := by
  induction es generalizing mem with
  | nil => rfl
  | cons e es ih =>
    rw [operationProcess_cons, ih (fun e'' he => h e'' (.tail _ he)), operationProcess_cons,
      RedoEntry.apply_operationProcess (h e (.head _))]

/-- Modelled from the spec: the entries of a context that a replay after a restart processes.
Transient entries are never replayed. -/
def replayEntries (entries : List RedoEntry) : List RedoEntry :=
  entries.filter fun e => e.kind = .persistent

@[simp] theorem replayEntries_nil : replayEntries [] = [] := rfl

theorem replayEntries_cons (e : RedoEntry) (es : List RedoEntry) :
    replayEntries (e :: es) =
      if e.kind = .persistent then e :: replayEntries es else replayEntries es := by
  by_cases h : e.kind = .persistent <;> simp [replayEntries, List.filter_cons, h]

end Memblock
