import Memblock.Ops.Header
import Mathlib.Data.Nat.ModEq

set_option autoImplicit false

/-! # Aligned runs

A run whose chunk header carries `CHUNK_FLAG_ALIGNED` starts its data not at `run->data`
but `run_get_alignment_padding` bytes later, so that the user data past each allocation
header is aligned. `ALIGN_UP` is the bit-mask rounding of `util.h`; for a power-of-two
alignment it rounds up to the next multiple (`toNat_alignUp`), also across the top of the
64-bit address space, where the wrap-around lands on a multiple because the alignment
divides `2 ^ 64`.

The main result, `runGetDataStart_aligned`: the padding is the least non-negative number
that aligns `run->data + header size`, and with a unit size that is a multiple of the
alignment, every block's user data is aligned.
-/

namespace Memblock

/-! ## The least padding -/

/-- The least `r` such that `x + r` is a multiple of `a`. -/
def padTo (a x : Nat) : Nat := (a - x % a) % a

theorem padTo_lt {a : Nat} (x : Nat) (ha : 0 < a) : padTo a x < a := Nat.mod_lt _ ha

theorem dvd_add_padTo {a : Nat} (x : Nat) (ha : 0 < a) : a ∣ x + padTo a x := by
  apply Nat.dvd_of_mod_eq_zero
  have hx := Nat.mod_lt x ha
  rw [Nat.add_mod, padTo, Nat.mod_mod]
  by_cases h0 : x % a = 0
  · simp [h0]
  · rw [Nat.mod_eq_of_lt (show a - x % a < a by omega), show x % a + (a - x % a) = a by omega,
      Nat.mod_self]

theorem not_dvd_of_lt_padTo {a x q : Nat} (ha : 0 < a) (hq : q < padTo a x) :
    ¬ a ∣ x + q := by
  intro hdvd
  have hp := padTo_lt x ha
  have hmod : q ≡ padTo a x [MOD a] :=
    Nat.ModEq.add_left_cancel' x ((Nat.modEq_zero_iff_dvd.2 hdvd).trans
      (Nat.modEq_zero_iff_dvd.2 (dvd_add_padTo x ha)).symm)
  rw [Nat.ModEq, Nat.mod_eq_of_lt (by omega), Nat.mod_eq_of_lt hp] at hmod
  omega

theorem padTo_congr {a x y : Nat} (h : x % a = y % a) : padTo a x = padTo a y := by
  rw [padTo, padTo, h]

/-! ## `ALIGN_UP` -/

/-- Clearing the low `j` bits of a `w`-bit number rounds it down to a multiple of `2 ^ j`. -/
theorem land_clear_low {n w j : Nat} (hn : n < 2 ^ w) (hj : j ≤ w) :
    n &&& (2 ^ w - 1 - (2 ^ j - 1)) = n / 2 ^ j * 2 ^ j := by
  have hpow : 2 ^ j ≤ 2 ^ w := Nat.pow_le_pow_right (by omega) hj
  have hsub : 2 ^ w - 1 - (2 ^ j - 1) = 2 ^ w - (2 ^ j - 1 + 1) := by
    have := Nat.two_pow_pos j
    omega
  apply Nat.eq_of_testBit_eq
  intro i
  rw [hsub, Nat.testBit_and, Nat.testBit_two_pow_sub_succ (by omega), Nat.testBit_two_pow_sub_one,
    Nat.mul_comm, Nat.testBit_mul_pow_two, ← Nat.shiftRight_eq_div_pow, Nat.testBit_shiftRight]
  by_cases hij : j ≤ i
  · rw [Nat.add_sub_cancel' hij]
    by_cases hiw : i < w
    · simp [hij, hiw, Nat.not_lt.2 hij]
    · have : n < 2 ^ i := Nat.lt_of_lt_of_le hn (Nat.pow_le_pow_right (by omega) (by omega))
      simp [Nat.testBit_lt_two_pow this]
  · simp [Nat.not_le.1 hij, hij]

/-- Rounding `t + a - 1` down to a multiple of `a` modulo `M` is rounding `t` up. -/
theorem roundDown_eq_roundUp {a M t : Nat} (ha : 0 < a) (haM : a ∣ M) (ht : t < M) :
    (t + a - 1) % M / a * a = (t + padTo a t) % M := by
  have hp := padTo_lt t ha
  have hc : a ∣ t + padTo a t := dvd_add_padTo t ha
  have hround : ∀ c r, a ∣ c → r < a → (c + r) / a * a = c := fun c r hc hr => by
    rw [Nat.add_div_of_dvd_right hc, Nat.div_eq_of_lt hr, Nat.add_zero, Nat.div_mul_cancel hc]
  have hkey : t + a - 1 = t + padTo a t + (a - 1 - padTo a t) := by omega
  by_cases hlt : t + padTo a t < M
  · have hgap : a ≤ M - (t + padTo a t) :=
      Nat.le_of_dvd (by omega) (Nat.dvd_sub' haM hc)
    rw [Nat.mod_eq_of_lt (show t + a - 1 < M by omega), Nat.mod_eq_of_lt hlt, hkey,
      hround _ _ hc (by omega)]
  · have hM : t + padTo a t = M := by
      have hgap : M + (t + padTo a t - M) = t + padTo a t := by omega
      have hd : a ∣ t + padTo a t - M := (Nat.dvd_add_right haM).1 (by rw [hgap]; exact hc)
      have := Nat.eq_zero_of_dvd_of_lt hd (by omega)
      omega
    rw [hM, Nat.mod_self, hkey, hM, Nat.add_mod_left,
      Nat.mod_eq_of_lt (show a - 1 - padTo a t < M by have := Nat.le_of_dvd (by omega) haM; omega),
      Nat.div_eq_of_lt (by omega), Nat.zero_mul]

theorem two_pow_dvd_two_pow_64 {j : Nat} (hj : j < 64) : 2 ^ j ∣ 2 ^ 64 :=
  Nat.pow_dvd_pow 2 (by omega)

/-- `ALIGN_UP(x, 2 ^ j)` is `x` rounded up to a multiple of `2 ^ j`, modulo `2 ^ 64`. -/
theorem toNat_alignUp (x : BitVec 64) {j : Nat} (hj : j < 64) :
    (alignUp x (BitVec.ofNat 64 (2 ^ j))).toNat = (x.toNat + padTo (2 ^ j) x.toNat) % 2 ^ 64 := by
  have ha : 2 ^ j < 2 ^ 64 := Nat.pow_lt_pow_right (by decide) hj
  have ha0 : 0 < 2 ^ j := Nat.two_pow_pos j
  have hx := x.isLt
  have h1 : (1 : BitVec 64).toNat = 1 := rfl
  have hmask : (BitVec.ofNat 64 (2 ^ j) - 1).toNat = 2 ^ j - 1 := by
    rw [BitVec.toNat_sub, BitVec.toNat_ofNat, Nat.mod_eq_of_lt ha, h1]
    generalize 2 ^ j = A at *
    omega
  have hsum : (x + BitVec.ofNat 64 (2 ^ j) - 1).toNat = (x.toNat + 2 ^ j - 1) % 2 ^ 64 := by
    rw [BitVec.toNat_sub, BitVec.toNat_add, BitVec.toNat_ofNat, Nat.mod_eq_of_lt ha, h1]
    generalize 2 ^ j = A at *
    omega
  rw [alignUp, BitVec.toNat_and, BitVec.toNat_not, hmask, hsum,
    land_clear_low (Nat.mod_lt _ (by decide)) hj.le,
    roundDown_eq_roundUp ha0 (two_pow_dvd_two_pow_64 hj) hx]

/-! ## The data start of an aligned run -/

section

variable (L : Layout)

/-- With `CHUNK_FLAG_ALIGNED` and a power-of-two alignment, the data start is `run->data`
plus the least padding that aligns `run->data + hsize`, and that padding is what
`run_get_alignment_padding` returns. -/
theorem runGetDataStart_eq_padTo (mem : Mem) (hdr run : Nat) (h : HeaderType) {j : Nat}
    (hj : j < 64) (hflag : (readChunkHeader mem hdr).flags &&& CHUNK_FLAG_ALIGNED ≠ 0)
    (halign : load64 mem (runAlignmentField run) = BitVec.ofNat 64 (2 ^ j)) :
    runGetDataStart L mem hdr run h =
        (runDataField L run + padTo (2 ^ j) (runDataField L run + headerTypeToSize h)) % 2 ^ 64 ∧
      (runGetAlignmentPadding L mem hdr run h).toNat =
        padTo (2 ^ j) (runDataField L run + headerTypeToSize h) := by
  have hs := headerTypeToSize_le h
  have hP : padTo (2 ^ j) (runDataField L run + headerTypeToSize h) < 2 ^ 64 :=
    Nat.lt_trans (padTo_lt _ (Nat.two_pow_pos j)) (Nat.pow_lt_pow_right (by decide) hj)
  have hbase : (BitVec.ofNat 64 (runDataField L run) +
      BitVec.ofNat 64 (headerTypeToSize h)).toNat = (runDataField L run + headerTypeToSize h) % 2 ^ 64 := by
    simp only [BitVec.toNat_add, BitVec.toNat_ofNat, Nat.add_mod_mod, Nat.mod_add_mod]
  have hstart : runGetDataStart L mem hdr run h =
      (runDataField L run + padTo (2 ^ j) (runDataField L run + headerTypeToSize h)) % 2 ^ 64 := by
    rw [runGetDataStart, if_pos hflag, halign]
    simp only [BitVec.toNat_sub, toNat_alignUp _ hj, hbase, BitVec.toNat_ofNat,
      padTo_congr (Nat.mod_mod_of_dvd _ (two_pow_dvd_two_pow_64 hj))]
    generalize padTo (2 ^ j) (runDataField L run + headerTypeToSize h) = P at *
    omega
  refine ⟨hstart, ?_⟩
  rw [runGetAlignmentPadding, BitVec.toNat_sub, BitVec.toNat_ofNat, BitVec.toNat_ofNat, hstart]
  generalize padTo (2 ^ j) (runDataField L run + headerTypeToSize h) = P at *
  omega

/-- **User pointers of aligned runs are aligned.** For a run whose chunk header carries
`CHUNK_FLAG_ALIGNED` with alignment `2 ^ j`, at any address (the sums are taken modulo
`2 ^ 64`, as the C code's are), for any flavor and any unit index: the data start is `run->data + p` with `p` the padding, `p` is the least
non-negative number that makes `run->data + p + hsize` a multiple of `2 ^ j`; and when the
unit size is a non-zero multiple of `2 ^ j`, the user data of the block is aligned. -/
theorem runGetDataStart_aligned (heap : PallocHeap) (m : MemoryBlock) {j : Nat} (hj : j < 64)
    (hflag : (readChunkHeader heap.mem (heapGetChunkHdr L heap m)).flags &&& CHUNK_FLAG_ALIGNED ≠ 0)
    (halign : load64 heap.mem (runAlignmentField (heapGetChunkRun L heap m)) =
      BitVec.ofNat 64 (2 ^ j)) :
    let run := heapGetChunkRun L heap m
    let d := runDataField L run
    let hs := headerTypeToSize m.headerType
    let p := (runGetAlignmentPadding L heap.mem (heapGetChunkHdr L heap m) run m.headerType).toNat
    let bs := load64 heap.mem (runBlockSizeField run)
    runGetDataStart L heap.mem (heapGetChunkHdr L heap m) run m.headerType = (d + p) % 2 ^ 64 ∧
      p < 2 ^ j ∧ 2 ^ j ∣ d + p + hs ∧ (∀ q, q < p → ¬ 2 ^ j ∣ d + q + hs) ∧
      (m.mOps = .run → bs ≠ 0 → 2 ^ j ∣ bs.toNat →
        ∃ real, runGetRealData L heap m = .ok real ∧ blockGetUserData L heap m = .ok (real + hs) ∧
          2 ^ j ∣ real + hs) := by
  intro run d hs p bs
  have hspec := runGetDataStart_eq_padTo L heap.mem (heapGetChunkHdr L heap m) run
    m.headerType hj hflag halign
  have hpad : p = padTo (2 ^ j) (d + hs) := hspec.2
  have hstart : runGetDataStart L heap.mem (heapGetChunkHdr L heap m) run m.headerType =
      (d + p) % 2 ^ 64 := hpad ▸ hspec.1
  have ha0 : 0 < 2 ^ j := Nat.two_pow_pos j
  have ha64 := two_pow_dvd_two_pow_64 hj
  have hdvd : 2 ^ j ∣ d + p + hs := by
    rw [hpad, Nat.add_right_comm]
    exact dvd_add_padTo _ ha0
  refine ⟨hstart, hpad ▸ padTo_lt _ ha0, hdvd, fun q hq => ?_, fun hrun hbs0 hbs => ?_⟩
  · rw [Nat.add_right_comm]
    exact not_dvd_of_lt_padTo ha0 (hpad ▸ hq)
  · have hreal := runGetRealData_eq L hbs0
    refine ⟨_, hreal, blockGetUserData_eq L ((getRealData_run L hrun).trans hreal), ?_⟩
    have hstart' : 2 ^ j ∣ (d + p) % 2 ^ 64 + hs := by
      have hsplit : (d + p) % 2 ^ 64 + hs + 2 ^ 64 * ((d + p) / 2 ^ 64) = d + p + hs := by
        have := Nat.mod_add_div (d + p) (2 ^ 64)
        omega
      exact (Nat.dvd_add_left (Nat.dvd_trans ha64 (Nat.dvd_mul_right _ _))).1 (hsplit ▸ hdvd)
    have hblocks : 2 ^ j ∣ (bs * m.blockOff.setWidth 64).toNat := by
      rw [BitVec.toNat_mul, Nat.dvd_mod_iff ha64]
      exact Nat.dvd_trans hbs (Nat.dvd_mul_right _ _)
    rw [hstart, Nat.add_right_comm]
    exact Nat.dvd_add hstart' hblocks

end

/-- A two-chunk run at chunk 0 of zone 0 of a heap mapped at `2 ^ 40`: compact headers,
`CHUNK_FLAG_ALIGNED`, alignment and unit size 4096. -/
def alignedRunHeap : PallocHeap :=
  let heap : PallocHeap := ⟨2 ^ 40, 2 ^ 40 + 4096, fun _ => 0⟩
  let run := chunkAddr specLayout heap 0 0
  heap.withMem <|
    store64 (store64 (store64 heap.mem (chunkHdrAddr specLayout heap 0 0)
      (chunkGetChunkHdrValue CHUNK_TYPE_RUN
        (CHUNK_FLAG_COMPACT_HEADER ||| CHUNK_FLAG_ALIGNED) 2))
      (runBlockSizeField run) 4096) (runAlignmentField run) 4096

theorem runGetDataStart_aligned_alignedRunHeap :
    let m : MemoryBlock := ⟨0, 0, 1, 70, .run, .compact, .run⟩
    let run := heapGetChunkRun specLayout alignedRunHeap m
    let d := runDataField specLayout run
    let hs := headerTypeToSize m.headerType
    let p := (runGetAlignmentPadding specLayout alignedRunHeap.mem
      (heapGetChunkHdr specLayout alignedRunHeap m) run m.headerType).toNat
    let bs := load64 alignedRunHeap.mem (runBlockSizeField run)
    runGetDataStart specLayout alignedRunHeap.mem (heapGetChunkHdr specLayout alignedRunHeap m)
        run m.headerType = (d + p) % 2 ^ 64 ∧
      p < 2 ^ 12 ∧ 2 ^ 12 ∣ d + p + hs ∧ (∀ q, q < p → ¬ 2 ^ 12 ∣ d + q + hs) ∧
      (m.mOps = .run → bs ≠ 0 → 2 ^ 12 ∣ bs.toNat →
        ∃ real, runGetRealData specLayout alignedRunHeap m = .ok real ∧
          blockGetUserData specLayout alignedRunHeap m = .ok (real + hs) ∧ 2 ^ 12 ∣ real + hs) :=
  runGetDataStart_aligned specLayout alignedRunHeap _ (by decide) (by decide) (by decide)

end Memblock
