import Memblock.Basic.Types
import Mathlib.Logic.Function.Basic

set_option autoImplicit false

/-! # Byte-addressed memory

The persistent heap is mapped memory, one byte per address. Every access of `memblock.c`
is a little-endian load or store of a C integer (`uint16_t`, `uint32_t`, `uint64_t`), or a
`memcpy` of a local header image. This file gives the three primitives `loadLE`, `storeLE`
and `memcpy` on `Mem`, the typed accesses on top of them, and the two facts every later
proof uses: a load inside a store reads the stored bytes back (`loadLE_storeLE_of_le`), and
a load outside it is unchanged (`loadLE_storeLE_of_disjoint`), with the same pair for
`memcpy`.
-/

namespace Memblock

/-- The mapped memory: the byte at each address. -/
abbrev Mem := Nat → BitVec 8

/-- The little-endian number held by the `n` bytes at `a`. -/
def loadLE (mem : Mem) (a : Nat) : Nat → Nat
  | 0 => 0
  | n + 1 => (mem a).toNat + 256 * loadLE mem (a + 1) n

/-- Stores the low `n` bytes of `v` at `a`, least significant byte first. -/
def storeLE (mem : Mem) (a : Nat) : Nat → Nat → Mem
  | 0, _ => mem
  | n + 1, v => Function.update (storeLE mem (a + 1) n (v / 256)) a (BitVec.ofNat 8 v)

/-- `memcpy(dst, src, n)`: the first `n` bytes of the image `src` copied to `dst`. -/
def memcpy (mem : Mem) (dst : Nat) (src : Mem) (n : Nat) : Mem :=
  fun x => if dst ≤ x ∧ x < dst + n then src (x - dst) else mem x

/-! ## Bytes of a store -/

theorem storeLE_apply (mem : Mem) (a n v x : Nat) :
    storeLE mem a n v x =
      if a ≤ x ∧ x < a + n then BitVec.ofNat 8 (v / 256 ^ (x - a)) else mem x := by
  induction n generalizing a v with
  | zero => rw [storeLE, if_neg (by omega)]
  | succ n ih =>
    rw [storeLE, Function.update_apply, ih]
    by_cases hx : x = a
    · subst hx; simp
    · have hpow : 256 ^ (x - a) = 256 * 256 ^ (x - (a + 1)) ∨ ¬ a + 1 ≤ x := by
        rcases Nat.lt_or_ge x (a + 1) with h | h
        · exact .inr (by omega)
        · exact .inl (by rw [← Nat.pow_succ']; congr 1; omega)
      rcases hpow with hpow | hpow
      · simp only [hx, if_false, hpow, Nat.div_div_eq_div_mul]
        congr 1
        simp only [eq_iff_iff]
        omega
      · simp only [hx, if_false, hpow, false_and]
        rw [if_neg (by omega)]

theorem memcpy_apply (mem src : Mem) (dst n x : Nat) :
    memcpy mem dst src n x = if dst ≤ x ∧ x < dst + n then src (x - dst) else mem x := rfl

/-! ## Loads -/

theorem loadLE_lt (mem : Mem) (a n : Nat) : loadLE mem a n < 256 ^ n := by
  induction n generalizing a with
  | zero => simp [loadLE]
  | succ n ih =>
    have hb : (mem a).toNat < 256 := (mem a).isLt
    have := ih (a + 1)
    rw [loadLE, Nat.pow_succ']
    omega

theorem loadLE_zero (a n : Nat) : loadLE (fun _ => 0) a n = 0 := by
  induction n generalizing a with
  | zero => rfl
  | succ n ih => rw [loadLE, ih]; rfl

/-- A load only reads the bytes it covers. -/
theorem loadLE_congr {m m' : Mem} {b b' k : Nat}
    (h : ∀ i, i < k → m (b + i) = m' (b' + i)) : loadLE m b k = loadLE m' b' k := by
  induction k generalizing b b' with
  | zero => rfl
  | succ k ih =>
    have h0 := h 0 (by omega)
    have hrest : ∀ i, i < k → m (b + 1 + i) = m' (b' + 1 + i) := fun i hi => by
      rw [Nat.add_assoc, Nat.add_assoc, Nat.add_comm 1 i]
      exact h (i + 1) (by omega)
    simp only [Nat.add_zero] at h0
    rw [loadLE, loadLE, h0, ih hrest]

/-- The `k + n` bytes at `a` load as the first `k`, and the next `n` above them. -/
theorem loadLE_add (mem : Mem) (a k n : Nat) :
    loadLE mem a (k + n) = loadLE mem a k + 256 ^ k * loadLE mem (a + k) n := by
  induction k generalizing a with
  | zero => simp [loadLE]
  | succ k ih =>
    rw [Nat.succ_add, loadLE, ih, loadLE, Nat.pow_succ', show a + 1 + k = a + (k + 1) by omega,
      Nat.mul_add, Nat.mul_assoc]
    omega

/-- Bytes holding the little-endian digits of `v` load as `v` modulo the width. -/
theorem loadLE_eq_of_bytes {m : Mem} {b k v : Nat}
    (h : ∀ i, i < k → m (b + i) = BitVec.ofNat 8 (v / 256 ^ i)) :
    loadLE m b k = v % 256 ^ k := by
  induction k generalizing b v with
  | zero => simp [loadLE, Nat.mod_one]
  | succ k ih =>
    have h0 := h 0 (by omega)
    simp only [Nat.add_zero, Nat.pow_zero, Nat.div_one] at h0
    have hrest : loadLE m (b + 1) k = v / 256 % 256 ^ k := ih fun i hi => by
      rw [Nat.div_div_eq_div_mul, ← Nat.pow_succ', Nat.add_assoc, Nat.add_comm 1 i]
      exact h (i + 1) (by omega)
    have hsplit : v % 256 ^ (k + 1) = v % 256 + 256 * (v / 256 % 256 ^ k) := by
      rw [Nat.pow_succ', Nat.mod_mul]
    rw [loadLE, h0, hrest, BitVec.toNat_ofNat, hsplit]

theorem loadLE_storeLE_of_le (mem : Mem) {a n v b k : Nat} (hab : a ≤ b)
    (hend : b + k ≤ a + n) :
    loadLE (storeLE mem a n v) b k = v / 256 ^ (b - a) % 256 ^ k := by
  apply loadLE_eq_of_bytes
  intro i hi
  rw [storeLE_apply, if_pos (by omega), Nat.div_div_eq_div_mul, ← Nat.pow_add]
  congr 3
  omega

theorem loadLE_storeLE_of_disjoint (mem : Mem) {a n v b k : Nat}
    (h : b + k ≤ a ∨ a + n ≤ b) :
    loadLE (storeLE mem a n v) b k = loadLE mem b k :=
  loadLE_congr fun i hi => by rw [storeLE_apply, if_neg (by omega)]

theorem loadLE_memcpy_of_le (mem src : Mem) {dst n b k : Nat} (hb : dst ≤ b)
    (hend : b + k ≤ dst + n) :
    loadLE (memcpy mem dst src n) b k = loadLE src (b - dst) k :=
  loadLE_congr fun i hi => by
    rw [memcpy_apply, if_pos (by omega), show b + i - dst = b - dst + i by omega]

theorem loadLE_memcpy_of_disjoint (mem src : Mem) {dst n b k : Nat}
    (h : b + k ≤ dst ∨ dst + n ≤ b) :
    loadLE (memcpy mem dst src n) b k = loadLE mem b k :=
  loadLE_congr fun i hi => by rw [memcpy_apply, if_neg (by omega)]

/-! ## Typed accesses -/

/-- A `uint16_t` load. -/
def load16 (mem : Mem) (a : Nat) : BitVec 16 := BitVec.ofNat 16 (loadLE mem a 2)

/-- A `uint32_t` load. -/
def load32 (mem : Mem) (a : Nat) : BitVec 32 := BitVec.ofNat 32 (loadLE mem a 4)

/-- A `uint64_t` load. -/
def load64 (mem : Mem) (a : Nat) : BitVec 64 := BitVec.ofNat 64 (loadLE mem a 8)

/-- A `uint16_t` store. -/
def store16 (mem : Mem) (a : Nat) (v : BitVec 16) : Mem := storeLE mem a 2 v.toNat

/-- A `uint64_t` store. -/
def store64 (mem : Mem) (a : Nat) (v : BitVec 64) : Mem := storeLE mem a 8 v.toNat

@[simp] theorem load64_store64_self (mem : Mem) (a : Nat) (v : BitVec 64) :
    load64 (store64 mem a v) a = v := by
  rw [load64, store64, loadLE_storeLE_of_le mem (Nat.le_refl a) (Nat.le_refl _), Nat.sub_self,
    Nat.pow_zero, Nat.div_one, show (256 : Nat) ^ 8 = 2 ^ 64 from rfl,
    Nat.mod_eq_of_lt v.isLt, BitVec.ofNat_toNat, BitVec.setWidth_eq]

theorem load64_store64_of_disjoint (mem : Mem) {a b : Nat} (v : BitVec 64)
    (h : b + 8 ≤ a ∨ a + 8 ≤ b) : load64 (store64 mem a v) b = load64 mem b := by
  simp only [load64, store64, loadLE_storeLE_of_disjoint mem h]

theorem store64_store64_of_disjoint (mem : Mem) {a b : Nat} (u v : BitVec 64)
    (h : a + 8 ≤ b ∨ b + 8 ≤ a) :
    store64 (store64 mem a u) b v = store64 (store64 mem b v) a u := by
  funext x
  simp only [store64, storeLE_apply]
  split_ifs <;> first | rfl | omega

/-- A second store to the same bytes overwrites the first. -/
theorem storeLE_storeLE_same (mem : Mem) (a n u v : Nat) :
    storeLE (storeLE mem a n u) a n v = storeLE mem a n v := by
  funext x
  simp only [storeLE_apply]
  split_ifs <;> rfl

theorem store64_store64_same (mem : Mem) (a : Nat) (u v : BitVec 64) :
    store64 (store64 mem a u) a v = store64 mem a v :=
  storeLE_storeLE_same mem a 8 u.toNat v.toNat

/-- Two read-modify-write stores of a word commute when they are on the same word with
updates that commute, or on words that do not overlap. -/
theorem store64_update_comm (mem : Mem) {w w' : Nat} (f f' : BitVec 64 → BitVec 64)
    (h : (w = w' ∧ ∀ x, f (f' x) = f' (f x)) ∨ w + 8 ≤ w' ∨ w' + 8 ≤ w) :
    store64 (store64 mem w (f (load64 mem w))) w'
        (f' (load64 (store64 mem w (f (load64 mem w))) w')) =
      store64 (store64 mem w' (f' (load64 mem w'))) w
        (f (load64 (store64 mem w' (f' (load64 mem w'))) w)) := by
  rcases h with ⟨rfl, hf⟩ | hd
  · rw [load64_store64_self, load64_store64_self, store64_store64_same, store64_store64_same, hf]
  · rw [load64_store64_of_disjoint mem _ hd, load64_store64_of_disjoint mem _ hd.symm,
      store64_store64_of_disjoint mem _ _ hd]

end Memblock
