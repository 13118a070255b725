import Mathlib.Algebra.Ring.Nat
import Mathlib.Data.List.Basic

/-! Words as bytes: eight bytes in little-endian order, any number of bytes in big-endian
order. -/

namespace Collections

/-- The bytes of a `uint64_t` in memory. -/
def littleEndian (n : Nat) : List UInt8 :=
  (List.range 8).map fun i => (n / 256 ^ i % 256).toUInt8

def ofLittleEndian (bytes : List UInt8) : Nat := bytes.foldr (fun byte n => n * 256 + byte.toNat) 0

@[simp] theorem length_littleEndian (n : Nat) : (littleEndian n).length = 8 := by
  simp [littleEndian]

theorem ofLittleEndian_digits (k n : Nat) :
    ofLittleEndian ((List.range k).map fun i => (n / 256 ^ i % 256).toUInt8) = n % 256 ^ k := by
  induction k generalizing n with
  | zero => simp [ofLittleEndian, Nat.mod_one]
  | succ k ih =>
    have htail : (List.range k).map ((fun i => (n / 256 ^ i % 256).toUInt8) ∘ Nat.succ) =
        (List.range k).map fun i => (n / 256 / 256 ^ i % 256).toUInt8 := by
      refine List.map_congr_left fun i _ => ?_
      rw [Function.comp, Nat.succ_eq_add_one, Nat.pow_succ', Nat.div_div_eq_div_mul]
    have hhead : (n / 256 ^ 0 % 256).toUInt8.toNat = n % 256 := by
      simp [Nat.toUInt8, UInt8.toNat_ofNat']
    have hrest := ih (n / 256)
    unfold ofLittleEndian at hrest ⊢
    rw [List.range_succ_eq_map, List.map_cons, List.map_map, htail, List.foldr_cons, hhead, hrest, Nat.pow_succ', Nat.mod_mul]
    omega

theorem ofLittleEndian_littleEndian {n : Nat} (h : n < 2 ^ 64) :
    ofLittleEndian (littleEndian n) = n := by
  rw [littleEndian, ofLittleEndian_digits]
  exact Nat.mod_eq_of_lt h

theorem ofLittleEndian_lt (bytes : List UInt8) : ofLittleEndian bytes < 256 ^ bytes.length := by
  induction bytes with
  | nil => simp [ofLittleEndian]
  | cons byte bytes ih =>
    have hb := byte.toNat_lt
    have hcons : ofLittleEndian (byte :: bytes) = ofLittleEndian bytes * 256 + byte.toNat := rfl
    rw [hcons, List.length_cons, pow_succ]
    omega

theorem littleEndian_ofLittleEndian {bytes : List UInt8} (h : bytes.length = 8) :
    littleEndian (ofLittleEndian bytes) = bytes := by
  have hdigit : ∀ (bytes : List UInt8) (i : Nat), i < bytes.length →
      (ofLittleEndian bytes / 256 ^ i % 256).toUInt8 = bytes.getD i 0 := by
    intro bytes
    induction bytes with
    | nil => exact fun i hi => absurd hi (Nat.not_lt_zero i)
    | cons byte bytes ih =>
      intro i hi
      have hb := byte.toNat_lt
      have hcons : ofLittleEndian (byte :: bytes) = ofLittleEndian bytes * 256 + byte.toNat := rfl
      cases i with
      | zero =>
        have hmod : ofLittleEndian (byte :: bytes) / 256 ^ 0 % 256 = byte.toNat := by
          rw [hcons, pow_zero, Nat.div_one]
          omega
        rw [hmod]
        simp
      | succ i =>
        have hdiv : ofLittleEndian (byte :: bytes) / 256 ^ (i + 1) = ofLittleEndian bytes / 256 ^ i := by
          rw [pow_succ, Nat.mul_comm, ← Nat.div_div_eq_div_mul, hcons]
          congr 1
          omega
        rw [hdiv, ih i (by simpa using hi)]
        rfl
  refine List.ext_getElem (by rw [length_littleEndian, h]) fun i hi hi' => ?_
  have hd := hdigit bytes i hi'
  simp only [littleEndian, List.getElem_map, List.getElem_range]
  rw [hd, List.getD_eq_getElem?_getD, List.getElem?_eq_getElem hi', Option.getD_some]

/-- The `k` low bytes of a word, the highest one first. -/
def bigEndian (k n : Nat) : List UInt8 :=
  (List.range k).reverse.map fun i => (n / 256 ^ i % 256).toUInt8

def ofBigEndian (bytes : List UInt8) : Nat := bytes.foldl (fun n byte => n * 256 + byte.toNat) 0

@[simp] theorem length_bigEndian (k n : Nat) : (bigEndian k n).length = k := by
  simp [bigEndian]

theorem bigEndian_succ (k n : Nat) :
    bigEndian (k + 1) n = (n / 256 ^ k % 256).toUInt8 :: bigEndian k n := by
  simp [bigEndian, List.range_succ]

theorem ofBigEndian_bigEndian {k n : Nat} (h : n < 256 ^ k) : ofBigEndian (bigEndian k n) = n := by
  have hall : ∀ k a, (bigEndian k n).foldl (fun n byte => n * 256 + byte.toNat) a =
      a * 256 ^ k + n % 256 ^ k := by
    intro k
    induction k with
    | zero =>
      intro a
      simp [bigEndian, Nat.mod_one]
    | succ k ih =>
      intro a
      have hb : (n / 256 ^ k % 256).toUInt8.toNat = n / 256 ^ k % 256 := by
        simp [Nat.toUInt8, UInt8.toNat_ofNat']
      have hm : n % 256 ^ (k + 1) = n / 256 ^ k % 256 * 256 ^ k + n % 256 ^ k := by
        rw [pow_succ, Nat.mod_mul, Nat.add_comm, Nat.mul_comm]
      rw [bigEndian_succ, List.foldl_cons, ih, hb, hm, pow_succ, Nat.add_mul, Nat.mul_assoc,
        Nat.mul_comm 256, Nat.add_assoc]
  rw [ofBigEndian, hall, Nat.zero_mul, Nat.zero_add, Nat.mod_eq_of_lt h]

theorem ofBigEndian_lt (bytes : List UInt8) : ofBigEndian bytes < 256 ^ bytes.length := by
  have hall : ∀ bytes : List UInt8, ∀ n, bytes.foldl (fun n byte => n * 256 + byte.toNat) n < (n + 1) * 256 ^ bytes.length := by
    intro bytes
    induction bytes with
    | nil => simp
    | cons byte bytes ih =>
      intro n
      have hbyte := byte.toNat_lt
      have hstep : n * 256 + byte.toNat + 1 ≤ (n + 1) * 256 := by omega
      calc (byte :: bytes).foldl (fun n byte => n * 256 + byte.toNat) n
          < (n * 256 + byte.toNat + 1) * 256 ^ bytes.length := ih _
        _ ≤ (n + 1) * 256 * 256 ^ bytes.length := Nat.mul_le_mul_right _ hstep
        _ = (n + 1) * 256 ^ (byte :: bytes).length := by
          rw [List.length_cons, pow_succ, Nat.mul_assoc, Nat.mul_comm 256]
  simpa [ofBigEndian] using hall bytes 0

end Collections
