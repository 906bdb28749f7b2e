import ClockCalibration.Wire.LittleEndian
import Mathlib.Algebra.BigOperators.Fin

/-!
# Numbers and their bytes

Bytes are the digits of a number to the base 256, so writing a number as bytes and reading
bytes as a number are inverse to each other up to the width.
-/

namespace ClockCalibration.Wire

/-- Bytes stand for a number that fits into them. -/
theorem ofLittleEndian_lt (bytes : Bytes) : ofLittleEndian bytes < 256 ^ bytes.length := by
  induction bytes with
  | nil => simp [ofLittleEndian]
  | cons byte rest ih =>
      have := byte.toNat_lt
      simp only [ofLittleEndian, List.length_cons, Nat.pow_succ]
      omega

/-- Reading back the low bytes of a number loses what the width cuts off. -/
theorem ofLittleEndian_littleEndian (width n : Nat) :
    ofLittleEndian (littleEndian width n) = n % 256 ^ width := by
  induction width generalizing n with
  | zero => simp [littleEndian, ofLittleEndian, Nat.mod_one]
  | succ width ih =>
      simp only [littleEndian, ofLittleEndian, ih, UInt8.toNat_ofNat']
      rw [Nat.pow_succ (n := 256), Nat.mul_comm (256 ^ width) 256, Nat.mod_mul]

/-- The bytes of a number do not tell what the width cuts off. -/
theorem littleEndian_mod (width n : Nat) :
    littleEndian width (n % 256 ^ width) = littleEndian width n := by
  induction width generalizing n with
  | zero => rfl
  | succ width ih =>
      have hlow : UInt8.ofNat (n % 256 ^ (width + 1)) = UInt8.ofNat n := by
        apply UInt8.toNat_inj.mp
        rw [UInt8.toNat_ofNat', UInt8.toNat_ofNat', Nat.pow_succ, Nat.mod_mul_left_mod]
      rw [littleEndian, littleEndian, hlow, Nat.pow_succ, Nat.mul_comm, Nat.mod_mul_right_div_self,
        ih]

/-- The low bytes of a number come first. -/
theorem littleEndian_add (width more n : Nat) :
    littleEndian (width + more) n =
      littleEndian width n ++ littleEndian more (n / 256 ^ width) := by
  induction width generalizing n with
  | zero => rw [Nat.zero_add, Nat.pow_zero, Nat.div_one, littleEndian, List.nil_append]
  | succ width ih =>
      rw [Nat.add_right_comm, littleEndian, littleEndian, ih, Nat.div_div_eq_div_mul,
        Nat.pow_succ', List.cons_append]

/-- Bytes are recovered from the number that they stand for. -/
theorem littleEndian_ofLittleEndian (bytes : Bytes) :
    littleEndian bytes.length (ofLittleEndian bytes) = bytes := by
  induction bytes with
  | nil => rfl
  | cons byte rest ih =>
      have hlt := byte.toNat_lt
      have hdiv : (byte.toNat + 256 * ofLittleEndian rest) / 256 = ofLittleEndian rest := by omega
      have hmod : UInt8.ofNat (byte.toNat + 256 * ofLittleEndian rest) = byte := by
        apply UInt8.toNat_inj.mp
        rw [UInt8.toNat_ofNat']
        omega
      simp [littleEndian, ofLittleEndian, hdiv, hmod, ih]

/-! ## Digits -/

/-- The bytes of a number are its digits. -/
theorem getElem_littleEndian {width n i : Nat} (h : i < (littleEndian width n).length) :
    (littleEndian width n)[i].toNat = n / 256 ^ i % 256 := by
  induction width generalizing n i with
  | zero => exact absurd h (Nat.not_lt_zero i)
  | succ width ih =>
      cases i with
      | zero => simp [littleEndian]
      | succ i =>
          rw [Nat.pow_succ', ← Nat.div_div_eq_div_mul]
          exact ih (Nat.lt_of_succ_lt_succ h)

/-- The number that bytes stand for has them as its digits. -/
theorem ofLittleEndian_ofFn {width : Nat} (bytes : Fin width → UInt8) :
    ofLittleEndian (List.ofFn bytes) = ∑ i, (bytes i).toNat * 256 ^ i.val := by
  induction width with
  | zero => rfl
  | succ width ih =>
      rw [List.ofFn_succ, ofLittleEndian, ih, Fin.sum_univ_succ, Finset.mul_sum]
      simp only [Fin.val_zero, pow_zero, mul_one, Fin.val_succ, Nat.pow_succ', Nat.mul_left_comm]

theorem ofLittleEndian_toList {width : Nat} (bytes : Vector UInt8 width) :
    ofLittleEndian bytes.toList = ∑ i, (bytes.get i).toNat * 256 ^ i.val := by
  have hbytes : Vector.ofFn bytes.get = bytes := Vector.ofFn_getElem
  rw [← ofLittleEndian_ofFn, ← Vector.toList_ofFn, hbytes]

end ClockCalibration.Wire
