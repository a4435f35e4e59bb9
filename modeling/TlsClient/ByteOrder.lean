import Mathlib.Algebra.Order.Ring.Nat

/-!
# Numbers in bytes

A number in memory is a list of bytes, the low one first.  The two directions are
inverse to each other for numbers that fit.
-/

namespace ByteOrder

/-- The lowest `count` bytes of a number. -/
def toBytes : Nat → Nat → List UInt8
  | 0, _ => []
  | count + 1, value => UInt8.ofNat value :: toBytes count (value / 256)

def ofBytes : List UInt8 → Nat
  | [] => 0
  | byte :: bytes => byte.toNat + 256 * ofBytes bytes

@[simp]
theorem length_toBytes (count value : Nat) : (toBytes count value).length = count := by
  induction count generalizing value with
  | zero => rfl
  | succ count ih => simp [toBytes, ih]

theorem ofBytes_lt (bytes : List UInt8) : ofBytes bytes < 256 ^ bytes.length := by
  induction bytes with
  | nil => simp [ofBytes]
  | cons byte bytes ih =>
      have low := byte.toNat_lt
      simp only [ofBytes, List.length_cons, pow_succ]
      omega

theorem ofBytes_toBytes {count value : Nat} (fits : value < 256 ^ count) :
    ofBytes (toBytes count value) = value := by
  induction count generalizing value with
  | zero =>
      simp only [pow_zero] at fits
      simp only [toBytes, ofBytes]
      omega
  | succ count ih =>
      have high : value / 256 < 256 ^ count := by
        rw [pow_succ] at fits
        omega
      simp only [toBytes, ofBytes, ih high, UInt8.toNat_ofNat']
      omega

theorem toBytes_ofBytes (bytes : List UInt8) : toBytes bytes.length (ofBytes bytes) = bytes := by
  induction bytes with
  | nil => rfl
  | cons byte bytes ih =>
      have low := byte.toNat_lt
      have rest : (byte.toNat + 256 * ofBytes bytes) / 256 = ofBytes bytes := by omega
      have same : UInt8.ofNat (byte.toNat + 256 * ofBytes bytes) = byte := by
        apply UInt8.toNat_inj.mp
        rw [UInt8.toNat_ofNat']
        omega
      rw [List.length_cons, ofBytes, toBytes, rest, ih, same]

theorem toBytes_inj {count first second : Nat} (firstFits : first < 256 ^ count)
    (secondFits : second < 256 ^ count) :
    toBytes count first = toBytes count second ↔ first = second := by
  constructor
  · intro same
    rw [← ofBytes_toBytes firstFits, same, ofBytes_toBytes secondFits]
  · rintro rfl
    rfl

end ByteOrder
