import Provenance.Text.Hex

/-!
# Words as bytes

Words of 32 and 64 bits in little-endian order, the least significant byte first.
-/

namespace Provenance

/-- The 64-bit word that eight bytes from an offset stand for; bytes past the end are zero. -/
def word64At (bytes : Array UInt8) (offset : Nat) : UInt64 :=
  (List.range 8).foldr (fun i w => w <<< 8 ||| (bytes.getD (offset + i) 0).toUInt64) 0

/-- The 32-bit word that four bytes from an offset stand for; bytes past the end are zero. -/
def word32At (bytes : Array UInt8) (offset : Nat) : UInt32 :=
  (List.range 4).foldr (fun i w => w <<< 8 ||| (bytes.getD (offset + i) 0).toUInt32) 0

/-- The given number of low bytes of a natural, the least significant first. -/
def littleEndian : (count : Nat) → Nat → List UInt8
  | 0, _ => []
  | count + 1, n => .ofNat n :: littleEndian count (n / 256)

@[simp] theorem length_littleEndian (count n : Nat) : (littleEndian count n).length = count := by
  induction count generalizing n with
  | zero => rfl
  | succ count ih => simp [littleEndian, ih]

/-- The natural that bytes stand for, the least significant first. -/
def ofLittleEndian : List UInt8 → Nat
  | [] => 0
  | b :: bs => b.toNat + 256 * ofLittleEndian bs

/-- A natural that fits its bytes is recovered from them. -/
theorem ofLittleEndian_littleEndian {count n : Nat} (h : n < 1 <<< (8 * count)) :
    ofLittleEndian (littleEndian count n) = n := by
  induction count generalizing n with
  | zero =>
    have : n = 0 := by simpa using h
    simp [littleEndian, ofLittleEndian, this]
  | succ count ih =>
    have : n / 256 < 1 <<< (8 * count) := by
      rw [Nat.one_shiftLeft, Nat.mul_add, Nat.pow_add] at h
      rw [Nat.one_shiftLeft]
      exact (Nat.div_lt_iff_lt_mul (by decide)).2 h
    simp only [littleEndian, ofLittleEndian, ih this, UInt8.toNat_ofNat']
    omega

/-- Bytes as lower-case hexadecimal digits. -/
def hexText (bytes : List UInt8) : String := .ofList (bytes.flatMap Hex.byte)

end Provenance
