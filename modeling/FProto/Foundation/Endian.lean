import FProto.Foundation.Bytes

/-!
Owns the words of `encoding/binary`: 64 bits little-endian, and 32 bits
big-endian with the way back.
-/

namespace FProto.Foundation

/-- `binary.LittleEndian.PutUint64`. -/
def littleEndian64 (value : UInt64) : Bytes :=
  [value.toUInt8, (value >>> 8).toUInt8, (value >>> 16).toUInt8, (value >>> 24).toUInt8,
    (value >>> 32).toUInt8, (value >>> 40).toUInt8, (value >>> 48).toUInt8,
    (value >>> 56).toUInt8]

/-- `binary.BigEndian.PutUint32`. -/
def bigEndian32 (value : UInt32) : Bytes :=
  [(value >>> 24).toUInt8, (value >>> 16).toUInt8, (value >>> 8).toUInt8, value.toUInt8]

/-- `binary.BigEndian.Uint32` of four bytes. -/
def fromBigEndian32 (first second third fourth : UInt8) : UInt32 :=
  UInt32.ofNat (((first.toNat * 256 + second.toNat) * 256 + third.toNat) * 256 + fourth.toNat)

@[simp] theorem length_littleEndian64 (value : UInt64) : (littleEndian64 value).length = 8 := rfl

theorem littleEndian64_injective : Function.Injective littleEndian64 := by
  intro left right equal
  have leftBound := left.toNat_lt
  have rightBound := right.toNat_lt
  apply UInt64.toNat_inj.mp
  simp only [littleEndian64, List.cons.injEq, ← UInt8.toNat_inj, UInt64.toNat_toUInt8,
    UInt64.toNat_shiftRight, UInt64.reduceToNat, Nat.shiftRight_eq_div_pow, Nat.reducePow,
    Nat.reduceMod] at equal
  omega

@[simp] theorem length_bigEndian32 (value : UInt32) : (bigEndian32 value).length = 4 := rfl

theorem fromBigEndian32_bigEndian32 (value : UInt32) :
    fromBigEndian32 (value >>> 24).toUInt8 (value >>> 16).toUInt8 (value >>> 8).toUInt8
      value.toUInt8 = value := by
  have bound := value.toNat_lt
  apply UInt32.toNat_inj.mp
  simp only [fromBigEndian32, UInt32.toNat_ofNat', UInt32.toNat_toUInt8, UInt32.toNat_shiftRight,
    UInt32.reduceToNat, Nat.shiftRight_eq_div_pow, Nat.reducePow, Nat.reduceMod]
  omega

end FProto.Foundation
