/-!
# Numbers of a few bits

Registers hold small numbers in some bits of a byte: `Bits.low3` to `Bits.high5` take them out, as
numbers below the power of two that the count of bits allows.  Numbers of three and of five bits
also count around, from the greatest to zero.
-/

namespace Nes.Bits

instance instNeZeroEight : @NeZero Nat Zero.ofOfNat0 8 := ⟨by decide⟩

instance instNeZeroThirtyTwo : @NeZero Nat Zero.ofOfNat0 32 := ⟨by decide⟩

/-- The low three bits. -/
def low3 (v : UInt8) : Fin 8 := ⟨v.toNat % 8, Nat.mod_lt _ (by decide)⟩

/-- The low four bits. -/
def low4 (v : UInt8) : Fin 16 := ⟨v.toNat % 16, Nat.mod_lt _ (by decide)⟩

/-- The high two bits. -/
def high2 (v : UInt8) : Fin 4 := ⟨v.toNat / 64, Nat.div_lt_of_lt_mul v.toNat_lt⟩

/-- The high five bits. -/
def high5 (v : UInt8) : Fin 32 := ⟨v.toNat / 8, Nat.div_lt_of_lt_mul v.toNat_lt⟩

end Nes.Bits
