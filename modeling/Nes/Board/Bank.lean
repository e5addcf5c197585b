/-!
# Banks

A chip that is larger than the window it is seen through is divided into banks of the window's size.
`bankIndex` tells which byte of the chip an address in the window stands for.  Bank numbers past the
last bank wrap, and a chip smaller than its window repeats inside it, so the byte always exists
(`bankIndex_lt`).  A latch that selects banks is as wide as the least power of two that numbers them
all (`powerFrom`, which lies between `le_powerFrom` and `powerFrom_lt`).
-/

namespace Nes.Board

/-- The number of banks of `size` bytes in `length` bytes, at least one. -/
def bankCount (size length : Nat) : Nat := max (length / size) 1

/-- The least power of two from a positive number on. -/
def powerFrom (n : Nat) : Nat := 1 <<< Nat.log2 (2 * n - 1)

/-- The byte of a chip of `length` bytes that `addr` stands for, in a window of `size` bytes that
shows the given bank. -/
def bankIndex (bank size : Nat) (addr : UInt16) (length : Nat) : Nat :=
  (bank % bankCount size length * size + addr.toNat % size) % length

theorem bankIndex_lt (bank size : Nat) (addr : UInt16) {length : Nat} (h : 0 < length) :
    bankIndex bank size addr length < length :=
  Nat.mod_lt _ h

theorem le_powerFrom {n : Nat} (h : 0 < n) : n ≤ powerFrom n := by
  have hlt := Nat.lt_log2_self (n := 2 * n - 1)
  rw [Nat.pow_succ] at hlt
  rw [powerFrom, Nat.one_shiftLeft]
  omega

theorem powerFrom_lt {n : Nat} (h : 0 < n) : powerFrom n < 2 * n := by
  have hle := Nat.log2_self_le (n := 2 * n - 1) (by omega)
  rw [powerFrom, Nat.one_shiftLeft]
  omega

end Nes.Board
