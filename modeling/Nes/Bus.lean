/-!
# The address bus

The processor sees the rest of the machine through 16-bit addresses: a read answers with a byte
and may change the state of whatever answers, a write only changes it.  `Bus β` says that states of
type `β` can be accessed in this way; words are read low byte first (`Bus.readWord`).
-/

namespace Nes

/-- States that a processor can be wired to. -/
class Bus (β : Type) where
  /-- The byte that a read at an address answers with, and the state after the read. -/
  read : β → UInt16 → UInt8 × β
  /-- The state after a byte has been written to an address. -/
  write : β → UInt16 → UInt8 → β

/-- The word with the given low and high bytes. -/
@[inline] def wordOf (low high : UInt8) : UInt16 := high.toUInt16 <<< 8 ||| low.toUInt16

/-- The high byte of a word. -/
@[inline] def highByte (w : UInt16) : UInt8 := (w >>> 8).toUInt8

/-- The low byte of a word. -/
@[inline] def lowByte (w : UInt16) : UInt8 := w.toUInt8

/-- Two addresses lie on different pages of 256 bytes. -/
@[inline] def pageCrossed (a b : UInt16) : Bool := (a ^^^ b) &&& 0xFF00 != 0

namespace Bus

variable {β : Type} [Bus β]

/-- Reads the low byte of a word at `low`, then its high byte at `high`. -/
@[specialize] def readPair (bus : β) (low high : UInt16) : UInt16 × β :=
  let (l, bus) := read bus low
  let (h, bus) := read bus high
  (wordOf l h, bus)

/-- Reads the word at `addr` and the address after it. -/
@[specialize] def readWord (bus : β) (addr : UInt16) : UInt16 × β :=
  readPair bus addr (addr + 1)

/-- The bytes that `n` reads answer with, at `addr` and the addresses after it. -/
@[specialize] def listBy {σ : Type} (read : σ → UInt16 → UInt8 × σ) (bus : σ) (addr : UInt16) :
    Nat → List UInt8 × σ
  | 0 => ([], bus)
  | n + 1 =>
    let (v, bus) := read bus addr
    let (vs, bus) := listBy read bus (addr + 1) n
    (v :: vs, bus)

/-- Reads the `n` bytes from `addr` on, in order. -/
@[specialize] def readList (bus : β) (addr : UInt16) (n : Nat) : List UInt8 × β :=
  listBy read bus addr n

end Bus

end Nes
