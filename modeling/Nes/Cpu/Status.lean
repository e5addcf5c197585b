/-!
# The processor status

The 6502 keeps its flags in the byte `NVUBDIZC`.  `Status` names them; `Status.toByte` and
`Status.ofByte` convert to and from the byte, without loss in either direction.

The flags `unused` and `brk` have no flip-flop behind them: they appear only in the copies of the
status that are pushed to the stack.  `Status.pushed` is the byte that a push stores, and
`Status.pulled` the status that is restored from such a byte.
-/

namespace Nes.Cpu

/-- The flags of the processor, from bit 0 to bit 7 of the status byte. -/
structure Status where
  /-- Bit 0: the carry out of an addition, or the absence of a borrow. -/
  carry : Bool := false
  /-- Bit 1: the last result was zero. -/
  zero : Bool := false
  /-- Bit 2: interrupt requests are ignored. -/
  interruptDisable : Bool := false
  /-- Bit 3: stored, but without effect on this processor's arithmetic. -/
  decimal : Bool := false
  /-- Bit 4: in a pushed copy, the push came from an instruction. -/
  brk : Bool := false
  /-- Bit 5: set in every pushed copy. -/
  unused : Bool := false
  /-- Bit 6: the last addition overflowed as a signed one. -/
  overflow : Bool := false
  /-- Bit 7: the sign bit of the last result. -/
  negative : Bool := false
deriving DecidableEq, Repr, Inhabited

namespace Status

/-- The status that the processor comes out of power-on and reset with. -/
def powerOn : Status := { interruptDisable := true, unused := true }

/-- The status whose flags are the bits of `b`. -/
def ofByte (b : UInt8) : Status where
  carry := b &&& 0x01 != 0
  zero := b &&& 0x02 != 0
  interruptDisable := b &&& 0x04 != 0
  decimal := b &&& 0x08 != 0
  brk := b &&& 0x10 != 0
  unused := b &&& 0x20 != 0
  overflow := b &&& 0x40 != 0
  negative := b &&& 0x80 != 0

/-- The byte whose bits are the flags. -/
def toByte (s : Status) : UInt8 :=
  (if s.carry then 0x01 else 0) ||| (if s.zero then 0x02 else 0) |||
  (if s.interruptDisable then 0x04 else 0) ||| (if s.decimal then 0x08 else 0) |||
  (if s.brk then 0x10 else 0) ||| (if s.unused then 0x20 else 0) |||
  (if s.overflow then 0x40 else 0) ||| (if s.negative then 0x80 else 0)

/-- The zero and sign flags describe `value`. -/
def withResult (s : Status) (value : UInt8) : Status :=
  { s with zero := value == 0, negative := value &&& 0x80 != 0 }

/-- The byte that a push of the status stores; `byInstruction` tells `PHP` and `BRK` from
hardware interrupts. -/
def pushed (s : Status) (byInstruction : Bool) : UInt8 :=
  { s with unused := true, brk := byInstruction }.toByte

/-- The status restored from a pushed byte: its bits 4 and 5 are ignored. -/
def pulled (b : UInt8) : Status :=
  { ofByte b with unused := true, brk := false }

@[simp] theorem ofByte_toByte (s : Status) : ofByte s.toByte = s := by
  rcases s with ⟨_ | _, _ | _, _ | _, _ | _, _ | _, _ | _, _ | _, _ | _⟩ <;> rfl

end Status

end Nes.Cpu
