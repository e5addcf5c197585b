import Nes.Bus

/-!
# Flat memory

The simplest bus: 64 KiB of memory and no device.  A read answers with the byte last written to its
address (`Memory.get_set_self`, `Memory.get_set_of_ne`) and changes nothing.
-/

namespace Nes

/-- The 65536 bytes of a bus without devices. -/
structure Memory where
  /-- The byte of each address. -/
  cells : Vector UInt8 65536

namespace Memory

/-- Memory that holds only zeros. -/
def zero : Memory := ⟨.replicate _ 0⟩

instance : Inhabited Memory := ⟨zero⟩

/-- The byte at an address. -/
def get (m : Memory) (addr : UInt16) : UInt8 :=
  have := addr.toNat_lt
  m.cells[addr.toNat]

/-- Puts a byte at an address. -/
def set (m : Memory) (addr : UInt16) (v : UInt8) : Memory :=
  ⟨m.cells.set addr.toNat v addr.toNat_lt⟩

/-- Puts a list of bytes at `addr` and the addresses after it, from `$FFFF` on to `$0000`. -/
def setList (m : Memory) (addr : UInt16) : List UInt8 → Memory
  | [] => m
  | v :: vs => (m.set addr v).setList (addr + 1) vs

instance : Bus Memory where
  read m addr := (m.get addr, m)
  write := set

@[simp] theorem get_set_self (m : Memory) (addr : UInt16) (v : UInt8) :
    (m.set addr v).get addr = v := by
  simp [get, set]

theorem get_set_of_ne (m : Memory) {addr other : UInt16} (v : UInt8) (h : addr ≠ other) :
    (m.set addr v).get other = m.get other := by
  have : addr.toNat ≠ other.toNat := fun h' => h (UInt16.toNat_inj.1 h')
  simp [get, set, this]

end Memory

end Nes
