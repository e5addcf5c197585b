import Nes.Bus

/-!
# Recording a bus

`Recorder β` is a bus that passes every access on to a bus of type `β` and keeps the list of the
accesses made, the oldest first.
-/

namespace Nes

/-- One access to a bus. -/
inductive Access
  /-- A read at an address, with the byte that it answered. -/
  | read (addr : UInt16) (value : UInt8)
  /-- A write of a byte to an address. -/
  | write (addr : UInt16) (value : UInt8)
deriving DecidableEq, Repr

/-- A bus together with the accesses made to it so far. -/
structure Recorder (β : Type) where
  /-- The recorded bus. -/
  bus : β
  /-- The accesses so far, the oldest first. -/
  accesses : Array Access := #[]

namespace Recorder

variable {β : Type} [Bus β]

instance : Bus (Recorder β) where
  read := fun ⟨bus, accesses⟩ addr =>
    let (v, bus) := Bus.read bus addr
    (v, ⟨bus, accesses.push (.read addr v)⟩)
  write := fun ⟨bus, accesses⟩ addr v =>
    ⟨Bus.write bus addr v, accesses.push (.write addr v)⟩

end Recorder

end Nes
