import Nes.Ppu.Basic

/-!
# The registers of the picture unit

The processor reaches the picture unit through eight registers (`Ppu.readRegister`,
`Ppu.writeRegister`).  A read of memory through register 7 answers with the byte of the read before
it, except from palette memory; every access moves the address on.
-/

namespace Nes.Ppu

variable {γ : Type} [PictureBus γ]

/-- Moves the address on after an access to memory. -/
def advance (p : Ppu) : Ppu := { p with v := p.v.advance p.control.increment }

/-- Reads memory at the current address. -/
@[specialize] def readData (p : Ppu) (cart : γ) : UInt8 × Ppu :=
  let addr := UInt16.ofNat (p.v.toNat % 0x4000)
  let under := if addr ≥ 0x3F00 then addr - 0x1000 else addr
  let answer := if addr ≥ 0x3F00 then p.readMemory cart addr else p.readBuffer
  (answer, advance { p with readBuffer := p.readMemory cart under })

/-- The status flags, with what the last read of memory left in the other bits. -/
def statusByte (p : Ppu) : UInt8 := p.status.toByte ||| (p.readBuffer &&& 0x1F)

/-- The processor reads register `number % 8`. -/
@[specialize] def readRegister (p : Ppu) (cart : γ) (number : UInt16) : UInt8 × Ppu :=
  let (v, p) := match (number &&& 7).toNat with
    | 2 =>
      (p.statusByte, { p with status := { p.status with vblank := false }, second := false })
    | 4 => (p.sprites.get p.spriteAddr.toFin, p)
    | 7 => p.readData cart
    | _ => (p.openBus, p)
  (v, { p with openBus := v })

/-- Sets the control register.  Enabling the interrupt during the blank raises it at once. -/
def writeControl (p : Ppu) (v : UInt8) : Ppu :=
  let control : Control := ⟨v⟩
  let raised := !p.control.nmiEnabled && control.nmiEnabled && p.status.vblank
  { p with
    control
    t := { p.t with tableX := v &&& 1 != 0, tableY := v &&& 2 != 0 }
    nmi := p.nmi || raised }

/-- Sets the column, then the row, of the top left corner. -/
def writeScroll (p : Ppu) (v : UInt8) : Ppu :=
  let fine : Fin 8 := Bits.low3 v
  let coarse : Fin 32 := Bits.high5 v
  if p.second then { p with t := { p.t with fineY := fine, coarseY := coarse }, second := false }
  else { p with t := { p.t with coarseX := coarse }, fineX := fine, second := true }

/-- Sets the high six bits, then the low byte, of the address. -/
def writeAddr (p : Ppu) (v : UInt8) : Ppu :=
  if p.second then
    let t := Scroll.ofNat (p.t.toNat / 256 * 256 + v.toNat)
    { p with t, v := t, second := false }
  else
    { p with t := .ofNat (v.toNat % 64 * 256 + p.t.toNat % 256), second := true }

/-- Puts a byte into sprite memory. -/
def writeSprite (p : Ppu) (v : UInt8) : Ppu :=
  have := p.spriteAddr.toNat_lt
  { p with sprites := p.sprites.set p.spriteAddr.toNat v, spriteAddr := p.spriteAddr + 1 }

/-- The processor writes register `number % 8`. -/
@[specialize] def writeRegister (p : Ppu) (cart : γ) (number : UInt16) (v : UInt8) : Ppu × γ :=
  let p := { p with openBus := v }
  match (number &&& 7).toNat with
  | 0 => (p.writeControl v, cart)
  | 1 => ({ p with mask := ⟨v⟩ }, cart)
  | 2 => (p, cart)
  | 3 => ({ p with spriteAddr := v }, cart)
  | 4 => (p.writeSprite v, cart)
  | 5 => (p.writeScroll v, cart)
  | 6 => (p.writeAddr v, cart)
  | _ =>
    let (p, cart) := p.writeMemory cart (UInt16.ofNat p.v.toNat) v
    (p.advance, cart)

/-- Puts a page of bytes into sprite memory, starting at the address within it. -/
def writeSprites (p : Ppu) (page : List UInt8) : Ppu := page.foldl writeSprite p

end Nes.Ppu
