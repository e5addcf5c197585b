import Nes.Mirroring

/-!
# The bus of the picture unit

The picture unit sees a cartridge as pattern memory below `$2000` and as the wiring of the
nametables, and tells it when a line has been drawn.
-/

namespace Nes

/-- What the picture unit needs of a cartridge. -/
class PictureBus (γ : Type) where
  /-- The byte of the patterns at an address below `$2000`. -/
  chrRead : γ → UInt16 → UInt8
  /-- The cartridge after a write to an address below `$2000`. -/
  chrWrite : γ → UInt16 → UInt8 → γ
  /-- The wiring of the nametables. -/
  mirroring : γ → Mirroring
  /-- The cartridge after a line has been drawn. -/
  clockLine : γ → γ

end Nes
