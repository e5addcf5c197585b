import Nes.Cartridge.Header
import Nes.Mirroring

/-!
# Settings

`Config` holds what the user may choose: the rate of the sound, the speed, and replacements for what
the cartridge's header says.
-/

namespace Nes

/-- The settings of a console. -/
structure Config where
  /-- Samples of sound per second. -/
  sampleRate : Nat := 44100
  /-- Pictures per second; without one, as many as the television system has.  Zero stands for no
  limit. -/
  speed : Option Nat := none
  /-- Wires the nametables against the header. -/
  mirroring : Option Mirroring := none
  /-- Picks the television system against the header. -/
  region : Option Cartridge.TvSystem := none
deriving DecidableEq, Repr

namespace Config

/-- What can be wrong with the settings. -/
inductive Invalid
  /-- The rate is not one that sound can be played at. -/
  | sampleRate (rate : Nat)
deriving DecidableEq, Repr

/-- The rates that sound can be played at. -/
def sampleRates : List Nat := [11025, 22050, 44100, 48000, 96000]

/-- Fails unless the settings can be used. -/
def validate (c : Config) : Except Invalid Unit :=
  if c.sampleRate ∈ sampleRates then .ok () else .error (.sampleRate c.sampleRate)

/-- The pictures per second for a cartridge made for `tv`. -/
def frameRate (c : Config) (tv : Cartridge.TvSystem) : Nat := c.speed.getD tv.frameRate

/-- What is wrong, in words. -/
def Invalid.message : Invalid → String
  | sampleRate rate =>
    let rates := ", ".intercalate (sampleRates.map toString)
    s!"sample rate {rate} Hz not one of [{rates}]"

end Config

end Nes
