/-!
# The beam

The picture is drawn dot by dot in 262 lines of 341 dots, 240 lines of which are visible.  The blank
starts on line 241; line 261 prepares the first visible one.  While the picture is shown, every
second frame is a dot shorter.
-/

namespace Nes.Ppu

/-- The columns of the picture. -/
def width : Nat := 256

/-- The visible lines. -/
def height : Nat := 240

/-- The dots of a line. -/
def dotsPerLine : Nat := 341

/-- The lines of a frame. -/
def linesPerFrame : Nat := 262

/-- The line on which the vertical blank starts. -/
def vblankLine : Nat := 241

/-- The line before the first visible one. -/
def preRenderLine : Nat := 261

/-- Where in which frame the beam is. -/
structure Beam where
  /-- The line. -/
  line : Nat := preRenderLine
  /-- The dot within the line. -/
  dot : Nat := 0
  /-- The frame is one of the shorter ones. -/
  oddFrame : Bool := false
  /-- The frames completed since power-on. -/
  frames : Nat := 0
deriving DecidableEq, Repr, Inhabited

namespace Beam

/-- The beam is on a visible line. -/
def visible (b : Beam) : Bool := b.line < height

/-- The beam is on the line before the first visible one. -/
def preRender (b : Beam) : Bool := b.line == preRenderLine

/-- The beam draws a column of the picture. -/
def drawing (b : Beam) : Bool := b.visible && 1 ≤ b.dot && b.dot ≤ width

/-- The beam is where the vertical blank starts. -/
def entersVblank (b : Beam) : Bool := b.line == vblankLine && b.dot == 1

/-- The start of the next line. -/
def nextLine (b : Beam) : Beam :=
  if b.line + 1 = linesPerFrame then
    { line := 0, dot := 0, oddFrame := !b.oddFrame, frames := b.frames + 1 }
  else { b with line := b.line + 1, dot := 0 }

/-- The dot left out of a frame: the last one before the first visible line. -/
def skipsDot (b : Beam) (rendering : Bool) : Bool :=
  b.preRender && b.dot + 1 == dotsPerLine - 1 && b.oddFrame && rendering

/-- One dot further. -/
def advance (b : Beam) (rendering : Bool) : Beam :=
  if b.skipsDot rendering || dotsPerLine ≤ b.dot + 1 then b.nextLine
  else { b with dot := b.dot + 1 }

end Beam

end Nes.Ppu
