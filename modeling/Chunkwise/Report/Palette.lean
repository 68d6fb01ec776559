/-! Colours of a terminal, as the codes that switch them on. -/

namespace Chunkwise

structure Palette where
  blue : String
  green : String
  red : String
  dim : String
  reset : String
  deriving DecidableEq, Repr

namespace Palette

def on : Palette where
  blue := "\x1b[34m"
  green := "\x1b[32m"
  red := "\x1b[31m"
  dim := "\x1b[2m"
  reset := "\x1b[0m"

def off : Palette := ⟨"", "", "", "", ""⟩

def ofBool (enabled : Bool) : Palette := if enabled then on else off

def isEnabled (p : Palette) : Bool := p.reset ≠ ""

/-- The text in a colour; no colour at all leaves it as it is. -/
def paint (p : Palette) (color text : String) : String :=
  if color = "" then text else color ++ text ++ p.reset

end Palette

end Chunkwise
