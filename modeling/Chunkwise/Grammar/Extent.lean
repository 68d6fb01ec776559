import Chunkwise.Grammar.Basic

/-! How large a grammar is, in the measures that bound how long its walks can
be. -/

namespace Chunkwise.Grammar

structure Extent where
  /-- How deeply grammars are nested, skip rules included. -/
  depth : Nat := 0
  /-- How many skip rules there are. -/
  skips : Nat := 0
  /-- How many steps of the user's own there are. -/
  natives : Nat := 0
  /-- The most elements that a repetition needs. -/
  least : Nat := 0
  deriving DecidableEq, Repr

namespace Extent

/-- The extent of two grammars side by side. -/
def join (a b : Extent) : Extent :=
  ⟨max a.depth b.depth, a.skips + b.skips, a.natives + b.natives, max a.least b.least⟩

/-- The extent of a grammar around another one. -/
def nest (a : Extent) : Extent := { a with depth := a.depth + 1 }

end Extent

variable {ρ : Type}

mutual

def extent : Grammar ρ → Extent
  | .consume _ => { depth := 1 }
  | .behind _ => { depth := 1 }
  | .untilToken _ => { depth := 1 }
  | .untilMatch g => (extent g).nest
  | .unit => { depth := 1 }
  | .sequence gs => (extentOfList gs).nest
  | .choice gs => (extentOfList gs).nest
  | .optional g => (extent g).nest
  | .peek g => (extent g).nest
  | .notAhead g => (extent g).nest
  | .skipIn skip g => (((extent skip).join (extent g)).join { skips := 1 }).nest
  | .repeated g least separator stop =>
    ((extent g).join ((extentOfOption separator).join (extentOfOption stop))).join { least } |>.nest
  | .rule _ => { depth := 1 }
  | .map _ g => (extent g).nest
  | .discard g => (extent g).nest
  | .native _ => { depth := 1, natives := 1 }
  | .andThen g _ => ((extent g).join { natives := 1 }).nest

/-- The extent of all grammars of a list. -/
def extentOfList : List (Grammar ρ) → Extent
  | [] => {}
  | g :: gs => (extent g).join (extentOfList gs)

def extentOfOption : Option (Grammar ρ) → Extent
  | none => {}
  | some g => extent g

end

end Chunkwise.Grammar
