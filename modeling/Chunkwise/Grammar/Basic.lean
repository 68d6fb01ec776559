import Chunkwise.Grammar.Value
import Chunkwise.Walk.Context

/-! Grammars as written: terminals that look at chunks, the ways to combine
grammars, references to rules, and steps of the user's own. `ρ` is the type of
references: names while a grammar is written, symbols once it is linked. -/

namespace Chunkwise

/-- A step of the user's own. It sees everything of the context but the skip rule,
which it can neither read nor change. -/
abbrev NativeStep := Context Empty → Outcome Value × Context Empty

inductive Grammar (ρ : Type) where
  /-- One chunk of a token at the cursor. -/
  | consume (t : Token)
  /-- One chunk of a token in front of the cursor. -/
  | behind (t : Token)
  /-- The chunks before the next chunk of a token. -/
  | untilToken (t : Token)
  /-- The chunks before the next place where a grammar matches. -/
  | untilMatch (g : Grammar ρ)
  /-- Matches anywhere without a value. -/
  | unit
  | sequence (gs : List (Grammar ρ))
  | choice (gs : List (Grammar ρ))
  | optional (g : Grammar ρ)
  | peek (g : Grammar ρ)
  | notAhead (g : Grammar ρ)
  /-- The second grammar, with the first one as its skip rule. -/
  | skipIn (skip g : Grammar ρ)
  | repeated (g : Grammar ρ) (least : Nat) (separator stop : Option (Grammar ρ))
  | rule (r : ρ)
  | map (f : Value → Value) (g : Grammar ρ)
  | discard (g : Grammar ρ)
  | native (step : NativeStep)
  /-- A grammar, and then a step that is told its outcome. -/
  | andThen (g : Grammar ρ) (step : Outcome Value → NativeStep)

namespace Grammar

variable {ρ ρ' : Type}

/-! ## References -/

mutual

/-- The references in a grammar, in the order written. -/
def references : Grammar ρ → List ρ
  | .consume _ => []
  | .behind _ => []
  | .untilToken _ => []
  | .untilMatch g => references g
  | .unit => []
  | .sequence gs => referencesOfList gs
  | .choice gs => referencesOfList gs
  | .optional g => references g
  | .peek g => references g
  | .notAhead g => references g
  | .skipIn skip g => references skip ++ references g
  | .repeated g _ separator stop =>
    references g ++ referencesOfOption separator ++ referencesOfOption stop
  | .rule r => [r]
  | .map _ g => references g
  | .discard g => references g
  | .native _ => []
  | .andThen g _ => references g

def referencesOfList : List (Grammar ρ) → List ρ
  | [] => []
  | g :: gs => references g ++ referencesOfList gs

def referencesOfOption : Option (Grammar ρ) → List ρ
  | none => []
  | some g => references g

end

mutual

/-- The grammar with every reference replaced. -/
def link (f : ρ → ρ') : Grammar ρ → Grammar ρ'
  | .consume t => .consume t
  | .behind t => .behind t
  | .untilToken t => .untilToken t
  | .untilMatch g => .untilMatch (link f g)
  | .unit => .unit
  | .sequence gs => .sequence (linkList f gs)
  | .choice gs => .choice (linkList f gs)
  | .optional g => .optional (link f g)
  | .peek g => .peek (link f g)
  | .notAhead g => .notAhead (link f g)
  | .skipIn skip g => .skipIn (link f skip) (link f g)
  | .repeated g least separator stop =>
    .repeated (link f g) least (linkOption f separator) (linkOption f stop)
  | .rule r => .rule (f r)
  | .map h g => .map h (link f g)
  | .discard g => .discard (link f g)
  | .native step => .native step
  | .andThen g step => .andThen (link f g) step

def linkList (f : ρ → ρ') : List (Grammar ρ) → List (Grammar ρ')
  | [] => []
  | g :: gs => link f g :: linkList f gs

def linkOption (f : ρ → ρ') : Option (Grammar ρ) → Option (Grammar ρ')
  | none => none
  | some g => some (link f g)

end

/-! ## Common repetitions -/

def zeroOrMore (g : Grammar ρ) : Grammar ρ := .repeated g 0 none none

def oneOrMore (g : Grammar ρ) : Grammar ρ := .repeated g 1 none none

def zeroOrMoreSeparated (g separator : Grammar ρ) : Grammar ρ :=
  .repeated g 0 (some separator) none

def oneOrMoreSeparated (g separator : Grammar ρ) : Grammar ρ :=
  .repeated g 1 (some separator) none

def zeroOrMoreUntil (g stop : Grammar ρ) : Grammar ρ := .repeated g 0 none (some stop)

def oneOrMoreUntil (g stop : Grammar ρ) : Grammar ρ := .repeated g 1 none (some stop)

end Grammar

end Chunkwise
