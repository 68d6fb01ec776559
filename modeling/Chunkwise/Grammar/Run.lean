import Chunkwise.Grammar.Extent
import Chunkwise.Symbols
import Chunkwise.Walk.Repeat
import Chunkwise.Walk.Terminal

/-! What a grammar does: the walk over the chunks that it stands for. Rules refer
to each other freely, so a walk is given a number of steps. The steps bound how
deeply walks are nested and how often each loop goes round; a walk that needs more
has no outcome. -/

namespace Chunkwise

/-- A reference to a rule of a linked grammar. -/
structure RuleRef where
  symbol : Symbol
  name : String
  deriving DecidableEq, Repr

def RuleRef.describe (r : RuleRef) : String := "RuleRef(" ++ Text.quoted r.name ++ ")"

/-- A grammar whose references are linked to the rules of a table. -/
abbrev LinkedGrammar := Grammar RuleRef

/-- The grammars of the rules, by symbol. The table of a grammar that is still
being put together is empty. -/
abbrev RuleTable := Array LinkedGrammar

namespace Grammar

/-- Runs a step of the user's own out of sight of the skip rule. -/
def runNative (step : NativeStep) (c : Context LinkedGrammar) :
    Outcome Value × Context LinkedGrammar :=
  let (o, c') := step (c.withSkip none)
  (o, c'.withSkip c.skip)

/-- The walk of a rule. A rule that the table does not have stops the parse. -/
def call (rules : RuleTable) (run : LinkedGrammar → Walk LinkedGrammar Value) (r : RuleRef) :
    Walk LinkedGrammar Value := fun c =>
  match rules[r.symbol.index]? with
  | some g => Walk.inRule r.name (run g) c
  | none => some (c.haltedFailure, c.halt (.unresolvedRule r.name))

/-- The walk of a grammar, given the walks of its parts. -/
def step (rules : RuleTable) (fuel : Nat) (run : LinkedGrammar → Walk LinkedGrammar Value) :
    LinkedGrammar → Walk LinkedGrammar Value
  | .consume t => (Walk.consume (Walk.trySkip run) t fuel).map .text
  | .behind t => (Walk.consumeBehind t).map .text
  | .untilToken t => (Walk.untilToken t).map .ofTexts
  | .untilMatch g => (Walk.untilMatch (run g) fuel).map .ofTexts
  | .unit => fun c => some (.success .null, c)
  | .sequence gs => (Walk.sequence (gs.map run)).map .list
  | .choice gs => Walk.choice (gs.map run)
  | .optional g => (Walk.optional (run g)).map .ofOption
  | .peek g => Walk.peek (run g)
  | .notAhead g => (Walk.notAhead (run g)).map fun _ => .null
  | .skipIn skip g => Walk.withSkip skip (run g)
  | .repeated g least separator stop =>
    (Walk.repetition ⟨run g, least, separator.map run, stop.map run⟩ fuel).map .list
  | .rule r => call rules run r
  | .map f g => (run g).map f
  | .discard g => (run g).map fun _ => .null
  | .native f => fun c => some (runNative f c)
  | .andThen g f => fun c => do
    let (o, c) ← run g c
    some (runNative (f o) c)

/-- The walk of a grammar in at most `fuel` steps. -/
def run (rules : RuleTable) : Nat → LinkedGrammar → Walk LinkedGrammar Value
  | 0, _ => fun _ => none
  | fuel + 1, g => step rules fuel (run rules fuel) g

/-! ## How many steps are enough -/

/-- The extent of all that a walk of the grammar can come to: the grammar itself,
the rules, and the skip rule in force. -/
def wholeExtent (rules : RuleTable) (c : Context LinkedGrammar) (g : LinkedGrammar) : Extent :=
  rules.foldl (fun e g => e.join g.extent) (g.extent.join (extentOfOption c.skip))

/-- At how many places the cursor can be: at a chunk, at the end, where the walk
starts, or where a step of the user's own puts it. -/
def places (c : Context LinkedGrammar) (e : Extent) : Nat := c.chunks.size + 2 + e.natives

/-- How many rules can be open at once: as many as the limit allows, and else as
many as there are ways to open one without being back where a rule was opened
before, which would never end. -/
def openRules (rules : RuleTable) (c : Context LinkedGrammar) (e : Extent) : Nat :=
  match c.recursionLimit with
  | some limit => limit
  | none => rules.size * places c e * 2 * (e.skips + 2)

/-- How often a loop goes round: as often as a repetition needs elements, and from
then on once for every place before the parse is stopped and once after it. -/
def loopRounds (c : Context LinkedGrammar) (e : Extent) : Nat := e.least + 2 * places c e + 2

/-- Each open rule, the entry and one run of a skip rule nest no more than their
depth, and steps are left for the rounds of the innermost loop. -/
def enoughFuel (rules : RuleTable) (c : Context LinkedGrammar) (g : LinkedGrammar) : Nat :=
  let e := wholeExtent rules c g
  (openRules rules c e + 3) * (e.depth + 2) + loopRounds c e

/-- Runs a grammar with steps enough. -/
def parse (rules : RuleTable) (g : LinkedGrammar) : Walk LinkedGrammar Value := fun c =>
  run rules (enoughFuel rules c g) g c

end Grammar

end Chunkwise
