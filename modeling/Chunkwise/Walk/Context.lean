import Chunkwise.Chunks.Basic
import Chunkwise.Report.Trace
import Chunkwise.Walk.Outcome

/-! The state of one parse: the chunks and the cursor among them, the skip rule,
the open rules, the deepest failure so far, and the defect that stopped the parse,
if one did. -/

namespace Chunkwise

/-- The state of a parse whose skip rules are of type `σ`. -/
structure Context (σ : Type) where
  chunks : Chunks
  cursor : Nat := 0
  /-- The skip rule in force. -/
  skip : Option σ := none
  /-- Whether the skip rule is running; it is not applied within itself. -/
  skipping : Bool := false
  deepest : Option Failure := none
  /-- The rules being parsed, the innermost first. -/
  ruleStack : List String := []
  /-- How many rules may be open at once. -/
  recursionLimit : Option Nat := none
  /-- The first defect found; it stops the parse. -/
  fatal : Option Defect := none
  trace : Option Trace := none

namespace Context

variable {σ τ α : Type}

/-- The chunk at the cursor. -/
def chunk? (c : Context σ) : Option String := c.chunks.get? c.cursor

def moveTo (c : Context σ) (cursor : Nat) : Context σ := { c with cursor }

/-- Reports an event to the trace, if there is one. -/
def note (c : Context σ) (f : Trace → Trace) : Context σ := { c with trace := c.trace.map f }

/-- Returns to an earlier place; the trace tells if the cursor moves. -/
def restore (c : Context σ) (cursor : Nat) : Context σ :=
  if cursor = c.cursor then c
  else (c.note (·.add (.backtracked c.cursor cursor))).moveTo cursor

@[simp] theorem cursor_restore (c : Context σ) (cursor : Nat) :
    (c.restore cursor).cursor = cursor := by
  unfold restore
  split
  · next h => exact h.symm
  · rfl

/-- Whether no chunk is left, empty or not. -/
def isExhausted (c : Context σ) : Bool := c.chunks.size ≤ c.cursor

def skipEmpty (c : Context σ) : Context σ := c.moveTo (c.chunks.skipEmpty c.cursor)

/-- Remembers a failure if it is the deepest so far. -/
def record (c : Context σ) (f : Failure) : Context σ :=
  { c with deepest := some (Failure.deepest c.deepest f) }

/-- Fails here for want of a token, and remembers it. -/
def fail (c : Context σ) (position : Nat) (expected : Token) : Outcome α × Context σ :=
  (.failure ⟨position, expected⟩, c.record ⟨position, expected⟩)

/-- Stops the parse. The first defect stays. -/
def halt (c : Context σ) (d : Defect) : Context σ := { c with fatal := c.fatal <|> some d }

def isHalted (c : Context σ) : Bool := c.fatal.isSome

/-- The failure of everything that is tried after the parse was stopped. It is
not remembered. -/
def haltedFailure (c : Context σ) : Outcome α := .failure ⟨c.cursor, .unexpected⟩

def noteMatch (c : Context σ) (t : Token) : Context σ :=
  c.note (·.add (.matched t.name c.cursor (c.chunk?.getD "")))

def noteMiss (c : Context σ) (t : Token) : Context σ :=
  c.note (·.add (.missed t.name c.cursor c.chunk?))

/-! ## Rules -/

def currentRule (c : Context σ) : Option String := c.ruleStack.head?

/-- The limit, if one more rule would exceed it. -/
def exceededLimit? (c : Context σ) : Option Nat :=
  c.recursionLimit.filter (· ≤ c.ruleStack.length)

/-- Opens a rule, whatever the limit. -/
def pushRule (c : Context σ) (name : String) : Context σ :=
  { c.note (·.enter name c.cursor) with ruleStack := name :: c.ruleStack }

/-- Enters a rule. A parse that has stopped enters none, and one that would exceed
the limit stops; `false` says so. -/
def enterRule (c : Context σ) (name : String) : Bool × Context σ :=
  if c.isHalted then (false, c)
  else
    match c.exceededLimit? with
    | some limit => (false, c.halt (.recursionLimitExceeded name limit))
    | none => (true, c.pushRule name)

/-- Leaves the innermost rule. -/
def exitRule (c : Context σ) (matched : Bool) : Context σ :=
  match c.ruleStack with
  | [] => c
  | name :: outer => { c.note (·.exit name c.cursor matched) with ruleStack := outer }

/-! ## Skip rules -/

/-- The context with another skip rule, or a skip rule of another type. -/
def withSkip (c : Context σ) (skip : Option τ) : Context τ := { c with skip }

end Context

/-- A walk over the chunks: from a context to an outcome and the context that it
leaves, or to nothing when it runs out of steps. -/
abbrev Walk (σ α : Type) : Type := Context σ → Option (Outcome α × Context σ)

/-- The walk with its value changed. -/
def Walk.map {σ α β : Type} (f : α → β) (w : Walk σ α) : Walk σ β := fun c =>
  (w c).map fun (o, c) => (o.map f, c)

end Chunkwise
