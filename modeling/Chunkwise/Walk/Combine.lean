import Chunkwise.Walk.Context

/-! Walks made of walks: one after another, the first of several, optional, and
looking ahead. A component may leave the cursor anywhere when it fails; what is
built here is back where it started when it fails. -/

namespace Chunkwise.Walk

variable {σ α β : Type}

/-- The walks one after another, as far as they succeed. A failure leaves the
cursor where it is. -/
def inTurn : List (Walk σ α) → Walk σ (List α)
  | [], c => some (.success [], c)
  | w :: ws, c => do
    let (o, c) ← w c
    match o with
    | .failure f => some (.failure f, c)
    | .success v =>
      let (o, c) ← inTurn ws c
      some (o.map (v :: ·), c)

/-- The walks one after another. -/
def sequence (ws : List (Walk σ α)) : Walk σ (List α) := fun c => do
  let (o, c') ← inTurn ws c
  match o with
  | .success vs => some (.success vs, c')
  | .failure f => some (.failure f, c'.restore c.cursor)

/-- Tries the walks from `start`, knowing the deepest failure of those before. -/
def tryEach (start : Nat) : Option Failure → List (Walk σ α) → Walk σ α
  | some f, [], c => some (.failure f, c)
  | none, [], c => some (c.fail start .unexpected)
  | before, w :: ws, c => do
    let (o, c) ← w c
    match o with
    | .success v => some (.success v, c)
    | .failure f => tryEach start (some (.deepest before f)) ws (c.restore start)

/-- The first walk that succeeds. If none does, the deepest of their failures is
the failure. -/
def choice (ws : List (Walk σ α)) : Walk σ α := fun c => tryEach c.cursor none ws c

/-- The walk if it succeeds, and else nothing. -/
def optional (w : Walk σ α) : Walk σ (Option α) := fun c => do
  let (o, c') ← w c
  match o with
  | .success v => some (.success (some v), c')
  | .failure _ => some (.success none, c'.restore c.cursor)

/-- The outcome of a walk, without its moving the cursor or being remembered for
its failures. -/
def peek (w : Walk σ α) : Walk σ α := fun c => do
  let (o, c') ← w c
  some (o, { c'.restore c.cursor with deepest := c.deepest })

/-- Whether a walk would succeed. -/
def probe (w : Walk σ α) (c : Context σ) : Option (Bool × Context σ) := do
  let (o, c) ← peek w c
  some (o.isSuccess, c)

/-- Succeeds where the walk would fail. -/
def notAhead (w : Walk σ α) : Walk σ Unit := fun c => do
  let (matched, c') ← probe w c
  some (if matched then c'.fail c.cursor .unexpected else (.success (), c'))

/-- The walk with another skip rule in force. -/
def withSkip (skip : σ) (w : Walk σ α) : Walk σ α := fun c => do
  let (o, c') ← w (c.withSkip (some skip))
  some (o, c'.withSkip c.skip)

/-- Runs the skip rule once, and says whether it moved on. It is not run within
itself, and its failures are not remembered. -/
def trySkip (run : σ → Walk σ α) (c : Context σ) : Option (Bool × Context σ) :=
  if c.skipping then some (false, c)
  else
    match c.skip with
    | none => some (false, c)
    | some skip => do
      let (o, c') ← run skip { c with skipping := true }
      let c' := { c' with skipping := false, deepest := c.deepest }
      if o.isSuccess && c.cursor < c'.cursor then
        some (true, c'.note (·.add (.skipped c.cursor c'.cursor)))
      else some (false, c'.moveTo c.cursor)

/-- Runs the body of a rule, if the rule can be entered. -/
def inRule (name : String) (body : Walk σ α) : Walk σ α := fun c =>
  match c.enterRule name with
  | (false, c) => some (c.haltedFailure, c)
  | (true, c) => do
    let (o, c) ← body c
    some (o, c.exitRule o.isSuccess)

end Chunkwise.Walk
