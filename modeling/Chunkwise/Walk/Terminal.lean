import Chunkwise.Walk.Combine

/-! The walks that look at chunks. Empty chunks are passed over, and a parse that
has stopped matches nothing. -/

namespace Chunkwise.Walk

variable {σ α : Type}

/-- Tries the token at the cursor, and behind what the skip rule skips. -/
def consumeFrom (skip : Context σ → Option (Bool × Context σ)) (token : Token) (start : Nat) :
    Nat → Walk σ String
  | 0, _ => none
  | fuel + 1, c =>
    let c := c.skipEmpty
    if c.isExhausted && token.isEof then some (.success "", c.noteMatch token)
    else
      match c.chunk?.filter token.accepts with
      | some chunk => some (.success chunk, (c.noteMatch token).moveTo (c.cursor + 1))
      | none => do
        let (moved, c) ← skip c
        if moved then consumeFrom skip token start fuel c
        else some (((c.noteMiss token).restore start).fail c.cursor token)

/-- Matches one chunk of the token. Where the chunk is none, the skip rule is
applied and the token tried again behind it. The end of the input is matched where
no chunk is left. -/
def consume (skip : Context σ → Option (Bool × Context σ)) (token : Token) (fuel : Nat) :
    Walk σ String := fun c =>
  if c.isHalted then some (c.haltedFailure, c) else consumeFrom skip token c.cursor fuel c

/-- Matches one chunk of the token in front of the cursor and moves back to it. The
start of the input is matched by the token for its end. -/
def consumeBehind (token : Token) : Walk σ String := fun c =>
  if c.isHalted then some (c.haltedFailure, c)
  else
    match c.chunks.skipEmptyBack c.cursor with
    | 0 =>
      if token.isEof then some (.success "", c.moveTo 0) else some (c.fail 0 token)
    | i + 1 =>
      match (c.chunks.get? i).filter token.accepts with
      | some chunk => some (.success chunk, ((c.moveTo i).noteMatch token))
      | none => some ((((c.moveTo i).noteMiss token).moveTo c.cursor).fail i token)

/-- Gathers chunks from chunk `i` on until one satisfies `stop`: whether one did,
what was gathered, and the place reached. -/
def gather (stop : String → Bool) (chunks : Chunks) : Nat → Nat → Array String →
    Bool × Array String × Nat
  | 0, i, gathered => (false, gathered, i)
  | fuel + 1, i, gathered =>
    let i := chunks.skipEmpty i
    match chunks.get? i with
    | none => (false, gathered, i)
    | some chunk =>
      if stop chunk then (true, gathered, i)
      else gather stop chunks fuel (i + 1) (gathered.push chunk)

/-- Gathers the chunks in front of the next chunk of the token, which has to come.
The end of the input always comes. -/
def untilToken (token : Token) : Walk σ (List String) := fun c =>
  if c.isHalted then some (c.haltedFailure, c)
  else
    let (found, gathered, i) :=
      gather token.accepts c.chunks (c.chunks.size - c.cursor + 1) c.cursor #[]
    let c' := c.moveTo i
    if found || token.isEof then some (.success gathered.toList, c')
    else some (((c'.noteMiss token).restore c.cursor).fail i token)

/-- Gathers chunks until the walk would succeed. -/
def untilMatchFrom (stop : Walk σ α) (start : Nat) : Nat → Array String → Walk σ (List String)
  | 0, _, _ => none
  | fuel + 1, gathered, c => do
    let c := c.skipEmpty
    let here := c.cursor
    let (stops, c) ← probe stop c
    if stops then some (.success gathered.toList, c)
    else
      match c.chunks.get? here with
      | none => some ((c.restore start).fail start .unexpected)
      | some chunk => untilMatchFrom stop start fuel (gathered.push chunk) (c.moveTo (here + 1))

/-- Gathers the chunks in front of the next place where the walk would succeed,
which has to come. -/
def untilMatch (stop : Walk σ α) (fuel : Nat) : Walk σ (List String) := fun c =>
  if c.isHalted then some (c.haltedFailure, c) else untilMatchFrom stop c.cursor fuel #[] c

end Chunkwise.Walk
