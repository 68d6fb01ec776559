import Chunkwise.Walk.Combine

/-! Repetition, with a minimum, a separator between elements, and a sign to stop
at. The separator behind the last element is given back. A round that does not
move would go on for ever and stops the parse. -/

namespace Chunkwise.Walk

variable {σ α β γ : Type}

structure Repetition (σ α β γ : Type) where
  element : Walk σ α
  /-- The number of elements that are needed. -/
  least : Nat := 0
  separator : Option (Walk σ β) := none
  /-- No element is tried where this would succeed. -/
  stop : Option (Walk σ γ) := none

namespace Repetition

/-- Whether the sign to stop is ahead. -/
def stopsAt (r : Repetition σ α β γ) (c : Context σ) : Option (Bool × Context σ) :=
  match r.stop with
  | none => some (false, c)
  | some stop => probe stop c

/-- Whether another element may follow: there is no separator, or it succeeds. -/
def separates (r : Repetition σ α β γ) (c : Context σ) : Option (Bool × Context σ) :=
  match r.separator with
  | none => some (true, c)
  | some separator => do
    let (o, c) ← separator c
    some (o.isSuccess, c)

/-- Stops the parse because a round matched and left the cursor at `round`, where it
had begun. -/
def stuck (c : Context σ) (start round : Nat) : Outcome (List α) × Context σ :=
  let c := c.halt (.infiniteLoop c.currentRule (c.chunks.offset round))
  (c.restore start).fail round .infiniteLoop

/-- The rounds of a repetition that began at `start`: `rewind` is the place behind
the last element, and `values` holds the elements so far. -/
def rounds (r : Repetition σ α β γ) (start : Nat) : Nat → Nat → Array α → Walk σ (List α)
  | 0, _, _, _ => none
  | fuel + 1, rewind, values, c =>
    if c.isExhausted && r.least ≤ values.size then
      some (.success values.toList, c.restore rewind)
    else do
      let (stops, c) ← r.stopsAt c
      if stops then
        if values.size < r.least then some ((c.restore start).fail c.cursor .unexpected)
        else some (.success values.toList, c.restore rewind)
      else
        let round := c.cursor
        let (o, c) ← r.element c
        match o with
        | .failure f =>
          if values.size < r.least then some (.failure f, c.restore start)
          else some (.success values.toList, c.restore rewind)
        | .success v =>
          let rewind := c.cursor
          let (more, c) ← r.separates c
          if !more then some (.success (values.push v).toList, c.restore rewind)
          else if c.cursor = round then some (stuck c start round)
          else rounds r start fuel rewind (values.push v) c

end Repetition

/-- The walk again and again, for at most `fuel` rounds. -/
def repetition (r : Repetition σ α β γ) (fuel : Nat) : Walk σ (List α) := fun c =>
  r.rounds c.cursor fuel c.cursor #[] c

end Chunkwise.Walk
