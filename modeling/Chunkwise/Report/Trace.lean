import Chunkwise.Report.Palette
import Chunkwise.Text.Quoted

/-! The trace of a parse: the rules entered and left, the tokens matched and
missed, the advances of the skip rule and the returns of the cursor. Cursors are
numbers of chunks. The trace keeps events with their nesting, and writes a line
for each when asked. -/

namespace Chunkwise

inductive Event where
  | entered (rule : String) (cursor : Nat)
  /-- A rule was left at `stop` after it had been entered at `start`. -/
  | exited (rule : String) (start stop : Nat) (matched : Bool)
  | matched (token : String) (cursor : Nat) (chunk : String)
  /-- A token did not match; nothing is found at the end of the input. -/
  | missed (token : String) (cursor : Nat) (found : Option String)
  | skipped (start stop : Nat)
  | backtracked (start stop : Nat)
  deriving DecidableEq, Repr

/-- At most 24 characters of a text; an ellipsis marks a cut. -/
def Event.shorten (text : String) : String :=
  if text.length ≤ 24 then text else String.ofList (text.toList.take 23 ++ ['…'])

def Event.place (p : Palette) (cursor : Nat) : String := p.paint p.dim ("@" ++ toString cursor)

def Event.render (p : Palette) : Event → String
  | .entered rule cursor => p.paint p.blue rule ++ " " ++ place p cursor
  | .exited rule start stop ok =>
    let verdict := if ok then p.paint p.green "ok" else p.paint p.red "fail"
    p.paint p.blue rule ++ " " ++ place p start ++ " -> " ++ place p stop ++ " " ++ verdict
  | .matched token cursor chunk =>
    let shown := if chunk = "" then "" else " " ++ p.paint p.green (shorten chunk)
    "match " ++ Text.quoted token ++ " " ++ place p cursor ++ shown
  | .missed token cursor found =>
    let shown := match found with
      | some chunk => Text.quoted (shorten chunk)
      | none => "EOF"
    p.paint p.red "miss" ++ " " ++ Text.quoted token ++ " " ++ place p cursor ++ " found " ++ shown
  | .skipped start stop => p.paint p.dim ("skip " ++ toString start ++ ".." ++ toString stop)
  | .backtracked start stop =>
    p.paint p.dim ("backtrack " ++ toString start ++ " -> " ++ toString stop)

structure Trace where
  palette : Palette := .off
  /-- Where each open rule was entered, the innermost first. -/
  opened : List Nat := []
  /-- The events so far, each with the number of rules around it. -/
  log : Array (Nat × Event) := #[]

namespace Trace

def add (t : Trace) (e : Event) : Trace := { t with log := t.log.push (t.opened.length, e) }

def enter (t : Trace) (rule : String) (cursor : Nat) : Trace :=
  let t := t.add (.entered rule cursor)
  { t with opened := cursor :: t.opened }

/-- Leaves the innermost rule; with no rule open, it counts as entered here. -/
def exit (t : Trace) (rule : String) (cursor : Nat) (matched : Bool) : Trace :=
  let t' := { t with opened := t.opened.tail }
  t'.add (.exited rule (t.opened.headD cursor) cursor matched)

/-- One line for each event, indented by the rules around it. -/
def lines (t : Trace) : List String :=
  t.log.toList.map fun (depth, e) => String.join (List.replicate depth "  ") ++ e.render t.palette

def render (t : Trace) : String := "\n".intercalate t.lines

end Trace

end Chunkwise
