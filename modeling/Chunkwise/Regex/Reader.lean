import Chunkwise.Regex.Item

/-! From items to a regular expression. The reader keeps the open groups in a
stack, takes one item at a time and never looks back into the pattern. Patterns
that are nested too deeply are refused. -/

namespace Chunkwise.Regex

/-- An expression, and how deeply expressions are nested in the way it is written:
brackets, groups, repetitions, choices of two or more and sequences of two or
more. -/
structure Piece where
  regex : Regex
  depth : Nat
  deriving DecidableEq, Repr

/-- The depth of something written of `parts`, which is one more if there are at
least two of them. -/
def depthOfParts (parts : List Nat) : Nat :=
  let deepest := parts.foldl max 0
  if parts.length < 2 then deepest else deepest + 1

/-- An open group: the alternatives before the last bar and the pieces since then,
the latest first. A setting of flags stands as `none` among the pieces, for it
cannot be repeated. -/
structure Group where
  outerFlags : Flags := {}
  /-- The number of the group, if it is counted. -/
  index : Option Nat := none
  branches : List Piece := []
  pieces : List (Option Piece) := []

namespace Group

/-- What stands behind the last bar. -/
def branch (g : Group) : Piece :=
  { regex := concat (g.pieces.reverse.filterMap (·.map Piece.regex))
    depth := depthOfParts (g.pieces.map fun p => (p.map Piece.depth).getD 0) }

/-- The alternatives of the group, in the order written. -/
def inside (g : Group) : Piece :=
  match g.branches with
  | [] => g.branch
  | _ :: _ =>
    let branches := (g.branch :: g.branches).reverse
    { regex := choice (branches.map Piece.regex)
      depth := depthOfParts (branches.map Piece.depth) }

/-- The group as a whole. -/
def close (g : Group) : Piece :=
  match g.index with
  | some i => ⟨.group i g.inside.regex, g.inside.depth + 1⟩
  | none => ⟨g.inside.regex, g.inside.depth + 1⟩

end Group

structure Reader where
  flags : Flags := {}
  group : Group := {}
  outer : List Group := []
  names : List String := []
  /-- How many counted groups have been opened. -/
  count : Nat := 0

namespace Reader

def push (r : Reader) (piece : Option Piece) : Reader :=
  { r with group := { r.group with pieces := piece :: r.group.pieces } }

/-- Opens a group under the given flags. -/
def enter (r : Reader) (inside : Flags) (index : Option Nat) : Reader :=
  { r with
    flags := inside
    group := { outerFlags := r.flags, index }
    outer := r.group :: r.outer }

/-- Takes one item; `none` if it cannot stand here. No two groups have the same
name. -/
def accept (r : Reader) : Item → Option Reader
  | .piece x depth => some (r.push (some ⟨x, depth⟩))
  | .opening (.plain inside) => some (r.enter inside none)
  | .opening (.counted name) =>
    if name.any (r.names.contains ·) then none
    else some { r.enter r.flags (some r.count) with
      names := name.toList ++ r.names, count := r.count + 1 }
  | .closing =>
    match r.outer with
    | [] => none
    | g :: outer =>
      some (push { r with flags := r.group.outerFlags, group := g, outer } (some r.group.close))
  | .bar =>
    some { r with group :=
      { r.group with branches := r.group.branch :: r.group.branches, pieces := [] } }
  | .quantifier least most greedy =>
    match r.group.pieces with
    | some x :: pieces =>
      let looped := repeated x.regex least most (greedy != r.flags.swapGreed)
      some { r with group := { r.group with pieces := some ⟨looped, x.depth + 1⟩ :: pieces } }
    | _ => none
  | .flags f => some (push { r with flags := f } none)

/-- Takes all items of a pattern. Every item has at least one character, so one
more than their number is fuel enough. -/
def read : Nat → Reader → List Char → Option Reader
  | 0, _, _ => none
  | fuel + 1, r, cs =>
    match r.flags.skip cs with
    | [] => some r
    | c :: rest => do
      let (item, rest) ← Item.read r.flags c rest
      read fuel (← r.accept item) rest

/-- How deeply a pattern may be nested. -/
def depthLimit : Nat := 250

/-- The expression, once every group is closed. -/
def finish (r : Reader) : Option Regex :=
  match r.outer with
  | [] => if r.group.inside.depth ≤ depthLimit then some r.group.inside.regex else none
  | _ :: _ => none

end Reader

/-- The expression that a pattern denotes; `none` if the pattern is not valid. -/
def parse? (pattern : String) : Option Regex := do
  let reader ← Reader.read (pattern.length + 1) {} pattern.toList
  reader.finish

end Chunkwise.Regex
