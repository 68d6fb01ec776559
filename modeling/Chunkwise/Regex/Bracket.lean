import Chunkwise.Regex.Escape

/-! Bracket expressions: sets of characters by their members, by ranges, by the
names of classes and by other bracket expressions, joined by operators on sets. -/

namespace Chunkwise.Regex

inductive SetOp where
  | inter
  | diff
  | symmDiff
  deriving DecidableEq, Repr

def SetOp.apply : SetOp → Text.Intervals → Text.Intervals → Text.Intervals
  | .inter => .inter
  | .diff => .diff
  | .symmDiff => .symmDiff

/-- A bracket expression that is still open: the members since the last operator,
and that operator with its left side. Sets are kept together with how deeply
bracket expressions are nested in them. -/
structure Bracket where
  negated : Bool
  left : Option (SetOp × Text.Intervals × Nat) := none
  members : Text.Intervals := []
  /-- How many members there are. -/
  count : Nat := 0
  /-- How deep the deepest member is. -/
  depth : Nat := 0

namespace Bracket

def add (b : Bracket) (s : Text.Intervals) (depth : Nat) : Bracket :=
  { b with members := .union b.members s, count := b.count + 1, depth := max b.depth depth }

/-- What the expression denotes so far, with its depth; operators group to the
left. -/
def value (b : Bracket) : Text.Intervals × Nat :=
  let depth := if b.count < 2 then b.depth else b.depth + 1
  match b.left with
  | none => (b.members, depth)
  | some (op, s, leftDepth) => (op.apply s b.members, max leftDepth depth + 1)

def operator (b : Bracket) (op : SetOp) : Bracket :=
  { negated := b.negated, left := some (op, b.value) }

/-- The set that the closed expression denotes, with its depth. -/
def close (f : Flags) (b : Bracket) : Option (Text.Intervals × Nat) :=
  (f.negated? b.negated b.value.1).map (·, b.value.2 + 1)

/-! ## Members -/

/-- The named classes; they hold ASCII characters only. -/
def named? (name : String) : Option Text.Intervals :=
  match name with
  | "alnum" => some [(0x30, 0x39), (0x41, 0x5a), (0x61, 0x7a)]
  | "alpha" => some [(0x41, 0x5a), (0x61, 0x7a)]
  | "ascii" => some [(0x0, 0x7f)]
  | "blank" => some [(0x9, 0x9), (0x20, 0x20)]
  | "cntrl" => some [(0x0, 0x1f), (0x7f, 0x7f)]
  | "digit" => some [(0x30, 0x39)]
  | "graph" => some [(0x21, 0x7e)]
  | "lower" => some [(0x61, 0x7a)]
  | "print" => some [(0x20, 0x7e)]
  | "punct" => some [(0x21, 0x2f), (0x3a, 0x40), (0x5b, 0x60), (0x7b, 0x7e)]
  | "space" => some [(0x9, 0xd), (0x20, 0x20)]
  | "upper" => some [(0x41, 0x5a)]
  | "word" => some [(0x30, 0x39), (0x41, 0x5a), (0x5f, 0x5f), (0x61, 0x7a)]
  | "xdigit" => some [(0x30, 0x39), (0x41, 0x46), (0x61, 0x66)]
  | _ => none

/-- The class whose name stands in front of a colon and a closing bracket. -/
def readName (cs : List Char) : Option (Text.Intervals × List Char) :=
  match cs.dropWhile (· ≠ ':') with
  | ':' :: ']' :: rest => (named? (String.ofList (cs.takeWhile (· ≠ ':')))).map (·, rest)
  | _ => none

/-- A named class, read behind its opening bracket: the class and whether it is
negated. -/
def readNamed : List Char → Option ((Text.Intervals × Bool) × List Char)
  | ':' :: '^' :: rest => (readName rest).map fun (s, rest) => ((s, true), rest)
  | ':' :: rest => (readName rest).map fun (s, rest) => ((s, false), rest)
  | _ => none

def readMember (f : Flags) : List Char → Option (Escape × List Char)
  | [] => none
  | '\\' :: rest => Escape.read f rest
  | c :: rest => some (.literal c false, rest)

/-- The characters from `lo` to `hi`. Without `unicode` they are ASCII characters. -/
def range? (f : Flags) (lo hi : Char) : Option Text.Intervals :=
  if hi < lo || (!f.unicode && 0x7f < hi.toNat) then none
  else some (f.folded [(lo.toNat, hi.toNat)])

/-- The characters of a member that makes no range. -/
def single? (f : Flags) : Escape → Option Text.Intervals
  | .literal c _ => range? f c c
  | .set s => some s
  | .assertion _ => none

/-- A member of a bracket expression, or a range of them. A dash before a closing
bracket or another dash makes no range. -/
def readRange (f : Flags) (cs : List Char) : Option (Text.Intervals × List Char) := do
  let (first, rest) ← readMember f cs
  let rest := f.skip rest
  let alone := (single? f first).map (·, rest)
  match rest with
  | [] => none
  | '-' :: behind =>
    if f.behindDash? behind = some ']' ∨ f.behindDash? behind = some '-' then alone
    else
      let (last, rest) ← readMember f (f.skip behind)
      match first, last with
      | .literal lo _, .literal hi _ => (range? f lo hi).map (·, rest)
      | _, _ => none
  | _ => alone

/-! ## Whole expressions -/

/-- Dashes at the start of an expression stand for themselves; `comment` says that
it starts within a comment. -/
def dashes (f : Flags) (comment : Bool) (b : Bracket) : List Char → Bracket × List Char
  | [] => (b, [])
  | c :: rest =>
    if comment then dashes f (c ≠ '\n') b rest
    else if c = '-' then dashes f false (b.add [(0x2d, 0x2d)] 0) rest
    else if f.verbose && c == '#' then dashes f true b rest
    else if f.verbose && Text.isBlank c then dashes f false b rest
    else (b, c :: rest)

/-- In front of the members, dashes or else a closing bracket stand for themselves. -/
def startMembers (f : Flags) (negated : Bool) : List Char → Bracket × List Char
  | ']' :: rest => (add { negated } [(0x5d, 0x5d)] 0, rest)
  | cs => dashes f false { negated } cs

/-- Behind an opening bracket a caret negates. -/
def start (f : Flags) (cs : List Char) : Bracket × List Char :=
  match f.skip cs with
  | '^' :: rest => startMembers f true (f.skip rest)
  | cs => startMembers f false cs

/-- The rest of a bracket expression. The innermost open bracket is `b`, those
around it are `outer`; every round reads at least one character. -/
def readRest (f : Flags) : Nat → Bracket → List Bracket → List Char →
    Option ((Text.Intervals × Nat) × List Char)
  | 0, _, _, _ => none
  | fuel + 1, b, outer, cs =>
    match f.skip cs with
    | [] => none
    | '[' :: rest =>
      match readNamed rest with
      | some ((s, negated), rest) => do
        let s ← f.negated? negated (f.folded s)
        readRest f fuel (b.add s 0) outer rest
      | none =>
        let (inner, rest) := start f rest
        readRest f fuel inner (b :: outer) rest
    | ']' :: rest => do
      let (s, depth) ← b.close f
      match outer with
      | [] => some ((s, depth), rest)
      | up :: outer => readRest f fuel (up.add s depth) outer rest
    | '&' :: '&' :: rest => readRest f fuel (b.operator .inter) outer rest
    | '-' :: '-' :: rest => readRest f fuel (b.operator .diff) outer rest
    | '~' :: '~' :: rest => readRest f fuel (b.operator .symmDiff) outer rest
    | cs => do
      let (s, rest) ← readRange f cs
      readRest f fuel (b.add s 0) outer rest

/-- A bracket expression, read behind its opening bracket: its set and depth. -/
def read (f : Flags) (cs : List Char) : Option ((Text.Intervals × Nat) × List Char) :=
  let (b, rest) := start f cs
  readRest f (rest.length + 1) b [] rest

end Bracket

end Chunkwise.Regex
