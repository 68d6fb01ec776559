import Chunkwise.Text.Intervals

/-! Regular expressions, and the ways to put them together. An expression is kept
in a simple form: sequences and choices are flat, and what all branches of a
choice start with stands in front of it. A pattern says where text is cut or
whether it is accepted, never what its groups captured, so a group only marks that
two expressions are not the same one. -/

namespace Chunkwise

/-- Where an empty match stands between characters inside and outside of words. -/
inductive Regex.WordPlace where
  | boundary
  | notBoundary
  | start
  | stop
  | notAfterWord
  | notBeforeWord
  deriving DecidableEq, Repr

/-- What an empty match may demand of the place where it stands. -/
inductive Regex.Assertion where
  | textStart
  | textEnd
  /-- Lines end at newlines, or with `returns` also at carriage returns and at the
  pairs of both. -/
  | lineStart (returns : Bool)
  | lineEnd (returns : Bool)
  /-- With `ascii`, words are made of ASCII characters only. -/
  | word (ascii : Bool) (place : Regex.WordPlace)
  deriving DecidableEq, Repr

inductive Regex where
  | empty
  /-- One character of a set. -/
  | one (set : Text.Intervals)
  | assertion (a : Regex.Assertion)
  /-- A group, which matches what its expression matches. -/
  | group (index : Nat) (r : Regex)
  | seq (r s : Regex)
  /-- Either expression; the first is preferred. -/
  | alt (r s : Regex)
  /-- At least `least` and at most `most` times, preferring more if `greedy`. -/
  | loop (r : Regex) (least : Nat) (most : Option Nat) (greedy : Bool)
  deriving DecidableEq, Repr

namespace Regex

/-- Whether the expression can match without a character. -/
def nullable : Regex → Bool
  | .empty => true
  | .one _ => false
  | .assertion _ => true
  | .group _ r => r.nullable
  | .seq r s => r.nullable && s.nullable
  | .alt r s => r.nullable || s.nullable
  | .loop r least _ _ => least == 0 || r.nullable

/-- Whether the expression matches no character at all. -/
def isZeroWidth : Regex → Bool
  | .empty => true
  | .one _ => false
  | .assertion _ => true
  | .group _ r => r.isZeroWidth
  | .seq r s => r.isZeroWidth && s.isZeroWidth
  | .alt r s => r.isZeroWidth && s.isZeroWidth
  | .loop r _ _ _ => r.isZeroWidth

/-! ## Sequences -/

/-- The expressions that are matched one after another. -/
def parts : Regex → List Regex
  | .empty => []
  | .seq r s => r.parts ++ s.parts
  | r => [r]

def inSequence : List Regex → Regex
  | [] => .empty
  | [r] => r
  | r :: rs => .seq r (inSequence rs)

/-- The expressions one after another. -/
def concat (rs : List Regex) : Regex := inSequence (rs.flatMap parts)

/-- A single given character. -/
def isChar : Regex → Bool
  | .one [(lo, hi)] => lo == hi
  | _ => false

/-- The parts of a sequence, with characters that stand together as one part. -/
def atoms : List Regex → List (List Regex)
  | [] => []
  | r :: rs =>
    match atoms rs with
    | (s :: run) :: rest =>
      if r.isChar && s.isChar then (r :: s :: run) :: rest else [r] :: (s :: run) :: rest
    | rest => [r] :: rest

/-! ## Choices -/

/-- The expressions of which one is matched. -/
def branches : Regex → List Regex
  | .alt r s => r.branches ++ s.branches
  | r => [r]

/-- The first expression, or else one of the others. -/
def inChoice (r : Regex) : List Regex → Regex
  | [] => r
  | s :: rest => .alt r (inChoice s rest)

def set? : Regex → Option Text.Intervals
  | .one s => some s
  | _ => none

/-- The sets of the expressions, if they are all characters or all proper sets. -/
def allSets? (rs : List Regex) : Option (List Text.Intervals) :=
  if rs.all isChar || rs.all (!isChar ·) then rs.mapM set? else none

/-- One of the expressions, the earlier the better. Characters and sets are taken
together as one set. -/
def oneOf (rs : List Regex) : Regex :=
  match rs.flatMap branches with
  | [] => .one []
  | [r] => r
  | r :: rest =>
    match allSets? (r :: rest) with
    | some sets => .one (.ofList sets.flatten)
    | none => inChoice r rest

/-- The number of parts that both sequences start with. -/
def commonLength : List (List Regex) → List (List Regex) → Nat
  | a :: as, b :: bs => if a = b then commonLength as bs + 1 else 0
  | _, _ => 0

/-- The number of parts that all sequences start with; none if one of them is no
proper sequence. -/
def sharedLength (first : List (List Regex)) (others : List (List (List Regex))) : Nat :=
  if (first :: others).all (2 ≤ ·.length) then
    others.foldl (fun n other => min n (commonLength first other)) first.length
  else 0

/-- One of the expressions, the earlier the better. What they all start with is
matched before the choice is made. -/
def choice (rs : List Regex) : Regex :=
  match (rs.flatMap branches).map fun r => atoms r.parts with
  | first :: second :: rest =>
    match sharedLength first (second :: rest) with
    | 0 => oneOf rs
    | n + 1 =>
      let tails := (first :: second :: rest).map fun as => concat (as.drop (n + 1)).flatten
      concat ((first.take (n + 1)).flatten ++ [oneOf tails])
  | _ => oneOf rs

/-! ## Repetitions -/

/-- The expression again and again. Repeating what matches no character changes
nothing after the first time. -/
def repeated (r : Regex) (least : Nat) (most : Option Nat) (greedy : Bool) : Regex :=
  let (least, most) :=
    if r.isZeroWidth then (min least 1, some (min (most.getD 1) 1)) else (least, most)
  if most = some 0 then .empty
  else if least = 1 ∧ most = some 1 then r
  else .loop r least most greedy

end Regex

end Chunkwise
