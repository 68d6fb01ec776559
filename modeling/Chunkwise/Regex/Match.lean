import Std.Data.HashSet
import Chunkwise.Regex.Program
import Chunkwise.Text.Letter

/-! Matching by preference. A thread is an instruction and a place in the text; the
threads that a thread leads to are explored in the order of preference, each
before the next is looked at, and none twice. The first thread that accepts gives
the match. Places are numbers of characters, and assertions see the text on both
sides of their place. -/

namespace Chunkwise.Regex

/-! ## Assertions -/

/-- Whether the character in front of a place satisfies `p`. -/
def before (p : Char → Bool) (text : Array Char) (place : Nat) : Bool :=
  0 < place && text[place - 1]?.any p

/-- Whether the character behind a place satisfies `p`. -/
def after (p : Char → Bool) (text : Array Char) (place : Nat) : Bool := text[place]?.any p

def WordPlace.holds : WordPlace → (wordBefore wordAfter : Bool) → Bool
  | .boundary, b, a => b != a
  | .notBoundary, b, a => b == a
  | .start, b, a => !b && a
  | .stop, b, a => b && !a
  | .notAfterWord, b, _ => !b
  | .notBeforeWord, _, a => !a

/-- Whether a line starts at a place. None does between a carriage return and its
newline. -/
def startsLine (returns : Bool) (text : Array Char) (place : Nat) : Bool :=
  place == 0 || before (· == '\n') text place
    || (returns && before (· == '\r') text place && !after (· == '\n') text place)

/-- Whether a line ends at a place. None does between a carriage return and its
newline. -/
def endsLine (returns : Bool) (text : Array Char) (place : Nat) : Bool :=
  place == text.size || (returns && after (· == '\r') text place)
    || (after (· == '\n') text place && !(returns && before (· == '\r') text place))

def Assertion.holds (text : Array Char) (place : Nat) : Assertion → Bool
  | .textStart => place == 0
  | .textEnd => place == text.size
  | .lineStart returns => startsLine returns text place
  | .lineEnd returns => endsLine returns text place
  | .word ascii w =>
    let inWord := if ascii then Text.isAsciiWordChar else Text.isWordChar
    w.holds (before inWord text place) (after inWord text place)

/-! ## Threads -/

structure Thread where
  address : Nat
  place : Nat
  deriving DecidableEq, Repr

/-- Threads at neighbouring places and addresses get different hashes. -/
instance : Hashable Thread := ⟨fun t => UInt64.ofNat (4099 * t.place + t.address)⟩

/-- The threads that an instruction leads to from a place, the preferred one first. -/
def Instruction.next (text : Array Char) (place : Nat) : Instruction → List Thread
  | .one s next => if after s.has text place then [⟨next, place + 1⟩] else []
  | .assertion a next => if a.holds text place then [⟨next, place⟩] else []
  | .jump next => [⟨next, place⟩]
  | .fork first second => [⟨first, place⟩, ⟨second, place⟩]
  | .accept => []

namespace Program

/-- Explores threads and what they lead to, apart from those seen before, until one
accepts: the place where it does, and the threads seen. -/
def explore (program : Program) (text : Array Char) :
    Nat → List Thread → Std.HashSet Thread → Option Nat × Std.HashSet Thread
  | 0, _, seen => (none, seen)
  | _ + 1, [], seen => (none, seen)
  | fuel + 1, t :: rest, seen =>
    if seen.contains t then explore program text fuel rest seen
    else
      match program[t.address]? with
      | none => explore program text fuel rest (seen.insert t)
      | some .accept => (some t.place, seen.insert t)
      | some i => explore program text fuel (i.next text t.place ++ rest) (seen.insert t)

/-- A thread leads to two others at most, and each thread is explored once, so so
many steps are enough. -/
def enoughSteps (program : Program) (text : Array Char) : Nat :=
  2 * (program.size * (text.size + 1)) + 2

/-- Where the preferred match that starts at a place ends. -/
def matchAt (program : Program) (text : Array Char) (place : Nat) : Option Nat :=
  (explore program text (enoughSteps program text) [⟨0, place⟩] ∅).1

/-- The first match that starts at one of the `n` places from `place` on. What did
not lead to a match from an earlier start does not from a later one. -/
def searchFrom (program : Program) (text : Array Char) :
    Nat → Nat → Std.HashSet Thread → Option (Nat × Nat)
  | 0, _, _ => none
  | n + 1, place, seen =>
    match explore program text (enoughSteps program text) [⟨0, place⟩] seen with
    | (some stop, _) => some (place, stop)
    | (none, seen) => searchFrom program text n (place + 1) seen

/-- The leftmost match that starts at a place or later, as its start and its end. -/
def search (program : Program) (text : Array Char) (place : Nat) : Option (Nat × Nat) :=
  searchFrom program text (text.size + 1 - place) place ∅

/-- Whether the text holds a match. -/
def occursIn (program : Program) (text : String) : Bool :=
  (search program text.toList.toArray 0).isSome

end Program

end Chunkwise.Regex
