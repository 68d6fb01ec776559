import Chunkwise.Chunks.Basic
import Chunkwise.Report.Excerpt
import Chunkwise.Walk.Outcome

/-! What is said of a text that a grammar does not match. -/

namespace Chunkwise

structure SyntaxError where
  message : String
  /-- The name of the token that was wanted; none if no token in particular was. -/
  expected : Option String
  /-- The chunk that stands there; none at the end of the input. -/
  found : Option String
  /-- Where the chunk starts, in bytes. -/
  offset : Nat
  /-- The line, from one on. -/
  line : Nat
  /-- The character in the line, from one on. -/
  column : Nat
  /-- Where the chunk starts and ends, in bytes. -/
  span : Nat × Nat
  excerpt : String
  input : String
  deriving DecidableEq, Repr

namespace SyntaxError

/-- The first chunk from the failure on that is not empty, or the end. -/
def place (chunks : Chunks) (f : Failure) : Nat := min (chunks.skipEmpty f.position) chunks.size

def expectedName (f : Failure) : Option String :=
  match f.expected with
  | .unexpected => none
  | .infiniteLoop => none
  | t => some t.name

/-- A token's name as messages show it. -/
def showName (name : String) : String :=
  if name = Token.eof.name then name else Text.quoted name

/-- A chunk as messages show it. -/
def showFound : Option String → String
  | some chunk => Text.quoted chunk
  | none => "EOF"

def describe (expected found : Option String) : String :=
  match expected with
  | some name => "expected " ++ showName name ++ ", found " ++ showFound found
  | none => "unexpected " ++ showFound found

/-- The number of carets: the part of the chunk on its first line, and at least
one. -/
def width (found : Option String) : Nat :=
  max 1 (Excerpt.lineTail (found.getD "").toList).length

/-- The error that a failure amounts to. -/
def ofFailure (chunks : Chunks) (f : Failure) : SyntaxError :=
  let i := place chunks f
  let found := chunks.get? i
  let before := (chunks.before i).toList
  let after := (String.join (chunks.pieces.toList.drop i)).toList
  let expected := expectedName f
  { message := describe expected found
    expected
    found
    offset := chunks.offset i
    line := Excerpt.lineNumber before
    column := Excerpt.column before
    span := (chunks.offset i, chunks.offset (i + 1))
    excerpt := Excerpt.render before after (width found)
    input := chunks.text }

/-- The whole report: message, place and excerpt. -/
def display (e : SyntaxError) : String :=
  e.message ++ " at " ++ toString e.line ++ ":" ++ toString e.column ++ "\n\n" ++ e.excerpt

end SyntaxError

end Chunkwise
