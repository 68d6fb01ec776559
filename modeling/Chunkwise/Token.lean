import Chunkwise.Defect
import Chunkwise.Regex.Escape
import Chunkwise.Regex.Match
import Chunkwise.Regex.Reader
import Chunkwise.Text.Quoted

/-! Tokens. A token gives the tokenizer a pattern to cut the text by, and says of
one chunk whether it is an instance of the token. Three tokens stand for places
rather than text: they match no chunk and have fixed names. -/

namespace Chunkwise

/-- How a token recognises a chunk. -/
inductive Token.Test where
  | literal (text : String)
  /-- The chunk as a whole matches; the expression is anchored at both ends. -/
  | pattern (anchored : Regex.Program)
  deriving DecidableEq, Repr

/-- A token that matches text. Two of them are the same token only if they have
the same identity, whatever they match. -/
structure Matcher where
  identity : Nat
  name : String
  source : String
  test : Token.Test
  deriving DecidableEq, Repr

inductive Token where
  /-- The end of the input. -/
  | eof
  /-- A mismatch that no token in particular would have mended. -/
  | unexpected
  /-- A repetition that did not move. -/
  | infiniteLoop
  | matcher (m : Matcher)
  deriving DecidableEq, Repr

namespace Token

/-- A token that matches exactly this text. -/
def literal (identity : Nat) (text : String) : Token :=
  .matcher { identity, name := text, source := Regex.escape text, test := .literal text }

/-- The anchoring is done in the written pattern, before it is read. -/
def anchored (source : String) : String := "^(?:" ++ source ++ ")$"

/-- A token that matches the chunks that the pattern matches as a whole. -/
def pattern (identity : Nat) (source : String) : Except Defect Token :=
  match Regex.parse? (anchored source) with
  | some r => .ok (.matcher { identity, name := source, source, test := .pattern r.compile })
  | none => .error (.unreadable source)

/-- The token under another name, which makes it another token. A token that
matches no text keeps its name. -/
def named (identity : Nat) (name : String) : Token → Token
  | .matcher m => .matcher { m with identity, name }
  | t => t

def name : Token → String
  | .eof => "EOF"
  | .unexpected => "UNEXPECTED"
  | .infiniteLoop => "INFINITE_LOOP"
  | .matcher m => m.name

/-- The pattern that the token gives to the tokenizer. -/
def source? : Token → Option String
  | .matcher m => some m.source
  | _ => none

def isSentinel : Token → Bool
  | .matcher _ => false
  | _ => true

def isEof : Token → Bool
  | .eof => true
  | _ => false

/-- Whether the chunk is an instance of the token. -/
def accepts : Token → String → Bool
  | .matcher m, chunk =>
    match m.test with
    | .literal text => chunk == text
    | .pattern program => program.occursIn chunk
  | _, _ => false

/-- Whether two tokens are the same one. -/
def same : Token → Token → Bool
  | .matcher m, .matcher n => m.identity == n.identity
  | .eof, .eof => true
  | .unexpected, .unexpected => true
  | .infiniteLoop, .infiniteLoop => true
  | _, _ => false

def describe : Token → String
  | .matcher m => "Token(" ++ Text.quoted m.name ++ ")"
  | t => t.name

end Token

namespace Matcher

def isLiteral (m : Matcher) : Bool :=
  match m.test with
  | .literal _ => true
  | .pattern _ => false

def describe (m : Matcher) : String :=
  "Matcher \x7b name: " ++ Text.quoted m.name ++ ", source: " ++ Text.quoted m.source ++ " \x7d"

end Matcher

end Chunkwise
