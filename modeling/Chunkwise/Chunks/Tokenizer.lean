import Chunkwise.Chunks.Split
import Chunkwise.Token

/-! A tokenizer splits texts by the patterns of its tokens, and remembers the
texts that it has split. -/

namespace Chunkwise

structure Tokenizer where
  /-- The alternation of the tokens' patterns, in their order. -/
  pattern : String
  /-- What the alternation denotes; none when no token matches text. -/
  program : Option Regex.Program
  /-- How many texts are remembered at most. -/
  cacheLimit : Option Nat := none
  cache : List (String × Chunks) := []

namespace Tokenizer

/-- The patterns of the tokens, each as a group, as alternatives in order. -/
def alternation (tokens : List Token) : String :=
  "|".intercalate ((tokens.filterMap Token.source?).map fun source => "(?:" ++ source ++ ")")

def ofTokens (tokens : List Token) (cacheLimit : Option Nat) : Except Defect Tokenizer :=
  let pattern := alternation tokens
  if pattern = "" then .ok { pattern, program := none, cacheLimit }
  else
    match Regex.parse? pattern with
    | some r => .ok { pattern, program := some r.compile, cacheLimit }
    | none => .error (.unreadable pattern)

/-- The chunks of a text. -/
def split (t : Tokenizer) (text : String) : Chunks :=
  match t.program with
  | some program => program.split text
  | none => .whole text

def cached (t : Tokenizer) : Nat := t.cache.length

/-- Whether the chunks of this text are remembered. -/
def remembers (t : Tokenizer) (text : String) : Bool := (t.cache.lookup text).isSome

/-- Remembers the chunks of a new text. A full memory is emptied first, and a
memory for no text stays empty. -/
def remember (t : Tokenizer) (text : String) (chunks : Chunks) : Tokenizer :=
  let full := t.cacheLimit.any (· ≤ t.cache.length)
  let cache := if full then [] else t.cache
  { t with cache := if t.cacheLimit = some 0 then cache else (text, chunks) :: cache }

/-- The chunks of a text, from memory if they are there. -/
def tokenize (t : Tokenizer) (text : String) : Chunks × Tokenizer :=
  match t.cache.lookup text with
  | some chunks => (chunks, t)
  | none =>
    let chunks := t.split text
    (chunks, t.remember text chunks)

end Tokenizer

end Chunkwise
