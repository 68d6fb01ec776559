import Chunkwise.Text.CaseOrbit
import Chunkwise.Text.Letter

/-! The flags of a pattern: settings that change how the pattern after them is read
and what it means. -/

namespace Chunkwise.Regex

inductive Flag where
  | foldCase
  | manyLines
  | dotMatchesNewline
  /-- Carriage returns end lines, too. -/
  | returns
  /-- Repetitions prefer less unless they are marked. -/
  | swapGreed
  | unicode
  /-- Blanks in the pattern stand for nothing, and a hash starts a comment. -/
  | verbose
  deriving DecidableEq, Repr

def Flag.ofChar? : Char → Option Flag
  | 'i' => some .foldCase
  | 'm' => some .manyLines
  | 's' => some .dotMatchesNewline
  | 'R' => some .returns
  | 'U' => some .swapGreed
  | 'u' => some .unicode
  | 'x' => some .verbose
  | _ => none

/-- Which flags hold at a place of the pattern. -/
structure Flags where
  foldCase : Bool := false
  manyLines : Bool := false
  dotMatchesNewline : Bool := false
  returns : Bool := false
  swapGreed : Bool := false
  unicode : Bool := true
  verbose : Bool := false
  deriving DecidableEq, Repr

namespace Flags

def put (f : Flags) (on : Bool) : Flag → Flags
  | .foldCase => { f with foldCase := on }
  | .manyLines => { f with manyLines := on }
  | .dotMatchesNewline => { f with dotMatchesNewline := on }
  | .returns => { f with returns := on }
  | .swapGreed => { f with swapGreed := on }
  | .unicode => { f with unicode := on }
  | .verbose => { f with verbose := on }

def change (f : Flags) (set clear : List Flag) : Flags :=
  clear.foldl (·.put false ·) (set.foldl (·.put true ·) f)

/-! ## Sets under flags

Without `unicode` a set holds ASCII characters only, so no set can be negated. -/

def ascii : Text.Intervals := [(0x0, 0x7f)]

/-- The set, in any case if case is folded. -/
def folded (f : Flags) (s : Text.Intervals) : Text.Intervals :=
  if !f.foldCase then s
  else if f.unicode then Text.foldCase s
  else .inter (Text.foldCase s) ascii

def negated? (f : Flags) (negated : Bool) (s : Text.Intervals) : Option Text.Intervals :=
  if !negated then some s else if f.unicode then some s.compl else none

def digits (f : Flags) : Text.Intervals :=
  if f.unicode then Text.decimalDigits else [(0x30, 0x39)]

def blanks (f : Flags) : Text.Intervals :=
  if f.unicode then Text.blanks else [(0x9, 0xd), (0x20, 0x20)]

def wordChars (f : Flags) : Text.Intervals :=
  if f.unicode then Text.wordChars else Text.asciiWordChars

/-- What a dot stands for. It cannot be kept to ASCII. -/
def dot? (f : Flags) : Option Text.Intervals :=
  if !f.unicode then none
  else if f.dotMatchesNewline then some (.compl [])
  else if f.returns then some (.compl [(0xa, 0xa), (0xd, 0xd)])
  else some (.compl [(0xa, 0xa)])

/-! ## Blanks in the pattern -/

/-- The pattern without the blanks and comments at its front; `comment` says that
it starts within a comment. -/
def dropBlanks (comment : Bool) : List Char → List Char
  | [] => []
  | c :: rest =>
    if comment then dropBlanks (c ≠ '\n') rest
    else if c = '#' then dropBlanks true rest
    else if Text.isBlank c then dropBlanks false rest
    else c :: rest

/-- The pattern from the next character on that stands for something. -/
def skip (f : Flags) (cs : List Char) : List Char := if f.verbose then dropBlanks false cs else cs

/-- What stands before the next closing brace, and the pattern behind it. -/
def takeBraced (f : Flags) (comment : Bool) : List Char → Option (List Char × List Char)
  | [] => none
  | c :: rest =>
    if comment then takeBraced f (c ≠ '\n') rest
    else if c = '\x7d' then some ([], rest)
    else if f.verbose && c == '#' then takeBraced f true rest
    else if f.verbose && Text.isBlank c then takeBraced f false rest
    else (takeBraced f false rest).map fun (cs, behind) => (c :: cs, behind)

/-- The character behind a dash that tells whether the dash makes a range. Behind
the hash of a comment it is the next character that is not blank. -/
def behindDash? (f : Flags) (cs : List Char) : Option Char :=
  if f.verbose then
    match cs.dropWhile Text.isBlank with
    | '#' :: rest => (rest.dropWhile Text.isBlank).head?
    | rest => rest.head?
  else cs.head?

end Flags

end Chunkwise.Regex
