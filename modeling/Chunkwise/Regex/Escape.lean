import Chunkwise.Regex.Basic
import Chunkwise.Regex.Flag
import Chunkwise.Regex.Property

/-! What a backslash stands for in a pattern. A reader takes something from the
front of the pattern and leaves the rest; `none` means that it is not written
there. With backslashes where they are needed any text can be written as a
pattern that matches it and nothing else. -/

namespace Chunkwise.Regex

inductive Escape where
  /-- A character; with `byte` it was written as two hexadecimal digits. -/
  | literal (c : Char) (byte : Bool)
  | set (s : Text.Intervals)
  | assertion (a : Assertion)
  deriving DecidableEq, Repr

namespace Escape

/-- The characters that a backslash turns into themselves because they would
otherwise be operators. -/
def isOperator (c : Char) : Bool :=
  c ∈ ['\\', '.', '+', '*', '?', '(', ')', '|', '[', ']', '\x7b', '\x7d', '^', '$', '#', '&',
    '-', '~']

/-- Letters and digits are kept for other escapes, and angle brackets for the two
ends of a word. -/
def isEscapable (c : Char) : Bool :=
  isOperator c || (c.toNat < 128 && !c.isAlphanum && c != '<' && c != '>')

/-! ## Code points -/

def hexValue? (c : Char) : Option Nat :=
  if c.isDigit then some (c.toNat - '0'.toNat)
  else if 'a' ≤ c && c ≤ 'f' then some (c.toNat - 'a'.toNat + 10)
  else if 'A' ≤ c && c ≤ 'F' then some (c.toNat - 'A'.toNat + 10)
  else none

/-- The character whose code point the hexadecimal digits spell. -/
def hexChar? (digits : List Char) : Option Char := do
  let values ← digits.mapM hexValue?
  let n := values.foldl (fun n d => 16 * n + d) 0
  if n.isValidChar then some (Char.ofNat n) else none

/-- The next `n` characters. -/
def takeChars (f : Flags) : Nat → List Char → Option (List Char × List Char)
  | 0, cs => some ([], cs)
  | n + 1, cs =>
    match f.skip cs with
    | [] => none
    | c :: rest => (takeChars f n rest).map fun (cs, rest) => (c :: cs, rest)

/-- A code point: some digits in braces, or exactly `width` digits. -/
def readCodePoint (f : Flags) (width : Nat) (cs : List Char) : Option (Escape × List Char) :=
  match f.skip cs with
  | '\x7b' :: rest => do
    let (digits, rest) ← f.takeBraced false rest
    if digits.isEmpty then none else some (.literal (← hexChar? digits) false, rest)
  | rest => do
    let (digits, rest) ← takeChars f width rest
    some (.literal (← hexChar? digits) (width = 2), rest)

/-! ## Sets and assertions -/

def readSet (f : Flags) (negated : Bool) (s : Text.Intervals) (rest : List Char) :
    Option (Escape × List Char) :=
  (f.negated? negated s).map fun s => (.set s, rest)

/-- A property by the text in braces, or by one letter. -/
def readProperty (f : Flags) (negated : Bool) (cs : List Char) : Option (Escape × List Char) := do
  let (text, rest) ← match f.skip cs with
    | [] => none
    | '\x7b' :: rest => f.takeBraced false rest
    | '\\' :: _ => none
    | c :: rest => some ([c], rest)
  let s ← Property.read? text
  if f.unicode then readSet f negated (f.folded s) rest else none

/-- The word boundary named in braces, if letters or dashes stand there; a brace
with anything else in front opens a repetition count. -/
def readBoundary (f : Flags) (cs : List Char) : Option (WordPlace × List Char) :=
  match cs with
  | '\x7b' :: inside =>
    match f.skip inside with
    | [] => none
    | c :: _ =>
      if c.isAlpha || c = '-' then do
        let (name, rest) ← f.takeBraced false inside
        match String.ofList name with
        | "start" => some (.start, rest)
        | "end" => some (.stop, rest)
        | "start-half" => some (.notAfterWord, rest)
        | "end-half" => some (.notBeforeWord, rest)
        | _ => none
      else some (.boundary, cs)
  | _ => some (.boundary, cs)

/-- What stands behind a backslash. -/
def read (f : Flags) : List Char → Option (Escape × List Char)
  | [] => none
  | c :: rest =>
    match c with
    | 'x' => readCodePoint f 2 rest
    | 'u' => readCodePoint f 4 rest
    | 'U' => readCodePoint f 8 rest
    | 'p' => readProperty f false rest
    | 'P' => readProperty f true rest
    | 'd' => readSet f false f.digits rest
    | 's' => readSet f false f.blanks rest
    | 'w' => readSet f false f.wordChars rest
    | 'D' => readSet f true f.digits rest
    | 'S' => readSet f true f.blanks rest
    | 'W' => readSet f true f.wordChars rest
    | 'a' => some (.literal '\x07' false, rest)
    | 'f' => some (.literal '\x0c' false, rest)
    | 't' => some (.literal '\t' false, rest)
    | 'n' => some (.literal '\n' false, rest)
    | 'r' => some (.literal '\r' false, rest)
    | 'v' => some (.literal '\x0b' false, rest)
    | 'A' => some (.assertion .textStart, rest)
    | 'z' => some (.assertion .textEnd, rest)
    | 'b' => (readBoundary f rest).map fun (w, rest) => (.assertion (.word (!f.unicode) w), rest)
    | 'B' => some (.assertion (.word (!f.unicode) .notBoundary), rest)
    | '<' => some (.assertion (.word (!f.unicode) .start), rest)
    | '>' => some (.assertion (.word (!f.unicode) .stop), rest)
    | c => if isEscapable c then some (.literal c false, rest) else none

end Escape

/-! ## Escaped texts -/

def escapeChar (c : Char) : List Char := if Escape.isOperator c then ['\\', c] else [c]

/-- The text with a backslash before every operator. -/
def escape (text : String) : String := String.ofList (text.toList.flatMap escapeChar)

end Chunkwise.Regex
