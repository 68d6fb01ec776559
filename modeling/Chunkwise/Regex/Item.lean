import Chunkwise.Regex.Bracket
import Chunkwise.Text.Letter

/-! The items of a written pattern: expressions that match a character or a place,
the ends of groups, bars, quantifiers and flag settings. An item is read from the
front of the pattern under the flags that hold there, and leaves the rest; `none`
means that no item is written there. -/

namespace Chunkwise.Regex

/-- How a group is opened. -/
inductive Opening where
  /-- A group that is counted, and that may have a name. -/
  | counted (name : Option String)
  /-- A group with flags of its own. -/
  | plain (inside : Flags)
  deriving DecidableEq, Repr

inductive Item where
  /-- An expression, and how deeply bracket expressions are nested in it. -/
  | piece (r : Regex) (depth : Nat)
  | opening (o : Opening)
  | closing
  | bar
  | quantifier (least : Nat) (most : Option Nat) (greedy : Bool)
  /-- The flags that hold from here to the end of the enclosing group. -/
  | flags (f : Flags)
  deriving DecidableEq, Repr

namespace Item

/-! ## Characters and places -/

/-- A given character. Without `unicode` case is folded for ASCII characters only,
and two hexadecimal digits cannot stand for another one. -/
def literal? (f : Flags) (c : Char) (byte : Bool) : Option Regex :=
  if f.unicode || c.toNat < 0x80 then some (.one (f.folded (.single c.toNat)))
  else if byte then none
  else some (.one (.single c.toNat))

def caret (f : Flags) : Assertion := if f.manyLines then .lineStart f.returns else .textStart

def dollar (f : Flags) : Assertion := if f.manyLines then .lineEnd f.returns else .textEnd

def ofEscape (f : Flags) : Escape → Option Regex
  | .literal c byte => literal? f c byte
  | .set s => some (.one s)
  | .assertion a => some (.assertion a)

/-! ## Quantifiers -/

/-- The digits at the front of the pattern, and the pattern behind them; `comment`
says that it starts within a comment. -/
def takeDigits (f : Flags) (comment : Bool) : List Char → List Char × List Char
  | [] => ([], [])
  | c :: rest =>
    if comment then takeDigits f (c ≠ '\n') rest
    else if c.isDigit then
      let (digits, rest) := takeDigits f false rest
      (c :: digits, rest)
    else if f.verbose && c == '#' then takeDigits f true rest
    else if f.verbose && Text.isBlank c then takeDigits f false rest
    else ([], c :: rest)

/-- A number of times: a decimal number of at most 32 bits, with blanks around it. -/
def readCount (f : Flags) (cs : List Char) : Option (Nat × List Char) :=
  let (digits, rest) := takeDigits f false (cs.dropWhile Text.isBlank)
  let n := Nat.ofDigitChars 10 digits 0
  if digits.isEmpty || UInt32.size ≤ n then none else some (n, rest.dropWhile Text.isBlank)

/-- The upper bound of a counted repetition, up to its closing brace. -/
def readMost (f : Flags) (least : Nat) (cs : List Char) :
    Option ((Nat × Option Nat) × List Char) := do
  let (most, cs) ← readCount f cs
  match cs with
  | '\x7d' :: rest => if least ≤ most then some ((least, some most), rest) else none
  | _ => none

/-- The bounds of a counted repetition, read behind its opening brace. -/
def readBounds (f : Flags) (cs : List Char) : Option ((Nat × Option Nat) × List Char) := do
  let (least, cs) ← readCount f (f.skip cs)
  match cs with
  | '\x7d' :: rest => some ((least, some least), rest)
  | ',' :: cs =>
    match f.skip cs with
    | '\x7d' :: rest => some ((least, none), rest)
    | cs => readMost f least cs
  | _ => none

/-- A quantifier is greedy unless a question mark follows it. -/
def quantified (least : Nat) (most : Option Nat) : List Char → Item × List Char
  | '?' :: rest => (.quantifier least most false, rest)
  | rest => (.quantifier least most true, rest)

/-! ## Groups -/

/-- Flags to set, then behind a dash flags to clear; none twice, and the dash not
last. -/
def readFlags (f : Flags) (cs : List Char) : Option Flags := do
  let set ← (cs.takeWhile (· ≠ '-')).mapM Flag.ofChar?
  let negative := (cs.dropWhile (· ≠ '-')).drop 1
  let clear ← negative.mapM Flag.ofChar?
  let dangling := negative.isEmpty && '-' ∈ cs
  if dangling || !(set ++ clear).Nodup then none else some (f.change set clear)

/-- A group name starts with a letter or an underscore; numbers, dots and square
brackets may follow. -/
def isGroupName : List Char → Bool
  | [] => false
  | c :: rest =>
    (c == '_' || Text.isLetter c) &&
      rest.all fun c => c ∈ ['_', '.', '[', ']'] || Text.isLetterOrNumber c

def readGroupName (cs : List Char) : Option (Item × List Char) := do
  let name := cs.takeWhile (· ≠ '>')
  let rest ← (cs.dropWhile (· ≠ '>')).tail?
  if isGroupName name then some (.opening (.counted (some (String.ofList name))), rest) else none

/-- The opening of a group with flags of its own or a setting of flags, behind the
question mark. -/
def readSetting (f : Flags) (cs : List Char) : Option (Item × List Char) := do
  let isEnd := fun c : Char => c == ':' || c == ')'
  let letters := cs.takeWhile (!isEnd ·)
  let inside ← readFlags f letters
  match cs.dropWhile (!isEnd ·) with
  | ':' :: rest => some (.opening (.plain inside), rest)
  | ')' :: rest => if letters.isEmpty then none else some (.flags inside, rest)
  | _ => none

/-- The opening of a group or a setting of flags, behind its parenthesis. Looking
around is not supported. -/
def readGroup (f : Flags) (cs : List Char) : Option (Item × List Char) :=
  match f.skip cs with
  | '?' :: 'P' :: '<' :: rest => readGroupName rest
  | '?' :: '<' :: rest => readGroupName rest
  | '?' :: rest => readSetting f rest
  | rest => some (.opening (.counted none), rest)

/-! ## Items -/

/-- The item that starts with `c` and goes on in `rest`. -/
def read (f : Flags) (c : Char) (rest : List Char) : Option (Item × List Char) :=
  match c with
  | '(' => readGroup f rest
  | ')' => some (.closing, rest)
  | '|' => some (.bar, rest)
  | '[' => (Bracket.read f rest).map fun ((s, depth), rest) => (.piece (.one s) depth, rest)
  | '?' => some (quantified 0 (some 1) rest)
  | '*' => some (quantified 0 none rest)
  | '+' => some (quantified 1 none rest)
  | '\x7b' => (readBounds f rest).map fun ((least, most), r) => quantified least most (f.skip r)
  | '.' => f.dot?.map fun s => (.piece (.one s) 0, rest)
  | '^' => some (.piece (.assertion (caret f)) 0, rest)
  | '$' => some (.piece (.assertion (dollar f)) 0, rest)
  | '\\' => do
    let (e, rest) ← Escape.read f rest
    some (.piece (← ofEscape f e) 0, rest)
  | c => (literal? f c false).map fun r => (.piece r 0, rest)

end Item

end Chunkwise.Regex
