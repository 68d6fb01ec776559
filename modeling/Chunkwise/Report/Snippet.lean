import Chunkwise.Report.SyntaxError
import Chunkwise.Text.Visible

/-! A syntax error as an annotated line of its text, for a terminal. -/

namespace Chunkwise

/-- How the parts of a snippet are painted. -/
structure Snippet.Style where
  level : String → String
  title : String → String
  gutter : String → String
  mark : String → String

namespace Snippet

def plain : Style := ⟨id, id, id, id⟩

def ansi (codes text : String) : String := codes ++ text ++ "\x1b[0m"

/-- The level and the marks are bright red, the gutter is bright blue, all bold. -/
def colored : Style where
  level := ansi "\x1b[1m\x1b[91m"
  title := ansi "\x1b[1m"
  gutter := ansi "\x1b[1m\x1b[94m"
  mark := ansi "\x1b[1m\x1b[91m"

/-- Whether the character would rearrange the line that it stands in. -/
def rearranges (c : Char) : Bool :=
  (0x202a ≤ c.toNat && c.toNat ≤ 0x202e) || (0x2066 ≤ c.toNat && c.toNat ≤ 0x2069)

/-- The character that is shown instead of a control character. -/
def picture? (c : Char) : Option Char :=
  if c.toNat < 0x20 then some (Char.ofNat (0x2400 + c.toNat))
  else if c.toNat = 0x7f then some (Char.ofNat 0x2421)
  else if rearranges c then some (Char.ofNat 0xfffd)
  else none

/-- A character as it stands in the snippet: a tab is shown as blanks, a control
character by its picture, and a joiner not at all. -/
def showChar (c : Char) : List Char :=
  if c = '\t' then [' ', ' ', ' ', ' ']
  else if c.toNat = 0x200d then []
  else [(picture? c).getD c]

/-- How many columns the character takes in the snippet. -/
def columnsOf (c : Char) : Nat :=
  if c = '\t' then 4 else if (picture? c).isSome then 1 else Text.columns c

def width (cs : List Char) : Nat := cs.foldl (fun n c => n + columnsOf c) 0

/-- The line without the carriage return of its line end. -/
def trimLineEnd (line : List Char) : List Char :=
  match line.reverse with
  | '\r' :: rest => rest.reverse
  | _ => line

/-- The line that is shown: its number, its text, the part of it in front of the
place, and the part of the chunk that lies on it. A place behind the last newline
is shown at the end of the line that it ended. -/
structure View where
  number : Nat
  text : List Char
  before : List Char
  marked : List Char

def view (e : SyntaxError) : View :=
  let lines := e.input.splitOn "\n"
  let endsLine := e.line = lines.length ∧ 1 < lines.length ∧ lines.getLast? = some ""
  let number := if endsLine then e.line - 1 else e.line
  let line := (lines[number - 1]?.getD "").toList
  let text := if number < lines.length then trimLineEnd line else line
  let before := if endsLine then text else text.take (e.column - 1)
  { number, text, before
    marked := (text.drop before.length).take (e.found.getD "").length }

/-- The line of the error with the chunk marked. -/
def render (style : Style) (e : SyntaxError) : String :=
  let v := view e
  let blanks := fun n => String.ofList (List.replicate n ' ')
  let margin := blanks ((toString v.number).length + 1)
  let bar := style.gutter "|"
  let shown := String.ofList (v.text.flatMap showChar)
  let carets := String.ofList (List.replicate (max 1 (width v.marked)) '^')
  let label := if e.found.isSome then "found here" else "input ends here"
  "\n".intercalate
    [style.level "error" ++ style.title (": " ++ e.message),
     margin ++ bar,
     style.gutter (toString v.number) ++ " " ++ bar ++ (if shown = "" then "" else " " ++ shown),
     margin ++ bar ++ " " ++ blanks (width v.before) ++ style.mark carets ++ " "
       ++ style.mark label]

end Snippet

/-- The error as an annotated line, in colour if wanted. -/
def SyntaxError.render (e : SyntaxError) (inColor : Bool) : String :=
  Snippet.render (if inColor then Snippet.colored else Snippet.plain) e

end Chunkwise
