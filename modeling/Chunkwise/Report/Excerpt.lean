/-! Where a place lies in a text, and the lines around it. A place is given by the
characters before it and those after it; lines end at newlines, and the carriage
returns before a newline are not shown. -/

namespace Chunkwise.Excerpt

/-- The part of the line before the place. -/
def lineHead (before : List Char) : List Char := (before.reverse.takeWhile (· ≠ '\n')).reverse

/-- The part of the line after the place. -/
def lineTail (after : List Char) : List Char := after.takeWhile (· ≠ '\n')

/-- The number of the line, from one on. -/
def lineNumber (before : List Char) : Nat := before.count '\n' + 1

/-- The number of the character in its line, from one on. -/
def column (before : List Char) : Nat := (lineHead before).length + 1

/-- The line before the one that holds the place. -/
def previousLine? (before : List Char) : Option (List Char) :=
  match before.reverse.dropWhile (· ≠ '\n') with
  | [] => none
  | _ :: earlier => some (earlier.takeWhile (· ≠ '\n')).reverse

/-- The line without the carriage returns at its end. -/
def trimReturns (line : List Char) : List Char := (line.reverse.dropWhile (· = '\r')).reverse

/-- A row of the excerpt: the gutter, right-aligned, and what stands beside it. -/
def row (width : Nat) (gutter : String) (content : List Char) : String :=
  String.ofList (List.replicate (width - gutter.length) ' ') ++ gutter ++ " | "
    ++ String.ofList content

/-- The line of a place, with the previous line above it unless that is blank, and
`width` carets under the place. -/
def render (before after : List Char) (width : Nat) : String :=
  let line := lineNumber before
  let gutter := (toString line).length
  let previous := match (previousLine? before).map trimReturns with
    | some (c :: cs) => [row gutter (toString (line - 1)) (c :: cs)]
    | _ => []
  let current := row gutter (toString line) (trimReturns (lineHead before ++ lineTail after))
  let carets := row gutter ""
    (List.replicate (lineHead before).length ' ' ++ List.replicate width '^')
  "\n".intercalate (previous ++ [current, carets])

end Chunkwise.Excerpt
