import Chunkwise.Chunks.Basic
import Chunkwise.Regex.Match

/-! Splitting a text around the matches of an expression. Filler and matches
alternate, with filler at both ends; two matches that touch leave an empty filler
between them. -/

namespace Chunkwise

/-- The places where a text of `size` characters is cut, as start and end of each
piece. `last` is where the previous piece ended, and the next match is searched
from `p`. A match that ends where the previous piece ended is stepped over by one
character, and one that starts at the very end is none. Two rounds move `p`, so
fuel of twice the size is enough. -/
def cuts (search : Nat → Option (Nat × Nat)) (size : Nat) : Nat → Nat → Nat → List (Nat × Nat)
  | 0, last, _ => [(last, size)]
  | fuel + 1, last, p =>
    if p < size then
      match search p with
      | none => [(last, size)]
      | some (start, stop) =>
        if size ≤ start then [(last, size)]
        else if stop = last then cuts search size fuel last (start + 1)
        else (last, start) :: (start, stop) :: cuts search size fuel stop stop
    else [(last, size)]

/-- The characters from `start` up to `stop`. -/
def slice (text : Array Char) (start stop : Nat) : String :=
  String.ofList (text.extract start stop).toList

/-- The text cut around every match of the program. -/
def Regex.Program.split (program : Regex.Program) (text : String) : Chunks :=
  let chars := text.toList.toArray
  let spans := cuts (program.search chars) chars.size (2 * chars.size + 1) 0 0
  ⟨(spans.map fun (start, stop) => slice chars start stop).toArray⟩

end Chunkwise
