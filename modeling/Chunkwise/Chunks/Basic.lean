/-! The chunks of a text: consecutive pieces that make up the whole of it. Empty
pieces are kept. Offsets count bytes of UTF-8. -/

namespace Chunkwise

structure Chunks where
  pieces : Array String
  deriving DecidableEq, Repr

namespace Chunks

def size (c : Chunks) : Nat := c.pieces.size

def get? (c : Chunks) (i : Nat) : Option String := c.pieces[i]?

def text (c : Chunks) : String := String.join c.pieces.toList

/-- The text in front of chunk `i`. -/
def before (c : Chunks) (i : Nat) : String := String.join (c.pieces.toList.take i)

/-- Where chunk `i` starts; the length of the text behind the last chunk. -/
def offset (c : Chunks) (i : Nat) : Nat :=
  c.pieces.foldl (fun n piece => n + piece.utf8ByteSize) 0 0 i

/-- Where chunk `i` starts and where it ends. -/
def span? (c : Chunks) (i : Nat) : Option (Nat × Nat) :=
  if i < c.size then some (c.offset i, c.offset (i + 1)) else none

/-- Whether there is a chunk `i` and it is empty. -/
def emptyAt (c : Chunks) (i : Nat) : Bool := (c.get? i).any String.isEmpty

/-- Steps over at most `n` empty chunks from chunk `i` on. -/
def stepOver (c : Chunks) : Nat → Nat → Nat
  | 0, i => i
  | n + 1, i => if c.emptyAt i then stepOver c n (i + 1) else i

/-- The first place from `i` on where no empty chunk stands. -/
def skipEmpty (c : Chunks) (i : Nat) : Nat := c.stepOver (c.size - i) i

/-- The last place up to `i` that is not behind an empty chunk. -/
def skipEmptyBack (c : Chunks) : Nat → Nat
  | 0 => 0
  | i + 1 => if c.emptyAt i then skipEmptyBack c i else i + 1

/-- A text in one piece. -/
def whole (text : String) : Chunks := ⟨#[text]⟩

theorem before_of_size_le {c : Chunks} {i : Nat} (h : c.size ≤ i) : c.before i = c.text := by
  rw [before, text, List.take_of_length_le (by simpa [size] using h)]

theorem foldl_utf8ByteSize (pieces : List String) (n : Nat) :
    pieces.foldl (fun n piece => n + piece.utf8ByteSize) n
      = n + (String.join pieces).utf8ByteSize := by
  induction pieces generalizing n with
  | nil => simp
  | cons p ps ih => simp [ih, Nat.add_assoc]

/-- A chunk starts behind the text in front of it. -/
theorem offset_eq (c : Chunks) (i : Nat) : c.offset i = (c.before i).utf8ByteSize := by
  have h : c.offset i = (c.pieces.take i).foldl (fun n piece => n + piece.utf8ByteSize) 0 := by
    simp [offset, Array.foldl_eq_foldl_extract]
  rw [h, ← Array.foldl_toList]
  simpa [before] using foldl_utf8ByteSize (c.pieces.toList.take i) 0

end Chunks

end Chunkwise
