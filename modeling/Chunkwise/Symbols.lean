/-! Interned names. A symbol is the place of a name in the order in which the
names first came, so it stays the same however many names follow. -/

namespace Chunkwise

structure Symbol where
  index : Nat
  deriving DecidableEq, Repr

structure Symbols where
  names : Array String := #[]
  deriving Repr

namespace Symbols

def size (s : Symbols) : Nat := s.names.size

def isEmpty (s : Symbols) : Bool := s.names.isEmpty

/-- The symbol of a name that is interned already. -/
def get? (s : Symbols) (name : String) : Option Symbol := (s.names.idxOf? name).map (⟨·⟩)

/-- The symbol of a name, which is added if it is new. -/
def intern (s : Symbols) (name : String) : Symbol × Symbols :=
  match s.get? name with
  | some symbol => (symbol, s)
  | none => (⟨s.size⟩, ⟨s.names.push name⟩)

def resolve? (s : Symbols) (symbol : Symbol) : Option String := s.names[symbol.index]?

/-- The names with their symbols, in order. -/
def toList (s : Symbols) : List (Symbol × String) :=
  s.names.toList.zipIdx.map fun (name, i) => (⟨i⟩, name)

def ofList (names : List String) : Symbols := names.foldl (fun s name => (s.intern name).2) {}

/-- A symbol belongs to one name. -/
theorem get?_inj {s : Symbols} {name name' : String} {symbol : Symbol}
    (h : s.get? name = some symbol) (h' : s.get? name' = some symbol) : name = name' := by
  have hname : ∀ {name}, s.get? name = some symbol → s.names.toList[symbol.index]? = some name := by
    intro name h
    obtain ⟨i, hi, rfl⟩ := Option.map_eq_some_iff.mp h
    have hi : s.names.toList.idxOf? name = some i := by
      rwa [← List.idxOf?_toArray, Array.toArray_toList]
    obtain ⟨hlt, he, _⟩ := List.idxOf?_eq_some_iff.mp hi
    rw [List.getElem?_eq_getElem hlt, he]
  exact Option.some.inj ((hname h).symm.trans (hname h'))

/-- What is said of a symbol that belongs to no name. -/
def outOfRange (symbol : Symbol) : String :=
  "Interner: symbol " ++ toString symbol.index ++ " out of range"

/-- The name of a symbol, which has to belong to one. -/
def resolve (s : Symbols) (symbol : Symbol) : Except String String :=
  match s.resolve? symbol with
  | some name => .ok name
  | none => .error (outOfRange symbol)

end Symbols

end Chunkwise
