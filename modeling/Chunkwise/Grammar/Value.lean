/-! The values that parses produce. -/

namespace Chunkwise

inductive Value where
  | null
  | flag (b : Bool)
  | number (n : Nat)
  | text (s : String)
  | list (vs : List Value)
  /-- The value of an optional part that is there. -/
  | present (v : Value)
  | record (fields : List (String × Value))
  deriving Inhabited

namespace Value

mutual

/-- The texts in a value, from left to right. -/
def leaves : Value → List String
  | .text s => [s]
  | .list vs => leavesOfList vs
  | .present v => leaves v
  | .record fields => leavesOfFields fields
  | .null => []
  | .flag _ => []
  | .number _ => []

def leavesOfList : List Value → List String
  | [] => []
  | v :: vs => leaves v ++ leavesOfList vs

def leavesOfFields : List (String × Value) → List String
  | [] => []
  | (_, v) :: fields => leaves v ++ leavesOfFields fields

end

/-- The texts in a value, joined. -/
def concat (v : Value) : String := String.join v.leaves

/-- The number of values in a list. -/
def count : Value → Nat
  | .list vs => vs.length
  | _ => 0

/-- The value at a place of a list. -/
def pick (i : Nat) : Value → Value
  | .list vs => vs[i]?.getD .null
  | _ => .null

/-- The next number. -/
def next : Value → Value
  | .number n => .number (n + 1)
  | _ => .null

/-- The value under a name. -/
def tagged (name : String) (v : Value) : Value := .record [(name, v)]

def ofOption : Option Value → Value
  | some v => .present v
  | none => .null

def ofTexts (ss : List String) : Value := .list (ss.map .text)

end Value

end Chunkwise
