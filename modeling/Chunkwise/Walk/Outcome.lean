import Chunkwise.Token

/-! How a walk over the chunks ends: with a value, or with the place where it
failed and the token that it wanted there. -/

namespace Chunkwise

/-- A failure at a chunk; the number of chunks stands for the end of the input. -/
structure Failure where
  position : Nat
  expected : Token
  deriving DecidableEq, Repr

/-- The deeper of two failures, and the later one of two that are equally deep. -/
def Failure.deepest (before : Option Failure) (f : Failure) : Failure :=
  match before with
  | some d => if d.position ≤ f.position then f else d
  | none => f

/-- The deeper of two failures is one of them. -/
theorem Failure.deepest_eq_or (before : Option Failure) (f : Failure) :
    Failure.deepest before f = f ∨ Failure.deepest before f ∈ before := by
  cases before with
  | none => exact .inl rfl
  | some d =>
    unfold Failure.deepest
    dsimp only
    split
    · exact .inl rfl
    · exact .inr rfl

inductive Outcome (α : Type) where
  | success (value : α)
  | failure (f : Failure)
  deriving DecidableEq, Repr

namespace Outcome

def isSuccess {α : Type} : Outcome α → Bool
  | .success _ => true
  | .failure _ => false

def map {α β : Type} (f : α → β) : Outcome α → Outcome β
  | .success v => .success (f v)
  | .failure e => .failure e

@[simp] theorem isSuccess_map {α β : Type} (f : α → β) (o : Outcome α) :
    (o.map f).isSuccess = o.isSuccess := by
  cases o <;> rfl

end Outcome

end Chunkwise
