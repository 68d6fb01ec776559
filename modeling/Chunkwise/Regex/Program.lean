import Chunkwise.Regex.Basic

/-! Programs: expressions as instructions. The code of an expression starts at a
given address and goes on at another one when the expression is matched. An
instruction that forks prefers its first way. -/

namespace Chunkwise.Regex

inductive Instruction where
  /-- Takes one character of a set. -/
  | one (set : Text.Intervals) (next : Nat)
  /-- Goes on if the place is right. -/
  | assertion (a : Assertion) (next : Nat)
  | jump (next : Nat)
  | fork (first second : Nat)
  | accept
  deriving DecidableEq, Repr

/-- Goes into a loop or past it; a greedy loop prefers going in. -/
def Instruction.enter (greedy : Bool) (body next : Nat) : Instruction :=
  if greedy then .fork body next else .fork next body

/-- The number of instructions of an expression. -/
def codeSize : Regex → Nat
  | .empty => 1
  | .one _ => 1
  | .assertion _ => 1
  | .group _ r => r.codeSize
  | .seq r s => r.codeSize + s.codeSize
  | .alt r s => r.codeSize + s.codeSize + 1
  | .loop r 0 none _ => if r.nullable then r.codeSize + 2 else r.codeSize + 1
  | .loop r (n + 1) none _ => (n + 1) * r.codeSize + 1
  | .loop r n (some m) _ => n * r.codeSize + (m - n) * (r.codeSize + 1) + 1

/-- The code `body`, which has `size` instructions, `n` times in a row from address
`base` on. -/
def copies (body : Nat → Nat → List Instruction) (size : Nat) : Nat → Nat → List Instruction
  | 0, _ => []
  | n + 1, base => body base (base + size) ++ copies body size n (base + size)

/-- The code `body` at most `n` times, with a way out to `next` before each time. -/
def options (body : Nat → Nat → List Instruction) (size : Nat) (greedy : Bool) (next : Nat) :
    Nat → Nat → List Instruction
  | 0, _ => []
  | n + 1, base =>
    .enter greedy (base + 1) next :: body (base + 1) (base + 1 + size)
      ++ options body size greedy next n (base + 1 + size)

/-- The code of an expression from address `base` on, which goes on at `next`. A
loop whose body can be matched without a character is entered at one instruction
and repeated at another, so that an empty first round still leads on. -/
def code : Regex → Nat → Nat → List Instruction
  | .empty, _, next => [.jump next]
  | .one s, _, next => [.one s next]
  | .assertion a, _, next => [.assertion a next]
  | .group _ r, base, next => r.code base next
  | .seq r s, base, next => r.code base (base + r.codeSize) ++ s.code (base + r.codeSize) next
  | .alt r s, base, next =>
    .fork (base + 1) (base + 1 + r.codeSize) :: r.code (base + 1) next
      ++ s.code (base + 1 + r.codeSize) next
  | .loop r 0 none greedy, base, next =>
    if r.nullable then
      .enter greedy (base + 1) next :: r.code (base + 1) (base + 1 + r.codeSize)
        ++ [.enter greedy (base + 1) next]
    else .enter greedy (base + 1) next :: r.code (base + 1) base
  | .loop r (n + 1) none greedy, base, next =>
    copies r.code r.codeSize (n + 1) base ++ [.enter greedy (base + n * r.codeSize) next]
  | .loop r n (some m) greedy, base, next =>
    copies r.code r.codeSize n base
      ++ options r.code r.codeSize greedy next (m - n) (base + n * r.codeSize) ++ [.jump next]

/-- The instructions of an expression; the first one is where it starts. -/
abbrev Program := Array Instruction

def compile (r : Regex) : Program := (r.code 0 r.codeSize ++ [Instruction.accept]).toArray

theorem length_copies (body : Nat → Nat → List Instruction) (size : Nat)
    (h : ∀ base next, (body base next).length = size) (n base : Nat) :
    (copies body size n base).length = n * size := by
  induction n generalizing base with
  | zero => simp [copies]
  | succ n ih => simp [copies, h, ih, Nat.succ_mul, Nat.add_comm]

theorem length_options (body : Nat → Nat → List Instruction) (size : Nat) (greedy : Bool)
    (next : Nat) (h : ∀ base next, (body base next).length = size) (n base : Nat) :
    (options body size greedy next n base).length = n * (size + 1) := by
  induction n generalizing base with
  | zero => simp [options]
  | succ n ih => simp [options, h, ih, Nat.succ_mul]; omega

theorem length_code (r : Regex) (base next : Nat) : (r.code base next).length = r.codeSize := by
  induction r generalizing base next with
  | empty => rfl
  | one s => rfl
  | assertion a => rfl
  | group i r ih => simp [code, codeSize, ih]
  | seq r s ihr ihs => simp [code, codeSize, ihr, ihs]
  | alt r s ihr ihs => simp [code, codeSize, ihr, ihs]
  | loop r least most greedy ih =>
    match least, most with
    | 0, none => by_cases h : r.nullable <;> simp [code, codeSize, ih, h]
    | n + 1, none => simp [code, codeSize, length_copies _ _ ih]
    | n, some m => simp [code, codeSize, length_copies _ _ ih, length_options _ _ _ _ ih]; omega

end Chunkwise.Regex
