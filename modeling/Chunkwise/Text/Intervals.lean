/-! Sets of characters, given as intervals of code points, and how such sets are
written down in tables. -/

namespace Chunkwise.Text

/-- Ascending intervals of code points, both ends included, with a gap between any
two of them. -/
abbrev Intervals := List (Nat × Nat)

namespace Intervals

/-- Whether a code point lies in one of the intervals. -/
def covers (s : Intervals) (c : Nat) : Bool := s.any fun (lo, hi) => lo ≤ c && c ≤ hi

/-- Whether a character belongs to the set. -/
def has (s : Intervals) (c : Char) : Bool := s.covers c.toNat

/-! ## Sets from sets -/

def single (c : Nat) : Intervals := [(c, c)]

/-- Joins the interval from `lo` to `hi` with those after it, whose starts ascend. -/
def joinFrom (lo hi : Nat) : List (Nat × Nat) → Intervals
  | [] => [(lo, hi)]
  | (a, b) :: rest =>
    if a ≤ hi + 1 then joinFrom lo (max hi b) rest else (lo, hi) :: joinFrom a b rest

/-- The set that intervals in any order make up. -/
def ofList (parts : List (Nat × Nat)) : Intervals :=
  match parts.mergeSort (fun x y => x.1 ≤ y.1) with
  | [] => []
  | (lo, hi) :: rest => joinFrom lo hi rest

def union (s t : Intervals) : Intervals := ofList (s ++ t)

/-- The code points from `start` on that are in none of the intervals. -/
def complFrom (start : Nat) : Intervals → Intervals
  | [] => if start ≤ 0x10ffff then [(start, 0x10ffff)] else []
  | (lo, hi) :: rest =>
    if start < lo then (start, lo - 1) :: complFrom (hi + 1) rest else complFrom (hi + 1) rest

def compl (s : Intervals) : Intervals := complFrom 0 s

def inter (s t : Intervals) : Intervals := compl (union (compl s) (compl t))

def diff (s t : Intervals) : Intervals := inter s (compl t)

def symmDiff (s t : Intervals) : Intervals := union (diff s t) (diff t s)

theorem covers_single (c d : Nat) : (single c).covers d = (d == c) := by
  rw [Bool.eq_iff_iff]
  simp only [single, covers, List.any_cons, List.any_nil, Bool.or_false, Bool.and_eq_true,
    decide_eq_true_eq, beq_iff_eq]
  omega

/-- Joining intervals does not change what they cover. -/
theorem covers_joinFrom (c : Nat) {lo hi : Nat} {rest : List (Nat × Nat)}
    (h : ((lo, hi) :: rest).Pairwise (·.1 ≤ ·.1)) :
    (joinFrom lo hi rest).covers c = covers ((lo, hi) :: rest) c := by
  induction rest generalizing lo hi with
  | nil => rfl
  | cons x rest ih =>
    obtain ⟨a, b⟩ := x
    obtain ⟨hlo, hrest⟩ := List.pairwise_cons.mp h
    have hle : lo ≤ a := hlo _ List.mem_cons_self
    unfold joinFrom
    split
    · have hjoined : ((lo, max hi b) :: rest).Pairwise (·.1 ≤ ·.1) :=
        List.pairwise_cons.mpr
          ⟨fun y hy => hlo y (List.mem_cons_of_mem _ hy), (List.pairwise_cons.mp hrest).2⟩
      rw [ih hjoined, Bool.eq_iff_iff]
      simp only [covers, List.any_cons, Bool.or_eq_true, Bool.and_eq_true, decide_eq_true_eq]
      rw [← or_assoc]
      exact or_congr_left (by omega)
    · have hjoin := ih hrest
      simp only [covers, List.any_cons] at hjoin ⊢
      rw [hjoin]

/-- The set that intervals make up covers what they cover. -/
theorem covers_ofList (parts : List (Nat × Nat)) (c : Nat) :
    (ofList parts).covers c = covers parts c := by
  have hsorted : (parts.mergeSort fun x y => x.1 ≤ y.1).Pairwise (·.1 ≤ ·.1) := by
    have hpairwise : (parts.mergeSort fun x y => x.1 ≤ y.1).Pairwise
        fun x y => decide (x.1 ≤ y.1) = true := by
      refine List.pairwise_mergeSort (fun x y z hxy hyz => ?_) (fun x y => ?_) parts
      · simp only [decide_eq_true_eq] at hxy hyz ⊢
        exact Nat.le_trans hxy hyz
      · simp only [Bool.or_eq_true, decide_eq_true_eq]
        exact Nat.le_total x.1 y.1
    exact hpairwise.imp of_decide_eq_true
  have hperm : covers (parts.mergeSort fun x y => x.1 ≤ y.1) c = covers parts c :=
    (List.mergeSort_perm parts _).any_eq
  rw [← hperm]
  unfold ofList
  split
  · rename_i h
    rw [h]
  · rename_i h
    rw [h] at hsorted ⊢
    exact covers_joinFrom c hsorted

/-! ## Sets as written

A table is a list of rows, and a row is a list of words with a blank between any
two. All numbers are hexadecimal. -/

def hexDigit (c : Char) : Nat :=
  if c.isDigit then c.toNat - '0'.toNat else c.toNat - 'a'.toNat + 10

def hexNumber (digits : List Char) : Nat := digits.foldl (fun n c => 16 * n + hexDigit c) 0

def words (rows : List String) : List String := rows.flatMap (·.splitOn " ")

/-- The code points of one word: a single one, an interval such as `41-5a`, or
every second code point of an interval, as in `100-12e/2`. -/
def ofWord (word : String) : List (Nat × Nat) :=
  let lo := hexNumber (word.toList.takeWhile Char.isAlphanum)
  match word.toList.dropWhile Char.isAlphanum with
  | '-' :: rest =>
    let hi := hexNumber (rest.takeWhile Char.isAlphanum)
    if (rest.dropWhile Char.isAlphanum).isEmpty then [(lo, hi)]
    else (List.range ((hi - lo) / 2 + 1)).map fun i => (lo + 2 * i, lo + 2 * i)
  | _ => [(lo, lo)]

/-- The set that the words of a table make up. -/
def ofRows (rows : List String) : Intervals := ofList ((words rows).flatMap ofWord)

/-- Consecutive intervals with a name each, written as lengths and names by turns. -/
def readLengths (start : Nat) : List String → List ((Nat × Nat) × String)
  | length :: name :: rest =>
    let n := hexNumber length.toList
    ((start, start + n - 1), name) :: readLengths (start + n) rest
  | _ => []

/-- Intervals with a name each, written by turns. -/
def readNamed : List String → List ((Nat × Nat) × String)
  | word :: name :: rest => (ofWord word).map (·, name) ++ readNamed rest
  | _ => []

end Intervals

end Chunkwise.Text
