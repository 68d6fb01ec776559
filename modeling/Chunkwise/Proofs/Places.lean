import Chunkwise.Chunks.Basic

/-! Places among the chunks, and what is left of them when empty chunks do not count:
the words, and for each place the number of words in front of it. -/

namespace Chunkwise

/-- The words from one index up to another. -/
def wordsBetween (words : List String) (k k' : Nat) : List String := (words.take k').drop k

@[simp] theorem wordsBetween_self (words : List String) (k : Nat) :
    wordsBetween words k k = [] := by
  simp [wordsBetween]

theorem wordsBetween_eq_cons {words : List String} {k k' : Nat} {w : String}
    (hw : words[k]? = some w) (h : k < k') :
    wordsBetween words k k' = w :: wordsBetween words (k + 1) k' := by
  have hk : (words.take k')[k]? = some w := by rw [List.getElem?_take_of_lt h, hw]
  obtain ⟨hl, rfl⟩ := List.getElem?_eq_some_iff.mp hk
  exact List.drop_eq_getElem_cons hl

theorem take_append_wordsBetween (words : List String) {k k' : Nat} (h : k ≤ k') :
    words.take k ++ wordsBetween words k k' = words.take k' := by
  have hk : words.take k = (words.take k').take k := by rw [List.take_take, Nat.min_eq_left h]
  rw [hk, wordsBetween, List.take_append_drop]

namespace Chunks

/-- The chunks that are not empty. -/
def words (c : Chunks) : List String := c.pieces.toList.filter (!·.isEmpty)

/-- How many words stand in front of chunk `i`. -/
def wordIndex (c : Chunks) (i : Nat) : Nat :=
  ((c.pieces.toList.take i).filter (!·.isEmpty)).length

theorem get?_eq (c : Chunks) (i : Nat) : c.get? i = c.pieces.toList[i]? := by
  simp [get?]

theorem emptyAt_iff {c : Chunks} {i : Nat} : c.emptyAt i = true ↔ c.get? i = some "" := by
  simp [emptyAt, Option.any_eq_true]

theorem lt_size_of_get? {c : Chunks} {i : Nat} {w : String} (h : c.get? i = some w) :
    i < c.size := (Array.getElem?_eq_some_iff.mp h).1

theorem get?_eq_none_iff {c : Chunks} {i : Nat} : c.get? i = none ↔ c.size ≤ i :=
  Array.getElem?_eq_none_iff

/-! ## The words in front of a place -/

@[simp] theorem wordIndex_zero (c : Chunks) : c.wordIndex 0 = 0 := by simp [wordIndex]

/-- The words in front of a place and those behind it. -/
theorem words_split (c : Chunks) (i : Nat) :
    c.words = (c.pieces.toList.take i).filter (!·.isEmpty)
      ++ (c.pieces.toList.drop i).filter (!·.isEmpty) := by
  rw [← List.filter_append, List.take_append_drop]
  rfl

theorem words_take (c : Chunks) (i : Nat) :
    c.words.take (c.wordIndex i) = (c.pieces.toList.take i).filter (!·.isEmpty) := by
  rw [words_split c i]
  exact List.take_left

theorem wordIndex_le (c : Chunks) (i : Nat) : c.wordIndex i ≤ c.words.length := by
  have h := congrArg List.length (words_take c i)
  rw [List.length_take] at h
  unfold wordIndex at h ⊢
  omega

theorem wordIndex_of_size_le {c : Chunks} {i : Nat} (h : c.size ≤ i) :
    c.wordIndex i = c.words.length := by
  have hl : c.pieces.toList.length ≤ i := by simpa [size] using h
  rw [wordIndex, List.take_of_length_le hl]
  rfl

theorem wordIndex_succ_of_empty {c : Chunks} {i : Nat} (h : c.get? i = some "") :
    c.wordIndex (i + 1) = c.wordIndex i := by
  rw [get?_eq] at h
  simp [wordIndex, List.take_add_one, h]

theorem wordIndex_succ_of_word {c : Chunks} {i : Nat} {w : String} (h : c.get? i = some w)
    (hw : w ≠ "") : c.wordIndex (i + 1) = c.wordIndex i + 1 := by
  rw [get?_eq] at h
  have he : w.isEmpty = false := by simpa using hw
  simp [wordIndex, List.take_add_one, h, he]

/-- A chunk that is not empty is the word of its index. -/
theorem words_wordIndex {c : Chunks} {i : Nat} {w : String} (h : c.get? i = some w)
    (hw : w ≠ "") : c.words[c.wordIndex i]? = some w := by
  have ht := words_take c (i + 1)
  rw [wordIndex_succ_of_word h hw, List.take_add_one, words_take, List.take_add_one,
    List.filter_append, get?_eq] at *
  rw [h] at ht
  have he : w.isEmpty = false := by simpa using hw
  have hd := List.append_cancel_left ht
  simpa [he, Option.toList_eq_singleton_iff] using hd

theorem wordIndex_mono {c : Chunks} {i j : Nat} (h : i ≤ j) : c.wordIndex i ≤ c.wordIndex j := by
  induction h with
  | refl => exact Nat.le_refl _
  | @step j _ ih =>
    cases hw : c.get? j with
    | none =>
      have hj := get?_eq_none_iff.mp hw
      rw [wordIndex_of_size_le (show c.size ≤ j + 1 by omega), ← wordIndex_of_size_le hj]
      exact ih
    | some w =>
      by_cases he : w = ""
      · rw [he] at hw
        rw [wordIndex_succ_of_empty hw]
        exact ih
      · rw [wordIndex_succ_of_word hw he]
        omega

theorem wordIndex_lt_of_word {c : Chunks} {i j : Nat} {w : String} (h : c.get? i = some w)
    (hw : w ≠ "") (hij : i < j) : c.wordIndex i < c.wordIndex j := by
  have := wordIndex_succ_of_word h hw
  have := wordIndex_mono (c := c) (show i + 1 ≤ j from hij)
  omega

/-- There are no more words behind a place than chunks. -/
theorem words_length_sub_le (c : Chunks) (i : Nat) :
    c.words.length - c.wordIndex i ≤ c.size - i := by
  have hd := List.length_filter_le (!·.isEmpty) (c.pieces.toList.drop i)
  rw [words_split c i, List.length_append, wordIndex, Nat.add_sub_cancel_left]
  simpa [size] using hd

/-- The text in front of a place is that of the words in front of it. -/
theorem before_eq_join_words (c : Chunks) (i : Nat) :
    c.before i = String.join (c.words.take (c.wordIndex i)) := by
  rw [words_take, before]
  induction c.pieces.toList.take i with
  | nil => rfl
  | cons w ws ih =>
    rw [List.filter_cons]
    split
    · rw [String.join_cons, String.join_cons, ih]
    · rename_i hw
      have he : w = "" := by simpa using hw
      rw [String.join_cons, ih, he, String.empty_append]

/-! ## Passing over empty chunks -/

theorem le_stepOver (c : Chunks) (n i : Nat) : i ≤ c.stepOver n i := by
  induction n generalizing i with
  | zero => exact Nat.le_refl i
  | succ n ih =>
    unfold stepOver
    split
    · have := ih (i + 1)
      omega
    · exact Nat.le_refl i

theorem stepOver_le (c : Chunks) (n i : Nat) : c.stepOver n i ≤ i + n := by
  induction n generalizing i with
  | zero => exact Nat.le_refl i
  | succ n ih =>
    unfold stepOver
    split
    · have := ih (i + 1)
      omega
    · omega

theorem wordIndex_stepOver (c : Chunks) (n i : Nat) :
    c.wordIndex (c.stepOver n i) = c.wordIndex i := by
  induction n generalizing i with
  | zero => rfl
  | succ n ih =>
    unfold stepOver
    split
    · rename_i he
      rw [ih, wordIndex_succ_of_empty (emptyAt_iff.mp he)]
    · rfl

theorem emptyAt_stepOver (c : Chunks) {n i : Nat} (h : c.size ≤ i + n) :
    c.emptyAt (c.stepOver n i) = false := by
  induction n generalizing i with
  | zero =>
    have hn : c.get? i = none := get?_eq_none_iff.mpr (by omega)
    simp [stepOver, emptyAt, hn]
  | succ n ih =>
    unfold stepOver
    split
    · exact ih (by omega)
    · rename_i he
      simpa using he

theorem le_skipEmpty (c : Chunks) (i : Nat) : i ≤ c.skipEmpty i := le_stepOver c _ i

theorem skipEmpty_le (c : Chunks) (i : Nat) : c.skipEmpty i ≤ max i c.size := by
  have := stepOver_le c (c.size - i) i
  unfold skipEmpty
  omega

theorem skipEmpty_of_word {c : Chunks} {i : Nat} {w : String} (h : c.get? i = some w)
    (hw : w ≠ "") : c.skipEmpty i = i := by
  have he : c.emptyAt i = false := by
    simpa [emptyAt, h] using hw
  unfold skipEmpty
  cases c.size - i with
  | zero => rfl
  | succ n => rw [stepOver, he]; rfl

@[simp] theorem wordIndex_skipEmpty (c : Chunks) (i : Nat) :
    c.wordIndex (c.skipEmpty i) = c.wordIndex i := wordIndex_stepOver c _ i

theorem get?_skipEmpty_ne (c : Chunks) (i : Nat) : c.get? (c.skipEmpty i) ≠ some "" := by
  intro h
  have he := emptyAt_stepOver c (show c.size ≤ i + (c.size - i) by omega)
  rw [← emptyAt_iff] at h
  exact Bool.false_ne_true (he.symm.trans h)

/-- Behind the empty chunks at a place stands the next word. -/
theorem get?_skipEmpty (c : Chunks) (i : Nat) :
    c.get? (c.skipEmpty i) = c.words[c.wordIndex i]? := by
  rw [← wordIndex_skipEmpty]
  cases h : c.get? (c.skipEmpty i) with
  | none =>
    rw [wordIndex_of_size_le (get?_eq_none_iff.mp h)]
    simp
  | some w =>
    have hw : w ≠ "" := by
      rintro rfl
      exact get?_skipEmpty_ne c i h
    exact (words_wordIndex h hw).symm

theorem wordIndex_skipEmpty_succ {c : Chunks} {i : Nat} {w : String}
    (h : c.words[c.wordIndex i]? = some w) :
    c.wordIndex (c.skipEmpty i + 1) = c.wordIndex i + 1 := by
  rw [← get?_skipEmpty] at h
  have hw : w ≠ "" := by
    rintro rfl
    exact get?_skipEmpty_ne c i h
  rw [wordIndex_succ_of_word h hw, wordIndex_skipEmpty]

/-! ## Passing back over empty chunks -/

theorem skipEmptyBack_le (c : Chunks) (i : Nat) : c.skipEmptyBack i ≤ i := by
  induction i with
  | zero => exact Nat.le_refl 0
  | succ i ih =>
    unfold skipEmptyBack
    split
    · omega
    · exact Nat.le_refl _

@[simp] theorem wordIndex_skipEmptyBack (c : Chunks) (i : Nat) :
    c.wordIndex (c.skipEmptyBack i) = c.wordIndex i := by
  induction i with
  | zero => rfl
  | succ i ih =>
    unfold skipEmptyBack
    split
    · rename_i he
      rw [ih, wordIndex_succ_of_empty (emptyAt_iff.mp he)]
    · rfl

theorem get?_skipEmptyBack_ne {c : Chunks} {i j : Nat} (h : c.skipEmptyBack i = j + 1) :
    c.get? j ≠ some "" := by
  induction i with
  | zero => cases h
  | succ i ih =>
    unfold skipEmptyBack at h
    split at h
    · exact ih h
    · rename_i he
      cases h
      exact fun hj => he (emptyAt_iff.mpr hj)

end Chunks

end Chunkwise
