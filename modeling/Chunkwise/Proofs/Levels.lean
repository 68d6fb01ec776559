import Chunkwise.Proofs.Places
import Chunkwise.Report.SyntaxError
import Mathlib.Data.Option.Basic

/-! The same words, cut with other empty chunks between them. A place among the chunks of the
one cut is level with a place among those of the other if the same words stand in front of
both. Whether any chunk is left behind them, be it empty, is part of that: behind the last word
it depends on how the cut ends. -/

namespace Chunkwise

namespace Chunks

/-- Whether the last chunk is empty. -/
def endsEmpty (c : Chunks) : Bool := c.emptyAt (c.size - 1)

/-- Two cuts into the same words, of which both or neither end with an empty chunk. -/
structure SameWords (cs ds : Chunks) : Prop where
  words : cs.words = ds.words
  last : cs.endsEmpty = ds.endsEmpty

theorem SameWords.symm {cs ds : Chunks} (h : cs.SameWords ds) : ds.SameWords cs :=
  ⟨h.words.symm, h.last.symm⟩

/-- Behind the last word nothing is left just if no empty chunk is. -/
theorem size_le_succ_iff {c : Chunks} {i : Nat} {w : String} (h : c.get? i = some w) (hw : w ≠ "")
    (hlast : c.wordIndex (i + 1) = c.words.length) :
    c.size ≤ i + 1 ↔ c.endsEmpty = false := by
  have hi := lt_size_of_get? h
  constructor
  · intro hsize
    have hend : c.size - 1 = i := by omega
    simpa [endsEmpty, emptyAt, hend, h] using hw
  · intro hempty
    by_contra hlt
    obtain ⟨v, hv⟩ : ∃ v, c.get? (c.size - 1) = some v := by
      rw [← Option.ne_none_iff_exists', ne_eq, get?_eq_none_iff]
      omega
    have hne : v ≠ "" := by
      rintro rfl
      rw [endsEmpty, emptyAt_iff.mpr hv] at hempty
      cases hempty
    have hmore := wordIndex_lt_of_word hv hne (show c.size - 1 < c.size by omega)
    have hmono := wordIndex_mono (c := c) (show i + 1 ≤ c.size - 1 by omega)
    have hle := c.wordIndex_le c.size
    omega

end Chunks

/-- The same words stand in front of both places, and both or neither are at the end. -/
structure Level (cs ds : Chunks) (i j : Nat) : Prop where
  index : cs.wordIndex i = ds.wordIndex j
  left : i ≤ cs.size
  right : j ≤ ds.size
  atEnd : i = cs.size ↔ j = ds.size

namespace Level

variable {cs ds : Chunks} {i i' j j' : Nat}

theorem symm (h : Level cs ds i j) : Level ds cs j i :=
  ⟨h.index.symm, h.right, h.left, h.atEnd.symm⟩

/-- There is a chunk behind a place that words stand behind. -/
theorem not_over {c : Chunks} {i : Nat} (h : c.wordIndex i < c.words.length) : i ≠ c.size := by
  rintro rfl
  rw [Chunks.wordIndex_of_size_le (Nat.le_refl _)] at h
  exact Nat.lt_irrefl _ h

/-- In front of the first chunk. -/
theorem zero (h : cs.SameWords ds) : Level cs ds 0 0 := by
  refine ⟨by simp, Nat.zero_le _, Nat.zero_le _, ?_⟩
  have hnone : ∀ {c d : Chunks}, c.SameWords d → 0 = c.size → 0 = d.size := by
    intro c d h hc
    have hwords : d.words = [] := by
      have : c.pieces.toList = [] := by simpa [Chunks.size, eq_comm] using hc
      rw [← h.words, Chunks.words, this]
      rfl
    have hlast : d.endsEmpty = false := by
      rw [← h.last, Chunks.endsEmpty, Chunks.emptyAt, Chunks.get?_eq_none_iff.mpr (by omega)]
      rfl
    by_contra hd
    obtain ⟨v, hv⟩ : ∃ v, d.get? (d.size - 1) = some v := by
      rw [← Option.ne_none_iff_exists', ne_eq, Chunks.get?_eq_none_iff]
      omega
    have hne : v ≠ "" := by
      rintro rfl
      rw [Chunks.endsEmpty, Chunks.emptyAt_iff.mpr hv] at hlast
      cases hlast
    have hword := Chunks.words_wordIndex hv hne
    rw [hwords] at hword
    cases hword
  exact ⟨hnone h, hnone h.symm⟩

/-- The next word is the same. -/
theorem get?_skipEmpty (hw : cs.words = ds.words) (h : Level cs ds i j) :
    cs.get? (cs.skipEmpty i) = ds.get? (ds.skipEmpty j) := by
  rw [Chunks.get?_skipEmpty, Chunks.get?_skipEmpty, h.index, hw]

/-- In front of the next word, or at the end. -/
theorem skipEmpty (hw : cs.words = ds.words) (h : Level cs ds i j) :
    Level cs ds (cs.skipEmpty i) (ds.skipEmpty j) := by
  have hleft : cs.skipEmpty i ≤ cs.size :=
    Nat.le_trans (cs.skipEmpty_le i) (Nat.max_le.mpr ⟨h.left, Nat.le_refl _⟩)
  have hright : ds.skipEmpty j ≤ ds.size :=
    Nat.le_trans (ds.skipEmpty_le j) (Nat.max_le.mpr ⟨h.right, Nat.le_refl _⟩)
  have hend : ∀ {c : Chunks} {k : Nat}, k ≤ c.size → (k = c.size ↔ c.get? k = none) := by
    intro c k hk
    rw [Chunks.get?_eq_none_iff]
    omega
  refine ⟨by simpa using h.index, hleft, hright, ?_⟩
  rw [hend hleft, hend hright, h.get?_skipEmpty hw]

/-- Behind the next word. -/
theorem behindWord (hs : cs.SameWords ds) (h : Level cs ds i j) {w : String}
    (hget : cs.get? (cs.skipEmpty i) = some w) :
    Level cs ds (cs.skipEmpty i + 1) (ds.skipEmpty j + 1) := by
  have hget' : ds.get? (ds.skipEmpty j) = some w := (h.get?_skipEmpty hs.words).symm.trans hget
  have hne : w ≠ "" := by
    rintro rfl
    exact Chunks.get?_skipEmpty_ne cs i hget
  have hindex := Chunks.wordIndex_succ_of_word hget hne
  have hindex' := Chunks.wordIndex_succ_of_word hget' hne
  have hlevel := (h.skipEmpty hs.words).index
  have hleft := Chunks.lt_size_of_get? hget
  have hright := Chunks.lt_size_of_get? hget'
  have hlength := congrArg List.length hs.words
  refine ⟨by omega, hleft, hright, ?_⟩
  by_cases hlast : cs.wordIndex (cs.skipEmpty i + 1) = cs.words.length
  · have hover := Chunks.size_le_succ_iff hget hne hlast
    have hover' := Chunks.size_le_succ_iff hget' hne (by omega)
    rw [hs.last] at hover
    have hboth := hover.trans hover'.symm
    omega
  · have hle := cs.wordIndex_le (cs.skipEmpty i + 1)
    have hover := not_over (c := cs) (i := cs.skipEmpty i + 1) (by omega)
    have hover' := not_over (c := ds) (i := ds.skipEmpty j + 1) (by omega)
    omega

/-- What stands in front of a place, passing back over empty chunks: nothing, or a word. -/
theorem skipEmptyBack_cases {c : Chunks} {i : Nat} (hi : i ≤ c.size) :
    (c.skipEmptyBack i = 0 ∧ c.wordIndex i = 0) ∨
    ∃ k w, c.skipEmptyBack i = k + 1 ∧ c.get? k = some w ∧ w ≠ "" ∧
      c.wordIndex i = c.wordIndex k + 1 := by
  have hle := c.skipEmptyBack_le i
  have hindex := c.wordIndex_skipEmptyBack i
  cases hback : c.skipEmptyBack i with
  | zero =>
    rw [hback, Chunks.wordIndex_zero] at hindex
    exact .inl ⟨rfl, hindex.symm⟩
  | succ k =>
    have hne := Chunks.get?_skipEmptyBack_ne hback
    obtain ⟨w, hw⟩ : ∃ w, c.get? k = some w := by
      rw [← Option.ne_none_iff_exists', ne_eq, Chunks.get?_eq_none_iff]
      omega
    have hword : w ≠ "" := fun he => hne (hw.trans (congrArg some he))
    rw [hback, Chunks.wordIndex_succ_of_word hw hword] at hindex
    exact .inr ⟨k, w, rfl, hw, hword, hindex.symm⟩

/-- In front of both places stands the same word, or none. -/
theorem skipEmptyBack (hs : cs.SameWords ds) (h : Level cs ds i j) :
    (cs.skipEmptyBack i = 0 ∧ ds.skipEmptyBack j = 0) ∨
    ∃ k k', cs.skipEmptyBack i = k + 1 ∧ ds.skipEmptyBack j = k' + 1 ∧
      cs.get? k = ds.get? k' ∧ Level cs ds k k' := by
  have hindex := h.index
  rcases skipEmptyBack_cases h.left with ⟨hback, hnone⟩ | ⟨k, w, hback, hw, hne, hone⟩ <;>
    rcases skipEmptyBack_cases h.right with ⟨hback', hnone'⟩ | ⟨k', w', hback', hw', hne', hone'⟩
  · exact .inl ⟨hback, hback'⟩
  · omega
  · omega
  · have hk := Chunks.lt_size_of_get? hw
    have hk' := Chunks.lt_size_of_get? hw'
    have hlevel : cs.wordIndex k = ds.wordIndex k' := by omega
    have hword := Chunks.words_wordIndex hw hne
    rw [hlevel, hs.words, Chunks.words_wordIndex hw' hne'] at hword
    exact .inr ⟨k, k', hback, hback', by rw [hw, hw', hword],
      hlevel, Nat.le_of_lt hk, Nat.le_of_lt hk', by omega⟩

/-- Both places are at the same byte. -/
theorem offset (hw : cs.words = ds.words) (h : Level cs ds i j) : cs.offset i = ds.offset j := by
  rw [Chunks.offset_eq, Chunks.offset_eq, Chunks.before_eq_join_words, Chunks.before_eq_join_words,
    h.index, hw]

/-- Of two places that are further on, both are, if they are in front of a word or at the end
to begin with: more than empty chunks stand between. -/
theorem lt_iff (h : Level cs ds i j) (h' : Level cs ds i' j') (hi : cs.get? i ≠ some "")
    (hj : ds.get? j ≠ some "") : i < i' ↔ j < j' := by
  have hpast : ∀ {c : Chunks} {k k' : Nat}, c.get? k ≠ some "" → k' ≤ c.size →
      (k < k' ↔ c.wordIndex k < c.wordIndex k') := by
    intro c k k' hk hk'
    constructor
    · intro hlt
      cases hget : c.get? k with
      | none =>
        have := Chunks.get?_eq_none_iff.mp hget
        omega
      | some w =>
        exact Chunks.wordIndex_lt_of_word hget (fun hw => hk (hget.trans (congrArg some hw))) hlt
    · intro hlt
      by_contra hle
      have := Chunks.wordIndex_mono (c := c) (show k' ≤ k by omega)
      omega
  rw [hpast hi h'.left, hpast hj h'.right, h.index, h'.index]

/-- Where the order of two places differs from that of the places level with them, all four
have the same words in front of them. -/
theorem crossed (h : Level cs ds i j) (h' : Level cs ds i' j') (hle : i ≤ i') (hle' : j' ≤ j) :
    Level cs ds i' j := by
  have hmono := Chunks.wordIndex_mono (c := cs) hle
  have hmono' := Chunks.wordIndex_mono (c := ds) hle'
  have hindex := h.index
  have hindex' := h'.index
  have hover := h.atEnd
  have hover' := h'.atEnd
  have hright := h.right
  have hleft' := h'.left
  exact ⟨by omega, hleft', hright, by omega⟩

/-! ## Failures -/

variable {f f' g g' : Failure}

/-- Whichever of two failures is the deeper one, it is level with the deeper one of the two
that are level with them. -/
theorem ite_position (hf : Level cs ds f.position f'.position)
    (hg : Level cs ds g.position g'.position) :
    Level cs ds (if f.position ≤ g.position then g else f).position
      (if f'.position ≤ g'.position then g' else f').position := by
  by_cases h : f.position ≤ g.position <;> by_cases h' : f'.position ≤ g'.position
  · rwa [if_pos h, if_pos h']
  · rw [if_pos h, if_neg h']
    exact hf.crossed hg h (by omega)
  · rw [if_neg h, if_pos h']
    exact hg.crossed hf (by omega) h'
  · rwa [if_neg h, if_neg h']

/-- A failure is reported at the byte where that level with it is. -/
theorem offset_ofFailure (hw : cs.words = ds.words) (hf : Level cs ds f.position f'.position) :
    (SyntaxError.ofFailure cs f).offset = (SyntaxError.ofFailure ds f').offset := by
  have hlevel := hf.skipEmpty hw
  show cs.offset (SyntaxError.place cs f) = ds.offset (SyntaxError.place ds f')
  unfold SyntaxError.place
  rw [Nat.min_eq_left hlevel.left, Nat.min_eq_left hlevel.right, hlevel.offset hw]

end Level

end Chunkwise
