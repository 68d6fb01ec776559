import Chunkwise.Proofs.Discipline
import Chunkwise.Proofs.Places

/-! Gathering chunks up to a sentinel. What is gathered are the words between the place
where gathering begins and the place where it ends; empty chunks are passed over. -/

namespace Chunkwise.Walk

variable {σ α : Type} {S : σ → Prop}

/-- What gathering from place `i` on comes to. -/
structure Gathered (stop : String → Bool) (chunks : Chunks) (i : Nat) (before : Array String)
    (found : Bool) (gathered : Array String) (j : Nat) : Prop where
  le : chunks.wordIndex i ≤ chunks.wordIndex j
  words : gathered.toList
    = before.toList ++ wordsBetween chunks.words (chunks.wordIndex i) (chunks.wordIndex j)
  passed : ∀ k, chunks.wordIndex i ≤ k → k < chunks.wordIndex j →
    chunks.words[k]?.any stop = false
  found : found = true → chunks.words[chunks.wordIndex j]?.any stop = true

/-- Passing over a word that is not the sentinel. -/
theorem Gathered.pass {stop : String → Bool} {chunks : Chunks} {i : Nat} {before : Array String}
    {found gathered j w} (hw : chunks.words[chunks.wordIndex i]? = some w) (hs : stop w = false)
    (h : Gathered stop chunks (chunks.skipEmpty i + 1) (before.push w) found gathered j) :
    Gathered stop chunks i before found gathered j := by
  obtain ⟨hle, hwords, hpassed, hfound⟩ := h
  rw [Chunks.wordIndex_skipEmpty_succ hw] at hle hwords hpassed
  refine ⟨by omega, ?_, ?_, hfound⟩
  · rw [hwords, wordsBetween_eq_cons hw hle]
    simp
  · intro k hk hj
    obtain rfl | hk : k = chunks.wordIndex i ∨ chunks.wordIndex i + 1 ≤ k := by omega
    · simpa [hw] using hs
    · exact hpassed k hk hj

theorem gather_gathered (stop : String → Bool) (chunks : Chunks) (fuel i : Nat)
    (before : Array String) :
    Gathered stop chunks i before (gather stop chunks fuel i before).1
      (gather stop chunks fuel i before).2.1 (gather stop chunks fuel i before).2.2 := by
  induction fuel generalizing i before with
  | zero =>
    exact ⟨Nat.le_refl _, by simp [gather], fun k hk hj => by simp [gather] at hj; omega,
      fun hf => by cases hf⟩
  | succ fuel ih =>
    unfold gather
    dsimp only
    split
    · exact ⟨by simp, by simp, fun k hk hj => by simp at hj; omega, fun hf => by cases hf⟩
    · rename_i w hget
      rw [Chunks.get?_skipEmpty] at hget
      split
      · rename_i hs
        exact ⟨by simp, by simp, fun k hk hj => by simp at hj; omega, fun _ => by simp [hget, hs]⟩
      · rename_i hs
        exact .pass hget (by simpa using hs) (ih _ _)

/-- With a step for each word that is left, only the end makes it miss the sentinel. -/
theorem gather_missed {stop : String → Bool} {chunks : Chunks} {fuel i : Nat}
    {before : Array String} (hfuel : chunks.words.length - chunks.wordIndex i < fuel)
    (h : (gather stop chunks fuel i before).1 = false) :
    chunks.wordIndex (gather stop chunks fuel i before).2.2 = chunks.words.length := by
  induction fuel generalizing i before with
  | zero => omega
  | succ fuel ih =>
    unfold gather at h ⊢
    dsimp only at h ⊢
    split
    · rename_i hget
      exact Chunks.wordIndex_of_size_le (Chunks.get?_eq_none_iff.mp hget)
    · rename_i w hget
      simp only [hget] at h
      split
      · rename_i hs
        simp [hs] at h
      · rename_i hs
        rw [if_neg hs] at h
        rw [Chunks.get?_skipEmpty] at hget
        refine ih ?_ h
        rw [Chunks.wordIndex_skipEmpty_succ hget]
        have := (List.getElem?_eq_some_iff.mp hget).1
        omega

/-- The same of gathering until a walk would succeed. -/
theorem untilMatchFrom_words {stop : Walk σ α} (hstop : Tidy S stop) {start : Nat} :
    ∀ {fuel gathered c vs c'}, (∀ s ∈ c.skip, S s) →
      untilMatchFrom stop start fuel gathered c = some (.success vs, c') →
      c.chunks.wordIndex c.cursor ≤ c.chunks.wordIndex c'.cursor ∧
      vs = gathered.toList ++ wordsBetween c.chunks.words (c.chunks.wordIndex c.cursor)
        (c.chunks.wordIndex c'.cursor)
  | 0, _, _, _, _, _, h => by cases h
  | fuel + 1, gathered, c, vs, c', hS, h => by
    rcases untilMatchFrom_cases h with ⟨h₁, ho⟩ | ⟨c₁, _, _, ho, _⟩ | ⟨c₁, w, h₁, hget, h⟩
    · cases ho
      have hc := (probe_still hstop (c := c.skipEmpty) hS h₁).2
      have hi : c.chunks.wordIndex c'.cursor = c.chunks.wordIndex c.cursor := by
        rw [hc]
        exact c.chunks.wordIndex_skipEmpty c.cursor
      simp [hi]
    · cases ho
    · have hs : c₁.setting = c.setting := (probe_still hstop (c := c.skipEmpty) hS h₁).1
      have hchunks := Context.chunks_eq hs
      have hw : c.chunks.words[c.chunks.wordIndex c.cursor]? = some w := by
        rw [hchunks] at hget
        rw [← Chunks.get?_skipEmpty]
        exact hget
      obtain ⟨hle, hvs⟩ := untilMatchFrom_words hstop
        (c := c₁.moveTo (c.skipEmpty.cursor + 1)) (Context.skip_of_setting hs hS) h
      have hi : (c₁.moveTo (c.skipEmpty.cursor + 1)).chunks.wordIndex (c.skipEmpty.cursor + 1)
          = c.chunks.wordIndex c.cursor + 1 := by
        show c₁.chunks.wordIndex _ = _
        rw [hchunks]
        exact Chunks.wordIndex_skipEmpty_succ hw
      have hle : c.chunks.wordIndex c.cursor + 1 ≤ c.chunks.wordIndex c'.cursor := by
        rw [← hi, ← hchunks]
        exact hle
      refine ⟨by omega, ?_⟩
      rw [hvs, wordsBetween_eq_cons hw hle, ← hi, ← hchunks]
      simp [Context.moveTo]

end Chunkwise.Walk
