import Chunkwise.Proofs.Cases

/-! How many elements a repetition finds. A repetition that matches has as many elements as it
needs, whichever walks it is made of, but for one way to end: where no separator follows an
element, it ends with the elements it has, however few they are. -/

namespace Chunkwise

namespace Walk.Repetition

variable {σ α β γ : Type} {r : Repetition σ α β γ}

/-- The repetition was left at `c'` with the elements `vs`, because its separator failed behind
the last one of them. -/
structure Unseparated (r : Repetition σ α β γ) (vs : List α) (c' : Context σ) : Prop where
  found : vs ≠ []
  missed : ∃ separator ∈ r.separator, ∃ c₁ c₂ f,
    separator c₁ = some (.failure f, c₂) ∧ c' = c₂.restore c₁.cursor

/-- Nothing keeps a repetition from going on but a separator that fails. -/
theorem separates_eq_false {c c' : Context σ} (h : r.separates c = some (false, c')) :
    ∃ separator ∈ r.separator, ∃ f, separator c = some (.failure f, c') := by
  unfold separates at h
  split at h
  · cases h
  · rename_i separator hsep
    obtain ⟨⟨o, c₁⟩, h₁, h⟩ := Option.bind_eq_some_iff.mp h
    cases o with
    | success v => cases h
    | failure f => cases h; exact ⟨separator, hsep, f, h₁⟩

/-- A round in which a repetition ends well ends it with elements enough, or for want of a
separator. -/
theorem Leaves.least_le {start rewind : Nat} {values : Array α} {c c' : Context σ} {vs : List α}
    (h : r.Leaves start rewind values c (.success vs) c') :
    r.least ≤ vs.length ∨ r.Unseparated vs c' := by
  cases h with
  | exhausted _ hleast => exact .inl (by simpa using hleast)
  | stopped _ hleast => exact .inl (by simpa using hleast)
  | missed _ _ hleast => exact .inl (by simpa using hleast)
  | @last c₁ c₂ c₃ v _ _ hseparates =>
    obtain ⟨separator, hsep, f, hfails⟩ := separates_eq_false hseparates
    exact .inr ⟨by simp, separator, hsep, c₂, c₃, f, hfails, rfl⟩

theorem rounds_least_le {start : Nat} : ∀ {fuel rewind values c c'} {vs : List α},
    r.rounds start fuel rewind values c = some (.success vs, c') →
    r.least ≤ vs.length ∨ r.Unseparated vs c'
  | 0, _, _, _, _, _, h => by cases h
  | fuel + 1, rewind, values, c, c', vs, h => by
    rcases rounds_cases h with hleaves | ⟨v, c₁, c₂, c₃, _, hrest⟩
    · exact hleaves.least_le
    · exact rounds_least_le hrest

/-- A repetition that matches has elements enough, or it was left for want of a separator. If it
has no separator, or needs one element at most, it has elements enough. -/
theorem repetition_least_le {fuel : Nat} {c c' : Context σ} {vs : List α}
    (h : repetition r fuel c = some (.success vs, c')) :
    (r.separator = none ∨ r.least ≤ 1 → r.least ≤ vs.length) ∧
      (vs.length < r.least → r.Unseparated vs c') := by
  rcases rounds_least_le h with hleast | hmissed
  · exact ⟨fun _ => hleast, fun hshort => absurd hleast (Nat.not_le_of_lt hshort)⟩
  · refine ⟨fun henough => ?_, fun _ => hmissed⟩
    rcases henough with hnone | hone
    · obtain ⟨_, hsep, _⟩ := hmissed.missed
      cases hnone.symm.trans hsep
    · exact Nat.le_trans hone (List.length_pos_iff.mpr hmissed.found)

end Walk.Repetition

namespace Grammar

/-- **The minimum is enforced, but for a missing separator.** Whatever grammars a repetition is made
of, and wherever it starts: it matches with a list of values, which has elements enough if there is
no separator, and if one element at most is needed. If it has fewer elements than are needed, it
has found some, and it ended behind the last one because the separator failed there. -/
theorem least_elements_or_unseparated {rules : RuleTable} {fuel : Nat} {g : LinkedGrammar}
    {least : Nat} {separator stop : Option LinkedGrammar} {c c' : Context LinkedGrammar} {v : Value}
    (h : run rules (fuel + 1) (.repeated g least separator stop) c = some (.success v, c')) :
    ∃ vs, v = .list vs ∧ (separator = none ∨ least ≤ 1 → least ≤ vs.length) ∧
      (vs.length < least → vs ≠ [] ∧ ∃ s ∈ separator, ∃ c₁ c₂ f,
        run rules fuel s c₁ = some (.failure f, c₂) ∧ c' = c₂.restore c₁.cursor) := by
  obtain ⟨⟨o, c₁⟩, h₁, he⟩ := Option.map_eq_some_iff.mp h
  cases o with
  | failure f => cases he
  | success vs =>
    cases he
    obtain ⟨henough, hshort⟩ := Walk.Repetition.repetition_least_le h₁
    refine ⟨vs, rfl, fun hsep => henough (hsep.imp_left fun hnone => by rw [hnone]; rfl), ?_⟩
    intro hlt
    obtain ⟨hfound, walk, hwalk, hmissed⟩ := hshort hlt
    obtain ⟨s, hs, rfl⟩ := Option.map_eq_some_iff.mp hwalk
    exact ⟨hfound, s, hs, hmissed⟩

/-- Two letters are needed and two are there: without a separator, and with one behind each. -/
theorem least_elements_or_unseparated_two :
    (∃ vs c', run #[] 5 (.repeated (.consume (.literal 0 "a")) 2 none none)
        { chunks := ⟨#["a", "a", "b"]⟩ } = some (.success (.list vs), c') ∧ 2 ≤ vs.length) ∧
    ∃ vs c', run #[] 5 (.repeated (.consume (.literal 0 "a")) 3 (some (.consume (.literal 1 ",")))
        none) { chunks := ⟨#["a", ",", "a", "b"]⟩ } = some (.success (.list vs), c') ∧
      vs.length < 3 ∧ ∃ c₁ c₂ f,
        run #[] 4 (.consume (.literal 1 ",")) c₁ = some (.failure f, c₂) ∧
          c' = c₂.restore c₁.cursor := by
  have hrun : ∃ c', run #[] 5 (.repeated (.consume (.literal 0 "a")) 2 none none)
      { chunks := ⟨#["a", "a", "b"]⟩ } = some (.success (.list [.text "a", .text "a"]), c') :=
    ⟨_, rfl⟩
  have hrun' : ∃ c', run #[] 5 (.repeated (.consume (.literal 0 "a")) 3
      (some (.consume (.literal 1 ","))) none) { chunks := ⟨#["a", ",", "a", "b"]⟩ }
      = some (.success (.list [.text "a", .text "a"]), c') := ⟨_, rfl⟩
  obtain ⟨c', h⟩ := hrun
  obtain ⟨d', h'⟩ := hrun'
  obtain ⟨vs, hvs, henough, _⟩ := least_elements_or_unseparated h
  obtain ⟨ws, hws, _, hshort⟩ := least_elements_or_unseparated h'
  cases hvs
  cases hws
  obtain ⟨_, s, hs, hmissed⟩ := hshort (by decide)
  cases hs
  exact ⟨⟨_, c', h, henough (.inl rfl)⟩, _, d', h', by decide, hmissed⟩

/-- Two letters with commas in between are needed, and a single one is taken for them. -/
theorem least_elements_missed :
    ∃ vs c', run #[] 5 (.repeated (.consume (.literal 0 "a")) 2 (some (.consume (.literal 1 ",")))
        none) { chunks := ⟨#["", "a", ""]⟩ } = some (.success (.list vs), c') ∧
      ¬ 2 ≤ vs.length :=
  ⟨[.text "a"], _, rfl, by decide⟩

end Grammar

end Chunkwise
