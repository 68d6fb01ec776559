import Chunkwise.Grammar.Run

/-! What each kind of walk can come to, said once: how a rule is entered, what becomes of
an attempt to skip, and what one round of each loop does. Everything that is shown of
all walks goes through these cases. -/

namespace Chunkwise.Context

/-- Going back changes the cursor and the trace at most. -/
theorem restore_eq {σ : Type} (c : Context σ) (i : Nat) :
    c.restore i = { c with cursor := i, trace := (c.restore i).trace } := by
  unfold restore
  split
  · rename_i h
    subst h
    rfl
  · rfl

/-- Under a limit there is room for a rule while fewer rules are open. -/
theorem exceededLimit?_eq_none_iff {σ : Type} {c : Context σ} {limit : Nat}
    (h : c.recursionLimit = some limit) :
    c.exceededLimit? = none ↔ c.ruleStack.length < limit := by
  simp [exceededLimit?, h, Option.filter_eq_none_iff]

end Chunkwise.Context

namespace Chunkwise.Walk

variable {σ α β γ : Type}

/-- What becomes of a rule: a parse that has stopped does not enter it, one that would
exceed the limit stops, and else its body is run with the rule open. -/
theorem inRule_cases {w : Walk σ α} {name : String} {c o c'}
    (h : inRule name w c = some (o, c')) :
    (c.isHalted = true ∧ o = c.haltedFailure ∧ c' = c) ∨
    (∃ limit, c.isHalted = false ∧ c.exceededLimit? = some limit ∧ o = c.haltedFailure ∧
      c' = c.halt (.recursionLimitExceeded name limit)) ∨
    (∃ c₁, c.isHalted = false ∧ c.exceededLimit? = none ∧ w (c.pushRule name) = some (o, c₁) ∧
      c' = c₁.exitRule o.isSuccess) := by
  unfold inRule Context.enterRule at h
  cases hh : c.isHalted with
  | true =>
    simp only [hh, if_true] at h
    cases h
    exact .inl ⟨rfl, rfl, rfl⟩
  | false =>
    simp only [hh, Bool.false_eq_true, if_false] at h
    cases hl : c.exceededLimit? with
    | some limit =>
      simp only [hl] at h
      cases h
      exact .inr (.inl ⟨limit, rfl, rfl, rfl, rfl⟩)
    | none =>
      simp only [hl] at h
      obtain ⟨⟨o₁, c₁⟩, h₁, h⟩ := Option.bind_eq_some_iff.mp h
      cases h
      exact .inr (.inr ⟨c₁, rfl, rfl, h₁, rfl⟩)

/-- The context in which the skip rule runs. -/
def inSkip (c : Context σ) : Context σ := { c with skipping := true }

/-- The context behind a run of the skip rule in `c` that left `c₁`. -/
def outOfSkip (c c₁ : Context σ) : Context σ :=
  { c₁ with skipping := false, deepest := c.deepest }

/-- What becomes of an attempt to skip: there is no skip rule to run, or it moved on, or
the cursor is put back. -/
theorem trySkip_cases {run : σ → Walk σ α} {c b c'} (h : trySkip run c = some (b, c')) :
    ((c.skipping = true ∨ c.skip = none) ∧ b = false ∧ c' = c) ∨
    (∃ skip o c₁, c.skipping = false ∧ c.skip = some skip ∧ run skip (inSkip c) = some (o, c₁) ∧
      o.isSuccess = true ∧ c.cursor < c₁.cursor ∧ b = true ∧
      c' = (outOfSkip c c₁).note (·.add (.skipped c.cursor c₁.cursor))) ∨
    (∃ skip o c₁, c.skipping = false ∧ c.skip = some skip ∧ run skip (inSkip c) = some (o, c₁) ∧
      ¬ (o.isSuccess = true ∧ c.cursor < c₁.cursor) ∧ b = false ∧
      c' = (outOfSkip c c₁).moveTo c.cursor) := by
  unfold trySkip at h
  split at h
  · rename_i hk
    cases h
    exact .inl ⟨.inl hk, rfl, rfl⟩
  · rename_i hk
    have hk : c.skipping = false := by simpa using hk
    split at h
    · rename_i hn
      cases h
      exact .inl ⟨.inr hn, rfl, rfl⟩
    · rename_i skip hskip
      obtain ⟨⟨o, c₁⟩, h₁, h⟩ := Option.bind_eq_some_iff.mp h
      dsimp only at h
      split at h
      · rename_i hm
        cases h
        simp only [Bool.and_eq_true, decide_eq_true_eq] at hm
        exact .inr (.inl ⟨skip, o, c₁, hk, hskip, h₁, hm.1, hm.2, rfl, rfl⟩)
      · rename_i hm
        cases h
        simp only [Bool.and_eq_true, decide_eq_true_eq] at hm
        exact .inr (.inr ⟨skip, o, c₁, hk, hskip, h₁, hm, rfl, rfl⟩)

/-- What is done after a walk may be replaced by what does the same, however the walk ends. -/
theorem bind_ext {x : Option (Outcome α × Context σ)} {k k' : Outcome α × Context σ → Option β}
    (h : ∀ o c, k (o, c) = k' (o, c)) : x.bind k = x.bind k' := by
  cases x with
  | none => rfl
  | some x => exact h x.1 x.2

/-- Walks in turn, and then more of them. -/
theorem inTurn_append (ws ws' : List (Walk σ α)) (c : Context σ) :
    inTurn (ws ++ ws') c = (inTurn ws c).bind fun
      | (.failure f, c') => some (.failure f, c')
      | (.success vs, c') => (inTurn ws' c').map fun x => (x.1.map (vs ++ ·), x.2) := by
  induction ws generalizing c with
  | nil =>
    simp only [List.nil_append, inTurn, Option.bind_some]
    cases inTurn ws' c with
    | none => rfl
    | some x =>
      obtain ⟨o, c₁⟩ := x
      cases o <;> rfl
  | cons w ws ih =>
    simp only [List.cons_append, inTurn, ih, Option.bind_eq_bind, Option.bind_assoc]
    refine bind_ext fun o c₁ => ?_
    cases o with
    | failure f => rfl
    | success v =>
      simp only [Option.bind_assoc]
      refine bind_ext fun o c₂ => ?_
      cases o with
      | failure f => rfl
      | success vs =>
        simp only [Option.map_eq_bind, Option.bind_assoc, Option.bind_some]
        refine bind_ext fun o c₃ => ?_
        cases o <;> rfl

/-- A sequence that succeeds does so one walk after another. -/
theorem inTurn_cons {w : Walk σ α} {ws : List (Walk σ α)} {c c' : Context σ} {vs : List α}
    (h : inTurn (w :: ws) c = some (.success vs, c')) :
    ∃ v c₁ vs₁, w c = some (.success v, c₁) ∧ inTurn ws c₁ = some (.success vs₁, c') ∧
      vs = v :: vs₁ := by
  obtain ⟨⟨o₁, c₁⟩, h₁, h⟩ := Option.bind_eq_some_iff.mp h
  cases o₁ with
  | failure e => cases h
  | success v =>
    obtain ⟨⟨o₂, c₂⟩, h₂, h⟩ := Option.bind_eq_some_iff.mp h
    cases o₂ with
    | failure e => cases h
    | success vs₁ => cases h; exact ⟨v, c₁, vs₁, h₁, h₂, rfl⟩

theorem sequence_inTurn {ws : List (Walk σ α)} {c c' : Context σ} {vs : List α}
    (h : sequence ws c = some (.success vs, c')) : inTurn ws c = some (.success vs, c') := by
  obtain ⟨⟨o₁, c₁⟩, h₁, h⟩ := Option.bind_eq_some_iff.mp h
  cases o₁ with
  | failure e => cases h
  | success vs => cases h; exact h₁

/-! ## Loops -/

/-- What one round of matching a token comes to: the end of the input, a chunk of the
token, a miss, or another round behind what was skipped. -/
theorem consumeFrom_cases {skip : Context σ → Option (Bool × Context σ)} {token : Token}
    {start fuel : Nat} {c o c'} (h : consumeFrom skip token start (fuel + 1) c = some (o, c')) :
    (c.skipEmpty.isExhausted = true ∧ token.isEof = true ∧ o = .success "" ∧
      c' = c.skipEmpty.noteMatch token) ∨
    (∃ chunk, c.skipEmpty.chunk? = some chunk ∧ token.accepts chunk = true ∧
      o = .success chunk ∧
      c' = (c.skipEmpty.noteMatch token).moveTo (c.skipEmpty.cursor + 1)) ∨
    (∃ c₁, skip c.skipEmpty = some (false, c₁) ∧ o = .failure ⟨c₁.cursor, token⟩ ∧
      c' = ((c₁.noteMiss token).restore start).record ⟨c₁.cursor, token⟩) ∨
    (∃ c₁, skip c.skipEmpty = some (true, c₁) ∧
      consumeFrom skip token start fuel c₁ = some (o, c')) := by
  unfold consumeFrom at h
  dsimp only at h
  split at h
  · rename_i he
    cases h
    rw [Bool.and_eq_true] at he
    exact .inl ⟨he.1, he.2, rfl, rfl⟩
  · split at h
    · rename_i chunk hchunk
      cases h
      obtain ⟨hget, ha⟩ := Option.filter_eq_some_iff.mp hchunk
      exact .inr (.inl ⟨chunk, hget, ha, rfl, rfl⟩)
    · obtain ⟨⟨b, c₁⟩, h₁, h⟩ := Option.bind_eq_some_iff.mp h
      cases b with
      | true => exact .inr (.inr (.inr ⟨c₁, h₁, h⟩))
      | false =>
        cases h
        exact .inr (.inr (.inl ⟨c₁, h₁, rfl, rfl⟩))

/-- What one round of gathering comes to: the sign to stop, the end of the input, or
another round behind the next chunk. -/
theorem untilMatchFrom_cases {stop : Walk σ α} {start fuel : Nat} {gathered : Array String}
    {c o c'} (h : untilMatchFrom stop start (fuel + 1) gathered c = some (o, c')) :
    (probe stop c.skipEmpty = some (true, c') ∧ o = .success gathered.toList) ∨
    (∃ c₁, probe stop c.skipEmpty = some (false, c₁) ∧
      c₁.chunks.get? c.skipEmpty.cursor = none ∧ o = .failure ⟨start, .unexpected⟩ ∧
      c' = (c₁.restore start).record ⟨start, .unexpected⟩) ∨
    (∃ c₁ chunk, probe stop c.skipEmpty = some (false, c₁) ∧
      c₁.chunks.get? c.skipEmpty.cursor = some chunk ∧
      untilMatchFrom stop start fuel (gathered.push chunk) (c₁.moveTo (c.skipEmpty.cursor + 1))
        = some (o, c')) := by
  obtain ⟨⟨b, c₁⟩, h₁, h⟩ := Option.bind_eq_some_iff.mp h
  cases b with
  | true => cases h; exact .inl ⟨h₁, rfl⟩
  | false =>
    simp only [Bool.false_eq_true, if_false] at h
    split at h
    · rename_i hn
      cases h
      exact .inr (.inl ⟨c₁, h₁, hn, rfl, rfl⟩)
    · rename_i chunk hget
      exact .inr (.inr ⟨c₁, chunk, h₁, hget, h⟩)

namespace Repetition

/-- How a repetition ends in a round: there is no chunk left, the sign to stop is ahead,
the element fails, the separator fails, or the round did not move. The end is a failure
where elements are missing. -/
inductive Leaves (r : Repetition σ α β γ) (start rewind : Nat) (values : Array α)
    (c : Context σ) : Outcome (List α) → Context σ → Prop
  | exhausted : c.isExhausted = true → r.least ≤ values.size →
      Leaves r start rewind values c (.success values.toList) (c.restore rewind)
  | stopped {c₁ : Context σ} : r.stopsAt c = some (true, c₁) → r.least ≤ values.size →
      Leaves r start rewind values c (.success values.toList) (c₁.restore rewind)
  | stoppedShort {c₁ : Context σ} : r.stopsAt c = some (true, c₁) → values.size < r.least →
      Leaves r start rewind values c (.failure ⟨c₁.cursor, .unexpected⟩)
        ((c₁.restore start).record ⟨c₁.cursor, .unexpected⟩)
  | missed {c₁ c₂ : Context σ} {f : Failure} : r.stopsAt c = some (false, c₁) →
      r.element c₁ = some (.failure f, c₂) → r.least ≤ values.size →
      Leaves r start rewind values c (.success values.toList) (c₂.restore rewind)
  | missedShort {c₁ c₂ : Context σ} {f : Failure} : r.stopsAt c = some (false, c₁) →
      r.element c₁ = some (.failure f, c₂) → values.size < r.least →
      Leaves r start rewind values c (.failure f) (c₂.restore start)
  | last {c₁ c₂ c₃ : Context σ} {v : α} : r.stopsAt c = some (false, c₁) →
      r.element c₁ = some (.success v, c₂) → r.separates c₂ = some (false, c₃) →
      Leaves r start rewind values c (.success (values.push v).toList) (c₃.restore c₂.cursor)
  | stuck {c₁ c₂ c₃ : Context σ} {v : α} : r.stopsAt c = some (false, c₁) →
      r.element c₁ = some (.success v, c₂) → r.separates c₂ = some (true, c₃) →
      c₃.cursor = c₁.cursor →
      Leaves r start rewind values c (.failure ⟨c₁.cursor, .infiniteLoop⟩)
        (((c₃.halt (.infiniteLoop c₃.currentRule (c₃.chunks.offset c₁.cursor))).restore
          start).record ⟨c₁.cursor, .infiniteLoop⟩)

/-- A round that found the element `v` and moved: `c₂` is left by the element and `c₃` by
the separator. -/
structure Continues (r : Repetition σ α β γ) (c : Context σ) (v : α) (c₁ c₂ c₃ : Context σ) :
    Prop where
  stopsAt : r.stopsAt c = some (false, c₁)
  element : r.element c₁ = some (.success v, c₂)
  separates : r.separates c₂ = some (true, c₃)
  moved : c₃.cursor ≠ c₁.cursor

/-- What one round of a repetition comes to: an end, or another round. -/
theorem rounds_cases {r : Repetition σ α β γ} {start fuel rewind : Nat} {values : Array α}
    {c o c'} (h : r.rounds start (fuel + 1) rewind values c = some (o, c')) :
    r.Leaves start rewind values c o c' ∨
    ∃ v c₁ c₂ c₃, r.Continues c v c₁ c₂ c₃ ∧
      r.rounds start fuel c₂.cursor (values.push v) c₃ = some (o, c') := by
  unfold rounds at h
  split at h
  · rename_i he
    cases h
    simp only [Bool.and_eq_true, decide_eq_true_eq] at he
    exact .inl (.exhausted he.1 he.2)
  · obtain ⟨⟨stops, c₁⟩, h₁, h⟩ := Option.bind_eq_some_iff.mp h
    cases stops with
    | true =>
      simp only [if_true] at h
      split at h
      · rename_i hl; cases h; exact .inl (.stoppedShort h₁ hl)
      · rename_i hl; cases h; exact .inl (.stopped h₁ (by omega))
    | false =>
      simp only [Bool.false_eq_true, if_false] at h
      obtain ⟨⟨o₂, c₂⟩, h₂, h⟩ := Option.bind_eq_some_iff.mp h
      cases o₂ with
      | failure f =>
        dsimp only at h
        split at h
        · rename_i hl; cases h; exact .inl (.missedShort h₁ h₂ hl)
        · rename_i hl; cases h; exact .inl (.missed h₁ h₂ (by omega))
      | success v =>
        obtain ⟨⟨more, c₃⟩, h₃, h⟩ := Option.bind_eq_some_iff.mp h
        cases more with
        | false => cases h; exact .inl (.last h₁ h₂ h₃)
        | true =>
          simp only [Bool.not_true, Bool.false_eq_true, if_false] at h
          split at h
          · rename_i hc
            cases h
            exact .inl (.stuck h₁ h₂ h₃ hc)
          · rename_i hc
            exact .inr ⟨v, c₁, c₂, c₃, ⟨h₁, h₂, h₃, hc⟩, h⟩

/-- Whether a repetition is over because no chunk and no needed element is left. -/
def IsSpent (r : Repetition σ α β γ) (values : Array α) (c : Context σ) : Prop :=
  c.isExhausted = true ∧ r.least ≤ values.size

theorem rounds_of_isSpent {r : Repetition σ α β γ} {start fuel rewind : Nat} {values : Array α}
    {c : Context σ} (h : r.IsSpent values c) :
    r.rounds start (fuel + 1) rewind values c
      = some (.success values.toList, c.restore rewind) := by
  unfold rounds
  rw [if_pos (by simpa [IsSpent] using h)]

theorem rounds_of_leaves {r : Repetition σ α β γ} {start fuel rewind : Nat} {values : Array α}
    {c o c'} (hne : ¬ r.IsSpent values c) (h : r.Leaves start rewind values c o c') :
    r.rounds start (fuel + 1) rewind values c = some (o, c') := by
  unfold rounds
  rw [if_neg (by simpa [IsSpent] using hne)]
  cases h with
  | exhausted he hl => exact absurd ⟨he, hl⟩ hne
  | stopped h₁ hl => simp [h₁, Nat.not_lt.mpr hl]
  | stoppedShort h₁ hl => simp [h₁, hl, Context.fail]
  | missed h₁ h₂ hl => simp [h₁, h₂, Nat.not_lt.mpr hl]
  | missedShort h₁ h₂ hl => simp [h₁, h₂, hl]
  | last h₁ h₂ h₃ => simp [h₁, h₂, h₃]
  | stuck h₁ h₂ h₃ hc => simp [h₁, h₂, h₃, hc, Repetition.stuck, Context.fail]

theorem rounds_of_continues {r : Repetition σ α β γ} {start fuel rewind : Nat} {values : Array α}
    {c v c₁ c₂ c₃} (hne : ¬ r.IsSpent values c) (h : r.Continues c v c₁ c₂ c₃) :
    r.rounds start (fuel + 1) rewind values c
      = r.rounds start fuel c₂.cursor (values.push v) c₃ := by
  rw [rounds, if_neg (by simpa [IsSpent] using hne)]
  simp [h.stopsAt, h.element, h.separates, h.moved]

end Repetition

end Chunkwise.Walk

namespace Chunkwise.Grammar

/-- What becomes of a reference: the rule is in the table, or the parse stops. -/
theorem call_cases {rules : RuleTable} {run : LinkedGrammar → Walk LinkedGrammar Value}
    {r : RuleRef} {c c' : Context LinkedGrammar} {o : Outcome Value}
    (h : call rules run r c = some (o, c')) :
    (∃ g, rules[r.symbol.index]? = some g ∧ Walk.inRule r.name (run g) c = some (o, c')) ∨
    (rules[r.symbol.index]? = none ∧ o = c.haltedFailure ∧
      c' = c.halt (.unresolvedRule r.name)) := by
  unfold call at h
  split at h
  · rename_i g hg
    exact .inl ⟨g, hg, h⟩
  · rename_i hn
    cases h
    exact .inr ⟨hn, rfl, rfl⟩

end Chunkwise.Grammar
