import Chunkwise.Proofs.Cases
import Chunkwise.Proofs.Fuel

/-! What a grammar yields, put together from what its parts yield. A loop goes on from
where it is with what it has gathered so far, and a sequence goes on behind its first
element; what is left to do is the same loop or sequence begun afresh, but for the place
to go back to and the failure to report. So the two are compared by how they end. -/

namespace Chunkwise

namespace Context

variable {σ : Type}

theorem isHalted_halt (c : Context σ) (d : Defect) : (c.halt d).isHalted = true := by
  unfold isHalted halt
  cases c.fatal <;> rfl

@[simp] theorem fatal_restore (c : Context σ) (i : Nat) : (c.restore i).fatal = c.fatal := by
  unfold restore
  split <;> rfl

@[simp] theorem fatal_exitRule (c : Context σ) (matched : Bool) :
    (c.exitRule matched).fatal = c.fatal := by
  unfold exitRule
  split <;> rfl

end Context

namespace Walk

variable {σ α β γ : Type}

/-- Both ends are successes with the same value and at the same place, or both are
failures; and the parse was stopped in both or in neither. -/
def EndsAlike (x y : Outcome α × Context σ) : Prop :=
  y.2.fatal = x.2.fatal ∧
    match x.1 with
    | .success v => y.1 = .success v ∧ y.2.cursor = x.2.cursor
    | .failure _ => y.1.isSuccess = false

theorem EndsAlike.refl (x : Outcome α × Context σ) : EndsAlike x x := by
  obtain ⟨o, c⟩ := x
  cases o with
  | success v => exact ⟨rfl, rfl, rfl⟩
  | failure f => exact ⟨rfl, rfl⟩

theorem EndsAlike.map {x y : Outcome α × Context σ} (h : EndsAlike x y) (f : α → β) :
    EndsAlike (x.1.map f, x.2) (y.1.map f, y.2) := by
  obtain ⟨o, c⟩ := x
  obtain ⟨o', c'⟩ := y
  obtain ⟨hf, h⟩ := h
  refine ⟨hf, ?_⟩
  cases o with
  | success v =>
    obtain ⟨ho, hc⟩ := h
    exact ⟨by rw [show o' = .success v from ho]; rfl, hc⟩
  | failure e => exact (Outcome.isSuccess_map f o').trans h

/-- The token is found, or missed, wherever the attempt began. -/
theorem consumeFrom_start {skip : Context σ → Option (Bool × Context σ)} {token : Token}
    {start : Nat} (start' : Nat) : ∀ {fuel c x}, consumeFrom skip token start fuel c = some x →
      ∃ y, consumeFrom skip token start' fuel c = some y ∧ EndsAlike x y
  | 0, _, _, h => by cases h
  | fuel + 1, c, x, h => by
    unfold consumeFrom at h ⊢
    dsimp only at h ⊢
    split at h
    · rename_i he
      rw [if_pos he]
      exact ⟨x, h, .refl x⟩
    · rename_i he
      rw [if_neg he]
      split at h
      · exact ⟨x, h, .refl x⟩
      · obtain ⟨⟨moved, c₁⟩, h₁, h⟩ := Option.bind_eq_some_iff.mp h
        simp only [h₁, Option.bind_eq_bind, Option.bind_some]
        cases moved with
        | true => exact consumeFrom_start start' h
        | false =>
          cases h
          refine ⟨_, rfl, ?_, rfl⟩
          simp [Context.fail, Context.record]

/-- A sequence ends like the rest of it behind its first element. -/
theorem sequence_cons {w : Walk σ α} {ws : List (Walk σ α)} {c c₁ : Context σ} {v : α} {x}
    (h₁ : w c = some (.success v, c₁)) (h : sequence ws c₁ = some x) :
    ∃ y, sequence (w :: ws) c = some y ∧ EndsAlike (x.1.map (v :: ·), x.2) y := by
  obtain ⟨⟨o₂, c₂⟩, h₂, h⟩ := Option.bind_eq_some_iff.mp h
  cases o₂ with
  | success vs =>
    cases h
    exact ⟨(.success (v :: vs), c₂), by simp [sequence, inTurn, h₁, h₂, Outcome.map], .refl _⟩
  | failure f =>
    cases h
    refine ⟨(.failure f, c₂.restore c.cursor),
      by simp [sequence, inTurn, h₁, h₂, Outcome.map], ?_, rfl⟩
    simp

/-- Which walk is taken does not depend on how the walks before have failed. -/
theorem tryEach_before {start : Nat} : ∀ {ws : List (Walk σ α)} {before : Option Failure}
    (before' : Option Failure) {c x}, tryEach start before ws c = some x →
      ∃ y, tryEach start before' ws c = some y ∧ EndsAlike x y
  | [], some f, some f', c, x, h => by cases h; exact ⟨_, rfl, rfl, rfl⟩
  | [], some f, none, c, x, h => by cases h; exact ⟨_, rfl, rfl, rfl⟩
  | [], none, some f', c, x, h => by cases h; exact ⟨_, rfl, rfl, rfl⟩
  | [], none, none, c, x, h => ⟨x, h, .refl x⟩
  | w :: ws, before, before', c, x, h => by
    rw [tryEach] at h ⊢
    obtain ⟨⟨o₁, c₁⟩, h₁, h⟩ := Option.bind_eq_some_iff.mp h
    simp only [h₁, Option.bind_eq_bind, Option.bind_some]
    cases o₁ with
    | success v => exact ⟨x, h, .refl x⟩
    | failure f => exact tryEach_before _ h

/-- A choice ends like the rest of it where its first walk fails. -/
theorem choice_cons {w : Walk σ α} {ws : List (Walk σ α)} {c c₁ : Context σ} {f : Failure} {x}
    (h₁ : w c = some (.failure f, c₁)) (h : choice ws (c₁.restore c.cursor) = some x) :
    ∃ y, choice (w :: ws) c = some y ∧ EndsAlike x y := by
  unfold choice at h ⊢
  rw [Context.cursor_restore] at h
  obtain ⟨y, hy, ha⟩ := tryEach_before (some (.deepest none f)) h
  exact ⟨y, by simp [tryEach, h₁, hy], ha⟩

namespace Repetition

/-- How rounds that begin with the elements `values` end, and how they end if there are
the elements `pre` in front of those. If no element is added, each goes back to the place
behind its last one. -/
def EndsBehind (pre values : List α) (rewind rewind' : Nat)
    (x y : Outcome (List α) × Context σ) : Prop :=
  y.2.fatal = x.2.fatal ∧
    match x.1 with
    | .success vs => ∃ more, vs = values ++ more ∧ y.1 = .success (pre ++ vs) ∧
        if more = [] then x.2.cursor = rewind ∧ y.2.cursor = rewind'
        else y.2.cursor = x.2.cursor
    | .failure _ => y.1.isSuccess = false

/-- Elements from before count for the least number, and change nothing else. -/
theorem rounds_behind {r : Repetition σ α β γ} {least : Nat} {pre : List α}
    (hl : r.least = least - pre.length) {start : Nat} (start' : Nat) :
    ∀ {fuel rewind} (rewind' : Nat) {values : Array α} {c x},
      r.rounds start fuel rewind values c = some x →
      ∃ y, { r with least }.rounds start' fuel rewind' (pre.toArray ++ values) c = some y ∧
        EndsBehind pre values.toList rewind rewind' x y
  | 0, _, _, _, _, _, h => by cases h
  | fuel + 1, rewind, rewind', values, c, (o, c'), h => by
    have hsize : (pre.toArray ++ values).size = pre.length + values.size := by simp
    -- an end without another element
    have hdone : ∀ {d : Context σ}, EndsBehind pre values.toList rewind rewind'
        (.success values.toList, d.restore rewind)
        (.success (pre.toArray ++ values).toList, d.restore rewind') := by
      intro d
      exact ⟨by simp, [], by simp, by simp, by simp⟩
    by_cases hspent : r.IsSpent values c
    · rw [rounds_of_isSpent hspent] at h
      cases h
      refine ⟨_, rounds_of_isSpent ⟨hspent.1, ?_⟩, hdone⟩
      have := hspent.2
      show least ≤ _
      omega
    · have hspent' : ¬ { r with least }.IsSpent (pre.toArray ++ values) c := by
        rintro ⟨he, hn⟩
        have hn : least ≤ _ := hn
        exact hspent ⟨he, by omega⟩
      rcases rounds_cases h with hleaves | ⟨v, c₁, c₂, c₃, hgo, h⟩
      · cases hleaves with
        | exhausted he hn => exact absurd ⟨he, hn⟩ hspent
        | stopped h₁ hn =>
          exact ⟨_, rounds_of_leaves hspent' (.stopped h₁ (by dsimp only; omega)), hdone⟩
        | stoppedShort h₁ hn =>
          exact ⟨_, rounds_of_leaves hspent' (.stoppedShort h₁ (by dsimp only; omega)),
            by simp [Context.record], rfl⟩
        | missed h₁ h₂ hn =>
          exact ⟨_, rounds_of_leaves hspent' (.missed h₁ h₂ (by dsimp only; omega)), hdone⟩
        | missedShort h₁ h₂ hn =>
          exact ⟨_, rounds_of_leaves hspent' (.missedShort h₁ h₂ (by dsimp only; omega)),
            by simp, rfl⟩
        | @last c₁ c₂ c₃ v h₁ h₂ h₃ =>
          exact ⟨_, rounds_of_leaves hspent' (.last h₁ h₂ h₃), rfl, [v], by simp, by simp, by simp⟩
        | stuck h₁ h₂ h₃ hc =>
          exact ⟨_, rounds_of_leaves hspent' (.stuck h₁ h₂ h₃ hc), by simp [Context.record], rfl⟩
      · have hgo' : { r with least }.Continues c v c₁ c₂ c₃ :=
          ⟨hgo.stopsAt, hgo.element, hgo.separates, hgo.moved⟩
        obtain ⟨y, hy, hf, ha⟩ := rounds_behind hl start' c₂.cursor h
        rw [rounds_of_continues hspent' hgo', ← Array.append_push]
        refine ⟨y, hy, hf, ?_⟩
        cases o with
        | success vs =>
          obtain ⟨more, rfl, hvs, hcur⟩ := ha
          refine ⟨v :: more, by simp, hvs, ?_⟩
          rw [if_neg (List.cons_ne_nil v more)]
          split at hcur
          · exact hcur.2.trans hcur.1.symm
          · exact hcur
        | failure f => exact ha

/-- A repetition ends like the rest of it behind its first element, for which it then
needs one element less. If there is no other element, it ends behind the first one. -/
theorem repetition_cons {r : Repetition σ α β γ} {fuel : Nat} {c v c₁ c₂ c₃ x}
    (hspent : ¬ r.IsSpent #[] c) (hgo : r.Continues c v c₁ c₂ c₃)
    (h : repetition { r with least := r.least - 1 } fuel c₃ = some x) :
    ∃ y, repetition r (fuel + 1) c = some y ∧
      EndsBehind [v] [] c₃.cursor c₂.cursor x y := by
  unfold repetition at h ⊢
  rw [rounds_of_continues hspent hgo]
  have hl : { r with least := r.least - 1 }.least = r.least - [v].length := rfl
  obtain ⟨y, hy, he⟩ := rounds_behind hl c.cursor c₂.cursor h
  exact ⟨y, by simpa using hy, by simpa using he⟩

end Repetition

end Walk

namespace Grammar

variable {rules : RuleTable}

/-- From some number of steps on, that is what the grammar comes to. -/
theorem Yields.eventually {g : LinkedGrammar} {c c' : Context LinkedGrammar} {o : Outcome Value}
    (h : Yields rules g c o c') : ∃ n, ∀ m, n ≤ m → run rules m g c = some (o, c') := by
  obtain ⟨n, h⟩ := h
  exact ⟨n, fun m hm => run_le hm g h⟩

/-- Two grammars that both come to something do so within the same number of steps. -/
theorem Yields.together {g₁ g₂ : LinkedGrammar} {c₁ c₂ c₁' c₂' : Context LinkedGrammar}
    {o₁ o₂ : Outcome Value} (h₁ : Yields rules g₁ c₁ o₁ c₁') (h₂ : Yields rules g₂ c₂ o₂ c₂') :
    ∃ m, run rules m g₁ c₁ = some (o₁, c₁')
      ∧ step rules m (run rules m) g₂ c₂ = some (o₂, c₂') := by
  obtain ⟨n₁, h₁⟩ := h₁.eventually
  obtain ⟨n₂, h₂⟩ := h₂.eventually
  exact ⟨max n₁ n₂, h₁ _ (Nat.le_max_left n₁ n₂),
    h₂ (max n₁ n₂ + 1) (Nat.le_succ_of_le (Nat.le_max_right n₁ n₂))⟩

theorem Yields.of_step {g : LinkedGrammar} {c c' : Context LinkedGrammar} {o : Outcome Value}
    {m : Nat} (h : step rules m (run rules m) g c = some (o, c')) : Yields rules g c o c' :=
  ⟨m + 1, h⟩

/-! A loop that ends within some number of rounds, with parts that end within some number of
steps, does so within as many of both. -/

theorem Yields.consume {t : Token} {c c' : Context LinkedGrammar} {o : Outcome String} {m n : Nat}
    (hf : c.fatal = none)
    (h : Walk.consumeFrom (Walk.trySkip (run rules m)) t c.cursor n c = some (o, c')) :
    Yields rules (.consume t) c (o.map .text) c' := by
  have hrun : ∀ g, Walk.Le (run rules m g) (run rules (max m n) g) :=
    fun g => run_le (Nat.le_max_left m n) g
  have hle := Walk.consumeFrom_le (Walk.trySkip_le hrun) (Nat.le_max_right m n) h
  refine .of_step (m := max m n) ?_
  simp [step, Walk.map, Walk.consume, Context.isHalted, hf, hle]

theorem consumeFrom_of_step {t : Token} {run : LinkedGrammar → Walk LinkedGrammar Value}
    {c c' : Context LinkedGrammar} {o : Outcome Value} {m : Nat} (hf : c.fatal = none)
    (h : step rules m run (.consume t) c = some (o, c')) :
    ∃ o', o = o'.map .text ∧
      Walk.consumeFrom (Walk.trySkip run) t c.cursor m c = some (o', c') := by
  obtain ⟨⟨o', c₁⟩, h, he⟩ := Option.map_eq_some_iff.mp h
  cases he
  unfold Walk.consume at h
  rw [if_neg (by simp [Context.isHalted, hf])] at h
  exact ⟨o', rfl, h⟩

theorem Yields.untilMatch {g : LinkedGrammar} {c c' : Context LinkedGrammar}
    {o : Outcome (List String)} {m n : Nat} (hf : c.fatal = none)
    (h : Walk.untilMatchFrom (run rules m g) c.cursor n #[] c = some (o, c')) :
    Yields rules (.untilMatch g) c (o.map .ofTexts) c' := by
  have hrun : ∀ g, Walk.Le (run rules m g) (run rules (max m n) g) :=
    fun g => run_le (Nat.le_max_left m n) g
  have hle := Walk.untilMatchFrom_le (hrun g) (Nat.le_max_right m n) h
  refine .of_step (m := max m n) ?_
  simp [step, Walk.map, Walk.untilMatch, Context.isHalted, hf, hle]

/-- The repetition that a grammar stands for. -/
def repetitionOf (run : LinkedGrammar → Walk LinkedGrammar Value) (g : LinkedGrammar) (least : Nat)
    (separator stop : Option LinkedGrammar) : Walk.Repetition LinkedGrammar Value Value Value :=
  ⟨run g, least, separator.map run, stop.map run⟩

theorem Yields.repeated {g : LinkedGrammar} {least : Nat} {separator stop : Option LinkedGrammar}
    {c c' : Context LinkedGrammar} {o : Outcome (List Value)} {m n : Nat}
    (h : Walk.repetition (repetitionOf (run rules m) g least separator stop) n c = some (o, c')) :
    Yields rules (.repeated g least separator stop) c (o.map .list) c' := by
  have hrun : ∀ g, Walk.Le (run rules m g) (run rules (max m n) g) :=
    fun g => run_le (Nat.le_max_left m n) g
  have hle := Walk.repetition_le (Walk.Repetition.le_map hrun g least separator stop)
    (Nat.le_max_right m n) h
  refine .of_step (m := max m n) ?_
  simp [step, Walk.map, hle]

end Grammar

end Chunkwise
