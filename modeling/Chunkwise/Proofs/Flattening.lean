import Chunkwise.Proofs.Returning

/-! Choices within choices and sequences within sequences. Which of several failures a choice
reports does not depend on how its alternatives are grouped, because the deepest of them, and the
latest of those, is the same however they are compared; and a choice that fails is where it
started, so the alternatives behind it start where they would start anyway. A sequence within a
sequence puts the cursor back twice when it fails, which only the trace tells. -/

namespace Chunkwise

/-- Failures may be compared in groups. -/
theorem Failure.deepest_assoc (before : Option Failure) (f g : Failure) :
    Failure.deepest (some (.deepest before f)) g
      = .deepest before (.deepest (some f) g) := by
  cases before with
  | none => rfl
  | some d =>
    -- which of the three is left is decided by how each compares with its neighbour
    simp only [deepest]
    by_cases hf : d.position ≤ f.position
    · by_cases hg : f.position ≤ g.position
      · simp only [hf, hg, Nat.le_trans hf hg, if_true]
      · simp only [hf, hg, if_true, if_false]
    · by_cases hg : f.position ≤ g.position
      · simp only [hf, hg, if_true, if_false]
      · have hdg : ¬ d.position ≤ g.position := by omega
        simp only [hf, hg, hdg, if_false]

namespace Walk

variable {σ α : Type}

/-! ## Choices -/

/-- The outcome, when `before` is the deepest failure of what was tried in front. -/
def behind (before : Option Failure) : Outcome α → Outcome α
  | .success v => .success v
  | .failure f => .failure (.deepest before f)

/-- What failed in front of a choice comes in only where the choice fails. -/
theorem tryEach_some (start : Nat) (before : Option Failure) (f : Failure)
    (ws : List (Walk σ α)) (c : Context σ) :
    tryEach start (some (.deepest before f)) ws c
      = (tryEach start (some f) ws c).map fun x => (behind before x.1, x.2) := by
  induction ws generalizing f c with
  | nil => rfl
  | cons w ws ih =>
    simp only [tryEach, Option.bind_eq_bind, Option.map_bind]
    refine bind_ext fun o c₁ => ?_
    cases o with
    | success v => rfl
    | failure g =>
      simp only [Function.comp_apply]
      rw [Failure.deepest_assoc, ih]

theorem tryEach_behind (start : Nat) (before : Option Failure) {ws : List (Walk σ α)}
    (hws : ws ≠ []) (c : Context σ) :
    tryEach start before ws c
      = (tryEach start none ws c).map fun x => (behind before x.1, x.2) := by
  cases ws with
  | nil => exact absurd rfl hws
  | cons w ws =>
    simp only [tryEach, Option.bind_eq_bind, Option.map_bind]
    refine bind_ext fun o c₁ => ?_
    cases o with
    | success v => rfl
    | failure f => exact tryEach_some start before f ws (c₁.restore start)

/-- Alternatives behind others are tried knowing the failure of those. -/
theorem tryEach_append (start : Nat) {before : Option Failure} {ws : List (Walk σ α)}
    (h : ws ≠ [] ∨ before.isSome) (ws' : List (Walk σ α)) (c : Context σ) :
    tryEach start before (ws ++ ws') c = (tryEach start before ws c).bind fun
      | (.success v, c') => some (.success v, c')
      | (.failure f, c') => tryEach start (some f) ws' c' := by
  induction ws generalizing before c with
  | nil =>
    cases before with
    | none => simp at h
    | some f => rfl
  | cons w ws ih =>
    simp only [List.cons_append, tryEach, Option.bind_eq_bind, Option.bind_assoc]
    refine bind_ext fun o c₁ => ?_
    cases o with
    | success v => rfl
    | failure f => exact ih (.inr rfl) (c₁.restore start)

/-- A choice among the alternatives stands for its own alternatives. -/
theorem tryEach_choice {before : Option Failure} {ys : List (Walk σ α)} (hys : ys ≠ [])
    (zs : List (Walk σ α)) (c : Context σ) :
    tryEach c.cursor before (choice ys :: zs) c = tryEach c.cursor before (ys ++ zs) c := by
  rw [tryEach_append c.cursor (.inl hys), tryEach_behind c.cursor before hys, tryEach]
  simp only [choice, Option.bind_eq_bind]
  cases h : tryEach c.cursor none ys c with
  | none => rfl
  | some x =>
    obtain ⟨o, c₁⟩ := x
    cases o with
    | success v => rfl
    | failure f =>
      have hback : c₁.restore c.cursor = c₁ := by
        rw [Context.restore, if_pos (tryEach_returns ys h).symm]
      simp only [Option.bind_some, Option.map_some, behind, hback]

/-- Alternatives that come to the same wherever the choice goes on with them, come to the same
behind any others. -/
theorem tryEach_congr {ws ws' : List (Walk σ α)}
    (h : ∀ (before : Option Failure) (c : Context σ),
      tryEach c.cursor before ws c = tryEach c.cursor before ws' c)
    (xs : List (Walk σ α)) (before : Option Failure) (c : Context σ) :
    tryEach c.cursor before (xs ++ ws) c = tryEach c.cursor before (xs ++ ws') c := by
  induction xs generalizing before c with
  | nil => exact h before c
  | cons x xs ih =>
    simp only [List.cons_append, tryEach, Option.bind_eq_bind]
    refine bind_ext fun o c₁ => ?_
    cases o with
    | success v => rfl
    | failure f =>
      have := ih (some (.deepest before f)) (c₁.restore c.cursor)
      rwa [Context.cursor_restore] at this

theorem choice_choice (xs : List (Walk σ α)) {ys : List (Walk σ α)} (hys : ys ≠ [])
    (zs : List (Walk σ α)) : choice (xs ++ choice ys :: zs) = choice (xs ++ (ys ++ zs)) :=
  funext fun c => tryEach_congr (fun _ _ => tryEach_choice hys zs _) xs none c

/-! ## Sequences -/

/-- The walk with its value as the only one of a list. -/
def single (w : Walk σ α) : Walk σ (List α) := w.map ([·])

/-- The walk, and no trace of it. -/
def untraced (w : Walk σ α) : Walk σ α := fun c =>
  (w c).map fun x => (x.1, { x.2 with trace := none })

theorem inTurn_single (ws : List (Walk σ α)) (c : Context σ) :
    inTurn (ws.map single) c = (inTurn ws c).map fun x => (x.1.map (List.map ([·])), x.2) := by
  induction ws generalizing c with
  | nil => rfl
  | cons w ws ih =>
    simp only [List.map_cons, inTurn, single, Walk.map, Option.bind_eq_bind, Option.map_eq_bind,
      Option.bind_assoc]
    refine bind_ext fun o c₁ => ?_
    cases o with
    | failure f => rfl
    | success v =>
      simp only [Outcome.map, ih, Option.map_eq_bind, Option.bind_assoc, Option.bind_some,
        Function.comp_apply]
      refine bind_ext fun o c₂ => ?_
      cases o <;> rfl

/-- A sequence within a sequence, once it is known how its own walks end: it differs from them in
going back to its start when one of them fails. -/
theorem inTurn_sequence (xs ys zs : List (Walk σ α)) (c : Context σ) :
    inTurn (xs.map single ++ sequence ys :: zs.map single) c = (inTurn xs c).bind fun
      | (.failure f, c₁) => some (.failure f, c₁)
      | (.success us, c₁) => (inTurn ys c₁).bind fun
        | (.failure f, c₂) => some (.failure f, c₂.restore c₁.cursor)
        | (.success vs, c₂) => (inTurn zs c₂).map fun x =>
          (x.1.map fun ws => us.map ([·]) ++ vs :: ws.map ([·]), x.2) := by
  rw [inTurn_append, inTurn_single]
  simp only [Option.map_eq_bind, Option.bind_assoc]
  refine bind_ext fun o c₁ => ?_
  cases o with
  | failure f => rfl
  | success us =>
    simp only [Function.comp_apply, Option.bind_some, Outcome.map, inTurn, sequence,
      Option.bind_eq_bind, Option.bind_assoc]
    refine bind_ext fun o c₂ => ?_
    cases o with
    | failure f => rfl
    | success vs =>
      simp only [inTurn_single, Option.map_eq_bind, Option.bind_assoc, Option.bind_some,
        Function.comp_apply]
      refine bind_ext fun o c₃ => ?_
      cases o <;> rfl

/-- Going back twice leaves what going back once does, but for the trace. -/
theorem restore_restore_untraced (c : Context σ) (i j : Nat) :
    { (c.restore i).restore j with trace := none } = { c.restore j with trace := none } := by
  rw [Context.restore_eq (c.restore i) j, Context.restore_eq c i, Context.restore_eq c j]

theorem sequence_sequence (xs ys zs : List (Walk σ α)) :
    ((sequence (xs.map single ++ sequence ys :: zs.map single)).map List.flatten).untraced
      = (sequence (xs ++ (ys ++ zs))).untraced := by
  funext c
  simp only [untraced, Walk.map, sequence]
  rw [inTurn_sequence, inTurn_append]
  simp only [inTurn_append, Option.bind_eq_bind, Option.map_eq_bind, Option.bind_assoc]
  refine bind_ext fun o c₁ => ?_
  cases o with
  | failure f => rfl
  | success us =>
    simp only [Option.bind_assoc]
    refine bind_ext fun o c₂ => ?_
    cases o with
    | failure f =>
      simp only [Option.bind_some, Function.comp_apply, Outcome.map]
      rw [restore_restore_untraced]
    | success vs =>
      simp only [Option.bind_assoc]
      refine bind_ext fun o c₃ => ?_
      cases o with
      | failure f => rfl
      | success ws => simp [Outcome.map, ← List.flatMap_def]

/-- **Nested choices and sequences can be written out.** A choice with the alternatives of another
choice in its midst is that of all alternatives one after another, down to the trace, if the choice
within has an alternative. A sequence within a sequence comes to the outcome of all its walks one
after another, with the values of the inner ones in a list of their own, and leaves a context that
differs in the trace at most. -/
theorem nested_walks_flatten (xs ys zs : List (Walk σ α)) :
    (ys ≠ [] → choice (xs ++ [choice ys] ++ zs) = choice (xs ++ ys ++ zs)) ∧
    ((sequence (xs.map single ++ [sequence ys] ++ zs.map single)).map List.flatten).untraced
      = (sequence (xs ++ ys ++ zs)).untraced := by
  simp only [List.append_assoc, List.singleton_append]
  exact ⟨fun hys => choice_choice xs hys zs, sequence_sequence xs ys zs⟩

/-- A walk that fails at a place, which it also remembers, and leaves the cursor behind it. -/
def failBehind (i : Nat) (t : Token) : Walk Unit Unit := fun c =>
  some ((c.moveTo (i + 1)).fail i t)

/-- A walk that takes the next chunk, whatever it is. -/
def takeAny : Walk Unit Unit := fun c => some (.success (), c.moveTo (c.cursor + 1))

/-- Of the alternatives the second and the third fail deepest, and the third is reported. The
sequence within fails halfway: it goes back to where it began, and the one around it goes back
further, to where the sequence of all walks goes back at once. -/
theorem nested_walks_flatten_ties :
    (∃ c', choice ([failBehind 0 .eof] ++ [choice [failBehind 2 .eof, failBehind 2 .infiniteLoop]]
          ++ [failBehind 1 .unexpected]) { chunks := ⟨#["x", "y"]⟩, trace := some {} }
        = some (.failure ⟨2, .infiniteLoop⟩, c') ∧
      c'.trace.map Trace.lines
        = some ["backtrack 1 -> 0", "backtrack 3 -> 0", "backtrack 3 -> 0", "backtrack 2 -> 0"]) ∧
    let c : Context Unit := { chunks := ⟨#["x", "y", "z"]⟩, trace := some {} }
    let nested := sequence ([takeAny].map single ++ [sequence [takeAny, failBehind 2 .eof]]
      ++ [takeAny].map single)
    let flat := sequence ([takeAny] ++ [takeAny, failBehind 2 .eof] ++ [takeAny])
    (∃ c', (nested.map List.flatten).untraced c = some (.failure ⟨2, .eof⟩, c') ∧ c'.cursor = 0) ∧
      (nested c).map (fun x => x.2.trace.map Trace.lines)
        = some (some ["backtrack 3 -> 1", "backtrack 1 -> 0"]) ∧
      (flat c).map (fun x => x.2.trace.map Trace.lines) = some (some ["backtrack 3 -> 0"]) := by
  constructor
  · rw [(nested_walks_flatten [failBehind 0 .eof] [failBehind 2 .eof, failBehind 2 .infiniteLoop]
      [failBehind 1 .unexpected]).1 (List.cons_ne_nil _ _)]
    exact ⟨_, rfl, by decide⟩
  · intro c nested flat
    have heq : (nested.map List.flatten).untraced = flat.untraced :=
      (nested_walks_flatten [takeAny] [takeAny, failBehind 2 .eof] [takeAny]).2
    rw [heq]
    exact ⟨⟨_, rfl, rfl⟩, by decide, by decide⟩

end Walk

end Chunkwise
