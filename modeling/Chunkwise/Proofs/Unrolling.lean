import Chunkwise.Proofs.Bounded
import Chunkwise.Proofs.Compose
import Chunkwise.Proofs.Progress
import Chunkwise.Proofs.Termination

/-! Repetitions written out. A repetition that needs `n` elements is its element `n` times and then
a repetition that needs none. A list with separators is an element and then rounds of a separator
and an element. There the two forms look for the end at different places, in front of a separator
and behind it, but neither can find an element at the end; so they come apart only where both are
about to stop. -/

namespace Chunkwise

namespace Value

/-- The values of a sequence whose last value is a list, with the elements of that list for it. -/
def splice (vs : List Value) : List Value :=
  match vs.getLast? with
  | some (.list ws) => vs.dropLast ++ ws
  | _ => vs

theorem splice_append (vs ws : List Value) : splice (vs ++ [.list ws]) = vs ++ ws := by
  simp [splice]

def spliced : Value → Value
  | .list vs => .list (splice vs)
  | v => v

/-- An element and rounds of a separator and an element, as the list of the elements. -/
def unseparated : Value → Value
  | .list [v, .list rounds] => .list (v :: rounds.map (pick 1))
  | v => v

/-- The list that may be there, which is empty if it is not. -/
def orEmpty : Value → Value
  | .present v => v
  | _ => .list []

end Value

namespace Walk

variable {σ α β : Type}

theorem inTurn_concat (ws : List (Walk σ α)) (w : Walk σ α) (c : Context σ) :
    inTurn (ws ++ [w]) c = (inTurn ws c).bind fun
      | (.failure f, c') => some (.failure f, c')
      | (.success vs, c') => (w c').map fun x => (x.1.map (vs ++ [·]), x.2) := by
  rw [inTurn_append]
  refine bind_ext fun o c₁ => ?_
  cases o with
  | failure f => rfl
  | success vs =>
    simp only [inTurn, Option.bind_eq_bind, Option.bind_some, Option.map_eq_bind, Option.bind_assoc]
    refine bind_ext fun o c₂ => ?_
    cases o <;> rfl

namespace Repetition

/-! ## Elements without separators -/

/-- A repetition of a walk with nothing in between. -/
def plain (w : Walk σ α) (least : Nat) : Repetition σ α α α := ⟨w, least, none, none⟩

variable {w : Walk σ α}

/-- A round in which the element moves if it succeeds. -/
theorem rounds_plain {least start fuel rewind : Nat} {values : Array α} {c : Context σ}
    (hmoves : ∀ v c', w c = some (.success v, c') → c'.cursor ≠ c.cursor) :
    (plain w least).rounds start (fuel + 1) rewind values c =
      if c.isExhausted && least ≤ values.size then
        some (.success values.toList, c.restore rewind)
      else (w c).bind fun
        | (.failure f, c') =>
          if values.size < least then some (.failure f, c'.restore start)
          else some (.success values.toList, c'.restore rewind)
        | (.success v, c') =>
          (plain w least).rounds start fuel c'.cursor (values.push v) c' := by
  rw [rounds]
  simp only [plain, stopsAt, separates, Option.bind_eq_bind, Option.bind_some, Bool.false_eq_true,
    if_false, Bool.not_true]
  congr 1
  cases h : w c with
  | none => rfl
  | some x =>
    obtain ⟨o, c'⟩ := x
    cases o with
    | failure f => rfl
    | success v =>
      simp only [Option.bind_some]
      rw [if_neg (hmoves v c' h)]

/-- Rounds with elements enough go on with any elements in front as without them. -/
theorem rounds_append (hw : ∀ ⦃c v c'⦄, w c = some (.success v, c') → c.cursor < c'.cursor)
    {least start start' : Nat} {before : Array α} (hleast : least ≤ before.size) :
    ∀ {fuel rewind values c},
      (plain w least).rounds start fuel rewind (before ++ values) c
        = ((plain w 0).rounds start' fuel rewind values c).map fun x =>
            (x.1.map (before.toList ++ ·), x.2)
  | 0, _, _, _ => rfl
  | fuel + 1, rewind, values, c => by
    have hmoves : ∀ v c', w c = some (.success v, c') → c'.cursor ≠ c.cursor :=
      fun v c' h => Nat.ne_of_gt (hw h)
    have henough : least ≤ (before ++ values).size := by
      rw [Array.size_append]
      omega
    rw [rounds_plain hmoves, rounds_plain hmoves]
    simp only [henough, Nat.zero_le, decide_true, Bool.and_true]
    split
    · simp [Outcome.map]
    · cases h : w c with
      | none => rfl
      | some x =>
        obtain ⟨o, c'⟩ := x
        cases o with
        | failure f =>
          simp only [Option.bind_some, if_neg (Nat.not_lt.mpr henough), if_neg (Nat.not_lt_zero _)]
          simp [Outcome.map]
        | success v =>
          simp only [Option.bind_some]
          rw [← Array.append_push]
          exact rounds_append hw hleast

/-- Rounds that still need elements are runs of the element, and then the rounds of a repetition
that needs none. -/
theorem rounds_eq_inTurn (hw : ∀ ⦃c v c'⦄, w c = some (.success v, c') → c.cursor < c'.cursor)
    {least start fuel : Nat} : ∀ {needed : Nat} {values : Array α} {c : Context σ},
      values.size + needed = least →
      (plain w least).rounds start (needed + fuel) c.cursor values c
        = (inTurn (List.replicate needed w) c).bind fun
            | (.failure f, c') => some (.failure f, c'.restore start)
            | (.success vs, c') =>
              (repetition (plain w 0) fuel c').map fun x =>
                (x.1.map (values.toList ++ vs ++ ·), x.2)
  | 0, values, c, hsize => by
    have hrest : (plain w least).rounds start fuel c.cursor (values ++ #[]) c
        = (repetition (plain w 0) fuel c).map fun x =>
            (x.1.map (values.toList ++ ·), x.2) := rounds_append hw (Nat.le_of_eq hsize.symm)
    simpa [inTurn] using hrest
  | needed + 1, values, c, hsize => by
    have hshort : values.size < least := by omega
    have hmoves : ∀ v c', w c = some (.success v, c') → c'.cursor ≠ c.cursor :=
      fun v c' h => Nat.ne_of_gt (hw h)
    rw [show needed + 1 + fuel = needed + fuel + 1 by omega, rounds_plain hmoves]
    simp only [Nat.not_le.mpr hshort, decide_false, Bool.and_false, Bool.false_eq_true, if_false,
      hshort, if_true, List.replicate_succ, inTurn, Option.bind_eq_bind, Option.bind_assoc]
    refine bind_ext fun o c₁ => ?_
    cases o with
    | failure f => rfl
    | success v =>
      have hpush : (values.push v).size + needed = least := by
        rw [Array.size_push]
        omega
      simp only [rounds_eq_inTurn hw hpush, Option.bind_assoc]
      refine bind_ext fun o c₂ => ?_
      cases o with
      | failure f => rfl
      | success vs => simp [Outcome.map]

/-- A repetition that needs no element does not fail, if its elements move. -/
theorem rounds_plain_zero (hw : ∀ ⦃c v c'⦄, w c = some (.success v, c') → c.cursor < c'.cursor)
    {start : Nat} : ∀ {fuel rewind values c o c'},
      (plain w 0).rounds start fuel rewind values c = some (o, c') →
      ∃ vs, o = .success vs
  | 0, _, _, _, _, _, h => by cases h
  | fuel + 1, rewind, values, c, o, c', h => by
    rw [rounds_plain fun v c' h => Nat.ne_of_gt (hw h)] at h
    split at h
    · cases h
      exact ⟨_, rfl⟩
    · obtain ⟨⟨o₁, c₁⟩, h₁, h⟩ := Option.bind_eq_some_iff.mp h
      cases o₁ with
      | failure f =>
        cases h
        exact ⟨_, rfl⟩
      | success v => exact rounds_plain_zero hw h

/-- A repetition that needs elements is the sequence that it stands for, if `splice` opens the list
at the end of its values. -/
theorem repetition_eq_sequence
    (hw : ∀ ⦃c v c'⦄, w c = some (.success v, c') → c.cursor < c'.cursor)
    {enclose : List α → α} {splice : List α → List α}
    (hsplice : ∀ vs ws, splice (vs ++ [enclose ws]) = vs ++ ws) (least fuel : Nat) :
    repetition (plain w least) (least + fuel)
      = (sequence (List.replicate least w
          ++ [(repetition (plain w 0) fuel).map enclose])).map splice := by
  funext c
  have hsize : (#[] : Array α).size + least = least := Nat.zero_add least
  rw [repetition, rounds_eq_inTurn hw hsize, Walk.map, sequence, inTurn_concat]
  simp only [Option.bind_eq_bind, Option.bind_assoc, Option.map_bind]
  refine bind_ext fun o c₁ => ?_
  cases o with
  | failure f => rfl
  | success vs =>
    simp only [Function.comp_apply, Walk.map]
    cases h : repetition (plain w 0) fuel c₁ with
    | none => rfl
    | some x =>
      obtain ⟨o, c₂⟩ := x
      obtain ⟨us, rfl⟩ := rounds_plain_zero hw h
      simp [Outcome.map, hsplice]

/-! ## Elements with separators -/

/-- A repetition of a walk with another one in between. -/
def separated (w s : Walk σ α) (least : Nat) : Repetition σ α α α := ⟨w, least, some s, none⟩

/-- A separator and the element behind it, as one value. -/
def pair (enclose : List α → α) (w s : Walk σ α) : Walk σ α := (sequence [s, w]).map enclose

theorem pair_of_success {enclose : List α → α} {w s : Walk σ α} {c c₁ c₂ : Context σ} {u v : α}
    (hs : s c = some (.success u, c₁)) (hw : w c₁ = some (.success v, c₂)) :
    pair enclose w s c = some (.success (enclose [u, v]), c₂) := by
  simp [pair, Walk.map, sequence, inTurn, hs, hw, Outcome.map]

theorem success_of_pair {enclose : List α → α} {w s : Walk σ α} {c c₂ : Context σ} {x : α}
    (h : pair enclose w s c = some (.success x, c₂)) :
    ∃ u v c₁, s c = some (.success u, c₁) ∧ w c₁ = some (.success v, c₂) := by
  obtain ⟨⟨o, c'⟩, h, he⟩ := Option.map_eq_some_iff.mp h
  cases o with
  | failure f => cases he
  | success vs =>
    cases he
    obtain ⟨u, c₁, _, hs, h, _⟩ := inTurn_cons (sequence_inTurn h)
    obtain ⟨v, c₂, _, hw, h, _⟩ := inTurn_cons h
    cases h
    exact ⟨u, v, c₁, hs, hw⟩

/-- There is no separator at the context with an element behind it. -/
def NoPair (w s : Walk σ α) (c : Context σ) : Prop :=
  ∀ ⦃u v c₁ c₂⦄, s c = some (.success u, c₁) → w c₁ ≠ some (.success v, c₂)

/-- How a list goes on behind an element: it is over if the separator fails there, and else there is
another round. -/
inductive GoesOn (w s : Walk σ α) (least start fuel : Nat) (values : Array α) (c : Context σ) :
    Outcome (List α) → Context σ → Prop
  | last {f : Failure} {c₁ : Context σ} : s c = some (.failure f, c₁) →
      GoesOn w s least start fuel values c (.success values.toList) (c₁.restore c.cursor)
  | round {u : α} {c₁ c' : Context σ} {o : Outcome (List α)} : s c = some (.success u, c₁) →
      (separated w s least).rounds start fuel c.cursor values c₁ = some (o, c') →
      GoesOn w s least start fuel values c o c'

theorem separates_separated {w s : Walk σ α} {least : Nat} {c c' : Context σ} {b : Bool}
    (h : (separated w s least).separates c = some (b, c')) :
    ∃ o, s c = some (o, c') ∧ o.isSuccess = b := by
  obtain ⟨⟨o, c₁⟩, h₁, h⟩ := Option.bind_eq_some_iff.mp h
  cases h
  exact ⟨o, h₁, rfl⟩

end Repetition

open Repetition

/-- A context within the chunks whose skip rule is one of `S`. -/
abbrev Inside (S : σ → Prop) (c : Context σ) : Prop := Area (fun s => ∀ g ∈ s.skip, S g) c

/-- What is asked of the element `w` and the separator `s` of a list: they do not lead out of the
chunks, the element moves on, and the separator does not move back. -/
structure Listable (S : σ → Prop) (w s : Walk σ α) : Prop where
  element : Proper S w
  separator : Proper S s
  gains : ∀ ⦃c v c'⦄, w c = some (.success v, c') → c.cursor < c'.cursor
  onward : Travels S Onward s

namespace Listable

variable {S : σ → Prop} {w s : Walk σ α} (hw : Listable S w s)

include hw

theorem inside_element {c c' : Context σ} {o : Outcome α} (hc : Inside S c)
    (h : w c = some (o, c')) : Inside S c' := (hw.element.area (fun _ hs => hs) hc h).2

theorem inside_separator {c c' : Context σ} {o : Outcome α} (hc : Inside S c)
    (h : s c = some (o, c')) : Inside S c' := (hw.separator.area (fun _ hs => hs) hc h).2

/-- No element is found at the end. -/
theorem isExhausted_eq_false {c c' : Context σ} {v : α} (hc : Inside S c)
    (h : w c = some (.success v, c')) : c.isExhausted = false := by
  have hgains := hw.gains h
  have hinside := hw.element.inward hc.setting h hc.inside
  refine decide_eq_false ?_
  omega

/-- An element, a separator and what comes behind lie further and further on. -/
theorem lt_of_pair {c c₁ c₂ : Context σ} {u v : α} (hc : Inside S c)
    (hs : s c = some (.success u, c₁)) (h : w c₁ = some (.success v, c₂)) :
    c.isExhausted = false ∧ c.cursor < c₂.cursor := by
  have honward : c.cursor ≤ c₁.cursor := hw.onward hc.setting hs
  have hgains := hw.gains h
  have hinside := hw.element.inward (hw.inside_separator hc hs).setting h
    (hw.inside_separator hc hs).inside
  have hchunks := Context.chunks_eq (hw.separator.tidy hc.setting hs).setting
  rw [hchunks] at hinside
  refine ⟨decide_eq_false ?_, by omega⟩
  omega

/-- What a round of a list comes to: its element fails, or the list goes on behind it. -/
theorem rounds_cases {least start fuel rewind : Nat} {values : Array α} {c c' : Context σ}
    {o : Outcome (List α)} (hc : Inside S c)
    (hspent : ¬ (separated w s least).IsSpent values c)
    (h : (separated w s least).rounds start (fuel + 1) rewind values c = some (o, c')) :
    (∃ f c₁, w c = some (.failure f, c₁) ∧
      (values.size < least → o = .failure f ∧ c' = c₁.restore start) ∧
      (least ≤ values.size → o = .success values.toList ∧ c' = c₁.restore rewind)) ∨
    ∃ v c₁, w c = some (.success v, c₁) ∧ GoesOn w s least start fuel (values.push v) c₁ o c' := by
  rcases Repetition.rounds_cases h with hleaves | ⟨v, c₁, c₂, c₃, hgo, h⟩
  · cases hleaves with
    | exhausted he hleast => exact absurd ⟨he, hleast⟩ hspent
    | stopped h₁ _ => cases h₁
    | stoppedShort h₁ _ => cases h₁
    | missed h₁ h₂ hleast =>
      cases h₁
      exact .inl ⟨_, _, h₂, fun hlt => absurd hleast (Nat.not_le.mpr hlt), fun _ => ⟨rfl, rfl⟩⟩
    | missedShort h₁ h₂ hlt =>
      cases h₁
      exact .inl ⟨_, _, h₂, fun _ => ⟨rfl, rfl⟩, fun hleast => absurd hleast (Nat.not_le.mpr hlt)⟩
    | last h₁ h₂ h₃ =>
      cases h₁
      obtain ⟨o, hs, ho⟩ := separates_separated h₃
      cases o with
      | success u => cases ho
      | failure f => exact .inr ⟨_, _, h₂, .last hs⟩
    | stuck h₁ h₂ h₃ hcursor =>
      -- the element has moved on, and the separator does not take that back
      cases h₁
      obtain ⟨o, hs, ho⟩ := separates_separated h₃
      have hgains := hw.gains h₂
      have honward : _ ≤ _ := hw.onward (hw.inside_element hc h₂).setting hs
      omega
  · obtain ⟨h₁, h₂, h₃, _⟩ := hgo
    cases h₁
    obtain ⟨o, hs, ho⟩ := separates_separated h₃
    cases o with
    | failure f => cases ho
    | success u => exact .inr ⟨v, c₂, h₂, .round hs h⟩

/-- A list that goes on finds a pair, or it is over and there is none. -/
theorem goesOn_cases {least start fuel : Nat} {values : Array α} {c c' : Context σ}
    {o : Outcome (List α)} (hc : Inside S c) (hleast : least ≤ values.size)
    (h : GoesOn w s least start fuel values c o c') :
    (NoPair w s c ∧ o = .success values.toList ∧ c'.cursor = c.cursor) ∨
    ∃ n u v c₁ c₂, fuel = n + 1 ∧ s c = some (.success u, c₁) ∧ w c₁ = some (.success v, c₂) ∧
      GoesOn w s least start n (values.push v) c₂ o c' := by
  cases h with
  | last hs =>
    refine .inl ⟨fun u v c₁ c₂ hs' => ?_, rfl, Context.cursor_restore ..⟩
    cases hs.symm.trans hs'
  | @round u c₁ _ _ hs hround =>
    have hc₁ := hw.inside_separator hc hs
    rcases fuel with _ | fuel
    · cases hround
    by_cases hspent : (separated w s least).IsSpent values c₁
    · cases (rounds_of_isSpent hspent).symm.trans hround
      refine .inl ⟨fun u v d c₂ hs' hv => ?_, rfl, Context.cursor_restore ..⟩
      cases hs.symm.trans hs'
      exact absurd hspent.1 (Bool.eq_false_iff.mp (hw.isExhausted_eq_false hc₁ hv))
    · rcases hw.rounds_cases hc₁ hspent hround with ⟨f, c₂, hf, _, hends⟩ | ⟨v, c₂, hv, hgo⟩
      · obtain ⟨rfl, rfl⟩ := hends hleast
        refine .inl ⟨fun u v d c₂ hs' hv => ?_, rfl, Context.cursor_restore ..⟩
        cases hs.symm.trans hs'
        cases hf.symm.trans hv
      · exact .inr ⟨fuel, u, v, c₁, c₂, rfl, hs, hv, hgo⟩

omit hw in
/-- Rounds of pairs are over where there is no pair. -/
theorem pairs_over {enclose : List α → α} {start fuel : Nat} {pairs : Array α} {c c' : Context σ}
    {o : Outcome (List α)} (hnone : NoPair w s c)
    (h : (plain (pair enclose w s) 0).rounds start fuel c.cursor pairs c = some (o, c')) :
    o = .success pairs.toList ∧ c'.cursor = c.cursor := by
  have hpair : ∀ x c₂, pair enclose w s c ≠ some (.success x, c₂) := by
    intro x c₂ h
    obtain ⟨u, v, c₁, hs, hv⟩ := success_of_pair h
    exact hnone hs hv
  rcases fuel with _ | fuel
  · cases h
  rw [rounds_plain fun x c₂ h => absurd h (hpair x c₂)] at h
  split at h
  · cases h
    exact ⟨rfl, Context.cursor_restore ..⟩
  · obtain ⟨⟨o₁, c₁⟩, h₁, h⟩ := Option.bind_eq_some_iff.mp h
    cases o₁ with
    | success x => exact absurd h₁ (hpair x c₁)
    | failure f =>
      cases h
      exact ⟨rfl, Context.cursor_restore ..⟩

/-- Rounds of pairs take a pair that there is. -/
theorem pairs_round {enclose : List α → α} {start fuel : Nat} {pairs : Array α}
    {c c₁ c₂ : Context σ} {u v : α} (hc : Inside S c) (hs : s c = some (.success u, c₁))
    (hv : w c₁ = some (.success v, c₂)) :
    (plain (pair enclose w s) 0).rounds start (fuel + 1) c.cursor pairs c
      = (plain (pair enclose w s) 0).rounds start fuel c₂.cursor (pairs.push (enclose [u, v]))
          c₂ := by
  have hpair : pair enclose w s c = some (.success (enclose [u, v]), c₂) := pair_of_success hs hv
  obtain ⟨hmore, hlt⟩ := hw.lt_of_pair hc hs hv
  have hmoves : ∀ x c', pair enclose w s c = some (.success x, c') → c'.cursor ≠ c.cursor := by
    intro x c' h
    cases hpair.symm.trans h
    exact Nat.ne_of_gt hlt
  rw [rounds_plain hmoves, hpair, hmore]
  rfl

/-- Behind an element, a list and rounds of pairs find the same elements and end at one place. -/
theorem goesOn_eq_pairs {enclose : List α → α} {least start start' : Nat} :
    ∀ {fuel fuel' : Nat} {values pairs : Array α} {c c₁ c₂ : Context σ}
      {o₁ o₂ : Outcome (List α)}, Inside S c → least ≤ values.size →
      GoesOn w s least start fuel values c o₁ c₁ →
      (plain (pair enclose w s) 0).rounds start' fuel' c.cursor pairs c = some (o₂, c₂) →
      ∃ found : List (α × α), o₁ = .success (values.toList ++ found.map Prod.snd) ∧
        o₂ = .success (pairs.toList ++ found.map fun x => enclose [x.1, x.2]) ∧
        c₁.cursor = c₂.cursor
  | _, 0, _, _, _, _, _, _, _, _, _, _, hpairs => by cases hpairs
  | fuel, fuel' + 1, values, pairs, c, c₁, c₂, o₁, o₂, hc, hleast, hgo, hpairs => by
    rcases hw.goesOn_cases hc hleast hgo with
      ⟨hnone, rfl, hcursor⟩ | ⟨n, u, v, d₁, d₂, _, hs, hv, hgo⟩
    · obtain ⟨rfl, hcursor'⟩ := pairs_over hnone hpairs
      exact ⟨[], by simp, by simp, hcursor.trans hcursor'.symm⟩
    · rw [hw.pairs_round hc hs hv] at hpairs
      have hd₂ := hw.inside_element (hw.inside_separator hc hs) hv
      obtain ⟨found, ho₁, ho₂, hcursor⟩ :=
        goesOn_eq_pairs hd₂ (by rw [Array.size_push]; omega) hgo hpairs
      exact ⟨(u, v) :: found, by simpa using ho₁, by simpa using ho₂, hcursor⟩

/-- A list that needs one element at most, and the list written out. -/
theorem repetition_eq_pairs {enclose : List α → α} {least fuel fuel' : Nat} (hleast : least ≤ 1)
    {c c₁ c₂ : Context σ} {o₁ o₂ : Outcome (List α)} (hc : Inside S c)
    (h₁ : repetition (separated w s least) fuel c = some (o₁, c₁))
    (h₂ : sequence [w, (repetition (plain (pair enclose w s) 0) fuel').map enclose] c
      = some (o₂, c₂)) :
    (∃ f, o₁ = (if least = 0 then .success [] else .failure f) ∧ o₂ = .failure f ∧
      c₁.cursor = c.cursor ∧ c₂.cursor = c.cursor) ∨
    ∃ (v : α) (found : List (α × α)), o₁ = .success (v :: found.map Prod.snd) ∧
      o₂ = .success [v, enclose (found.map fun x => enclose [x.1, x.2])] ∧
      c₁.cursor = c₂.cursor := by
  obtain ⟨⟨o, d⟩, hturn, h₂⟩ := Option.bind_eq_some_iff.mp h₂
  obtain ⟨⟨o', c'⟩, hfirst, hturn⟩ := Option.bind_eq_some_iff.mp hturn
  rcases fuel with _ | fuel
  · cases h₁
  cases o' with
  | failure f =>
    cases hturn
    cases h₂
    refine .inl ⟨f, ?_⟩
    by_cases hspent : (separated w s least).IsSpent #[] c
    · cases (rounds_of_isSpent hspent).symm.trans h₁
      exact ⟨(if_pos (Nat.le_zero.mp hspent.2)).symm, rfl, by simp, by simp⟩
    · rcases hw.rounds_cases hc hspent h₁ with ⟨f', d, hf, hshort, henough⟩ | ⟨v, d, hv, _⟩
      · cases hfirst.symm.trans hf
        by_cases hzero : least = 0
        · obtain ⟨rfl, rfl⟩ := henough (Nat.le_of_eq hzero)
          exact ⟨(if_pos hzero).symm, rfl, by simp, by simp⟩
        · obtain ⟨rfl, rfl⟩ := hshort (Nat.pos_of_ne_zero hzero)
          exact ⟨(if_neg hzero).symm, rfl, by simp, by simp⟩
      · cases hfirst.symm.trans hv
  | success v =>
    have hspent : ¬ (separated w s least).IsSpent #[] c := fun hspent =>
      Bool.eq_false_iff.mp (hw.isExhausted_eq_false hc hfirst) hspent.1
    rcases hw.rounds_cases hc hspent h₁ with ⟨f, d, hf, _⟩ | ⟨v', d', hv, hgo⟩
    · cases hfirst.symm.trans hf
    cases hfirst.symm.trans hv
    have hc' := hw.inside_element hc hfirst
    obtain ⟨⟨o₃, d₃⟩, hlast, hturn⟩ := Option.bind_eq_some_iff.mp hturn
    obtain ⟨⟨o₄, d₄⟩, hmap, hlast⟩ := Option.bind_eq_some_iff.mp hlast
    obtain ⟨⟨o₅, d₅⟩, hpairs, he⟩ := Option.map_eq_some_iff.mp hmap
    obtain ⟨found, rfl, rfl, hcursor⟩ := hw.goesOn_eq_pairs hc' (by simpa using hleast) hgo hpairs
    cases he
    cases hlast
    cases hturn
    cases h₂
    exact .inr ⟨v, found, by simp, by simp, hcursor⟩

end Listable

theorem sequence_replicate_le {w w' z z' : Walk σ α} (hw : Le w w') (hz : Le z z') (n : Nat) :
    Le (sequence (List.replicate n w ++ [z])) (sequence (List.replicate n w' ++ [z'])) := by
  have hle : Le (sequence ((List.replicate n (w, w') ++ [(z, z')]).map Prod.fst))
      (sequence ((List.replicate n (w, w') ++ [(z, z')]).map Prod.snd)) := by
    refine sequence_le fun x hx => ?_
    rcases List.mem_append.mp hx with hx | hx
    · rw [List.eq_of_mem_replicate hx]
      exact hw
    · rw [List.mem_singleton.mp hx]
      exact hz
  simpa using hle

end Walk

namespace Grammar

open Walk.Repetition

variable {rules : RuleTable} {g s : LinkedGrammar}

/-- Wherever the grammar matches, it has moved forward. -/
def Advances (rules : RuleTable) (g : LinkedGrammar) : Prop :=
  ∀ ⦃c v c'⦄, Yields rules g c (.success v) c' → c.cursor < c'.cursor

/-- A chunk that is matched is taken, whatever is skipped in front of it. -/
theorem consume_advances (rules : RuleTable) {t : Token} (ht : t.isEof = false) :
    Advances rules (.consume t) := by
  rintro c v c' ⟨_ | m, h⟩
  · cases h
  have hgains : Walk.Gains (fun _ => True) (run rules (m + 1) (.consume t)) :=
    (Walk.consume_gains ht Walk.lt_of_trySkip).map _
  exact hgains (fun _ _ => trivial) h

/-- A repetition that needs elements, and its element so many times and then a repetition that needs
none. -/
theorem repeated_iff_sequence (hg : Advances rules g) (n : Nat) (c : Context LinkedGrammar)
    (o : Outcome Value) (c' : Context LinkedGrammar) :
    Yields rules (.repeated g n none none) c o c' ↔
      ∃ o', Yields rules (.sequence (List.replicate n g ++ [zeroOrMore g])) c o' c' ∧
        o = o'.map .spliced := by
  have hunroll : ∀ m, Walk.repetition (plain (run rules m g) n) (n + m)
      = (Walk.sequence (List.replicate n (run rules m g)
          ++ [run rules (m + 1) (zeroOrMore g)])).map Value.splice := fun m =>
    repetition_eq_sequence (fun c v c' h => hg ⟨m, h⟩) Value.splice_append n m
  have hvalue : ∀ o : Outcome (List Value),
      (o.map Value.splice).map Value.list = (o.map Value.list).map Value.spliced := by
    rintro (vs | f) <;> rfl
  constructor
  · rintro ⟨_ | m, h⟩
    · cases h
    obtain ⟨⟨o₁, c₁⟩, h, he⟩ := Option.map_eq_some_iff.mp h
    cases he
    have h : Walk.repetition (plain (run rules m g) n) (n + m) c = some (o₁, c') :=
      Walk.repetition_le ⟨fun _ _ h => h, rfl, fun h => h, fun h => h⟩ (Nat.le_add_left m n) h
    rw [hunroll m] at h
    obtain ⟨⟨o₂, c₂⟩, h, he⟩ := Option.map_eq_some_iff.mp h
    cases he
    refine ⟨o₂.map .list, ⟨m + 2, ?_⟩, hvalue o₂⟩
    have h := Walk.sequence_replicate_le (run_le (Nat.le_succ m) g) (fun _ _ h => h) n h
    rw [run, step]
    simp [Walk.map, h]
  · rintro ⟨o', ⟨_ | m, h⟩, rfl⟩
    · cases h
    obtain ⟨⟨o₂, c₂⟩, h, he⟩ := Option.map_eq_some_iff.mp h
    cases he
    rw [List.map_append, List.map_replicate, List.map_singleton] at h
    have h := Walk.sequence_replicate_le (fun _ _ h => h) (run_le (Nat.le_succ m) _) n h
    rw [← hvalue]
    refine Yields.repeated (m := m) (n := n + m) ?_
    show Walk.repetition (plain (run rules m g) n) (n + m) c = _
    rw [hunroll m]
    simp [Walk.map, h]

/-- The rounds of pairs, given by the walks of the element and the separator. -/
theorem run_pairs_le (rules : RuleTable) (g s : LinkedGrammar) (m : Nat) :
    Walk.Le (run rules m (zeroOrMore (.sequence [s, g])))
      ((Walk.repetition (plain (pair .list (run rules m g) (run rules m s)) 0) m).map .list) := by
  have hpair : Walk.Le (run rules m (.sequence [s, g])) (run rules (m + 1) (.sequence [s, g])) :=
    run_le (Nat.le_succ m) _
  have hrounds : (plain (run rules m (.sequence [s, g])) 0).Le
      (plain (pair .list (run rules m g) (run rules m s)) 0) :=
    ⟨hpair, rfl, fun h => h, fun h => h⟩
  intro c x h
  exact (Walk.repetition_le hrounds (Nat.le_refl m)).map _ (run_le (Nat.le_succ m) _ h)

theorem listable (hrules : ∀ g ∈ rules, g.isBuiltIn = true) (hg : g.isBuiltIn = true)
    (hs : s.isBuiltIn = true) (hadvances : Advances rules g)
    (hbehind : ∀ h, Reaches rules s h → h.isBehind = false) (m : Nat) :
    Walk.Listable (·.isBuiltIn = true) (run rules m g) (run rules m s) where
  element := run_proper hrules hg
  separator := run_proper hrules hs
  gains := fun _ _ _ h => hadvances ⟨m, h⟩
  onward := run_onward hrules hs hbehind

/-- A list that needs one element at most, and an element followed by rounds of pairs. -/
theorem separated_yields (hrules : ∀ g ∈ rules, g.isBuiltIn = true) (hg : g.isBuiltIn = true)
    (hs : s.isBuiltIn = true) (hadvances : Advances rules g)
    (hbehind : ∀ h, Reaches rules s h → h.isBehind = false) {c c₁ c₂ : Context LinkedGrammar}
    (hc : c.cursor ≤ c.chunks.size) (hskip : ∀ skip ∈ c.skip, skip.isBuiltIn = true) {least : Nat}
    (hleast : least ≤ 1) {o₁ o₂ : Outcome Value}
    (h₁ : Yields rules (.repeated g least (some s) none) c o₁ c₁)
    (h₂ : Yields rules (.sequence [g, zeroOrMore (.sequence [s, g])]) c o₂ c₂) :
    (∃ f, o₁ = (if least = 0 then .success (.list []) else .failure f) ∧ o₂ = .failure f ∧
      c₁.cursor = c.cursor ∧ c₂.cursor = c.cursor) ∨
    ∃ (v : Value) (found : List (Value × Value)), o₁ = .success (.list (v :: found.map Prod.snd)) ∧
      o₂ = .success (.list [v, .list (found.map fun x => .list [x.1, x.2])]) ∧
      c₁.cursor = c₂.cursor := by
  obtain ⟨n₁, h₁⟩ := h₁.eventually
  obtain ⟨n₂, h₂⟩ := h₂.eventually
  have h₁ := h₁ (max n₁ n₂ + 1) (by omega)
  have h₂ := h₂ (max n₁ n₂ + 1) (by omega)
  obtain ⟨⟨o₁, c₁⟩, h₁, he₁⟩ := Option.map_eq_some_iff.mp h₁
  obtain ⟨⟨o₂, c₂⟩, h₂, he₂⟩ := Option.map_eq_some_iff.mp h₂
  cases he₁
  cases he₂
  have h₂ := Walk.sequence_replicate_le (fun _ _ h => h) (run_pairs_le rules g s _) 1 h₂
  rcases (listable hrules hg hs hadvances hbehind _).repetition_eq_pairs hleast ⟨hskip, hc⟩ h₁ h₂
    with ⟨f, rfl, rfl, hcursor₁, hcursor₂⟩ | ⟨v, found, rfl, rfl, hcursor⟩
  · refine .inl ⟨f, ?_, rfl, hcursor₁, hcursor₂⟩
    split <;> rfl
  · exact .inr ⟨v, found, rfl, rfl, hcursor⟩

theorem Yields.of_optional {g : LinkedGrammar} {c c' : Context LinkedGrammar} {o : Outcome Value}
    (h : Yields rules (.optional g) c o c') :
    (∃ v, Yields rules g c (.success v) c' ∧ o = .success (.present v)) ∨
    ∃ f c₁, Yields rules g c (.failure f) c₁ ∧ o = .success .null ∧ c' = c₁.restore c.cursor := by
  obtain ⟨_ | m, h⟩ := h
  · cases h
  obtain ⟨⟨o₁, c₁⟩, h₁, he⟩ := Option.map_eq_some_iff.mp h
  cases he
  obtain ⟨⟨o₂, c₂⟩, h₂, h⟩ := Option.bind_eq_some_iff.mp h₁
  cases o₂ with
  | success v =>
    cases h
    exact .inl ⟨v, ⟨m, h₂⟩, rfl⟩
  | failure f =>
    cases h
    exact .inr ⟨f, c₂, ⟨m, h₂⟩, rfl, rfl⟩

/-- Under a limit, a grammar ends that looks behind only right under a lookahead. -/
theorem yields_of_limit (hrules : ∀ h ∈ rules, h.isForward = true) (hg : g.isForward = true)
    {c : Context LinkedGrammar} (hskip : ∀ skip ∈ c.skip, skip.isForward = true)
    (hlimit : c.recursionLimit.isSome = true) : ∃ o c', Yields rules g c o c' := by
  obtain ⟨limit, hlimit⟩ := Option.isSome_iff_exists.mp hlimit
  obtain ⟨⟨o, c'⟩, h⟩ := parse_isSome hrules hg hskip hlimit
  exact ⟨o, c', _, h⟩

/-- **Repetitions are what they stand for when written out.** Let `g` move forward wherever it
matches. A repetition that needs `n` times `g` comes to what `n` times `g` and then a repetition
that needs none come to, and leaves the same context; the values of the latter come in one list. A
list of `g` with separators `s`, both made of what is built in, where `s` does not look behind in
the open, has the outcome of one `g` and then rounds of `s` and `g`, without the values of `s`, and
ends at the same place; if it may be empty, it is that or else nothing. Under a recursion limit both
forms of a list come to an end. -/
theorem repetitions_unroll (rules : RuleTable) {g : LinkedGrammar} (hg : Advances rules g) :
    (∀ (n : Nat) (c : Context LinkedGrammar) (o : Outcome Value) (c' : Context LinkedGrammar),
      Yields rules (.repeated g n none none) c o c' ↔
        ∃ o', Yields rules (.sequence (List.replicate n g ++ [zeroOrMore g])) c o' c' ∧
          o = o'.map .spliced) ∧
    (∀ s : LinkedGrammar, (∀ h ∈ rules, h.isBuiltIn = true) → g.isBuiltIn = true →
      s.isBuiltIn = true → (∀ h, Reaches rules s h → h.isBehind = false) →
      ∀ c : Context LinkedGrammar, c.cursor ≤ c.chunks.size →
        (∀ skip ∈ c.skip, skip.isBuiltIn = true) →
        ∀ (o₁ o₂ : Outcome Value) (c₁ c₂ : Context LinkedGrammar),
          (Yields rules (oneOrMoreSeparated g s) c o₁ c₁ →
            Yields rules (.sequence [g, zeroOrMore (.sequence [s, g])]) c o₂ c₂ →
            o₁ = o₂.map .unseparated ∧ c₁.cursor = c₂.cursor) ∧
          (Yields rules (zeroOrMoreSeparated g s) c o₁ c₁ →
            Yields rules (.optional (.sequence [g, zeroOrMore (.sequence [s, g])])) c o₂ c₂ →
            o₁ = o₂.map (fun v => v.orEmpty.unseparated) ∧ c₁.cursor = c₂.cursor)) ∧
    ∀ s : LinkedGrammar, (∀ h ∈ rules, h.isForward = true) → g.isForward = true →
      s.isForward = true → ∀ c : Context LinkedGrammar,
        (∀ skip ∈ c.skip, skip.isForward = true) → c.recursionLimit.isSome = true →
        ∀ form ∈ [oneOrMoreSeparated g s, .sequence [g, zeroOrMore (.sequence [s, g])],
          zeroOrMoreSeparated g s, .optional (.sequence [g, zeroOrMore (.sequence [s, g])])],
        ∃ o c', Yields rules form c o c' := by
  refine ⟨repeated_iff_sequence hg, ?_, ?_⟩
  · intro s hrules hbuiltIn hs hbehind c hc hskip o₁ o₂ c₁ c₂
    constructor
    · intro h₁ h₂
      rcases separated_yields hrules hbuiltIn hs hg hbehind hc hskip (Nat.le_refl 1) h₁ h₂ with
        ⟨f, rfl, rfl, hcursor₁, hcursor₂⟩ | ⟨v, found, rfl, rfl, hcursor⟩
      · exact ⟨rfl, hcursor₁.trans hcursor₂.symm⟩
      · exact ⟨by simp [Outcome.map, Value.unseparated, Value.pick], hcursor⟩
    · intro h₁ h₂
      rcases h₂.of_optional with ⟨u, hseq, rfl⟩ | ⟨f, c₂, hseq, rfl, rfl⟩
      · rcases separated_yields hrules hbuiltIn hs hg hbehind hc hskip (Nat.zero_le 1) h₁ hseq with
          ⟨f, _, ho, _⟩ | ⟨v, found, rfl, ho, hcursor⟩
        · cases ho
        · cases ho
          exact ⟨by simp [Outcome.map, Value.unseparated, Value.orEmpty, Value.pick], hcursor⟩
      · rcases separated_yields hrules hbuiltIn hs hg hbehind hc hskip (Nat.zero_le 1) h₁ hseq with
          ⟨f, rfl, _, hcursor₁, _⟩ | ⟨v, found, _, ho, _⟩
        · exact ⟨rfl, by rw [hcursor₁, Context.cursor_restore]⟩
        · cases ho
  · intro s hrules hforward hs c hskip hlimit form hform
    refine yields_of_limit hrules ?_ hskip hlimit
    have hlist : ∀ least, (Grammar.repeated g least (some s) none).isForward = true :=
      fun least => isForward_of_parts rfl rfl (by simp [parts, hforward, hs])
    have hpair : (Grammar.sequence [s, g]).isForward = true :=
      isForward_of_parts rfl rfl (by simp [parts, hforward, hs])
    have hrounds : (zeroOrMore (Grammar.sequence [s, g])).isForward = true :=
      isForward_of_parts rfl rfl (by simp [zeroOrMore, parts, hpair])
    have hsequence : (Grammar.sequence [g, zeroOrMore (.sequence [s, g])]).isForward = true :=
      isForward_of_parts rfl rfl (by simp [parts, hforward, hrounds])
    simp only [List.mem_cons, List.not_mem_nil, or_false] at hform
    rcases hform with rfl | rfl | rfl | rfl
    · exact hlist 1
    · exact hsequence
    · exact hlist 0
    · exact isForward_of_parts rfl rfl (by simp [parts, hsequence])

/-- Letters with commas in between, and a comma behind the last one. -/
theorem repetitions_unroll_commas :
    (∃ c', Yields #[] (.repeated (.consume (.literal 0 "a")) 1 none none)
      { chunks := ⟨#["a", ",", "", "a", ","]⟩ } (.success (.list [.text "a"])) c') ∧
    ∃ c₁ c₂,
      Yields #[] (oneOrMoreSeparated (.consume (.literal 0 "a")) (.consume (.literal 1 ",")))
        { chunks := ⟨#["a", ",", "", "a", ","]⟩ } (.success (.list [.text "a", .text "a"])) c₁ ∧
      Yields #[] (.sequence [.consume (.literal 0 "a"),
          zeroOrMore (.sequence [.consume (.literal 1 ","), .consume (.literal 0 "a")])])
        { chunks := ⟨#["a", ",", "", "a", ","]⟩ }
        (.success (.list [.text "a", .list [.list [.text ",", .text "a"]]])) c₂ ∧
      c₁.cursor = c₂.cursor := by
  obtain ⟨hneeded, hlist, _⟩ :=
    repetitions_unroll #[] (consume_advances #[] (t := .literal 0 "a") rfl)
  have hwritten : ∃ c', Yields #[]
      (.sequence [.consume (.literal 0 "a"), zeroOrMore (.consume (.literal 0 "a"))])
      { chunks := ⟨#["a", ",", "", "a", ","]⟩ } (.success (.list [.text "a", .list []])) c' :=
    ⟨_, 5, rfl⟩
  have hseparated : ∃ c₁,
      Yields #[] (oneOrMoreSeparated (.consume (.literal 0 "a")) (.consume (.literal 1 ",")))
        { chunks := ⟨#["a", ",", "", "a", ","]⟩ } (.success (.list [.text "a", .text "a"])) c₁ :=
    ⟨_, 5, rfl⟩
  have hpairs : ∃ c₂, Yields #[] (.sequence [.consume (.literal 0 "a"),
          zeroOrMore (.sequence [.consume (.literal 1 ","), .consume (.literal 0 "a")])])
        { chunks := ⟨#["a", ",", "", "a", ","]⟩ }
        (.success (.list [.text "a", .list [.list [.text ",", .text "a"]]])) c₂ := ⟨_, 8, rfl⟩
  have hbehind : ∀ h, Reaches #[] (.consume (.literal 1 ",")) h → h.isBehind = false := by
    intro h hreach
    cases hreach with
    | self => rfl
    | part hm _ => cases hm
  obtain ⟨c', hwritten⟩ := hwritten
  obtain ⟨c₁, hseparated⟩ := hseparated
  obtain ⟨c₂, hpairs⟩ := hpairs
  have hends := (hlist (.consume (.literal 1 ",")) (by simp) rfl rfl hbehind
    { chunks := ⟨#["a", ",", "", "a", ","]⟩ } (by decide) (by simp) _ _ c₁ c₂).1 hseparated hpairs
  exact ⟨⟨c', (hneeded 1 _ _ c').mpr ⟨_, hwritten, rfl⟩⟩, c₁, c₂, hseparated, hpairs, hends.2⟩

end Grammar

end Chunkwise
