import Chunkwise.Proofs.Mirroring
import Chunkwise.Proofs.Naming

/-! Empty chunks are of no account, except at the end of the input. Two cuts into the same
words, of which both or neither end with an empty chunk, make no difference to a parse. What is
left to be compared are repetitions: a round may move over empty chunks only, and then the
other cut may have none there. So one of the two repetitions is stuck in that round already and
the other one in a later round, but both with the same defect. -/

namespace Chunkwise

namespace Told

variable {σ α β γ : Type}

theorem bind_assoc (x : Told σ α) (f : α → Told σ β) (g : β → Told σ γ) :
    x >>= f >>= g = x >>= fun a => f a >>= g := by
  funext c
  cases h : (x c).ending with
  | none =>
    have hbind : ((x >>= f) c).ending = none := by rw [bind_of_none h]
    rw [bind_of_none hbind, bind_of_none h, bind_of_none h]
  | some z =>
    obtain ⟨a, d⟩ := z
    cases h' : (f a d).ending with
    | none =>
      have hbind : ((x >>= f) c).ending = none := by rw [bind_of_some h, h']
      rw [bind_of_none hbind, bind_of_some h, bind_of_some h, bind_of_none h']
    | some z =>
      have hbind : ((x >>= f) c).ending = some z := by rw [bind_of_some h, h']
      rw [bind_of_some hbind, bind_of_some h, bind_of_some h, bind_of_some h', List.append_assoc]

namespace Repetition

/-- What a round comes to before it is asked whether it moved and whether elements are missing:
the sign to stop is ahead, the element fails, or it is found. -/
inductive Attempt (α : Type) where
  | stopped (i : Nat)
  | missed (f : Failure)
  /-- From `round` the element led to `behind`, and what separates it from the next one, if
  anything does, to `next`. -/
  | found (round : Nat) (w : α) (behind : Nat) (more : Bool) (next : Nat)

def attempt (r : Repetition σ α β γ) : Told σ (Attempt α) := do
  let stops ← r.stopsAt
  let v ← look
  if stops then pure (.stopped v.cursor)
  else
    match ← r.element with
    | .failure f => pure (.missed f)
    | .success w => do
      let v₂ ← look
      let more ← r.separates
      let v₃ ← look
      pure (.found v.cursor w v₂.cursor more v₃.cursor)

/-- What follows from an attempt. -/
def conclude (r : Repetition σ α β γ) (start fuel rewind : Nat) (values : Array α) :
    Attempt α → Told σ (Outcome (List α))
  | .stopped i =>
    if values.size < r.least then do
      restore start
      fail i .unexpected
    else do
      restore rewind
      pure (.success values.toList)
  | .missed f =>
    if values.size < r.least then do
      restore start
      pure (.failure f)
    else do
      restore rewind
      pure (.success values.toList)
  | .found round w behind more next =>
    if !more then do
      restore behind
      pure (.success (values.push w).toList)
    else if next = round then do
      findStuck round
      restore start
      fail round .infiniteLoop
    else r.rounds start fuel behind (values.push w)

theorem rounds_succ (r : Repetition σ α β γ) (start fuel rewind : Nat) (values : Array α) :
    r.rounds start (fuel + 1) rewind values = (look >>= fun v =>
      if v.isExhausted && r.least ≤ values.size then
        restore rewind >>= fun _ => pure (.success values.toList)
      else r.attempt >>= r.conclude start fuel rewind values) := by
  unfold rounds
  refine congrArg _ (funext fun v => ?_)
  split
  · rfl
  · rw [attempt, bind_assoc]
    refine congrArg _ (funext fun stops => ?_)
    rw [bind_assoc]
    refine congrArg _ (funext fun v => ?_)
    cases stops with
    | true => rfl
    | false =>
      simp only [Bool.false_eq_true, if_false]
      rw [bind_assoc]
      refine congrArg _ (funext fun o => ?_)
      cases o with
      | failure f => rfl
      | success w =>
        simp only [bind_assoc]
        rfl

theorem rounds_of_not_exhausted (r : Repetition σ α β γ) {c : Context σ}
    (hc : c.isExhausted = false) (start fuel rewind : Nat) (values : Array α) :
    r.rounds start (fuel + 1) rewind values c
      = (r.attempt >>= r.conclude start fuel rewind values) c := by
  rw [rounds_succ]
  show (if c.isExhausted && r.least ≤ values.size then _ else _ : Told σ _) c = _
  rw [hc]
  rfl

/-- An attempt that did not move is a defect. -/
theorem firstDefect?_conclude_stuck (r : Repetition σ α β γ) (start fuel rewind : Nat)
    (values : Array α) (round behind : Nat) (w : α) (d : Context σ) :
    firstDefect? (r.conclude start fuel rewind values (.found round w behind true round) d).moments
      = some (d.stuckAt round) := by
  show firstDefect? ((if round = round then _ else _ : Told σ (Outcome (List α))) d).moments = _
  rw [if_pos rfl]
  rfl

theorem conclude_moved (r : Repetition σ α β γ) (start fuel rewind : Nat) (values : Array α)
    {round next : Nat} (h : next ≠ round) (behind : Nat) (w : α) :
    r.conclude start fuel rewind values (.found round w behind true next)
      = r.rounds start fuel behind (values.push w) := by
  show (if next = round then _ else _ : Told σ (Outcome (List α))) = _
  rw [if_neg h]

/-- An attempt that finds an element tells where it was and where it went. -/
theorem attempt_found {r : Repetition σ α β γ} {c d : Context σ} {round behind next : Nat} {w : α}
    {more : Bool} (h : (r.attempt c).ending = some (.found round w behind more next, d)) :
    ∃ c₁ c₂, r.forget.stopsAt c = some (false, c₁) ∧ r.forget.element c₁ = some (.success w, c₂) ∧
      r.forget.separates c₂ = some (more, d) ∧ round = c₁.cursor ∧ behind = c₂.cursor ∧
      next = d.cursor := by
  have h : Told.forget r.attempt c = some (.found round w behind more next, d) := h
  simp only [attempt, forget_bind, forget_stopsAt, forget_look, Option.bind_some] at h
  obtain ⟨⟨stops, c₁⟩, h₁, h⟩ := Option.bind_eq_some_iff.mp h
  cases stops with
  | true => cases h
  | false =>
    simp only [Bool.false_eq_true, if_false, forget_bind] at h
    obtain ⟨⟨o, c₂⟩, h₂, h⟩ := Option.bind_eq_some_iff.mp h
    cases o with
    | failure f => cases h
    | success w' =>
      simp only [forget_bind, forget_look, Option.bind_some, forget_separates, forget_pure] at h
      obtain ⟨⟨more', c₃⟩, h₃, h⟩ := Option.bind_eq_some_iff.mp h
      cases h
      exact ⟨c₁, c₂, h₁, h₂, h₃, rfl, rfl, rfl⟩

/-- A round begins where the cursor is, ends where it is then, and keeps the setting. -/
theorem attempt_kept {S : σ → Prop} {r : Repetition σ α β γ} (hr : r.forget.Tidy S)
    {c d : Context σ} (hS : ∀ s ∈ c.skip, S s) {round behind next : Nat} {w : α} {more : Bool}
    (h : (r.attempt c).ending = some (.found round w behind more next, d)) :
    round = c.cursor ∧ next = d.cursor ∧ d.setting = c.setting := by
  obtain ⟨c₁, c₂, h₁, h₂, h₃, hround, _, hnext⟩ := attempt_found h
  obtain ⟨hs₁, hc₁⟩ := Walk.Repetition.stopsAt_still hr hS h₁
  have hs₂ := (hr.element (Context.skip_of_setting hs₁ hS) h₂).setting.trans hs₁
  have hs₃ := Walk.Repetition.separates_kept hr (Context.skip_of_setting hs₂ hS) h₃
  exact ⟨hround.trans hc₁, hnext, hs₃.trans hs₂⟩

/-- A round whose walks move forward does so. -/
theorem attempt_advances {S : σ → Prop} {r : Repetition σ α β γ} (hr : r.forget.Tidy S)
    (ht : r.forget.Travels S Advance) {c d : Context σ} (hS : ∀ s ∈ c.skip, S s)
    {round behind next : Nat} {w : α} {more : Bool}
    (h : (r.attempt c).ending = some (.found round w behind more next, d)) :
    c.cursor ≤ d.cursor := by
  obtain ⟨c₁, c₂, h₁, h₂, h₃, _, _, _⟩ := attempt_found h
  obtain ⟨hs₁, hc₁⟩ := Walk.Repetition.stopsAt_still hr hS h₁
  have hS₁ := Context.skip_of_setting hs₁ hS
  have hs₂ := (hr.element hS₁ h₂).setting
  have helement := ht.element hS₁ h₂
  have hseparator := Walk.Repetition.separates_travels travel_advance ht
    (Context.skip_of_setting hs₂ hS₁) h₃
  rw [← hc₁]
  exact Nat.le_trans helement.1 hseparator.1

end Repetition

end Told

namespace TwoCuts

open Told

variable {σ α β γ : Type} {P : TwoCuts σ} {c c' d d' : Context σ}
  {r r' : Told.Repetition σ α β γ}

/-- The walks of two repetitions mirror each other, and keep what they should. -/
structure CopiesRounds (P : TwoCuts σ) (r r' : Told.Repetition σ α β γ) : Prop where
  element : P.Copies r.element r'.element
  least : r'.least = r.least
  separator : Option.Rel P.Copies r.separator r'.separator
  stop : Option.Rel P.Copies r.stop r'.stop
  tidy : r.forget.Tidy P.skips
  tidy' : r'.forget.Tidy P.skips
  advances : r'.forget.Travels P.skips Advance

/-- Attempts that come to the same at places that are level. -/
inductive Attempts (P : TwoCuts σ) : Repetition.Attempt α → Repetition.Attempt α → Prop
  | stopped {i i' : Nat} : Level P.left P.right i i' → P.Attempts (.stopped i) (.stopped i')
  | missed {f f' : Failure} : Level P.left P.right f.position f'.position →
      P.Attempts (.missed f) (.missed f')
  | found {round round' behind behind' next next' : Nat} (w : α) (more : Bool) :
      Level P.left P.right round round' → Level P.left P.right behind behind' →
      Level P.left P.right next next' →
      P.Attempts (.found round w behind more next) (.found round' w behind' more next')

theorem mirrors_attempt (hr : P.CopiesRounds r r') (hc : P.Near c c') :
    P.Mirrors P.Attempts r.attempt r'.attempt c c' := by
  have hstops : ∀ {c c'}, P.Near c c' → P.Mirrors Eq r.stopsAt r'.stopsAt c c' := by
    intro c c' hc
    have hstop := hr.stop
    unfold Repetition.stopsAt
    generalize r.stop = stop at hstop ⊢
    generalize r'.stop = stop' at hstop ⊢
    cases hstop with
    | none => exact mirrors_pure hc rfl
    | some hcopies => exact mirrors_probe hcopies hc
  have hseparates : ∀ {c c'}, P.Near c c' → P.Mirrors Eq r.separates r'.separates c c' := by
    intro c c' hc
    have hseparator := hr.separator
    unfold Repetition.separates
    generalize r.separator = separator at hseparator ⊢
    generalize r'.separator = separator' at hseparator ⊢
    cases hseparator with
    | none => exact mirrors_pure hc rfl
    | some hcopies =>
      exact (hcopies hc).bind fun _ _ hd ho => mirrors_pure hd ho.isSuccess_eq.symm
  refine (hstops hc).bind fun {stops _ d d'} _ _ hd he => mirrors_look ?_
  subst he
  cases stops with
  | true => exact mirrors_pure hd (.stopped hd.place)
  | false =>
    refine (hr.element hd).bind fun _ _ hd₂ ho => ?_
    cases ho with
    | failure hlevel => exact mirrors_pure hd₂ (.missed hlevel)
    | success w =>
      refine mirrors_look ((hseparates hd₂).bind fun _ _ hd₃ he => mirrors_look ?_)
      subst he
      exact mirrors_pure hd₃ (.found w _ hd.place hd₂.place hd₃.place)

/-- A context behind a round that did not move is still level with what the one in front of the
round was level with. -/
theorem Near.of_setting (h : P.Near d d') (hs : d.setting = c.setting) (hc : d.cursor = c.cursor)
    (hf : c.fatal = none) : P.Near c d' := by
  obtain ⟨chunks, cursor, skip, skipping, deepest, ruleStack, limit, fatal, trace⟩ := c
  obtain ⟨rfl, rfl, rfl, rfl, rfl⟩ := Setting.mk.inj hs
  obtain rfl : d.cursor = cursor := hc
  exact { h with running := hf }

theorem Near.of_setting' (h : P.Near d d') (hs : d'.setting = c'.setting)
    (hc : d'.cursor = c'.cursor) (hf : c'.fatal = none) : P.Near d c' := by
  obtain ⟨chunks, cursor, skip, skipping, deepest, ruleStack, limit, fatal, trace⟩ := c'
  obtain ⟨rfl, rfl, rfl, rfl, rfl⟩ := Setting.mk.inj hs
  obtain rfl : d'.cursor = cursor := hc
  exact { h with running' := hf }

theorem stuckAt_of_setting (hs : d.setting = c.setting) (i : Nat) : d.stuckAt i = c.stuckAt i := by
  obtain ⟨chunks, cursor, skip, skipping, deepest, ruleStack, limit, fatal, trace⟩ := c
  obtain ⟨rfl, rfl, rfl, rfl, rfl⟩ := Setting.mk.inj hs
  rfl

/-- Where a round on the left is stuck, the rounds on the right come to be stuck: each of them
finds what the round on the left finds, and those that move cannot go on for ever. -/
theorem finds_of_stuck (hr : P.CopiesRounds r r') {round behind : Nat} {w : α}
    (hend : (r.attempt c).ending = some (.found round w behind true round, d))
    (hnone : firstDefect? (r.attempt c).moments = none) (hc : c.isExhausted = false)
    {start : Nat} : ∀ {fuel : Nat} {c' : Context σ} {rewind : Nat} {values : Array α},
      P.Near c c' → P.right.size - c'.cursor < fuel →
      firstDefect? (r'.rounds start fuel rewind values c').moments = some (c.stuckAt round)
  | 0, _, _, _, _, h => by omega
  | fuel + 1, c', rewind, values, hnear, hfuel => by
    obtain ⟨_, d', hend', hnone', hd, _, ha⟩ := (mirrors_attempt hr hnear).ends hend hnone
    cases ha with
    | @found _ round' _ behind' _ next' _ _ hround hbehind hnext =>
      obtain ⟨hcursor, hcursor₂, hs⟩ := Repetition.attempt_kept hr.tidy hnear.skips hend
      have hskips : ∀ s ∈ c'.skip, P.skips s := by
        rw [hnear.skip]
        exact hnear.skips
      obtain ⟨hcursor', hcursor₂', _⟩ := Repetition.attempt_kept hr.tidy' hskips hend'
      have hforward := Repetition.attempt_advances hr.tidy' hr.advances hskips hend'
      have hc' : c'.isExhausted = false := hnear.isExhausted_eq.trans hc
      rw [Repetition.rounds_of_not_exhausted r' hc', bind_of_some hend', firstDefect?_append,
        hnone', Option.none_or]
      by_cases hstuck : next' = round'
      · subst hstuck
        rw [Repetition.firstDefect?_conclude_stuck, hd.stuckAt_eq hround, stuckAt_of_setting hs]
      · rw [Repetition.conclude_moved r' _ _ _ _ hstuck]
        have hnear₂ := hd.of_setting hs (hcursor₂.symm.trans hcursor) hnear.running
        have hright := hd.place.right
        exact finds_of_stuck hr hend hnone hc hnear₂ (by omega)

/-- Where a round on the right is stuck, the rounds on the left come to be stuck, unless they
are out of steps before. -/
theorem finds_of_stuck' (hr : P.CopiesRounds r r') {round' behind' : Nat} {w : α}
    (hend' : (r'.attempt c').ending = some (.found round' w behind' true round', d'))
    (hnone' : firstDefect? (r'.attempt c').moments = none) (hc' : c'.isExhausted = false)
    (start : Nat) : ∀ (fuel : Nat) {c : Context σ} (rewind : Nat) (values : Array α),
      P.Near c c' →
      firstDefect? (r.rounds start fuel rewind values c).moments = some (c'.stuckAt round') ∨
      ((r.rounds start fuel rewind values c).ending = none ∧
        firstDefect? (r.rounds start fuel rewind values c).moments = none)
  | 0, _, _, _, _ => .inr ⟨rfl, rfl⟩
  | fuel + 1, c, rewind, values, hnear => by
    have hmirrors := mirrors_attempt hr hnear
    have hc : c.isExhausted = false := hnear.isExhausted_eq.symm.trans hc'
    have hnone : firstDefect? (r.attempt c).moments = none := by
      by_contra hsome
      obtain ⟨e, he⟩ := Option.ne_none_iff_exists'.mp hsome
      cases hnone'.symm.trans (hmirrors.finds he)
    rw [Repetition.rounds_of_not_exhausted r hc]
    cases hend : (r.attempt c).ending with
    | none =>
      rw [bind_of_none hend]
      exact .inr ⟨rfl, hnone⟩
    | some z =>
      obtain ⟨a, d⟩ := z
      obtain ⟨a', d₂', hend₂', _, hd, _, ha⟩ := hmirrors.ends hend hnone
      cases hend'.symm.trans hend₂'
      rw [bind_of_some hend, firstDefect?_append, hnone, Option.none_or]
      cases ha with
      | @found round _ behind _ next _ _ _ hround hbehind hnext =>
        have hskips : ∀ s ∈ c'.skip, P.skips s := by
          rw [hnear.skip]
          exact hnear.skips
        obtain ⟨hcursor', hcursor₂', hs'⟩ := Repetition.attempt_kept hr.tidy' hskips hend'
        by_cases hstuck : next = round
        · subst hstuck
          rw [Repetition.firstDefect?_conclude_stuck, ← hd.stuckAt_eq hround,
            stuckAt_of_setting hs']
          exact .inl rfl
        · rw [Repetition.conclude_moved r _ _ _ _ hstuck]
          exact finds_of_stuck' hr hend' hnone' hc' start fuel _ _
            (hd.of_setting' hs' (hcursor₂'.symm.trans hcursor') hnear.running')

/-- Where both attempts find an element and its separator, the repetitions mirror each other if
what is left of them does: they go on, or both of them are stuck or come to be. -/
theorem mirrors_found (hr : P.CopiesRounds r r') {more : Nat} (hmore : P.right.size < more)
    {start start' fuel rewind rewind' : Nat} {values : Array α}
    {round round' behind behind' next next' : Nat} {w : α} (hc : P.Near c c') (hd : P.Near d d')
    (hend : (r.attempt c).ending = some (.found round w behind true next, d))
    (hnone : firstDefect? (r.attempt c).moments = none)
    (hend' : (r'.attempt c').ending = some (.found round' w behind' true next', d'))
    (hnone' : firstDefect? (r'.attempt c').moments = none)
    (hround : Level P.left P.right round round')
    (hrest : P.Mirrors P.Outcomes (r.rounds start fuel behind (values.push w))
      (r'.rounds start' (more + fuel) behind' (values.push w)) d d') :
    P.Mirrors P.Outcomes (r.conclude start fuel rewind values (.found round w behind true next))
      (r'.conclude start' (more + fuel) rewind' values (.found round' w behind' true next'))
      d d' := by
  have hskips : ∀ s ∈ c'.skip, P.skips s := by
    rw [hc.skip]
    exact hc.skips
  obtain ⟨hcursor, hcursor₂, hs⟩ := Repetition.attempt_kept hr.tidy hc.skips hend
  obtain ⟨hcursor', hcursor₂', hs'⟩ := Repetition.attempt_kept hr.tidy' hskips hend'
  -- at the end neither round can have moved
  have hend_of : (next = round ↔ ¬ next' = round') → c.isExhausted = false := by
    intro hdiffer
    refine decide_eq_false fun hsize => ?_
    rw [hc.left] at hsize
    have hleft := hc.place.left
    have hover := hc.place.atEnd
    have hover₂ := hd.place.atEnd
    omega
  by_cases hstuck : next = round <;> by_cases hstuck' : next' = round'
  · subst hstuck hstuck'
    have hsame := hd.stuckAt_eq hround
    exact mirrors_of_defect (Repetition.firstDefect?_conclude_stuck ..)
      (by rw [Repetition.firstDefect?_conclude_stuck, hsame])
  · have hc₀ := hend_of (by simp [hstuck, hstuck'])
    subst hstuck
    have hnear := hd.of_setting hs (hcursor₂.symm.trans hcursor) hc.running
    refine mirrors_of_defect (Repetition.firstDefect?_conclude_stuck ..) ?_
    rw [Repetition.conclude_moved _ _ _ _ _ hstuck', stuckAt_of_setting hs]
    exact finds_of_stuck hr hend hnone hc₀ hnear (by omega)
  · have hc₀ := hend_of (by simp [hstuck, hstuck'])
    have hc₀' : c'.isExhausted = false := hc.isExhausted_eq.trans hc₀
    subst hstuck'
    have hnear := hd.of_setting' hs' (hcursor₂'.symm.trans hcursor') hc.running'
    rw [Repetition.conclude_moved _ _ _ _ _ hstuck]
    have hfinds := finds_of_stuck' hr hend' hnone' hc₀' start fuel behind (values.push w) hnear
    have hstop := Repetition.firstDefect?_conclude_stuck r' start' (more + fuel) rewind'
      values next' behind' w d'
    rw [stuckAt_of_setting hs'] at hstop
    rcases hfinds with hfound | ⟨hnever, hnothing⟩
    · exact mirrors_of_defect hfound hstop
    · exact mirrors_of_nothing hnever hnothing
  · rw [Repetition.conclude_moved _ _ _ _ _ hstuck, Repetition.conclude_moved _ _ _ _ _ hstuck']
    exact hrest

theorem mirrors_rounds (hr : P.CopiesRounds r r') {more : Nat} (hmore : P.right.size < more)
    {start start' : Nat} (hstart : Level P.left P.right start start') :
    ∀ (fuel : Nat) {rewind rewind' : Nat} {values : Array α} {c c' : Context σ},
      Level P.left P.right rewind rewind' → P.Near c c' →
      P.Mirrors P.Outcomes (r.rounds start fuel rewind values)
        (r'.rounds start' (more + fuel) rewind' values) c c'
  | 0, _, _, _, _, _, _, _ => mirrors_never
  | fuel + 1, rewind, rewind', values, c, c', hrewind, hc => by
    rw [Repetition.rounds_succ, ← Nat.add_assoc, Repetition.rounds_succ]
    refine mirrors_look ?_
    have hexhausted : c'.view.isExhausted = c.view.isExhausted := hc.isExhausted_eq
    rw [hexhausted, hr.least]
    split
    · exact (mirrors_restore hc hrewind).bind fun _ _ hd _ => mirrors_pure hd (.success _)
    · refine (mirrors_attempt hr hc).bind_ending fun {_ _ d d'} hend hnone hend' hnone' hd ha => ?_
      cases ha with
      | stopped hi =>
        simp only [Repetition.conclude, hr.least]
        split
        · exact (mirrors_restore hd hstart).bind fun _ _ hd₂ _ => mirrors_fail hd₂ hi .unexpected
        · exact (mirrors_restore hd hrewind).bind fun _ _ hd₂ _ => mirrors_pure hd₂ (.success _)
      | missed hf =>
        simp only [Repetition.conclude, hr.least]
        split
        · exact (mirrors_restore hd hstart).bind fun _ _ hd₂ _ => mirrors_pure hd₂ (.failure hf)
        · exact (mirrors_restore hd hrewind).bind fun _ _ hd₂ _ => mirrors_pure hd₂ (.success _)
      | found w separated hround hbehind hnext =>
        cases separated with
        | false =>
          exact (mirrors_restore hd hbehind).bind fun _ _ hd₂ _ => mirrors_pure hd₂ (.success _)
        | true =>
          exact mirrors_found hr hmore hc hd hend hnone hend' hnone' hround
            (mirrors_rounds hr hmore hstart fuel hbehind hd)

theorem copies_repetition (hr : P.CopiesRounds r r') {more : Nat} (hmore : P.right.size < more)
    (fuel : Nat) : P.Copies (Told.repetition r fuel) (Told.repetition r' (more + fuel)) :=
  fun _ _ hc => mirrors_look (mirrors_rounds hr hmore hc.place fuel hc.place hc)

theorem mirrors_findUnresolved (name : String) :
    P.Mirrors (fun _ _ => False) (Told.findUnresolved name) (Told.findUnresolved name) c c' :=
  mirrors_of_defect rfl rfl

end TwoCuts

namespace Grammar

variable {rules : RuleTable} {P : TwoCuts LinkedGrammar}

/-- The repetition of parts that mirror each other. -/
theorem copiesRounds_of_parts (hP : ∀ s, P.skips s ↔ s.isForward = true)
    (hrules : ∀ g ∈ rules, g.isForward = true) {fuel more : Nat} {g : LinkedGrammar} {least : Nat}
    {separator stop : Option LinkedGrammar}
    (hg : (Grammar.repeated g least separator stop).isCareful = true)
    (hparts : ∀ part ∈ (Grammar.repeated g least separator stop).parts,
      P.Copies (tell rules fuel part) (tell rules (more + fuel) part)) :
    P.CopiesRounds
      ⟨tell rules fuel g, least, separator.map (tell rules fuel), stop.map (tell rules fuel)⟩
      ⟨tell rules (more + fuel) g, least, separator.map (tell rules (more + fuel)),
        stop.map (tell rules (more + fuel))⟩ := by
  have htidy : ∀ fuel, (Told.Repetition.forget
      ⟨tell rules fuel g, least, separator.map (tell rules fuel),
        stop.map (tell rules fuel)⟩).Tidy P.skips := by
    intro fuel
    simp only [Told.Repetition.forget_mk, forget_tell]
    refine repeated_tidy fun part hm => ?_
    exact (run_tidy (fun g hm => isBuiltIn_of_isForward (hrules g hm))
      (isBuiltIn_part (isBuiltIn_of_isCareful hg) hm)).mono
      fun s hs => isBuiltIn_of_isForward ((hP s).mp hs)
  have hoption : ∀ o : Option LinkedGrammar, (∀ part ∈ o,
      part ∈ (Grammar.repeated g least separator stop).parts) →
      Option.Rel P.Copies (o.map (tell rules fuel)) (o.map (tell rules (more + fuel))) := by
    intro o ho
    cases o with
    | none => exact .none
    | some part => exact .some (hparts part (ho part rfl))
  refine ⟨hparts g (by simp [parts]), rfl,
    hoption separator fun s hs => by simp [parts, Option.mem_def.mp hs],
    hoption stop fun s hs => by simp [parts, Option.mem_def.mp hs], htidy fuel,
    htidy (more + fuel), ?_⟩
  simp only [Told.Repetition.forget_mk, forget_tell]
  refine repeated_travels fun part hm => ?_
  have hforward := isForward_part hg (by simp) (by simp) (mem_parts_of_mem_openParts hm)
  intro c o c' hS h
  exact run_travels travel_advance hrules hforward (fun s hs => (hP s).mp (hS s hs)) h

/-- Over two cuts into the same words, grammars that look behind only to look tell the same. -/
theorem tell_copies (hP : ∀ s, P.skips s ↔ s.isForward = true)
    (hrules : ∀ g ∈ rules, g.isForward = true) {more : Nat} (hmore : P.right.size < more) :
    ∀ (fuel : Nat) {g : LinkedGrammar}, g.isCareful = true →
      P.Copies (tell rules fuel g) (tell rules (more + fuel) g)
  | 0, _, _ => fun _ _ _ => TwoCuts.mirrors_never
  | fuel + 1, g, hg => by
    have ih : ∀ {g : LinkedGrammar}, g.isCareful = true →
        P.Copies (tell rules fuel g) (tell rules (more + fuel) g) :=
      fun hg => tell_copies hP hrules hmore fuel hg
    have hparts : ∀ part ∈ g.parts, P.Copies (tell rules fuel part)
        (tell rules (more + fuel) part) := fun part hm => ih (isCareful_part hg hm)
    have hskips : ∀ s, P.skips s → P.Copies (tell rules fuel s) (tell rules (more + fuel) s) :=
      fun s hs => ih (isCareful_of_isForward ((hP s).mp hs))
    have hnative : g.isNative = false := by simpa using all_self (isBuiltIn_of_isCareful hg)
    show P.Copies (tellStep rules fuel (tell rules fuel) g)
      (tellStep rules (more + fuel) (tell rules (more + fuel)) g)
    cases g with
    | consume t => exact (TwoCuts.copies_consume hskips t more fuel).map _
    | behind t => exact (TwoCuts.copies_consumeBehind t).map _
    | untilToken t => exact (TwoCuts.copies_untilToken t).map _
    | untilMatch g =>
      exact (TwoCuts.copies_untilMatch (hparts g List.mem_cons_self) more fuel).map _
    | unit => exact fun _ _ hc => TwoCuts.mirrors_pure hc (.success Value.null)
    | sequence gs => exact (TwoCuts.copies_sequence hparts).map _
    | choice gs => exact TwoCuts.copies_choice hparts
    | optional g => exact (TwoCuts.copies_optional (hparts g List.mem_cons_self)).map _
    | peek g => exact TwoCuts.copies_peek (hparts g List.mem_cons_self)
    | notAhead g => exact (TwoCuts.copies_notAhead (hparts g List.mem_cons_self)).map _
    | skipIn s g =>
      exact TwoCuts.copies_withSkip
        ((hP s).mpr (isForward_part hg (by simp) (by simp) List.mem_cons_self))
        (hparts g (List.mem_cons_of_mem _ List.mem_cons_self))
    | repeated g least separator stop =>
      exact (TwoCuts.copies_repetition (copiesRounds_of_parts hP hrules hg hparts) hmore fuel).map _
    | rule r =>
      show P.Copies (tellCall rules (tell rules fuel) r)
        (tellCall rules (tell rules (more + fuel)) r)
      unfold tellCall
      split
      · rename_i g hget
        have hcareful := isCareful_of_isForward (hrules g (Array.mem_of_getElem? hget))
        exact TwoCuts.copies_inRule (ih hcareful) r.name
      · exact fun _ _ _ => (TwoCuts.mirrors_findUnresolved _).bind fun _ _ _ => False.elim
    | map f g => exact (hparts g List.mem_cons_self).map f
    | discard g => exact (hparts g List.mem_cons_self).map _
    | native f => cases hnative
    | andThen g f => cases hnative

end Grammar

/-! ## Parsers -/

/-- The same value, mismatches at the same byte, or the same defect. -/
inductive SameResult {α : Type} : Except ParseError α → Except ParseError α → Prop
  | ok (v : α) : SameResult (.ok v) (.ok v)
  | mismatch {e e' : SyntaxError} : e.offset = e'.offset →
      SameResult (.error (.mismatch e)) (.error (.mismatch e'))
  | defect (d : Defect) : SameResult (.error (.defect d)) (.error (.defect d))

theorem SameResult.symm {α : Type} {x y : Except ParseError α} (h : SameResult x y) :
    SameResult y x := by
  cases h with
  | ok v => exact .ok v
  | mismatch h => exact .mismatch h.symm
  | defect d => exact .defect d

/-- Contexts that stand level finish alike. -/
theorem TwoCuts.finish_same {σ α : Type} {P : TwoCuts σ} {c c' : Context σ} {o o' : Outcome α}
    (hc : P.Near c c') (hdeep : P.Deep c c') (ho : P.Outcomes o o') :
    SameResult (c.finish o) (c'.finish o') := by
  unfold Context.finish
  rw [hc.running, hc.running', hc.left, hc.right]
  cases ho with
  | success v => exact .ok v
  | failure hf =>
    unfold TwoCuts.Deep at hdeep
    generalize c.deepest = deepest at hdeep ⊢
    generalize c'.deepest = deepest' at hdeep ⊢
    refine .mismatch (Level.offset_ofFailure P.same.words ?_)
    cases hdeep with
    | none => exact hf
    | some hd => exact hf.ite_position hd

namespace Parser

variable {p : Parser}

theorem rules_isForward (h : p.isForward = true) : ∀ g ∈ p.rules, g.isForward = true := fun g hm =>
  List.all_eq_true.mp (Bool.and_eq_true_iff.mp h).1 g (Array.mem_toList_iff.mpr hm)

theorem skip_isForward (h : p.isForward = true) : ∀ s ∈ p.skip, s.isForward = true := fun s hs =>
  (Option.all_eq_true _ _).mp (Bool.and_eq_true_iff.mp h).2 s hs

theorem isBuiltIn_of_isForward (h : p.isForward = true) : p.isBuiltIn = true := by
  refine Bool.and_eq_true_iff.mpr ⟨List.all_eq_true.mpr fun g hm => ?_, ?_⟩
  · exact Grammar.isBuiltIn_of_isForward (rules_isForward h g (Array.mem_toList_iff.mp hm))
  · exact (Option.all_eq_true _ _).mpr fun s hs =>
      Grammar.isBuiltIn_of_isForward (skip_isForward h s hs)

/-- A parse that comes to an end over the one cut does so over the other one. -/
theorem parse_same_of_parse (hp : p.isForward = true) {t : Tokenizer} {text : String}
    (hsame : (p.tokenizer.tokenize text).1.SameWords (t.tokenize text).1) {name : String}
    {entry : LinkedGrammar} (hentry : p.entry? name = some entry) {trace : Option Trace}
    (trace' : Option Trace) {x : Result} (hx : (p.parse name text trace).1 = some x) :
    ∃ y, (Parser.parse { p with tokenizer := t } name text trace').1 = some y ∧
      SameResult x.1 y.1 := by
  have hbuilt := isBuiltIn_of_isForward hp
  let q : Parser := { p with tokenizer := t }
  let P : TwoCuts LinkedGrammar :=
    ⟨(p.tokenizer.tokenize text).1, (t.tokenize text).1, hsame, (·.isForward = true)⟩
  have hstart : P.Near (p.start P.left trace) (q.start P.right trace') :=
    { place := Level.zero hsame, left := rfl, right := rfl, skip := rfl, skipping := rfl,
      ruleStack := rfl, recursionLimit := rfl, running := rfl, running' := rfl,
      skips := skip_isForward hp }
  have hcareful : entry.isCareful = true := by
    obtain ⟨symbol, _, rfl⟩ := Option.map_eq_some_iff.mp hentry
    rfl
  rw [parse_eq_tale hentry] at hx
  obtain ⟨⟨o, d⟩, hend, rfl⟩ := Option.map_eq_some_iff.mp hx
  have haccount := tale_account hbuilt hentry P.left trace
  have hfatal : d.fatal = firstDefect? (p.tale entry P.left trace).moments := by
    obtain ⟨hlast, _, _⟩ := haccount.ends hend
    rw [hlast, haccount.unfolds.fatal]
    rfl
  have hmirrors := Grammar.tell_copies (P := P) (fun _ => Iff.rfl) (rules_isForward hp)
    (Nat.lt_succ_self P.right.size)
    (Grammar.enoughFuel p.rules (p.start P.left trace) entry) hcareful hstart
  cases hdefect : firstDefect? (p.tale entry P.left trace).moments with
  | none =>
    obtain ⟨o', d', hend', _, hd, hdeep, ho⟩ := hmirrors.ends hend hdefect
    have hrun := (Grammar.ending_tell ..).symm.trans hend'
    exact ⟨_, parse_eq_of_run (p := q) hbuilt hentry hrun,
      TwoCuts.finish_same hd (hdeep .none) ho⟩
  | some e =>
    obtain ⟨trace'', hparse⟩ := (parse_defect_iff (p := q) hbuilt hentry text trace' e).mp
      ⟨_, hmirrors.finds hdefect⟩
    refine ⟨_, hparse, ?_⟩
    rw [hdefect] at hfatal
    show SameResult (d.finish o) _
    rw [d.finish_of_fatal hfatal]
    exact .defect e

/-- **Empty chunks between words do not count.** If two tokenizers cut a text into the same
words, and both or neither leave an empty chunk at its end, then a parse gives the same with
both of them: the same value, a mismatch at the same byte, or the same defect. -/
theorem parse_same_words (hp : p.isForward = true) (t : Tokenizer) (text : String)
    (hsame : (p.tokenizer.tokenize text).1.SameWords (t.tokenize text).1) (name : String)
    (trace trace' : Option Trace) :
    Option.Rel (fun x y : Result => SameResult x.1 y.1) (p.parse name text trace).1
      (Parser.parse { p with tokenizer := t } name text trace').1 := by
  let q : Parser := { p with tokenizer := t }
  cases hentry : p.entry? name with
  | none =>
    rw [parse_of_unknown hentry, parse_of_unknown (p := q) hentry]
    exact .some (.defect _)
  | some entry =>
    cases hx : (p.parse name text trace).1 with
    | some x =>
      obtain ⟨y, hy, hxy⟩ := parse_same_of_parse hp hsame hentry trace' hx
      rw [hy]
      exact .some hxy
    | none =>
      cases hy : (Parser.parse { p with tokenizer := t } name text trace').1 with
      | none => exact .none
      | some y =>
        obtain ⟨x, hx', _⟩ := parse_same_of_parse (p := q) hp hsame.symm hentry trace hy
        cases hx.symm.trans hx'

/-- The text `ab` with both of its letters cut out, and with the second one only: empty chunks
lie between the two words in the first cut, and at the end of both. -/
theorem parse_same_words_between :
    ∃ (dot : Token) (p : Parser) (t : Tokenizer), Token.pattern 0 "." = .ok dot ∧
      Definition.build { tokens := [dot], rules := [("R", Grammar.zeroOrMore (.consume dot))] }
        = .ok p ∧
      Tokenizer.ofTokens [.literal 1 "b"] none = .ok t ∧
      (p.tokenizer.tokenize "ab").1 = ⟨#["", "a", "", "b", ""]⟩ ∧
      (t.tokenize "ab").1 = ⟨#["a", "b", ""]⟩ ∧
      Option.Rel (fun x y : Result => SameResult x.1 y.1) (p.parse "R" "ab" none).1
        (Parser.parse { p with tokenizer := t } "R" "ab" none).1 := by
  obtain ⟨dot, t, hdot, ht, hprogram⟩ : ∃ dot t, Token.pattern 0 "." = .ok dot ∧
      Tokenizer.ofTokens [dot] none = .ok t ∧
      t.program = some (Regex.compile (.one (.compl [(0xa, 0xa)]))) :=
    ⟨_, _, by with_unfolding_all rfl, by with_unfolding_all rfl, by with_unfolding_all rfl⟩
  obtain ⟨t', ht', hprogram'⟩ : ∃ t, Tokenizer.ofTokens [.literal 1 "b"] none = .ok t ∧
      t.program = some (Regex.compile (.one [(0x62, 0x62)])) :=
    ⟨_, by with_unfolding_all rfl, by with_unfolding_all rfl⟩
  have hchunks : (t.tokenize "ab").1 = ⟨#["", "a", "", "b", ""]⟩ := by
    have hstop : ∀ q < 2, (t.matching "ab").stop? q = some (q + 1) := by
      intro q hq
      rw [Tokenizer.stop?_one hprogram (Nat.le_of_lt hq)]
      exact if_pos (by decide +revert)
    have hscan : (t.matching "ab").scan 0 0 = [(0, 0), (0, 1), (1, 1), (1, 2), (2, 2)] := by
      rw [Matching.scan_cut _ (by decide) (hstop 0 (by decide)) (by decide),
        Matching.scan_cut _ (by decide) (hstop 1 (by decide)) (by decide),
        Matching.scan_behind _ (by decide)]
      rfl
    refine (Tokenizer.tokenize_after ht [] "ab").trans ?_
    rw [(t.split_partitions_scan "ab").chunks, hscan]
    rfl
  have hchunks' : (t'.tokenize "ab").1 = ⟨#["a", "b", ""]⟩ := by
    have hscan : (t'.matching "ab").scan 0 0 = [(0, 1), (1, 2), (2, 2)] := by
      rw [Matching.scan_pass _ (by decide) (.inl (Tokenizer.stop?_one hprogram' (by decide))),
        Matching.scan_cut _ (by decide) (Tokenizer.stop?_one hprogram' (by decide)) (by decide),
        Matching.scan_behind _ (by decide)]
      rfl
    refine (Tokenizer.tokenize_after ht' [] "ab").trans ?_
    rw [(t'.split_partitions_scan "ab").chunks, hscan]
    rfl
  let d : Definition :=
    { tokens := [dot], rules := [("R", Grammar.zeroOrMore (.consume dot))] }
  have hp : d.build = .ok (d.parserWith t) :=
    Definition.build_eq_ok_iff.mpr ⟨⟨List.nodup_singleton _, nofun⟩, t, ht, rfl⟩
  have hsame : (t.tokenize "ab").1.SameWords (t'.tokenize "ab").1 := by
    rw [hchunks, hchunks']
    exact ⟨by decide, by decide⟩
  exact ⟨dot, d.parserWith t, t', hdot, hp, ht', hchunks, hchunks',
    parse_same_words (p := d.parserWith t) rfl t' "ab" hsame "R" none none⟩

/-- An empty chunk at the end of a text counts. A repetition goes on in front of it and finds
that its rule does not move, where with nothing left it would have come to an end. -/
theorem parse_differs_at_end :
    let d : Definition :=
      { tokens := [.literal 0 "a"]
        rules := [("R", .sequence [.consume (.literal 0 "a"),
          Grammar.zeroOrMore (.optional (.consume (.literal 1 "b")))])] }
    ∃ (p : Parser) (t : Tokenizer), d.build = .ok p ∧ Tokenizer.ofTokens [] none = .ok t ∧
      (p.tokenizer.tokenize "a").1 = ⟨#["", "a", ""]⟩ ∧ (t.tokenize "a").1 = ⟨#["a"]⟩ ∧
      (p.parse "R" "a" none).1 = some (.error (.defect (.infiniteLoop (some "R") 1)), none) ∧
      (Parser.parse { p with tokenizer := t } "R" "a" none).1
        = some (.ok (.list [.text "a", .list []]), none) := by
  intro d
  obtain ⟨t, ht, hprogram⟩ : ∃ t, Tokenizer.ofTokens [.literal 0 "a"] none = .ok t ∧
      t.program = some (Regex.compile (.one [(0x61, 0x61)])) :=
    ⟨_, by with_unfolding_all rfl, by with_unfolding_all rfl⟩
  have hchunks : (t.tokenize "a").1 = ⟨#["", "a", ""]⟩ := by
    have hscan : (t.matching "a").scan 0 0 = [(0, 0), (0, 1), (1, 1)] := by
      rw [Matching.scan_cut _ (by decide) (Tokenizer.stop?_one hprogram (by decide)) (by decide),
        Matching.scan_behind _ (by decide)]
      rfl
    refine (Tokenizer.tokenize_after ht [] "a").trans ?_
    rw [(t.split_partitions_scan "a").chunks, hscan]
    rfl
  have hp : d.build = .ok (d.parserWith t) :=
    Definition.build_eq_ok_iff.mpr ⟨⟨by decide, by decide⟩, t, ht, rfl⟩
  have hentry : entry? (d.parserWith t) "R" = some (.entryOf ⟨0⟩ "R") := by
    with_unfolding_all rfl
  have hloop : ((d.parserWith t).parse "R" "a" none).1
      = some (.error (.defect (.infiniteLoop (some "R") 1)), none) := by
    rw [fst_parse hentry]
    show (d.parserWith t).run _ (t.tokenize "a").1 none = _
    rw [hchunks]
    with_unfolding_all rfl
  let whole : Tokenizer := { pattern := "", program := none }
  exact ⟨d.parserWith t, whole, hp, rfl, hchunks, rfl, hloop, by with_unfolding_all rfl⟩

end Parser

end Chunkwise
