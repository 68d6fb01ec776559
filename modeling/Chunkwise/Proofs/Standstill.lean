import Chunkwise.Proofs.Compose
import Chunkwise.Proofs.Termination
import Mathlib.Data.Option.Basic

/-! A parse that has stopped stands still. Some walks still succeed after a defect was found,
but none of them moves the cursor or finds another defect, and a repetition of them is over
after one round. So no more steps are needed than grammars are nested, whatever the limit.
Nor does what is put together from such walks move if the parse is stopped by the first of
them. -/

namespace Chunkwise

namespace Context

variable {σ : Type}

/-- The first defect stays. -/
theorem fatal_halt {c : Context σ} {e : Defect} (h : c.fatal = some e) (d : Defect) :
    (c.halt d).fatal = some e := by
  unfold halt
  rw [h]
  rfl

theorem halt_of_isHalted {c : Context σ} (h : c.isHalted = true) (d : Defect) : c.halt d = c := by
  obtain ⟨e, he⟩ := Option.isSome_iff_exists.mp h
  have hfatal : (c.halt d).fatal = c.fatal := (fatal_halt he d).trans he.symm
  show { c with fatal := (c.halt d).fatal } = c
  rw [hfatal]

end Context

/-- The setting, the cursor and the defect are as before. -/
structure Unmoved {σ : Type} (c c' : Context σ) : Prop where
  setting : c'.setting = c.setting
  cursor : c'.cursor = c.cursor
  fatal : c'.fatal = c.fatal

namespace Unmoved

variable {σ : Type} {c c₁ c₂ : Context σ}

theorem refl (c : Context σ) : Unmoved c c := ⟨rfl, rfl, rfl⟩

theorem trans (h₁ : Unmoved c c₁) (h₂ : Unmoved c₁ c₂) : Unmoved c c₂ :=
  ⟨h₂.setting.trans h₁.setting, h₂.cursor.trans h₁.cursor, h₂.fatal.trans h₁.fatal⟩

theorem isHalted (h : Unmoved c c₁) (hh : c.isHalted = true) : c₁.isHalted = true := by
  unfold Context.isHalted
  rw [h.fatal]
  exact hh

/-- Going back to a place where the cursor is already. -/
theorem restore (h : Unmoved c c₁) {i : Nat} (hi : i = c.cursor) : Unmoved c (c₁.restore i) :=
  ⟨by rw [Context.setting_restore, h.setting], by rw [Context.cursor_restore, hi],
    by rw [Context.fatal_restore, h.fatal]⟩

theorem record (h : Unmoved c c₁) (f : Failure) : Unmoved c (c₁.record f) :=
  ⟨h.setting, h.cursor, h.fatal⟩

theorem halt (h : Unmoved c c₁) (hh : c.isHalted = true) (d : Defect) : Unmoved c (c₁.halt d) := by
  rwa [Context.halt_of_isHalted (h.isHalted hh)]

end Unmoved

namespace Walk

variable {σ α β γ : Type} {d : Defect} {c : Context σ}

/-- The walk from `c` ends where it began, and then the parse is stopped: by `d`, unless it
was stopped before. -/
def Stops (d : Defect) (c : Context σ) (w : Walk σ α) : Prop :=
  ∃ o c', w c = some (o, c') ∧ Unmoved (c.halt d) c'

/-- In a parse that has stopped, the walk has an outcome and leaves the setting, the cursor
and the defect as they are. -/
def StandsStill (w : Walk σ α) : Prop :=
  ∀ ⦃c : Context σ⦄, c.isHalted = true → ∃ o c', w c = some (o, c') ∧ Unmoved c c'

theorem StandsStill.stops {w : Walk σ α} (hw : StandsStill w) (d : Defect)
    (hh : c.isHalted = true) : Stops d c w := by
  unfold Stops
  rw [Context.halt_of_isHalted hh]
  exact hw hh

theorem standsStill_of_stops {w : Walk σ α}
    (hw : ∀ (d : Defect) (c : Context σ), c.isHalted = true → Stops d c w) : StandsStill w := by
  intro c hh
  obtain ⟨d, _⟩ := Option.isSome_iff_exists.mp hh
  obtain ⟨o, c', h, hu⟩ := hw d c hh
  rw [Context.halt_of_isHalted hh] at hu
  exact ⟨o, c', h, hu⟩

/-- Matching anything fails right away. -/
theorem standsStill_of_haltedFailure {w : Walk σ α}
    (hw : ∀ c : Context σ, c.isHalted = true → w c = some (c.haltedFailure, c)) :
    StandsStill w := fun c hh => ⟨_, c, hw c hh, .refl c⟩

/-! ## Combined walks -/

theorem Stops.map {w : Walk σ α} (hw : Stops d c w) (f : α → β) : Stops d c (w.map f) := by
  obtain ⟨o, c', h, hu⟩ := hw
  exact ⟨o.map f, c', by simp [Walk.map, h], hu⟩

theorem StandsStill.map {w : Walk σ α} (hw : StandsStill w) (f : α → β) :
    StandsStill (w.map f) := standsStill_of_stops fun d _ hh => (hw.stops d hh).map f

theorem inTurn_stops {w : Walk σ α} {ws : List (Walk σ α)} (hw : Stops d c w)
    (hws : StandsStill (inTurn ws)) : Stops d c (inTurn (w :: ws)) := by
  obtain ⟨o₁, c₁, h₁, hu₁⟩ := hw
  cases o₁ with
  | failure f => exact ⟨.failure f, c₁, by simp [inTurn, h₁], hu₁⟩
  | success v =>
    obtain ⟨o₂, c₂, h₂, hu₂⟩ := hws (hu₁.isHalted (c.isHalted_halt d))
    exact ⟨o₂.map (v :: ·), c₂, by simp [inTurn, h₁, h₂], hu₁.trans hu₂⟩

theorem inTurn_standsStill : ∀ {ws : List (Walk σ α)}, (∀ w ∈ ws, StandsStill w) →
    StandsStill (inTurn ws)
  | [], _ => fun c _ => ⟨.success [], c, rfl, .refl c⟩
  | w :: ws, hws => standsStill_of_stops fun d _ hh =>
    inTurn_stops ((hws w (by simp)).stops d hh)
      (inTurn_standsStill fun w hm => hws w (by simp [hm]))

theorem sequence_stops {ws : List (Walk σ α)} (hws : Stops d c (inTurn ws)) :
    Stops d c (sequence ws) := by
  obtain ⟨o₁, c₁, h₁, hu₁⟩ := hws
  cases o₁ with
  | success vs => exact ⟨.success vs, c₁, by simp [sequence, h₁], hu₁⟩
  | failure f =>
    exact ⟨.failure f, c₁.restore c.cursor, by simp [sequence, h₁], hu₁.restore rfl⟩

theorem sequence_standsStill {ws : List (Walk σ α)} (hws : ∀ w ∈ ws, StandsStill w) :
    StandsStill (sequence ws) :=
  standsStill_of_stops fun d _ hh => sequence_stops ((inTurn_standsStill hws).stops d hh)

/-- The walks that are still to be tried stand still whatever failed before. -/
theorem tryEach_stops {w : Walk σ α} {ws : List (Walk σ α)} (hw : Stops d c w)
    (hws : ∀ before, StandsStill fun c => tryEach c.cursor before ws c) (before : Option Failure) :
    Stops d c fun c => tryEach c.cursor before (w :: ws) c := by
  obtain ⟨o₁, c₁, h₁, hu₁⟩ := hw
  cases o₁ with
  | success v => exact ⟨.success v, c₁, by simp [tryEach, h₁], hu₁⟩
  | failure f =>
    have hu₂ : Unmoved (c.halt d) (c₁.restore c.cursor) := hu₁.restore rfl
    obtain ⟨o, c', h, hu⟩ :=
      hws (some (.deepest before f)) (hu₂.isHalted (c.isHalted_halt d))
    simp only [Context.cursor_restore] at h
    exact ⟨o, c', by simp [tryEach, h₁, h], hu₂.trans hu⟩

theorem tryEach_standsStill : ∀ {ws : List (Walk σ α)}, (∀ w ∈ ws, StandsStill w) →
    ∀ (before : Option Failure), StandsStill fun c => tryEach c.cursor before ws c
  | [], _, some f => fun c _ => ⟨.failure f, c, rfl, .refl c⟩
  | [], _, none => fun c _ => ⟨_, _, rfl, (Unmoved.refl c).record _⟩
  | w :: ws, hws, before => standsStill_of_stops fun d _ hh =>
    tryEach_stops ((hws w (by simp)).stops d hh)
      (tryEach_standsStill fun w hm => hws w (by simp [hm])) before

theorem choice_standsStill {ws : List (Walk σ α)} (hws : ∀ w ∈ ws, StandsStill w) :
    StandsStill (choice ws) := tryEach_standsStill hws none

theorem optional_stops {w : Walk σ α} (hw : Stops d c w) : Stops d c (optional w) := by
  obtain ⟨o₁, c₁, h₁, hu₁⟩ := hw
  cases o₁ with
  | success v => exact ⟨.success (some v), c₁, by simp [optional, h₁], hu₁⟩
  | failure f =>
    exact ⟨.success none, c₁.restore c.cursor, by simp [optional, h₁], hu₁.restore rfl⟩

theorem optional_standsStill {w : Walk σ α} (hw : StandsStill w) : StandsStill (optional w) :=
  standsStill_of_stops fun d _ hh => optional_stops (hw.stops d hh)

theorem peek_stops {w : Walk σ α} (hw : Stops d c w) : Stops d c (peek w) := by
  obtain ⟨o₁, c₁, h₁, hu₁⟩ := hw
  have hu : Unmoved (c.halt d) (c₁.restore c.cursor) := hu₁.restore rfl
  exact ⟨o₁, { c₁.restore c.cursor with deepest := c.deepest }, by simp [peek, h₁],
    hu.setting, hu.cursor, hu.fatal⟩

theorem peek_standsStill {w : Walk σ α} (hw : StandsStill w) : StandsStill (peek w) :=
  standsStill_of_stops fun d _ hh => peek_stops (hw.stops d hh)

theorem probe_standsStill {w : Walk σ α} (hw : StandsStill w) {c : Context σ}
    (hh : c.isHalted = true) : ∃ b c', probe w c = some (b, c') ∧ Unmoved c c' := by
  obtain ⟨o₁, c₁, h₁, hu₁⟩ := peek_standsStill hw hh
  exact ⟨o₁.isSuccess, c₁, by simp [probe, h₁], hu₁⟩

theorem notAhead_stops {w : Walk σ α} (hw : Stops d c w) : Stops d c (notAhead w) := by
  obtain ⟨o₁, c₁, h₁, hu₁⟩ := peek_stops hw
  have h : probe w c = some (o₁.isSuccess, c₁) := by simp [probe, h₁]
  cases hs : o₁.isSuccess with
  | true =>
    exact ⟨.failure ⟨c.cursor, .unexpected⟩, c₁.record ⟨c.cursor, .unexpected⟩,
      by simp [notAhead, h, hs, Context.fail], hu₁.record _⟩
  | false => exact ⟨.success (), c₁, by simp [notAhead, h, hs], hu₁⟩

theorem notAhead_standsStill {w : Walk σ α} (hw : StandsStill w) : StandsStill (notAhead w) :=
  standsStill_of_stops fun d _ hh => notAhead_stops (hw.stops d hh)

theorem withSkip_stops {w : Walk σ α} {skip : σ} (hw : Stops d (c.withSkip (some skip)) w) :
    Stops d c (withSkip skip w) := by
  obtain ⟨o₁, c₁, h₁, hu₁⟩ := hw
  exact ⟨o₁, c₁.withSkip c.skip, by simp [withSkip, h₁],
    Context.setting_withSkip_back (c := c.halt d) hu₁.setting, hu₁.cursor, hu₁.fatal⟩

theorem withSkip_standsStill {w : Walk σ α} (hw : StandsStill w) (skip : σ) :
    StandsStill (withSkip skip w) :=
  standsStill_of_stops fun d _ hh => withSkip_stops (hw.stops d hh)

theorem inRule_standsStill (name : String) (w : Walk σ α) : StandsStill (inRule name w) :=
  standsStill_of_haltedFailure fun c hh => by simp [inRule, Context.enterRule, hh]

/-- The skip rule does not move, so the attempt is in vain. -/
theorem trySkip_standsStill {run : σ → Walk σ α} {c : Context σ}
    (hrun : ∀ s ∈ c.skip, StandsStill (run s)) (hh : c.isHalted = true) :
    ∃ c', trySkip run c = some (false, c') ∧ Unmoved c c' := by
  unfold trySkip
  split
  · exact ⟨c, rfl, .refl c⟩
  · rename_i hk
    have hk : c.skipping = false := by simpa using hk
    split
    · exact ⟨c, rfl, .refl c⟩
    · rename_i skip hskip
      obtain ⟨o, c₁, h₁, hu₁⟩ := hrun skip hskip (c := inSkip c) hh
      have hcursor : c₁.cursor = c.cursor := hu₁.cursor
      have hsetting : (outOfSkip c c₁).setting = c.setting := by
        have := congrArg (fun s : Setting σ => { s with skipping := false }) hu₁.setting
        simpa [Context.setting, inSkip, outOfSkip, hk] using this
      refine ⟨(outOfSkip c c₁).moveTo c.cursor, ?_, hsetting, rfl, hu₁.fatal⟩
      unfold inSkip at h₁
      simp only [h₁, Option.bind_eq_bind, Option.bind_some, hcursor, Nat.lt_irrefl, decide_false,
        Bool.and_false, Bool.false_eq_true, if_false]
      rfl

/-! ## Loops -/

/-- A round that begins after the parse was stopped is the last one of matching a token. -/
theorem consumeFrom_of_isHalted {skip : Context σ → Option (Bool × Context σ)} (token : Token)
    (start : Nat) {fuel : Nat} (hfuel : 0 < fuel) {c : Context σ}
    (hskip : ∃ c', skip c.skipEmpty = some (false, c') ∧ Unmoved c.skipEmpty c') :
    ∃ o c', consumeFrom skip token start fuel c = some (o, c') ∧ c'.fatal = c.fatal := by
  obtain ⟨fuel, rfl⟩ : ∃ k, fuel = k + 1 := ⟨fuel - 1, by omega⟩
  obtain ⟨c₁, h₁, hu₁⟩ := hskip
  have hfatal : c₁.fatal = c.fatal := hu₁.fatal
  unfold consumeFrom
  dsimp only
  split
  · exact ⟨_, _, rfl, rfl⟩
  · split
    · exact ⟨_, _, rfl, rfl⟩
    · simp only [h₁, Option.bind_eq_bind, Option.bind_some, Bool.false_eq_true, if_false]
      exact ⟨_, _, rfl, by simp [Context.record, Context.noteMiss, Context.note, hfatal]⟩

/-- After the parse was stopped, gathering still goes on to the end of the input at most. -/
theorem untilMatchFrom_of_isHalted {stop : Walk σ α} (hstop : StandsStill stop) {start : Nat} :
    ∀ (fuel : Nat) (gathered : Array String) {c : Context σ}, c.isHalted = true →
      c.chunks.size - c.cursor < fuel →
      ∃ o c', untilMatchFrom stop start fuel gathered c = some (o, c') ∧ c'.fatal = c.fatal
  | 0, _, _, _, hf => by omega
  | fuel + 1, gathered, c, hh, hf => by
    obtain ⟨b, c₁, h₁, hu₁⟩ := probe_standsStill hstop (c := c.skipEmpty) hh
    have hfatal : c₁.fatal = c.fatal := hu₁.fatal
    unfold untilMatchFrom
    simp only [h₁, Option.bind_eq_bind, Option.bind_some]
    split
    · exact ⟨_, _, rfl, hfatal⟩
    · split
      · exact ⟨_, _, rfl, by simp [Context.record, hfatal]⟩
      · rename_i chunk hget
        have hchunks : c₁.chunks = c.chunks := Context.chunks_eq (c := c.skipEmpty) hu₁.setting
        have hlt := Chunks.lt_size_of_get? hget
        have hle : c.cursor ≤ c.skipEmpty.cursor := c.chunks.le_skipEmpty c.cursor
        have hless : c₁.chunks.size - (c.skipEmpty.cursor + 1) < fuel := by
          rw [hchunks] at hlt ⊢
          omega
        obtain ⟨o, c', h, hf'⟩ := untilMatchFrom_of_isHalted hstop fuel (gathered.push chunk)
          (c := c₁.moveTo (c.skipEmpty.cursor + 1)) (hu₁.isHalted hh) hless
        exact ⟨o, c', h, hf'.trans hfatal⟩

namespace Repetition

/-- The walks of a repetition stand still. -/
structure StandsStill (r : Repetition σ α β γ) : Prop where
  element : Walk.StandsStill r.element
  separator : ∀ w ∈ r.separator, Walk.StandsStill w
  stop : ∀ w ∈ r.stop, Walk.StandsStill w

theorem stopsAt_standsStill {r : Repetition σ α β γ} (hr : r.StandsStill) {c : Context σ}
    (hh : c.isHalted = true) : ∃ b c', r.stopsAt c = some (b, c') ∧ Unmoved c c' := by
  unfold stopsAt
  split
  · exact ⟨false, c, rfl, .refl c⟩
  · rename_i stop hstop
    exact probe_standsStill (hr.stop stop hstop) hh

theorem separates_standsStill {r : Repetition σ α β γ}
    (hsep : ∀ w ∈ r.separator, Walk.StandsStill w) {c : Context σ} (hh : c.isHalted = true) :
    ∃ b c', r.separates c = some (b, c') ∧ Unmoved c c' := by
  unfold separates
  split
  · exact ⟨true, c, rfl, .refl c⟩
  · rename_i separator hs
    obtain ⟨o₁, c₁, h₁, hu₁⟩ := hsep separator hs hh
    exact ⟨o₁.isSuccess, c₁, by simp [h₁], hu₁⟩

/-- A round whose element stops the parse is the last one: if the element succeeds it has not
moved. The cursor goes back to the place behind the last element, or to where the repetition
began. -/
theorem leaves_of_stops {r : Repetition σ α β γ} (hsep : ∀ w ∈ r.separator, Walk.StandsStill w)
    (start rewind : Nat) (values : Array α) {c c₁ : Context σ}
    (h₁ : r.stopsAt c = some (false, c₁)) (h : Stops d c₁ r.element) :
    ∃ o c', r.Leaves start rewind values c o c' ∧ c'.setting = c₁.setting ∧
      c'.fatal = (c₁.halt d).fatal ∧
      (c'.cursor = start ∨ c'.cursor = rewind ∨ c'.cursor = c₁.cursor) := by
  obtain ⟨o₂, c₂, h₂, hu₂⟩ := h
  have hh := c₁.isHalted_halt d
  have hs : (c₁.halt d).setting = c₁.setting := c₁.setting_halt d
  cases o₂ with
  | failure f =>
    by_cases hl : r.least ≤ values.size
    · exact ⟨_, _, .missed h₁ h₂ hl, by simp [hu₂.setting], by simp [hu₂.fatal], by simp⟩
    · exact ⟨_, _, .missedShort h₁ h₂ (by omega), by simp [hu₂.setting], by simp [hu₂.fatal],
        by simp⟩
  | success v =>
    obtain ⟨more, c₃, h₃, hu₃⟩ := separates_standsStill hsep (hu₂.isHalted hh)
    have hu₃ : Unmoved (c₁.halt d) c₃ := hu₂.trans hu₃
    cases more with
    | false =>
      refine ⟨_, _, .last h₁ h₂ h₃, by simp [hu₃.setting], by simp [hu₃.fatal], ?_⟩
      exact .inr (.inr ((Context.cursor_restore _ _).trans hu₂.cursor))
    | true =>
      refine ⟨_, _, .stuck h₁ h₂ h₃ hu₃.cursor, by simp [hu₃.setting], ?_, by simp [Context.record]⟩
      exact (Context.fatal_restore _ _).trans (hu₃.halt hh _).fatal

/-- One round is enough, whether the sign to stop is ahead or not. -/
theorem rounds_of_isHalted {r : Repetition σ α β γ} (hr : r.StandsStill)
    (start : Nat) {fuel : Nat} (hfuel : 0 < fuel) (rewind : Nat) (values : Array α) {c : Context σ}
    (hh : c.isHalted = true) :
    ∃ o c', r.rounds start fuel rewind values c = some (o, c') ∧ c'.setting = c.setting ∧
      c'.fatal = c.fatal ∧ (c'.cursor = start ∨ c'.cursor = rewind ∨ c'.cursor = c.cursor) := by
  obtain ⟨fuel, rfl⟩ : ∃ k, fuel = k + 1 := ⟨fuel - 1, by omega⟩
  by_cases hspent : r.IsSpent values c
  · exact ⟨_, _, rounds_of_isSpent hspent, by simp, by simp, by simp⟩
  obtain ⟨stops, c₁, h₁, hu₁⟩ := stopsAt_standsStill hr hh
  cases stops with
  | true =>
    by_cases hl : r.least ≤ values.size
    · exact ⟨_, _, rounds_of_leaves hspent (.stopped h₁ hl), by simp [hu₁.setting],
        by simp [hu₁.fatal], by simp⟩
    · exact ⟨_, _, rounds_of_leaves hspent (.stoppedShort h₁ (by omega)), by simp [hu₁.setting],
        by simp [Context.record, hu₁.fatal], by simp [Context.record]⟩
  | false =>
    have hh₁ := hu₁.isHalted hh
    obtain ⟨o, c', h, hs, hf, hc⟩ := leaves_of_stops hr.separator start rewind values h₁
      (hr.element.stops (.infiniteLoop none 0) hh₁)
    rw [Context.halt_of_isHalted hh₁, hu₁.fatal] at hf
    rw [hu₁.cursor] at hc
    exact ⟨o, c', rounds_of_leaves hspent h, hs.trans hu₁.setting, hf, hc⟩

/-- A round of a parse that has stopped does not move, so only one of a parse that goes on
leads to another round. -/
theorem Continues.isHalted_eq_false {r : Repetition σ α β γ} (hr : r.StandsStill) {v : α}
    {c c₁ c₂ c₃ : Context σ} (h : r.Continues c v c₁ c₂ c₃) : c.isHalted = false := by
  by_contra hh
  have hh : c.isHalted = true := by simpa using hh
  obtain ⟨_, d₁, h₁, hu₁⟩ := stopsAt_standsStill hr hh
  cases h₁.symm.trans h.stopsAt
  obtain ⟨_, d₂, h₂, hu₂⟩ := hr.element (hu₁.isHalted hh)
  cases h₂.symm.trans h.element
  obtain ⟨_, d₃, h₃, hu₃⟩ := separates_standsStill hr.separator (hu₂.isHalted (hu₁.isHalted hh))
  cases h₃.symm.trans h.separates
  exact h.moved (hu₃.cursor.trans hu₂.cursor)

end Repetition

/-- In front of a chunk a repetition tries its element at least once. -/
theorem repetition_stops {r : Repetition σ α β γ} (hsep : ∀ w ∈ r.separator, StandsStill w)
    (hstop : r.stop = none) {fuel : Nat} (hfuel : 0 < fuel) (hc : c.isExhausted = false)
    (h : Stops d c r.element) : Stops d c (repetition r fuel) := by
  obtain ⟨fuel, rfl⟩ : ∃ k, fuel = k + 1 := ⟨fuel - 1, by omega⟩
  have hspent : ¬ r.IsSpent #[] c := fun hs => by cases hc.symm.trans hs.1
  have h₁ : r.stopsAt c = some (false, c) := by simp [Repetition.stopsAt, hstop]
  obtain ⟨o, c', hl, hs, hf, hcursor⟩ :=
    Repetition.leaves_of_stops hsep c.cursor c.cursor #[] h₁ h
  refine ⟨o, c', Repetition.rounds_of_leaves hspent hl, hs, ?_, hf⟩
  rcases hcursor with hcursor | hcursor | hcursor <;> exact hcursor

theorem repetition_standsStill {r : Repetition σ α β γ} (hr : r.StandsStill) {fuel : Nat}
    (hfuel : 0 < fuel) : StandsStill (repetition r fuel) := by
  intro c hh
  obtain ⟨o, c', h, hs, hf, hc⟩ := Repetition.rounds_of_isHalted hr c.cursor hfuel c.cursor #[] hh
  refine ⟨o, c', h, hs, ?_, hf⟩
  rcases hc with hc | hc | hc <;> exact hc

end Walk

namespace Grammar

variable {rules : RuleTable}

theorem call_standsStill (run : LinkedGrammar → Walk LinkedGrammar Value) (r : RuleRef) :
    Walk.StandsStill (call rules run r) := by
  intro c hh
  unfold call
  split
  · rename_i g _
    exact Walk.inRule_standsStill r.name (run g) hh
  · exact ⟨_, _, rfl, (Unmoved.refl c).halt hh _⟩

theorem repeated_standsStill {run : LinkedGrammar → Walk LinkedGrammar Value} {g : LinkedGrammar}
    {least : Nat} {separator stop : Option LinkedGrammar}
    (hparts : ∀ part ∈ (Grammar.repeated g least separator stop).parts,
      Walk.StandsStill (run part)) :
    Walk.Repetition.StandsStill ⟨run g, least, separator.map run, stop.map run⟩ := by
  obtain ⟨helement, hseparator, hstop⟩ := repeated_walks hparts
  exact ⟨helement, hseparator, hstop⟩

theorem step_standsStill {run : LinkedGrammar → Walk LinkedGrammar Value} {fuel : Nat}
    {g : LinkedGrammar} (hg : g.isNative = false) (hfuel : g.parts = [] ∨ 0 < fuel)
    (hparts : ∀ part ∈ g.parts, Walk.StandsStill (run part)) :
    Walk.StandsStill (step rules fuel run g) := by
  cases g with
  | consume t =>
    refine Walk.StandsStill.map (Walk.standsStill_of_haltedFailure fun c hh => ?_) _
    simp [Walk.consume, hh]
  | behind t =>
    refine Walk.StandsStill.map (Walk.standsStill_of_haltedFailure fun c hh => ?_) _
    simp [Walk.consumeBehind, hh]
  | untilToken t =>
    refine Walk.StandsStill.map (Walk.standsStill_of_haltedFailure fun c hh => ?_) _
    simp [Walk.untilToken, hh]
  | untilMatch g =>
    refine Walk.StandsStill.map (Walk.standsStill_of_haltedFailure fun c hh => ?_) _
    simp [Walk.untilMatch, hh]
  | unit => exact fun c _ => ⟨_, c, rfl, .refl c⟩
  | sequence gs =>
    exact (Walk.sequence_standsStill (List.forall_mem_map.mpr hparts)).map _
  | choice gs => exact Walk.choice_standsStill (List.forall_mem_map.mpr hparts)
  | optional g => exact (Walk.optional_standsStill (hparts g (by simp [parts]))).map _
  | peek g => exact Walk.peek_standsStill (hparts g (by simp [parts]))
  | notAhead g => exact (Walk.notAhead_standsStill (hparts g (by simp [parts]))).map _
  | skipIn skip g => exact Walk.withSkip_standsStill (hparts g (by simp [parts])) skip
  | repeated g least separator stop =>
    have hfuel : 0 < fuel := hfuel.resolve_left (by simp [parts])
    exact (Walk.repetition_standsStill (repeated_standsStill hparts) hfuel).map _
  | rule r => exact call_standsStill run r
  | map f g => exact (hparts g (by simp [parts])).map f
  | discard g => exact (hparts g (by simp [parts])).map _
  | native f => cases hg
  | andThen g f => cases hg

/-- Where a grammar has parts, steps are left for them. -/
theorem parts_eq_nil_or_pos {fuel : Nat} {g : LinkedGrammar} (hfuel : g.extent.depth ≤ fuel + 1) :
    g.parts = [] ∨ 0 < fuel := by
  rcases hparts : g.parts with _ | ⟨part, rest⟩
  · exact .inl rfl
  · have hlt := depth_part (show part ∈ g.parts by simp [hparts])
    have hpos := depth_pos part
    exact .inr (by omega)

/-- With as many steps as the grammar is deep, a grammar that is made of what is built in
stands still. -/
theorem run_standsStill {fuel : Nat} {g : LinkedGrammar} (hg : g.isBuiltIn = true)
    (hfuel : g.extent.depth ≤ fuel) : Walk.StandsStill (run rules fuel g) := by
  induction fuel generalizing g with
  | zero =>
    have := depth_pos g
    omega
  | succ fuel ih =>
    refine step_standsStill (by simpa using all_self hg) (parts_eq_nil_or_pos hfuel)
      fun part hm => ?_
    have hlt := depth_part hm
    exact ih (isBuiltIn_part hg hm) (by omega)

end Grammar

end Chunkwise
