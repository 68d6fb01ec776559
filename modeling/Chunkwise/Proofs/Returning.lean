import Chunkwise.Proofs.Cases

/-! Putting the cursor back. The walks that a walk is made of may leave the cursor anywhere when
they fail, and move it back when they succeed; the walk that is made of them is back where it
started when it fails, whatever they do. A repetition that matches stands where its last element
left the cursor. Only a walk under another skip rule leaves the cursor where its part does. -/

namespace Chunkwise

namespace Walk

variable {σ α β γ : Type}

/-- A walk that is back where it started wherever it fails. -/
def Returns (w : Walk σ α) : Prop :=
  ∀ ⦃c f c'⦄, w c = some (.failure f, c') → c'.cursor = c.cursor

/-- A walk that leaves the cursor where it is, whether it succeeds or fails. -/
def Stays (w : Walk σ α) : Prop :=
  ∀ ⦃c o c'⦄, w c = some (o, c') → c'.cursor = c.cursor

/-! ## Combined walks -/

theorem sequence_returns (ws : List (Walk σ α)) : Returns (sequence ws) := by
  intro c f c' h
  obtain ⟨⟨o₁, c₁⟩, _, h⟩ := Option.bind_eq_some_iff.mp h
  cases o₁ with
  | success vs => cases h
  | failure f => cases h; exact Context.cursor_restore c₁ c.cursor

theorem tryEach_returns : ∀ (ws : List (Walk σ α)) {before c f c'},
    tryEach c.cursor before ws c = some (.failure f, c') → c'.cursor = c.cursor
  | [], some _, _, _, _, h => by cases h; rfl
  | [], none, _, _, _, h => by cases h; rfl
  | w :: ws, before, c, f, c', h => by
    rw [tryEach] at h
    obtain ⟨⟨o₁, c₁⟩, _, h⟩ := Option.bind_eq_some_iff.mp h
    cases o₁ with
    | success v => cases h
    | failure f₁ =>
      have h : tryEach (c₁.restore c.cursor).cursor (some (.deepest before f₁)) ws
          (c₁.restore c.cursor) = some (.failure f, c') := by simpa using h
      rw [tryEach_returns ws h, Context.cursor_restore]

theorem choice_returns (ws : List (Walk σ α)) : Returns (choice ws) :=
  fun _ _ _ h => tryEach_returns ws h

/-- An optional walk succeeds, and without a value it is where it started. -/
theorem optional_cases {w : Walk σ α} {c : Context σ} {o c'}
    (h : optional w c = some (o, c')) :
    (∃ v, o = .success (some v)) ∨ (o = .success none ∧ c'.cursor = c.cursor) := by
  obtain ⟨⟨o₁, c₁⟩, _, h⟩ := Option.bind_eq_some_iff.mp h
  cases o₁ with
  | success v => cases h; exact .inl ⟨v, rfl⟩
  | failure f => cases h; exact .inr ⟨rfl, Context.cursor_restore c₁ c.cursor⟩

theorem peek_stays (w : Walk σ α) : Stays (peek w) := by
  intro c o c' h
  obtain ⟨⟨o₁, c₁⟩, _, h⟩ := Option.bind_eq_some_iff.mp h
  cases h
  exact Context.cursor_restore c₁ c.cursor

theorem probe_stays {w : Walk σ α} {c b c'} (h : probe w c = some (b, c')) :
    c'.cursor = c.cursor := by
  obtain ⟨⟨o₁, c₁⟩, h₁, h⟩ := Option.bind_eq_some_iff.mp h
  cases h
  exact peek_stays w h₁

theorem notAhead_stays (w : Walk σ α) : Stays (notAhead w) := by
  intro c o c' h
  obtain ⟨⟨matched, c₁⟩, h₁, h⟩ := Option.bind_eq_some_iff.mp h
  have hc : c₁.cursor = c.cursor := probe_stays h₁
  cases matched with
  | true => cases h; exact hc
  | false => cases h; exact hc

/-- A walk under another skip rule ends where it ends by itself, wherever that is. -/
theorem cursor_withSkip {skip : σ} {w : Walk σ α} {c o c'}
    (h : withSkip skip w c = some (o, c')) :
    ∃ c₁, w (c.withSkip (some skip)) = some (o, c₁) ∧ c'.cursor = c₁.cursor := by
  obtain ⟨⟨o₁, c₁⟩, h₁, h⟩ := Option.bind_eq_some_iff.mp h
  cases h
  exact ⟨c₁, h₁, rfl⟩

/-! ## Repetition -/

/-- The walk, and beside its value the place where it leaves the cursor. -/
def placed (w : Walk σ α) : Walk σ (α × Nat) := fun c => do
  let (o, c') ← w c
  some (o.map (·, c'.cursor), c')

namespace Repetition

/-- The repetition with the place that each element leaves. -/
def placed (r : Repetition σ α β γ) : Repetition σ (α × Nat) β γ :=
  ⟨r.element.placed, r.least, r.separator, r.stop⟩

variable {r : Repetition σ α β γ}

theorem least_placed : r.placed.least = r.least := rfl

theorem placed_element_success {c v c'} (h : r.element c = some (.success v, c')) :
    r.placed.element c = some (.success (v, c'.cursor), c') := by
  simp [placed, Walk.placed, h, Outcome.map]

theorem placed_element_failure {c f c'} (h : r.element c = some (.failure f, c')) :
    r.placed.element c = some (.failure f, c') := by
  simp [placed, Walk.placed, h, Outcome.map]

/-- The place behind the last one of the elements found, or the start if there is none. -/
def behindLast (start : Nat) (found : List (α × Nat)) : Nat :=
  (found.getLast?.map Prod.snd).getD start

/-- A round that ends a repetition well ends it in the same context when the places are kept,
and there the cursor is behind the last element. -/
theorem Leaves.placed {start rewind : Nat} {found : Array (α × Nat)} {c vs c'}
    (hrewind : rewind = behindLast start found.toList)
    (h : r.Leaves start rewind (found.map Prod.fst) c (.success vs) c') :
    ∃ found', r.placed.Leaves start rewind found c (.success found') c' ∧
      found'.map Prod.fst = vs ∧ c'.cursor = behindLast start found' := by
  have hbehind : ∀ d : Context σ, (d.restore rewind).cursor = behindLast start found.toList :=
    fun d => (Context.cursor_restore d rewind).trans hrewind
  generalize ho : Outcome.success vs = o at h
  cases h with
  | exhausted hexhausted hleast =>
    cases ho
    exact ⟨found.toList, .exhausted hexhausted (by simpa [least_placed] using hleast), by simp,
      hbehind _⟩
  | stopped hstops hleast =>
    cases ho
    exact ⟨found.toList, .stopped hstops (by simpa [least_placed] using hleast), by simp, hbehind _⟩
  | missed hstops helement hleast =>
    cases ho
    exact ⟨found.toList, .missed hstops (placed_element_failure helement)
      (by simpa [least_placed] using hleast), by simp, hbehind _⟩
  | @last c₁ c₂ c₃ v hstops helement hseparates =>
    cases ho
    refine ⟨(found.push (v, c₂.cursor)).toList,
      .last hstops (placed_element_success helement) hseparates, by simp, ?_⟩
    simp [behindLast]
  | stoppedShort | missedShort | stuck => cases ho

theorem rounds_placed {start : Nat} : ∀ {fuel rewind} {found : Array (α × Nat)} {c vs c'},
    rewind = behindLast start found.toList →
    r.rounds start fuel rewind (found.map Prod.fst) c = some (.success vs, c') →
    ∃ found', r.placed.rounds start fuel rewind found c = some (.success found', c') ∧
      found'.map Prod.fst = vs ∧ c'.cursor = behindLast start found'
  | 0, _, _, _, _, _, _, h => by cases h
  | fuel + 1, rewind, found, c, vs, c', hrewind, h => by
    by_cases hspent : r.IsSpent (found.map Prod.fst) c
    · have hspent' : r.placed.IsSpent found c := by simpa [IsSpent, placed] using hspent
      rw [rounds_of_isSpent hspent] at h
      rw [rounds_of_isSpent hspent']
      cases h
      exact ⟨found.toList, rfl, by simp, (Context.cursor_restore c rewind).trans hrewind⟩
    have hspent' : ¬ r.placed.IsSpent found c := by simpa [IsSpent, placed] using hspent
    rcases rounds_cases h with hleaves | ⟨v, c₁, c₂, c₃, hgo, h⟩
    · obtain ⟨found', hleaves', hvs, hc⟩ := hleaves.placed hrewind
      exact ⟨found', rounds_of_leaves hspent' hleaves', hvs, hc⟩
    · have hgo' : r.placed.Continues c (v, c₂.cursor) c₁ c₂ c₃ :=
        ⟨hgo.stopsAt, placed_element_success hgo.element, hgo.separates, hgo.moved⟩
      rw [rounds_of_continues hspent' hgo']
      exact rounds_placed (by simp [behindLast]) (by simpa using h)

theorem Leaves.returns {start rewind : Nat} {values : Array α} {c f c'}
    (h : r.Leaves start rewind values c (.failure f) c') : c'.cursor = start := by
  cases h with
  | stoppedShort | missedShort | stuck => exact Context.cursor_restore _ start

theorem rounds_returns {start : Nat} : ∀ {fuel rewind values c f c'},
    r.rounds start fuel rewind values c = some (.failure f, c') → c'.cursor = start
  | 0, _, _, _, _, _, h => by cases h
  | fuel + 1, _, _, _, _, _, h => by
    rcases rounds_cases h with hleaves | ⟨v, c₁, c₂, c₃, _, h⟩
    · exact hleaves.returns
    · exact rounds_returns h

end Repetition

theorem repetition_returns (r : Repetition σ α β γ) (fuel : Nat) : Returns (repetition r fuel) :=
  fun _ _ _ h => Repetition.rounds_returns h

/-- A repetition that matches is behind its last element, and not behind a separator. -/
theorem repetition_behindLast {r : Repetition σ α β γ} {fuel : Nat} {c vs c'}
    (h : repetition r fuel c = some (.success vs, c')) :
    ∃ found, repetition r.placed fuel c = some (.success found, c') ∧
      found.map Prod.fst = vs ∧ c'.cursor = Repetition.behindLast c.cursor found := by
  have h : r.rounds c.cursor fuel c.cursor ((#[] : Array (α × Nat)).map Prod.fst) c
      = some (.success vs, c') := by simpa [repetition] using h
  exact Repetition.rounds_placed rfl h

/-- **Combined walks put the cursor back on behalf of their parts**, whatever those do. A sequence,
a choice, an optional walk and a repetition that fail are where they started, and so is an optional
walk without a value; looking ahead never moves; a repetition that matches is where its last element
left the cursor. Only a walk under another skip rule is left to put the cursor back itself. -/
theorem combined_walks_put_back (w : Walk σ α) (ws : List (Walk σ α)) (r : Repetition σ α β γ)
    (skip : σ) (fuel : Nat) :
    Returns (sequence ws) ∧ Returns (choice ws) ∧ Returns (optional w) ∧
    (∀ c c', optional w c = some (.success none, c') → c'.cursor = c.cursor) ∧
    Stays (peek w) ∧ Stays (notAhead w) ∧ Returns (repetition r fuel) ∧
    (∀ c vs c', repetition r fuel c = some (.success vs, c') →
      ∃ found, repetition r.placed fuel c = some (.success found, c') ∧
        found.map Prod.fst = vs ∧ c'.cursor = Repetition.behindLast c.cursor found) ∧
    ∀ c o c', withSkip skip w c = some (o, c') →
      ∃ c₁, w (c.withSkip (some skip)) = some (o, c₁) ∧ c'.cursor = c₁.cursor := by
  refine ⟨sequence_returns ws, choice_returns ws, ?_, ?_, peek_stays w, notAhead_stays w,
    repetition_returns r fuel, fun _ _ _ h => repetition_behindLast h,
    fun _ _ _ h => cursor_withSkip h⟩
  · intro c f c' h
    rcases optional_cases h with ⟨v, ho⟩ | ⟨ho, _⟩
    · cases ho
    · cases ho
  · intro c c' h
    rcases optional_cases h with ⟨v, ho⟩ | ⟨_, hc⟩
    · cases ho
    · exact hc

/-- A repetition of a walk that steps back. What stands between the steps and what would stop them
leave the chunks. -/
def Repetition.backward : Repetition Unit Nat Unit Unit where
  element c := some (.success c.cursor, c.moveTo (c.cursor - 1))
  separator := some fun c => some (.success (), c.moveTo 7)
  stop := some fun c => some (.failure ⟨5, .unexpected⟩, c.moveTo 5)

theorem combined_walks_put_back_backward :
    ∃ c', repetition .backward 3 { chunks := ⟨#["a", "b"]⟩, cursor := 1 }
      = some (.success [1], c') ∧ c'.cursor = 0 := by
  have hrun : ∃ c', repetition .backward 3 { chunks := ⟨#["a", "b"]⟩, cursor := 1 }
      = some (.success [1], c') := ⟨_, rfl⟩
  obtain ⟨c', h⟩ := hrun
  obtain ⟨_, _, _, _, _, _, _, hbehind, _⟩ :=
    combined_walks_put_back Repetition.backward.element [] .backward () 3
  obtain ⟨found, hplaced, _, hc⟩ := hbehind _ _ _ h
  have hrun' : repetition Repetition.backward.placed 3 { chunks := ⟨#["a", "b"]⟩, cursor := 1 }
      = some (.success [(1, 0)], c') := by
    cases h
    rfl
  cases hplaced.symm.trans hrun'
  exact ⟨c', h, hc⟩

end Walk

namespace Grammar

/-- A walk under another skip rule that fails behind the first letter stays there. -/
theorem skipIn_does_not_put_back :
    ∃ c', run #[] 4 (.skipIn (.consume (.literal 0 "a"))
        (.andThen (.native fun c => c.fail 0 .unexpected) fun o c => (o, c.moveTo 1)))
        { chunks := ⟨#["", "a", ""]⟩ } = some (.failure ⟨0, .unexpected⟩, c') ∧ c'.cursor ≠ 0 :=
  ⟨_, rfl, by decide⟩

end Grammar

end Chunkwise
