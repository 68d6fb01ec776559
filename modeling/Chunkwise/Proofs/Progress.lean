import Chunkwise.Proofs.Advance

/-! Grammars that take a chunk whenever they match. Which grammars do is read off how they are
written, given the rules of which it is assumed. The assumption may go round in circles: a rule
that matches has been run in fewer steps than what refers to it, so it holds by induction on the
steps of a run. -/

namespace Chunkwise

namespace Grammar

/-- A grammar that cannot match without taking a chunk, if none of the rules `N` can. -/
inductive Consumes {ρ : Type} (N : ρ → Prop) : Grammar ρ → Prop
  | consume {t : Token} : t.isEof = false → Consumes N (.consume t)
  | rule {r : ρ} : N r → Consumes N (.rule r)
  | sequence {gs : List (Grammar ρ)} {g : Grammar ρ} :
      g ∈ gs → Consumes N g → Consumes N (.sequence gs)
  | choice {gs : List (Grammar ρ)} :
      gs ≠ [] → (∀ g ∈ gs, Consumes N g) → Consumes N (.choice gs)
  | repeated {g : Grammar ρ} {least : Nat} (separator stop : Option (Grammar ρ)) :
      1 ≤ least → Consumes N g → Consumes N (.repeated g least separator stop)
  | skipIn {g : Grammar ρ} (skip : Grammar ρ) : Consumes N g → Consumes N (.skipIn skip g)
  | map {g : Grammar ρ} (f : Value → Value) : Consumes N g → Consumes N (.map f g)
  | discard {g : Grammar ρ} : Consumes N g → Consumes N (.discard g)

end Grammar

namespace Walk

variable {σ α β γ : Type} {S : σ → Prop}

/-- Wherever the walk succeeds, it has moved forward. -/
def Gains (S : σ → Prop) (w : Walk σ α) : Prop :=
  ∀ ⦃c v c'⦄, (∀ s ∈ c.skip, S s) → w c = some (.success v, c') → c.cursor < c'.cursor

theorem Gains.map {w : Walk σ α} (hw : Gains S w) (f : α → β) : Gains S (w.map f) := by
  intro c v c' hS h
  obtain ⟨⟨o₁, c₁⟩, h₁, he⟩ := Option.map_eq_some_iff.mp h
  cases o₁ with
  | failure f => cases he
  | success u => cases he; exact hw hS h₁

/-! ## Combined walks -/

/-- One of the walks moves forward, and the others do not move back. -/
theorem inTurn_gains : ∀ {ws : List (Walk σ α)}, (∀ w ∈ ws, Tidy S w) →
    (∀ w ∈ ws, Travels S Advance w) → ∀ {w}, w ∈ ws → Gains S w → Gains S (inTurn ws)
  | u :: ws, ht, hw, w, hm, hg, c, v, c', hS, h => by
    obtain ⟨⟨o₁, c₁⟩, h₁, h⟩ := Option.bind_eq_some_iff.mp h
    cases o₁ with
    | failure f => cases h
    | success v₁ =>
      obtain ⟨⟨o₂, c₂⟩, h₂, h⟩ := Option.bind_eq_some_iff.mp h
      cases o₂ with
      | failure f => cases h
      | success vs =>
        cases h
        have hS₁ := Context.skip_of_setting (ht u (by simp) hS h₁).setting hS
        have htail : ∀ w ∈ ws, Tidy S w := fun w hm => ht w (by simp [hm])
        have hws : ∀ w ∈ ws, Travels S Advance w := fun w hm => hw w (by simp [hm])
        rcases List.mem_cons.mp hm with rfl | hm
        · exact Nat.lt_of_lt_of_le (hg hS h₁)
            (inTurn_travels travel_advance htail hws hS₁ h₂).1
        · exact Nat.lt_of_le_of_lt (hw u (by simp) hS h₁).1
            (inTurn_gains htail hws hm hg hS₁ h₂)

theorem sequence_gains {ws : List (Walk σ α)} (hws : Gains S (inTurn ws)) :
    Gains S (sequence ws) := by
  intro c v c' hS h
  obtain ⟨⟨o₁, c₁⟩, h₁, h⟩ := Option.bind_eq_some_iff.mp h
  cases o₁ with
  | failure f => cases h
  | success vs => cases h; exact hws hS h₁

theorem tryEach_gains : ∀ {ws : List (Walk σ α)}, (∀ w ∈ ws, Tidy S w) → (∀ w ∈ ws, Gains S w) →
    ∀ {before c v c'}, (∀ s ∈ c.skip, S s) →
      tryEach c.cursor before ws c = some (.success v, c') → c.cursor < c'.cursor
  | [], _, _, some f, _, _, _, _, h => by cases h
  | [], _, _, none, _, _, _, _, h => by cases h
  | w :: ws, ht, hw, before, c, v, c', hS, h => by
    rw [tryEach] at h
    obtain ⟨⟨o₁, c₁⟩, h₁, h⟩ := Option.bind_eq_some_iff.mp h
    cases o₁ with
    | success u => cases h; exact hw w (by simp) hS h₁
    | failure f =>
      have hs : (c₁.restore c.cursor).setting = c.setting := by
        simpa using (ht w (by simp) hS h₁).setting
      have h : tryEach (c₁.restore c.cursor).cursor (some (.deepest before f)) ws
          (c₁.restore c.cursor) = some (.success v, c') := by simpa using h
      have hlt := tryEach_gains (fun w hm => ht w (by simp [hm])) (fun w hm => hw w (by simp [hm]))
        (Context.skip_of_setting hs hS) h
      rwa [Context.cursor_restore] at hlt

theorem choice_gains {ws : List (Walk σ α)} (ht : ∀ w ∈ ws, Tidy S w) (hw : ∀ w ∈ ws, Gains S w) :
    Gains S (choice ws) := fun _ _ _ hS h => tryEach_gains ht hw hS h

theorem withSkip_gains {w : Walk σ α} {skip : σ} (hskip : S skip) (hw : Gains S w) :
    Gains S (withSkip skip w) := by
  intro c v c' hS h
  obtain ⟨⟨o₁, c₁⟩, h₁, h⟩ := Option.bind_eq_some_iff.mp h
  have hS₁ : ∀ s ∈ (c.withSkip (some skip)).skip, S s := by
    intro s hs
    cases hs
    exact hskip
  cases h
  have hlt := hw hS₁ h₁
  exact hlt

theorem inRule_gains {w : Walk σ α} (hw : Gains S w) (name : String) :
    Gains S (inRule name w) := by
  intro c v c' hS h
  rcases inRule_cases h with ⟨_, ho, _⟩ | ⟨limit, _, _, ho, _⟩ | ⟨c₁, _, _, h₁, rfl⟩
  · cases ho
  · cases ho
  · rw [Context.cursor_exitRule]
    exact hw (c := c.pushRule name) hS h₁

/-! ## Terminals -/

/-- An attempt to skip that moves moves forward, whatever the skip rule is. -/
theorem lt_of_trySkip {run : σ → Walk σ α} {c c' : Context σ}
    (h : trySkip run c = some (true, c')) : c.cursor < c'.cursor := by
  rcases trySkip_cases h with ⟨_, hb, _⟩ | ⟨_, _, _, _, _, _, _, hlt, _, rfl⟩ |
    ⟨_, _, _, _, _, _, _, hb, _⟩
  · cases hb
  · exact hlt
  · cases hb

theorem consumeFrom_gains {skip : Context σ → Option (Bool × Context σ)} {token : Token}
    (htoken : token.isEof = false)
    (hskip : ∀ {c c'}, skip c = some (true, c') → c.cursor < c'.cursor)
    {start : Nat} : ∀ {fuel c v c'},
      consumeFrom skip token start fuel c = some (.success v, c') → c.cursor < c'.cursor
  | 0, _, _, _, h => by cases h
  | fuel + 1, c, v, c', h => by
    have hempty : c.cursor ≤ c.skipEmpty.cursor := c.chunks.le_skipEmpty c.cursor
    rcases consumeFrom_cases h with ⟨_, he, _, _⟩ | ⟨chunk, _, _, _, rfl⟩ | ⟨_, _, ho, _⟩ |
      ⟨c₁, h₁, h⟩
    · cases he.symm.trans htoken
    · exact Nat.lt_succ_of_le hempty
    · cases ho
    · have hlt := hskip h₁
      have hrest := consumeFrom_gains htoken hskip h
      omega

theorem consume_gains {skip : Context σ → Option (Bool × Context σ)} {token : Token} {fuel : Nat}
    (htoken : token.isEof = false)
    (hskip : ∀ {c c'}, skip c = some (true, c') → c.cursor < c'.cursor) :
    Gains S (consume skip token fuel) := by
  intro c v c' _ h
  unfold consume at h
  split at h
  · cases h
  · exact consumeFrom_gains htoken hskip h

/-! ## Repetition -/

namespace Repetition

variable {r : Repetition σ α β γ}

/-- A repetition that needs an element and succeeds has one, and is behind it. -/
theorem rounds_gains (ht : r.Tidy S) (hr : r.Travels S Advance) (hg : Walk.Gains S r.element)
    (hleast : 1 ≤ r.least) {start : Nat} :
    ∀ {fuel rewind values c v c'}, (∀ s ∈ c.skip, S s) → start ≤ c.cursor →
      (1 ≤ values.size → start < rewind) →
      r.rounds start fuel rewind values c = some (.success v, c') → start < c'.cursor
  | 0, _, _, _, _, _, _, _, _, h => by cases h
  | fuel + 1, rewind, values, c, v, c', hS, hc, hrewind, h => by
    have hbehind : ∀ {c₁ : Context σ}, r.least ≤ values.size →
        start < (c₁.restore rewind).cursor := by
      intro c₁ hsize
      rw [Context.cursor_restore]
      exact hrewind (Nat.le_trans hleast hsize)
    -- an element that was found is behind the start
    have helement : ∀ {c₁ u c₂}, r.stopsAt c = some (false, c₁) →
        r.element c₁ = some (.success u, c₂) → start < c₂.cursor := by
      intro c₁ u c₂ h₁ h₂
      obtain ⟨hs₁, hc₁⟩ := stopsAt_still ht hS h₁
      have hlt := hg (Context.skip_of_setting hs₁ hS) h₂
      omega
    rcases rounds_cases h with hl | ⟨u, c₁, c₂, c₃, hgo, h⟩
    · cases hl with
      | exhausted _ hsize => exact hbehind hsize
      | stopped _ hsize => exact hbehind hsize
      | missed _ _ hsize => exact hbehind hsize
      | last h₁ h₂ _ =>
        rw [Context.cursor_restore]
        exact helement h₁ h₂
    · obtain ⟨_, hs₂, hs₃⟩ := hgo.setting ht hS
      have hlt := helement hgo.stopsAt hgo.element
      have hsep := (hgo.travels travel_advance ht hr hS).2.1
      exact rounds_gains ht hr hg hleast (Context.skip_of_setting hs₃ hS) (by omega)
        (fun _ => hlt) h

end Repetition

theorem repetition_gains {r : Repetition σ α β γ} (ht : r.Tidy S) (hr : r.Travels S Advance)
    (hg : Gains S r.element) (hleast : 1 ≤ r.least) {fuel : Nat} :
    Gains S (repetition r fuel) := by
  intro c v c' hS h
  exact Repetition.rounds_gains ht hr hg hleast hS (Nat.le_refl c.cursor) (fun h => by cases h) h

end Walk

/-! ## Grammars -/

namespace Grammar

variable {rules : RuleTable} {N : RuleRef → Prop}

/-- The walk of a grammar moves forward if those of its parts and of the rules do from which
this is concluded. -/
theorem step_gains {run : LinkedGrammar → Walk LinkedGrammar Value} {S : LinkedGrammar → Prop}
    {fuel : Nat} {g : LinkedGrammar} (hc : g.Consumes N)
    (hinstalled : ∀ skip body, g = .skipIn skip body → S skip)
    (hparts : ∀ part ∈ g.parts, Walk.Tidy S (run part) ∧ Walk.Travels S Advance (run part))
    (hgains : ∀ part ∈ g.parts, part.Consumes N → Walk.Gains S (run part))
    (hrules : ∀ r g, N r → rules[r.symbol.index]? = some g → Walk.Gains S (run g)) :
    Walk.Gains S (step rules fuel run g) := by
  cases hc with
  | consume ht => exact (Walk.consume_gains ht Walk.lt_of_trySkip).map _
  | @rule r hr =>
    intro c v c' hS h
    rcases call_cases h with ⟨g, hget, h⟩ | ⟨_, ho, _⟩
    · exact Walk.inRule_gains (hrules r g hr hget) r.name hS h
    · cases ho
  | @sequence gs g hm hg =>
    refine (Walk.sequence_gains (Walk.inTurn_gains ?_ ?_ (List.mem_map_of_mem hm)
      (hgains g hm hg))).map _
    · exact List.forall_mem_map.mpr fun g hm => (hparts g hm).1
    · exact List.forall_mem_map.mpr fun g hm => (hparts g hm).2
  | choice _ hgs =>
    refine Walk.choice_gains ?_ ?_
    · exact List.forall_mem_map.mpr fun g hm => (hparts g hm).1
    · exact List.forall_mem_map.mpr fun g hm => hgains g hm (hgs g hm)
  | @repeated g least separator stop hleast hg =>
    exact (Walk.repetition_gains (repeated_tidy fun part hm => (hparts part hm).1)
      (repeated_travels fun part hm => (hparts part (mem_parts_of_mem_openParts hm)).2)
      (hgains g (by simp [parts]) hg) hleast).map _
  | @skipIn g skip hg =>
    exact Walk.withSkip_gains (hinstalled skip g rfl) (hgains g (by simp [parts]) hg)
  | map f hg => exact (hgains _ (by simp [parts]) hg).map f
  | discard hg => exact (hgains _ (by simp [parts]) hg).map _

/-- A grammar that consumes moves forward wherever it matches, if the rules `N` consume on the
assumption that they do. -/
theorem run_gains (hrules : ∀ g ∈ rules, g.isForward = true)
    (hN : ∀ r g, N r → rules[r.symbol.index]? = some g → g.Consumes N) {fuel : Nat}
    {g : LinkedGrammar} (hg : g.isForward = true) (hc : g.Consumes N) :
    Walk.Gains (·.isForward = true) (run rules fuel g) := by
  induction fuel generalizing g with
  | zero => intro c v c' _ h; cases h
  | succ fuel ih =>
    have htidy : ∀ {g : LinkedGrammar}, g.isForward = true →
        Walk.Tidy (·.isForward = true) (run rules fuel g) := fun hg =>
      (run_tidy (fun g hm => isBuiltIn_of_isForward (hrules g hm)) (isBuiltIn_of_isForward hg)).mono
        fun _ => isBuiltIn_of_isForward
    have hforward : ∀ part ∈ g.parts, part.isForward = true := fun part hm =>
      isForward_part (isCareful_of_isForward hg) (by rintro g' rfl; cases hc)
        (by rintro g' rfl; cases hc) hm
    refine step_gains hc ?_ (fun part hm => ?_) (fun part hm hpart => ?_) fun r g hr hget => ?_
    · rintro skip body rfl
      exact hforward skip (by simp [parts])
    · exact ⟨htidy (hforward part hm), run_travels travel_advance hrules (hforward part hm)⟩
    · exact ih (hforward part hm) hpart
    · exact ih (hrules g (Array.mem_of_getElem? hget)) (hN r g hr hget)

end Grammar

end Chunkwise
