import Chunkwise.Proofs.Discipline
import Chunkwise.Proofs.Bisimulation

/-! What a walk does not look at: the trace, the deepest failure, which defect stopped the
parse, and which rules are open, as long as equally many are. In two contexts that differ in
nothing else a grammar comes to the same outcome, and leaves contexts that differ in nothing
else. -/

namespace Chunkwise

/-- The two contexts differ only in what walks do not look at. How many rules are open
matters only under a limit. -/
structure Context.Like {σ : Type} (c c' : Context σ) : Prop where
  view : c'.view = c.view
  recursionLimit : c'.recursionLimit = c.recursionLimit
  ruleStack : c.recursionLimit = none ∨ c'.ruleStack.length = c.ruleStack.length

namespace Context.Like

variable {σ : Type} {c c' : Context σ}

theorem cursor (h : c.Like c') : c'.cursor = c.cursor := congrArg View.cursor h.view

theorem isHalted (h : c.Like c') : c'.isHalted = c.isHalted := congrArg View.halted h.view

theorem note (h : c.Like c') (f f' : Trace → Trace) : (c.note f).Like (c'.note f') :=
  ⟨h.view, h.recursionLimit, h.ruleStack⟩

/-- Two contexts of one setting look alike if they are at one place and stopped or not. -/
theorem of_setting (hs : c'.setting = c.setting) (hc : c'.cursor = c.cursor)
    (hh : c'.isHalted = c.isHalted) : c.Like c' := by
  refine ⟨?_, congrArg Setting.recursionLimit hs,
    .inr (congrArg (fun s : Setting σ => s.ruleStack.length) hs)⟩
  show View.mk _ _ _ _ _ = View.mk _ _ _ _ _
  rw [hc, hh]
  exact congrArg (fun s : Setting σ => View.mk s.chunks c.cursor s.skip s.skipping c.isHalted) hs

theorem moveTo (h : c.Like c') (i : Nat) : (c.moveTo i).Like (c'.moveTo i) :=
  ⟨congrArg (fun v : View σ => { v with cursor := i }) h.view, h.recursionLimit, h.ruleStack⟩

theorem restore (h : c.Like c') (i : Nat) : (c.restore i).Like (c'.restore i) := by
  unfold Context.restore
  rw [h.cursor]
  split
  · exact h
  · exact (h.note _ _).moveTo i

theorem withSkip (h : c.Like c') (skip : Option σ) : (c.withSkip skip).Like (c'.withSkip skip) :=
  ⟨congrArg (fun v : View σ => { v with skip }) h.view, h.recursionLimit, h.ruleStack⟩

theorem withSkipping (h : c.Like c') (skipping : Bool) :
    Like { c with skipping } { c' with skipping } :=
  ⟨congrArg (fun v : View σ => { v with skipping }) h.view, h.recursionLimit, h.ruleStack⟩

theorem withDeepest (h : c.Like c') (deepest deepest' : Option Failure) :
    Like { c with deepest } { c' with deepest := deepest' } :=
  ⟨h.view, h.recursionLimit, h.ruleStack⟩

theorem halt (h : c.Like c') (d d' : Defect) : (c.halt d).Like (c'.halt d') := by
  have hsome : ∀ (c : Context σ) (d : Defect), (c.halt d).isHalted = true := by
    intro c d
    unfold Context.halt Context.isHalted
    cases c.fatal <;> rfl
  have hview : ∀ (c : Context σ) (d : Defect), (c.halt d).view = { c.view with halted := true } :=
    fun c d => congrArg (fun halted => { c.view with halted }) (hsome c d)
  refine ⟨?_, h.recursionLimit, h.ruleStack⟩
  rw [hview, hview, h.view]

theorem exceededLimit? (h : c.Like c') : c'.exceededLimit? = c.exceededLimit? := by
  unfold Context.exceededLimit?
  rw [h.recursionLimit]
  rcases h.ruleStack with hnone | hlength
  · rw [hnone]
    rfl
  · rw [hlength]

theorem pushRule (h : c.Like c') (name name' : String) :
    (c.pushRule name).Like (c'.pushRule name') :=
  ⟨h.view, h.recursionLimit, h.ruleStack.imp_right fun he => congrArg (· + 1) he⟩

theorem enterRule (h : c.Like c') (name : String) :
    (c'.enterRule name).1 = (c.enterRule name).1 ∧
      (c.enterRule name).2.Like (c'.enterRule name).2 := by
  unfold Context.enterRule
  rw [h.isHalted, h.exceededLimit?]
  split
  · exact ⟨rfl, h⟩
  · split
    · exact ⟨rfl, h.halt _ _⟩
    · exact ⟨rfl, h.pushRule name name⟩

theorem exitRule (h : c.Like c') (matched : Bool) :
    (c.exitRule matched).Like (c'.exitRule matched) := by
  have hlength : ∀ c : Context σ,
      (c.exitRule matched).ruleStack.length = c.ruleStack.length - 1 := by
    intro c
    unfold Context.exitRule
    cases hs : c.ruleStack with
    | nil => simp [hs]
    | cons name outer => simp
  have hsame : ∀ c : Context σ, (c.exitRule matched).view = c.view ∧
      (c.exitRule matched).recursionLimit = c.recursionLimit := by
    intro c
    unfold Context.exitRule
    split <;> exact ⟨rfl, rfl⟩
  refine ⟨?_, ?_, ?_⟩
  · rw [(hsame c).1, (hsame c').1, h.view]
  · rw [(hsame c).2, (hsame c').2, h.recursionLimit]
  · rw [(hsame c).2, hlength, hlength]
    exact h.ruleStack.imp_right fun he => congrArg (· - 1) he

end Context.Like

/-- Whatever a walk does, contexts that look alike still look alike behind it. -/
theorem like_bisimulation {σ : Type} : Bisimulation (fun c c' : Context σ => c.Like c') where
  view h := h.view
  moveTo h i := h.moveTo i
  note h f := h.note f f
  withSkip h skip := h.withSkip skip
  withSkipping h skipping := h.withSkipping skipping
  record h _ := h.withDeepest _ _
  halt h d := h.halt d d
  stuck h _ := h.halt _ _
  enterRule h name := h.enterRule name
  exitRule h matched := h.exitRule matched
  forget _ h := h.withDeepest _ _

namespace Walk

variable {σ ι α β γ : Type} {S : σ → Prop}

/-- In contexts that look alike the walk comes to the same outcome. -/
def Indifferent (S : σ → Prop) (w : Walk σ α) : Prop :=
  ∀ ⦃c c' : Context σ⦄, c.Like c' → (∀ s ∈ c.skip, S s) → ∀ ⦃o d⦄, w c = some (o, d) →
    ∃ d', w c' = some (o, d') ∧ d.Like d'

theorem Indifferent.probe {w : Walk σ α} (hw : Indifferent S w) {c c' : Context σ}
    (hc : c.Like c') (hS : ∀ s ∈ c.skip, S s) {b : Bool} {d : Context σ}
    (h : probe w c = some (b, d)) : ∃ d', Walk.probe w c' = some (b, d') ∧ d.Like d' := by
  obtain ⟨⟨o, c₁⟩, h₁, h⟩ := Option.bind_eq_some_iff.mp h
  obtain ⟨⟨o₂, c₂⟩, h₂, h₁⟩ := Option.bind_eq_some_iff.mp h₁
  cases h₁
  cases h
  obtain ⟨c₂', h₂', hc₂⟩ := hw hc hS h₂
  refine ⟨{ c₂'.restore c'.cursor with deepest := c'.deepest }, by simp [Walk.probe, peek, h₂'], ?_⟩
  rw [hc.cursor]
  exact (hc₂.restore _).withDeepest _ _

end Walk

namespace Grammar

variable {rules : RuleTable}

/-- In contexts that look alike a grammar comes to the same outcome. -/
theorem run_indifferent (hrules : ∀ g ∈ rules, g.isBuiltIn = true) {fuel : Nat}
    {g : LinkedGrammar} (hg : g.isBuiltIn = true) :
    Walk.Indifferent (·.isBuiltIn = true) (run rules fuel g) :=
  fun _ _ hc hskip _ _ h => run_bisimilar like_bisimulation hrules hg hc hskip h

end Grammar

end Chunkwise
