import Chunkwise.Proofs.Likeness

/-! Two walks side by side. A relation of contexts that shows walks all that they look at, and
that outlasts every change of the context, holds as long as two walks go on from related
contexts. So in both of them a grammar comes to the same outcome, and leaves related contexts
again. -/

namespace Chunkwise

variable {σ β γ : Type}

/-- Related contexts look alike to a walk, and stay related whatever it does in both of
them. -/
structure Bisimulation (L : Context σ → Context σ → Prop) : Prop where
  view : ∀ {c c'}, L c c' → c'.view = c.view
  moveTo : ∀ {c c'}, L c c' → ∀ i, L (c.moveTo i) (c'.moveTo i)
  note : ∀ {c c'}, L c c' → ∀ f, L (c.note f) (c'.note f)
  withSkip : ∀ {c c'}, L c c' → ∀ skip : Option σ, L (c.withSkip skip) (c'.withSkip skip)
  withSkipping : ∀ {c c'}, L c c' → ∀ skipping, L { c with skipping } { c' with skipping }
  record : ∀ {c c'}, L c c' → ∀ f, L (c.record f) (c'.record f)
  halt : ∀ {c c'}, L c c' → ∀ d, L (c.halt d) (c'.halt d)
  stuck : ∀ {c c'}, L c c' → ∀ round, L (c.halt (c.stuckAt round)) (c'.halt (c'.stuckAt round))
  enterRule : ∀ {c c'}, L c c' → ∀ name,
    (c'.enterRule name).1 = (c.enterRule name).1 ∧ L (c.enterRule name).2 (c'.enterRule name).2
  exitRule : ∀ {c c'}, L c c' → ∀ matched, L (c.exitRule matched) (c'.exitRule matched)
  /-- The record of failures from before is put back. -/
  forget : ∀ {c c' d d'}, L c c' → L d d' →
    L { d with deepest := c.deepest } { d' with deepest := c'.deepest }

namespace Told

variable {S : σ → Prop} {L : Context σ → Context σ → Prop}

/-- From related contexts the second walk ends like the first one, in related contexts. -/
def Bisimilar (L : Context σ → Context σ → Prop) (S : σ → Prop) (x y : Told σ β) : Prop :=
  ∀ ⦃c c' : Context σ⦄, L c c' → (∀ s ∈ c.skip, S s) → ∀ ⦃b d⦄, (x c).ending = some (b, d) →
    (∀ s ∈ d.skip, S s) ∧ ∃ d', (y c').ending = some (b, d') ∧ L d d'

theorem Bisimilar.bind {x y : Told σ β} {f g : β → Told σ γ} (hx : Bisimilar L S x y)
    (hf : ∀ b, Bisimilar L S (f b) (g b)) : Bisimilar L S (x >>= f) (y >>= g) := by
  intro c c' hc hskip b d h
  have h : Told.forget (x >>= f) c = some (b, d) := h
  rw [forget_bind] at h
  obtain ⟨⟨b₁, d₁⟩, h₁, h⟩ := Option.bind_eq_some_iff.mp h
  obtain ⟨hs₁, d₁', h₁', hd₁⟩ := hx hc hskip h₁
  obtain ⟨hs, d', h', hd⟩ := hf b₁ hd₁ hs₁ h
  refine ⟨hs, d', ?_, hd⟩
  show Told.forget (y >>= g) c' = some (b, d')
  rw [forget_bind]
  exact Option.bind_eq_some_iff.mpr ⟨(b₁, d₁'), h₁', h'⟩

theorem bisimilar_become {change : Change} {f : Context σ → Context σ}
    (hrelated : ∀ {c c'}, L c c' → L (f c) (f c'))
    (hskip : ∀ {c : Context σ}, (∀ s ∈ c.skip, S s) → ∀ s ∈ (f c).skip, S s) :
    Bisimilar L S (become change f) (become change f) := by
  intro c c' hc hS b d h
  cases h
  exact ⟨hskip hS, f c', rfl, hrelated hc⟩

theorem bisimilar_enterRule (hL : Bisimulation L) (name : String) :
    Bisimilar L S (enterRule name) (enterRule name) := by
  intro c c' hc hS b d h
  have hends : ∀ c : Context σ, (enterRule name c).ending = some (c.enterRule name) :=
    forget_enterRule name
  have hskip : (c.enterRule name).2.skip = c.skip := by
    unfold Context.enterRule
    split
    · rfl
    · split <;> rfl
  rw [hends] at h
  obtain ⟨he, hd⟩ := hL.enterRule hc name
  rcases hce : c.enterRule name with ⟨b', d'⟩
  rw [hce] at h hskip he hd
  cases h
  have hfirst : (c'.enterRule name).1 = b := he
  exact ⟨by rwa [← hskip] at hS, (c'.enterRule name).2, by rw [hends, ← hfirst], hd⟩

theorem Bisimilar.aside (hL : Bisimulation L) {x y : Told σ β} (hx : Bisimilar L S x y) :
    Bisimilar L S (aside x) (aside y) := by
  intro c c' hc hS b d h
  obtain ⟨d₁, h₁, rfl⟩ := ending_aside_eq_some.mp h
  obtain ⟨hs, d₁', h₁', hd⟩ := hx hc hS h₁
  exact ⟨hs, _, ending_aside_eq_some.mpr ⟨d₁', h₁', rfl⟩, hL.forget hc hd⟩

/-- All ways to make a telling walk keep related contexts related. -/
theorem bisimilar_likeness (hL : Bisimulation L) :
    Likeness S (fun _ _ => True) fun _ x y => Bisimilar L S x y where
  pure b := by
    intro c c' hc hS b d h
    cases h
    exact ⟨hS, c', rfl, hc⟩
  bind hx hf := hx.bind hf
  never := by
    intro β y _ c c' _ _ b d h
    cases h
  look := by
    intro β f g hf c c' hc hS b d h
    obtain ⟨hs, d', h', hd⟩ := hf c.view hS hc hS h
    refine ⟨hs, d', ?_, hd⟩
    rw [← hL.view hc] at h'
    exact h'
  moveTo i := bisimilar_become (fun h => hL.moveTo h i) fun hS => hS
  note f := bisimilar_become (fun h => hL.note h f) fun hS => hS
  setSkip hskip := bisimilar_become (fun h => hL.withSkip h _) fun _ => hskip
  setSkipping b := bisimilar_become (fun h => hL.withSkipping h b) fun hS => hS
  record f := bisimilar_become (fun h => hL.record h f) fun hS => hS
  findUnresolved name := bisimilar_become (fun h => hL.halt h _) fun hS => hS
  findStuck round := by
    intro c c' hc hS b d h
    cases h
    exact ⟨hS, _, rfl, hL.stuck hc round⟩
  enterRule name := bisimilar_enterRule hL name
  exitRule matched := by
    refine bisimilar_become (fun h => hL.exitRule h matched) fun {c} hS => ?_
    unfold Context.exitRule
    split <;> exact hS
  aside hx := hx.aside hL

end Told

namespace Grammar

variable {rules : RuleTable} {L : Context LinkedGrammar → Context LinkedGrammar → Prop}

/-- From related contexts a grammar comes to the same outcome, in related contexts. -/
theorem run_bisimilar (hL : Bisimulation L) (hrules : ∀ g ∈ rules, g.isBuiltIn = true)
    {fuel : Nat} {g : LinkedGrammar} (hg : g.isBuiltIn = true) {c c' d : Context LinkedGrammar}
    {o : Outcome Value} (hc : L c c') (hskip : ∀ s ∈ c.skip, s.isBuiltIn = true)
    (h : run rules fuel g c = some (o, d)) : ∃ d', run rules fuel g c' = some (o, d') ∧ L d d' := by
  rw [← ending_tell] at h
  obtain ⟨_, d', h', hd⟩ := tell_alike (Told.bisimilar_likeness hL) hrules hg hc hskip h
  exact ⟨d', (ending_tell ..).symm.trans h', hd⟩

end Grammar

end Chunkwise
