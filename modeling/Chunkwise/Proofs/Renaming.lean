import Chunkwise.Proofs.Cases
import Chunkwise.Proofs.Parts

/-! Skip rules are out of sight. What a walk does depends on the skip rule in force only where
it is run. So where the skip rules of two contexts do alike, and nothing else differs, walks
that are put together in the same way do alike. Along with that goes which defects can stop
them: those of a walk itself, and those that a step of the user's own raises. -/

namespace Chunkwise

variable {σ σ' α β γ δ δ' ε ε' ι : Type} {S : σ → σ' → Prop} {F : Defect → Prop}

/-- The context with another skip rule, which `S` relates to the one in force; and if the parse
was stopped, then by a defect in `F`. -/
inductive Context.Alike (S : σ → σ' → Prop) (F : Defect → Prop) (c : Context σ) :
    Context σ' → Prop
  | intro {skip : Option σ'} : Option.Rel S c.skip skip → (∀ e ∈ c.fatal, F e) →
      Alike S F c (c.withSkip skip)

/-- The same value, and contexts that are alike. -/
def EndsAs (S : σ → σ' → Prop) (F : Defect → Prop) (x : β × Context σ)
    (y : β × Context σ') : Prop :=
  x.1 = y.1 ∧ x.2.Alike S F y.2

namespace Context

variable {c : Context σ} {c' : Context σ'}

theorem restore_withSkip (c : Context σ) (skip : Option σ') (i : Nat) :
    (c.withSkip skip).restore i = (c.restore i).withSkip skip := by
  unfold restore
  by_cases h : i = c.cursor
  · rw [if_pos h]
    exact if_pos h
  · rw [if_neg h]
    exact if_neg h

theorem exitRule_withSkip (c : Context σ) (skip : Option σ') (matched : Bool) :
    (c.withSkip skip).exitRule matched = (c.exitRule matched).withSkip skip := by
  cases hstack : c.ruleStack <;> simp [exitRule, withSkip, note, hstack]

namespace Alike

theorem cursor (h : c.Alike S F c') : c'.cursor = c.cursor := by cases h; rfl

theorem chunks (h : c.Alike S F c') : c'.chunks = c.chunks := by cases h; rfl

theorem deepest (h : c.Alike S F c') : c'.deepest = c.deepest := by cases h; rfl

theorem isHalted (h : c.Alike S F c') : c'.isHalted = c.isHalted := by cases h; rfl

theorem skipping (h : c.Alike S F c') : c'.skipping = c.skipping := by cases h; rfl

theorem skip (h : c.Alike S F c') : Option.Rel S c.skip c'.skip := by
  obtain ⟨hs, _⟩ := h
  exact hs

theorem fatal (h : c.Alike S F c') : ∀ e ∈ c.fatal, F e := by
  obtain ⟨_, he⟩ := h
  exact he

theorem moveTo (h : c.Alike S F c') (i : Nat) : (c.moveTo i).Alike S F (c'.moveTo i) := by
  obtain ⟨hs, he⟩ := h
  exact .intro hs he

theorem note (h : c.Alike S F c') (f : Trace → Trace) : (c.note f).Alike S F (c'.note f) := by
  obtain ⟨hs, he⟩ := h
  exact .intro hs he

theorem restore (h : c.Alike S F c') (i : Nat) : (c.restore i).Alike S F (c'.restore i) := by
  obtain ⟨hs, he⟩ := h
  rw [restore_withSkip]
  refine .intro ?_ ?_ <;> (unfold Context.restore; split <;> assumption)

theorem skipEmpty (h : c.Alike S F c') : c.skipEmpty.Alike S F c'.skipEmpty := by
  obtain ⟨hs, he⟩ := h
  exact .intro hs he

theorem noteMatch (h : c.Alike S F c') (t : Token) :
    (c.noteMatch t).Alike S F (c'.noteMatch t) := by
  obtain ⟨hs, he⟩ := h
  exact .intro hs he

theorem noteMiss (h : c.Alike S F c') (t : Token) : (c.noteMiss t).Alike S F (c'.noteMiss t) := by
  obtain ⟨hs, he⟩ := h
  exact .intro hs he

theorem withDeepest (h : c.Alike S F c') (deepest : Option Failure) :
    Context.Alike S F { c with deepest } { c' with deepest } := by
  obtain ⟨hs, he⟩ := h
  exact .intro hs he

theorem outOfSkip {d : Context σ} {d' : Context σ'} (h : c.Alike S F c') (hd : d.Alike S F d') :
    (Walk.outOfSkip c d).Alike S F (Walk.outOfSkip c' d') := by
  obtain ⟨_, _⟩ := h
  obtain ⟨hs, he⟩ := hd
  exact .intro hs he

theorem withSkip (h : c.Alike S F c') {skip : Option σ} {skip' : Option σ'}
    (hs : Option.Rel S skip skip') : (c.withSkip skip).Alike S F (c'.withSkip skip') := by
  obtain ⟨_, he⟩ := h
  exact .intro hs he

theorem pushRule (h : c.Alike S F c') (name : String) :
    (c.pushRule name).Alike S F (c'.pushRule name) := by
  obtain ⟨hs, he⟩ := h
  exact .intro hs he

theorem exitRule (h : c.Alike S F c') (matched : Bool) :
    (c.exitRule matched).Alike S F (c'.exitRule matched) := by
  obtain ⟨hs, he⟩ := h
  rw [exitRule_withSkip]
  refine .intro ?_ ?_ <;> (unfold Context.exitRule; split <;> assumption)

theorem halt (h : c.Alike S F c') {d : Defect} (hd : F d) : (c.halt d).Alike S F (c'.halt d) := by
  obtain ⟨hs, he⟩ := h
  refine .intro hs fun e hm => ?_
  unfold Context.halt at hm
  cases hfatal : c.fatal with
  | none =>
    rw [hfatal] at hm
    cases hm
    exact hd
  | some e' =>
    rw [hfatal] at hm
    cases hm
    exact he _ hfatal

theorem fail (h : c.Alike S F c') (position : Nat) (expected : Token) :
    EndsAs S F (c.fail position expected : Outcome α × Context σ) (c'.fail position expected) := by
  obtain ⟨hs, he⟩ := h
  exact ⟨rfl, .intro hs he⟩

theorem haltedFailure (h : c.Alike S F c') :
    EndsAs S F ((c.haltedFailure, c) : Outcome α × Context σ) (c'.haltedFailure, c') := by
  obtain ⟨hs, he⟩ := h
  exact ⟨rfl, .intro hs he⟩

end Alike

end Context

namespace Walk

/-! ## Combined walks -/

namespace Repetition

variable {r : Repetition σ α β γ} {r' : Repetition σ' α β γ}

end Repetition

end Walk

end Chunkwise
