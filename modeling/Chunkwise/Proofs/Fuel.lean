import Chunkwise.Grammar.Run

/-! More steps change nothing. A walk that has an outcome within some number of steps
has the same outcome, and leaves the same context, within any larger number. So what a
grammar yields does not depend on the number of steps. -/

namespace Chunkwise

namespace Walk

variable {σ α β γ ι : Type}

/-- Every result of the first walk is a result of the second one. -/
def Le (w w' : Walk σ α) : Prop := ∀ ⦃c r⦄, w c = some r → w' c = some r

theorem Le.map {w w' : Walk σ α} (hw : Le w w') (f : α → β) : Le (w.map f) (w'.map f) := by
  intro c r h
  obtain ⟨x, hx, he⟩ := Option.map_eq_some_iff.mp h
  exact Option.map_eq_some_iff.mpr ⟨x, hw hx, he⟩

/-- Two steps in a row have a result if both have one with less. -/
theorem bind_le {δ ε : Type} {x x' : Option δ} {k k' : δ → Option ε} {r : ε}
    (hx : ∀ {a}, x = some a → x' = some a) (hk : ∀ {a}, k a = some r → k' a = some r)
    (h : x.bind k = some r) : x'.bind k' = some r := by
  obtain ⟨a, ha, h⟩ := Option.bind_eq_some_iff.mp h
  exact Option.bind_eq_some_iff.mpr ⟨a, hx ha, hk h⟩

/-! ## Combined walks -/

theorem inTurn_le {run run' : ι → Walk σ α} :
    ∀ {gs : List ι}, (∀ g ∈ gs, Le (run g) (run' g)) →
      Le (inTurn (gs.map run)) (inTurn (gs.map run'))
  | [], _, _, _, h => h
  | g :: gs, hrun, c, r, h => by
    refine bind_le (fun ha => hrun g (by simp) ha) ?_ h
    rintro ⟨o, c₁⟩ h
    cases o with
    | failure f => exact h
    | success v =>
      exact bind_le (fun ha => inTurn_le (fun g hm => hrun g (by simp [hm])) ha) id h

theorem sequence_le {run run' : ι → Walk σ α} {gs : List ι}
    (hrun : ∀ g ∈ gs, Le (run g) (run' g)) :
    Le (sequence (gs.map run)) (sequence (gs.map run')) :=
  fun _ _ h => bind_le (fun ha => inTurn_le hrun ha) id h

theorem tryEach_le {run run' : ι → Walk σ α} {start : Nat} :
    ∀ {gs : List ι}, (∀ g ∈ gs, Le (run g) (run' g)) →
      ∀ {before}, Le (tryEach start before (gs.map run)) (tryEach start before (gs.map run'))
  | [], _, _, _, _, h => h
  | g :: gs, hrun, before, c, r, h => by
    rw [List.map_cons, tryEach] at h ⊢
    refine bind_le (fun ha => hrun g (by simp) ha) ?_ h
    rintro ⟨o, c₁⟩ h
    cases o with
    | success v => exact h
    | failure f => exact tryEach_le (fun g hm => hrun g (by simp [hm])) h

theorem choice_le {run run' : ι → Walk σ α} {gs : List ι}
    (hrun : ∀ g ∈ gs, Le (run g) (run' g)) : Le (choice (gs.map run)) (choice (gs.map run')) :=
  fun _ _ h => tryEach_le hrun h

theorem optional_le {w w' : Walk σ α} (hw : Le w w') : Le (optional w) (optional w') :=
  fun _ _ h => bind_le (fun ha => hw ha) id h

theorem peek_le {w w' : Walk σ α} (hw : Le w w') : Le (peek w) (peek w') :=
  fun _ _ h => bind_le (fun ha => hw ha) id h

theorem probe_le {w w' : Walk σ α} (hw : Le w w') {c : Context σ} {r : Bool × Context σ}
    (h : probe w c = some r) : probe w' c = some r :=
  bind_le (fun ha => peek_le hw ha) id h

theorem notAhead_le {w w' : Walk σ α} (hw : Le w w') : Le (notAhead w) (notAhead w') :=
  fun _ _ h => bind_le (fun ha => probe_le hw ha) id h

theorem withSkip_le {w w' : Walk σ α} (hw : Le w w') (skip : σ) :
    Le (withSkip skip w) (withSkip skip w') :=
  fun _ _ h => bind_le (fun ha => hw ha) id h

theorem trySkip_le {run run' : σ → Walk σ α} (hrun : ∀ s, Le (run s) (run' s)) {c : Context σ}
    {r : Bool × Context σ} (h : trySkip run c = some r) : trySkip run' c = some r := by
  unfold trySkip at h ⊢
  split at h
  · rename_i hk; rw [if_pos hk]; exact h
  · rename_i hk
    rw [if_neg hk]
    split at h
    · exact h
    · exact bind_le (fun ha => hrun _ ha) id h

theorem inRule_le {w w' : Walk σ α} (hw : Le w w') (name : String) :
    Le (inRule name w) (inRule name w') := by
  intro c r h
  unfold inRule at h ⊢
  split at h
  · exact h
  · exact bind_le (fun ha => hw ha) id h

/-! ## Loops -/

theorem consumeFrom_le {skip skip' : Context σ → Option (Bool × Context σ)} {token : Token}
    {start : Nat} (hskip : ∀ {c r}, skip c = some r → skip' c = some r) :
    ∀ {fuel fuel'}, fuel ≤ fuel' →
      Le (consumeFrom skip token start fuel) (consumeFrom skip' token start fuel')
  | 0, _, _, _, _, h => by cases h
  | fuel + 1, fuel' + 1, hle, c, r, h => by
    unfold consumeFrom at h ⊢
    dsimp only at h ⊢
    split at h
    · rename_i he; rw [if_pos he]; exact h
    · rename_i he
      rw [if_neg he]
      split at h
      · exact h
      · refine bind_le (fun ha => hskip ha) ?_ h
        rintro ⟨moved, c₁⟩ h
        cases moved with
        | true => exact consumeFrom_le hskip (by omega) h
        | false => exact h

theorem consume_le {skip skip' : Context σ → Option (Bool × Context σ)} {token : Token}
    (hskip : ∀ {c r}, skip c = some r → skip' c = some r) {fuel fuel' : Nat}
    (hle : fuel ≤ fuel') : Le (consume skip token fuel) (consume skip' token fuel') := by
  intro c r h
  unfold consume at h ⊢
  split at h
  · rename_i hh; rw [if_pos hh]; exact h
  · rename_i hh; rw [if_neg hh]; exact consumeFrom_le hskip hle h

theorem untilMatchFrom_le {stop stop' : Walk σ α} (hstop : Le stop stop') {start : Nat} :
    ∀ {fuel fuel'}, fuel ≤ fuel' → ∀ {gathered},
      Le (untilMatchFrom stop start fuel gathered) (untilMatchFrom stop' start fuel' gathered)
  | 0, _, _, _, _, _, h => by cases h
  | fuel + 1, fuel' + 1, hle, gathered, c, r, h => by
    refine bind_le (fun ha => probe_le hstop ha) ?_ h
    rintro ⟨stops, c₁⟩ h
    cases stops with
    | true => exact h
    | false =>
      simp only [Bool.false_eq_true, if_false] at h ⊢
      split at h
      · exact h
      · exact untilMatchFrom_le hstop (by omega) h

theorem untilMatch_le {stop stop' : Walk σ α} (hstop : Le stop stop') {fuel fuel' : Nat}
    (hle : fuel ≤ fuel') : Le (untilMatch stop fuel) (untilMatch stop' fuel') := by
  intro c r h
  unfold untilMatch at h ⊢
  split at h
  · rename_i hh; rw [if_pos hh]; exact h
  · rename_i hh; rw [if_neg hh]; exact untilMatchFrom_le hstop hle h

namespace Repetition

/-- The walks of the second repetition give all results that those of the first one
give. -/
structure Le (r r' : Repetition σ α β γ) : Prop where
  element : Walk.Le r.element r'.element
  least : r'.least = r.least
  separates : ∀ {c x}, r.separates c = some x → r'.separates c = some x
  stopsAt : ∀ {c x}, r.stopsAt c = some x → r'.stopsAt c = some x

theorem rounds_le {r r' : Repetition σ α β γ} (hr : Le r r') {start : Nat} :
    ∀ {fuel fuel'}, fuel ≤ fuel' → ∀ {rewind values},
      Walk.Le (r.rounds start fuel rewind values) (r'.rounds start fuel' rewind values)
  | 0, _, _, _, _, _, _, h => by cases h
  | fuel + 1, fuel' + 1, hle, rewind, values, c, x, h => by
    unfold rounds at h ⊢
    rw [hr.least]
    split at h
    · rename_i he; rw [if_pos he]; exact h
    · rename_i he
      rw [if_neg he]
      refine bind_le (fun ha => hr.stopsAt ha) ?_ h
      rintro ⟨stops, c₁⟩ h
      cases stops with
      | true => exact h
      | false =>
        refine bind_le (fun ha => hr.element ha) ?_ h
        rintro ⟨o, c₂⟩ h
        cases o with
        | failure f => exact h
        | success v =>
          refine bind_le (fun ha => hr.separates ha) ?_ h
          rintro ⟨more, c₃⟩ h
          dsimp only at h ⊢
          split at h
          · rename_i hm; rw [if_pos hm]; exact h
          · rename_i hm
            rw [if_neg hm]
            split at h
            · rename_i hc; rw [if_pos hc]; exact h
            · rename_i hc; rw [if_neg hc]; exact rounds_le hr (by omega) h

end Repetition

theorem repetition_le {r r' : Repetition σ α β γ} (hr : r.Le r') {fuel fuel' : Nat}
    (hle : fuel ≤ fuel') : Le (repetition r fuel) (repetition r' fuel') :=
  fun _ _ h => Repetition.rounds_le hr hle h

/-- A repetition of walks that are given by steps of the same kind. -/
theorem Repetition.le_map {run run' : ι → Walk σ α} (hrun : ∀ g, Walk.Le (run g) (run' g)) (g : ι)
    (least : Nat) (separator stop : Option ι) :
    Repetition.Le (⟨run g, least, separator.map run, stop.map run⟩ : Repetition σ α α α)
      ⟨run' g, least, separator.map run', stop.map run'⟩ := by
  refine ⟨hrun g, rfl, ?_, ?_⟩
  · intro c x h
    cases separator with
    | none => exact h
    | some separator => exact bind_le (fun ha => hrun separator ha) id h
  · intro c x h
    cases stop with
    | none => exact h
    | some stop => exact probe_le (hrun stop) h

end Walk

/-! ## Grammars -/

namespace Grammar

variable {rules : RuleTable}

theorem call_le {run run' : LinkedGrammar → Walk LinkedGrammar Value}
    (hrun : ∀ g, Walk.Le (run g) (run' g)) (r : RuleRef) :
    Walk.Le (call rules run r) (call rules run' r) := by
  intro c x h
  unfold call at h ⊢
  split at h
  · exact Walk.inRule_le (hrun _) r.name h
  · exact h

theorem step_le {run run' : LinkedGrammar → Walk LinkedGrammar Value}
    (hrun : ∀ g, Walk.Le (run g) (run' g)) {fuel fuel' : Nat} (hle : fuel ≤ fuel')
    (g : LinkedGrammar) : Walk.Le (step rules fuel run g) (step rules fuel' run' g) := by
  cases g with
  | consume t => exact (Walk.consume_le (Walk.trySkip_le hrun) hle).map _
  | behind t => exact fun _ _ h => h
  | untilToken t => exact fun _ _ h => h
  | untilMatch g => exact (Walk.untilMatch_le (hrun g) hle).map _
  | unit => exact fun _ _ h => h
  | sequence gs => exact (Walk.sequence_le fun g _ => hrun g).map _
  | choice gs => exact Walk.choice_le fun g _ => hrun g
  | optional g => exact (Walk.optional_le (hrun g)).map _
  | peek g => exact Walk.peek_le (hrun g)
  | notAhead g => exact (Walk.notAhead_le (hrun g)).map _
  | skipIn skip g => exact Walk.withSkip_le (hrun g) skip
  | repeated g least separator stop =>
    exact (Walk.repetition_le (Walk.Repetition.le_map hrun g least separator stop) hle).map _
  | rule r => exact call_le hrun r
  | map f g => exact (hrun g).map f
  | discard g => exact (hrun g).map _
  | native f => exact fun _ _ h => h
  | andThen g f => exact fun _ _ h => Walk.bind_le (fun ha => hrun g ha) id h

/-- More steps give the same outcome and context. -/
theorem run_le {fuel fuel' : Nat} (hle : fuel ≤ fuel') (g : LinkedGrammar) :
    Walk.Le (run rules fuel g) (run rules fuel' g) := by
  induction fuel generalizing fuel' g with
  | zero => intro c x h; cases h
  | succ fuel ih =>
    rcases fuel' with _ | fuel'
    · omega
    · exact step_le (fun g => ih (by omega) g) (by omega) g

/-- The grammar, run in the first context, ends with this outcome and leaves the second
context. -/
def Yields (rules : RuleTable) (g : LinkedGrammar) (c : Context LinkedGrammar)
    (o : Outcome Value) (c' : Context LinkedGrammar) : Prop :=
  ∃ fuel, run rules fuel g c = some (o, c')

theorem Yields.unique {g : LinkedGrammar} {c : Context LinkedGrammar} {o₁ o₂ : Outcome Value}
    {c₁ c₂ : Context LinkedGrammar} (h₁ : Yields rules g c o₁ c₁) (h₂ : Yields rules g c o₂ c₂) :
    o₁ = o₂ ∧ c₁ = c₂ := by
  obtain ⟨n₁, h₁⟩ := h₁
  obtain ⟨n₂, h₂⟩ := h₂
  have h := run_le (Nat.le_max_left n₁ n₂) g h₁
  rw [run_le (Nat.le_max_right n₁ n₂) g h₂] at h
  cases h
  exact ⟨rfl, rfl⟩

end Grammar

end Chunkwise
