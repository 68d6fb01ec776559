import Chunkwise.Proofs.Indifference
import Chunkwise.Proofs.Standstill
import Mathlib.Data.List.Perm.Subperm

/-! How many rounds a loop can need. Within the chunks a loop that goes on has to come to a
new place in every round: where it is back at a place, it does the same as before, so it would
never end. A loop that ends thus ends within as many rounds as there are places, whatever
number of rounds it is given, and so do the walks that it is part of. -/

namespace Chunkwise

/-- A move that does not lead out of the chunks. -/
def Inward (cs : Chunks) (i j : Nat) : Prop := i ≤ cs.size → j ≤ cs.size

theorem travel_inward : Travel Inward where
  refl := fun h => h
  trans := fun hij hjk h => hjk (hij h)
  skipEmpty := by
    intro cs i h
    have := cs.skipEmpty_le i
    omega
  next := by
    intro cs i w hw _
    have := Chunks.lt_size_of_get? hw
    omega

/-- A context within the chunks whose setting is one of `P`. -/
structure Area {σ : Type} (P : Setting σ → Prop) (c : Context σ) : Prop where
  setting : P c.setting
  inside : c.cursor ≤ c.chunks.size

namespace Area

variable {σ : Type} {P : Setting σ → Prop} {c c₁ : Context σ}

theorem of_setting (h : Area P c) (hs : c₁.setting = c.setting)
    (hc : c₁.cursor ≤ c.chunks.size) : Area P c₁ :=
  ⟨by rw [hs]; exact h.setting, by rw [Context.chunks_eq hs]; exact hc⟩

theorem restore (h : Area P c) (hs : c₁.setting = c.setting) : Area P (c₁.restore c.cursor) :=
  h.of_setting ((Context.setting_restore ..).trans hs) (by simpa using h.inside)

theorem skipEmpty (h : Area P c) : Area P c.skipEmpty :=
  h.of_setting (c.setting_skipEmpty) (travel_inward.skipEmpty h.inside)

end Area

namespace Walk

variable {σ ι α β γ : Type} {S : σ → Prop} {P : Setting σ → Prop}

/-- The walk keeps what it should, and does not lead out of the chunks. -/
structure Proper (S : σ → Prop) (w : Walk σ α) : Prop where
  tidy : Tidy S w
  inward : Travels S Inward w

/-- In a setting of `P` and within the chunks, every result of the first walk is a result of
the second one. -/
def LeIn (P : Setting σ → Prop) (w w' : Walk σ α) : Prop :=
  ∀ ⦃c r⦄, Area P c → w c = some r → w' c = some r

theorem LeIn.map {w w' : Walk σ α} (hw : LeIn P w w') (f : α → β) :
    LeIn P (w.map f) (w'.map f) := by
  intro c r ha h
  obtain ⟨x, hx, he⟩ := Option.map_eq_some_iff.mp h
  exact Option.map_eq_some_iff.mpr ⟨x, hw ha hx, he⟩

/-! ## Combined walks -/

section

variable (hPS : ∀ s, P s → ∀ g ∈ s.skip, S g)

include hPS

theorem Proper.area {w : Walk σ α} (hw : Proper S w) {c c₁ : Context σ} {o : Outcome α}
    (ha : Area P c) (h : w c = some (o, c₁)) : c₁.setting = c.setting ∧ Area P c₁ := by
  have hs := (hw.tidy (hPS _ ha.setting) h).setting
  exact ⟨hs, ha.of_setting hs (hw.inward (hPS _ ha.setting) h ha.inside)⟩

theorem inTurn_leIn {run run' : ι → Walk σ α} : ∀ {gs : List ι}, (∀ g ∈ gs, Proper S (run g)) →
    (∀ g ∈ gs, LeIn P (run g) (run' g)) →
    LeIn P (inTurn (gs.map run)) (inTurn (gs.map run'))
  | [], _, _, _, _, _, h => h
  | g :: gs, hproper, hrun, c, r, ha, h => by
    obtain ⟨⟨o, c₁⟩, h₁, h⟩ := Option.bind_eq_some_iff.mp h
    refine Option.bind_eq_some_iff.mpr ⟨(o, c₁), hrun g (by simp) ha h₁, ?_⟩
    cases o with
    | failure f => exact h
    | success v =>
      have ha₁ := ((hproper g (by simp)).area hPS ha h₁).2
      exact bind_le (fun hx => inTurn_leIn (fun g hm => hproper g (by simp [hm]))
        (fun g hm => hrun g (by simp [hm])) ha₁ hx) id h

theorem sequence_leIn {run run' : ι → Walk σ α} {gs : List ι} (hproper : ∀ g ∈ gs, Proper S (run g))
    (hrun : ∀ g ∈ gs, LeIn P (run g) (run' g)) :
    LeIn P (sequence (gs.map run)) (sequence (gs.map run')) :=
  fun _ _ ha h => bind_le (fun hx => inTurn_leIn hPS hproper hrun ha hx) id h

theorem tryEach_leIn {run run' : ι → Walk σ α} {start : Nat} : ∀ {gs : List ι},
    (∀ g ∈ gs, Proper S (run g)) → (∀ g ∈ gs, LeIn P (run g) (run' g)) → ∀ {before c r},
      Area P c → c.cursor = start → tryEach start before (gs.map run) c = some r →
      tryEach start before (gs.map run') c = some r
  | [], _, _, _, _, _, _, _, h => h
  | g :: gs, hproper, hrun, before, c, r, ha, hstart, h => by
    rw [List.map_cons, tryEach] at h ⊢
    obtain ⟨⟨o, c₁⟩, h₁, h⟩ := Option.bind_eq_some_iff.mp h
    refine Option.bind_eq_some_iff.mpr ⟨(o, c₁), hrun g (by simp) ha h₁, ?_⟩
    cases o with
    | success v => exact h
    | failure f =>
      have ha₁ : Area P (c₁.restore start) := by
        rw [← hstart]
        exact ha.restore ((hproper g (by simp)).area hPS ha h₁).1
      exact tryEach_leIn (fun g hm => hproper g (by simp [hm]))
        (fun g hm => hrun g (by simp [hm])) ha₁ (Context.cursor_restore ..) h

theorem choice_leIn {run run' : ι → Walk σ α} {gs : List ι} (hproper : ∀ g ∈ gs, Proper S (run g))
    (hrun : ∀ g ∈ gs, LeIn P (run g) (run' g)) :
    LeIn P (choice (gs.map run)) (choice (gs.map run')) :=
  fun _ _ ha h => tryEach_leIn hPS hproper hrun ha rfl h

end

theorem optional_leIn {w w' : Walk σ α} (hw : LeIn P w w') : LeIn P (optional w) (optional w') :=
  fun _ _ ha h => bind_le (fun hx => hw ha hx) id h

theorem peek_leIn {w w' : Walk σ α} (hw : LeIn P w w') : LeIn P (peek w) (peek w') :=
  fun _ _ ha h => bind_le (fun hx => hw ha hx) id h

theorem probe_leIn {w w' : Walk σ α} (hw : LeIn P w w') {c : Context σ} {r : Bool × Context σ}
    (ha : Area P c) (h : probe w c = some r) : probe w' c = some r :=
  bind_le (fun hx => peek_leIn hw ha hx) id h

theorem notAhead_leIn {w w' : Walk σ α} (hw : LeIn P w w') : LeIn P (notAhead w) (notAhead w') :=
  fun _ _ ha h => bind_le (fun hx => probe_leIn hw ha hx) id h

theorem withSkip_leIn {w w' : Walk σ α} {skip : σ} {T : Setting σ → Prop} (hw : LeIn T w w')
    (hT : ∀ s, P s → T { s with skip := some skip }) :
    LeIn P (withSkip skip w) (withSkip skip w') := by
  intro c r ha h
  have ha₁ : Area T (c.withSkip (some skip)) := ⟨hT _ ha.setting, ha.inside⟩
  exact bind_le (fun hx => hw ha₁ hx) id h

theorem trySkip_leIn {run run' : σ → Walk σ α} {T : Setting σ → Prop}
    (hT : ∀ s, P s → s.skipping = false → T { s with skipping := true })
    (hrun : ∀ s, P s → ∀ skip ∈ s.skip, LeIn T (run skip) (run' skip)) {c : Context σ}
    {r : Bool × Context σ} (ha : Area P c) (h : trySkip run c = some r) :
    trySkip run' c = some r := by
  unfold trySkip at h ⊢
  split at h
  · rename_i hk; rw [if_pos hk]; exact h
  · rename_i hk
    rw [if_neg hk]
    split at h
    · exact h
    · rename_i skip hskip
      have hk : c.skipping = false := by simpa using hk
      have ha₁ : Area T (inSkip c) := ⟨hT _ ha.setting hk, ha.inside⟩
      exact bind_le (fun hx => hrun _ ha.setting skip hskip ha₁ hx) id h

/-! ## Loops -/

/-- Matching a token goes round once for every advance of the skip rule. -/
theorem consumeFrom_leIn {skip skip' : Context σ → Option (Bool × Context σ)} {token : Token}
    (hskip : ∀ {c r}, Area P c → skip c = some r → skip' c = some r)
    (hmoves : ∀ {c b c'}, Area P c → skip c = some (b, c') →
      Skipped c b c' ∧ Inward c.chunks c.cursor c'.cursor) {start : Nat} :
    ∀ {fuel fuel'} {c : Context σ} {r}, Area P c → c.chunks.size - c.cursor < fuel' →
      consumeFrom skip token start fuel c = some r → consumeFrom skip' token start fuel' c = some r
  | 0, _, _, _, _, _, h => by cases h
  | _, 0, _, _, _, hf, _ => by omega
  | fuel + 1, fuel' + 1, c, r, ha, hf, h => by
    unfold consumeFrom at h ⊢
    dsimp only at h ⊢
    split at h
    · rename_i he; rw [if_pos he]; exact h
    · rename_i he
      rw [if_neg he]
      split at h
      · exact h
      · obtain ⟨⟨moved, c₁⟩, h₁, h⟩ := Option.bind_eq_some_iff.mp h
        refine Option.bind_eq_some_iff.mpr ⟨(moved, c₁), hskip ha.skipEmpty h₁, ?_⟩
        obtain ⟨⟨hs, hc⟩, hin⟩ := hmoves ha.skipEmpty h₁
        cases moved with
        | false => exact h
        | true =>
          have hle : c.cursor ≤ c.skipEmpty.cursor := c.chunks.le_skipEmpty c.cursor
          have hlt : c.skipEmpty.cursor < c₁.cursor := hc
          have hmax : c₁.cursor ≤ c.chunks.size := hin ha.skipEmpty.inside
          have hs : c₁.setting = c.setting := hs
          refine consumeFrom_leIn hskip hmoves (ha.of_setting hs hmax) ?_ h
          show c₁.chunks.size - c₁.cursor < fuel'
          rw [Context.chunks_eq hs]
          omega

theorem consume_leIn {skip skip' : Context σ → Option (Bool × Context σ)} {token : Token}
    (hskip : ∀ {c r}, Area P c → skip c = some r → skip' c = some r)
    (hmoves : ∀ {c b c'}, Area P c → skip c = some (b, c') →
      Skipped c b c' ∧ Inward c.chunks c.cursor c'.cursor) {fuel fuel' : Nat}
    (hfuel : ∀ {c}, Area P c → c.chunks.size < fuel') :
    LeIn P (consume skip token fuel) (consume skip' token fuel') := by
  intro c r ha h
  have hf := hfuel ha
  unfold consume at h ⊢
  by_cases hh : c.isHalted = true
  · rwa [if_pos hh] at h ⊢
  · rw [if_neg hh] at h ⊢
    exact consumeFrom_leIn hskip hmoves ha (by omega) h

/-- Gathering goes round once for every chunk. -/
theorem untilMatchFrom_leIn {stop stop' : Walk σ α} (hstop : LeIn P stop stop')
    (ht : Tidy S stop) (hPS : ∀ s, P s → ∀ g ∈ s.skip, S g) {start : Nat} :
    ∀ {fuel fuel' gathered} {c : Context σ} {r}, Area P c → c.chunks.size - c.cursor < fuel' →
      untilMatchFrom stop start fuel gathered c = some r →
      untilMatchFrom stop' start fuel' gathered c = some r
  | 0, _, _, _, _, _, _, h => by cases h
  | _, 0, _, _, _, _, hf, _ => by omega
  | fuel + 1, fuel' + 1, gathered, c, r, ha, hf, h => by
    obtain ⟨⟨stops, c₁⟩, h₁, h⟩ := Option.bind_eq_some_iff.mp h
    refine Option.bind_eq_some_iff.mpr ⟨(stops, c₁), probe_leIn hstop ha.skipEmpty h₁, ?_⟩
    have hs : c₁.setting = c.setting := (probe_still ht (hPS _ ha.skipEmpty.setting) h₁).1
    cases stops with
    | true => exact h
    | false =>
      simp only [Bool.false_eq_true, if_false] at h ⊢
      split at h
      · exact h
      · rename_i chunk hget
        have hlt := Chunks.lt_size_of_get? hget
        rw [Context.chunks_eq hs] at hlt
        have hle : c.cursor ≤ c.skipEmpty.cursor := c.chunks.le_skipEmpty c.cursor
        have hs₁ : (c₁.moveTo (c.skipEmpty.cursor + 1)).setting = c.setting := hs
        refine untilMatchFrom_leIn hstop ht hPS (ha.of_setting hs₁ hlt) ?_ h
        rw [Context.chunks_eq hs₁]
        show c.chunks.size - (c.skipEmpty.cursor + 1) < fuel'
        omega

theorem untilMatch_leIn {stop stop' : Walk σ α} (hstop : LeIn P stop stop') (ht : Tidy S stop)
    (hPS : ∀ s, P s → ∀ g ∈ s.skip, S g) {fuel fuel' : Nat}
    (hfuel : ∀ {c}, Area P c → c.chunks.size < fuel') :
    LeIn P (untilMatch stop fuel) (untilMatch stop' fuel') := by
  intro c r ha h
  have hf := hfuel ha
  unfold untilMatch at h ⊢
  by_cases hh : c.isHalted = true
  · rwa [if_pos hh] at h ⊢
  · rw [if_neg hh] at h ⊢
    exact untilMatchFrom_leIn hstop ht hPS ha (by omega) h

/-! ## Repetition -/

namespace Repetition

/-- The walks of a repetition are proper. -/
structure Proper (S : σ → Prop) (r : Repetition σ α β γ) : Prop where
  tidy : r.Tidy S
  inward : r.Travels S Inward

/-- The walks of the second repetition give all results that those of the first one give, in
a setting of `P` and within the chunks. -/
structure LeIn (P : Setting σ → Prop) (r r' : Repetition σ α β γ) : Prop where
  element : Walk.LeIn P r.element r'.element
  least : r'.least = r.least
  separates : ∀ {c x}, Area P c → r.separates c = some x → r'.separates c = some x
  stopsAt : ∀ {c x}, Area P c → r.stopsAt c = some x → r'.stopsAt c = some x

/-- The walks of a repetition come to the same outcomes in contexts that look alike. -/
structure Indifferent (S : σ → Prop) (r : Repetition σ α β γ) : Prop where
  element : ∀ {c c' : Context σ}, c.Like c' → (∀ s ∈ c.skip, S s) → ∀ {o d},
    r.element c = some (o, d) → ∃ d', r.element c' = some (o, d') ∧ d.Like d'
  separates : ∀ {c c' : Context σ}, c.Like c' → (∀ s ∈ c.skip, S s) → ∀ {b d},
    r.separates c = some (b, d) → ∃ d', r.separates c' = some (b, d') ∧ d.Like d'
  stopsAt : ∀ {c c' : Context σ}, c.Like c' → (∀ s ∈ c.skip, S s) → ∀ {b d},
    r.stopsAt c = some (b, d) → ∃ d', r.stopsAt c' = some (b, d') ∧ d.Like d'

theorem leIn_map {run run' : ι → Walk σ α} {g : ι} {separator stop : Option ι}
    (hg : Walk.LeIn P (run g) (run' g)) (hseparator : ∀ s ∈ separator, Walk.LeIn P (run s) (run' s))
    (hstop : ∀ s ∈ stop, Walk.LeIn P (run s) (run' s)) (least : Nat) :
    LeIn P (⟨run g, least, separator.map run, stop.map run⟩ : Repetition σ α α α)
      ⟨run' g, least, separator.map run', stop.map run'⟩ := by
  refine ⟨hg, rfl, ?_, ?_⟩
  · intro c x ha h
    cases separator with
    | none => exact h
    | some separator => exact bind_le (fun hx => hseparator separator rfl ha hx) id h
  · intro c x ha h
    cases stop with
    | none => exact h
    | some stop => exact probe_leIn (hstop stop rfl) ha h

theorem indifferent_of_walks {r : Repetition σ α β γ} (helement : Walk.Indifferent S r.element)
    (hseparator : ∀ w ∈ r.separator, Walk.Indifferent S w)
    (hstop : ∀ w ∈ r.stop, Walk.Indifferent S w) : r.Indifferent S := by
  refine ⟨fun hc hS _ _ h => helement hc hS h, ?_, ?_⟩
  · intro c c' hc hS b d h
    unfold separates at h ⊢
    split at h
    · cases h
      exact ⟨c', rfl, hc⟩
    · rename_i separator hsep
      obtain ⟨⟨o, c₁⟩, h₁, h⟩ := Option.bind_eq_some_iff.mp h
      cases h
      obtain ⟨c₁', h₁', hc₁⟩ := hseparator separator hsep hc hS h₁
      exact ⟨c₁', by simp [h₁'], hc₁⟩
  · intro c c' hc hS b d h
    unfold stopsAt at h ⊢
    split at h
    · cases h
      exact ⟨c', rfl, hc⟩
    · rename_i stop hst
      exact (hstop stop hst).probe hc hS h

section

variable {r r' : Repetition σ α β γ} (hPS : ∀ s, P s → ∀ g ∈ s.skip, S g)

include hPS

theorem area_stopsAt (hp : r.Proper S) {c c₁ : Context σ} {b : Bool} (ha : Area P c)
    (h : r.stopsAt c = some (b, c₁)) : Area P c₁ := by
  obtain ⟨hs, hc⟩ := stopsAt_still hp.tidy (hPS _ ha.setting) h
  exact ha.of_setting hs (hc ▸ ha.inside)

theorem area_element (hp : r.Proper S) {c c₁ : Context σ} {o : Outcome α} (ha : Area P c)
    (h : r.element c = some (o, c₁)) : Area P c₁ :=
  (Walk.Proper.area hPS ⟨hp.tidy.element, hp.inward.element⟩ ha h).2

theorem area_separates (hp : r.Proper S) {c c₁ : Context σ} {b : Bool} (ha : Area P c)
    (h : r.separates c = some (b, c₁)) : Area P c₁ :=
  ha.of_setting (separates_kept hp.tidy (hPS _ ha.setting) h)
    (separates_travels travel_inward hp.inward (hPS _ ha.setting) h ha.inside)

theorem Leaves.leIn (hr : LeIn P r r') (hp : r.Proper S) {start rewind : Nat} {values : Array α}
    {c : Context σ} {o c'} (ha : Area P c) (h : r.Leaves start rewind values c o c') :
    r'.Leaves start rewind values c o c' := by
  have hl := hr.least
  cases h with
  | exhausted he hs => exact .exhausted he (by omega)
  | stopped h₁ hs => exact .stopped (hr.stopsAt ha h₁) (by omega)
  | stoppedShort h₁ hs => exact .stoppedShort (hr.stopsAt ha h₁) (by omega)
  | missed h₁ h₂ hs =>
    have ha₁ := area_stopsAt hPS hp ha h₁
    exact .missed (hr.stopsAt ha h₁) (hr.element ha₁ h₂) (by omega)
  | missedShort h₁ h₂ hs =>
    have ha₁ := area_stopsAt hPS hp ha h₁
    exact .missedShort (hr.stopsAt ha h₁) (hr.element ha₁ h₂) (by omega)
  | last h₁ h₂ h₃ =>
    have ha₁ := area_stopsAt hPS hp ha h₁
    exact .last (hr.stopsAt ha h₁) (hr.element ha₁ h₂)
      (hr.separates (area_element hPS hp ha₁ h₂) h₃)
  | stuck h₁ h₂ h₃ hc =>
    have ha₁ := area_stopsAt hPS hp ha h₁
    exact .stuck (hr.stopsAt ha h₁) (hr.element ha₁ h₂)
      (hr.separates (area_element hPS hp ha₁ h₂) h₃) hc

theorem Continues.leIn (hr : LeIn P r r') (hp : r.Proper S) {c : Context σ} {v c₁ c₂ c₃}
    (ha : Area P c) (h : r.Continues c v c₁ c₂ c₃) : r'.Continues c v c₁ c₂ c₃ ∧ Area P c₃ := by
  have ha₁ := area_stopsAt hPS hp ha h.stopsAt
  have ha₂ := area_element hPS hp ha₁ h.element
  exact ⟨⟨hr.stopsAt ha h.stopsAt, hr.element ha₁ h.element, hr.separates ha₂ h.separates,
    h.moved⟩, area_separates hPS hp ha₂ h.separates⟩

end

/-! A repetition with elements enough goes on in the same way wherever it is back at a
place. -/

section

variable {r : Repetition σ α β γ} (hi : r.Indifferent S) (ht : r.Tidy S)

include hi ht

theorem Leaves.like {start rewind : Nat} {values : Array α} {c c' : Context σ} {o d}
    (hc : c.Like c') (hS : ∀ s ∈ c.skip, S s) (h : r.Leaves start rewind values c o d)
    (hl : r.least ≤ values.size) (start' rewind' : Nat) {values' : Array α}
    (hl' : r.least ≤ values'.size) : ∃ o' d', r.Leaves start' rewind' values' c' o' d' := by
  have hstops : ∀ {b c₁}, r.stopsAt c = some (b, c₁) →
      (∀ s ∈ c₁.skip, S s) ∧ ∃ c₁', r.stopsAt c' = some (b, c₁') ∧ c₁.Like c₁' :=
    fun h₁ => ⟨Context.skip_of_setting (stopsAt_still ht hS h₁).1 hS, hi.stopsAt hc hS h₁⟩
  cases h with
  | exhausted he _ =>
    have he' : c'.isExhausted = c.isExhausted := congrArg View.isExhausted hc.view
    exact ⟨_, _, .exhausted (he'.trans he) hl'⟩
  | stopped h₁ _ =>
    obtain ⟨_, c₁', h₁', _⟩ := hstops h₁
    exact ⟨_, _, .stopped h₁' hl'⟩
  | stoppedShort _ hs => omega
  | missed h₁ h₂ _ =>
    obtain ⟨hS₁, c₁', h₁', hc₁⟩ := hstops h₁
    obtain ⟨c₂', h₂', _⟩ := hi.element hc₁ hS₁ h₂
    exact ⟨_, _, .missed h₁' h₂' hl'⟩
  | missedShort _ _ hs => omega
  | last h₁ h₂ h₃ =>
    obtain ⟨hS₁, c₁', h₁', hc₁⟩ := hstops h₁
    obtain ⟨c₂', h₂', hc₂⟩ := hi.element hc₁ hS₁ h₂
    obtain ⟨c₃', h₃', _⟩ :=
      hi.separates hc₂ (Context.skip_of_setting (ht.element hS₁ h₂).setting hS₁) h₃
    exact ⟨_, _, .last h₁' h₂' h₃'⟩
  | stuck h₁ h₂ h₃ hsame =>
    obtain ⟨hS₁, c₁', h₁', hc₁⟩ := hstops h₁
    obtain ⟨c₂', h₂', hc₂⟩ := hi.element hc₁ hS₁ h₂
    obtain ⟨c₃', h₃', hc₃⟩ :=
      hi.separates hc₂ (Context.skip_of_setting (ht.element hS₁ h₂).setting hS₁) h₃
    exact ⟨_, _, .stuck h₁' h₂' h₃' (by rw [hc₃.cursor, hc₁.cursor, hsame])⟩

theorem Continues.like {c c' : Context σ} {v c₁ c₂ c₃} (hc : c.Like c')
    (hS : ∀ s ∈ c.skip, S s) (h : r.Continues c v c₁ c₂ c₃) :
    ∃ c₁' c₂' c₃', r.Continues c' v c₁' c₂' c₃' ∧ c₃.Like c₃' := by
  obtain ⟨hs₁, hs₂, _⟩ := h.setting ht hS
  obtain ⟨c₁', h₁', hc₁⟩ := hi.stopsAt hc hS h.stopsAt
  obtain ⟨c₂', h₂', hc₂⟩ := hi.element hc₁ (Context.skip_of_setting hs₁ hS) h.element
  obtain ⟨c₃', h₃', hc₃⟩ := hi.separates hc₂ (Context.skip_of_setting hs₂ hS) h.separates
  exact ⟨c₁', c₂', c₃', ⟨h₁', h₂', h₃', by rw [hc₃.cursor, hc₁.cursor]; exact h.moved⟩, hc₃⟩

theorem rounds_like : ∀ {fuel start rewind} {values : Array α} {c c' : Context σ} {x},
    c.Like c' → (∀ s ∈ c.skip, S s) → r.least ≤ values.size →
    r.rounds start fuel rewind values c = some x →
    ∀ (start' rewind' : Nat) (values' : Array α), r.least ≤ values'.size →
      ∃ x', r.rounds start' fuel rewind' values' c' = some x'
  | 0, _, _, _, _, _, _, _, _, _, h, _, _, _, _ => by cases h
  | fuel + 1, start, rewind, values, c, c', (o, d), hc, hS, hl, h, start', rewind', values',
    hl' => by
    by_cases hspent : r.IsSpent values' c'
    · exact ⟨_, rounds_of_isSpent hspent⟩
    rcases rounds_cases h with h | ⟨v, c₁, c₂, c₃, hgo, h⟩
    · obtain ⟨o', d', h'⟩ := h.like hi ht hc hS hl start' rewind' hl'
      exact ⟨_, rounds_of_leaves hspent h'⟩
    · obtain ⟨_, _, hs₃⟩ := hgo.setting ht hS
      obtain ⟨c₁', c₂', c₃', hgo', hc₃⟩ := hgo.like hi ht hc hS
      obtain ⟨x', h'⟩ := rounds_like hc₃ (Context.skip_of_setting hs₃ hS)
        (by rw [Array.size_push]; omega) h start' c₂'.cursor (values'.push v)
        (by rw [Array.size_push]; omega)
      exact ⟨x', (rounds_of_continues hspent hgo').trans h'⟩

end

/-- Rounds that begin at place `i` in this setting, with elements enough, do not end within
`fuel` rounds. -/
def Endless (r : Repetition σ α β γ) (s : Setting σ) (fuel i : Nat) : Prop :=
  ∀ (c : Context σ) (start rewind : Nat) (values : Array α), c.setting = s →
    c.isHalted = false → c.cursor = i → r.least ≤ values.size →
    r.rounds start fuel rewind values c = none

theorem rounds_mono {r : Repetition σ α β γ} {start fuel fuel' rewind : Nat} {values : Array α}
    {c : Context σ} {x} (hle : fuel ≤ fuel') (h : r.rounds start fuel rewind values c = some x) :
    r.rounds start fuel' rewind values c = some x :=
  rounds_le ⟨fun _ _ h => h, rfl, fun h => h, fun h => h⟩ hle h

theorem Endless.less {r : Repetition σ α β γ} {s : Setting σ} {fuel i : Nat}
    (h : r.Endless s (fuel + 1) i) : r.Endless s fuel i := by
  intro c start rewind values hs hh hc hl
  cases hx : r.rounds start fuel rewind values c with
  | none => rfl
  | some x =>
    cases (rounds_mono (Nat.le_succ fuel) hx).symm.trans (h c start rewind values hs hh hc hl)

theorem endless_of_eq_none {r : Repetition σ α β γ} (hi : r.Indifferent S) (ht : r.Tidy S)
    {start fuel rewind : Nat} {values : Array α} {c : Context σ} (hS : ∀ s ∈ c.skip, S s)
    (hh : c.isHalted = false) (hl : r.least ≤ values.size)
    (h : r.rounds start fuel rewind values c = none) : r.Endless c.setting fuel c.cursor := by
  intro c' start' rewind' values' hs hh' hc hl'
  cases hx : r.rounds start' fuel rewind' values' c' with
  | none => rfl
  | some x =>
    have hlike : c'.Like c := .of_setting hs.symm hc.symm (hh.trans hh'.symm)
    obtain ⟨x', hx'⟩ :=
      rounds_like hi ht hlike (Context.skip_of_setting hs hS) hl' hx start rewind values hl
    cases h.symm.trans hx'

/-- Places among the chunks from which rounds with elements enough do not end within `fuel`
rounds. -/
structure Visited (r : Repetition σ α β γ) (c : Context σ) (fuel : Nat) (places : List Nat) :
    Prop where
  nodup : places.Nodup
  inside : ∀ i ∈ places, i ≤ c.chunks.size
  endless : ∀ i ∈ places, r.Endless c.setting fuel i

namespace Visited

variable {r : Repetition σ α β γ} {c c' : Context σ} {fuel : Nat} {places : List Nat}

theorem nil : Visited r c fuel [] := ⟨List.nodup_nil, nofun, nofun⟩

theorem less (h : Visited r c (fuel + 1) places) : Visited r c fuel places :=
  ⟨h.nodup, h.inside, fun i hm => (h.endless i hm).less⟩

theorem of_setting (h : Visited r c fuel places) (hs : c'.setting = c.setting) :
    Visited r c' fuel places :=
  ⟨h.nodup, by rw [Context.chunks_eq hs]; exact h.inside, by rw [hs]; exact h.endless⟩

theorem cons (h : Visited r c fuel places) (hnew : c.cursor ∉ places)
    (hinside : c.cursor ≤ c.chunks.size) (hendless : r.Endless c.setting fuel c.cursor) :
    Visited r c fuel (c.cursor :: places) :=
  ⟨List.nodup_cons.mpr ⟨hnew, h.nodup⟩, List.forall_mem_cons.mpr ⟨hinside, h.inside⟩,
    List.forall_mem_cons.mpr ⟨hendless, h.endless⟩⟩

theorem length_le (h : Visited r c fuel places) : places.length ≤ c.chunks.size + 1 := by
  have hsub : places ⊆ List.range (c.chunks.size + 1) :=
    fun i hm => List.mem_range.mpr (Nat.lt_succ_of_le (h.inside i hm))
  simpa using (h.nodup.subperm hsub).length_le

end Visited

/-- Rounds that end do so within as many rounds as elements are missing and as there are
places at which no round with elements enough has begun, and one more. -/
theorem rounds_leIn {r r' : Repetition σ α β γ} (hPS : ∀ s, P s → ∀ g ∈ s.skip, S g)
    (hr : LeIn P r r') (hp : r.Proper S) (hi : r.Indifferent S) (hstill : r'.StandsStill)
    {start : Nat} : ∀ {fuel fuel' rewind} {values : Array α} {visited : List Nat}
      {c : Context σ} {x}, Area P c → Visited r c fuel visited →
      r.least - values.size + (c.chunks.size + 1 - visited.length) < fuel' →
      r.rounds start fuel rewind values c = some x →
      r'.rounds start fuel' rewind values c = some x
  | 0, _, _, _, _, _, _, _, _, _, h => by cases h
  | _, 0, _, _, _, _, _, _, _, hf, _ => by omega
  | fuel + 1, fuel' + 1, rewind, values, visited, c, (o, c'), ha, hvisited, hf, h => by
    have hS := hPS _ ha.setting
    by_cases hspent : r.IsSpent values c
    · have hspent' : r'.IsSpent values c := ⟨hspent.1, hr.least ▸ hspent.2⟩
      rw [rounds_of_isSpent hspent] at h
      rw [rounds_of_isSpent hspent', h]
    have hspent' : ¬ r'.IsSpent values c := fun hs => hspent ⟨hs.1, hr.least ▸ hs.2⟩
    rcases rounds_cases h with hl | ⟨v, c₁, c₂, c₃, hgo, hnext⟩
    · exact rounds_of_leaves hspent' (hl.leIn hPS hr hp ha)
    obtain ⟨hgo', ha₃⟩ := hgo.leIn hPS hr hp ha
    obtain ⟨_, _, hs₃⟩ := hgo.setting hp.tidy hS
    have hmore : (values.push v).size = values.size + 1 := Array.size_push ..
    by_cases hl : values.size < r.least
    · rw [rounds_of_continues hspent' hgo']
      refine rounds_leIn hPS hr hp hi hstill ha₃ (hvisited.less.of_setting hs₃) ?_ hnext
      rw [Context.chunks_eq hs₃]
      omega
    have hl : r.least ≤ values.size := by omega
    have hrunning := hgo'.isHalted_eq_false hstill
    cases hlow : r.rounds start fuel rewind values c with
    | some x =>
      cases (rounds_mono (Nat.le_succ fuel) hlow).symm.trans h
      exact rounds_leIn hPS hr hp hi hstill ha hvisited.less hf hlow
    | none =>
      -- the rounds from here take all of the steps, so they have not begun here before
      have hnew : c.cursor ∉ visited := by
        intro hm
        cases h.symm.trans (hvisited.endless _ hm c start rewind values rfl hrunning rfl hl)
      have hcons := hvisited.less.cons hnew ha.inside
        (endless_of_eq_none hi hp.tidy hS hrunning hl hlow)
      have hlength := hcons.length_le
      rw [rounds_of_continues hspent' hgo']
      refine rounds_leIn hPS hr hp hi hstill ha₃ (hcons.of_setting hs₃) ?_ hnext
      rw [List.length_cons] at hlength
      rw [Context.chunks_eq hs₃, List.length_cons]
      omega

end Repetition

end Walk

namespace Grammar

variable {rules : RuleTable}

/-- Looking behind moves back, and nothing else leads out of the chunks. -/
theorem run_inward (hrules : ∀ g ∈ rules, g.isBuiltIn = true) {fuel : Nat} {g : LinkedGrammar}
    (hg : g.isBuiltIn = true) : Walk.Travels (·.isBuiltIn = true) Inward (run rules fuel g) := by
  induction fuel generalizing g with
  | zero => intro c o c' _ h; cases h
  | succ fuel ih =>
    cases hb : g.isBehind with
    | false =>
      refine step_travels travel_inward (by simpa using all_self hg) hb
        (fun part hm => run_tidy hrules (isBuiltIn_part hg hm)) (fun s hs => run_tidy hrules hs)
        (Walk.trySkip_travels travel_inward fun s hs => ih hs) ?_
        (fun part hm => ih (isBuiltIn_part hg (mem_parts_of_mem_openParts hm)))
        (fun r body _ hget => ih (hrules body (Array.mem_of_getElem? hget)))
      rintro skip body rfl
      exact isBuiltIn_part hg (by simp [parts])
    | true =>
      obtain ⟨t, rfl⟩ : ∃ t, g = .behind t := by
        cases g with
        | behind t => exact ⟨t, rfl⟩
        | _ => cases hb
      refine Walk.Travels.map ?_ _
      intro c o c' _ h hin
      have hback := c.chunks.skipEmptyBack_le c.cursor
      unfold Walk.consumeBehind at h
      split at h
      · cases h; exact hin
      · split at h
        · split at h
          · cases h; exact Nat.zero_le _
          · cases h; exact hin
        · split at h
          · rename_i i hi _ _ _
            cases h
            show i ≤ c.chunks.size
            omega
          · cases h; exact hin

theorem run_proper (hrules : ∀ g ∈ rules, g.isBuiltIn = true) {fuel : Nat} {g : LinkedGrammar}
    (hg : g.isBuiltIn = true) : Walk.Proper (·.isBuiltIn = true) (run rules fuel g) :=
  ⟨run_tidy hrules hg, run_inward hrules hg⟩

end Grammar

end Chunkwise
