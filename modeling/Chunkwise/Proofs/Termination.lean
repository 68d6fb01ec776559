import Chunkwise.Parser.Basic
import Chunkwise.Proofs.Advance
import Chunkwise.Proofs.Fuel
import Mathlib.Tactic.Ring

/-! Every parse under a recursion limit ends. Walks nest no deeper than the grammars of
the open rules, of the entry and of one run of the skip rule, because a skip rule does
not run within itself. Loops go round no more often than there are chunks left, because
every round but the last one moves forward. Both together bound the steps. -/

namespace Chunkwise

namespace Walk

variable {σ α β γ : Type} {S : σ → Prop} {P : Setting σ → Prop}

/-- The walk has an outcome in every setting of `P`. -/
def Halts (P : Setting σ → Prop) (w : Walk σ α) : Prop :=
  ∀ ⦃c : Context σ⦄, P c.setting → ∃ r, w c = some r

theorem Halts.map {w : Walk σ α} (hw : Halts P w) (f : α → β) : Halts P (w.map f) := by
  intro c hP
  obtain ⟨⟨o, c'⟩, h⟩ := hw hP
  exact ⟨(o.map f, c'), by simp [Walk.map, h]⟩

/-! ## Combined walks -/

section

variable (hPS : ∀ s, P s → ∀ g ∈ s.skip, S g)

include hPS

/-- One walk behind another. -/
theorem Halts.after {w : Walk σ α} {v : Walk σ β} (hv : Halts P v) (ht : Tidy S w)
    {c c₁ : Context σ} {o : Outcome α} (hP : P c.setting) (h : w c = some (o, c₁)) :
    ∃ r, v c₁ = some r := by
  have hs := (ht (hPS _ hP) h).setting
  exact hv (by rw [hs]; exact hP)

theorem inTurn_halts : ∀ {ws : List (Walk σ α)}, (∀ w ∈ ws, Tidy S w) → (∀ w ∈ ws, Halts P w) →
    Halts P (inTurn ws)
  | [], _, _, c, _ => ⟨(.success [], c), rfl⟩
  | w :: ws, ht, hw, c, hP => by
    obtain ⟨⟨o₁, c₁⟩, h₁⟩ := hw w (by simp) hP
    cases o₁ with
    | failure f => exact ⟨(.failure f, c₁), by simp [inTurn, h₁]⟩
    | success v =>
      have hrest : Halts P (inTurn ws) :=
        inTurn_halts (fun w hm => ht w (by simp [hm])) (fun w hm => hw w (by simp [hm]))
      obtain ⟨⟨o₂, c₂⟩, h₂⟩ := hrest.after hPS (ht w (by simp)) hP h₁
      exact ⟨(o₂.map (v :: ·), c₂), by simp [inTurn, h₁, h₂]⟩

theorem sequence_halts {ws : List (Walk σ α)} (ht : ∀ w ∈ ws, Tidy S w)
    (hw : ∀ w ∈ ws, Halts P w) : Halts P (sequence ws) := by
  intro c hP
  obtain ⟨⟨o₁, c₁⟩, h₁⟩ := inTurn_halts hPS ht hw hP
  cases o₁ with
  | success vs => exact ⟨(.success vs, c₁), by simp [sequence, h₁]⟩
  | failure f => exact ⟨(.failure f, c₁.restore c.cursor), by simp [sequence, h₁]⟩

theorem tryEach_halts {start : Nat} : ∀ {ws : List (Walk σ α)}, (∀ w ∈ ws, Tidy S w) →
    (∀ w ∈ ws, Halts P w) → ∀ {before}, Halts P (tryEach start before ws)
  | [], _, _, some f, c, _ => ⟨(.failure f, c), rfl⟩
  | [], _, _, none, c, _ => ⟨c.fail start .unexpected, rfl⟩
  | w :: ws, ht, hw, before, c, hP => by
    obtain ⟨⟨o₁, c₁⟩, h₁⟩ := hw w (by simp) hP
    cases o₁ with
    | success v => exact ⟨(.success v, c₁), by simp [tryEach, h₁]⟩
    | failure f =>
      have hs := (ht w (by simp) (hPS _ hP) h₁).setting
      have hrest : Halts P (tryEach start (some (.deepest before f)) ws) :=
        tryEach_halts (fun w hm => ht w (by simp [hm])) (fun w hm => hw w (by simp [hm]))
      obtain ⟨r, hr⟩ := hrest (c := c₁.restore start)
        (by rw [Context.setting_restore, hs]; exact hP)
      exact ⟨r, by simp [tryEach, h₁, hr]⟩

theorem choice_halts {ws : List (Walk σ α)} (ht : ∀ w ∈ ws, Tidy S w)
    (hw : ∀ w ∈ ws, Halts P w) : Halts P (choice ws) :=
  fun _ hP => tryEach_halts hPS ht hw hP

end

theorem optional_halts {w : Walk σ α} (hw : Halts P w) : Halts P (optional w) := by
  intro c hP
  obtain ⟨⟨o₁, c₁⟩, h₁⟩ := hw hP
  cases o₁ with
  | success v => exact ⟨(.success (some v), c₁), by simp [optional, h₁]⟩
  | failure f => exact ⟨(.success none, c₁.restore c.cursor), by simp [optional, h₁]⟩

theorem peek_halts {w : Walk σ α} (hw : Halts P w) : Halts P (peek w) := by
  intro c hP
  obtain ⟨⟨o₁, c₁⟩, h₁⟩ := hw hP
  exact ⟨(o₁, { c₁.restore c.cursor with deepest := c.deepest }), by simp [peek, h₁]⟩

theorem probe_halts {w : Walk σ α} (hw : Halts P w) {c : Context σ} (hP : P c.setting) :
    ∃ b c', probe w c = some (b, c') := by
  obtain ⟨⟨o₁, c₁⟩, h₁⟩ := peek_halts hw hP
  exact ⟨o₁.isSuccess, c₁, by simp [probe, h₁]⟩

theorem notAhead_halts {w : Walk σ α} (hw : Halts P w) : Halts P (notAhead w) := by
  intro c hP
  obtain ⟨b, c₁, h₁⟩ := probe_halts hw hP
  exact ⟨if b then c₁.fail c.cursor .unexpected else (.success (), c₁), by simp [notAhead, h₁]⟩

theorem withSkip_halts {w : Walk σ α} {skip : σ} {Q : Setting σ → Prop} (hw : Halts Q w)
    (hQ : ∀ s, P s → Q { s with skip := some skip }) : Halts P (withSkip skip w) := by
  intro c hP
  obtain ⟨⟨o₁, c₁⟩, h₁⟩ := hw (c := c.withSkip (some skip)) (hQ _ hP)
  exact ⟨(o₁, c₁.withSkip c.skip), by simp [withSkip, h₁]⟩

theorem trySkip_halts {run : σ → Walk σ α} {Q : Setting σ → Prop}
    (hQ : ∀ s, P s → s.skipping = false → Q { s with skipping := true })
    (hrun : ∀ s, P s → ∀ skip ∈ s.skip, Halts Q (run skip)) {c : Context σ}
    (hP : P c.setting) : ∃ b c', trySkip run c = some (b, c') := by
  unfold trySkip
  split
  · exact ⟨false, c, rfl⟩
  · rename_i hk
    have hk : c.skipping = false := by simpa using hk
    split
    · exact ⟨false, c, rfl⟩
    · rename_i skip hskip
      obtain ⟨⟨o₁, c₁⟩, h₁⟩ := hrun _ hP skip hskip (c := inSkip c) (hQ _ hP hk)
      unfold inSkip at h₁
      simp only [h₁, Option.bind_eq_bind, Option.bind_some]
      split
      · exact ⟨_, _, rfl⟩
      · exact ⟨_, _, rfl⟩

theorem inRule_halts {w : Walk σ α} {name : String} {Q : Setting σ → Prop} (hw : Halts Q w)
    (hQ : ∀ c : Context σ, P c.setting → c.exceededLimit? = none → Q (c.pushRule name).setting) :
    Halts P (inRule name w) := by
  intro c hP
  unfold inRule Context.enterRule
  cases hh : c.isHalted with
  | true => exact ⟨(c.haltedFailure, c), rfl⟩
  | false =>
    cases hl : c.exceededLimit? with
    | some limit => exact ⟨_, rfl⟩
    | none =>
      obtain ⟨⟨o₁, c₁⟩, h₁⟩ := hw (hQ c hP hl)
      exact ⟨(o₁, c₁.exitRule o₁.isSuccess), by simp [h₁]⟩

/-! ## Loops -/

/-- Matching a token goes round once for every advance of the skip rule. -/
theorem consumeFrom_halts {skip : Context σ → Option (Bool × Context σ)} {token : Token}
    (hhalts : ∀ {c}, P c.setting → ∃ b c', skip c = some (b, c'))
    (hskip : ∀ {c b c'}, P c.setting → skip c = some (b, c') →
      Skipped c b c' ∧ Advance c.chunks c.cursor c'.cursor) {start : Nat} :
    ∀ {fuel} {c : Context σ}, P c.setting → c.chunks.size - c.cursor < fuel →
      ∃ r, consumeFrom skip token start fuel c = some r
  | 0, _, _, hf => by omega
  | fuel + 1, c, hP, hf => by
    unfold consumeFrom
    dsimp only
    split
    · exact ⟨_, rfl⟩
    · split
      · exact ⟨_, rfl⟩
      · obtain ⟨b, c₁, h₁⟩ := hhalts (c := c.skipEmpty) hP
        obtain ⟨⟨hs, hc⟩, ha⟩ := hskip (c := c.skipEmpty) hP h₁
        simp only [h₁, Option.bind_eq_bind, Option.bind_some]
        cases b with
        | false => exact ⟨_, rfl⟩
        | true =>
          have hs : c₁.setting = c.setting := hs
          have hle : c.cursor ≤ c.skipEmpty.cursor := c.chunks.le_skipEmpty c.cursor
          have hlt : c.skipEmpty.cursor < c₁.cursor := hc
          have hmax : c₁.cursor ≤ max c.skipEmpty.cursor c.chunks.size := ha.2
          exact consumeFrom_halts hhalts hskip (by rw [hs]; exact hP)
            (by rw [Context.chunks_eq hs]; omega)

/-- Gathering goes round once for every chunk. -/
theorem untilMatchFrom_halts {stop : Walk σ α} (hw : Halts P stop) (ht : Tidy S stop)
    (hPS : ∀ s, P s → ∀ g ∈ s.skip, S g) {start : Nat} :
    ∀ {fuel gathered} {c : Context σ}, P c.setting → c.chunks.size - c.cursor < fuel →
      ∃ r, untilMatchFrom stop start fuel gathered c = some r
  | 0, _, _, _, hf => by omega
  | fuel + 1, gathered, c, hP, hf => by
    obtain ⟨b, c₁, h₁⟩ := probe_halts hw (c := c.skipEmpty) hP
    have hs : c₁.setting = c.setting := (probe_still ht (c := c.skipEmpty) (hPS _ hP) h₁).1
    unfold untilMatchFrom
    simp only [h₁, Option.bind_eq_bind, Option.bind_some]
    split
    · exact ⟨_, rfl⟩
    · split
      · exact ⟨_, rfl⟩
      · rename_i chunk hget
        have hlt := Chunks.lt_size_of_get? hget
        have hle : c.cursor ≤ c.skipEmpty.cursor := c.chunks.le_skipEmpty c.cursor
        have hs₁ : (c₁.moveTo (c.skipEmpty.cursor + 1)).setting = c.setting := hs
        refine untilMatchFrom_halts hw ht hPS (by rw [hs₁]; exact hP) ?_
        rw [Context.chunks_eq hs] at hlt
        rw [Context.chunks_eq hs₁]
        show c.chunks.size - (c.skipEmpty.cursor + 1) < fuel
        omega

theorem consume_halts {skip : Context σ → Option (Bool × Context σ)} {token : Token} {fuel : Nat}
    (hhalts : ∀ {c}, P c.setting → ∃ b c', skip c = some (b, c'))
    (hskip : ∀ {c b c'}, P c.setting → skip c = some (b, c') →
      Skipped c b c' ∧ Advance c.chunks c.cursor c'.cursor)
    (hfuel : ∀ {c : Context σ}, P c.setting → c.chunks.size - c.cursor < fuel) :
    Halts P (consume skip token fuel) := by
  intro c hP
  unfold consume
  split
  · exact ⟨_, rfl⟩
  · exact consumeFrom_halts hhalts hskip hP (hfuel hP)

theorem consumeBehind_halts {token : Token} : Halts P (consumeBehind token) := by
  intro c _
  unfold consumeBehind
  split
  · exact ⟨_, rfl⟩
  · split <;> split <;> exact ⟨_, rfl⟩

theorem untilToken_halts {token : Token} : Halts P (untilToken token) := by
  intro c _
  unfold untilToken
  dsimp only
  split
  · exact ⟨_, rfl⟩
  · split <;> exact ⟨_, rfl⟩

theorem untilMatch_halts {stop : Walk σ α} {fuel : Nat} (hw : Halts P stop) (ht : Tidy S stop)
    (hPS : ∀ s, P s → ∀ g ∈ s.skip, S g)
    (hfuel : ∀ {c : Context σ}, P c.setting → c.chunks.size - c.cursor < fuel) :
    Halts P (untilMatch stop fuel) := by
  intro c hP
  unfold untilMatch
  split
  · exact ⟨_, rfl⟩
  · exact untilMatchFrom_halts hw ht hPS hP (hfuel hP)

namespace Repetition

/-- The walks of a repetition have outcomes. -/
structure Halts (P : Setting σ → Prop) (r : Repetition σ α β γ) : Prop where
  element : Walk.Halts P r.element
  separator : ∀ w ∈ r.separator, Walk.Halts P w
  stop : ∀ w ∈ r.stop, Walk.Halts P w

theorem stopsAt_halts {r : Repetition σ α β γ} (hr : r.Halts P) {c : Context σ}
    (hP : P c.setting) : ∃ b c', r.stopsAt c = some (b, c') := by
  unfold stopsAt
  split
  · exact ⟨false, c, rfl⟩
  · rename_i stop hstop
    exact probe_halts (hr.stop stop hstop) hP

theorem separates_halts {r : Repetition σ α β γ} (hr : r.Halts P) {c : Context σ}
    (hP : P c.setting) : ∃ b c', r.separates c = some (b, c') := by
  unfold separates
  split
  · exact ⟨true, c, rfl⟩
  · rename_i separator hsep
    obtain ⟨⟨o₁, c₁⟩, h₁⟩ := hr.separator separator hsep hP
    exact ⟨o₁.isSuccess, c₁, by simp [h₁]⟩

/-- A repetition goes round once for every place that it gets to: a round that does not
move ends it, and one that moves gets further. -/
theorem rounds_halts {r : Repetition σ α β γ} (hr : r.Halts P) (ht : r.Tidy S)
    (hm : r.Travels S Advance) (hPS : ∀ s, P s → ∀ g ∈ s.skip, S g) {start : Nat} :
    ∀ {fuel rewind values} {c : Context σ}, P c.setting → c.chunks.size - c.cursor < fuel →
      ∃ x, r.rounds start fuel rewind values c = some x
  | 0, _, _, _, _, hf => by omega
  | fuel + 1, rewind, values, c, hP, hf => by
    unfold rounds
    split
    · exact ⟨_, rfl⟩
    · obtain ⟨stops, c₁, h₁⟩ := stopsAt_halts hr hP
      obtain ⟨hs₁, hc₁⟩ := stopsAt_still ht (hPS _ hP) h₁
      have hP₁ : P c₁.setting := by rw [hs₁]; exact hP
      simp only [h₁, Option.bind_eq_bind, Option.bind_some]
      split
      · split <;> exact ⟨_, rfl⟩
      · obtain ⟨⟨o₂, c₂⟩, h₂⟩ := hr.element hP₁
        have hs₂ := (ht.element (hPS _ hP₁) h₂).setting
        have hP₂ : P c₂.setting := by rw [hs₂]; exact hP₁
        have ha₂ := hm.element (hPS _ hP₁) h₂
        simp only [h₂, Option.bind_some]
        cases o₂ with
        | failure f =>
          dsimp only
          split <;> exact ⟨_, rfl⟩
        | success v =>
          obtain ⟨more, c₃, h₃⟩ := separates_halts hr hP₂
          have hs₃ := separates_kept ht (hPS _ hP₂) h₃
          have ha₃ := separates_travels travel_advance hm (hPS _ hP₂) h₃
          simp only [h₃, Option.bind_some]
          split
          · exact ⟨_, rfl⟩
          · split
            · exact ⟨_, rfl⟩
            · rename_i hmoved
              -- the round moved forward within the chunks
              have hlt : c.cursor < c₃.cursor ∧ c₃.cursor ≤ max c.cursor c.chunks.size := by
                unfold Advance at ha₂ ha₃
                rw [Context.chunks_eq hs₁] at ha₂
                rw [Context.chunks_eq hs₂, Context.chunks_eq hs₁] at ha₃
                omega
              refine rounds_halts hr ht hm hPS (by rw [hs₃]; exact hP₂) ?_
              rw [Context.chunks_eq hs₃, Context.chunks_eq hs₂, Context.chunks_eq hs₁]
              omega

end Repetition

end Walk

namespace Grammar

/-! ## How deep walks nest -/

theorem depth_pos {ρ : Type} (g : Grammar ρ) : 0 < g.extent.depth := by
  cases g <;> simp [extent, Extent.nest]

/-- An extent that is not deeper than the other one and needs no more elements. -/
structure Extent.FitsIn (a b : Extent) : Prop where
  depth : a.depth ≤ b.depth
  least : a.least ≤ b.least

namespace Extent

theorem FitsIn.refl (a : Extent) : a.FitsIn a := ⟨Nat.le_refl _, Nat.le_refl _⟩

theorem FitsIn.trans {a b c : Extent} (h : a.FitsIn b) (h' : b.FitsIn c) : a.FitsIn c :=
  ⟨Nat.le_trans h.depth h'.depth, Nat.le_trans h.least h'.least⟩

theorem fitsIn_join_left (a b : Extent) : a.FitsIn (a.join b) :=
  ⟨Nat.le_max_left _ _, Nat.le_max_left _ _⟩

theorem fitsIn_join_right (a b : Extent) : b.FitsIn (a.join b) :=
  ⟨Nat.le_max_right _ _, Nat.le_max_right _ _⟩

end Extent

theorem fitsIn_extentOfList {ρ : Type} {gs : List (Grammar ρ)} {g : Grammar ρ} (h : g ∈ gs) :
    g.extent.FitsIn (extentOfList gs) := by
  induction gs with
  | nil => cases h
  | cons g' gs ih =>
    rcases List.mem_cons.mp h with rfl | h
    · exact Extent.fitsIn_join_left _ _
    · exact (ih h).trans (Extent.fitsIn_join_right _ _)

theorem fitsIn_extentOfOption {ρ : Type} {o : Option (Grammar ρ)} {g : Grammar ρ} (h : g ∈ o) :
    g.extent.FitsIn (extentOfOption o) := by
  cases h
  exact .refl _

/-- Each part fits in what a grammar is nested around. -/
theorem part_fitsIn {ρ : Type} {g part : Grammar ρ} (hm : part ∈ g.parts) :
    ∃ e, g.extent = e.nest ∧ part.extent.FitsIn e := by
  cases g with
  | consume | behind | untilToken | unit | rule | native => simp [parts] at hm
  | sequence gs | choice gs =>
    exact ⟨_, rfl, fitsIn_extentOfList (show part ∈ gs from hm)⟩
  | untilMatch g | optional g | peek g | notAhead g | map _ g | discard g =>
    obtain rfl : part = g := by simpa [parts] using hm
    exact ⟨_, rfl, .refl _⟩
  | andThen g _ =>
    obtain rfl : part = g := by simpa [parts] using hm
    exact ⟨_, rfl, Extent.fitsIn_join_left _ _⟩
  | skipIn skip g =>
    have he : part = skip ∨ part = g := by simpa [parts] using hm
    refine ⟨_, rfl, .trans ?_ (Extent.fitsIn_join_left _ _)⟩
    rcases he with rfl | rfl
    · exact Extent.fitsIn_join_left _ _
    · exact Extent.fitsIn_join_right _ _
  | repeated g least separator stop =>
    have he : part = g ∨ part ∈ separator ∨ part ∈ stop := by
      simpa [parts, Option.mem_toList] using hm
    refine ⟨_, rfl, .trans ?_ (Extent.fitsIn_join_left _ _)⟩
    rcases he with rfl | he | he
    · exact Extent.fitsIn_join_left _ _
    · exact ((fitsIn_extentOfOption he).trans (Extent.fitsIn_join_left _ _)).trans
        (Extent.fitsIn_join_right _ _)
    · exact ((fitsIn_extentOfOption he).trans (Extent.fitsIn_join_right _ _)).trans
        (Extent.fitsIn_join_right _ _)

/-- A grammar is deeper than its parts. -/
theorem depth_part {ρ : Type} {g part : Grammar ρ} (hm : part ∈ g.parts) :
    part.extent.depth < g.extent.depth := by
  obtain ⟨e, he, hfits⟩ := part_fitsIn hm
  rw [he]
  exact Nat.lt_succ_of_le hfits.depth

theorem fitsIn_foldl_join (gs : List LinkedGrammar) (e : Extent) :
    e.FitsIn (gs.foldl (fun e g => e.join g.extent) e) ∧
    ∀ g ∈ gs, g.extent.FitsIn (gs.foldl (fun e g => e.join g.extent) e) := by
  induction gs generalizing e with
  | nil => exact ⟨.refl e, by simp⟩
  | cons g gs ih =>
    obtain ⟨he, hall⟩ := ih (e.join g.extent)
    exact ⟨(Extent.fitsIn_join_left _ _).trans he,
      List.forall_mem_cons.mpr ⟨(Extent.fitsIn_join_right _ _).trans he, hall⟩⟩

theorem wholeExtent_eq (rules : RuleTable) (c : Context LinkedGrammar) (g : LinkedGrammar) :
    wholeExtent rules c g = rules.toList.foldl (fun e g => e.join g.extent)
      (g.extent.join (extentOfOption c.skip)) := by
  rw [wholeExtent, Array.foldl_toList]

/-- The grammar, the skip rule and every rule fit in the whole extent. -/
theorem fitsIn_wholeExtent (rules : RuleTable) (c : Context LinkedGrammar) (g : LinkedGrammar) :
    g.extent.FitsIn (wholeExtent rules c g) ∧
    (∀ s ∈ c.skip, s.extent.FitsIn (wholeExtent rules c g)) ∧
    ∀ r ∈ rules, r.extent.FitsIn (wholeExtent rules c g) := by
  obtain ⟨he, hall⟩ := fitsIn_foldl_join rules.toList (g.extent.join (extentOfOption c.skip))
  rw [← wholeExtent_eq] at he hall
  refine ⟨(Extent.fitsIn_join_left _ _).trans he, ?_,
    fun r hr => hall r (Array.mem_toList_iff.mpr hr)⟩
  intro s hs
  exact ((fitsIn_extentOfOption hs).trans (Extent.fitsIn_join_right _ _)).trans he

/-! ## Enough steps -/

/-- The steps that are needed in a setting besides those for the grammar at hand, where
no grammar is deeper than `deep`: for the rules that can still be opened, for the skip
rule unless it is running, and for the rounds of a loop. -/
def room (deep : Nat) (s : Setting LinkedGrammar) : Nat :=
  (s.recursionLimit.getD 0 - s.ruleStack.length) * deep + (if s.skipping then 0 else deep)
    + (s.chunks.size + 1)

/-- A setting with a limit in which `k` steps are enough besides those for the grammar at
hand. -/
structure Within (deep k : Nat) (s : Setting LinkedGrammar) : Prop where
  limited : s.recursionLimit.isSome = true
  skip : ∀ g ∈ s.skip, g.isForward = true ∧ g.extent.depth ≤ deep
  room : room deep s ≤ k

theorem Within.inSkip {deep k : Nat} {s : Setting LinkedGrammar} (h : Within deep k s)
    (hk : s.skipping = false) : Within deep (k - deep) { s with skipping := true } := by
  refine ⟨h.limited, h.skip, ?_⟩
  have hr := h.room
  simp only [Grammar.room, hk, Bool.false_eq_true, if_false, if_true] at hr ⊢
  omega

theorem Within.pushRule {deep k : Nat} {c : Context LinkedGrammar} {name : String}
    (h : Within deep k c.setting) (hl : c.exceededLimit? = none) :
    Within deep (k - deep) (c.pushRule name).setting := by
  refine ⟨h.limited, h.skip, ?_⟩
  obtain ⟨limit, hlim⟩ := Option.isSome_iff_exists.mp h.limited
  have hlim : c.recursionLimit = some limit := hlim
  have hopen : c.ruleStack.length < limit := by
    simpa [Context.exceededLimit?, hlim, Option.filter_eq_none_iff] using hl
  -- opening a rule takes one from the rules that can be opened
  obtain ⟨m, hm⟩ : ∃ m, limit - c.ruleStack.length = m + 1 :=
    ⟨limit - c.ruleStack.length - 1, by omega⟩
  have hm' : limit - (c.ruleStack.length + 1) = m := by omega
  have hr : (limit - c.ruleStack.length) * deep + (if c.skipping then 0 else deep)
      + (c.chunks.size + 1) ≤ k := by
    simpa [Grammar.room, Context.setting, hlim] using h.room
  have hgoal : (limit - (c.ruleStack.length + 1)) * deep + (if c.skipping then 0 else deep)
      + (c.chunks.size + 1) ≤ k - deep := by
    rw [hm, Nat.add_mul, Nat.one_mul] at hr
    rw [hm']
    omega
  simpa [Grammar.room, Context.setting, Context.pushRule, Context.note, hlim] using hgoal

theorem Within.withSkip {deep k : Nat} {s : Setting LinkedGrammar} {skip : LinkedGrammar}
    (h : Within deep k s) (hskip : skip.isForward = true ∧ skip.extent.depth ≤ deep) :
    Within deep k { s with skip := some skip } := by
  refine ⟨h.limited, ?_, h.room⟩
  intro g hg
  cases hg
  exact hskip

theorem Within.size_lt {deep k : Nat} {c : Context LinkedGrammar} (h : Within deep k c.setting) :
    c.chunks.size - c.cursor < k := by
  have hr : Grammar.room deep c.setting ≤ k := h.room
  have hc : c.chunks.size + 1 ≤ Grammar.room deep c.setting := Nat.le_add_left _ _
  omega

variable {rules : RuleTable}

/-- The walk of a grammar ends if the walks of its parts do, and if those of the rules and
of the skip rules do with the steps for one of them less. -/
theorem step_halts {run : LinkedGrammar → Walk LinkedGrammar Value} {deep k fuel : Nat}
    {g : LinkedGrammar} (hg : g.isCareful = true) (hdeep : g.extent.depth ≤ deep) (hk : k ≤ fuel)
    (htidy : ∀ g, g.isBuiltIn = true → Walk.Tidy (·.isForward = true) (run g))
    (hmoves : ∀ g, g.isForward = true → Walk.Travels (·.isForward = true) Advance (run g))
    (hparts : ∀ part ∈ g.parts, Walk.Halts (Within deep k) (run part))
    (hrules : ∀ g ∈ rules, Walk.Halts (Within deep (k - deep)) (run g))
    (hskips : ∀ s, s.isForward = true → s.extent.depth ≤ deep →
      Walk.Halts (Within deep (k - deep)) (run s)) :
    Walk.Halts (Within deep k) (step rules fuel run g) := by
  have hPS : ∀ s, Within deep k s → ∀ g ∈ s.skip, g.isForward = true :=
    fun _ hP g hm => (hP.skip g hm).1
  have hrounds : ∀ {c : Context LinkedGrammar}, Within deep k c.setting →
      c.chunks.size - c.cursor < fuel := fun hP => Nat.lt_of_lt_of_le hP.size_lt hk
  have htidyParts : ∀ part ∈ g.parts, Walk.Tidy (·.isForward = true) (run part) :=
    fun part hm => htidy part (isBuiltIn_of_isCareful (isCareful_part hg hm))
  cases g with
  | consume t =>
    refine (Walk.consume_halts ?_ ?_ hrounds).map _
    · exact Walk.trySkip_halts (fun s hP hf => hP.inSkip hf)
        fun s hP skip hm => hskips skip (hP.skip skip hm).1 (hP.skip skip hm).2
    · intro c b c' hP h
      exact ⟨Walk.trySkip_skipped (fun s hs => htidy s (isBuiltIn_of_isForward hs)) (hPS _ hP) h,
        Walk.trySkip_travels travel_advance hmoves (hPS _ hP) h⟩
  | behind t => exact Walk.consumeBehind_halts.map _
  | untilToken t => exact Walk.untilToken_halts.map _
  | untilMatch g =>
    exact (Walk.untilMatch_halts (hparts g (by simp [parts])) (htidyParts g (by simp [parts])) hPS
      hrounds).map _
  | unit => exact fun c _ => ⟨_, rfl⟩
  | sequence gs =>
    exact (Walk.sequence_halts hPS (List.forall_mem_map.mpr htidyParts)
      (List.forall_mem_map.mpr hparts)).map _
  | choice gs =>
    exact Walk.choice_halts hPS (List.forall_mem_map.mpr htidyParts)
      (List.forall_mem_map.mpr hparts)
  | optional g => exact (Walk.optional_halts (hparts g (by simp [parts]))).map _
  | peek g => exact Walk.peek_halts (hparts g (by simp [parts]))
  | notAhead g => exact (Walk.notAhead_halts (hparts g (by simp [parts]))).map _
  | skipIn skip g =>
    have hm : skip ∈ (Grammar.skipIn skip g).parts := by simp [parts]
    refine Walk.withSkip_halts (hparts g (by simp [parts])) fun s hP => hP.withSkip ⟨?_, ?_⟩
    · exact isForward_part hg (by simp) (by simp) hm
    · have := depth_part hm
      omega
  | repeated g least separator stop =>
    have hforward : ∀ part ∈ (Grammar.repeated g least separator stop).openParts,
        Walk.Travels (·.isForward = true) Advance (run part) := fun part hm =>
      hmoves part (isForward_part hg (by simp) (by simp) (mem_parts_of_mem_openParts hm))
    obtain ⟨helement, hseparator, hstop⟩ := repeated_walks hparts
    refine Walk.Halts.map ?_ _
    intro c hP
    exact Walk.Repetition.rounds_halts ⟨helement, hseparator, hstop⟩ (repeated_tidy htidyParts)
      (repeated_travels hforward) hPS hP (hrounds hP)
  | rule r =>
    intro c hP
    show ∃ x, call rules run r c = some x
    unfold call
    split
    · rename_i g hget
      exact Walk.inRule_halts (hrules g (Array.mem_of_getElem? hget))
        (fun c hP hl => hP.pushRule hl) hP
    · exact ⟨_, rfl⟩
  | map f g => exact (hparts g (by simp [parts])).map f
  | discard g => exact (hparts g (by simp [parts])).map _
  | native f => cases all_self (isBuiltIn_of_isCareful hg)
  | andThen g f => cases all_self (isBuiltIn_of_isCareful hg)

/-- With as many steps as the grammar is deep and as are needed besides, a walk ends. -/
theorem run_halts {deep : Nat}
    (hrules : ∀ g ∈ rules, g.isForward = true ∧ g.extent.depth ≤ deep) {fuel k : Nat}
    {g : LinkedGrammar} (hg : g.isCareful = true) (hdeep : g.extent.depth ≤ deep)
    (hfuel : g.extent.depth + k ≤ fuel) : Walk.Halts (Within deep k) (run rules fuel g) := by
  induction fuel generalizing g k with
  | zero =>
    have := depth_pos g
    omega
  | succ fuel ih =>
    have hpos := depth_pos g
    have hbuilt : ∀ g ∈ rules, g.isBuiltIn = true :=
      fun g hm => isBuiltIn_of_isForward (hrules g hm).1
    -- one rule or one run of the skip rule less to nest
    have hless : ∀ {g : LinkedGrammar}, g.isForward = true → g.extent.depth ≤ deep →
        Walk.Halts (Within deep (k - deep)) (run rules fuel g) := by
      intro g' hg' hdeep' c hP
      have hsize := hP.size_lt
      exact ih (isCareful_of_isForward hg') hdeep' (by omega) hP
    refine step_halts hg hdeep (by omega)
      (fun g hb => (run_tidy hbuilt hb).mono fun _ => isBuiltIn_of_isForward)
      (fun g hf => run_travels travel_advance (fun g hm => (hrules g hm).1) hf)
      (fun part hm => ?_) (fun g hm => hless (hrules g hm).1 (hrules g hm).2)
      (fun s hf hd => hless hf hd)
    have := depth_part hm
    exact ih (isCareful_part hg hm) (by omega) (by omega)

theorem room_le_enoughFuel {c : Context LinkedGrammar} {g : LinkedGrammar} {limit : Nat}
    (hlimit : c.recursionLimit = some limit) :
    g.extent.depth + room (wholeExtent rules c g).depth c.setting ≤ enoughFuel rules c g := by
  have hg := (fitsIn_wholeExtent rules c g).1.depth
  have hrules : (limit - c.ruleStack.length) * (wholeExtent rules c g).depth
      ≤ limit * (wholeExtent rules c g).depth := Nat.mul_le_mul_right _ (Nat.sub_le _ _)
  have hmul : (limit + 3) * ((wholeExtent rules c g).depth + 2)
      = limit * (wholeExtent rules c g).depth + 3 * (wholeExtent rules c g).depth
        + (2 * limit + 6) := by ring
  have hskip : (if c.skipping then 0 else (wholeExtent rules c g).depth)
      ≤ (wholeExtent rules c g).depth := by
    split <;> omega
  simp only [room, enoughFuel, openRules, loopRounds, places, Context.setting, hlimit,
    Option.getD_some]
  omega

/-- A grammar that looks behind only to look has an outcome under a limit, and the steps
that it is given are enough for it. -/
theorem parse_isSome (hrules : ∀ g ∈ rules, g.isForward = true) {g : LinkedGrammar}
    (hg : g.isForward = true) {c : Context LinkedGrammar}
    (hskip : ∀ s ∈ c.skip, s.isForward = true) {limit : Nat}
    (hlimit : c.recursionLimit = some limit) : ∃ r, parse rules g c = some r := by
  obtain ⟨hdeep, hskips, htable⟩ := fitsIn_wholeExtent rules c g
  refine run_halts (fun g hm => ⟨hrules g hm, (htable g hm).depth⟩) (isCareful_of_isForward hg)
    hdeep.depth (room_le_enoughFuel hlimit)
    ⟨?_, fun s hs => ⟨hskip s hs, (hskips s hs).depth⟩, Nat.le_refl _⟩
  simp [Context.setting, hlimit]

end Grammar

namespace Parser

/-- Whether all grammars of a parser are made of what is built in and look behind only to
look. -/
def isForward (p : Parser) : Bool :=
  p.rules.toList.all (·.isForward) && p.skip.all (·.isForward)

theorem entry?_isForward {p : Parser} {name : String} {entry : LinkedGrammar}
    (h : p.entry? name = some entry) : entry.isForward = true := by
  obtain ⟨symbol, _, rfl⟩ := Option.map_eq_some_iff.mp h
  rfl

/-- The run of an entry under a limit ends. -/
theorem parse_entry_isSome {p : Parser} (hp : p.isForward = true) {limit : Nat}
    (hlimit : p.recursionLimit = some limit) {name : String} {entry : LinkedGrammar}
    (hentry : p.entry? name = some entry) (chunks : Chunks) (trace : Option Trace) :
    ∃ r, Grammar.parse p.rules entry (p.start chunks trace) = some r := by
  obtain ⟨hrules, hskip⟩ := Bool.and_eq_true_iff.mp hp
  exact Grammar.parse_isSome
    (fun g hm => List.all_eq_true.mp hrules g (Array.mem_toList_iff.mpr hm))
    (entry?_isForward hentry) (fun s hs => (Option.all_eq_true _ _).mp hskip s hs) hlimit

/-- **Every parse under a recursion limit ends**, whatever the rules call and however the
skip rule does. Any number of steps from the given one on leads to the same result. -/
theorem parse_terminates {p : Parser} (hp : p.isForward = true) {limit : Nat}
    (hlimit : p.recursionLimit = some limit) (name text : String) (trace : Option Trace) :
    ∃ r, (p.parse name text trace).1 = some r ∧
      ∀ entry, p.entry? name = some entry → ∀ fuel,
        Grammar.enoughFuel p.rules (p.start (p.tokenizer.tokenize text).1 trace) entry ≤ fuel →
        p.runWith fuel entry (p.tokenizer.tokenize text).1 trace = some r := by
  cases hentry : p.entry? name with
  | none =>
    rw [parse_of_unknown hentry]
    exact ⟨_, rfl, fun entry he => by cases he⟩
  | some entry =>
    obtain ⟨⟨o, c⟩, h⟩ :=
      parse_entry_isSome hp hlimit hentry (p.tokenizer.tokenize text).1 trace
    refine ⟨(c.finish o, c.trace), ?_, ?_⟩
    · have h : Grammar.run p.rules _ _ _ = some (o, c) := h
      rw [fst_parse hentry]
      simp [run, runWith, h]
    · intro entry' he fuel hfuel
      cases he
      have h := Grammar.run_le hfuel entry h
      simp [runWith, h]

/-- A rule that begins with itself, and is its own skip rule. -/
theorem parse_terminates_left_recursion :
    ∃ r, (Parser.parse
      { tokenizer := { pattern := "", program := none }
        symbols := ⟨#["A"]⟩
        rules := #[.repeated (.choice [.rule ⟨⟨0⟩, "A"⟩, .peek (.behind .eof)]) 7 none none]
        skip := some (.rule ⟨⟨0⟩, "A"⟩)
        recursionLimit := some 3 } "A" "x" none).1 = some r := by
  obtain ⟨r, h, _⟩ := parse_terminates (p :=
    { tokenizer := { pattern := "", program := none }
      symbols := ⟨#["A"]⟩
      rules := #[.repeated (.choice [.rule ⟨⟨0⟩, "A"⟩, .peek (.behind .eof)]) 7 none none]
      skip := some (.rule ⟨⟨0⟩, "A"⟩)
      recursionLimit := some 3 }) (by decide) rfl "A" "x" none
  exact ⟨r, h⟩

end Parser

end Chunkwise
