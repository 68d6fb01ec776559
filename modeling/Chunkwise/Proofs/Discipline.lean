import Chunkwise.Proofs.Cases
import Chunkwise.Proofs.Parts

/-! Backtracking discipline. Walks change the skip rule, the mark that it is running,
the open rules and the cursor for a while. Whatever the outcome, all but the cursor
are put back, and a walk that fails puts back the cursor too. The first part says
this of each way to make a walk, the second one of the walk of a grammar. -/

namespace Chunkwise

/-- What of a context a walk finds again when it is over. -/
structure Setting (σ : Type) where
  chunks : Chunks
  skip : Option σ
  skipping : Bool
  ruleStack : List String
  recursionLimit : Option Nat

namespace Context

variable {σ : Type}

def setting (c : Context σ) : Setting σ :=
  ⟨c.chunks, c.skip, c.skipping, c.ruleStack, c.recursionLimit⟩

@[simp] theorem setting_moveTo (c : Context σ) (i : Nat) : (c.moveTo i).setting = c.setting := rfl

@[simp] theorem setting_note (c : Context σ) (f : Trace → Trace) :
    (c.note f).setting = c.setting := rfl

@[simp] theorem setting_noteMatch (c : Context σ) (t : Token) :
    (c.noteMatch t).setting = c.setting := rfl

@[simp] theorem setting_noteMiss (c : Context σ) (t : Token) :
    (c.noteMiss t).setting = c.setting := rfl

@[simp] theorem setting_restore (c : Context σ) (i : Nat) :
    (c.restore i).setting = c.setting := by
  unfold restore
  split <;> rfl

@[simp] theorem setting_skipEmpty (c : Context σ) : c.skipEmpty.setting = c.setting := rfl

@[simp] theorem setting_record (c : Context σ) (f : Failure) :
    (c.record f).setting = c.setting := rfl

@[simp] theorem setting_halt (c : Context σ) (d : Defect) : (c.halt d).setting = c.setting := rfl

theorem skip_eq {c c' : Context σ} (h : c'.setting = c.setting) : c'.skip = c.skip :=
  congrArg Setting.skip h

theorem chunks_eq {c c' : Context σ} (h : c'.setting = c.setting) : c'.chunks = c.chunks :=
  congrArg Setting.chunks h

theorem skip_of_setting {S : σ → Prop} {c c' : Context σ} (h : c'.setting = c.setting)
    (hS : ∀ s ∈ c.skip, S s) : ∀ s ∈ c'.skip, S s := by
  rw [skip_eq h]
  exact hS

/-- Two contexts of one setting differ in the cursor, the deepest failure, the defect
and the trace at most. -/
theorem eq_of_setting {c c' : Context σ} (h : c'.setting = c.setting) :
    c' = { c with
      cursor := c'.cursor, deepest := c'.deepest, fatal := c'.fatal, trace := c'.trace } := by
  obtain ⟨chunks, cursor, skip, skipping, deepest, ruleStack, limit, fatal, trace⟩ := c'
  obtain ⟨rfl, rfl, rfl, rfl, rfl⟩ := Setting.mk.inj h
  rfl

/-- A setting is kept when the skip rule is replaced and then put back. -/
theorem setting_withSkip_back {c c' : Context σ} {skip : Option σ}
    (h : c'.setting = (c.withSkip skip).setting) : (c'.withSkip c.skip).setting = c.setting :=
  congrArg (fun s : Setting σ => { s with skip := c.skip }) h

/-- A setting is kept when a rule is entered and then left. -/
theorem setting_exitRule {c c' : Context σ} {name : String} {matched : Bool}
    (h : c'.setting = (c.pushRule name).setting) : (c'.exitRule matched).setting = c.setting := by
  have hs : c'.ruleStack = name :: c.ruleStack := congrArg Setting.ruleStack h
  unfold exitRule
  rw [hs]
  exact congrArg (fun s : Setting σ => { s with ruleStack := c.ruleStack }) h

@[simp] theorem cursor_exitRule (c : Context σ) (matched : Bool) :
    (c.exitRule matched).cursor = c.cursor := by
  unfold exitRule
  split <;> rfl

end Context

/-- What a walk keeps: the setting, and if it fails the cursor. -/
structure Kept {σ α : Type} (c : Context σ) (o : Outcome α) (c' : Context σ) : Prop where
  setting : c'.setting = c.setting
  cursor : o.isSuccess = false → c'.cursor = c.cursor

namespace Walk

variable {σ α β γ : Type} {S : σ → Prop}

/-- The walk keeps what it should wherever the skip rule in force is one of `S`. -/
def Tidy (S : σ → Prop) (w : Walk σ α) : Prop :=
  ∀ ⦃c o c'⦄, (∀ s ∈ c.skip, S s) → w c = some (o, c') → Kept c o c'

theorem Tidy.map {w : Walk σ α} (hw : Tidy S w) (f : α → β) : Tidy S (w.map f) := by
  intro c o c' hS h
  obtain ⟨⟨o₁, c₁⟩, h₁, he⟩ := Option.map_eq_some_iff.mp h
  cases he
  obtain ⟨hs, hc⟩ := hw hS h₁
  exact ⟨hs, fun hf => hc (by simpa using hf)⟩

/-! ## Combined walks -/

theorem setting_inTurn : ∀ {ws : List (Walk σ α)}, (∀ w ∈ ws, Tidy S w) →
    ∀ {c o c'}, (∀ s ∈ c.skip, S s) → inTurn ws c = some (o, c') → c'.setting = c.setting
  | [], _, c, o, c', _, h => by cases h; rfl
  | w :: ws, hws, c, o, c', hS, h => by
    obtain ⟨⟨o₁, c₁⟩, h₁, h⟩ := Option.bind_eq_some_iff.mp h
    have hk := (hws w (by simp)) hS h₁
    cases o₁ with
    | failure f => cases h; exact hk.setting
    | success v =>
      obtain ⟨⟨o₂, c₂⟩, h₂, h⟩ := Option.bind_eq_some_iff.mp h
      cases h
      have hS₁ := Context.skip_of_setting hk.setting hS
      exact (setting_inTurn (fun w hw => hws w (by simp [hw])) hS₁ h₂).trans hk.setting

theorem sequence_tidy {ws : List (Walk σ α)} (hws : ∀ w ∈ ws, Tidy S w) :
    Tidy S (sequence ws) := by
  intro c o c' hS h
  obtain ⟨⟨o₁, c₁⟩, h₁, h⟩ := Option.bind_eq_some_iff.mp h
  have hs := setting_inTurn hws hS h₁
  cases o₁ with
  | success vs => cases h; exact ⟨hs, fun hf => by cases hf⟩
  | failure f => cases h; exact ⟨by simpa using hs, fun _ => by simp⟩

theorem tryEach_kept : ∀ {ws : List (Walk σ α)}, (∀ w ∈ ws, Tidy S w) →
    ∀ {before c o c'}, (∀ s ∈ c.skip, S s) → tryEach c.cursor before ws c = some (o, c') →
      Kept c o c'
  | [], _, some f, c, o, c', _, h => by cases h; exact ⟨rfl, fun _ => rfl⟩
  | [], _, none, c, o, c', _, h => by cases h; exact ⟨rfl, fun _ => rfl⟩
  | w :: ws, hws, before, c, o, c', hS, h => by
    rw [tryEach] at h
    obtain ⟨⟨o₁, c₁⟩, h₁, h⟩ := Option.bind_eq_some_iff.mp h
    have hk := (hws w (by simp)) hS h₁
    cases o₁ with
    | success v => cases h; exact hk
    | failure f =>
      have hs : (c₁.restore c.cursor).setting = c.setting := by simpa using hk.setting
      have hS₁ := Context.skip_of_setting hs hS
      have h : tryEach (c₁.restore c.cursor).cursor (some (.deepest before f)) ws
          (c₁.restore c.cursor) = some (o, c') := by simpa using h
      obtain ⟨hs', hc'⟩ := tryEach_kept (fun w hw => hws w (by simp [hw])) hS₁ h
      exact ⟨hs'.trans hs, fun hf => by simpa using hc' hf⟩

theorem choice_tidy {ws : List (Walk σ α)} (hws : ∀ w ∈ ws, Tidy S w) : Tidy S (choice ws) :=
  fun _ _ _ hS h => tryEach_kept hws hS h

theorem optional_tidy {w : Walk σ α} (hw : Tidy S w) : Tidy S (optional w) := by
  intro c o c' hS h
  obtain ⟨⟨o₁, c₁⟩, h₁, h⟩ := Option.bind_eq_some_iff.mp h
  have hk := hw hS h₁
  cases o₁ with
  | success v => cases h; exact ⟨hk.setting, fun hf => by cases hf⟩
  | failure f => cases h; exact ⟨by simpa using hk.setting, fun hf => by cases hf⟩

/-- Looking ahead never moves. -/
theorem peek_still {w : Walk σ α} (hw : Tidy S w) {c o c'} (hS : ∀ s ∈ c.skip, S s)
    (h : peek w c = some (o, c')) : c'.setting = c.setting ∧ c'.cursor = c.cursor := by
  obtain ⟨⟨o₁, c₁⟩, h₁, h⟩ := Option.bind_eq_some_iff.mp h
  cases h
  exact ⟨(Context.setting_restore c₁ c.cursor).trans (hw hS h₁).setting,
    Context.cursor_restore c₁ c.cursor⟩

theorem peek_tidy {w : Walk σ α} (hw : Tidy S w) : Tidy S (peek w) := by
  intro c o c' hS h
  obtain ⟨hs, hc⟩ := peek_still hw hS h
  exact ⟨hs, fun _ => hc⟩

theorem probe_still {w : Walk σ α} (hw : Tidy S w) {c b c'} (hS : ∀ s ∈ c.skip, S s)
    (h : probe w c = some (b, c')) : c'.setting = c.setting ∧ c'.cursor = c.cursor := by
  obtain ⟨⟨o₁, c₁⟩, h₁, h⟩ := Option.bind_eq_some_iff.mp h
  cases h
  exact peek_still hw hS h₁

theorem notAhead_tidy {w : Walk σ α} (hw : Tidy S w) : Tidy S (notAhead w) := by
  intro c o c' hS h
  obtain ⟨⟨b, c₁⟩, h₁, h⟩ := Option.bind_eq_some_iff.mp h
  obtain ⟨hs, hc⟩ := probe_still hw hS h₁
  cases b with
  | true => cases h; exact ⟨hs, fun _ => hc⟩
  | false => cases h; exact ⟨hs, fun _ => hc⟩

theorem withSkip_tidy {w : Walk σ α} {skip : σ} (hskip : S skip) (hw : Tidy S w) :
    Tidy S (withSkip skip w) := by
  intro c o c' hS h
  obtain ⟨⟨o₁, c₁⟩, h₁, h⟩ := Option.bind_eq_some_iff.mp h
  cases h
  have hS₁ : ∀ s ∈ (c.withSkip (some skip)).skip, S s := by
    intro s hs
    cases hs
    exact hskip
  obtain ⟨hs, hc⟩ := hw hS₁ h₁
  exact ⟨Context.setting_withSkip_back hs, hc⟩

/-- What an attempt to skip does to the context: the cursor moves on or stays. -/
structure Skipped (c : Context σ) (moved : Bool) (c' : Context σ) : Prop where
  setting : c'.setting = c.setting
  cursor : if moved then c.cursor < c'.cursor else c'.cursor = c.cursor

theorem trySkip_skipped {run : σ → Walk σ α} (hrun : ∀ s, S s → Tidy S (run s)) {c b c'}
    (hS : ∀ s ∈ c.skip, S s) (h : trySkip run c = some (b, c')) : Skipped c b c' := by
  -- the mark that the skip rule is running was off before it ran
  have hback : ∀ {skip o c₁}, c.skipping = false → c.skip = some skip →
      run skip (inSkip c) = some (o, c₁) → (outOfSkip c c₁).setting = c.setting := by
    intro skip o c₁ hk hskip h₁
    have hs := (hrun skip (hS skip hskip) (c := inSkip c) hS h₁).setting
    have := congrArg (fun s : Setting σ => { s with skipping := false }) hs
    simpa [Context.setting, inSkip, outOfSkip, hk] using this
  rcases trySkip_cases h with ⟨_, rfl, rfl⟩ | ⟨skip, o, c₁, hk, hskip, h₁, _, hm, rfl, rfl⟩ |
    ⟨skip, o, c₁, hk, hskip, h₁, _, rfl, rfl⟩
  · exact ⟨rfl, rfl⟩
  · have hs := hback hk hskip h₁
    exact ⟨hs, hm⟩
  · have hs := hback hk hskip h₁
    exact ⟨hs, rfl⟩

theorem inRule_tidy {w : Walk σ α} (hw : Tidy S w) (name : String) : Tidy S (inRule name w) := by
  intro c o c' hS h
  rcases inRule_cases h with ⟨_, rfl, rfl⟩ | ⟨limit, _, _, rfl, rfl⟩ | ⟨c₁, _, _, h₁, rfl⟩
  · exact ⟨rfl, fun _ => rfl⟩
  · exact ⟨rfl, fun _ => rfl⟩
  · obtain ⟨hs, hc⟩ := hw (c := c.pushRule name) hS h₁
    refine ⟨Context.setting_exitRule hs, ?_⟩
    intro hf
    rw [Context.cursor_exitRule]
    exact hc hf

/-! ## Terminals -/

theorem consumeFrom_kept {skip : Context σ → Option (Bool × Context σ)} {token : Token}
    (hskip : ∀ {c b c'}, (∀ s ∈ c.skip, S s) → skip c = some (b, c') → Skipped c b c')
    {start : Nat} : ∀ {fuel c o c'}, (∀ s ∈ c.skip, S s) →
      consumeFrom skip token start fuel c = some (o, c') →
      c'.setting = c.setting ∧ (o.isSuccess = false → c'.cursor = start)
  | 0, _, _, _, _, h => by cases h
  | fuel + 1, c, o, c', hS, h => by
    rcases consumeFrom_cases h with ⟨_, _, rfl, rfl⟩ | ⟨chunk, _, _, rfl, rfl⟩ |
      ⟨c₁, h₁, rfl, rfl⟩ | ⟨c₁, h₁, h⟩
    · exact ⟨rfl, fun hf => by cases hf⟩
    · exact ⟨rfl, fun hf => by cases hf⟩
    · have hs : c₁.setting = c.setting := (hskip (c := c.skipEmpty) hS h₁).setting
      exact ⟨by simpa using hs, fun _ => Context.cursor_restore _ _⟩
    · have hs : c₁.setting = c.setting := (hskip (c := c.skipEmpty) hS h₁).setting
      obtain ⟨hs', hc⟩ := consumeFrom_kept hskip (Context.skip_of_setting hs hS) h
      exact ⟨hs'.trans hs, hc⟩

theorem consume_tidy {skip : Context σ → Option (Bool × Context σ)} {token : Token} {fuel : Nat}
    (hskip : ∀ {c b c'}, (∀ s ∈ c.skip, S s) → skip c = some (b, c') → Skipped c b c') :
    Tidy S (consume skip token fuel) := by
  intro c o c' hS h
  unfold consume at h
  split at h
  · cases h; exact ⟨rfl, fun _ => rfl⟩
  · obtain ⟨hs, hc⟩ := consumeFrom_kept hskip hS h
    exact ⟨hs, hc⟩

theorem consumeBehind_tidy {token : Token} : Tidy S (consumeBehind token : Walk σ String) := by
  intro c o c' _ h
  unfold consumeBehind at h
  split at h
  · cases h; exact ⟨rfl, fun _ => rfl⟩
  · split at h
    · split at h
      · cases h; exact ⟨rfl, fun hf => by cases hf⟩
      · cases h; exact ⟨rfl, fun _ => rfl⟩
    · split at h
      · cases h; exact ⟨rfl, fun hf => by cases hf⟩
      · cases h; exact ⟨rfl, fun _ => rfl⟩

theorem untilToken_tidy {token : Token} :
    Tidy S (untilToken token : Walk σ (List String)) := by
  intro c o c' _ h
  unfold untilToken at h
  split at h
  · cases h; exact ⟨rfl, fun _ => rfl⟩
  · dsimp only at h
    split at h
    · cases h; exact ⟨rfl, fun hf => by cases hf⟩
    · cases h
      exact ⟨Context.setting_restore _ _, fun _ => Context.cursor_restore _ _⟩

theorem untilMatchFrom_kept {stop : Walk σ α} (hstop : Tidy S stop) {start : Nat} :
    ∀ {fuel gathered c o c'}, (∀ s ∈ c.skip, S s) →
      untilMatchFrom stop start fuel gathered c = some (o, c') →
      c'.setting = c.setting ∧ (o.isSuccess = false → c'.cursor = start)
  | 0, _, _, _, _, _, h => by cases h
  | fuel + 1, gathered, c, o, c', hS, h => by
    have hprobe : ∀ {b c₁}, probe stop c.skipEmpty = some (b, c₁) → c₁.setting = c.setting :=
      fun h₁ => (probe_still hstop (c := c.skipEmpty) hS h₁).1
    rcases untilMatchFrom_cases h with ⟨h₁, rfl⟩ | ⟨c₁, h₁, _, rfl, rfl⟩ | ⟨c₁, chunk, h₁, _, h⟩
    · exact ⟨hprobe h₁, fun hf => by cases hf⟩
    · exact ⟨by simpa using hprobe h₁, fun _ => Context.cursor_restore _ _⟩
    · have hs₁ := hprobe h₁
      have hs : (c₁.moveTo (c.skipEmpty.cursor + 1)).setting = c.setting := hs₁
      obtain ⟨hs', hc⟩ := untilMatchFrom_kept hstop (Context.skip_of_setting hs hS) h
      exact ⟨hs'.trans hs, hc⟩

theorem untilMatch_tidy {stop : Walk σ α} (hstop : Tidy S stop) {fuel : Nat} :
    Tidy S (untilMatch stop fuel) := by
  intro c o c' hS h
  unfold untilMatch at h
  split at h
  · cases h; exact ⟨rfl, fun _ => rfl⟩
  · obtain ⟨hs, hc⟩ := untilMatchFrom_kept hstop hS h
    exact ⟨hs, hc⟩

/-! ## Repetition -/

namespace Repetition

/-- The walks of a repetition are tidy. -/
structure Tidy (S : σ → Prop) (r : Repetition σ α β γ) : Prop where
  element : Walk.Tidy S r.element
  separator : ∀ w ∈ r.separator, Walk.Tidy S w
  stop : ∀ w ∈ r.stop, Walk.Tidy S w

theorem stopsAt_still {r : Repetition σ α β γ} (hr : r.Tidy S) {c b c'} (hS : ∀ s ∈ c.skip, S s)
    (h : r.stopsAt c = some (b, c')) : c'.setting = c.setting ∧ c'.cursor = c.cursor := by
  unfold stopsAt at h
  split at h
  · cases h; exact ⟨rfl, rfl⟩
  · rename_i stop hstop
    exact probe_still (hr.stop stop hstop) hS h

theorem separates_kept {r : Repetition σ α β γ} (hr : r.Tidy S) {c b c'}
    (hS : ∀ s ∈ c.skip, S s) (h : r.separates c = some (b, c')) : c'.setting = c.setting := by
  unfold separates at h
  split at h
  · cases h; rfl
  · rename_i separator hsep
    obtain ⟨⟨o₁, c₁⟩, h₁, h⟩ := Option.bind_eq_some_iff.mp h
    cases h
    exact (hr.separator separator hsep hS h₁).setting

/-- A round that goes on keeps the setting. -/
theorem Continues.setting {r : Repetition σ α β γ} (hr : r.Tidy S) {c v c₁ c₂ c₃}
    (hS : ∀ s ∈ c.skip, S s) (h : r.Continues c v c₁ c₂ c₃) :
    c₁.setting = c.setting ∧ c₂.setting = c.setting ∧ c₃.setting = c.setting := by
  have hs₁ := (stopsAt_still hr hS h.stopsAt).1
  have hs₂ := (hr.element (Context.skip_of_setting hs₁ hS) h.element).setting.trans hs₁
  have hs₃ := separates_kept hr (Context.skip_of_setting hs₂ hS) h.separates
  exact ⟨hs₁, hs₂, hs₃.trans hs₂⟩

/-- A repetition ends in the setting in which its last round began, and at its start if
it fails. -/
theorem Leaves.kept {r : Repetition σ α β γ} (hr : r.Tidy S) {start rewind values c o c'}
    (hS : ∀ s ∈ c.skip, S s) (h : r.Leaves start rewind values c o c') :
    c'.setting = c.setting ∧ (o.isSuccess = false → c'.cursor = start) := by
  have hstop : ∀ {b c₁}, r.stopsAt c = some (b, c₁) → c₁.setting = c.setting :=
    fun h₁ => (stopsAt_still hr hS h₁).1
  have helement : ∀ {c₁ o₂ c₂}, r.stopsAt c = some (false, c₁) → r.element c₁ = some (o₂, c₂) →
      c₂.setting = c.setting := fun h₁ h₂ =>
    (hr.element (Context.skip_of_setting (hstop h₁) hS) h₂).setting.trans (hstop h₁)
  cases h with
  | exhausted _ _ => exact ⟨by simp, fun hf => by cases hf⟩
  | stopped h₁ _ => exact ⟨by simpa using hstop h₁, fun hf => by cases hf⟩
  | stoppedShort h₁ _ => exact ⟨by simpa using hstop h₁, fun _ => Context.cursor_restore _ _⟩
  | missed h₁ h₂ _ => exact ⟨by simpa using helement h₁ h₂, fun hf => by cases hf⟩
  | missedShort h₁ h₂ _ =>
    exact ⟨by simpa using helement h₁ h₂, fun _ => Context.cursor_restore _ _⟩
  | last h₁ h₂ h₃ =>
    have hs₂ := helement h₁ h₂
    have hs₃ := (separates_kept hr (Context.skip_of_setting hs₂ hS) h₃).trans hs₂
    exact ⟨by simpa using hs₃, fun hf => by cases hf⟩
  | stuck h₁ h₂ h₃ _ =>
    have hs₂ := helement h₁ h₂
    have hs₃ := (separates_kept hr (Context.skip_of_setting hs₂ hS) h₃).trans hs₂
    exact ⟨by simpa using hs₃, fun _ => Context.cursor_restore _ _⟩

theorem rounds_kept {r : Repetition σ α β γ} (hr : r.Tidy S) {start : Nat} :
    ∀ {fuel rewind values c o c'}, (∀ s ∈ c.skip, S s) →
      r.rounds start fuel rewind values c = some (o, c') →
      c'.setting = c.setting ∧ (o.isSuccess = false → c'.cursor = start)
  | 0, _, _, _, _, _, _, h => by cases h
  | fuel + 1, rewind, values, c, o, c', hS, h => by
    rcases rounds_cases h with hl | ⟨v, c₁, c₂, c₃, hc, h⟩
    · exact hl.kept hr hS
    · obtain ⟨_, _, hs₃⟩ := hc.setting hr hS
      obtain ⟨hs', hf⟩ := rounds_kept hr (Context.skip_of_setting hs₃ hS) h
      exact ⟨hs'.trans hs₃, hf⟩

end Repetition

theorem repetition_tidy {r : Repetition σ α β γ} (hr : r.Tidy S) {fuel : Nat} :
    Tidy S (repetition r fuel) := by
  intro c o c' hS h
  obtain ⟨hs, hc⟩ := Repetition.rounds_kept hr hS h
  exact ⟨hs, hc⟩

end Walk

/-! ## Grammars -/

namespace Grammar

variable {rules : RuleTable}

theorem call_tidy {run : LinkedGrammar → Walk LinkedGrammar Value} {S : LinkedGrammar → Prop}
    (hrun : ∀ g ∈ rules, Walk.Tidy S (run g)) (r : RuleRef) :
    Walk.Tidy S (call rules run r) := by
  intro c o c' hS h
  rcases call_cases h with ⟨g, hg, h⟩ | ⟨_, rfl, rfl⟩
  · exact Walk.inRule_tidy (hrun g (Array.mem_of_getElem? hg)) r.name hS h
  · exact ⟨rfl, fun _ => rfl⟩

/-- What the walks of the parts of a repetition have in common, the walks that it is made of
have. -/
theorem repeated_walks {run : LinkedGrammar → Walk LinkedGrammar Value}
    {p : Walk LinkedGrammar Value → Prop} {g : LinkedGrammar} {least : Nat}
    {separator stop : Option LinkedGrammar}
    (hparts : ∀ part ∈ (Grammar.repeated g least separator stop).parts, p (run part)) :
    p (run g) ∧ (∀ w ∈ separator.map run, p w) ∧ ∀ w ∈ stop.map run, p w := by
  refine ⟨hparts g (by simp [parts]), ?_, ?_⟩
  · intro w hw
    obtain ⟨g, hm, rfl⟩ := Option.map_eq_some_iff.mp hw
    exact hparts g (by simp [parts, hm])
  · intro w hw
    obtain ⟨g, hm, rfl⟩ := Option.map_eq_some_iff.mp hw
    exact hparts g (by simp [parts, hm])

theorem repeated_tidy {run : LinkedGrammar → Walk LinkedGrammar Value} {S : LinkedGrammar → Prop}
    {g : LinkedGrammar} {least : Nat} {separator stop : Option LinkedGrammar}
    (hparts : ∀ part ∈ (Grammar.repeated g least separator stop).parts, Walk.Tidy S (run part)) :
    Walk.Repetition.Tidy S ⟨run g, least, separator.map run, stop.map run⟩ := by
  obtain ⟨helement, hseparator, hstop⟩ := repeated_walks hparts
  exact ⟨helement, hseparator, hstop⟩

/-- The walk of a grammar is tidy if the walks of its parts, of the rules and of the
skip rules are. -/
theorem step_tidy {run : LinkedGrammar → Walk LinkedGrammar Value} {S : LinkedGrammar → Prop}
    {fuel : Nat} {g : LinkedGrammar} (hg : g.isNative = false)
    (hrules : ∀ g ∈ rules, Walk.Tidy S (run g)) (hskips : ∀ s, S s → Walk.Tidy S (run s))
    (hinstalled : ∀ skip body, g = .skipIn skip body → S skip)
    (hparts : ∀ part ∈ g.parts, Walk.Tidy S (run part)) :
    Walk.Tidy S (step rules fuel run g) := by
  cases g with
  | consume t => exact (Walk.consume_tidy (Walk.trySkip_skipped hskips)).map _
  | behind t => exact Walk.consumeBehind_tidy.map _
  | untilToken t => exact Walk.untilToken_tidy.map _
  | untilMatch g => exact (Walk.untilMatch_tidy (hparts g (by simp [parts]))).map _
  | unit =>
    intro c o c' _ h
    cases h
    exact ⟨rfl, fun _ => rfl⟩
  | sequence gs => exact (Walk.sequence_tidy (List.forall_mem_map.mpr hparts)).map _
  | choice gs => exact Walk.choice_tidy (List.forall_mem_map.mpr hparts)
  | optional g => exact (Walk.optional_tidy (hparts g (by simp [parts]))).map _
  | peek g => exact Walk.peek_tidy (hparts g (by simp [parts]))
  | notAhead g => exact (Walk.notAhead_tidy (hparts g (by simp [parts]))).map _
  | skipIn skip g =>
    exact Walk.withSkip_tidy (hinstalled skip g rfl) (hparts g (by simp [parts]))
  | repeated g least separator stop => exact (Walk.repetition_tidy (repeated_tidy hparts)).map _
  | rule r => exact call_tidy hrules r
  | map f g => exact (hparts g (by simp [parts])).map f
  | discard g => exact (hparts g (by simp [parts])).map _
  | native f => cases hg
  | andThen g f => cases hg

/-- The walk of a grammar that is made of what is built in is tidy, whatever rules
it comes to and whichever skip rules are in force on the way. -/
theorem run_tidy (hrules : ∀ g ∈ rules, g.isBuiltIn = true) {fuel : Nat} {g : LinkedGrammar}
    (hg : g.isBuiltIn = true) : Walk.Tidy (·.isBuiltIn = true) (run rules fuel g) := by
  induction fuel generalizing g with
  | zero => intro c o c' _ h; cases h
  | succ fuel ih =>
    refine step_tidy (by simpa using all_self hg) (fun g hm => ih (hrules g hm))
      (fun s hs => ih hs) ?_ (fun part hm => ih (isBuiltIn_part hg hm))
    rintro skip body rfl
    exact isBuiltIn_part hg (by simp [parts])

/-- **Backtracking discipline.** Whatever the outcome of a run, the chunks, the skip
rule, the mark that it is running, the open rules and the limit are as they were. A run
that fails changes nothing but the deepest failure, the defect and the trace. -/
theorem run_restores (hrules : ∀ g ∈ rules, g.isBuiltIn = true) {fuel : Nat} {g : LinkedGrammar}
    (hg : g.isBuiltIn = true) {c c' : Context LinkedGrammar} {o : Outcome Value}
    (hskip : ∀ s ∈ c.skip, s.isBuiltIn = true) (h : run rules fuel g c = some (o, c')) :
    c' = { c with
      cursor := c'.cursor, deepest := c'.deepest, fatal := c'.fatal, trace := c'.trace } ∧
    ∀ f, o = .failure f →
      c' = { c with deepest := c'.deepest, fatal := c'.fatal, trace := c'.trace } := by
  obtain ⟨hs, hc⟩ := run_tidy hrules hg hskip h
  refine ⟨Context.eq_of_setting hs, ?_⟩
  rintro f rfl
  have he := Context.eq_of_setting hs
  rw [hc rfl] at he
  exact he

/-- A rule that fails behind its first token, with itself as the skip rule. -/
theorem run_restores_pair :
    ∃ c', run #[.sequence [.consume (.literal 0 "a"), .consume (.literal 1 "b")]] 9
        (.rule ⟨⟨0⟩, "pair"⟩)
        { chunks := ⟨#["", "a", "", "c"]⟩, skip := some (.rule ⟨⟨0⟩, "pair"⟩) }
      = some (.failure ⟨3, .literal 1 "b"⟩, c') ∧ c'.cursor = 0 ∧ c'.ruleStack = [] := by
  have hrun : ∃ c', run #[.sequence [.consume (.literal 0 "a"), .consume (.literal 1 "b")]] 9
      (.rule ⟨⟨0⟩, "pair"⟩)
      { chunks := ⟨#["", "a", "", "c"]⟩, skip := some (.rule ⟨⟨0⟩, "pair"⟩) }
      = some (.failure ⟨3, .literal 1 "b"⟩, c') := ⟨_, rfl⟩
  obtain ⟨c', h⟩ := hrun
  have he := (run_restores (by decide) (by decide) (by decide) h).2 _ rfl
  exact ⟨c', h, congrArg Context.cursor he, congrArg Context.ruleStack he⟩

end Grammar

end Chunkwise
