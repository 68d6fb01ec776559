import Chunkwise.Proofs.Account
import Chunkwise.Proofs.Discipline

/-! The brackets of a trace. What a walk adds to the trace is well bracketed: every rule that
is entered is left again, one inside the other, at the depth and with the name that it was
entered with, also where the walk is taken back, runs as the skip rule or is stopped. A rule
that is not entered leaves no event. The first part is about events, the second one about
each way to make a walk, the third one about the walk of a grammar and about whole parses. -/

namespace Chunkwise

/-! ## Events -/

/-- Whether a rule was entered or left. -/
def Event.isBracket : Event → Bool
  | .entered _ _ => true
  | .exited _ _ _ _ => true
  | .matched _ _ _ => false
  | .missed _ _ _ => false
  | .skipped _ _ => false
  | .backtracked _ _ => false

/-- Events between two points with the same `depth` rules open. A rule is left where it was
entered: at this depth, under its name, and knowing where it began. A rule that fails ends
where it began. -/
inductive Bracketed : Nat → List (Nat × Event) → Prop
  | nil {depth : Nat} : Bracketed depth []
  | line {depth : Nat} {e : Event} {rest : List (Nat × Event)} : e.isBracket = false →
      Bracketed depth rest → Bracketed depth ((depth, e) :: rest)
  | rule {depth start stop : Nat} {name : String} {matched : Bool}
      {body rest : List (Nat × Event)} : Bracketed (depth + 1) body →
      (matched = false → stop = start) → Bracketed depth rest →
      Bracketed depth ((depth, .entered name start) ::
        (body ++ (depth, .exited name start stop matched) :: rest))

/-- How many rules are open at once, at most, from where `opened` are. -/
def mostOpened (opened : Nat) : List Event → Nat
  | [] => opened
  | .entered _ _ :: rest => mostOpened (opened + 1) rest
  | .exited _ _ _ _ :: rest => max opened (mostOpened (opened - 1) rest)
  | .matched _ _ _ :: rest => mostOpened opened rest
  | .missed _ _ _ :: rest => mostOpened opened rest
  | .skipped _ _ :: rest => mostOpened opened rest
  | .backtracked _ _ :: rest => mostOpened opened rest

theorem mostOpened_line {e : Event} (he : e.isBracket = false) (opened : Nat)
    (rest : List Event) : mostOpened opened (e :: rest) = mostOpened opened rest := by
  cases e with
  | entered rule cursor => cases he
  | exited rule start stop matched => cases he
  | matched token cursor chunk => rfl
  | missed token cursor found => rfl
  | skipped start stop => rfl
  | backtracked start stop => rfl

theorem le_mostOpened (opened : Nat) (es : List Event) : opened ≤ mostOpened opened es := by
  induction es generalizing opened with
  | nil => exact Nat.le_refl _
  | cons e rest ih =>
    cases e with
    | entered rule cursor => exact Nat.le_trans (Nat.le_succ opened) (ih (opened + 1))
    | exited rule start stop matched => exact Nat.le_max_left _ _
    | matched token cursor chunk => exact ih opened
    | missed token cursor found => exact ih opened
    | skipped start stop => exact ih opened
    | backtracked start stop => exact ih opened

namespace Bracketed

variable {depth : Nat} {es es' : List (Nat × Event)}

theorem append (h : Bracketed depth es) (h' : Bracketed depth es') :
    Bracketed depth (es ++ es') := by
  induction h with
  | nil => exact h'
  | line he _ ih => exact .line he (ih h')
  | rule hbody hfail _ _ ih =>
    rw [List.cons_append, List.append_assoc, List.cons_append]
    exact .rule hbody hfail (ih h')

/-- Behind bracketed events as many rules are open as before. -/
theorem mostOpened_append (h : Bracketed depth es) (opened : Nat) (rest : List Event) :
    mostOpened opened (es.map (·.2) ++ rest)
      = max (mostOpened opened (es.map (·.2))) (mostOpened opened rest) := by
  induction h generalizing opened rest with
  | nil =>
    have := le_mostOpened opened rest
    simp only [List.map_nil, List.nil_append, mostOpened]
    omega
  | line he _ ih =>
    simp only [List.map_cons, List.cons_append, mostOpened_line he]
    exact ih opened rest
  | @rule _ start stop name matched body rest' _ _ _ ihbody ih =>
    simp only [List.map_cons, List.map_append, List.cons_append, List.append_assoc, mostOpened,
      ihbody, ih, Nat.add_sub_cancel]
    omega

end Bracketed

namespace Trace

/-- The trace with more events behind it. -/
def extend (t : Trace) (es : List (Nat × Event)) : Trace := { t with log := t.log ++ es.toArray }

@[simp] theorem extend_nil (t : Trace) : t.extend [] = t := by
  simp [extend]

theorem extend_extend (t : Trace) (es es' : List (Nat × Event)) :
    (t.extend es).extend es' = t.extend (es ++ es') := by
  simp [extend]

theorem add_eq_extend (t : Trace) (e : Event) : t.add e = t.extend [(t.opened.length, e)] := by
  simp [add, extend]

/-- A rule is left in a trace that it was entered in. -/
theorem exit_extend_enter (t : Trace) (name : String) (start stop : Nat) (matched : Bool)
    (es : List (Nat × Event)) :
    ((t.enter name start).extend es).exit name stop matched
      = t.extend ((t.opened.length, .entered name start) ::
          (es ++ [(t.opened.length, .exited name start stop matched)])) := by
  simp [extend, enter, exit, add]

end Trace

/-! ## Contexts and walks -/

namespace Context

variable {σ : Type} {c c₁ c₂ : Context σ}

/-- Between the two contexts the trace gains well-bracketed events, and not more rules are
open at once than the limit allows. -/
def Balanced (c c' : Context σ) : Prop :=
  ∀ t, c.trace = some t → ∃ es, c'.trace = some (t.extend es) ∧ Bracketed t.opened.length es ∧
    ∀ limit ∈ c.recursionLimit,
      mostOpened c.ruleStack.length (es.map (·.2)) ≤ max limit c.ruleStack.length

theorem Balanced.of_eq (h : c₁.trace = c.trace) : c.Balanced c₁ := by
  intro t ht
  refine ⟨[], by simp [h, ht], .nil, fun limit _ => ?_⟩
  exact Nat.le_max_right _ _

theorem Balanced.refl : c.Balanced c := .of_eq rfl

theorem Balanced.trans (hs : c₁.setting = c.setting) (h : c.Balanced c₁) (h' : c₁.Balanced c₂) :
    c.Balanced c₂ := by
  intro t ht
  obtain ⟨es, ht₁, hes, hmost⟩ := h t ht
  obtain ⟨es', ht₂, hes', hmost'⟩ := h' _ ht₁
  have hstack : c₁.ruleStack = c.ruleStack := congrArg Setting.ruleStack hs
  have hlimit : c₁.recursionLimit = c.recursionLimit := congrArg Setting.recursionLimit hs
  rw [hstack, hlimit] at hmost'
  refine ⟨es ++ es', by rw [ht₂, Trace.extend_extend], hes.append hes', fun limit hl => ?_⟩
  rw [List.map_append, hes.mostOpened_append]
  exact Nat.max_le.mpr ⟨hmost limit hl, hmost' limit hl⟩

/-- An event that is no bracket is added. -/
theorem Balanced.note {e : Event} (he : e.isBracket = false) :
    c.Balanced (c.note (·.add e)) := by
  intro t ht
  refine ⟨[(t.opened.length, e)], by simp [Context.note, ht, Trace.add_eq_extend],
    .line he .nil, fun limit _ => ?_⟩
  rw [List.map_cons, List.map_nil, mostOpened_line he]
  exact Nat.le_max_right _ _

theorem Balanced.restore (i : Nat) : c.Balanced (c.restore i) := by
  unfold Context.restore
  split
  · exact .refl
  · exact .note (e := .backtracked c.cursor i) rfl

/-- A rule is entered, its body adds to the trace, and the rule is left. -/
theorem Balanced.rule {name : String} {matched : Bool} (hroom : c.exceededLimit? = none)
    (hs : c₁.setting = (c.pushRule name).setting) (hc : matched = false → c₁.cursor = c.cursor)
    (h : (c.pushRule name).Balanced c₁) : c.Balanced (c₁.exitRule matched) := by
  intro t ht
  obtain ⟨es, ht₁, hes, hmost⟩ := h (t.enter name c.cursor)
    (by simp [pushRule, Context.note, ht])
  have hes : Bracketed (t.opened.length + 1) es := hes
  have hstack : c₁.ruleStack = name :: c.ruleStack := congrArg Setting.ruleStack hs
  refine ⟨(t.opened.length, .entered name c.cursor) ::
    (es ++ [(t.opened.length, .exited name c.cursor c₁.cursor matched)]), ?_,
    .rule hes hc .nil, fun limit hl => ?_⟩
  · unfold exitRule
    rw [hstack]
    simp [Context.note, ht₁, Trace.exit_extend_enter]
  · have hlt := (exceededLimit?_eq_none_iff hl).mp hroom
    have hbody := hmost limit hl
    simp only [pushRule, List.length_cons] at hbody
    simp only [List.map_cons, List.map_append, List.map_nil, mostOpened, hes.mostOpened_append]
    omega

end Context

namespace Walk

variable {σ α β γ : Type} {S : σ → Prop}

/-- What the walk adds to the trace is well bracketed. -/
def Balances (S : σ → Prop) (w : Walk σ α) : Prop :=
  ∀ ⦃c o c'⦄, (∀ s ∈ c.skip, S s) → w c = some (o, c') → c.Balanced c'

theorem Balances.map {w : Walk σ α} (hw : Balances S w) (f : α → β) : Balances S (w.map f) := by
  intro c o c' hS h
  obtain ⟨⟨o₁, c₁⟩, h₁, he⟩ := Option.map_eq_some_iff.mp h
  cases he
  exact hw hS h₁

/-- One walk behind another. -/
theorem Balances.after {w : Walk σ α} (hw : Balances S w) {c c₁ c₂ : Context σ} {o : Outcome α}
    (hs : c₁.setting = c.setting) (hc : c.Balanced c₁) (hS : ∀ s ∈ c.skip, S s)
    (h : w c₁ = some (o, c₂)) : c.Balanced c₂ :=
  hc.trans hs (hw (Context.skip_of_setting hs hS) h)

/-! ### Combined walks -/

theorem inTurn_balances : ∀ {ws : List (Walk σ α)}, (∀ w ∈ ws, Tidy S w) →
    (∀ w ∈ ws, Balances S w) → Balances S (inTurn ws)
  | [], _, _, c, o, c', _, h => by cases h; exact .refl
  | w :: ws, ht, hw, c, o, c', hS, h => by
    obtain ⟨⟨o₁, c₁⟩, h₁, h⟩ := Option.bind_eq_some_iff.mp h
    have hc := hw w (by simp) hS h₁
    cases o₁ with
    | failure f => cases h; exact hc
    | success v =>
      obtain ⟨⟨o₂, c₂⟩, h₂, h⟩ := Option.bind_eq_some_iff.mp h
      cases h
      exact (inTurn_balances (fun w hm => ht w (by simp [hm]))
        (fun w hm => hw w (by simp [hm]))).after (ht w (by simp) hS h₁).setting hc hS h₂

theorem sequence_balances {ws : List (Walk σ α)} (ht : ∀ w ∈ ws, Tidy S w)
    (hw : ∀ w ∈ ws, Balances S w) : Balances S (sequence ws) := by
  intro c o c' hS h
  obtain ⟨⟨o₁, c₁⟩, h₁, h⟩ := Option.bind_eq_some_iff.mp h
  have hc := inTurn_balances ht hw hS h₁
  cases o₁ with
  | success vs => cases h; exact hc
  | failure f => cases h; exact hc.trans (setting_inTurn ht hS h₁) (.restore _)

theorem tryEach_balances : ∀ {ws : List (Walk σ α)}, (∀ w ∈ ws, Tidy S w) →
    (∀ w ∈ ws, Balances S w) → ∀ {start before}, Balances S (tryEach start before ws)
  | [], _, _, _, some f, c, o, c', _, h => by cases h; exact .refl
  | [], _, _, _, none, c, o, c', _, h => by cases h; exact .of_eq rfl
  | w :: ws, ht, hw, start, before, c, o, c', hS, h => by
    rw [tryEach] at h
    obtain ⟨⟨o₁, c₁⟩, h₁, h⟩ := Option.bind_eq_some_iff.mp h
    have hc := hw w (by simp) hS h₁
    cases o₁ with
    | success v => cases h; exact hc
    | failure f =>
      have hs := (ht w (by simp) hS h₁).setting
      exact (tryEach_balances (fun w hm => ht w (by simp [hm]))
        (fun w hm => hw w (by simp [hm]))).after (by simpa using hs)
        (hc.trans hs (.restore _)) hS h

theorem choice_balances {ws : List (Walk σ α)} (ht : ∀ w ∈ ws, Tidy S w)
    (hw : ∀ w ∈ ws, Balances S w) : Balances S (choice ws) :=
  fun _ _ _ hS h => tryEach_balances ht hw hS h

theorem optional_balances {w : Walk σ α} (ht : Tidy S w) (hw : Balances S w) :
    Balances S (optional w) := by
  intro c o c' hS h
  obtain ⟨⟨o₁, c₁⟩, h₁, h⟩ := Option.bind_eq_some_iff.mp h
  have hc := hw hS h₁
  cases o₁ with
  | success v => cases h; exact hc
  | failure f => cases h; exact hc.trans (ht hS h₁).setting (.restore _)

/-- What is only looked at is taken back, but not in the trace. -/
theorem peek_balances {w : Walk σ α} (ht : Tidy S w) (hw : Balances S w) :
    Balances S (peek w) := by
  intro c o c' hS h
  obtain ⟨⟨o₁, c₁⟩, h₁, h⟩ := Option.bind_eq_some_iff.mp h
  cases h
  exact (hw hS h₁).trans (ht hS h₁).setting (.restore _)

theorem probe_balanced {w : Walk σ α} (ht : Tidy S w) (hw : Balances S w) {c b c'}
    (hS : ∀ s ∈ c.skip, S s) (h : probe w c = some (b, c')) : c.Balanced c' := by
  obtain ⟨⟨o₁, c₁⟩, h₁, h⟩ := Option.bind_eq_some_iff.mp h
  cases h
  exact peek_balances ht hw hS h₁

theorem notAhead_balances {w : Walk σ α} (ht : Tidy S w) (hw : Balances S w) :
    Balances S (notAhead w) := by
  intro c o c' hS h
  obtain ⟨⟨b, c₁⟩, h₁, h⟩ := Option.bind_eq_some_iff.mp h
  have hc := probe_balanced ht hw hS h₁
  cases b with
  | true => cases h; exact hc
  | false => cases h; exact hc

theorem withSkip_balances {w : Walk σ α} {skip : σ} (hskip : S skip) (hw : Balances S w) :
    Balances S (withSkip skip w) := by
  intro c o c' hS h
  obtain ⟨⟨o₁, c₁⟩, h₁, h⟩ := Option.bind_eq_some_iff.mp h
  have hS₁ : ∀ s ∈ (c.withSkip (some skip)).skip, S s := by
    intro s hs
    cases hs
    exact hskip
  have hc := hw hS₁ h₁
  cases h
  exact hc

/-- Also an attempt to skip that leads nowhere leaves its brackets in the trace. -/
theorem trySkip_balanced {run : σ → Walk σ α} (ht : ∀ s, S s → Tidy S (run s))
    (hrun : ∀ s, S s → Balances S (run s)) {c b c'} (hS : ∀ s ∈ c.skip, S s)
    (h : trySkip run c = some (b, c')) : c.Balanced c' := by
  rcases trySkip_cases h with ⟨_, rfl, rfl⟩ | ⟨skip, o, c₁, _, hskip, h₁, _, _, rfl, rfl⟩ |
    ⟨skip, o, c₁, _, hskip, h₁, _, rfl, rfl⟩
  · exact .refl
  · have hc : (inSkip c).Balanced c₁ := hrun skip (hS skip hskip) (c := inSkip c) hS h₁
    have hs := (ht skip (hS skip hskip) (c := inSkip c) hS h₁).setting
    have hnoted := hc.trans hs (.note (e := .skipped c.cursor c₁.cursor) rfl)
    exact hnoted
  · have hc : (inSkip c).Balanced c₁ := hrun skip (hS skip hskip) (c := inSkip c) hS h₁
    exact hc

theorem inRule_balances {w : Walk σ α} (ht : Tidy S w) (hw : Balances S w) (name : String) :
    Balances S (inRule name w) := by
  intro c o c' hS h
  rcases inRule_cases h with ⟨_, rfl, rfl⟩ | ⟨limit, _, _, rfl, rfl⟩ | ⟨c₁, _, hroom, h₁, rfl⟩
  · exact .refl
  · exact .of_eq rfl
  · have hk := ht (c := c.pushRule name) hS h₁
    exact .rule hroom hk.setting hk.cursor (hw (c := c.pushRule name) hS h₁)

/-! ### Terminals -/

theorem noteMatch_balanced (c : Context σ) (token : Token) : c.Balanced (c.noteMatch token) :=
  .note (e := .matched token.name c.cursor (c.chunk?.getD "")) rfl

theorem noteMiss_balanced (c : Context σ) (token : Token) : c.Balanced (c.noteMiss token) :=
  .note (e := .missed token.name c.cursor c.chunk?) rfl

/-- A token that is missed is reported before the cursor is put back. -/
theorem miss_balanced (c : Context σ) (token : Token) (i : Nat) :
    c.Balanced ((c.noteMiss token).restore i) :=
  (noteMiss_balanced c token).trans (Context.setting_noteMiss c token) (.restore i)

theorem consumeFrom_balances {skip : Context σ → Option (Bool × Context σ)} {token : Token}
    (hskip : ∀ {c b c'}, (∀ s ∈ c.skip, S s) → skip c = some (b, c') →
      Skipped c b c' ∧ c.Balanced c')
    {start : Nat} : ∀ {fuel}, Balances S (consumeFrom skip token start fuel)
  | 0, _, _, _, _, h => by cases h
  | fuel + 1, c, o, c', hS, h => by
    rcases consumeFrom_cases h with ⟨_, _, rfl, rfl⟩ | ⟨chunk, _, _, rfl, rfl⟩ |
      ⟨c₁, h₁, rfl, rfl⟩ | ⟨c₁, h₁, h⟩
    · exact noteMatch_balanced c.skipEmpty token
    · exact noteMatch_balanced c.skipEmpty token
    · obtain ⟨hk, hc⟩ := hskip (c := c.skipEmpty) hS h₁
      have hmissed := hc.trans hk.setting (miss_balanced c₁ token start)
      exact hmissed
    · obtain ⟨hk, hc⟩ := hskip (c := c.skipEmpty) hS h₁
      exact (consumeFrom_balances hskip).after hk.setting hc hS h

theorem consume_balances {skip : Context σ → Option (Bool × Context σ)} {token : Token}
    {fuel : Nat} (hskip : ∀ {c b c'}, (∀ s ∈ c.skip, S s) → skip c = some (b, c') →
      Skipped c b c' ∧ c.Balanced c') : Balances S (consume skip token fuel) := by
  intro c o c' hS h
  unfold consume at h
  split at h
  · cases h; exact .refl
  · exact consumeFrom_balances hskip hS h

theorem consumeBehind_balances {token : Token} :
    Balances S (consumeBehind token : Walk σ String) := by
  intro c o c' _ h
  unfold consumeBehind at h
  split at h
  · cases h; exact .refl
  · split at h
    · split at h
      · cases h; exact .of_eq rfl
      · cases h; exact .of_eq rfl
    · rename_i i _
      split at h
      · cases h; exact noteMatch_balanced (c.moveTo i) token
      · cases h; exact noteMiss_balanced (c.moveTo i) token

theorem untilToken_balances {token : Token} :
    Balances S (untilToken token : Walk σ (List String)) := by
  intro c o c' _ h
  unfold untilToken at h
  split at h
  · cases h; exact .refl
  · generalize gather token.accepts c.chunks _ c.cursor #[] = gathered at h
    dsimp only at h
    split at h
    · cases h; exact .of_eq rfl
    · cases h
      have hmissed := miss_balanced (c.moveTo gathered.2.2) token c.cursor
      exact hmissed

theorem untilMatchFrom_balances {stop : Walk σ α} (ht : Tidy S stop) (hw : Balances S stop)
    {start : Nat} : ∀ {fuel gathered}, Balances S (untilMatchFrom stop start fuel gathered)
  | 0, _, _, _, _, _, h => by cases h
  | fuel + 1, gathered, c, o, c', hS, h => by
    have hprobe : ∀ {b c₁}, probe stop c.skipEmpty = some (b, c₁) →
        c₁.setting = c.setting ∧ c.Balanced c₁ := fun h₁ =>
      ⟨(probe_still ht (c := c.skipEmpty) hS h₁).1,
        probe_balanced ht hw (c := c.skipEmpty) hS h₁⟩
    rcases untilMatchFrom_cases h with ⟨h₁, rfl⟩ | ⟨c₁, h₁, _, rfl, rfl⟩ | ⟨c₁, chunk, h₁, _, h⟩
    · exact (hprobe h₁).2
    · obtain ⟨hs, hc⟩ := hprobe h₁
      have hback := hc.trans hs (.restore start)
      exact hback
    · obtain ⟨hs, hc⟩ := hprobe h₁
      have hs₁ : (c₁.moveTo (c.skipEmpty.cursor + 1)).setting = c.setting := hs
      exact (untilMatchFrom_balances ht hw).after hs₁ hc hS h

theorem untilMatch_balances {stop : Walk σ α} (ht : Tidy S stop) (hw : Balances S stop)
    {fuel : Nat} : Balances S (untilMatch stop fuel) := by
  intro c o c' hS h
  unfold untilMatch at h
  split at h
  · cases h; exact .refl
  · exact untilMatchFrom_balances ht hw hS h

/-! ### Repetition -/

namespace Repetition

/-- The walks of a repetition add to the trace what is well bracketed. -/
structure Balances (S : σ → Prop) (r : Repetition σ α β γ) : Prop where
  element : Walk.Balances S r.element
  separator : ∀ w ∈ r.separator, Walk.Balances S w
  stop : ∀ w ∈ r.stop, Walk.Balances S w

variable {r : Repetition σ α β γ}

theorem stopsAt_balanced (ht : r.Tidy S) (hr : r.Balances S) {c b c'} (hS : ∀ s ∈ c.skip, S s)
    (h : r.stopsAt c = some (b, c')) : c.Balanced c' := by
  unfold stopsAt at h
  split at h
  · cases h; exact .refl
  · rename_i stop hstop
    exact probe_balanced (ht.stop stop hstop) (hr.stop stop hstop) hS h

theorem separates_balanced (hr : r.Balances S) {c b c'} (hS : ∀ s ∈ c.skip, S s)
    (h : r.separates c = some (b, c')) : c.Balanced c' := by
  unfold separates at h
  split at h
  · cases h; exact .refl
  · rename_i separator hsep
    obtain ⟨⟨o₁, c₁⟩, h₁, h⟩ := Option.bind_eq_some_iff.mp h
    cases h
    exact hr.separator separator hsep hS h₁

/-- The element of a round, behind the look at the sign to stop. -/
theorem element_balanced (ht : r.Tidy S) (hr : r.Balances S) {c c₁ o c₂}
    (hS : ∀ s ∈ c.skip, S s) (h₁ : r.stopsAt c = some (false, c₁))
    (h₂ : r.element c₁ = some (o, c₂)) : c₂.setting = c.setting ∧ c.Balanced c₂ := by
  have hs := (stopsAt_still ht hS h₁).1
  exact ⟨(ht.element (Context.skip_of_setting hs hS) h₂).setting.trans hs,
    hr.element.after hs (stopsAt_balanced ht hr hS h₁) hS h₂⟩

/-- The separator behind the element. -/
theorem round_balanced (ht : r.Tidy S) (hr : r.Balances S) {c c₁ o c₂ b c₃}
    (hS : ∀ s ∈ c.skip, S s) (h₁ : r.stopsAt c = some (false, c₁))
    (h₂ : r.element c₁ = some (o, c₂)) (h₃ : r.separates c₂ = some (b, c₃)) :
    c₃.setting = c.setting ∧ c.Balanced c₃ := by
  obtain ⟨hs, hc⟩ := element_balanced ht hr hS h₁ h₂
  have hS₂ := Context.skip_of_setting hs hS
  exact ⟨(separates_kept ht hS₂ h₃).trans hs, hc.trans hs (separates_balanced hr hS₂ h₃)⟩

theorem Leaves.balanced (ht : r.Tidy S) (hr : r.Balances S) {start rewind values c o c'}
    (hS : ∀ s ∈ c.skip, S s) (h : r.Leaves start rewind values c o c') : c.Balanced c' := by
  -- every way out puts the cursor back somewhere
  have hout : ∀ {d : Context σ} {i : Nat}, d.setting = c.setting ∧ c.Balanced d →
      c.Balanced (d.restore i) := fun hd => hd.2.trans hd.1 (.restore _)
  have hstops : ∀ {b d}, r.stopsAt c = some (b, d) → d.setting = c.setting ∧ c.Balanced d :=
    fun h₁ => ⟨(stopsAt_still ht hS h₁).1, stopsAt_balanced ht hr hS h₁⟩
  cases h with
  | exhausted _ _ => exact .restore _
  | stopped h₁ _ => exact hout (hstops h₁)
  | stoppedShort h₁ _ => exact hout (hstops h₁)
  | missed h₁ h₂ _ => exact hout (element_balanced ht hr hS h₁ h₂)
  | missedShort h₁ h₂ _ => exact hout (element_balanced ht hr hS h₁ h₂)
  | last h₁ h₂ h₃ => exact hout (round_balanced ht hr hS h₁ h₂ h₃)
  | @stuck c₁ c₂ c₃ v h₁ h₂ h₃ _ =>
    have hstopped := round_balanced ht hr hS h₁ h₂ h₃
    exact hout (d := c₃.halt (.infiniteLoop c₃.currentRule (c₃.chunks.offset c₁.cursor))) hstopped

theorem rounds_balances (ht : r.Tidy S) (hr : r.Balances S) {start : Nat} :
    ∀ {fuel rewind values}, Walk.Balances S (r.rounds start fuel rewind values)
  | 0, _, _, _, _, _, _, h => by cases h
  | fuel + 1, rewind, values, c, o, c', hS, h => by
    rcases rounds_cases h with hl | ⟨v, c₁, c₂, c₃, hgo, h⟩
    · exact hl.balanced ht hr hS
    · obtain ⟨hs, hc⟩ := round_balanced ht hr hS hgo.stopsAt hgo.element hgo.separates
      exact (rounds_balances ht hr).after hs hc hS h

end Repetition

theorem repetition_balances {r : Repetition σ α β γ} (ht : r.Tidy S) (hr : r.Balances S)
    {fuel : Nat} : Balances S (repetition r fuel) :=
  fun _ _ _ hS h => Repetition.rounds_balances ht hr hS h

end Walk

/-! ## Grammars -/

namespace Grammar

variable {rules : RuleTable}

theorem call_balances {run : LinkedGrammar → Walk LinkedGrammar Value} {S : LinkedGrammar → Prop}
    (htidy : ∀ g ∈ rules, Walk.Tidy S (run g)) (hrun : ∀ g ∈ rules, Walk.Balances S (run g))
    (r : RuleRef) : Walk.Balances S (call rules run r) := by
  intro c o c' hS h
  rcases call_cases h with ⟨g, hget, h⟩ | ⟨_, rfl, rfl⟩
  · have hg := Array.mem_of_getElem? hget
    exact Walk.inRule_balances (htidy g hg) (hrun g hg) r.name hS h
  · exact .of_eq rfl

theorem repeated_balances {run : LinkedGrammar → Walk LinkedGrammar Value}
    {S : LinkedGrammar → Prop} {g : LinkedGrammar} {least : Nat}
    {separator stop : Option LinkedGrammar}
    (hparts : ∀ part ∈ (Grammar.repeated g least separator stop).parts,
      Walk.Balances S (run part)) :
    Walk.Repetition.Balances S ⟨run g, least, separator.map run, stop.map run⟩ := by
  obtain ⟨helement, hseparator, hstop⟩ := repeated_walks hparts
  exact ⟨helement, hseparator, hstop⟩

/-- What the walk of a grammar adds to the trace, given what the walks of its parts, of the
rules and of the skip rules do. -/
theorem step_balances {run : LinkedGrammar → Walk LinkedGrammar Value} {S : LinkedGrammar → Prop}
    {fuel : Nat} {g : LinkedGrammar} (hg : g.isNative = false)
    (htidy : ∀ part ∈ g.parts, Walk.Tidy S (run part))
    (hrules : ∀ g ∈ rules, Walk.Tidy S (run g) ∧ Walk.Balances S (run g))
    (hskips : ∀ s, S s → Walk.Tidy S (run s) ∧ Walk.Balances S (run s))
    (hinstalled : ∀ skip body, g = .skipIn skip body → S skip)
    (hparts : ∀ part ∈ g.parts, Walk.Balances S (run part)) :
    Walk.Balances S (step rules fuel run g) := by
  cases g with
  | consume t =>
    refine (Walk.consume_balances ?_).map _
    intro c b c' hS h
    exact ⟨Walk.trySkip_skipped (fun s hs => (hskips s hs).1) hS h,
      Walk.trySkip_balanced (fun s hs => (hskips s hs).1) (fun s hs => (hskips s hs).2) hS h⟩
  | behind t => exact Walk.consumeBehind_balances.map _
  | untilToken t => exact Walk.untilToken_balances.map _
  | untilMatch g =>
    exact (Walk.untilMatch_balances (htidy g (by simp [parts])) (hparts g (by simp [parts]))).map _
  | unit =>
    intro c o c' _ h
    cases h
    exact .refl
  | sequence gs =>
    exact (Walk.sequence_balances (List.forall_mem_map.mpr htidy)
      (List.forall_mem_map.mpr hparts)).map _
  | choice gs =>
    exact Walk.choice_balances (List.forall_mem_map.mpr htidy) (List.forall_mem_map.mpr hparts)
  | optional g =>
    exact (Walk.optional_balances (htidy g (by simp [parts])) (hparts g (by simp [parts]))).map _
  | peek g => exact Walk.peek_balances (htidy g (by simp [parts])) (hparts g (by simp [parts]))
  | notAhead g =>
    exact (Walk.notAhead_balances (htidy g (by simp [parts])) (hparts g (by simp [parts]))).map _
  | skipIn skip g =>
    exact Walk.withSkip_balances (hinstalled skip g rfl) (hparts g (by simp [parts]))
  | repeated g least separator stop =>
    exact (Walk.repetition_balances (repeated_tidy htidy) (repeated_balances hparts)).map _
  | rule r =>
    exact call_balances (fun g hm => (hrules g hm).1) (fun g hm => (hrules g hm).2) r
  | map f g => exact (hparts g (by simp [parts])).map f
  | discard g => exact (hparts g (by simp [parts])).map _
  | native f => cases hg
  | andThen g f => cases hg

/-- Everything that is built in writes brackets into the trace that match, whatever rules it
comes to and whichever skip rules are in force on the way. -/
theorem run_balances (hrules : ∀ g ∈ rules, g.isBuiltIn = true) {fuel : Nat} {g : LinkedGrammar}
    (hg : g.isBuiltIn = true) : Walk.Balances (·.isBuiltIn = true) (run rules fuel g) := by
  induction fuel generalizing g with
  | zero => intro c o c' _ h; cases h
  | succ fuel ih =>
    have hboth : ∀ {g : LinkedGrammar}, g.isBuiltIn = true →
        Walk.Tidy (·.isBuiltIn = true) (run rules fuel g) ∧
          Walk.Balances (·.isBuiltIn = true) (run rules fuel g) :=
      fun hg => ⟨run_tidy hrules hg, ih hg⟩
    refine step_balances (by simpa using all_self hg)
      (fun part hm => run_tidy hrules (isBuiltIn_part hg hm)) (fun g hm => hboth (hrules g hm))
      (fun s hs => hboth hs) ?_ (fun part hm => ih (isBuiltIn_part hg hm))
    rintro skip body rfl
    exact isBuiltIn_part hg (by simp [parts])

end Grammar

namespace Parser

/-- A parse leaves the trace that it was given with matching brackets behind it, whatever comes
of it, and with no brackets if it does not know the rule. -/
theorem trace_of_parse {p : Parser} (hp : p.isBuiltIn = true) {name text : String} {t : Trace}
    {result : Except ParseError Value} {trace : Option Trace}
    (h : (p.parse name text (some t)).1 = some (result, trace)) :
    ∃ es, trace = some (t.extend es) ∧ Bracketed t.opened.length es ∧
      ∀ limit ∈ p.recursionLimit, mostOpened 0 (es.map (·.2)) ≤ limit := by
  cases hentry : p.entry? name with
  | none =>
    rw [parse_of_unknown hentry] at h
    cases h
    exact ⟨[], by simp, .nil, fun limit _ => Nat.zero_le limit⟩
  | some entry =>
    rw [fst_parse hentry] at h
    obtain ⟨⟨o, c'⟩, hrun, he⟩ := Option.bind_eq_some_iff.mp h
    cases he
    obtain ⟨es, ht', hes, hmost⟩ := Grammar.run_balances (rules_isBuiltIn hp)
      (entry?_isBuiltIn hentry) (skip_isBuiltIn hp) hrun t rfl
    refine ⟨es, ht', hes, fun limit hl => ?_⟩
    exact Nat.le_trans (hmost limit hl) (by simp [start])

end Parser

end Chunkwise
