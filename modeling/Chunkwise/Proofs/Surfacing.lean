import Chunkwise.Parser.Basic
import Chunkwise.Proofs.Account
import Chunkwise.Proofs.Cases
import Chunkwise.Proofs.Compose
import Chunkwise.Proofs.Discipline
import Chunkwise.Proofs.Parts

/-! Failures that surface. Every failure that is tried in the open is put on record, or it stems
from one that is; and what is on record only gets deeper. So a walk that fails does not fail further
on than where the record is, unless the parse has stopped. The record is put back behind a lookahead
and behind an attempt to skip, so what fails there is not tried in the open. That is why the failure
of a lookahead must not be handed on, as `peek` does. -/

namespace Chunkwise

namespace Context

variable {σ : Type}

/-- The record is as deep as the failure. -/
def Covers (c : Context σ) (f : Failure) : Prop := ∃ d ∈ c.deepest, f.position ≤ d.position

theorem covers_record (c : Context σ) (f : Failure) : (c.record f).Covers f := by
  refine ⟨_, rfl, ?_⟩
  cases hd : c.deepest with
  | none => exact Nat.le_refl _
  | some d =>
    unfold Failure.deepest
    dsimp only
    split <;> omega

theorem Covers.record {c : Context σ} {f : Failure} (h : c.Covers f) (g : Failure) :
    (c.record g).Covers f := by
  obtain ⟨d, hd, hle⟩ := h
  refine ⟨_, rfl, ?_⟩
  rw [Option.mem_def.mp hd]
  unfold Failure.deepest
  dsimp only
  split <;> omega

end Context

/-- What the contexts in front of a walk and behind it have to do with the failures `fs` that were
tried in between: the skip rule is the same, a defect stays, the record gets no less deep, and
unless the parse has stopped it covers the failures. -/
structure Surfaced {σ : Type} (c c' : Context σ) (fs : List Failure) : Prop where
  skip : c'.skip = c.skip
  halted : c.isHalted = true → c'.isHalted = true
  grows : ∀ ⦃f⦄, c.Covers f → c'.Covers f
  covers : c'.isHalted = false → ∀ f ∈ fs, c'.Covers f

namespace Surfaced

variable {σ : Type} {c c₁ c₂ : Context σ} {fs gs : List Failure}

theorem refl (c : Context σ) : Surfaced c c [] := ⟨rfl, id, fun _ h => h, nofun⟩

theorem trans (h : Surfaced c c₁ fs) (h' : Surfaced c₁ c₂ gs) : Surfaced c c₂ (fs ++ gs) := by
  refine ⟨h'.skip.trans h.skip, fun hc => h'.halted (h.halted hc),
    fun f hf => h'.grows (h.grows hf), fun hrunning f hf => ?_⟩
  have hrunning₁ : c₁.isHalted = false := by
    rw [← Bool.not_eq_true]
    exact fun hc => Bool.false_ne_true (hrunning.symm.trans (h'.halted hc))
  rcases List.mem_append.mp hf with hf | hf
  · exact h'.grows (h.covers hrunning₁ f hf)
  · exact h'.covers hrunning f hf

theorem mono (h : Surfaced c c₁ fs) (hsub : ∀ f ∈ gs, f ∈ fs) : Surfaced c c₁ gs :=
  ⟨h.skip, h.halted, h.grows, fun hrunning f hf => h.covers hrunning f (hsub f hf)⟩

theorem quiet (h : Surfaced c c₁ fs) : Surfaced c c₁ [] := h.mono nofun

/-- A change that leaves the record alone. -/
theorem still (hskip : c₁.skip = c.skip) (hfatal : c₁.fatal = c.fatal)
    (hdeepest : c₁.deepest = c.deepest) : Surfaced c c₁ [] := by
  refine ⟨hskip, ?_, ?_, nofun⟩
  · unfold Context.isHalted
    rw [hfatal]
    exact id
  · unfold Context.Covers
    rw [hdeepest]
    exact fun _ h => h

theorem next (h : Surfaced c c₁ fs) (hskip : c₂.skip = c₁.skip) (hfatal : c₂.fatal = c₁.fatal)
    (hdeepest : c₂.deepest = c₁.deepest) : Surfaced c c₂ fs := by
  simpa using h.trans (still hskip hfatal hdeepest)

theorem skipEmpty (h : Surfaced c.skipEmpty c₁ fs) : Surfaced c c₁ fs := by
  have hempty : Surfaced c c.skipEmpty [] := still rfl rfl rfl
  exact hempty.trans h

theorem restore (h : Surfaced c c₁ fs) (i : Nat) : Surfaced c (c₁.restore i) fs := by
  rw [Context.restore_eq]
  exact h.next rfl rfl rfl

theorem record (h : Surfaced c c₁ fs) (f : Failure) : Surfaced c (c₁.record f) (fs ++ [f]) := by
  refine h.trans ⟨rfl, id, fun _ h => h.record f, fun _ g hg => ?_⟩
  rw [List.mem_singleton.mp hg]
  exact c₁.covers_record f

/-- A failure that is put on record where the rest is left alone. -/
theorem fail {f : Failure} (hskip : c₁.skip = c.skip) (hfatal : c₁.fatal = c.fatal)
    (hdeepest : c₁.deepest = c.deepest) : Surfaced c (c₁.record f) [f] :=
  (still hskip hfatal hdeepest).record f

theorem skips {S : σ → Prop} (h : Surfaced c c₁ fs) (hS : ∀ s ∈ c.skip, S s) :
    ∀ s ∈ c₁.skip, S s := by
  rw [h.skip]
  exact hS

/-- Once the parse has stopped, nothing is asked of the failures. -/
theorem of_isHalted (h : Surfaced c c₁ fs) (hhalted : c₁.isHalted = true) : Surfaced c c₁ gs :=
  ⟨h.skip, h.halted, h.grows, fun hrunning => by cases hrunning.symm.trans hhalted⟩

theorem halt (h : Surfaced c c₁ fs) (d : Defect) : Surfaced c (c₁.halt d) fs :=
  ⟨h.skip, fun _ => c₁.isHalted_halt d, h.grows, fun hrunning => by
    cases hrunning.symm.trans (c₁.isHalted_halt d)⟩

/-- What a walk that fails has to do with its own failure. -/
theorem covers_own {f : Failure} (h : Surfaced c c₁ (f :: fs)) (hrunning : c₁.isHalted = false) :
    c₁.Covers f := h.covers hrunning f (List.mem_cons_self ..)

end Surfaced

/-- The failure of an outcome, if it is one. -/
def Outcome.failures {α : Type} : Outcome α → List Failure
  | .success _ => []
  | .failure f => [f]

namespace Walk

variable {σ ι α β γ : Type} {S : σ → Prop}

/-- Wherever the walk starts, the failures `tried` of it surface. -/
def Surfaces (S : σ → Prop) (tried : Context σ → List Failure) (w : Walk σ α) : Prop :=
  ∀ ⦃c o c'⦄, (∀ s ∈ c.skip, S s) → w c = some (o, c') → Surfaced c c' (tried c)

/-- The failure that the walk ends with is one of those `tried`. -/
def Lists (tried : Context σ → List Failure) (w : Walk σ α) : Prop :=
  ∀ ⦃c f c'⦄, w c = some (.failure f, c') → f ∈ tried c

theorem Surfaces.map {tried : Context σ → List Failure} {w : Walk σ α} (hw : Surfaces S tried w)
    (f : α → β) : Surfaces S tried (w.map f) := by
  intro c o c' hS h
  obtain ⟨⟨o₁, c₁⟩, h₁, he⟩ := Option.map_eq_some_iff.mp h
  cases he
  exact hw hS h₁

theorem failure_of_map {w : Walk σ α} {k : α → β} {c c' : Context σ} {f : Failure}
    (h : w.map k c = some (.failure f, c')) : w c = some (.failure f, c') := by
  obtain ⟨⟨o₁, c₁⟩, h₁, he⟩ := Option.map_eq_some_iff.mp h
  cases o₁ with
  | success v => cases he
  | failure g => cases he; exact h₁

/-! ## Combined walks -/

/-- The failures of walks one after another, given those of each. -/
def triedInTurn (run : ι → Walk σ α) (tried : ι → Context σ → List Failure) :
    List ι → Context σ → List Failure
  | [], _ => []
  | i :: is, c =>
    tried i c ++ match run i c with
      | some (.success _, c) => triedInTurn run tried is c
      | _ => []

/-- The failures of walks that are tried from one place, given those of each. -/
def triedEach (run : ι → Walk σ α) (tried : ι → Context σ → List Failure) (start : Nat) :
    List ι → Context σ → List Failure
  | [], _ => []
  | i :: is, c =>
    tried i c ++ match run i c with
      | some (.failure _, c) => triedEach run tried start is (c.restore start)
      | _ => []

/-- The failures of the body of a rule, if it is entered. -/
def triedInRule (name : String) (tried : Context σ → List Failure) (c : Context σ) :
    List Failure :=
  match c.enterRule name with
  | (true, c) => tried c
  | (false, _) => []

section

variable {run : ι → Walk σ α} {tried : ι → Context σ → List Failure}

theorem inTurn_surfaces : ∀ {is : List ι}, (∀ i ∈ is, Surfaces S (tried i) (run i)) →
    Surfaces S (triedInTurn run tried is) (inTurn (is.map run))
  | [], _, c, o, c', _, h => by cases h; exact .refl c
  | i :: is, hw, c, o, c', hS, h => by
    obtain ⟨⟨o₁, c₁⟩, h₁, h⟩ := Option.bind_eq_some_iff.mp h
    have hfirst := hw i (by simp) hS h₁
    cases o₁ with
    | failure f =>
      cases h
      simpa [triedInTurn, h₁] using hfirst
    | success v =>
      obtain ⟨⟨o₂, c₂⟩, h₂, h⟩ := Option.bind_eq_some_iff.mp h
      cases h
      have hrest := inTurn_surfaces (fun i hm => hw i (by simp [hm])) (hfirst.skips hS) h₂
      simpa [triedInTurn, h₁] using hfirst.trans hrest

theorem sequence_surfaces {is : List ι} (hw : ∀ i ∈ is, Surfaces S (tried i) (run i)) :
    Surfaces S (triedInTurn run tried is) (sequence (is.map run)) := by
  intro c o c' hS h
  obtain ⟨⟨o₁, c₁⟩, h₁, h⟩ := Option.bind_eq_some_iff.mp h
  have hturn := inTurn_surfaces hw hS h₁
  cases o₁ with
  | success vs => cases h; exact hturn
  | failure f => cases h; exact hturn.restore _

theorem tryEach_surfaced {start : Nat} : ∀ {is : List ι},
    (∀ i ∈ is, Surfaces S (tried i) (run i)) → ∀ {before},
    Surfaces S (triedEach run tried start is) (tryEach start before (is.map run))
  | [], _, some f, c, o, c', _, h => by cases h; exact .refl c
  | [], _, none, c, o, c', _, h => by cases h; exact ((Surfaced.refl c).record _).quiet
  | i :: is, hw, before, c, o, c', hS, h => by
    rw [List.map_cons, tryEach] at h
    obtain ⟨⟨o₁, c₁⟩, h₁, h⟩ := Option.bind_eq_some_iff.mp h
    have hfirst := hw i (by simp) hS h₁
    cases o₁ with
    | success v =>
      cases h
      simpa [triedEach, h₁] using hfirst
    | failure f =>
      have hfirst := hfirst.restore start
      have hrest := tryEach_surfaced (fun i hm => hw i (by simp [hm])) (hfirst.skips hS) h
      simpa [triedEach, h₁] using hfirst.trans hrest

theorem inTurn_failure : ∀ {is : List ι}, (∀ i ∈ is, Lists (tried i) (run i)) →
    Lists (triedInTurn run tried is) (inTurn (is.map run))
  | [], _, c, f, c', h => by cases h
  | i :: is, hw, c, f, c', h => by
    obtain ⟨⟨o₁, c₁⟩, h₁, h⟩ := Option.bind_eq_some_iff.mp h
    cases o₁ with
    | failure g =>
      cases h
      exact List.mem_append_left _ (hw i (by simp) h₁)
    | success v =>
      obtain ⟨⟨o₂, c₂⟩, h₂, h⟩ := Option.bind_eq_some_iff.mp h
      cases o₂ with
      | success vs => cases h
      | failure g =>
        cases h
        have hrest := inTurn_failure (fun i hm => hw i (by simp [hm])) h₂
        exact List.mem_append_right _ (by simpa [h₁] using hrest)

theorem sequence_failure {is : List ι} (hw : ∀ i ∈ is, Lists (tried i) (run i)) :
    Lists (triedInTurn run tried is) (sequence (is.map run)) := by
  intro c f c' h
  obtain ⟨⟨o₁, c₁⟩, h₁, h⟩ := Option.bind_eq_some_iff.mp h
  cases o₁ with
  | success vs => cases h
  | failure g => cases h; exact inTurn_failure hw h₁

/-- The failure of a choice is that of one of its walks, but for a choice of none. -/
theorem tryEach_failure {start : Nat} : ∀ {is : List ι}, (∀ i ∈ is, Lists (tried i) (run i)) →
    ∀ {before : Option Failure} {c f c'},
      tryEach start before (is.map run) c = some (.failure f, c') →
      c'.Covers f ∨ f ∈ before ∨ f ∈ triedEach run tried start is c
  | [], _, some g, c, f, c', h => by cases h; exact .inr (.inl rfl)
  | [], _, none, c, f, c', h => by cases h; exact .inl (c.covers_record _)
  | i :: is, hw, before, c, f, c', h => by
    rw [List.map_cons, tryEach] at h
    obtain ⟨⟨o₁, c₁⟩, h₁, h⟩ := Option.bind_eq_some_iff.mp h
    cases o₁ with
    | success v => cases h
    | failure g =>
      have hg := hw i (by simp) h₁
      rcases tryEach_failure (fun i hm => hw i (by simp [hm])) h with hcovers | hbefore | hrest
      · exact .inl hcovers
      · rcases Failure.deepest_eq_or before g with hd | hd
        · refine .inr (.inr (List.mem_append_left _ ?_))
          rwa [← Option.some.inj hbefore, hd]
        · exact .inr (.inl (Option.some.inj hbefore ▸ hd))
      · exact .inr (.inr (List.mem_append_right _ (by simpa [h₁] using hrest)))

end

theorem optional_surfaces {tried : Context σ → List Failure} {w : Walk σ α}
    (hw : Surfaces S tried w) : Surfaces S tried (optional w) := by
  intro c o c' hS h
  obtain ⟨⟨o₁, c₁⟩, h₁, h⟩ := Option.bind_eq_some_iff.mp h
  have hs := hw hS h₁
  cases o₁ with
  | success v => cases h; exact hs
  | failure f => cases h; exact hs.restore _

/-- Looking ahead leaves the record alone. -/
theorem peek_surfaces {w : Walk σ α} (hw : Surfaces S (fun _ => []) w) :
    Surfaces S (fun _ => []) (peek w) := by
  intro c o c' hS h
  obtain ⟨⟨o₁, c₁⟩, h₁, h⟩ := Option.bind_eq_some_iff.mp h
  cases h
  have hs := (hw hS h₁).restore c.cursor
  exact ⟨hs.skip, hs.halted, fun _ hf => hf, nofun⟩

theorem probe_surfaced {w : Walk σ α} (hw : Surfaces S (fun _ => []) w) {c c' : Context σ}
    {b : Bool} (hS : ∀ s ∈ c.skip, S s) (h : probe w c = some (b, c')) : Surfaced c c' [] := by
  obtain ⟨⟨o₁, c₁⟩, h₁, h⟩ := Option.bind_eq_some_iff.mp h
  cases h
  exact peek_surfaces hw hS h₁

theorem notAhead_surfaced {w : Walk σ α} (hw : Surfaces S (fun _ => []) w) {c c' : Context σ}
    {o : Outcome Unit} (hS : ∀ s ∈ c.skip, S s) (h : notAhead w c = some (o, c')) :
    Surfaced c c' o.failures := by
  obtain ⟨⟨b, c₁⟩, h₁, h⟩ := Option.bind_eq_some_iff.mp h
  have hs := probe_surfaced hw hS h₁
  cases b with
  | true => cases h; exact hs.record _
  | false => cases h; exact hs

theorem withSkip_surfaces {tried : Context σ → List Failure} {w : Walk σ α} {skip : σ}
    (hskip : S skip) (hw : Surfaces S tried w) :
    Surfaces S (fun c => tried (c.withSkip (some skip))) (withSkip skip w) := by
  intro c o c' _ h
  obtain ⟨⟨o₁, c₁⟩, h₁, h⟩ := Option.bind_eq_some_iff.mp h
  have hS₁ : ∀ s ∈ (c.withSkip (some skip)).skip, S s := by
    intro s hs
    cases hs
    exact hskip
  have hs := hw hS₁ h₁
  cases h
  exact ⟨rfl, hs.halted, hs.grows, hs.covers⟩

/-- A walk that leaves the skip rule in force and does not take back a defect, wherever the skip
rule in force is one of `S`. -/
def Steady (S : σ → Prop) (w : Walk σ α) : Prop :=
  ∀ ⦃c o c'⦄, (∀ s ∈ c.skip, S s) → w c = some (o, c') →
    c'.skip = c.skip ∧ (c.isHalted = true → c'.isHalted = true)

theorem trySkip_surfaced {run : σ → Walk σ α} (hrun : ∀ s, S s → Steady S (run s))
    {c c' : Context σ} {b : Bool} (hS : ∀ s ∈ c.skip, S s)
    (h : trySkip run c = some (b, c')) : Surfaced c c' [] := by
  rcases trySkip_cases h with ⟨_, rfl, rfl⟩ | ⟨skip, o, c₁, _, hskip, h₁, _, _, rfl, rfl⟩ |
    ⟨skip, o, c₁, _, hskip, h₁, _, rfl, rfl⟩
  · exact .refl _
  all_goals
    obtain ⟨hskip₁, hhalted⟩ := hrun skip (hS skip hskip) (c := inSkip c) hS h₁
    exact ⟨hskip₁, hhalted, fun _ hf => hf, nofun⟩

theorem inRule_surfaces {tried : Context σ → List Failure} {w : Walk σ α} (hw : Surfaces S tried w)
    (name : String) : Surfaces S (triedInRule name tried) (inRule name w) := by
  intro c o c' hS h
  rcases inRule_cases h with ⟨hhalted, rfl, rfl⟩ | ⟨limit, _, _, rfl, rfl⟩ | ⟨c₁, hh, hl, h₁, rfl⟩
  · exact (Surfaced.refl c').of_isHalted hhalted
  · exact ((Surfaced.refl c).halt _).of_isHalted (c.isHalted_halt _)
  · have hs : Surfaced c c₁ (tried (c.pushRule name)) := by
      have hbody := hw (c := c.pushRule name) hS h₁
      exact ⟨hbody.skip, hbody.halted, hbody.grows, hbody.covers⟩
    have hentered : triedInRule name tried c = tried (c.pushRule name) := by
      simp [triedInRule, Context.enterRule, hh, hl]
    rw [hentered]
    refine hs.next ?_ (Context.fatal_exitRule c₁ _) ?_
    all_goals
      unfold Context.exitRule
      split <;> rfl

theorem inRule_failure {tried : Context σ → List Failure} {w : Walk σ α} (hw : Lists tried w)
    {name : String} {c c' : Context σ} {f : Failure} (h : inRule name w c = some (.failure f, c'))
    (hrunning : c'.isHalted = false) : f ∈ triedInRule name tried c := by
  rcases inRule_cases h with ⟨hhalted, _, rfl⟩ | ⟨limit, _, _, _, rfl⟩ | ⟨c₁, hh, hl, h₁, _⟩
  · cases hrunning.symm.trans hhalted
  · cases hrunning.symm.trans (c.isHalted_halt _)
  · simpa [triedInRule, Context.enterRule, hh, hl] using hw h₁

/-! ## Terminals -/

theorem consumeFrom_surfaced {skip : Context σ → Option (Bool × Context σ)} {token : Token}
    (hskip : ∀ {c b c'}, (∀ s ∈ c.skip, S s) → skip c = some (b, c') → Surfaced c c' [])
    {start : Nat} : ∀ {fuel c o c'}, (∀ s ∈ c.skip, S s) →
      consumeFrom skip token start fuel c = some (o, c') → Surfaced c c' o.failures
  | 0, _, _, _, _, h => by cases h
  | fuel + 1, c, o, c', hS, h => by
    rcases consumeFrom_cases h with ⟨_, _, rfl, rfl⟩ | ⟨chunk, _, _, rfl, rfl⟩ |
      ⟨c₁, h₁, rfl, rfl⟩ | ⟨c₁, h₁, h⟩
    · exact .still rfl rfl rfl
    · exact .still rfl rfl rfl
    · have hs : Surfaced c c₁ [] := (hskip (c := c.skipEmpty) hS h₁).skipEmpty
      have hmiss : Surfaced c (c₁.noteMiss token) [] := hs.next rfl rfl rfl
      exact (hmiss.restore start).record _
    · have hs : Surfaced c c₁ [] := (hskip (c := c.skipEmpty) hS h₁).skipEmpty
      exact hs.trans (consumeFrom_surfaced hskip (hs.skips hS) h)

theorem consume_surfaced {skip : Context σ → Option (Bool × Context σ)} {token : Token}
    {fuel : Nat}
    (hskip : ∀ {c b c'}, (∀ s ∈ c.skip, S s) → skip c = some (b, c') → Surfaced c c' [])
    {c c' : Context σ} {o : Outcome String} (hS : ∀ s ∈ c.skip, S s)
    (h : consume skip token fuel c = some (o, c')) : Surfaced c c' o.failures := by
  unfold consume at h
  split at h
  · rename_i hhalted
    cases h
    exact (Surfaced.refl c).of_isHalted hhalted
  · exact consumeFrom_surfaced hskip hS h

theorem consumeBehind_surfaced {token : Token} {c c' : Context σ} {o : Outcome String}
    (h : consumeBehind token c = some (o, c')) : Surfaced c c' o.failures := by
  unfold consumeBehind at h
  split at h
  · rename_i hhalted
    cases h
    exact (Surfaced.refl c).of_isHalted hhalted
  · split at h
    · split at h
      · cases h; exact .still rfl rfl rfl
      · cases h; exact .fail rfl rfl rfl
    · split at h
      · cases h; exact .still rfl rfl rfl
      · cases h; exact .fail rfl rfl rfl

theorem untilToken_surfaced {token : Token} {c c' : Context σ} {o : Outcome (List String)}
    (h : untilToken token c = some (o, c')) : Surfaced c c' o.failures := by
  unfold untilToken at h
  split at h
  · rename_i hhalted
    cases h
    exact (Surfaced.refl c).of_isHalted hhalted
  · dsimp only at h
    split at h
    · cases h; exact .still rfl rfl rfl
    · cases h
      rw [Context.restore_eq]
      exact .fail rfl rfl rfl

theorem untilMatchFrom_surfaced {stop : Walk σ α} (hstop : Surfaces S (fun _ => []) stop)
    {start : Nat} : ∀ {fuel gathered c o c'}, (∀ s ∈ c.skip, S s) →
      untilMatchFrom stop start fuel gathered c = some (o, c') → Surfaced c c' o.failures
  | 0, _, _, _, _, _, h => by cases h
  | fuel + 1, gathered, c, o, c', hS, h => by
    have hprobe : ∀ {b c₁}, probe stop c.skipEmpty = some (b, c₁) → Surfaced c c₁ [] :=
      fun h₁ => (probe_surfaced hstop (c := c.skipEmpty) hS h₁).skipEmpty
    rcases untilMatchFrom_cases h with ⟨h₁, rfl⟩ | ⟨c₁, h₁, _, rfl, rfl⟩ | ⟨c₁, chunk, h₁, _, h⟩
    · exact hprobe h₁
    · exact ((hprobe h₁).restore start).record _
    · have hs : Surfaced c (c₁.moveTo (c.skipEmpty.cursor + 1)) [] :=
        (hprobe h₁).next rfl rfl rfl
      exact hs.trans (untilMatchFrom_surfaced hstop (hs.skips hS) h)

theorem untilMatch_surfaced {stop : Walk σ α} (hstop : Surfaces S (fun _ => []) stop) {fuel : Nat}
    {c c' : Context σ} {o : Outcome (List String)} (hS : ∀ s ∈ c.skip, S s)
    (h : untilMatch stop fuel c = some (o, c')) : Surfaced c c' o.failures := by
  unfold untilMatch at h
  split at h
  · rename_i hhalted
    cases h
    exact (Surfaced.refl c).of_isHalted hhalted
  · exact untilMatchFrom_surfaced hstop hS h

/-! ## Repetition -/

namespace Repetition

/-- The failures of the elements and of what stands between them, from the round on in which there
are `count` elements so far. -/
def triedRounds (r : Repetition σ α β γ) (element between : Context σ → List Failure) :
    Nat → Nat → Context σ → List Failure
  | 0, _, _ => []
  | fuel + 1, count, c =>
    if c.isExhausted && r.least ≤ count then []
    else match r.stopsAt c with
      | some (false, c₁) =>
        element c₁ ++ match r.element c₁ with
          | some (.success _, c₂) =>
            between c₂ ++ match r.separates c₂ with
              | some (true, c₃) =>
                if c₃.cursor = c₁.cursor then []
                else triedRounds r element between fuel (count + 1) c₃
              | _ => []
          | _ => []
      | _ => []

/-- The failures that are tried in a repetition surface, given those of its walks. -/
structure Surfaces (S : σ → Prop) (element between : Context σ → List Failure)
    (r : Repetition σ α β γ) : Prop where
  element : Walk.Surfaces S element r.element
  separates : ∀ {c b c'}, (∀ s ∈ c.skip, S s) → r.separates c = some (b, c') →
    Surfaced c c' (between c)
  stop : ∀ w ∈ r.stop, Walk.Surfaces S (fun _ => []) w

variable {r : Repetition σ α β γ} {element between : Context σ → List Failure}

theorem stopsAt_surfaced (hr : r.Surfaces S element between) {c c' : Context σ} {b : Bool}
    (hS : ∀ s ∈ c.skip, S s) (h : r.stopsAt c = some (b, c')) : Surfaced c c' [] := by
  unfold stopsAt at h
  split at h
  · cases h; exact .refl c
  · rename_i stop hstop
    exact probe_surfaced (hr.stop stop hstop) hS h

/-- What surfaces in a round until there is an element, and until it is seen whether another one may
follow. -/
theorem Surfaces.element_found (hr : r.Surfaces S element between) {c c₁ c₂ : Context σ}
    {o : Outcome α} (hS : ∀ s ∈ c.skip, S s) (h₁ : r.stopsAt c = some (false, c₁))
    (h₂ : r.element c₁ = some (o, c₂)) : Surfaced c c₂ (element c₁) := by
  have hs₁ := stopsAt_surfaced hr hS h₁
  simpa using hs₁.trans (hr.element (hs₁.skips hS) h₂)

theorem Surfaces.separated (hr : r.Surfaces S element between) {c c₁ c₂ c₃ : Context σ}
    {o : Outcome α} {b : Bool} (hS : ∀ s ∈ c.skip, S s) (h₁ : r.stopsAt c = some (false, c₁))
    (h₂ : r.element c₁ = some (o, c₂)) (h₃ : r.separates c₂ = some (b, c₃)) :
    Surfaced c c₃ (element c₁ ++ between c₂) := by
  have hs₂ := hr.element_found hS h₁ h₂
  exact hs₂.trans (hr.separates (hs₂.skips hS) h₃)

theorem isHalted_stuck (c : Context σ) (d : Defect) (start : Nat) (f : Failure) :
    (((c.halt d).restore start).record f).isHalted = true := by
  show ((c.halt d).restore start).fatal.isSome = true
  rw [Context.fatal_restore]
  exact c.isHalted_halt d

theorem rounds_surfaced (hr : r.Surfaces S element between) {start : Nat} :
    ∀ {fuel rewind} {values : Array α} {c o c'}, (∀ s ∈ c.skip, S s) →
      r.rounds start fuel rewind values c = some (o, c') →
      Surfaced c c' (r.triedRounds element between fuel values.size c)
  | 0, _, _, _, _, _, _, h => by cases h
  | fuel + 1, rewind, values, c, o, c', hS, h => by
    by_cases hspent : r.IsSpent values c
    · rw [rounds_of_isSpent hspent] at h
      cases h
      rw [triedRounds, if_pos (by simpa [IsSpent] using hspent)]
      exact (Surfaced.refl c).restore _
    rw [triedRounds, if_neg (by simpa [IsSpent] using hspent)]
    rcases rounds_cases h with hleaves | ⟨v, c₁, c₂, c₃, hgo, h⟩
    · cases hleaves with
      | exhausted he hleast => exact absurd ⟨he, hleast⟩ hspent
      | stopped h₁ _ => simpa [h₁] using (stopsAt_surfaced hr hS h₁).restore rewind
      | stoppedShort h₁ _ =>
        simp only [h₁]
        exact (((stopsAt_surfaced hr hS h₁).restore start).record _).quiet
      | missed h₁ h₂ _ => simpa [h₁, h₂] using (hr.element_found hS h₁ h₂).restore rewind
      | missedShort h₁ h₂ _ => simpa [h₁, h₂] using (hr.element_found hS h₁ h₂).restore start
      | last h₁ h₂ h₃ => simpa [h₁, h₂, h₃] using (hr.separated hS h₁ h₂ h₃).restore _
      | stuck h₁ h₂ h₃ hcursor =>
        simp only [h₁, h₂, h₃, hcursor, if_true, List.append_nil]
        exact ((((hr.separated hS h₁ h₂ h₃).halt _).restore start).record _).mono
          fun f hf => List.mem_append_left _ hf
    · have hs := hr.separated hS hgo.stopsAt hgo.element hgo.separates
      have hrest := hs.trans (rounds_surfaced hr (hs.skips hS) h)
      simpa [hgo.stopsAt, hgo.element, hgo.separates, hgo.moved] using hrest

/-- The failure of a repetition is put on record or one of those that were tried, unless the parse
has stopped. -/
theorem rounds_failure {start : Nat}
    (helement : ∀ ⦃c f c'⦄, r.element c = some (.failure f, c') → f ∈ element c) :
    ∀ {fuel rewind} {values : Array α} {c f c'},
      r.rounds start fuel rewind values c = some (.failure f, c') → c'.isHalted = false →
      c'.Covers f ∨ f ∈ r.triedRounds element between fuel values.size c
  | 0, _, _, _, _, _, h, _ => by cases h
  | fuel + 1, rewind, values, c, f, c', h, hrunning => by
    have hspent : ¬ r.IsSpent values c := by
      intro hspent
      cases (rounds_of_isSpent hspent).symm.trans h
    rw [triedRounds, if_neg (by simpa [IsSpent] using hspent)]
    rcases rounds_cases h with hleaves | ⟨v, c₁, c₂, c₃, hgo, h⟩
    · cases hleaves with
      | stoppedShort _ _ => exact .inl (Context.covers_record ..)
      | missedShort h₁ h₂ _ => exact .inr (by simpa [h₁, h₂] using helement h₂)
      | stuck _ _ _ _ => cases hrunning.symm.trans (isHalted_stuck ..)
    · rcases rounds_failure helement h hrunning with hcovers | hm
      · exact .inl hcovers
      · rw [Array.size_push] at hm
        exact .inr (by simp [hgo.stopsAt, hgo.element, hgo.separates, hgo.moved, hm])

end Repetition

end Walk

/-! ## Grammars -/

namespace Grammar

variable {rules : RuleTable}

/-- The failures of what a grammar runs in the open, given those of each of these. -/
def triedWithin (rules : RuleTable) (fuel : Nat) (run : LinkedGrammar → Walk LinkedGrammar Value)
    (fs : LinkedGrammar → Context LinkedGrammar → List Failure) :
    LinkedGrammar → Context LinkedGrammar → List Failure
  | .sequence gs, c => Walk.triedInTurn run fs gs c
  | .choice gs, c => Walk.triedEach run fs c.cursor gs c
  | .optional g, c => fs g c
  | .skipIn skip g, c => fs g (c.withSkip (some skip))
  | .repeated g least separator stop, c =>
    (repetitionOf run g least separator stop).triedRounds (fs g)
      (fun c => separator.elim [] (fs · c)) fuel 0 c
  | .rule r, c =>
    match rules[r.symbol.index]? with
    | some g => Walk.triedInRule r.name (fs g) c
    | none => []
  | .map _ g, c => fs g c
  | .discard g, c => fs g c
  | .andThen g _, c => fs g c
  | _, _ => []

/-- The failures that are tried in a run, but for lookahead and attempts to skip, behind which the
record is put back: those of every alternative, element, separator and step of a sequence, and its
own. -/
def tried (rules : RuleTable) : Nat → LinkedGrammar → Context LinkedGrammar → List Failure
  | 0, _, _ => []
  | fuel + 1, g, c =>
    triedWithin rules fuel (run rules fuel) (tried rules fuel) g c
      ++ (run rules (fuel + 1) g c).elim [] (·.1.failures)

theorem tried_lists (fuel : Nat) (g : LinkedGrammar) :
    Walk.Lists (tried rules fuel g) (run rules fuel g) := by
  intro c f c' h
  cases fuel with
  | zero => cases h
  | succ fuel => exact List.mem_append_right _ (by simp [h, Outcome.failures])

section

variable {run : LinkedGrammar → Walk LinkedGrammar Value}
  {fs : LinkedGrammar → Context LinkedGrammar → List Failure} {S : LinkedGrammar → Prop}
  {fuel : Nat} {g : LinkedGrammar}

theorem repeated_surfaces {least : Nat} {separator stop : Option LinkedGrammar}
    (haside : ∀ part ∈ (Grammar.repeated g least separator stop).parts,
      Walk.Surfaces S (fun _ => []) (run part))
    (hopen : ∀ part ∈ (Grammar.repeated g least separator stop).openParts,
      Walk.Surfaces S (fs part) (run part)) :
    (repetitionOf run g least separator stop).Surfaces S (fs g)
      (fun c => separator.elim [] (fs · c)) := by
  refine ⟨hopen g (by simp [openParts]), ?_, fun w hw => ?_⟩
  · intro c b c' hS h
    cases separator with
    | none => cases h; exact .refl c
    | some s =>
      obtain ⟨⟨o, c₁⟩, h₁, h⟩ := Option.bind_eq_some_iff.mp h
      cases h
      exact hopen s (by simp [openParts]) hS h₁
  · obtain ⟨g, hm, rfl⟩ := Option.map_eq_some_iff.mp hw
    exact haside g (by simp [parts, hm])

/-- What surfaces from a grammar, given what surfaces from what it runs in the open. Of what is only
looked ahead at, no more is asked than that it goes on record. -/
theorem step_surfaces (hg : g.isNative = false) (hskips : ∀ s, S s → Walk.Steady S (run s))
    (hinstalled : ∀ skip body, g = .skipIn skip body → S skip)
    (haside : ∀ part ∈ g.parts, Walk.Surfaces S (fun _ => []) (run part))
    (hopen : ∀ part ∈ g.openParts, Walk.Surfaces S (fs part) (run part))
    (hrules : ∀ r body, g = .rule r → rules[r.symbol.index]? = some body →
      Walk.Surfaces S (fs body) (run body)) :
    Walk.Surfaces S (triedWithin rules fuel run fs g) (step rules fuel run g) := by
  cases g with
  | consume t =>
    refine Walk.Surfaces.map (fun c o c' hS h => ?_) _
    exact (Walk.consume_surfaced (Walk.trySkip_surfaced hskips) hS h).quiet
  | behind t =>
    refine Walk.Surfaces.map (fun c o c' _ h => ?_) _
    exact (Walk.consumeBehind_surfaced h).quiet
  | untilToken t =>
    refine Walk.Surfaces.map (fun c o c' _ h => ?_) _
    exact (Walk.untilToken_surfaced h).quiet
  | untilMatch g =>
    refine Walk.Surfaces.map (fun c o c' hS h => ?_) _
    exact (Walk.untilMatch_surfaced (haside g (by simp [parts])) hS h).quiet
  | unit =>
    intro c o c' _ h
    cases h
    exact .refl c
  | sequence gs => exact (Walk.sequence_surfaces hopen).map _
  | choice gs => exact fun c o c' hS h => Walk.tryEach_surfaced hopen hS h
  | optional g => exact (Walk.optional_surfaces (hopen g (by simp [openParts, parts]))).map _
  | peek g => exact Walk.peek_surfaces (haside g (by simp [parts]))
  | notAhead g =>
    refine Walk.Surfaces.map (fun c o c' hS h => ?_) _
    exact (Walk.notAhead_surfaced (haside g (by simp [parts])) hS h).quiet
  | skipIn skip g =>
    exact Walk.withSkip_surfaces (hinstalled skip g rfl) (hopen g (by simp [openParts]))
  | repeated g least separator stop =>
    refine Walk.Surfaces.map (fun c o c' hS h => ?_) _
    exact Walk.Repetition.rounds_surfaced (repeated_surfaces haside hopen) hS h
  | rule r =>
    intro c o c' hS h
    rcases call_cases h with ⟨body, hget, h⟩ | ⟨hget, rfl, rfl⟩
    · simpa [triedWithin, hget] using Walk.inRule_surfaces (hrules r body rfl hget) r.name hS h
    · exact ((Surfaced.refl c).halt _).of_isHalted (c.isHalted_halt _)
  | map f g => exact (hopen g (by simp [openParts, parts])).map f
  | discard g => exact (hopen g (by simp [openParts, parts])).map _
  | native f => cases hg
  | andThen g f => cases hg

/-- The failure that a grammar ends with is put on record or stems from what it runs in the open,
unless the parse has stopped. -/
theorem step_failure (hg : g.isNative = false) (hpeek : g.isPeek = false)
    (hskips : ∀ s, S s → Walk.Steady S (run s))
    (haside : ∀ part ∈ g.parts, Walk.Surfaces S (fun _ => []) (run part))
    (hopen : ∀ part ∈ g.openParts, Walk.Lists (fs part) (run part))
    (hrules : ∀ r body, g = .rule r → rules[r.symbol.index]? = some body →
      Walk.Lists (fs body) (run body))
    {c c' : Context LinkedGrammar} {f : Failure} (hS : ∀ s ∈ c.skip, S s)
    (h : step rules fuel run g c = some (.failure f, c')) (hrunning : c'.isHalted = false) :
    c'.Covers f ∨ f ∈ triedWithin rules fuel run fs g c := by
  cases g with
  | consume t =>
    have h := Walk.failure_of_map h
    have hs := Walk.consume_surfaced (Walk.trySkip_surfaced hskips) hS h
    exact .inl (hs.covers_own hrunning)
  | behind t =>
    have hs := Walk.consumeBehind_surfaced (Walk.failure_of_map h)
    exact .inl (hs.covers_own hrunning)
  | untilToken t =>
    have hs := Walk.untilToken_surfaced (Walk.failure_of_map h)
    exact .inl (hs.covers_own hrunning)
  | untilMatch g =>
    have hs := Walk.untilMatch_surfaced (haside g (by simp [parts])) hS (Walk.failure_of_map h)
    exact .inl (hs.covers_own hrunning)
  | unit => cases h
  | sequence gs => exact .inr (Walk.sequence_failure hopen (Walk.failure_of_map h))
  | choice gs =>
    rcases Walk.tryEach_failure hopen h with hcovers | hnone | htried
    · exact .inl hcovers
    · cases hnone
    · exact .inr htried
  | optional g =>
    obtain ⟨⟨o₁, c₁⟩, _, h⟩ := Option.bind_eq_some_iff.mp (Walk.failure_of_map h)
    cases o₁ <;> cases h
  | peek g => cases hpeek
  | notAhead g =>
    have hs := Walk.notAhead_surfaced (haside g (by simp [parts])) hS (Walk.failure_of_map h)
    exact .inl (hs.covers_own hrunning)
  | skipIn skip g =>
    obtain ⟨⟨o₁, c₁⟩, h₁, h⟩ := Option.bind_eq_some_iff.mp h
    cases h
    exact .inr (hopen g (by simp [openParts]) h₁)
  | repeated g least separator stop =>
    have helement : Walk.Lists (fs g) (repetitionOf run g least separator stop).element :=
      hopen g (by simp [openParts])
    exact Walk.Repetition.rounds_failure helement (Walk.failure_of_map h) hrunning
  | rule r =>
    rcases call_cases h with ⟨body, hget, h⟩ | ⟨_, _, rfl⟩
    · exact .inr (by simpa [triedWithin, hget] using
        Walk.inRule_failure (hrules r body rfl hget) h hrunning)
    · cases hrunning.symm.trans (c.isHalted_halt _)
  | map f g => exact .inr (hopen g (by simp [openParts, parts]) (Walk.failure_of_map h))
  | discard g => exact .inr (hopen g (by simp [openParts, parts]) (Walk.failure_of_map h))
  | native f => cases hg
  | andThen g f => cases hg

end

/-- What may stand as the skip rule: a grammar that is made of what is built in, or any other one
that leaves the skip rule in force and does not take back a defect. -/
def Skippable (rules : RuleTable) (s : LinkedGrammar) : Prop :=
  s.isBuiltIn = true ∨ ∀ fuel, Walk.Steady (fun _ => True) (run rules fuel s)

theorem steady_of_skippable {fuel : Nat}
    (hbuiltIn : ∀ {g : LinkedGrammar}, g.isBuiltIn = true →
      Walk.Surfaces (Skippable rules) (fun _ => []) (run rules fuel g))
    {s : LinkedGrammar} (hs : Skippable rules s) :
    Walk.Steady (Skippable rules) (run rules fuel s) := by
  intro c o c' hS h
  rcases hs with hb | hsteady
  · have hs := hbuiltIn hb hS h
    exact ⟨hs.skip, hs.halted⟩
  · exact hsteady fuel (fun _ _ => trivial) h

section

variable (hrules : ∀ g ∈ rules, g.isBuiltIn = true)

include hrules

/-- Of any run: a defect stays, and the record gets no less deep. -/
theorem run_surfaces_aside {fuel : Nat} {g : LinkedGrammar} (hg : g.isBuiltIn = true) :
    Walk.Surfaces (Skippable rules) (fun _ => []) (run rules fuel g) := by
  induction fuel generalizing g with
  | zero => intro c o c' _ h; cases h
  | succ fuel ih =>
    have hsurfaces : Walk.Surfaces (Skippable rules)
        (triedWithin rules fuel (run rules fuel) (fun _ _ => []) g) (run rules (fuel + 1) g) := by
      refine step_surfaces (by simpa using all_self hg) (fun s hs => steady_of_skippable ih hs) ?_
        (fun part hm => ih (isBuiltIn_part hg hm))
        (fun part hm => ih (isBuiltIn_part hg (mem_parts_of_mem_openParts hm)))
        fun r body _ hget => ih (hrules body (Array.mem_of_getElem? hget))
      rintro skip body rfl
      exact .inl (isBuiltIn_part hg (by simp [parts]))
    exact fun c o c' hS h => (hsurfaces hS h).quiet

/-- Of a run that comes to no `peek` in the open: what is tried in it surfaces. -/
theorem run_surfaces {fuel : Nat} {g : LinkedGrammar} (hg : g.isBuiltIn = true)
    (hpeek : ∀ h, Reaches rules g h → h.isPeek = false) :
    Walk.Surfaces (Skippable rules) (tried rules fuel g) (run rules fuel g) := by
  induction fuel generalizing g with
  | zero => intro c o c' _ h; cases h
  | succ fuel ih =>
    have hnative : g.isNative = false := by simpa using all_self hg
    have hskips : ∀ s, Skippable rules s → Walk.Steady (Skippable rules) (run rules fuel s) :=
      fun s hs => steady_of_skippable (run_surfaces_aside hrules) hs
    have haside : ∀ part ∈ g.parts,
        Walk.Surfaces (Skippable rules) (fun _ => []) (run rules fuel part) :=
      fun part hm => run_surfaces_aside hrules (isBuiltIn_part hg hm)
    have hsurfaces : Walk.Surfaces (Skippable rules)
        (triedWithin rules fuel (run rules fuel) (tried rules fuel) g)
        (run rules (fuel + 1) g) := by
      refine step_surfaces hnative hskips ?_ haside ?_ ?_
      · rintro skip body rfl
        exact .inl (isBuiltIn_part hg (by simp [parts]))
      · intro part hm
        exact ih (isBuiltIn_part hg (mem_parts_of_mem_openParts hm))
          fun h hreach => hpeek h (.part hm hreach)
      · rintro r body rfl hget
        exact ih (hrules body (Array.mem_of_getElem? hget))
          fun h hreach => hpeek h (.rule hget hreach)
    intro c o c' hS h
    have hs := hsurfaces hS h
    refine ⟨hs.skip, hs.halted, hs.grows, fun hrunning f hf => ?_⟩
    rcases List.mem_append.mp hf with hf | hf
    · exact hs.covers hrunning f hf
    -- where its own failure stems from is on record already
    cases o with
    | success v => simp [h, Outcome.failures] at hf
    | failure e =>
      obtain rfl : f = e := by simpa [h, Outcome.failures] using hf
      rcases step_failure hnative (hpeek g (.self g)) hskips haside
        (fun part _ => tried_lists fuel part) (fun _ body _ _ => tried_lists fuel body) hS h
        hrunning with hcovers | hf
      · exact hcovers
      · exact hs.covers hrunning f hf

/-- A run that fails, though the parse goes on, does not fail further on than where the record
is. -/
theorem failure_covered {fuel : Nat} {g : LinkedGrammar} (hg : g.isBuiltIn = true)
    (hpeek : ∀ h, Reaches rules g h → h.isPeek = false) {c c' : Context LinkedGrammar}
    {f : Failure} (hS : ∀ s ∈ c.skip, Skippable rules s)
    (h : run rules fuel g c = some (.failure f, c')) (hrunning : c'.isHalted = false) :
    c'.Covers f :=
  (run_surfaces hrules hg hpeek hS h).covers hrunning f (tried_lists fuel g h)

end

end Grammar

namespace Parser

variable {p : Parser}

/-- What a syntax error says: that the entry failed, and where the record is. -/
theorem mismatch_cases {name : String} {entry : LinkedGrammar} (hentry : p.entry? name = some entry)
    {text : String} {trace t : Option Trace} {e : SyntaxError}
    (h : (p.parse name text trace).1 = some (.error (.mismatch e), t)) :
    ∃ f c', Grammar.parse p.rules entry (p.start (p.tokenizer.tokenize text).1 trace)
        = some (.failure f, c') ∧ c'.isHalted = false ∧
      ∀ d, c'.deepest = some d → f.position ≤ d.position → e = .ofFailure c'.chunks d := by
  rw [fst_parse hentry] at h
  obtain ⟨⟨o, c'⟩, hrun, h⟩ := Option.bind_eq_some_iff.mp h
  obtain ⟨hfinish, -⟩ := Prod.mk.inj (Option.some.inj h)
  cases hfatal : c'.fatal with
  | some d => cases o <;> simp [Context.finish, hfatal] at hfinish
  | none =>
    cases o with
    | success v => simp [Context.finish, hfatal] at hfinish
    | failure f =>
      refine ⟨f, c', hrun, by simp [Context.isHalted, hfatal], fun d hd hle => ?_⟩
      simpa [Context.finish, hfatal, hd, hle] using hfinish.symm

/-- **Failures surface.** A run of what is built in that hands on no failure of a `peek` never fails
further on than where the record is, unless the parse has stopped; nor does anything that is tried
in it in the open. The same goes for the run of a skip rule by itself. A syntax error is the failure
on record, and none of what was tried got further. -/
theorem failures_surface (hp : p.isBuiltIn = true) :
    (∀ (fuel : Nat) (g : LinkedGrammar) (c c' : Context LinkedGrammar) (f : Failure),
      g.isBuiltIn = true → (∀ h, Grammar.Reaches p.rules g h → h.isPeek = false) →
      (∀ s ∈ c.skip, Grammar.Skippable p.rules s) →
      Grammar.run p.rules fuel g c = some (.failure f, c') → c'.isHalted = false →
      ∃ d, c'.deepest = some d ∧ f.position ≤ d.position) ∧
    (∀ (fuel : Nat) (g : LinkedGrammar) (c c' : Context LinkedGrammar) (o : Outcome Value),
      g.isBuiltIn = true → (∀ h, Grammar.Reaches p.rules g h → h.isPeek = false) →
      (∀ s ∈ c.skip, Grammar.Skippable p.rules s) →
      Grammar.run p.rules fuel g c = some (o, c') → c'.isHalted = false →
      ∀ f ∈ Grammar.tried p.rules fuel g c,
        ∃ d, c'.deepest = some d ∧ f.position ≤ d.position) ∧
    ∀ (name : String) (entry : LinkedGrammar) (text : String) (trace t : Option Trace)
      (e : SyntaxError), p.entry? name = some entry →
      (∀ h, Grammar.Reaches p.rules entry h → h.isPeek = false) →
      (p.parse name text trace).1 = some (.error (.mismatch e), t) →
      ∃ f c' d, Grammar.parse p.rules entry (p.start (p.tokenizer.tokenize text).1 trace)
          = some (.failure f, c') ∧ c'.deepest = some d ∧
        e = .ofFailure (p.tokenizer.tokenize text).1 d ∧ f.position ≤ d.position ∧
        ∀ f ∈ Grammar.tried p.rules (Grammar.enoughFuel p.rules
            (p.start (p.tokenizer.tokenize text).1 trace) entry) entry
            (p.start (p.tokenizer.tokenize text).1 trace),
          f.position ≤ d.position := by
  have hrules := rules_isBuiltIn hp
  refine ⟨?_, ?_, ?_⟩
  · intro fuel g c c' f hg hpeek hS h hrunning
    exact Grammar.failure_covered hrules hg hpeek hS h hrunning
  · intro fuel g c c' o hg hpeek hS h hrunning f hf
    exact (Grammar.run_surfaces hrules hg hpeek hS h).covers hrunning f hf
  · intro name entry text trace t e hentry hpeek h
    obtain ⟨f, c', hparse, hrunning, hreported⟩ := mismatch_cases hentry h
    have hS : ∀ s ∈ p.skip, Grammar.Skippable p.rules s := fun s hs => .inl (skip_isBuiltIn hp s hs)
    have hb := entry?_isBuiltIn hentry
    obtain ⟨d, hd, hle⟩ := Grammar.failure_covered hrules hb hpeek hS hparse hrunning
    have hchunks : c'.chunks = (p.tokenizer.tokenize text).1 :=
      Context.chunks_eq (Grammar.run_tidy hrules hb (skip_isBuiltIn hp) hparse).setting
    refine ⟨f, c', d, hparse, hd, hchunks ▸ hreported d hd hle, hle, fun g hg => ?_⟩
    obtain ⟨d', hd', hle'⟩ :=
      (Grammar.run_surfaces hrules hb hpeek hS hparse).covers hrunning g hg
    rwa [Option.some.inj (hd.symm.trans hd')]

/-- The failure of `y` is the one on record. That of `w` is looked ahead at, and that of `z` is less
deep. -/
theorem failures_surface_optional :
    ∃ d, (Parser.parse
        { tokenizer := { pattern := "", program := none }
          symbols := ⟨#["A"]⟩
          rules := #[.sequence [
            .notAhead (.peek (.sequence [.consume (.literal 0 "x"), .consume (.literal 1 "w")])),
            .optional (.sequence [.consume (.literal 0 "x"), .consume (.literal 2 "y")]),
            .consume (.literal 3 "z")]]
          skip := none
          recursionLimit := some 2 } "A" "x" none).1
        = some (.error (.mismatch (.ofFailure ⟨#["x"]⟩ d)), none) ∧
      ∀ f ∈ [⟨1, .literal 2 "y"⟩, (⟨0, .literal 3 "z"⟩ : Failure)], f.position ≤ d.position := by
  have hparse : (Parser.parse
        { tokenizer := { pattern := "", program := none }
          symbols := ⟨#["A"]⟩
          rules := #[.sequence [
            .notAhead (.peek (.sequence [.consume (.literal 0 "x"), .consume (.literal 1 "w")])),
            .optional (.sequence [.consume (.literal 0 "x"), .consume (.literal 2 "y")]),
            .consume (.literal 3 "z")]]
          skip := none
          recursionLimit := some 2 } "A" "x" none).1
        = some (.error (.mismatch (.ofFailure ⟨#["x"]⟩ ⟨1, .literal 2 "y"⟩)), none) := by
    with_unfolding_all rfl
  have hpeek : ∀ h, Grammar.Reaches #[.sequence [
        .notAhead (.peek (.sequence [.consume (.literal 0 "x"), .consume (.literal 1 "w")])),
        .optional (.sequence [.consume (.literal 0 "x"), .consume (.literal 2 "y")]),
        .consume (.literal 3 "z")]] (.entryOf ⟨0⟩ "A") h → h.isPeek = false := by
    intro h hreach
    have hmem := hreach.invariant (P := (· ∈ [
        .entryOf ⟨0⟩ "A", .sequence [.rule ⟨⟨0⟩, "A"⟩, .consume .eof], .rule ⟨⟨0⟩, "A"⟩,
        .consume .eof,
        .sequence [
          .notAhead (.peek (.sequence [.consume (.literal 0 "x"), .consume (.literal 1 "w")])),
          .optional (.sequence [.consume (.literal 0 "x"), .consume (.literal 2 "y")]),
          .consume (.literal 3 "z")],
        .notAhead (.peek (.sequence [.consume (.literal 0 "x"), .consume (.literal 1 "w")])),
        .optional (.sequence [.consume (.literal 0 "x"), .consume (.literal 2 "y")]),
        .sequence [.consume (.literal 0 "x"), .consume (.literal 2 "y")],
        .consume (.literal 0 "x"), .consume (.literal 2 "y"), .consume (.literal 3 "z")])) ?_ ?_ ?_
    · simp only [List.mem_cons, List.not_mem_nil, or_false] at hmem
      rcases hmem with rfl | rfl | rfl | rfl | rfl | rfl | rfl | rfl | rfl | rfl | rfl <;> rfl
    · simp [LinkedGrammar.entryOf, Grammar.openParts, Grammar.parts]
    · intro r g hm hget
      obtain rfl : r = ⟨⟨0⟩, "A"⟩ := by simpa [LinkedGrammar.entryOf] using hm
      cases hget
      simp
    · simp
  obtain ⟨_, _, d, _, _, he, _, htried⟩ := (failures_surface (by decide)).2.2 "A"
    (.entryOf ⟨0⟩ "A") "x" none none _ (by with_unfolding_all rfl) hpeek hparse
  refine ⟨d, ?_, ?_⟩
  · rw [hparse, he]
    rfl
  · intro f hf
    refine htried f ?_
    revert f
    decide +kernel

end Parser

end Chunkwise
