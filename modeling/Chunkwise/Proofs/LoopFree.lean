import Chunkwise.Proofs.Account
import Chunkwise.Proofs.Compose
import Chunkwise.Proofs.Naming
import Chunkwise.Proofs.Progress

/-! Grammars that never get stuck. Where the element or the separator of every repetition takes
a chunk whenever it matches, each round moves on, since nothing in it moves back. So no round is
found stuck, and no parse ends because of an infinite loop. -/

namespace Chunkwise

/-- Whether a repetition is to blame that did not move. -/
def Defect.isLoop : Defect → Bool
  | .infiniteLoop _ _ => true
  | _ => false

namespace Grammar

variable {ρ ρ' : Type}

/-- Each round of a repetition takes a chunk, with its element or with its separator. -/
def RoundsConsume (N : ρ → Prop) : Grammar ρ → Prop
  | .repeated g _ separator _ => g.Consumes N ∨ ∃ s ∈ separator, s.Consumes N
  | _ => True

/-- A grammar that looks behind only right under a lookahead and whose repetitions all move. -/
structure Sound (N : ρ → Prop) (g : Grammar ρ) : Prop where
  isForward : g.isForward = true
  rounds : g.Everywhere (RoundsConsume N)

/-! ## Linking -/

variable {N : ρ → Prop} {N' : ρ' → Prop} {f : ρ → ρ'}

theorem Consumes.link (hf : ∀ r, N r → N' (f r)) {g : Grammar ρ} (h : g.Consumes N) :
    (g.link f).Consumes N' := by
  induction h with
  | consume ht => exact .consume ht
  | rule hr => exact .rule (hf _ hr)
  | @sequence gs g hm _ ih =>
    rw [Grammar.link, linkList_eq]
    exact .sequence (List.mem_map_of_mem hm) ih
  | choice hne _ ih =>
    rw [Grammar.link, linkList_eq]
    exact .choice (by simpa using hne) (List.forall_mem_map.mpr ih)
  | repeated separator stop hleast _ ih => exact .repeated _ _ hleast ih
  | skipIn skip _ ih => exact .skipIn _ ih
  | map v _ ih => exact .map v ih
  | discard _ ih => exact .discard ih

theorem RoundsConsume.link (hf : ∀ r, N r → N' (f r)) {g : Grammar ρ} (h : RoundsConsume N g) :
    RoundsConsume N' (g.link f) := by
  cases g with
  | repeated g least separator stop =>
    rcases h with hg | ⟨s, hs, h⟩
    · exact .inl (hg.link hf)
    · rw [Option.mem_def.mp hs]
      exact .inr ⟨s.link f, rfl, h.link hf⟩
  | _ => exact trivial

theorem Sound.link (hf : ∀ r, N r → N' (f r)) {g : Grammar ρ} (h : g.Sound N) :
    (g.link f).Sound N' := by
  obtain ⟨hforward, hrounds⟩ := h
  refine ⟨(isForward_link f g).trans hforward, ?_⟩
  clear hforward
  induction hrounds with
  | intro hg _ ih =>
    refine .intro (hg.link hf) ?_
    rw [parts_link]
    exact List.forall_mem_map.mpr ih

end Grammar

/-! ## Walks -/

variable {σ α β γ : Type} {S : σ → Prop}

/-- The walk finds no infinite loop, wherever the skip rule in force is one of `S`. -/
def LoopFree (S : σ → Prop) (w : Context σ → Option (β × Context σ)) : Prop :=
  ∀ ⦃c b d⦄, (∀ s ∈ c.skip, S s) → w c = some (b, d) →
    (∀ s ∈ d.skip, S s) ∧ ∀ e ∈ d.fatal, e.isLoop = true → e ∈ c.fatal

/-- Another defect is found only if none was before. -/
theorem Context.loop_of_halt {c : Context σ} {d e : Defect} (hd : d.isLoop = false)
    (he : e ∈ (c.halt d).fatal) (hloop : e.isLoop = true) : e ∈ c.fatal := by
  cases hc : c.fatal with
  | some d' => simpa [Context.halt, hc] using he
  | none =>
    have hed : d = e := by simpa [Context.halt, hc] using he
    rw [hed, hloop] at hd
    cases hd

namespace Told

/-- A change that finds no infinite loop. -/
theorem loopFree_become {change : Change} {f : Context σ → Context σ}
    (hskip : ∀ c : Context σ, (∀ s ∈ c.skip, S s) → ∀ s ∈ (f c).skip, S s)
    (hfatal : ∀ c : Context σ, ∀ e ∈ (f c).fatal, e.isLoop = true → e ∈ c.fatal) :
    LoopFree S (become change f).forget := by
  intro c b d hS h
  cases h
  exact ⟨hskip c hS, hfatal c⟩

/-- All ways to make a telling walk find no infinite loop, but for repetitions. -/
theorem loopFree_resemblance :
    Resemblance S (fun _ _ => True) fun _ x _ => LoopFree S x.forget where
  pure b := by
    intro c b d hS h
    cases h
    exact ⟨hS, fun _ he _ => he⟩
  bind := by
    intro β γ x y f g hx hf c b d hS h
    rw [forget_bind] at h
    obtain ⟨⟨b₁, d₁⟩, h₁, h₂⟩ := Option.bind_eq_some_iff.mp h
    obtain ⟨hS₁, hkept₁⟩ := hx hS h₁
    obtain ⟨hS₂, hkept₂⟩ := hf b₁ hS₁ h₂
    exact ⟨hS₂, fun e he hloop => hkept₁ e (hkept₂ e he hloop) hloop⟩
  never := by
    intro β y _ c b d _ h
    cases h
  look := by
    intro β f g hf c b d hS h
    exact hf c.view hS hS h
  moveTo i := loopFree_become (fun _ hS => hS) fun _ _ he _ => he
  note f := loopFree_become (fun _ hS => hS) fun _ _ he _ => he
  setSkip hskip := loopFree_become (fun _ _ => hskip) fun _ _ he _ => he
  setSkipping b := loopFree_become (fun _ hS => hS) fun _ _ he _ => he
  record f := loopFree_become (fun _ hS => hS) fun _ _ he _ => he
  findUnresolved name :=
    loopFree_become (fun _ hS => hS) fun _ _ he hloop => Context.loop_of_halt rfl he hloop
  enterRule name := by
    intro c b d hS h
    rw [forget_enterRule, Option.some_inj] at h
    unfold Context.enterRule at h
    split at h
    · cases h
      exact ⟨hS, fun _ he _ => he⟩
    · split at h
      · cases h
        exact ⟨hS, fun _ he hloop => Context.loop_of_halt rfl he hloop⟩
      · cases h
        exact ⟨hS, fun _ he _ => he⟩
  exitRule matched := by
    refine loopFree_become (fun c hS => ?_) fun c e he _ => ?_
    · unfold Context.exitRule
      split <;> exact hS
    · rwa [Context.fatal_exitRule] at he
  aside := by
    intro β x y hx c b d hS h
    obtain ⟨d₁, h₁, rfl⟩ := ending_aside_eq_some.mp h
    obtain ⟨hskip, hkept⟩ := hx hS h₁
    exact ⟨hskip, hkept⟩

end Told

namespace Walk.Repetition

variable {r : Repetition σ α β γ}

/-- A round that found an element and goes on has moved if one of its parts did. -/
theorem round_moves (ht : r.Tidy S) (hr : r.Travels S Advance)
    (hmoves : Walk.Gains S r.element ∨ ∃ w ∈ r.separator, Walk.Gains S w) {c₁ c₂ c₃ : Context σ}
    {v : α} (hS : ∀ s ∈ c₁.skip, S s) (h₁ : r.element c₁ = some (.success v, c₂))
    (h₂ : r.separates c₂ = some (true, c₃)) : c₁.cursor < c₃.cursor := by
  have hS₂ := Context.skip_of_setting (ht.element hS h₁).setting hS
  rcases hmoves with helement | ⟨w, hw, hseparator⟩
  · exact Nat.lt_of_lt_of_le (helement hS h₁) (separates_travels travel_advance hr hS₂ h₂).1
  · unfold separates at h₂
    rw [Option.mem_def.mp hw] at h₂
    obtain ⟨⟨o, c₃'⟩, h₃, h₂⟩ := Option.bind_eq_some_iff.mp h₂
    cases o with
    | failure f => cases h₂
    | success u =>
      cases h₂
      exact Nat.lt_of_le_of_lt (hr.element hS h₁).1 (hseparator hS₂ h₃)

/-- Where each round moves none is found stuck. -/
theorem rounds_loopFree (ht : r.Tidy S) (hr : r.Travels S Advance)
    (hmoves : Walk.Gains S r.element ∨ ∃ w ∈ r.separator, Walk.Gains S w)
    (hstop : LoopFree S r.stopsAt) (helement : LoopFree S r.element)
    (hseparates : LoopFree S r.separates) {start : Nat} :
    ∀ {fuel rewind values}, LoopFree S (r.rounds start fuel rewind values)
  | 0, _, _, _, _, _, _, h => by cases h
  | fuel + 1, rewind, values, c, o, c', hS, h => by
    refine ⟨Context.skip_of_setting (rounds_kept ht hS h).1 hS, fun e he hloop => ?_⟩
    -- a defect behind the element, or behind the separator, was there before the round
    have hback₁ : ∀ {b c₁}, r.stopsAt c = some (b, c₁) → e ∈ c₁.fatal → e ∈ c.fatal :=
      fun h₁ he => (hstop hS h₁).2 e he hloop
    have hback₂ : ∀ {c₁ o₂ c₂}, r.stopsAt c = some (false, c₁) →
        r.element c₁ = some (o₂, c₂) → e ∈ c₂.fatal → e ∈ c.fatal := fun h₁ h₂ he =>
      hback₁ h₁ ((helement (hstop hS h₁).1 h₂).2 e he hloop)
    have hback₃ : ∀ {c₁ o₂ c₂ b c₃}, r.stopsAt c = some (false, c₁) →
        r.element c₁ = some (o₂, c₂) → r.separates c₂ = some (b, c₃) → e ∈ c₃.fatal →
        e ∈ c.fatal := fun h₁ h₂ h₃ he =>
      hback₂ h₁ h₂ ((hseparates (helement (hstop hS h₁).1 h₂).1 h₃).2 e he hloop)
    rcases rounds_cases h with hl | ⟨v, c₁, c₂, c₃, hgo, h⟩
    · cases hl with
      | exhausted _ _ => simpa using he
      | stopped h₁ _ => exact hback₁ h₁ (by simpa using he)
      | stoppedShort h₁ _ => exact hback₁ h₁ (by simpa [Context.record] using he)
      | missed h₁ h₂ _ => exact hback₂ h₁ h₂ (by simpa using he)
      | missedShort h₁ h₂ _ => exact hback₂ h₁ h₂ (by simpa using he)
      | last h₁ h₂ h₃ => exact hback₃ h₁ h₂ h₃ (by simpa using he)
      | stuck h₁ h₂ h₃ hc =>
        have hlt := round_moves ht hr hmoves (hstop hS h₁).1 h₂ h₃
        omega
    · obtain ⟨_, _, hs₃⟩ := hgo.setting ht hS
      have hrest := (rounds_loopFree ht hr hmoves hstop helement hseparates
        (Context.skip_of_setting hs₃ hS) h).2 e he hloop
      exact hback₃ hgo.stopsAt hgo.element hgo.separates hrest

end Walk.Repetition

/-! ## Grammars -/

namespace Grammar

variable {rules : RuleTable} {N : RuleRef → Prop}

/-- A repetition that moves finds no infinite loop, if its parts do not. -/
theorem repeated_loopFree {S : LinkedGrammar → Prop}
    {tell : LinkedGrammar → Told LinkedGrammar (Outcome Value)} {g : LinkedGrammar}
    {least fuel : Nat} {separator stop : Option LinkedGrammar}
    (hparts : ∀ part ∈ (Grammar.repeated g least separator stop).parts,
      Walk.Tidy S (tell part).forget ∧ Walk.Travels S Advance (tell part).forget ∧
        LoopFree S (tell part).forget)
    (hmoves : Walk.Gains S (tell g).forget ∨ ∃ s ∈ separator, Walk.Gains S (tell s).forget) :
    LoopFree S
      (Told.repetition ⟨tell g, least, separator.map tell, stop.map tell⟩ fuel).forget := by
  have hg := hparts g (by simp [parts])
  have hseparator : ∀ s ∈ separator, _ := fun s hs =>
    hparts s (by simp [parts, Option.mem_def.mp hs])
  have hstop : ∀ s ∈ stop, _ := fun s hs => hparts s (by simp [parts, Option.mem_def.mp hs])
  set r : Told.Repetition LinkedGrammar Value Value Value :=
    ⟨tell g, least, separator.map tell, stop.map tell⟩
  have hrstop : r.stop = stop.map tell := rfl
  have hrseparator : r.separator = separator.map tell := rfl
  have hstops : LoopFree S r.stopsAt.forget :=
    Told.loopFree_resemblance.stopsAt hrstop hrstop fun s hs => (hstop s hs).2.2
  have hseparates : LoopFree S r.separates.forget :=
    Told.loopFree_resemblance.separates hrseparator hrseparator fun s hs => (hseparator s hs).2.2
  rw [Told.Repetition.forget_stopsAt] at hstops
  rw [Told.Repetition.forget_separates] at hseparates
  have hr : r.forget = ⟨(tell g).forget, least, separator.map fun s => (tell s).forget,
      stop.map fun s => (tell s).forget⟩ := Told.Repetition.forget_mk tell g least separator stop
  have htidy : r.forget.Tidy S := by
    rw [hr]
    exact repeated_tidy fun part hm => (hparts part hm).1
  have htravels : r.forget.Travels S Advance := by
    rw [hr]
    exact repeated_travels fun part hm => (hparts part (mem_parts_of_mem_openParts hm)).2.1
  have hgains : Walk.Gains S r.forget.element ∨ ∃ w ∈ r.forget.separator, Walk.Gains S w := by
    rw [hr]
    rcases hmoves with h | ⟨s, hs, h⟩
    · exact .inl h
    · exact .inr ⟨_, Option.mem_map_of_mem _ hs, h⟩
  rw [Told.forget_repetition]
  intro c o c' hS h
  exact Walk.Repetition.rounds_loopFree htidy htravels hgains hstops hg.2.2 hseparates hS h

/-- A grammar whose repetitions all move finds no infinite loop, if those of the rules and of
the skip rules do. -/
theorem run_loopFree (hrules : ∀ g ∈ rules, g.Sound N)
    (hN : ∀ r g, N r → rules[r.symbol.index]? = some g → g.Consumes N) {fuel : Nat}
    {g : LinkedGrammar} (hg : g.isCareful = true) (hrounds : g.Everywhere (RoundsConsume N)) :
    LoopFree (Sound N) (run rules fuel g) := by
  induction fuel generalizing g with
  | zero => intro c o c' _ h; cases h
  | succ fuel ih =>
    have hforward : ∀ g ∈ rules, g.isForward = true := fun g hm => (hrules g hm).isForward
    have hsound : ∀ {s : LinkedGrammar}, s.Sound N →
        LoopFree (Sound N) (tell rules fuel s).forget := by
      intro s hs
      rw [forget_tell]
      exact ih (isCareful_of_isForward hs.isForward) hs.rounds
    have hparts : ∀ part ∈ g.parts, LoopFree (Sound N) (tell rules fuel part).forget := by
      intro part hm
      rw [forget_tell]
      exact ih (isCareful_part hg hm) (hrounds.part hm)
    have hgains : ∀ {g : LinkedGrammar}, g.isForward = true → g.Consumes N →
        Walk.Gains (Sound N) (tell rules fuel g).forget := by
      intro g hg hc
      rw [forget_tell]
      exact fun _ _ _ hS h => run_gains hforward hN hg hc (fun s hs => (hS s hs).isForward) h
    have hstep : LoopFree (Sound N) (tellStep rules fuel (tell rules fuel) g).forget := by
      refine tellStep_resembles Told.loopFree_resemblance
        (by simpa using all_self (isBuiltIn_of_isCareful hg)) (fun g hm => hsound (hrules g hm))
        (fun s hs => hsound hs) ?_ hparts ?_
      · rintro skip body rfl
        exact ⟨isForward_part hg (by simp) (by simp) (by simp [parts]),
          hrounds.part (by simp [parts])⟩
      · rintro g' least separator stop rfl
        have hpart : ∀ part ∈ (Grammar.repeated g' least separator stop).parts,
            part.isForward = true := fun part hm => isForward_part hg (by simp) (by simp) hm
        refine repeated_loopFree (fun part hm => ⟨?_, ?_, hparts part hm⟩) ?_
        · rw [forget_tell]
          exact (run_tidy (fun g hm => isBuiltIn_of_isForward (hforward g hm))
            (isBuiltIn_of_isForward (hpart part hm))).mono
              fun _ hs => isBuiltIn_of_isForward hs.isForward
        · rw [forget_tell]
          exact fun _ _ _ hS h => run_travels travel_advance hforward (hpart part hm)
            (fun s hs => (hS s hs).isForward) h
        · rcases hrounds.self with hc | ⟨s, hs, hc⟩
          · exact .inl (hgains (hpart g' (by simp [parts])) hc)
          · exact .inr ⟨s, hs, hgains (hpart s (by simp [parts, Option.mem_def.mp hs])) hc⟩
    rw [← forget_tell]
    exact hstep

end Grammar

namespace Parser

variable {d : Definition} {p : Parser}

/-- **Sound grammars never get stuck.** Let each of the rules `N` take a chunk whenever it
matches, as it is written and if the others do, and let a part of each round of every
repetition take one. Then whatever is written so moves forward wherever it matches, and no
parse reports an infinite loop. -/
theorem sound_never_stuck (hp : ComesFrom d p) (N : String → Prop)
    (hN : ∀ name, N name → ∃ g, (name, g) ∈ d.rules ∧ g.Consumes N)
    (hrules : ∀ x ∈ d.rules, x.2.Sound N) (hskip : ∀ s ∈ d.skip, s.Sound N) :
    (∀ (fuel : Nat) (g : Grammar String) (c c' : Context LinkedGrammar) (v : Value),
      g.isForward = true → g.Consumes N → (∀ s ∈ c.skip, s.isForward = true) →
      Grammar.run p.rules fuel (g.link (Definition.refTo d.symbols)) c = some (.success v, c') →
      c.cursor < c'.cursor) ∧
    ∀ (name text : String) (trace : Option Trace) (r : Result),
      (p.parse name text trace).1 = some r →
      ∀ rule offset, r.1 ≠ .error (.defect (.infiniteLoop rule offset)) := by
  have hmade := hp.isMadeOf
  rw [← hp.symbols]
  -- the rules of `N` as the table has them
  let refs : RuleRef → Prop := fun r => ∃ name, N name ∧ r = Definition.refTo p.symbols name
  have hrefs : ∀ name, N name → refs (Definition.refTo p.symbols name) :=
    fun name h => ⟨name, h, rfl⟩
  have hconsumes : ∀ r g, refs r → p.rules[r.symbol.index]? = some g → g.Consumes refs := by
    rintro _ g' ⟨name, hname, rfl⟩ hget
    obtain ⟨g, hm, hg⟩ := hN name hname
    rw [(hmade.rule hm).2, Option.some_inj] at hget
    exact hget ▸ hg.link hrefs
  have hsound : ∀ g ∈ p.rules, g.Sound refs := by
    intro g hg
    rw [hmade.rules, List.mem_toArray, List.mem_map] at hg
    obtain ⟨x, hx, rfl⟩ := hg
    exact (hrules x hx).link hrefs
  refine ⟨?_, ?_⟩
  · intro fuel g c c' v hg hc hS h
    exact Grammar.run_gains (fun g hm => (hsound g hm).isForward) hconsumes
      ((Grammar.isForward_link _ g).trans hg) (hc.link hrefs) hS h
  · rintro name text trace ⟨r, t⟩ h rule offset rfl
    cases hentry : p.entry? name with
    | none =>
      rw [parse_of_unknown hentry] at h
      cases h
    | some entry =>
      rw [parse_eq_tale hentry, ending_tale] at h
      obtain ⟨⟨o, c⟩, hrun, h⟩ := Option.map_eq_some_iff.mp h
      have hc := Context.fatal_of_finish (congrArg Prod.fst h)
      have hS : ∀ s ∈ (p.start (p.tokenizer.tokenize text).1 trace).skip, s.Sound refs := by
        intro s hs
        have hs : p.skip = some s := hs
        rw [hmade.skip] at hs
        obtain ⟨g, hg, rfl⟩ := Option.map_eq_some_iff.mp hs
        exact (hskip g hg).link hrefs
      obtain ⟨symbol, _, rfl⟩ := Option.map_eq_some_iff.mp hentry
      have hrounds : Grammar.Everywhere (Grammar.RoundsConsume refs)
          (.map (Value.pick 0) (.sequence [.rule ⟨symbol, name⟩, .consume .eof])) := by
        refine .intro trivial (List.forall_mem_singleton.mpr (.intro trivial ?_))
        exact List.forall_mem_cons.mpr
          ⟨.leaf rfl trivial, List.forall_mem_singleton.mpr (.leaf rfl trivial)⟩
      -- no defect is there at the start
      exact nomatch (Grammar.run_loopFree hsound hconsumes rfl hrounds hS hrun).2 _ hc rfl

/-- Lists in which a comma between two items may be missing, and that may be items again: what
moves in each round is the item, which is a word or has a bracket in front. -/
def nestedLists : Definition where
  tokens := []
  rules := [
    ("list", .repeated (.rule "item") 0 (some (.optional (.consume (.literal 0 ",")))) none),
    ("item", .choice [.consume (.literal 1 "x"),
      .sequence [.consume (.literal 2 "("), .rule "list"]])]
  skip := some (.consume (.literal 3 " "))
  recursionLimit := some 3

/-- An item moves, and no list is found stuck. -/
theorem sound_never_stuck_nested :
    ∃ p, nestedLists.build = .ok p ∧
      (∃ v c, Grammar.run p.rules 9
          (Grammar.link (Definition.refTo nestedLists.symbols) (.rule "item"))
          { chunks := ⟨#["x"]⟩ } = some (.success v, c) ∧ 0 < c.cursor) ∧
      ∃ r, (p.parse "list" "x" none).1 = some r ∧
        ∀ rule offset, r.1 ≠ .error (.defect (.infiniteLoop rule offset)) := by
  obtain ⟨p, hp, v, c, hitem, r, hlist⟩ : ∃ p, nestedLists.build = .ok p ∧
      ∃ v c, Grammar.run p.rules 9
          (Grammar.link (Definition.refTo nestedLists.symbols) (.rule "item"))
          { chunks := ⟨#["x"]⟩ } = some (.success v, c) ∧
      ∃ r, (p.parse "list" "x" none).1 = some r :=
    ⟨_, by with_unfolding_all rfl, .text "x", { chunks := ⟨#["x"]⟩, cursor := 1 },
      by with_unfolding_all rfl, (.ok (.list [.text "x"]), none), by with_unfolding_all rfl⟩
  let N : String → Prop := (· = "item")
  have hconsumes : ∀ {i text}, Grammar.Consumes N (.consume (.literal i text)) := .consume rfl
  have htoken : ∀ {i text}, Grammar.Everywhere (Grammar.RoundsConsume N)
      (.consume (.literal i text)) := .leaf rfl trivial
  have hcall : ∀ {name}, Grammar.Everywhere (Grammar.RoundsConsume N) (.rule name) :=
    .leaf rfl trivial
  have hN : ∀ name, N name → ∃ g, (name, g) ∈ nestedLists.rules ∧ g.Consumes N := by
    rintro _ rfl
    refine ⟨_, List.mem_cons_of_mem _ List.mem_cons_self, .choice nofun ?_⟩
    exact List.forall_mem_cons.mpr ⟨hconsumes,
      List.forall_mem_singleton.mpr (.sequence List.mem_cons_self hconsumes)⟩
  have hrules : ∀ x ∈ nestedLists.rules, x.2.Sound N := by
    refine List.forall_mem_cons.mpr ⟨⟨rfl, ?_⟩, List.forall_mem_singleton.mpr ⟨rfl, ?_⟩⟩
    · refine .intro (.inl (.rule rfl)) (List.forall_mem_cons.mpr ⟨hcall, ?_⟩)
      exact List.forall_mem_singleton.mpr (.intro trivial (List.forall_mem_singleton.mpr htoken))
    · refine .intro trivial (List.forall_mem_cons.mpr ⟨htoken, ?_⟩)
      refine List.forall_mem_singleton.mpr (.intro trivial (List.forall_mem_cons.mpr ⟨htoken, ?_⟩))
      exact List.forall_mem_singleton.mpr hcall
  have hskip : ∀ s ∈ nestedLists.skip, s.Sound N := by
    rintro _ ⟨rfl⟩
    exact ⟨rfl, htoken⟩
  obtain ⟨hmoves, hparse⟩ := sound_never_stuck (.built hp) N hN hrules hskip
  refine ⟨p, hp, ⟨v, c, hitem, ?_⟩, r, hlist, hparse "list" "x" none r hlist⟩
  exact hmoves 9 (.rule "item") { chunks := ⟨#["x"]⟩ } c v rfl (.rule rfl) nofun hitem

end Parser

end Chunkwise
