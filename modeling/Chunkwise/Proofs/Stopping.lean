import Chunkwise.Proofs.Account
import Chunkwise.Proofs.Completeness

/-! The first defect stops the parse. Whatever happens after it was found, in an alternative
that is given up, while looking ahead or while skipping, it stays the defect of the parse.
What is still going on then comes to its end, and the parse reports it even if it succeeds. -/

namespace Chunkwise

variable {σ β γ : Type}

/-- The defect that is found in a moment. -/
def Moment.defect? (m : Moment σ) : Option Defect :=
  match m.change with
  | .found d => some d
  | _ => none

/-- The first defect that is found. -/
def firstDefect? (ms : List (Moment σ)) : Option Defect := ms.findSome? Moment.defect?

theorem Moment.Follows.fatal {c : Context σ} {m : Moment σ} (h : m.Follows c) :
    m.context.fatal = c.fatal.or m.defect? := by
  cases h with
  | moved _ hf _ _ => simpa [Moment.defect?] using hf
  | failed f => simp [Moment.defect?, Context.record]
  | forgot deepest => simp [Moment.defect?]
  | found d => simp [Moment.defect?, Context.halt]
  | opened rule _ _ => simp [Moment.defect?, Context.pushRule, Context.note]
  | closed matched => simp [Moment.defect?]

/-- The defect behind some moments is the one in front of them, or else the first one found. -/
theorem Unfolds.fatal {c : Context σ} {ms : List (Moment σ)} (h : Unfolds c ms) :
    (lastContext c ms).fatal = c.fatal.or (firstDefect? ms) := by
  induction ms generalizing c with
  | nil => simp [lastContext, firstDefect?]
  | cons m ms ih =>
    have hfirst : firstDefect? (m :: ms) = m.defect?.or (firstDefect? ms) := by
      unfold firstDefect?
      rw [List.findSome?_cons]
      cases m.defect? <;> rfl
    rw [lastContext, ih h.2, h.1.fatal, Option.or_assoc, hfirst]

/-- A defect stays from moment to moment. -/
theorem Unfolds.pairwise_fatal {c : Context σ} {ms : List (Moment σ)} (h : Unfolds c ms) :
    (c :: ms.map (·.context)).Pairwise fun d d' => ∀ e, d.fatal = some e → d'.fatal = some e := by
  induction ms generalizing c with
  | nil => simp
  | cons m ms ih =>
    have hrest := ih h.2
    refine List.pairwise_cons.mpr ⟨?_, hrest⟩
    -- the next moment has the defect, and those behind it have it from there
    intro d hd e he
    have hnext : m.context.fatal = some e := by rw [h.1.fatal, he, Option.some_or]
    rcases List.mem_cons.mp hd with rfl | hd
    · exact hnext
    · exact (List.pairwise_cons.mp hrest).1 d hd e hnext

/-- Where a first defect is found, there is a moment with it. -/
theorem Unfolds.exists_fatal {c : Context σ} {ms : List (Moment σ)} (h : Unfolds c ms)
    (hc : c.fatal = none) {e : Defect} (he : firstDefect? ms = some e) :
    ∃ m ∈ ms, m.context.fatal = some e := by
  induction ms generalizing c with
  | nil => cases he
  | cons m ms ih =>
    have hm := h.1.fatal
    rw [hc, Option.none_or] at hm
    rw [firstDefect?, List.findSome?_cons] at he
    cases hd : m.defect? with
    | some d =>
      rw [hd] at he hm
      exact ⟨m, by simp, hm.trans he⟩
    | none =>
      rw [hd] at he hm
      obtain ⟨m', hm', he'⟩ := ih h.2 hm he
      exact ⟨m', by simp [hm'], he'⟩

/-- Where no defect is found, no moment has one. -/
theorem Unfolds.fatal_eq_none {c : Context σ} {ms : List (Moment σ)} (h : Unfolds c ms)
    (hc : c.fatal = none) (hms : firstDefect? ms = none) : ∀ m ∈ ms, m.context.fatal = none := by
  induction ms generalizing c with
  | nil => simp
  | cons m ms ih =>
    have hall : ∀ m' ∈ m :: ms, m'.defect? = none := List.findSome?_eq_none_iff.mp hms
    have hm : m.context.fatal = none := by
      rw [h.1.fatal, hc, Option.none_or]
      exact hall m (by simp)
    have hrest : firstDefect? ms = none :=
      List.findSome?_eq_none_iff.mpr fun m' hm' => hall m' (by simp [hm'])
    exact List.forall_mem_cons.mpr ⟨hm, ih h.2 hm hrest⟩

/-- A parse that has stopped opens no rule. -/
theorem Unfolds.not_opened {c : Context σ} {ms : List (Moment σ)} (h : Unfolds c ms)
    (hh : c.isHalted = true) : ∀ m ∈ ms, ∀ rule, m.change ≠ .opened rule := by
  induction ms generalizing c with
  | nil => simp
  | cons m ms ih =>
    have hnext : m.context.isHalted = true := by
      unfold Context.isHalted at hh ⊢
      rw [h.1.fatal, Option.isSome_or, hh, Bool.true_or]
    refine List.forall_mem_cons.mpr ⟨?_, ih h.2 hnext⟩
    obtain ⟨hm, _⟩ := h
    cases hm with
    | opened rule hf _ => exact absurd (hh.symm.trans hf) (by simp)
    | moved | failed | forgot | found | closed => exact nofun

/-! ## Coming to an end -/

namespace Told

variable {S : σ → Prop} {n : Nat}

/-- A parse of at most `n` chunks whose skip rule is of `S`. -/
structure Modest (S : σ → Prop) (n : Nat) (c : Context σ) : Prop where
  size : c.chunks.size ≤ n
  skip : ∀ s ∈ c.skip, S s

/-- Where a parse of at most `n` chunks has stopped, the walk ends with the defect. -/
structure Ends (S : σ → Prop) (n : Nat) (y : Told σ β) : Prop where
  ends : ∀ ⦃c : Context σ⦄, Modest S n c → ∀ ⦃e⦄, c.fatal = some e →
    ∃ b d, (y c).ending = some (b, d) ∧ d.fatal = some e
  modest : ∀ ⦃c : Context σ⦄, Modest S n c → ∀ ⦃b d⦄, (y c).ending = some (b, d) → Modest S n d

/-- The second walk goes on where the first one is out of steps. It ends like the first one,
and once a defect was found it ends anyway, with the defect. -/
structure Settles (S : σ → Prop) (n : Nat) (x y : Told σ β) : Prop extends Ends S n y where
  same : ∀ ⦃c : Context σ⦄, Modest S n c → ∀ ⦃b d⦄, (x c).ending = some (b, d) →
    (y c).ending = some (b, d)
  settles : ∀ ⦃c : Context σ⦄, Modest S n c → ∀ ⦃m⦄, m ∈ (x c).moments → ∀ ⦃e⦄,
    m.context.fatal = some e → ∃ b d, (y c).ending = some (b, d) ∧ d.fatal = some e

theorem Ends.bind {y : Told σ β} {g : β → Told σ γ} (hy : Ends S n y) (hg : ∀ b, Ends S n (g b)) :
    Ends S n (y >>= g) := by
  constructor
  · intro c hc e he
    obtain ⟨b, d, h, hd⟩ := hy.ends hc he
    obtain ⟨b', d', h', hd'⟩ := (hg b).ends (hy.modest hc h) hd
    refine ⟨b', d', ?_, hd'⟩
    exact (forget_bind y g c).trans (Option.bind_eq_some_iff.mpr ⟨(b, d), h, h'⟩)
  · intro c hc b d h
    have h : forget (y >>= g) c = some (b, d) := h
    rw [forget_bind] at h
    obtain ⟨⟨b₁, d₁⟩, h₁, h⟩ := Option.bind_eq_some_iff.mp h
    exact (hg b₁).modest (hy.modest hc h₁) h

theorem Settles.bind {x y : Told σ β} {f g : β → Told σ γ} (hx : Settles S n x y)
    (hf : ∀ b, Settles S n (f b) (g b)) : Settles S n (x >>= f) (y >>= g) := by
  have hends : Ends S n (y >>= g) := hx.toEnds.bind fun b => (hf b).toEnds
  refine ⟨hends, ?_, ?_⟩
  · intro c hc b d h
    have h : forget (x >>= f) c = some (b, d) := h
    rw [forget_bind] at h
    obtain ⟨⟨b₁, d₁⟩, h₁, h⟩ := Option.bind_eq_some_iff.mp h
    have h₁' := hx.same hc h₁
    exact (forget_bind y g c).trans
      (Option.bind_eq_some_iff.mpr ⟨(b₁, d₁), h₁', (hf b₁).same (hx.modest hc h₁') h⟩)
  · intro c hc m hm e he
    -- a defect of the first walk is there when the second one goes on
    have hfirst : m ∈ (x c).moments → ∃ b d, ((y >>= g) c).ending = some (b, d) ∧
        d.fatal = some e := by
      intro hm
      obtain ⟨b, d, h, hd⟩ := hx.settles hc hm he
      obtain ⟨b', d', h', hd'⟩ := (hf b).ends (hx.modest hc h) hd
      exact ⟨b', d', (forget_bind y g c).trans (Option.bind_eq_some_iff.mpr ⟨(b, d), h, h'⟩), hd'⟩
    cases h : (x c).ending with
    | none =>
      rw [bind_of_none h] at hm
      exact hfirst hm
    | some z =>
      obtain ⟨b, d⟩ := z
      rw [bind_of_some h] at hm
      rcases List.mem_append.mp hm with hm | hm
      · exact hfirst hm
      · have h' := hx.same hc h
        obtain ⟨b', d', hg, hd'⟩ := (hf b).settles (hx.modest hc h') hm he
        exact ⟨b', d', (forget_bind y g c).trans (Option.bind_eq_some_iff.mpr ⟨(b, d), h', hg⟩),
          hd'⟩

/-- A single change. -/
theorem settles_become {change : Change} {f : Context σ → Context σ}
    (hfatal : ∀ {c e}, c.fatal = some e → (f c).fatal = some e)
    (hmodest : ∀ {c}, Modest S n c → Modest S n (f c)) :
    Settles S n (become change f) (become change f) := by
  refine ⟨⟨fun c _ e he => ⟨(), _, rfl, hfatal he⟩, ?_⟩, fun c _ b d h => h, ?_⟩
  · intro c hc b d h
    cases h
    exact hmodest hc
  · intro c hc m hm e he
    cases List.mem_singleton.mp hm
    exact ⟨(), _, rfl, he⟩

theorem settles_enterRule (name : String) :
    Settles S n (enterRule name : Told σ Bool) (enterRule name) := by
  have hmodest : ∀ ⦃c : Context σ⦄, Modest S n c → ∀ ⦃b d⦄,
      (enterRule name c).ending = some (b, d) → Modest S n d := by
    intro c hc b d h
    unfold enterRule at h
    split at h
    · cases h; exact hc
    · split at h
      · cases h; exact ⟨hc.size, hc.skip⟩
      · cases h; exact ⟨hc.size, hc.skip⟩
  refine ⟨⟨?_, hmodest⟩, fun c _ b d h => h, ?_⟩
  · intro c _ e he
    have hh : c.isHalted = true := by simp [Context.isHalted, he]
    exact ⟨false, c, by simp [enterRule, hh], he⟩
  · intro c _ m hm e he
    unfold enterRule at hm ⊢
    split at hm
    · cases hm
    · rename_i hh
      rw [if_neg hh]
      split at hm
      · cases List.mem_singleton.mp hm
        exact ⟨_, _, rfl, he⟩
      · cases List.mem_singleton.mp hm
        exact ⟨_, _, rfl, he⟩

theorem Settles.aside {x y : Told σ β} (hx : Settles S n x y) :
    Settles S n (aside x) (aside y) := by
  have hends : ∀ {c b d}, (y c).ending = some (b, d) →
      (Told.aside y c).ending = some (b, { d with deepest := c.deepest }) :=
    fun h => ending_aside_eq_some.mpr ⟨_, h, rfl⟩
  refine ⟨⟨?_, ?_⟩, ?_, ?_⟩
  · intro c hc e he
    obtain ⟨b, d, h, hd⟩ := hx.ends hc he
    exact ⟨b, _, hends h, hd⟩
  · intro c hc b d h
    obtain ⟨d₁, h₁, rfl⟩ := ending_aside_eq_some.mp h
    have hd := hx.modest hc h₁
    exact ⟨hd.size, hd.skip⟩
  · intro c hc b d h
    obtain ⟨d₁, h₁, rfl⟩ := ending_aside_eq_some.mp h
    exact hends (hx.same hc h₁)
  · intro c hc m hm e he
    have hfirst : ∀ {m'}, m' ∈ (x c).moments → m'.context.fatal = some e →
        ∃ b d, (Told.aside y c).ending = some (b, d) ∧ d.fatal = some e := by
      intro m' hm' he'
      obtain ⟨b, d, h, hd⟩ := hx.settles hc hm' he'
      exact ⟨b, _, hends h, hd⟩
    unfold Told.aside at hm
    cases h : (x c).ending with
    | none =>
      rw [h] at hm
      obtain ⟨m', hm', rfl⟩ := List.mem_map.mp hm
      exact hfirst hm' he
    | some z =>
      obtain ⟨b, d⟩ := z
      rw [h] at hm
      rcases List.mem_append.mp hm with hm | hm
      · obtain ⟨m', hm', rfl⟩ := List.mem_map.mp hm
        exact hfirst hm' he
      · cases List.mem_singleton.mp hm
        exact ⟨b, _, hends (hx.same hc h), he⟩

/-- All ways to make a telling walk come to an end once a defect was found. -/
theorem settles_likeness : Likeness S (fun _ y => Ends S n y) fun _ x y => Settles S n x y where
  pure b := by
    refine ⟨⟨fun c _ e he => ⟨b, c, rfl, he⟩, ?_⟩, fun c _ b d h => h, fun c _ m hm => by cases hm⟩
    intro c hc b d h
    cases h
    exact hc
  bind hx hf := hx.bind hf
  never hy := by
    refine ⟨hy, ?_, ?_⟩
    · intro c _ b d h
      cases h
    · intro c _ m hm
      cases hm
  look := by
    intro β f g hf
    have hlook : ∀ {c : Context σ}, Modest S n c → Settles S n (f c.view) (g c.view) :=
      fun hc => hf _ hc.skip
    exact ⟨⟨fun c hc => (hlook hc).ends hc, fun c hc => (hlook hc).modest hc⟩,
      fun c hc => (hlook hc).same hc, fun c hc => (hlook hc).settles hc⟩
  moveTo i := settles_become (fun h => h) fun hc => ⟨hc.size, hc.skip⟩
  note f := settles_become (fun h => h) fun hc => ⟨hc.size, hc.skip⟩
  setSkip hskip := settles_become (fun h => h) fun hc => ⟨hc.size, hskip⟩
  setSkipping b := settles_become (fun h => h) fun hc => ⟨hc.size, hc.skip⟩
  record f := settles_become (fun h => h) fun hc => ⟨hc.size, hc.skip⟩
  findUnresolved name :=
    settles_become (fun h => Context.fatal_halt h _) fun hc => ⟨hc.size, hc.skip⟩
  findStuck round := by
    refine ⟨⟨fun c _ e he => ⟨(), _, rfl, Context.fatal_halt he _⟩, ?_⟩, fun c _ b d h => h, ?_⟩
    · intro c hc b d h
      cases h
      exact ⟨hc.size, hc.skip⟩
    · intro c _ m hm e he
      cases List.mem_singleton.mp hm
      exact ⟨(), _, rfl, he⟩
  enterRule name := settles_enterRule name
  exitRule matched := by
    refine settles_become (fun h => by simpa using h) fun {c} hc => ?_
    unfold Context.exitRule
    split
    · exact hc
    · exact ⟨hc.size, hc.skip⟩
  aside hx := hx.aside

theorem Modest.of_setting {c d : Context σ} (hc : Modest S n c) (h : d.setting = c.setting) :
    Modest S n d :=
  ⟨by rw [Context.chunks_eq h]; exact hc.size, Context.skip_of_setting h hc.skip⟩

/-- A telling walk ends if the walk without its moments does and keeps the setting. -/
theorem ends_of_forget {y : Told σ β}
    (hends : ∀ {c : Context σ}, Modest S n c → c.isHalted = true →
      ∃ b d, forget y c = some (b, d) ∧ d.fatal = c.fatal)
    (hkept : ∀ {c : Context σ}, Modest S n c → ∀ {b d}, forget y c = some (b, d) →
      d.setting = c.setting) : Ends S n y := by
  constructor
  · intro c hc e he
    obtain ⟨b, d, h, hd⟩ := hends hc (by simp [Context.isHalted, he])
    exact ⟨b, d, h, hd.trans he⟩
  · intro c hc b d h
    exact hc.of_setting (hkept hc h)

end Told

namespace Grammar

variable {rules : RuleTable} {n more : Nat}

/-- A grammar that is made of what is built in and nests no deeper than `more`. -/
structure Shallow (more : Nat) (g : LinkedGrammar) : Prop where
  isBuiltIn : g.isBuiltIn = true
  depth : g.extent.depth ≤ more

theorem Shallow.part {g part : LinkedGrammar} (h : Shallow more g) (hm : part ∈ g.parts) :
    Shallow more part := by
  have := depth_part hm
  have := h.depth
  exact ⟨isBuiltIn_part h.isBuiltIn hm, by omega⟩

section

variable (hrules : ∀ g ∈ rules, Shallow more g)

include hrules

theorem run_tidy_of_shallow {fuel : Nat} {g : LinkedGrammar} (hg : Shallow more g) :
    Walk.Tidy (Shallow more) (run rules fuel g) :=
  (run_tidy (fun g hm => (hrules g hm).isBuiltIn) hg.isBuiltIn).mono fun _ hs => hs.isBuiltIn

theorem tell_ends {fuel : Nat} {g : LinkedGrammar} (hg : Shallow more g) :
    Told.Ends (Shallow more) n (tell rules (more + fuel) g) := by
  refine Told.ends_of_forget ?_ ?_
  · intro c hc hh
    rw [forget_tell]
    have hstill : Walk.StandsStill (run rules (more + fuel) g) :=
      run_standsStill hg.isBuiltIn (Nat.le_add_right_of_le hg.depth)
    obtain ⟨o, c', h, hu⟩ := hstill hh
    exact ⟨o, c', h, hu.fatal⟩
  · intro c hc o c' h
    rw [forget_tell] at h
    exact (run_tidy_of_shallow hrules hg hc.skip h).setting

/-- Once a defect was found, a loop that has `more` rounds to go comes to its end. -/
theorem loops_end (hmore : n < more) {g : LinkedGrammar} (hg : Shallow more g) (fuel : Nat) :
    LoopsGoOn (fun _ y => Told.Ends (Shallow more) n y) (tell rules (more + fuel)) more g := by
  have hstill : ∀ {g : LinkedGrammar}, Shallow more g →
      Walk.StandsStill (run rules (more + fuel) g) :=
    fun hg => run_standsStill hg.isBuiltIn (Nat.le_add_right_of_le hg.depth)
  have htidy : ∀ {g : LinkedGrammar}, Shallow more g →
      Walk.Tidy (Shallow more) (run rules (more + fuel) g) :=
    fun hg => run_tidy_of_shallow hrules hg
  refine ⟨?_, ?_, ?_⟩
  · intro token start
    refine Told.ends_of_forget ?_ ?_
    · intro c hc hh
      simp only [Told.forget_consumeFrom, Told.forget_trySkip, forget_tell]
      exact Walk.consumeFrom_of_isHalted token start (Nat.zero_lt_of_lt hmore)
        (Walk.trySkip_standsStill (fun s hs => hstill (hc.skip s hs)) hh)
    · intro c hc o c' h
      simp only [Told.forget_consumeFrom, Told.forget_trySkip, forget_tell] at h
      exact (Walk.consumeFrom_kept (Walk.trySkip_skipped fun s hs => htidy hs) hc.skip h).1
  · rintro g' rfl start gathered
    have hg' := hg.part (show g' ∈ _ by simp [parts])
    refine Told.ends_of_forget ?_ ?_
    · intro c hc hh
      have hsize := hc.size
      simp only [Told.forget_untilMatchFrom, forget_tell]
      exact Walk.untilMatchFrom_of_isHalted (hstill hg') more gathered hh (by omega)
    · intro c hc o c' h
      simp only [Told.forget_untilMatchFrom, forget_tell] at h
      exact (Walk.untilMatchFrom_kept (htidy hg') hc.skip h).1
  · rintro g' least separator stop rfl start rewind values
    have hg' := hg.part (show g' ∈ _ by simp [parts])
    refine Told.ends_of_forget ?_ ?_
    · intro c hc hh
      simp only [Told.Repetition.forget_rounds, Told.Repetition.forget_mk, forget_tell]
      obtain ⟨o, c', h, _, hf, _⟩ := Walk.Repetition.rounds_of_isHalted
        (repeated_standsStill fun part hm => hstill (hg.part hm)) start (Nat.zero_lt_of_lt hmore)
        rewind values hh
      exact ⟨o, c', h, hf⟩
    · intro c hc o c' h
      simp only [Told.Repetition.forget_rounds, Told.Repetition.forget_mk, forget_tell] at h
      exact (Walk.Repetition.rounds_kept
        (repeated_tidy fun part hm => htidy (hg.part hm)) hc.skip h).1

end

/-- Once a defect was found, the run comes to its end with some number of steps, and ends with
the defect. -/
theorem exists_run_of_fatal (hrules : ∀ g ∈ rules, g.isBuiltIn = true) {g : LinkedGrammar}
    (hg : g.isBuiltIn = true) {c : Context LinkedGrammar}
    (hskip : ∀ s ∈ c.skip, s.isBuiltIn = true) {fuel : Nat} {m : Moment LinkedGrammar}
    (hm : m ∈ (tell rules fuel g c).moments) {e : Defect} (he : m.context.fatal = some e) :
    ∃ fuel o d, run rules fuel g c = some (o, d) ∧ d.fatal = some e := by
  obtain ⟨hdeep, hskips, htable⟩ := fitsIn_wholeExtent rules c g
  generalize hmore : (wholeExtent rules c g).depth + c.chunks.size + 1 = more
  have hshallow : ∀ g ∈ rules, Shallow more g := fun g hm => by
    have := (htable g hm).depth
    exact ⟨hrules g hm, by omega⟩
  have hsettles : Told.Settles (Shallow more) c.chunks.size (tell rules fuel g)
      (tell rules (more + fuel) g) :=
    tell_alike_more Told.settles_likeness (fun _ hg => hg.isBuiltIn) (fun _ hg _ hm => hg.part hm)
      hshallow (fun g hg => (tell_ends hshallow hg : Told.Ends _ _ (tell rules (more + 0) g)))
      (fun _ hg fuel => loops_end hshallow (by omega) hg fuel) ⟨hg, by have := hdeep.depth; omega⟩
  have hmodest : Told.Modest (Shallow more) c.chunks.size c := by
    refine ⟨Nat.le_refl _, fun s hs => ?_⟩
    have := (hskips s hs).depth
    exact ⟨hskip s hs, by omega⟩
  obtain ⟨o, d, h, hd⟩ := hsettles.settles hmodest hm he
  exact ⟨more + fuel, o, d, (ending_tell ..).symm.trans h, hd⟩

end Grammar

namespace Parser

variable {p : Parser}

theorem start_fatal (p : Parser) (chunks : Chunks) (trace : Option Trace) :
    (p.start chunks trace).fatal = none := rfl

/-- The defect of a parse is the first one found while it runs, with however many steps. -/
theorem parse_defect_iff (hp : p.isBuiltIn = true) {name : String} {entry : LinkedGrammar}
    (hentry : p.entry? name = some entry) (text : String) (trace : Option Trace) (e : Defect) :
    (∃ fuel, firstDefect? (Grammar.tell p.rules fuel entry
        (p.start (p.tokenizer.tokenize text).1 trace)).moments = some e) ↔
      ∃ t, (p.parse name text trace).1 = some (.error (.defect e), t) := by
  have hrules := rules_isBuiltIn hp
  have hbuilt := entry?_isBuiltIn hentry
  have hskip := skip_isBuiltIn hp
  constructor
  · rintro ⟨fuel, he⟩
    obtain ⟨m, hm, hme⟩ :=
      (Grammar.tell_accounts hrules hbuilt hskip).unfolds.exists_fatal rfl he
    obtain ⟨_, o, d, h, hd⟩ := Grammar.exists_run_of_fatal hrules hbuilt hskip hm hme
    exact ⟨d.trace, by rw [parse_eq_of_run hp hentry h, d.finish_of_fatal hd]⟩
  · rintro ⟨t, h⟩
    rw [parse_eq_tale hentry, ending_tale] at h
    obtain ⟨⟨o, d⟩, h₁, h⟩ := Option.map_eq_some_iff.mp h
    have ha := tale_account hp hentry (p.tokenizer.tokenize text).1 trace
    obtain ⟨hlast, _, _⟩ := ha.ends ((ending_tale ..).trans h₁)
    have hfatal := ha.unfolds.fatal
    rw [← hlast, start_fatal, Option.none_or] at hfatal
    exact ⟨_, hfatal.symm.trans (Context.fatal_of_finish (congrArg Prod.fst h))⟩

/-- **A defect is never swallowed and stops the parse.** A defect that was found stays from
moment to moment, so the first one found anywhere is what the parse reports. From then on
whatever is still to be done ends, without opening a rule, whatever the limit, and leaves the
cursor and the defect as they are. So a parse that gives a value has found no defect. -/
theorem first_defect_stops (hp : p.isBuiltIn = true) :
    (∀ (fuel : Nat) (g : LinkedGrammar) (c : Context LinkedGrammar), g.isBuiltIn = true →
      (∀ s ∈ c.skip, s.isBuiltIn = true) →
      (c :: (Grammar.tell p.rules fuel g c).moments.map (·.context)).Pairwise
        (fun d d' => ∀ e, d.fatal = some e → d'.fatal = some e) ∧
      ∀ o c', Grammar.run p.rules fuel g c = some (o, c') →
        c'.fatal = c.fatal.or (firstDefect? (Grammar.tell p.rules fuel g c).moments)) ∧
    (∀ (name : String) (entry : LinkedGrammar) (text : String) (trace : Option Trace) (e : Defect),
      p.entry? name = some entry →
      ((∃ fuel, firstDefect? (Grammar.tell p.rules fuel entry
          (p.start (p.tokenizer.tokenize text).1 trace)).moments = some e) ↔
        ∃ t, (p.parse name text trace).1 = some (.error (.defect e), t))) ∧
    (∀ (fuel : Nat) (g : LinkedGrammar) (c : Context LinkedGrammar), g.isBuiltIn = true →
      (∀ s ∈ c.skip, s.isBuiltIn = true) → g.extent.depth ≤ fuel → c.isHalted = true →
      (∃ o c', Grammar.run p.rules fuel g c = some (o, c') ∧ Unmoved c c') ∧
      ∀ m ∈ (Grammar.tell p.rules fuel g c).moments, ∀ rule, m.change ≠ .opened rule) ∧
    ∀ (name : String) (entry : LinkedGrammar) (text : String) (trace t : Option Trace) (v : Value),
      p.entry? name = some entry → (p.parse name text trace).1 = some (.ok v, t) →
      ∀ fuel, ∀ m ∈ (Grammar.tell p.rules fuel entry
        (p.start (p.tokenizer.tokenize text).1 trace)).moments,
        m.defect? = none ∧ m.context.fatal = none := by
  have hrules := rules_isBuiltIn hp
  refine ⟨?_, ?_, ?_, ?_⟩
  · intro fuel g c hg hskip
    have ha : (Grammar.tell p.rules fuel g c).Account _ c :=
      Grammar.tell_accounts hrules hg hskip
    refine ⟨ha.unfolds.pairwise_fatal, fun o c' h => ?_⟩
    obtain ⟨hlast, _, _⟩ := ha.ends ((Grammar.ending_tell ..).trans h)
    rw [hlast, ha.unfolds.fatal]
  · intro name entry text trace e hentry
    exact parse_defect_iff hp hentry text trace e
  · intro fuel g c hg hskip hfuel hh
    exact ⟨Grammar.run_standsStill hg hfuel hh,
      (Grammar.tell_accounts hrules hg hskip).unfolds.not_opened hh⟩
  · intro name entry text trace t v hentry h fuel m hm
    have hskip : ∀ s ∈ (p.start (p.tokenizer.tokenize text).1 trace).skip, s.isBuiltIn = true :=
      skip_isBuiltIn hp
    have hnone : firstDefect? (Grammar.tell p.rules fuel entry
        (p.start (p.tokenizer.tokenize text).1 trace)).moments = none := by
      by_contra hsome
      obtain ⟨e, he⟩ := Option.ne_none_iff_exists'.mp hsome
      obtain ⟨t', ht'⟩ := (parse_defect_iff hp hentry text trace e).mp ⟨fuel, he⟩
      cases h.symm.trans ht'
    exact ⟨List.findSome?_eq_none_iff.mp hnone m hm,
      (Grammar.tell_accounts hrules (entry?_isBuiltIn hentry) hskip).unfolds.fatal_eq_none rfl
        hnone m hm⟩

/-- The repetition is optional, and what it repeats matches without moving. -/
theorem first_defect_stops_optional :
    ∃ t, (Parser.parse
      { tokenizer := { pattern := "", program := none }
        symbols := ⟨#["A"]⟩
        rules := #[.sequence [.optional (.repeated .unit 0 none none), .consume (.literal 0 "x")]]
        skip := none
        recursionLimit := none } "A" "x" none).1
      = some (.error (.defect (.infiniteLoop (some "A") 0)), t) :=
  ((first_defect_stops (p :=
    { tokenizer := { pattern := "", program := none }
      symbols := ⟨#["A"]⟩
      rules := #[.sequence [.optional (.repeated .unit 0 none none), .consume (.literal 0 "x")]]
      skip := none
      recursionLimit := none }) (by decide)).2.1 "A"
    (.map (Value.pick 0) (.sequence [.rule ⟨⟨0⟩, "A"⟩, .consume .eof])) "x" none _
    (by with_unfolding_all rfl)).mp ⟨9, by decide +kernel⟩

end Parser

end Chunkwise
