import Chunkwise.Proofs.Account
import Chunkwise.Proofs.Completeness

/-! What the recursion limit does to a parse. The same walk under a limit and under a greater
one, or none, goes on in step until the smaller limit stops it, and nothing that happens
after that takes its defect back. So a parse that the limit did not stop is the parse with
more room. No more rules are open than the limit allows. -/

namespace Chunkwise

/-- Whether the recursion limit is to blame. -/
def Defect.isLimit : Defect → Bool
  | .recursionLimitExceeded _ _ => true
  | _ => false

variable {σ β γ : Type}

namespace Context

/-- The context with another recursion limit. -/
def withLimit (c : Context σ) (limit : Option Nat) : Context σ :=
  { c with recursionLimit := limit }

/-- Whether the recursion limit stopped the parse. -/
def overLimit (c : Context σ) : Bool := c.fatal.any Defect.isLimit

/-- Where the smaller limit leaves room, so does the greater one. -/
theorem exceededLimit?_withLimit {c : Context σ} {n : Nat} {limit : Option Nat}
    (hle : ∀ k ∈ limit, n ≤ k) (hc : c.recursionLimit = some n)
    (h : c.exceededLimit? = none) : (c.withLimit limit).exceededLimit? = none := by
  cases hlimit : limit with
  | none => rfl
  | some k =>
    have hroom := (exceededLimit?_eq_none_iff hc).mp h
    exact (exceededLimit?_eq_none_iff rfl).mpr (Nat.lt_of_lt_of_le hroom (hle k hlimit))

end Context

/-! ## Two limits -/

namespace Told

variable {S : σ → Prop} {n : Nat} {limit : Option Nat}

/-- What a walk from `c` to `b` and `d` under the limit `n` says of `r`, where it leads under
the other limit: to the same, unless the limit `n` stopped it. -/
structure Relaxed (S : σ → Prop) (n : Nat) (limit : Option Nat) (c : Context σ) (b : β)
    (d : Context σ) (r : Option (β × Context σ)) : Prop where
  skip : ∀ s ∈ d.skip, S s
  recursionLimit : d.recursionLimit = some n
  fatal : ∀ e ∈ c.fatal, e ∈ d.fatal
  same : d.overLimit = false → r = some (b, d.withLimit limit)

/-- Wherever `x` leads under the limit `n`, there `y` leads under the other limit. -/
def Relaxes (S : σ → Prop) (n : Nat) (limit : Option Nat) (x y : Told σ β) : Prop :=
  ∀ ⦃c b d⦄, (∀ s ∈ c.skip, S s) → c.recursionLimit = some n → forget x c = some (b, d) →
    Relaxed S n limit c b d (forget y (c.withLimit limit))

theorem Relaxed.fatal_of_overLimit {c d : Context σ} {b : β} {r : Option (β × Context σ)}
    (h : Relaxed S n limit c b d r) (hd : d.overLimit = false) : c.overLimit = false := by
  cases hc : c.fatal with
  | none => rw [Context.overLimit, hc, Option.any_none]
  | some e =>
    rw [Context.overLimit, h.fatal e hc] at hd
    rw [Context.overLimit, hc, hd]

theorem Relaxes.bind {x y : Told σ β} {f g : β → Told σ γ} (hx : Relaxes S n limit x y)
    (hf : ∀ b, Relaxes S n limit (f b) (g b)) : Relaxes S n limit (x >>= f) (y >>= g) := by
  intro c b' d' hc hl h
  rw [forget_bind] at h
  obtain ⟨⟨b, d⟩, h₁, h₂⟩ := Option.bind_eq_some_iff.mp h
  have hd := hx hc hl h₁
  have hd' := hf b hd.skip hd.recursionLimit h₂
  refine ⟨hd'.skip, hd'.recursionLimit, fun e he => hd'.fatal e (hd.fatal e he), fun hover => ?_⟩
  rw [forget_bind, hd.same (hd'.fatal_of_overLimit hover)]
  exact hd'.same hover

/-- A change of the context that has nothing to do with the limit. -/
theorem relaxes_become {change : Change} {f : Context σ → Context σ}
    (hskip : ∀ c, (∀ s ∈ c.skip, S s) → ∀ s ∈ (f c).skip, S s)
    (hlimit : ∀ c, (f c).recursionLimit = c.recursionLimit)
    (hfatal : ∀ c, ∀ e ∈ c.fatal, e ∈ (f c).fatal)
    (hf : ∀ c, f (c.withLimit limit) = (f c).withLimit limit) :
    Relaxes S n limit (become change f) (become change f) := by
  intro c b d hc hl h
  cases h
  refine ⟨hskip c hc, (hlimit c).trans hl, hfatal c, fun _ => ?_⟩
  rw [forget_become, hf]

theorem relaxes_enterRule (hle : ∀ k ∈ limit, n ≤ k) (name : String) :
    Relaxes S n limit (enterRule name : Told σ Bool) (enterRule name) := by
  intro c b d hc hl h
  rw [forget_enterRule, Option.some_inj] at h
  rw [forget_enterRule]
  unfold Context.enterRule at h ⊢
  by_cases hh : c.isHalted = true
  · rw [if_pos hh] at h
    cases h
    exact ⟨hc, hl, fun _ he => he, fun _ => congrArg some (if_pos hh)⟩
  rw [if_neg hh] at h
  cases hroom : c.exceededLimit? with
  | some k =>
    rw [hroom] at h
    cases h
    refine ⟨hc, hl, fun e he => Context.fatal_halt he _, fun hover => ?_⟩
    -- nothing stopped the parse before, so now it is the limit
    have hfatal : c.fatal = none := by simpa [Context.isHalted] using hh
    simp [Context.overLimit, Context.halt, hfatal, Defect.isLimit] at hover
  | none =>
    rw [hroom] at h
    cases h
    refine ⟨hc, hl, fun _ he => he, fun _ => congrArg some ?_⟩
    have hh' : ¬(c.withLimit limit).isHalted = true := hh
    rw [if_neg hh', Context.exceededLimit?_withLimit hle hl hroom]
    rfl

theorem Relaxes.aside {x y : Told σ β} (hx : Relaxes S n limit x y) :
    Relaxes S n limit (aside x) (aside y) := by
  intro c b d hc hl h
  obtain ⟨d₁, h₁, rfl⟩ := ending_aside_eq_some.mp h
  have hd := hx hc hl h₁
  refine ⟨hd.skip, hd.recursionLimit, hd.fatal, fun hover => ?_⟩
  exact ending_aside_eq_some.mpr ⟨_, hd.same hover, rfl⟩

/-- That more room makes no difference is kept by all ways to make a telling walk. -/
theorem relaxes_likeness (hle : ∀ k ∈ limit, n ≤ k) :
    Likeness S (fun _ _ => True) fun _ x y => Relaxes (σ := σ) S n limit x y where
  pure b := by
    intro c b' d hc hl h
    cases h
    exact ⟨hc, hl, fun _ he => he, fun _ => rfl⟩
  bind hx hf := hx.bind hf
  never := by
    intro β y _ c b d _ _ h
    cases h
  look := by
    intro β f g hf c b d hc hl h
    exact hf c.view hc hc hl h
  moveTo i := relaxes_become (fun _ hc => hc) (fun _ => rfl) (fun _ _ he => he) fun _ => rfl
  note f := relaxes_become (fun _ hc => hc) (fun _ => rfl) (fun _ _ he => he) fun _ => rfl
  setSkip hskip :=
    relaxes_become (fun _ _ => hskip) (fun _ => rfl) (fun _ _ he => he) fun _ => rfl
  setSkipping b :=
    relaxes_become (fun _ hc => hc) (fun _ => rfl) (fun _ _ he => he) fun _ => rfl
  record f := relaxes_become (fun _ hc => hc) (fun _ => rfl) (fun _ _ he => he) fun _ => rfl
  findUnresolved name :=
    relaxes_become (fun _ hc => hc) (fun _ => rfl) (fun _ _ he => Context.fatal_halt he _)
      fun _ => rfl
  findStuck round := by
    intro c b d hc hl h
    cases h
    exact ⟨hc, hl, fun _ he => Context.fatal_halt he _, fun _ => rfl⟩
  enterRule name := relaxes_enterRule hle name
  exitRule matched := by
    refine relaxes_become (fun c hc => ?_) (fun c => ?_) (fun c e he => ?_) fun c => ?_
    · unfold Context.exitRule
      split <;> exact hc
    · unfold Context.exitRule
      split <;> rfl
    · rwa [Context.fatal_exitRule]
    · unfold Context.exitRule
      cases h : c.ruleStack with
      | nil => simp [Context.withLimit, h]
      | cons name outer => simp [Context.withLimit, Context.note, h]
  aside hx := hx.aside

end Told

/-- A run that the limit did not stop is the run with more room. -/
theorem Grammar.run_withLimit {rules : RuleTable} (hrules : ∀ g ∈ rules, g.isBuiltIn = true)
    {fuel n : Nat} {limit : Option Nat} (hle : ∀ k ∈ limit, n ≤ k) {g : LinkedGrammar}
    (hg : g.isBuiltIn = true) {c d : Context LinkedGrammar} {o : Outcome Value}
    (hskip : ∀ s ∈ c.skip, s.isBuiltIn = true) (hn : c.recursionLimit = some n)
    (h : run rules fuel g c = some (o, d)) (hover : d.overLimit = false) :
    run rules fuel g (c.withLimit limit) = some (o, d.withLimit limit) := by
  have hrelaxes : Told.Relaxes _ n limit (tell rules fuel g) (tell rules fuel g) :=
    tell_alike (Told.relaxes_likeness hle) hrules hg
  rw [← forget_tell] at h ⊢
  exact (hrelaxes hskip hn h).same hover

/-! ## Open rules -/

/-- No more rules are open than the limit `n` allows. -/
structure Context.Bounded (n : Nat) (c : Context σ) : Prop where
  recursionLimit : c.recursionLimit = some n
  length_le : c.ruleStack.length ≤ n

theorem Moment.Follows.bounded {n : Nat} {c : Context σ} {m : Moment σ} (h : m.Follows c)
    (hc : c.Bounded n) : m.context.Bounded n := by
  obtain ⟨hlimit, hle⟩ := hc
  cases h with
  | moved _ _ hstack hl => exact ⟨hl.trans hlimit, hstack ▸ hle⟩
  | failed f => exact ⟨hlimit, hle⟩
  | forgot deepest => exact ⟨hlimit, hle⟩
  | found d => exact ⟨hlimit, hle⟩
  | opened rule hh hroom =>
    exact ⟨hlimit, (Context.exceededLimit?_eq_none_iff hlimit).mp hroom⟩
  | closed matched =>
    unfold Context.exitRule
    cases hstack : c.ruleStack with
    | nil => exact ⟨hlimit, hle⟩
    | cons name outer =>
      rw [hstack, List.length_cons] at hle
      exact ⟨hlimit, Nat.le_of_succ_le hle⟩

theorem Unfolds.bounded {n : Nat} {c : Context σ} {ms : List (Moment σ)} (h : Unfolds c ms)
    (hc : c.Bounded n) : ∀ m ∈ ms, m.context.Bounded n := by
  induction ms generalizing c with
  | nil => exact fun m hm => by cases hm
  | cons m ms ih =>
    have hm := h.1.bounded hc
    exact List.forall_mem_cons.mpr ⟨hm, ih h.2 hm⟩

namespace Parser

variable {p : Parser}

/-- **The limit only ever stops a parse.** What a parse under the limit `n` gives it gives
under every greater limit and without one, unless it gives that the limit was exceeded. While
it runs no more than `n` rules are open. -/
theorem limit_only_stops (hp : p.isBuiltIn = true) {n : Nat} (hn : p.recursionLimit = some n) :
    (∀ (limit : Option Nat), (∀ k ∈ limit, n ≤ k) →
      ∀ (name text : String) (trace t : Option Trace) (r : Except ParseError Value),
        (p.parse name text trace).1 = some (r, t) →
        (∀ rule k, r ≠ .error (.defect (.recursionLimitExceeded rule k))) →
        (({ p with recursionLimit := limit } : Parser).parse name text trace).1 = some (r, t)) ∧
    ∀ (name text : String) (trace : Option Trace) (entry : LinkedGrammar),
      p.entry? name = some entry → ∀ fuel, ∀ m ∈ (Grammar.tell p.rules fuel entry
        (p.start (p.tokenizer.tokenize text).1 trace)).moments, m.context.ruleStack.length ≤ n := by
  have hrules := rules_isBuiltIn hp
  have hskip := skip_isBuiltIn hp
  refine ⟨?_, ?_⟩
  · intro limit hle name text trace t r h hr
    set q : Parser := { p with recursionLimit := limit }
    cases hentry : p.entry? name with
    | none =>
      have hentry' : q.entry? name = none := hentry
      rw [parse_of_unknown hentry] at h
      rw [parse_of_unknown hentry']
      exact h
    | some entry =>
      rw [parse_eq_tale hentry, ending_tale] at h
      obtain ⟨⟨o, d⟩, hrun, hd⟩ := Option.map_eq_some_iff.mp h
      cases hd
      have hover : d.overLimit = false := by
        cases hfatal : d.fatal with
        | none => rw [Context.overLimit, hfatal, Option.any_none]
        | some e =>
          rw [Context.overLimit, hfatal, Option.any_some]
          cases e with
          | recursionLimitExceeded rule k => exact absurd (d.finish_of_fatal hfatal o) (hr rule k)
          | _ => rfl
      have hentry' : q.entry? name = some entry := hentry
      have hrun' := Grammar.run_withLimit hrules hle (entry?_isBuiltIn hentry) hskip hn hrun hover
      -- what is reported does not depend on the limit
      have hparse : (q.parse name text trace).1
          = some ((d.withLimit limit).finish o, (d.withLimit limit).trace) :=
        parse_eq_of_run (p := q) hp hentry' hrun'
      exact hparse
  · intro name text trace entry hentry fuel m hm
    set c := p.start (p.tokenizer.tokenize text).1 trace
    have ha : (Grammar.tell p.rules fuel entry c).Account _ c :=
      Grammar.tell_accounts hrules (entry?_isBuiltIn hentry) hskip
    exact (ha.unfolds.bounded ⟨hn, Nat.zero_le _⟩ m hm).length_le

/-- At the end of the text two rules are open, as many as the smaller limit allows. -/
theorem limit_only_stops_optional :
    (Parser.parse
      { tokenizer := { pattern := "", program := none }
        symbols := ⟨#["A"]⟩
        rules := #[.sequence [.consume (.literal 0 "x"), .optional (.rule ⟨⟨0⟩, "A"⟩)]]
        skip := none
        recursionLimit := none } "A" "x" none).1
      = some (.ok (.list [.text "x", .null]), none) ∧
    ∀ fuel, ∀ m ∈ (Grammar.tell
        #[.sequence [.consume (.literal 0 "x"), .optional (.rule ⟨⟨0⟩, "A"⟩)]] fuel
        (.map (Value.pick 0) (.sequence [.rule ⟨⟨0⟩, "A"⟩, .consume .eof]))
        { chunks := ⟨#["x"]⟩, recursionLimit := some 2 }).moments,
      m.context.ruleStack.length ≤ 2 := by
  obtain ⟨hparse, hopen⟩ := limit_only_stops (p :=
    { tokenizer := { pattern := "", program := none }
      symbols := ⟨#["A"]⟩
      rules := #[.sequence [.consume (.literal 0 "x"), .optional (.rule ⟨⟨0⟩, "A"⟩)]]
      skip := none
      recursionLimit := some 2 }) (by decide) rfl
  have hchunks : (Tokenizer.tokenize { pattern := "", program := none } "x").1 = ⟨#["x"]⟩ := by
    with_unfolding_all rfl
  refine ⟨hparse none (by simp) "A" "x" none none _ (by with_unfolding_all rfl) (by simp), ?_⟩
  have hopen := hopen "A" "x" none
    (.map (Value.pick 0) (.sequence [.rule ⟨⟨0⟩, "A"⟩, .consume .eof])) (by with_unfolding_all rfl)
  rwa [hchunks] at hopen

end Parser

end Chunkwise
