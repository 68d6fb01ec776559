import Chunkwise.Proofs.Account
import Chunkwise.Proofs.Naming
import Chunkwise.Proofs.Standstill

/-! Left recursion is reported. A rule that comes back to itself before it looks at a chunk
opens rules until the limit stops the parse, and there the cursor has not moved and nothing
was tried in between. Each of the open rules then goes on from where it began in a parse that
has stopped, whatever it makes of the failure. So the defect names the rule that is one too
many. -/

namespace Chunkwise

namespace Grammar

/-- A grammar comes to a rule before it looks at a chunk or tries anything else. -/
inductive BeginsWith {ρ : Type} (r : ρ) : Grammar ρ → Prop
  | rule : BeginsWith r (.rule r)
  | map {g : Grammar ρ} (f : Value → Value) : BeginsWith r g → BeginsWith r (.map f g)
  | discard {g : Grammar ρ} : BeginsWith r g → BeginsWith r (.discard g)
  | sequence {g : Grammar ρ} (gs : List (Grammar ρ)) :
      BeginsWith r g → BeginsWith r (.sequence (g :: gs))
  | choice {g : Grammar ρ} (gs : List (Grammar ρ)) :
      BeginsWith r g → BeginsWith r (.choice (g :: gs))
  | optional {g : Grammar ρ} : BeginsWith r g → BeginsWith r (.optional g)
  | peek {g : Grammar ρ} : BeginsWith r g → BeginsWith r (.peek g)
  | notAhead {g : Grammar ρ} : BeginsWith r g → BeginsWith r (.notAhead g)
  | skipIn {g : Grammar ρ} (skip : Grammar ρ) : BeginsWith r g → BeginsWith r (.skipIn skip g)
  | repeated {g : Grammar ρ} (least : Nat) (separator : Option (Grammar ρ)) :
      BeginsWith r g → BeginsWith r (.repeated g least separator none)

theorem BeginsWith.link {ρ ρ' : Type} {r : ρ} {g : Grammar ρ} (f : ρ → ρ') (h : g.BeginsWith r) :
    (g.link f).BeginsWith (f r) := by
  induction h with
  | rule => exact .rule
  | map h _ ih => exact .map h ih
  | discard _ ih => exact .discard ih
  | sequence gs _ ih => exact .sequence _ ih
  | choice gs _ ih => exact .choice _ ih
  | optional _ ih => exact .optional ih
  | peek _ ih => exact .peek ih
  | notAhead _ ih => exact .notAhead ih
  | skipIn skip _ ih => exact .skipIn _ ih
  | repeated least separator _ ih => exact .repeated least _ ih

end Grammar

/-! ## Opening rules -/

/-- The parse goes on in front of a chunk, under the limit `n`, with room for `k` more rules. -/
structure Context.Poised {σ : Type} (n k : Nat) (c : Context σ) : Prop where
  fatal : c.fatal = none
  cursor : c.cursor < c.chunks.size
  recursionLimit : c.recursionLimit = some n
  ruleStack : c.ruleStack.length + k = n

namespace Context.Poised

variable {σ : Type} {n k : Nat} {c : Context σ}

theorem isHalted (h : c.Poised n k) : c.isHalted = false := by
  rw [Context.isHalted, h.fatal]
  rfl

theorem isExhausted (h : c.Poised n k) : c.isExhausted = false :=
  decide_eq_false (Nat.not_le_of_lt h.cursor)

theorem withSkip (h : c.Poised n k) (skip : Option σ) : (c.withSkip skip).Poised n k :=
  ⟨h.fatal, h.cursor, h.recursionLimit, h.ruleStack⟩

theorem pushRule (h : c.Poised n (k + 1)) (name : String) : (c.pushRule name).Poised n k := by
  refine ⟨h.fatal, h.cursor, h.recursionLimit, ?_⟩
  have := h.ruleStack
  simp only [Context.pushRule, List.length_cons]
  omega

theorem exceededLimit?_full (h : c.Poised n 0) : c.exceededLimit? = some n := by
  have hstack := h.ruleStack
  rw [Context.exceededLimit?, h.recursionLimit, Option.filter_some,
    if_pos (decide_eq_true (by omega))]

theorem exceededLimit?_room (h : c.Poised n (k + 1)) : c.exceededLimit? = none := by
  have hstack := h.ruleStack
  exact (Context.exceededLimit?_eq_none_iff h.recursionLimit).mpr (by omega)

end Context.Poised

namespace Walk

variable {σ α : Type} {n k : Nat} {c : Context σ} {d : Defect}

/-- Where there is no room the rule is not opened. -/
theorem inRule_stops_full (hc : c.Poised n 0) (name : String) (w : Walk σ α) :
    Stops (.recursionLimitExceeded name n) c (inRule name w) := by
  refine ⟨c.haltedFailure, c.halt (.recursionLimitExceeded name n), ?_, .refl _⟩
  simp [inRule, Context.enterRule, hc.isHalted, hc.exceededLimit?_full, Context.haltedFailure,
    Context.halt]

/-- Where there is room the rule is opened, and closed again. -/
theorem inRule_stops (hc : c.Poised n (k + 1)) {name : String} {w : Walk σ α}
    (hw : Stops d (c.pushRule name) w) : Stops d c (inRule name w) := by
  obtain ⟨o, c₁, h₁, hu₁⟩ := hw
  have hs : c₁.setting = ((c.halt d).pushRule name).setting := hu₁.setting
  refine ⟨o, c₁.exitRule o.isSuccess, ?_, Context.setting_exitRule hs, ?_, ?_⟩
  · simp [inRule, Context.enterRule, hc.isHalted, hc.exceededLimit?_room, h₁]
  · exact (Context.cursor_exitRule _ _).trans hu₁.cursor
  · exact (Context.fatal_exitRule _ _).trans hu₁.fatal

end Walk

namespace Grammar

variable {rules : RuleTable} {n k : Nat} {d : Defect} {r : RuleRef} {g : LinkedGrammar}
  {c : Context LinkedGrammar}

/-- A grammar stops the parse where the rule that it begins with does. The rest of it is tried
in a parse that has stopped. -/
theorem step_stops {run : LinkedGrammar → Walk LinkedGrammar Value} {fuel : Nat}
    (hb : g.BeginsWith r) (hfuel : g.parts = [] ∨ 0 < fuel)
    (hrule : c.Poised n k → Walk.Stops d c (call rules run r))
    (hparts : ∀ part ∈ g.parts, part.BeginsWith r → ∀ {c : Context LinkedGrammar}, c.Poised n k →
      Walk.Stops d c (run part))
    (hstill : ∀ part ∈ g.parts, Walk.StandsStill (run part)) (hc : c.Poised n k) :
    Walk.Stops d c (step rules fuel run g) := by
  cases hb with
  | rule => exact hrule hc
  | map f h => exact (hparts _ (by simp [parts]) h hc).map f
  | discard h => exact (hparts _ (by simp [parts]) h hc).map _
  | sequence gs h =>
    have hrest : Walk.StandsStill (Walk.inTurn (gs.map run)) :=
      Walk.inTurn_standsStill (List.forall_mem_map.mpr fun g hm => hstill g (by simp [parts, hm]))
    exact (Walk.sequence_stops (Walk.inTurn_stops (hparts _ (by simp [parts]) h hc) hrest)).map _
  | choice gs h =>
    have hrest : ∀ w ∈ gs.map run, Walk.StandsStill w :=
      List.forall_mem_map.mpr fun g hm => hstill g (by simp [parts, hm])
    exact Walk.tryEach_stops (hparts _ (by simp [parts]) h hc) (Walk.tryEach_standsStill hrest) none
  | optional h => exact (Walk.optional_stops (hparts _ (by simp [parts]) h hc)).map _
  | peek h => exact Walk.peek_stops (hparts _ (by simp [parts]) h hc)
  | notAhead h => exact (Walk.notAhead_stops (hparts _ (by simp [parts]) h hc)).map _
  | skipIn skip h => exact Walk.withSkip_stops (hparts _ (by simp [parts]) h (hc.withSkip _))
  | repeated least separator h =>
    have hfuel : 0 < fuel := hfuel.resolve_left (by simp [parts])
    exact (Walk.repetition_stops (repeated_standsStill hstill).separator rfl hfuel hc.isExhausted
      (hparts _ (by simp [parts]) h hc)).map _

/-- It takes the steps of the rule and besides as many as the grammar is deep. -/
theorem run_stops {room : Nat} (hb : g.BeginsWith r) (hg : g.isBuiltIn = true)
    (hrule : ∀ {fuel : Nat} {c : Context LinkedGrammar}, 1 + room ≤ fuel → c.Poised n k →
      Walk.Stops d c (run rules fuel (.rule r))) {fuel : Nat}
    (hfuel : g.extent.depth + room ≤ fuel) (hc : c.Poised n k) :
    Walk.Stops d c (run rules fuel g) := by
  induction fuel generalizing g c with
  | zero =>
    have := depth_pos g
    omega
  | succ fuel ih =>
    have hpos := depth_pos g
    have hcall : c.Poised n k → Walk.Stops d c (run rules (fuel + 1) (.rule r)) :=
      hrule (by omega)
    refine step_stops hb (parts_eq_nil_or_pos (by omega)) hcall
      (fun part hm hpart c hc => ?_) (fun part hm => ?_) hc
    · have hlt := depth_part hm
      exact ih hpart (isBuiltIn_part hg hm) (by omega) hc
    · have hlt := depth_part hm
      exact run_standsStill (isBuiltIn_part hg hm) (by omega)

theorem call_stops {run : LinkedGrammar → Walk LinkedGrammar Value}
    (hget : rules[r.symbol.index]? = some g) (h : Walk.Stops d c (Walk.inRule r.name (run g))) :
    Walk.Stops d c (call rules run r) := by
  obtain ⟨o, c', h, hu⟩ := h
  exact ⟨o, c', by simp [call, hget, h], hu⟩

variable {refs : Nat → RuleRef}

/-- Where each rule begins with the next one, the parse is stopped at the first one for which
there is no room. -/
theorem rule_stops (hrules : ∀ g ∈ rules, g.isBuiltIn = true)
    (hnext : ∀ j, ∃ g, rules[(refs j).symbol.index]? = some g ∧ g.BeginsWith (refs (j + 1)))
    {deep : Nat} (hdeep : ∀ g ∈ rules, g.extent.depth ≤ deep) (j : Nat) {fuel : Nat}
    (hfuel : 1 + k * deep ≤ fuel) (hc : c.Poised n k) :
    Walk.Stops (.recursionLimitExceeded (refs (j + k)).name n) c
      (run rules fuel (.rule (refs j))) := by
  induction k generalizing j fuel c with
  | zero =>
    obtain ⟨fuel, rfl⟩ : ∃ f, fuel = f + 1 := ⟨fuel - 1, by omega⟩
    obtain ⟨g, hget, _⟩ := hnext j
    exact call_stops hget (Walk.inRule_stops_full hc (refs j).name (run rules fuel g))
  | succ k ih =>
    obtain ⟨fuel, rfl⟩ : ∃ f, fuel = f + 1 := ⟨fuel - 1, by omega⟩
    obtain ⟨g, hget, hb⟩ := hnext j
    have hm := Array.mem_of_getElem? hget
    have hless : g.extent.depth + k * deep ≤ fuel := by
      have := hdeep g hm
      rw [Nat.succ_mul] at hfuel
      omega
    have hbody : Walk.Stops (.recursionLimitExceeded (refs (j + 1 + k)).name n)
        (c.pushRule (refs j).name) (run rules fuel g) :=
      run_stops hb (hrules g hm) (ih (j + 1)) hless (hc.pushRule _)
    rw [Nat.add_right_comm] at hbody
    exact call_stops hget (Walk.inRule_stops hc hbody)

/-- With the steps that are computed for it, a grammar that begins with such a rule is stopped
where the limit is exceeded. -/
theorem parse_stops (hrules : ∀ g ∈ rules, g.isBuiltIn = true)
    (hnext : ∀ j, ∃ g, rules[(refs j).symbol.index]? = some g ∧ g.BeginsWith (refs (j + 1)))
    (j : Nat) (hb : g.BeginsWith (refs j)) (hg : g.isBuiltIn = true) (hc : c.Poised n k) :
    Walk.Stops (.recursionLimitExceeded (refs (j + k)).name n) c (parse rules g) := by
  obtain ⟨_, _, hfits⟩ := fitsIn_wholeExtent rules c g
  have hfuel : g.extent.depth + room (wholeExtent rules c g).depth c.setting
      ≤ enoughFuel rules c g := room_le_enoughFuel hc.recursionLimit
  have hroom : k * (wholeExtent rules c g).depth
      ≤ room (wholeExtent rules c g).depth c.setting := by
    have hk : c.setting.recursionLimit.getD 0 - c.setting.ruleStack.length = k := by
      have hstack := hc.ruleStack
      simp only [Context.setting, hc.recursionLimit, Option.getD_some]
      omega
    rw [room, hk, Nat.add_assoc]
    exact Nat.le_add_right _ _
  obtain ⟨o, c', h, hu⟩ :=
    run_stops hb hg (rule_stops hrules hnext (fun g hm => (hfits g hm).depth) j)
    (Nat.le_trans (Nat.add_le_add_left hroom _) hfuel) hc
  exact ⟨o, c', h, hu⟩

end Grammar

/-- The rule `a` begins with the rule `b`. -/
def Definition.BeginsWith (d : Definition) (a b : String) : Prop :=
  ∃ g, (a, g) ∈ d.rules ∧ g.BeginsWith b

namespace Parser

variable {d : Definition} {p : Parser}

theorem ComesFrom.rules_isBuiltIn (hp : ComesFrom d p)
    (hrules : ∀ x ∈ d.rules, x.2.isBuiltIn = true) : ∀ g ∈ p.rules, g.isBuiltIn = true := by
  intro g hg
  rw [hp.isMadeOf.rules, List.mem_toArray, List.mem_map] at hg
  obtain ⟨x, hx, rfl⟩ := hg
  rw [Grammar.isBuiltIn_link]
  exact hrules x hx

theorem start_poised (hp : ComesFrom d p) {n : Nat} (hn : d.recursionLimit = some n)
    (text : String) (trace : Option Trace) :
    (p.start (p.tokenizer.tokenize text).1 trace).Poised n n :=
  ⟨rfl, hp.size_tokenize_pos text, hp.isMadeOf.recursionLimit.trans hn, Nat.zero_add n⟩

/-- **Left recursion is always reported.** Where each rule of a cycle begins with the next
one, a parse that starts at one of them exceeds the limit, whatever the text, the skip rule
and the rest of the rules. The defect names the rule that is as far along the cycle as the
limit says. -/
theorem left_recursion_reported (hp : ComesFrom d p)
    (hrules : ∀ x ∈ d.rules, x.2.isBuiltIn = true) {m : Nat} (names : Nat → String)
    (hcycle : ∀ j < m, d.BeginsWith (names j) (names ((j + 1) % m))) {n : Nat}
    (hn : d.recursionLimit = some n) {i : Nat} (hi : i < m) (text : String)
    (trace : Option Trace) :
    ∃ t, (p.parse (names i) text trace).1
      = some (.error (.defect (.recursionLimitExceeded (names ((i + n) % m)) n)), t) := by
  have hmade := hp.isMadeOf
  let refs : Nat → RuleRef := fun j => Definition.refTo p.symbols (names (j % m))
  have hnext : ∀ j, ∃ g, p.rules[(refs j).symbol.index]? = some g ∧
      g.BeginsWith (refs (j + 1)) := by
    intro j
    obtain ⟨g, hm, hb⟩ := hcycle (j % m) (Nat.mod_lt j (Nat.zero_lt_of_lt hi))
    rw [Nat.mod_add_mod] at hb
    exact ⟨_, (hmade.rule hm).2, hb.link (Definition.refTo p.symbols)⟩
  have hentry : p.entry? (names i)
      = some (.map (Value.pick 0) (.sequence [.rule (refs i), .consume .eof])) := by
    obtain ⟨g, hm, _⟩ := hcycle i hi
    unfold entry?
    rw [(hmade.rule hm).1]
    simp only [refs, Nat.mod_eq_of_lt hi]
    rfl
  have hbegins : (Grammar.map (Value.pick 0) (.sequence [.rule (refs i), .consume .eof])).BeginsWith
      (refs i) := .map _ (.sequence _ .rule)
  obtain ⟨o, c, hparse, hc⟩ := Grammar.parse_stops (hp.rules_isBuiltIn hrules) hnext i hbegins
    (entry?_isBuiltIn hentry) (start_poised hp hn text trace)
  have hfatal : c.fatal = some (.recursionLimitExceeded (names ((i + n) % m)) n) := hc.fatal
  refine ⟨c.trace, ?_⟩
  rw [parse_eq_tale hentry, ending_tale, hparse, Option.map_some, c.finish_of_fatal hfatal]

/-- Two rules that succeed without matching anything, and the empty text. -/
theorem left_recursion_reported_pair :
    ∃ p, Definition.build
        { tokens := []
          rules := [
            ("A", .choice [.optional (.rule "B"), .unit]),
            ("B", .repeated (.sequence [.peek (.rule "A"), .unit]) 0 (some (.rule "A")) none)]
          recursionLimit := some 3 } = .ok p ∧
      ∃ t, (p.parse "A" "" none).1
        = some (.error (.defect (.recursionLimitExceeded "B" 3)), t) := by
  obtain ⟨p, hp⟩ : ∃ p, Definition.build
      { tokens := []
        rules := [
          ("A", .choice [.optional (.rule "B"), .unit]),
          ("B", .repeated (.sequence [.peek (.rule "A"), .unit]) 0 (some (.rule "A")) none)]
        recursionLimit := some 3 } = .ok p := ⟨_, by with_unfolding_all rfl⟩
  refine ⟨p, hp, left_recursion_reported (m := 2) (i := 0) (.built hp) (by decide)
    (fun j => if j = 0 then "A" else "B") ?_ rfl (by decide) "" none⟩
  intro j hj
  obtain rfl | rfl : j = 0 ∨ j = 1 := by omega
  · exact ⟨_, List.mem_cons_self, .choice _ (.optional .rule)⟩
  · exact ⟨_, List.mem_cons_of_mem _ List.mem_cons_self,
      .repeated 0 _ (.sequence _ (.peek .rule))⟩

end Parser

end Chunkwise
