import Chunkwise.Proofs.Account
import Chunkwise.Proofs.Bounded

/-! The steps that a walk is given are enough. With a limit no more rules can be open at once
than it allows. Without one, a rule that is opened again at the same place, with the same skip
rule, before it is closed does the same as before, so it would never be closed; and there are
only so many places and skip rules. So a grammar that has an outcome with any number of steps
has it with the number that `Grammar.parse` computes. -/

namespace Chunkwise.Grammar

variable {ρ : Type}

/-! ## Skip rules of a grammar -/

mutual

/-- The skip rules that occur in a grammar. -/
def skipRules : Grammar ρ → List (Grammar ρ)
  | .consume _ => []
  | .behind _ => []
  | .untilToken _ => []
  | .untilMatch g => skipRules g
  | .unit => []
  | .sequence gs => skipRulesOfList gs
  | .choice gs => skipRulesOfList gs
  | .optional g => skipRules g
  | .peek g => skipRules g
  | .notAhead g => skipRules g
  | .skipIn skip g => skip :: (skipRules skip ++ skipRules g)
  | .repeated g _ separator stop =>
    skipRules g ++ (skipRulesOfOption separator ++ skipRulesOfOption stop)
  | .rule _ => []
  | .map _ g => skipRules g
  | .discard g => skipRules g
  | .native _ => []
  | .andThen g _ => skipRules g

def skipRulesOfList : List (Grammar ρ) → List (Grammar ρ)
  | [] => []
  | g :: gs => skipRules g ++ skipRulesOfList gs

def skipRulesOfOption : Option (Grammar ρ) → List (Grammar ρ)
  | none => []
  | some g => skipRules g

end

mutual

theorem length_skipRules : ∀ g : Grammar ρ, g.skipRules.length = g.extent.skips
  | .consume _ => rfl
  | .behind _ => rfl
  | .untilToken _ => rfl
  | .untilMatch g => length_skipRules g
  | .unit => rfl
  | .sequence gs => length_skipRulesOfList gs
  | .choice gs => length_skipRulesOfList gs
  | .optional g => length_skipRules g
  | .peek g => length_skipRules g
  | .notAhead g => length_skipRules g
  | .skipIn skip g => by
    simp [skipRules, extent, Extent.nest, Extent.join, length_skipRules skip, length_skipRules g]
  | .repeated g least separator stop => by
    simp [skipRules, extent, Extent.nest, Extent.join, length_skipRules g,
      length_skipRulesOfOption separator, length_skipRulesOfOption stop]
  | .rule _ => rfl
  | .map _ g => length_skipRules g
  | .discard g => length_skipRules g
  | .native _ => rfl
  | .andThen g _ => length_skipRules g

theorem length_skipRulesOfList : ∀ gs : List (Grammar ρ),
    (skipRulesOfList gs).length = (extentOfList gs).skips
  | [] => rfl
  | g :: gs => by
    simp [skipRulesOfList, extentOfList, Extent.join, length_skipRules g,
      length_skipRulesOfList gs]

theorem length_skipRulesOfOption : ∀ g : Option (Grammar ρ),
    (skipRulesOfOption g).length = (extentOfOption g).skips
  | none => rfl
  | some g => length_skipRules g

end

theorem mem_skipRulesOfList {gs : List (Grammar ρ)} {s : Grammar ρ} :
    s ∈ skipRulesOfList gs ↔ ∃ g ∈ gs, s ∈ g.skipRules := by
  induction gs with
  | nil => simp [skipRulesOfList]
  | cons g gs ih => simp [skipRulesOfList, ih]

theorem mem_skipRulesOfOption {g : Option (Grammar ρ)} {s : Grammar ρ} :
    s ∈ skipRulesOfOption g ↔ ∃ g' ∈ g, s ∈ g'.skipRules := by
  cases g <;> simp [skipRulesOfOption]

/-- A skip rule of a grammar is put in force by it, or is one of a part. -/
theorem mem_skipRules {g s : Grammar ρ} :
    s ∈ g.skipRules ↔ (∃ body, g = .skipIn s body) ∨ ∃ part ∈ g.parts, s ∈ part.skipRules := by
  cases g <;>
    simp [skipRules, parts, mem_skipRulesOfList, mem_skipRulesOfOption, or_and_right, exists_or,
      eq_comm]

/-- What holds of a grammar and is passed on to its parts holds of its skip rules. -/
theorem of_mem_skipRules {C : Grammar ρ → Prop} (hC : ∀ g, C g → ∀ part ∈ g.parts, C part)
    {g s : Grammar ρ} (hg : C g) (hs : s ∈ g.skipRules) : C s := by
  induction hn : g.extent.depth using Nat.strongRecOn generalizing g with
  | ind n ih =>
    rcases mem_skipRules.mp hs with ⟨body, rfl⟩ | ⟨part, hm, hs⟩
    · exact hC _ hg s (by simp [parts])
    · exact ih _ (hn ▸ depth_part hm) (hC _ hg part hm) hs rfl

/-! ## How many elements are needed -/

theorem least_part {g part : Grammar ρ} (hm : part ∈ g.parts) :
    part.extent.least ≤ g.extent.least := by
  obtain ⟨e, he, hfits⟩ := part_fitsIn hm
  rw [he]
  exact hfits.least

theorem skips_foldl_join (gs : List LinkedGrammar) (e : Extent) :
    (gs.foldl (fun e g => e.join g.extent) e).skips
      = e.skips + (gs.flatMap skipRules).length := by
  induction gs generalizing e with
  | nil => simp
  | cons g gs ih =>
    rw [List.foldl_cons, ih, List.flatMap_cons, List.length_append, length_skipRules,
      ← Nat.add_assoc]
    rfl

/-! ## Where rules are opened -/

/-- The bounds in which walks stay: the rules and chunks, the skip rules that can be in force,
and how deep grammars are and how many elements they need. -/
structure Scope where
  rules : RuleTable
  chunks : Chunks
  skips : List (Option LinkedGrammar)
  deep : Nat
  least : Nat

/-- Where a rule is opened: which one, at which place, and with which skip rule. -/
structure Spot where
  rule : Nat
  cursor : Nat
  skip : Option LinkedGrammar
  skipping : Bool

/-- Where a reference is followed. -/
def Spot.of (r : RuleRef) (c : Context LinkedGrammar) : Spot :=
  ⟨r.symbol.index, c.cursor, c.skip, c.skipping⟩

namespace Scope

variable {S : Scope}

/-- How many rounds a loop can need. -/
def rounds (S : Scope) : Nat := S.least + S.chunks.size + 2

def spots (S : Scope) : List Spot :=
  (List.range S.rules.size).flatMap fun rule =>
    (List.range (S.chunks.size + 1)).flatMap fun cursor =>
      S.skips.flatMap fun skip => [⟨rule, cursor, skip, true⟩, ⟨rule, cursor, skip, false⟩]

theorem length_spots (S : Scope) :
    S.spots.length = S.rules.size * ((S.chunks.size + 1) * (S.skips.length * 2)) := by
  simp [spots, List.length_flatMap]

/-- The grammar stays within the bounds. -/
structure Covers (S : Scope) (g : LinkedGrammar) : Prop where
  isBuiltIn : g.isBuiltIn = true
  depth : g.extent.depth ≤ S.deep
  least : g.extent.least ≤ S.least
  skips : ∀ s ∈ g.skipRules, some s ∈ S.skips

theorem Covers.part {g part : LinkedGrammar} (h : S.Covers g) (hm : part ∈ g.parts) :
    S.Covers part :=
  ⟨isBuiltIn_part h.isBuiltIn hm, Nat.le_trans (Nat.le_of_lt (depth_part hm)) h.depth,
    Nat.le_trans (least_part hm) h.least,
    fun s hs => h.skips s (mem_skipRules.mpr (.inr ⟨part, hm, hs⟩))⟩

/-- All grammars that a walk can come to stay within the bounds. -/
structure Closed (S : Scope) : Prop where
  rules : ∀ g ∈ S.rules, S.Covers g
  skips : ∀ g, some g ∈ S.skips → S.Covers g

/-- A rule that is opened here, without a limit, is not done within `fuel` steps. -/
def Stuck (S : Scope) (fuel : Nat) (spot : Spot) : Prop :=
  ∀ (r : RuleRef) (c : Context LinkedGrammar), Spot.of r c = spot → c.chunks = S.chunks →
    c.recursionLimit = none → c.isHalted = false → run S.rules fuel (.rule r) c = none

/-- A setting within the bounds in which `k` steps are enough besides those for the grammar at
hand: for the rules that can still be opened, for the skip rule unless it is running, and for
the rounds of a loop. Without a limit, the rules that can be opened are counted by the spots
where none is open. -/
structure Fits (S : Scope) (opened : List Spot) (k : Nat) (s : Setting LinkedGrammar) : Prop where
  chunks : s.chunks = S.chunks
  skip : s.skip ∈ S.skips
  room : s.recursionLimit.elim (S.spots.length - opened.length) (· - s.ruleStack.length) * S.deep
    + (if s.skipping then 0 else S.deep) + S.rounds ≤ k

variable {opened : List Spot} {k : Nat} {s : Setting LinkedGrammar}

theorem Fits.rounds_le (h : S.Fits opened k s) : S.rounds ≤ k := by
  have := h.room
  omega

theorem Fits.inSkip (h : S.Fits opened k s) (hk : s.skipping = false) :
    S.Fits opened (k - S.deep) { s with skipping := true } := by
  refine ⟨h.chunks, h.skip, ?_⟩
  have hr := h.room
  simp only [hk, Bool.false_eq_true, if_false, if_true] at hr ⊢
  omega

theorem Fits.withSkip (h : S.Fits opened k s) {skip : LinkedGrammar} (hskip : some skip ∈ S.skips) :
    S.Fits opened k { s with skip := some skip } := ⟨h.chunks, hskip, h.room⟩

/-- Opening a rule takes one from the rules that can be opened. -/
theorem Fits.pushRule {c : Context LinkedGrammar} (h : S.Fits opened k c.setting) {name : String}
    (hl : c.exceededLimit? = none) {opened' : List Spot}
    (hspots : c.recursionLimit = none → opened'.length = opened.length + 1 ∧
      opened'.length ≤ S.spots.length) :
    S.Fits opened' (k - S.deep) (c.pushRule name).setting := by
  refine ⟨h.chunks, h.skip, ?_⟩
  -- one rule less can be opened
  obtain ⟨n, hn, hn'⟩ : ∃ n,
      c.recursionLimit.elim (S.spots.length - opened.length) (· - c.ruleStack.length) = n + 1 ∧
      c.recursionLimit.elim (S.spots.length - opened'.length) (· - (c.ruleStack.length + 1))
        = n := by
    cases hlimit : c.recursionLimit with
    | some limit =>
      have hopen := (Context.exceededLimit?_eq_none_iff hlimit).mp hl
      exact ⟨limit - (c.ruleStack.length + 1), by simp only [Option.elim_some]; omega, rfl⟩
    | none =>
      obtain ⟨hlength, hle⟩ := hspots hlimit
      exact ⟨S.spots.length - opened'.length, by simp only [Option.elim_none]; omega, rfl⟩
  have hr : (n + 1) * S.deep + (if c.skipping then 0 else S.deep) + S.rounds ≤ k := hn ▸ h.room
  have hgoal : n * S.deep + (if c.skipping then 0 else S.deep) + S.rounds ≤ k - S.deep := by
    rw [Nat.add_mul, Nat.one_mul] at hr
    omega
  exact hn' ▸ hgoal

theorem Fits.isBuiltIn (hS : S.Closed) (h : S.Fits opened k s) :
    ∀ g ∈ s.skip, g.isBuiltIn = true := by
  intro g hg
  have hskip := h.skip
  rw [Option.mem_def.mp hg] at hskip
  exact (hS.skips g hskip).isBuiltIn

theorem Closed.isBuiltIn (hS : S.Closed) : ∀ g ∈ S.rules, g.isBuiltIn = true :=
  fun g hm => (hS.rules g hm).isBuiltIn

/-! ## Rules that are opened again -/

theorem Stuck.less {fuel : Nat} {spot : Spot} (h : S.Stuck (fuel + 1) spot) :
    S.Stuck fuel spot := by
  intro r c hspot hchunks hlimit hh
  cases hx : run S.rules fuel (.rule r) c with
  | none => rfl
  | some x =>
    cases (run_le (Nat.le_succ fuel) _ hx).symm.trans (h r c hspot hchunks hlimit hh)

/-- A rule that is opened is its body with the rule open. -/
theorem run_rule_of_open {fuel : Nat} {r : RuleRef} {g : LinkedGrammar}
    {c : Context LinkedGrammar} (hget : S.rules[r.symbol.index]? = some g)
    (hh : c.isHalted = false) (hl : c.exceededLimit? = none) :
    run S.rules (fuel + 1) (.rule r) c
      = (run S.rules fuel g (c.pushRule r.name)).map
          fun x => (x.1, x.2.exitRule x.1.isSuccess) := by
  show call S.rules (run S.rules fuel) r c = _
  simp only [call, hget, Walk.inRule, Context.enterRule, hh, hl, Bool.false_eq_true, if_false]
  cases run S.rules fuel g (c.pushRule r.name) <;> rfl

/-- Where a rule is not done, it is done in no context of that spot. -/
theorem stuck_of_eq_none (hS : S.Closed) {fuel : Nat} {r : RuleRef} {c : Context LinkedGrammar}
    (hskip : ∀ s ∈ c.skip, s.isBuiltIn = true) (hchunks : c.chunks = S.chunks)
    (hlimit : c.recursionLimit = none) (hh : c.isHalted = false)
    (h : run S.rules fuel (.rule r) c = none) : S.Stuck fuel (Spot.of r c) := by
  intro r' c' hspot hchunks' hlimit' hh'
  obtain ⟨hrule, hcursor, hskip', hskipping⟩ := Spot.mk.inj hspot
  have hlike : c'.Like c := by
    refine ⟨?_, hlimit.trans hlimit'.symm, .inl hlimit'⟩
    unfold Context.view
    rw [hchunks, hchunks', hcursor, hskip', hskipping, hh, hh']
  have hopen : ∀ {c : Context LinkedGrammar}, c.recursionLimit = none →
      c.exceededLimit? = none := by
    intro c hl
    unfold Context.exceededLimit?
    rw [hl]
    rfl
  cases fuel with
  | zero => rfl
  | succ fuel =>
    cases hget : S.rules[r.symbol.index]? with
    | none =>
      have hcall : call S.rules (run S.rules fuel) r c = none := h
      simp [call, hget] at hcall
    | some g =>
      rw [run_rule_of_open hget hh (hopen hlimit), Option.map_eq_none_iff] at h
      rw [run_rule_of_open (hrule ▸ hget) hh' (hopen hlimit'), Option.map_eq_none_iff]
      cases hx : run S.rules fuel g (c'.pushRule r'.name) with
      | none => rfl
      | some x =>
        obtain ⟨d', h', _⟩ := run_indifferent hS.isBuiltIn
          (hS.rules g (Array.mem_of_getElem? hget)).isBuiltIn (hlike.pushRule r'.name r.name)
          (show ∀ s ∈ c'.skip, _ by rwa [hskip']) hx
        cases h.symm.trans h'

theorem mem_spots {r : RuleRef} {g : LinkedGrammar} {c : Context LinkedGrammar}
    (hget : S.rules[r.symbol.index]? = some g) (hcursor : c.cursor ≤ S.chunks.size)
    (hskip : c.skip ∈ S.skips) : Spot.of r c ∈ S.spots := by
  have hrule : r.symbol.index < S.rules.size := (Array.getElem?_eq_some_iff.mp hget).1
  refine List.mem_flatMap.mpr ⟨_, List.mem_range.mpr hrule, List.mem_flatMap.mpr
    ⟨_, List.mem_range.mpr (Nat.lt_succ_of_le hcursor), List.mem_flatMap.mpr ⟨_, hskip, ?_⟩⟩⟩
  cases hk : c.skipping <;> simp [Spot.of, hk]

/-- The spots where rules are open and not done within the steps that are left. -/
structure Opened (S : Scope) (fuel : Nat) (opened : List Spot) : Prop where
  nodup : opened.Nodup
  spots : opened ⊆ S.spots
  stuck : ∀ spot ∈ opened, S.Stuck fuel spot

theorem Opened.less {fuel : Nat} (h : S.Opened (fuel + 1) opened) : S.Opened fuel opened :=
  ⟨h.nodup, h.spots, fun spot hm => (h.stuck spot hm).less⟩

/-- Where a rule is opened and needs all steps that there are, it is opened at a new spot, or
under a limit. So one rule less can be opened. -/
theorem Opened.pushRule (hS : S.Closed) {fuel : Nat} (ho : S.Opened (fuel + 1) opened)
    {c : Context LinkedGrammar} (ha : Area (S.Fits opened k) c) {r : RuleRef} {g : LinkedGrammar}
    (hget : S.rules[r.symbol.index]? = some g) (hh : c.isHalted = false)
    (hl : c.exceededLimit? = none) {x} (h : run S.rules (fuel + 1) (.rule r) c = some x)
    (hlow : run S.rules fuel (.rule r) c = none) :
    ∃ opened', S.Opened fuel opened' ∧ S.Fits opened' (k - S.deep) (c.pushRule r.name).setting := by
  cases hlimit : c.recursionLimit with
  | some limit =>
    refine ⟨opened, ho.less, ha.setting.pushRule hl fun hnone => ?_⟩
    cases hlimit.symm.trans hnone
  | none =>
    have hchunks : c.chunks = S.chunks := ha.setting.chunks
    have hstuck := stuck_of_eq_none hS (ha.setting.isBuiltIn hS) hchunks hlimit hh hlow
    have hnew : Spot.of r c ∉ opened := by
      intro hm
      cases h.symm.trans (ho.stuck _ hm r c rfl hchunks hlimit hh)
    have hcons : S.Opened fuel (Spot.of r c :: opened) := by
      refine ⟨List.nodup_cons.mpr ⟨hnew, ho.nodup⟩, ?_, ?_⟩
      · exact List.cons_subset.mpr
          ⟨mem_spots hget (hchunks ▸ ha.inside) ha.setting.skip, ho.spots⟩
      · exact List.forall_mem_cons.mpr ⟨hstuck, ho.less.stuck⟩
    exact ⟨_, hcons, ha.setting.pushRule hl fun _ =>
      ⟨List.length_cons, (hcons.nodup.subperm hcons.spots).length_le⟩⟩

/-! ## Enough steps -/

/-- A rule that is done with some steps is done with enough steps, if its body is. -/
theorem rule_leIn (hS : S.Closed) {fuel n : Nat} {r : RuleRef} (ho : S.Opened (fuel + 1) opened)
    (hless : Walk.LeIn (S.Fits opened k) (run S.rules fuel (.rule r))
      (run S.rules (n + 1) (.rule r)))
    (hbody : ∀ g ∈ S.rules, ∀ opened', S.Opened fuel opened' →
      Walk.LeIn (S.Fits opened' (k - S.deep)) (run S.rules fuel g) (run S.rules n g)) :
    Walk.LeIn (S.Fits opened k) (run S.rules (fuel + 1) (.rule r))
      (run S.rules (n + 1) (.rule r)) := by
  intro c x ha h
  cases hlow : run S.rules fuel (.rule r) c with
  | some y =>
    cases (run_le (Nat.le_succ fuel) _ hlow).symm.trans h
    exact hless ha hlow
  | none =>
    obtain ⟨o, c'⟩ := x
    have hcall : call S.rules (run S.rules fuel) r c = some (o, c') := h
    rcases call_cases hcall with ⟨g, hget, hcall⟩ | ⟨hnone, rfl, rfl⟩
    · rcases Walk.inRule_cases hcall with ⟨hh, rfl, rfl⟩ | ⟨limit, hh, hl, rfl, rfl⟩ |
        ⟨c₁, hh, hl, h₁, rfl⟩
      · show call S.rules (run S.rules n) r _ = _
        simp [call, hget, Walk.inRule, Context.enterRule, hh]
      · show call S.rules (run S.rules n) r _ = _
        simp only [call, hget, Walk.inRule, Context.enterRule, hh, hl, Bool.false_eq_true, if_false]
        rfl
      · obtain ⟨opened', ho', hfits⟩ := ho.pushRule hS ha hget hh hl h hlow
        have ha₁ : Area (S.Fits opened' (k - S.deep)) (c.pushRule r.name) := ⟨hfits, ha.inside⟩
        have h₁' := hbody g (Array.mem_of_getElem? hget) opened' ho' ha₁ h₁
        rw [run_rule_of_open hget hh hl, h₁']
        rfl
    · show call S.rules (run S.rules n) r c = _
      simp [call, hnone]

/-- The rounds that are left for the loops of a grammar. -/
theorem rounds_le_of_area {n : Nat} (hk : k ≤ n) {c : Context LinkedGrammar}
    (ha : Area (S.Fits opened k) c) : S.least + c.chunks.size + 2 ≤ n := by
  have hle := ha.setting.rounds_le
  have hchunks : c.chunks = S.chunks := ha.setting.chunks
  unfold rounds at hle
  rw [hchunks]
  omega

theorem consume_leIn (hS : S.Closed) {fuel n : Nat} (hk : k ≤ n)
    (hskips : ∀ s, some s ∈ S.skips →
      Walk.LeIn (S.Fits opened (k - S.deep)) (run S.rules fuel s) (run S.rules n s)) (t : Token) :
    Walk.LeIn (S.Fits opened k) (Walk.consume (Walk.trySkip (run S.rules fuel)) t fuel)
      (Walk.consume (Walk.trySkip (run S.rules n)) t n) := by
  refine Walk.consume_leIn (fun ha h => ?_) (fun ha h => ⟨?_, ?_⟩) fun ha => ?_
  · refine Walk.trySkip_leIn (fun s hP hf => hP.inSkip hf) (fun s hP skip hm => ?_) ha h
    have hskip := hP.skip
    rw [Option.mem_def.mp hm] at hskip
    exact hskips skip hskip
  · exact Walk.trySkip_skipped (fun s hs => run_tidy hS.isBuiltIn hs) (ha.setting.isBuiltIn hS) h
  · exact Walk.trySkip_travels travel_inward (fun s hs => run_inward hS.isBuiltIn hs)
      (ha.setting.isBuiltIn hS) h
  · have := rounds_le_of_area hk ha
    omega

theorem repeated_leIn (hS : S.Closed) {fuel n : Nat} {g : LinkedGrammar} {least : Nat}
    {separator stop : Option LinkedGrammar} (hg : S.Covers (.repeated g least separator stop))
    (hk : k ≤ n) (hdepth : (Grammar.repeated g least separator stop).extent.depth ≤ n + 1)
    (hparts : ∀ part ∈ (Grammar.repeated g least separator stop).parts,
      Walk.LeIn (S.Fits opened k) (run S.rules fuel part) (run S.rules n part)) :
    Walk.LeIn (S.Fits opened k)
      (Walk.repetition ⟨run S.rules fuel g, least, separator.map (run S.rules fuel),
        stop.map (run S.rules fuel)⟩ fuel)
      (Walk.repetition ⟨run S.rules n g, least, separator.map (run S.rules n),
        stop.map (run S.rules n)⟩ n) := by
  have hbuilt : ∀ part ∈ (Grammar.repeated g least separator stop).parts,
      part.isBuiltIn = true := fun part hm => (hg.part hm).isBuiltIn
  have helement : g ∈ (Grammar.repeated g least separator stop).parts := by simp [parts]
  have hseparator : ∀ s ∈ separator, s ∈ (Grammar.repeated g least separator stop).parts :=
    fun s hs => by simp [parts, Option.mem_def.mp hs]
  have hstop : ∀ s ∈ stop, s ∈ (Grammar.repeated g least separator stop).parts :=
    fun s hs => by simp [parts, Option.mem_def.mp hs]
  have hle := Walk.Repetition.leIn_map (hparts g helement)
    (fun s hs => hparts s (hseparator s hs)) (fun s hs => hparts s (hstop s hs)) least
  have hproper : Walk.Repetition.Proper (·.isBuiltIn = true) ⟨run S.rules fuel g, least,
      separator.map (run S.rules fuel), stop.map (run S.rules fuel)⟩ :=
    ⟨repeated_tidy fun part hm => run_tidy hS.isBuiltIn (hbuilt part hm),
      run_inward hS.isBuiltIn (hbuilt g helement),
      Option.forall_mem_map.mpr fun s hs => run_inward hS.isBuiltIn (hbuilt s (hseparator s hs))⟩
  have hparallel : ∀ part ∈ (Grammar.repeated g least separator stop).parts,
      Walk.Indifferent (·.isBuiltIn = true) (run S.rules fuel part) :=
    fun part hm => run_indifferent hS.isBuiltIn (hbuilt part hm)
  obtain ⟨hwalk, hwalkBetween, hwalkBefore⟩ := repeated_walks hparallel
  have hindifferent : Walk.Repetition.Indifferent (·.isBuiltIn = true) ⟨run S.rules fuel g, least,
      separator.map (run S.rules fuel), stop.map (run S.rules fuel)⟩ :=
    Walk.Repetition.indifferent_of_walks hwalk hwalkBetween hwalkBefore
  have hstill : ∀ part ∈ (Grammar.repeated g least separator stop).parts,
      Walk.StandsStill (run S.rules n part) := by
    intro part hm
    have := depth_part hm
    exact run_standsStill (hbuilt part hm) (by omega)
  intro c x ha h
  refine Walk.Repetition.rounds_leIn (fun _ hP => hP.isBuiltIn hS) hle hproper hindifferent
    (repeated_standsStill hstill) ha .nil ?_ h
  have hrounds := rounds_le_of_area hk ha
  have hleast := hg.least
  simp only [extent, Extent.nest, Extent.join] at hleast
  simp only [List.size_toArray, List.length_nil]
  omega

/-- A grammar that has an outcome with some steps has it with enough steps, if its parts, the
skip rules and the rules have. -/
theorem step_leIn (hS : S.Closed) {fuel n : Nat} {g : LinkedGrammar} (hg : S.Covers g)
    (hk : k ≤ n) (hdepth : g.extent.depth ≤ n + 1)
    (hparts : ∀ part ∈ g.parts,
      Walk.LeIn (S.Fits opened k) (run S.rules fuel part) (run S.rules n part))
    (hskips : ∀ s, some s ∈ S.skips →
      Walk.LeIn (S.Fits opened (k - S.deep)) (run S.rules fuel s) (run S.rules n s))
    (hrule : ∀ r, g = .rule r →
      Walk.LeIn (S.Fits opened k) (run S.rules (fuel + 1) g) (run S.rules (n + 1) g)) :
    Walk.LeIn (S.Fits opened k) (run S.rules (fuel + 1) g) (run S.rules (n + 1) g) := by
  have hPS : ∀ s, S.Fits opened k s → ∀ g ∈ s.skip, g.isBuiltIn = true :=
    fun _ hP => hP.isBuiltIn hS
  have hproper : ∀ part ∈ g.parts, Walk.Proper (·.isBuiltIn = true) (run S.rules fuel part) :=
    fun part hm => run_proper hS.isBuiltIn (hg.part hm).isBuiltIn
  cases g with
  | consume t => exact (consume_leIn hS hk hskips t).map _
  | behind t => exact fun _ _ _ h => h
  | untilToken t => exact fun _ _ _ h => h
  | untilMatch g =>
    refine (Walk.untilMatch_leIn (hparts g (by simp [parts])) (hproper g (by simp [parts])).tidy
      hPS fun ha => ?_).map _
    have := rounds_le_of_area hk ha
    omega
  | unit => exact fun _ _ _ h => h
  | sequence gs => exact (Walk.sequence_leIn hPS hproper hparts).map _
  | choice gs => exact Walk.choice_leIn hPS hproper hparts
  | optional g => exact (Walk.optional_leIn (hparts g (by simp [parts]))).map _
  | peek g => exact Walk.peek_leIn (hparts g (by simp [parts]))
  | notAhead g => exact (Walk.notAhead_leIn (hparts g (by simp [parts]))).map _
  | skipIn skip g =>
    exact Walk.withSkip_leIn (hparts g (by simp [parts]))
      fun s hP => hP.withSkip (hg.skips skip (by simp [skipRules]))
  | repeated g least separator stop => exact (repeated_leIn hS hg hk hdepth hparts).map _
  | rule r => exact hrule r rfl
  | map f g => exact (hparts g (by simp [parts])).map f
  | discard g => exact (hparts g (by simp [parts])).map _
  | native f => cases all_self hg.isBuiltIn
  | andThen g f => cases all_self hg.isBuiltIn

/-- With as many steps as the grammar is deep and as are needed besides, a walk has the outcome
that it has with any number of steps. -/
theorem run_leIn (hS : S.Closed) {fuel n : Nat} {g : LinkedGrammar} (hg : S.Covers g)
    (ho : S.Opened fuel opened) (hn : g.extent.depth + k ≤ n) :
    Walk.LeIn (S.Fits opened k) (run S.rules fuel g) (run S.rules n g) := by
  induction fuel generalizing g k opened n with
  | zero => intro c x _ h; cases h
  | succ fuel ih =>
    have hpos := depth_pos g
    obtain ⟨n, rfl⟩ : ∃ m, n = m + 1 := ⟨n - 1, by omega⟩
    -- one rule or one run of the skip rule less to nest
    have hless : ∀ {g : LinkedGrammar} {opened' : List Spot}, S.Covers g → S.Opened fuel opened' →
        Walk.LeIn (S.Fits opened' (k - S.deep)) (run S.rules fuel g) (run S.rules n g) := by
      intro g' opened' hg' ho' c x ha h
      have hrounds := ha.setting.rounds_le
      have hdeep := hg'.depth
      unfold rounds at hrounds
      exact ih hg' ho' (by omega) ha h
    refine step_leIn hS hg (by omega) (by omega) (fun part hm => ?_)
      (fun s hs => hless (hS.skips s hs) ho.less) ?_
    · have := depth_part hm
      exact ih (hg.part hm) ho.less (by omega)
    · rintro r rfl
      exact rule_leIn hS ho (ih hg ho.less hn) fun g hm opened' ho' => hless (hS.rules g hm) ho'

end Scope

variable {rules : RuleTable}

/-- The bounds of a walk of the grammar from the context on. -/
def scope (rules : RuleTable) (c : Context LinkedGrammar) (g : LinkedGrammar) : Scope :=
  { rules
    chunks := c.chunks
    skips := c.skip ::
      (g.skipRules ++ skipRulesOfOption c.skip ++ rules.toList.flatMap skipRules).map some
    deep := (wholeExtent rules c g).depth
    least := (wholeExtent rules c g).least }

theorem length_skips_scope (rules : RuleTable) (c : Context LinkedGrammar) (g : LinkedGrammar) :
    (scope rules c g).skips.length = (wholeExtent rules c g).skips + 1 := by
  rw [wholeExtent_eq, skips_foldl_join]
  simp only [scope, List.length_cons, List.length_map, List.length_append, length_skipRules,
    length_skipRulesOfOption, Extent.join]

section

variable (hrules : ∀ g ∈ rules, g.isBuiltIn = true) {c : Context LinkedGrammar}
  (hskip : ∀ s ∈ c.skip, s.isBuiltIn = true) {g : LinkedGrammar} (hg : g.isBuiltIn = true)

include hrules hskip hg

/-- The grammar, the skip rule and the rules stay within the bounds. -/
theorem scope_covers : (scope rules c g).Covers g ∧ (∀ s ∈ c.skip, (scope rules c g).Covers s) ∧
    ∀ r ∈ rules, (scope rules c g).Covers r := by
  obtain ⟨hfits, hfitsSkip, hfitsRules⟩ := fitsIn_wholeExtent rules c g
  have hmem : ∀ {s : LinkedGrammar}, s ∈ g.skipRules ∨ s ∈ skipRulesOfOption c.skip ∨
      s ∈ rules.toList.flatMap skipRules → some s ∈ (scope rules c g).skips := by
    intro s hs
    refine List.mem_cons_of_mem _ (List.mem_map_of_mem ?_)
    simpa [or_assoc] using hs
  refine ⟨⟨hg, hfits.depth, hfits.least, fun s hs => hmem (.inl hs)⟩,
    fun r hr => ?_, fun r hr => ?_⟩
  · exact ⟨hskip r hr, (hfitsSkip r hr).depth, (hfitsSkip r hr).least,
      fun s hs => hmem (.inr (.inl (mem_skipRulesOfOption.mpr ⟨r, hr, hs⟩)))⟩
  · exact ⟨hrules r hr, (hfitsRules r hr).depth, (hfitsRules r hr).least, fun s hs =>
      hmem (.inr (.inr (List.mem_flatMap.mpr ⟨r, Array.mem_toList_iff.mpr hr, hs⟩)))⟩

theorem scope_closed : (scope rules c g).Closed := by
  obtain ⟨hcovers, hskips, htable⟩ := scope_covers hrules hskip hg
  refine ⟨htable, fun s hs => ?_⟩
  rcases List.mem_cons.mp hs with hs | hs
  · exact hskips s hs.symm
  · obtain ⟨s', hs, he⟩ := List.mem_map.mp hs
    cases he
    -- a skip rule that occurs in a grammar stays within the bounds of the grammar
    have hof : ∀ {g' : LinkedGrammar}, (scope rules c g).Covers g' → s ∈ g'.skipRules →
        (scope rules c g).Covers s :=
      fun hc hs => of_mem_skipRules (fun _ hc _ hm => hc.part hm) hc hs
    rcases List.mem_append.mp hs with hs | hs
    · rcases List.mem_append.mp hs with hs | hs
      · exact hof hcovers hs
      · obtain ⟨g', hm, hs⟩ := mem_skipRulesOfOption.mp hs
        exact hof (hskips g' hm) hs
    · obtain ⟨g', hm, hs⟩ := List.mem_flatMap.mp hs
      exact hof (htable g' (Array.mem_toList_iff.mp hm)) hs

end

/-- There are no more spots than rules that can be open at once without a limit. -/
theorem length_spots_scope (rules : RuleTable) (c : Context LinkedGrammar) (g : LinkedGrammar) :
    (scope rules c g).spots.length
      ≤ rules.size * places c (wholeExtent rules c g) * 2
        * ((wholeExtent rules c g).skips + 2) := by
  rw [Scope.length_spots, length_skips_scope]
  have hplaces : c.chunks.size + 1 ≤ places c (wholeExtent rules c g) := by
    unfold places
    omega
  calc rules.size * ((c.chunks.size + 1) * (((wholeExtent rules c g).skips + 1) * 2))
      ≤ rules.size * (places c (wholeExtent rules c g)
          * (((wholeExtent rules c g).skips + 2) * 2)) := by gcongr; omega
    _ = _ := by ring

theorem fits_enoughFuel (rules : RuleTable) (c : Context LinkedGrammar) (g : LinkedGrammar) :
    ∃ k, (scope rules c g).Fits [] k c.setting ∧ g.extent.depth + k ≤ enoughFuel rules c g := by
  have hg := (fitsIn_wholeExtent rules c g).1.depth
  have hspots := length_spots_scope rules c g
  generalize hopen : openRules rules c (wholeExtent rules c g) = n
  have hleft : c.setting.recursionLimit.elim ((scope rules c g).spots.length - 0)
      (· - c.setting.ruleStack.length) ≤ n := by
    unfold openRules at hopen
    cases hl : c.recursionLimit with
    | some limit =>
      simp only [hl] at hopen
      simp only [Context.setting, hl, Option.elim_some]
      omega
    | none =>
      simp only [hl] at hopen
      simp only [Context.setting, hl, Option.elim_none]
      omega
  refine ⟨_, ⟨rfl, List.mem_cons_self, Nat.le_refl _⟩, ?_⟩
  have hmul := Nat.mul_le_mul_right (wholeExtent rules c g).depth hleft
  have hring : (n + 3) * ((wholeExtent rules c g).depth + 2)
      = n * (wholeExtent rules c g).depth + 3 * (wholeExtent rules c g).depth + (2 * n + 6) := by
    ring
  have hskipping : (if c.setting.skipping then 0 else (scope rules c g).deep)
      ≤ (wholeExtent rules c g).depth := by
    split
    · exact Nat.zero_le _
    · exact Nat.le_refl _
  simp only [enoughFuel, hopen, hring, loopRounds, places, Scope.rounds, scope, List.length_nil]
    at hmul hskipping ⊢
  omega

/-- **The steps that a walk is given are enough**: the outcome that a grammar has with any
number of steps is the one that it has with the steps computed for it. -/
theorem parse_of_run (hrules : ∀ g ∈ rules, g.isBuiltIn = true) {g : LinkedGrammar}
    (hg : g.isBuiltIn = true) {c : Context LinkedGrammar}
    (hskip : ∀ s ∈ c.skip, s.isBuiltIn = true) (hinside : c.cursor ≤ c.chunks.size) {fuel : Nat}
    {x : Outcome Value × Context LinkedGrammar} (h : run rules fuel g c = some x) :
    parse rules g c = some x := by
  obtain ⟨k, hfits, hfuel⟩ := fits_enoughFuel rules c g
  exact Scope.run_leIn (scope_closed hrules hskip hg) (scope_covers hrules hskip hg).1
    ⟨List.nodup_nil, List.nil_subset _, by simp⟩ hfuel ⟨hfits, hinside⟩ h

end Chunkwise.Grammar

namespace Chunkwise.Parser

/-- A parse gives what a run of the entry amounts to, with any number of steps. -/
theorem parse_eq_of_run {p : Parser} (hp : p.isBuiltIn = true) {name : String}
    {entry : LinkedGrammar} (hentry : p.entry? name = some entry) {text : String}
    {trace : Option Trace} {fuel : Nat} {o : Outcome Value} {d : Context LinkedGrammar}
    (h : Grammar.run p.rules fuel entry (p.start (p.tokenizer.tokenize text).1 trace)
      = some (o, d)) : (p.parse name text trace).1 = some (d.finish o, d.trace) := by
  rw [parse_eq_tale hentry, ending_tale, Grammar.parse_of_run (rules_isBuiltIn hp)
    (entry?_isBuiltIn hentry) (skip_isBuiltIn hp) (Nat.zero_le _) h, Option.map_some]

end Chunkwise.Parser
