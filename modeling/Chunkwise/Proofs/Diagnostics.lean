import Chunkwise.Proofs.Account
import Chunkwise.Proofs.Bisimulation

/-! Diagnostics are only written. The deepest failure is saved, put back and compared, and the
trace is told of most things that happen, but no walk goes on otherwise because of them. So a
run is the same run whatever they hold, and a parse gives the same result whether it is traced
or not. -/

namespace Chunkwise

variable {σ α : Type}

/-- The context without its trace, and unless `record` without the deepest failure. -/
def Context.plain (record : Bool) (c : Context σ) : Context σ :=
  { c with deepest := if record then c.deepest else none, trace := none }

namespace Context

variable {record : Bool} {c c' d d' : Context σ}

/-- A change that makes the same of a context and of the plain one. -/
theorem plain_congr {f : Context σ → Context σ}
    (hf : ∀ c : Context σ, (f c).plain record = (f (c.plain record)).plain record)
    (h : c.plain record = c'.plain record) : (f c).plain record = (f c').plain record := by
  rw [hf c, h, ← hf c']

theorem plain_record (c : Context σ) (f : Failure) :
    (c.record f).plain record = ((c.plain record).record f).plain record := by
  cases record <;> rfl

theorem plain_exitRule (c : Context σ) (matched : Bool) :
    (c.exitRule matched).plain record = ((c.plain record).exitRule matched).plain record := by
  unfold exitRule
  cases h : c.ruleStack <;> cases record <;> simp [plain, note, h]

theorem enterRule_plain (record : Bool) (c : Context σ) (name : String) :
    ((c.plain record).enterRule name).1 = (c.enterRule name).1 ∧
      (c.enterRule name).2.plain record = ((c.plain record).enterRule name).2.plain record := by
  have hhalted : (c.plain record).isHalted = c.isHalted := rfl
  have hlimit : (c.plain record).exceededLimit? = c.exceededLimit? := rfl
  unfold enterRule
  rw [hhalted, hlimit]
  split
  · exact ⟨rfl, by cases record <;> rfl⟩
  · split
    · exact ⟨rfl, by cases record <;> rfl⟩
    · exact ⟨rfl, by cases record <;> rfl⟩

theorem plain_forget (hc : c.plain record = c'.plain record)
    (hd : d.plain record = d'.plain record) :
    ({ d with deepest := c.deepest } : Context σ).plain record
      = ({ d' with deepest := c'.deepest } : Context σ).plain record := by
  have hdeepest : (c.plain record).deepest = (c'.plain record).deepest :=
    congrArg Context.deepest hc
  show { d.plain record with deepest := (c.plain record).deepest }
    = { d'.plain record with deepest := (c'.plain record).deepest }
  rw [hd, hdeepest]

/-- What a parse reports does not depend on the trace. -/
theorem finish_plain (c : Context σ) (o : Outcome α) : (c.plain true).finish o = c.finish o := by
  cases o <;> rfl

end Context

/-- No walk looks at the trace, nor at the deepest failure other than to keep it. -/
theorem plain_bisimulation (record : Bool) :
    Bisimulation fun c c' : Context σ => c.plain record = c'.plain record where
  view h := (congrArg Context.view h).symm
  moveTo h i := Context.plain_congr (f := (·.moveTo i)) (fun _ => by cases record <;> rfl) h
  note h f := Context.plain_congr (f := (·.note f)) (fun _ => by cases record <;> rfl) h
  withSkip h skip :=
    Context.plain_congr (f := (·.withSkip skip)) (fun _ => by cases record <;> rfl) h
  withSkipping h skipping :=
    Context.plain_congr (f := ({ · with skipping })) (fun _ => by cases record <;> rfl) h
  record h f := Context.plain_congr (f := (·.record f)) (fun c => c.plain_record f) h
  halt h d := Context.plain_congr (f := (·.halt d)) (fun _ => by cases record <;> rfl) h
  stuck h round := Context.plain_congr (f := fun c => c.halt (c.stuckAt round))
    (fun _ => by cases record <;> rfl) h
  enterRule := by
    intro c c' h name
    obtain ⟨hfirst, hsecond⟩ := c.enterRule_plain record name
    obtain ⟨hfirst', hsecond'⟩ := c'.enterRule_plain record name
    rw [← hfirst, ← hfirst', hsecond, hsecond', h]
    exact ⟨rfl, rfl⟩
  exitRule h matched :=
    Context.plain_congr (f := (·.exitRule matched)) (fun c => c.plain_exitRule matched) h
  forget hc hd := Context.plain_forget hc hd

namespace Grammar

variable {rules : RuleTable} {record : Bool}

/-- Two runs that start alike but for diagnostics end alike but for diagnostics, if they end at
all. -/
theorem run_plain (hrules : ∀ g ∈ rules, g.isBuiltIn = true) {fuel : Nat} {g : LinkedGrammar}
    (hg : g.isBuiltIn = true) {c c' : Context LinkedGrammar}
    (hc : c.plain record = c'.plain record) (hskip : ∀ s ∈ c.skip, s.isBuiltIn = true) :
    (run rules fuel g c).map (fun x => (x.1, x.2.plain record))
      = (run rules fuel g c').map fun x => (x.1, x.2.plain record) := by
  have hskip' : ∀ s ∈ c'.skip, s.isBuiltIn = true := by
    have hsame : (c.plain record).skip = (c'.plain record).skip := congrArg Context.skip hc
    exact fun s hs => hskip s (hsame ▸ hs)
  cases h : run rules fuel g c with
  | some x =>
    obtain ⟨d', h', hd⟩ := run_bisimilar (plain_bisimulation record) hrules hg hc hskip h
    rw [h', Option.map_some, Option.map_some, hd]
  | none =>
    cases h' : run rules fuel g c' with
    | none => rfl
    | some x =>
      obtain ⟨_, hsome, _⟩ :=
        run_bisimilar (plain_bisimulation record) hrules hg hc.symm hskip' h'
      rw [h] at hsome
      cases hsome

end Grammar

namespace Parser

variable {p : Parser}

/-- **Diagnostics are only written.** From two contexts that differ in the deepest failure and
the trace, runs come to the same outcome and leave contexts that differ in nothing else. So a
parse gives the same result whatever trace it is told to, or none. -/
theorem diagnostics_only_written (hp : p.isBuiltIn = true) :
    (∀ (fuel : Nat) (g : LinkedGrammar) (c : Context LinkedGrammar) (deepest : Option Failure)
      (trace : Option Trace), g.isBuiltIn = true → (∀ s ∈ c.skip, s.isBuiltIn = true) →
      (Grammar.run p.rules fuel g { c with deepest, trace }).map
          (fun x => (x.1, { x.2 with deepest := none, trace := none }))
        = (Grammar.run p.rules fuel g c).map
          fun x => (x.1, { x.2 with deepest := none, trace := none })) ∧
    ∀ (name text : String) (trace trace' : Option Trace),
      (p.parse name text trace).1.map Prod.fst = (p.parse name text trace').1.map Prod.fst := by
  have hrules := rules_isBuiltIn hp
  refine ⟨?_, ?_⟩
  · intro fuel g c deepest trace hg hskip
    have hplain : ({ c with deepest, trace } : Context LinkedGrammar).plain false
        = c.plain false := rfl
    exact Grammar.run_plain hrules hg hplain hskip
  · intro name text trace trace'
    cases hentry : p.entry? name with
    | none => simp only [parse_of_unknown hentry, Option.map_some]
    | some entry =>
      -- both parses start with no failure on record, so they end with the same one
      have hplain : (p.start (p.tokenizer.tokenize text).1 trace).plain true
          = (p.start (p.tokenizer.tokenize text).1 trace').plain true := rfl
      have hrun : (Grammar.parse p.rules entry (p.start (p.tokenizer.tokenize text).1 trace)).map
            (fun x => (x.1, x.2.plain true))
          = (Grammar.parse p.rules entry (p.start (p.tokenizer.tokenize text).1 trace')).map
            fun x => (x.1, x.2.plain true) :=
        Grammar.run_plain hrules (entry?_isBuiltIn hentry) hplain (skip_isBuiltIn hp)
      have hresult : ∀ trace, (p.parse name text trace).1.map Prod.fst
          = ((Grammar.parse p.rules entry (p.start (p.tokenizer.tokenize text).1 trace)).map
              fun x => (x.1, x.2.plain true)).map fun x => x.2.finish x.1 := by
        intro trace
        rw [parse_eq_tale hentry, ending_tale, Option.map_map, Option.map_map]
        refine congrArg (Option.map · _) (funext fun x => ?_)
        exact (x.2.finish_plain x.1).symm
      rw [hresult, hresult]
      exact congrArg _ hrun

/-- A rule that fails behind a lookahead and behind an optional part that got further: run
with a deeper failure on record and a trace, and parsed in colour behind two lines that are
there already. -/
theorem diagnostics_only_written_optional :
    (Grammar.run
        #[.sequence [.peek (.consume (.literal 0 "x")),
          .optional (.sequence [.consume (.literal 0 "x"), .consume (.literal 1 "w")]),
          .consume (.literal 2 "y")]] 9 (.rule ⟨⟨0⟩, "A"⟩)
        { chunks := ⟨#["x"]⟩, deepest := some ⟨8, .eof⟩, trace := some {} }).map
          (fun x => (x.1, { x.2 with deepest := none, trace := none }))
      = some (.failure ⟨0, .literal 2 "y"⟩, { chunks := ⟨#["x"]⟩ }) ∧
    (Parser.parse
      { tokenizer := { pattern := "", program := none }
        symbols := ⟨#["A"]⟩
        rules := #[.sequence [.peek (.consume (.literal 0 "x")),
          .optional (.sequence [.consume (.literal 0 "x"), .consume (.literal 1 "w")]),
          .consume (.literal 2 "y")]]
        skip := none
        recursionLimit := some 2 } "A" "x"
      (some { palette := .on, log := #[(0, .entered "A" 7), (4, .skipped 1 2)] })).1.map Prod.fst
      = some (.error (.mismatch (.ofFailure ⟨#["x"]⟩ ⟨1, .literal 1 "w"⟩))) := by
  obtain ⟨hrun, hparse⟩ := diagnostics_only_written (p :=
    { tokenizer := { pattern := "", program := none }
      symbols := ⟨#["A"]⟩
      rules := #[.sequence [.peek (.consume (.literal 0 "x")),
        .optional (.sequence [.consume (.literal 0 "x"), .consume (.literal 1 "w")]),
        .consume (.literal 2 "y")]]
      skip := none
      recursionLimit := some 2 }) (by decide)
  refine ⟨?_, ?_⟩
  · rw [hrun 9 (.rule ⟨⟨0⟩, "A"⟩) { chunks := ⟨#["x"]⟩ } (some ⟨8, .eof⟩) (some {}) (by decide)
      (by decide)]
    rfl
  · rw [hparse "A" "x" _ none]
    with_unfolding_all rfl

end Parser

end Chunkwise
