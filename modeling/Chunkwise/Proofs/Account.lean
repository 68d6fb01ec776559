import Chunkwise.Parser.Basic
import Chunkwise.Proofs.Likeness

/-! The moments of a telling give an account of the walk: each comes out of the one before by
the change that it names, the last one is the context that the walk leaves, and the deepest
failure on record is what the failures that were not aside make of it. -/

namespace Chunkwise

variable {σ β γ : Type}

/-- What a moment does to the context before it. A rule is opened only where the parse goes
on and the limit leaves room. -/
inductive Moment.Follows (c : Context σ) : Moment σ → Prop
  | moved {d : Context σ} {aside : Bool} : d.deepest = c.deepest → d.fatal = c.fatal →
      d.ruleStack = c.ruleStack → d.recursionLimit = c.recursionLimit →
      Follows c ⟨.moved, d, aside⟩
  | failed {aside : Bool} (f : Failure) : Follows c ⟨.failed f, c.record f, aside⟩
  | forgot {aside : Bool} (deepest : Option Failure) :
      Follows c ⟨.forgot, { c with deepest }, aside⟩
  | found {aside : Bool} (d : Defect) : Follows c ⟨.found d, c.halt d, aside⟩
  | opened {aside : Bool} (rule : String) : c.isHalted = false → c.exceededLimit? = none →
      Follows c ⟨.opened rule, c.pushRule rule, aside⟩
  | closed {aside : Bool} (matched : Bool) : Follows c ⟨.closed, c.exitRule matched, aside⟩

/-- Each moment comes out of the one before. -/
def Unfolds : Context σ → List (Moment σ) → Prop
  | _, [] => True
  | c, m :: ms => m.Follows c ∧ Unfolds m.context ms

/-- The context behind some moments. -/
def lastContext : Context σ → List (Moment σ) → Context σ
  | c, [] => c
  | _, m :: ms => lastContext m.context ms

theorem lastContext_append (c : Context σ) (ms ms' : List (Moment σ)) :
    lastContext c (ms ++ ms') = lastContext (lastContext c ms) ms' := by
  induction ms generalizing c with
  | nil => rfl
  | cons m ms ih => exact ih m.context

theorem Unfolds.append {c : Context σ} {ms ms' : List (Moment σ)} (h : Unfolds c ms)
    (h' : Unfolds (lastContext c ms) ms') : Unfolds c (ms ++ ms') := by
  induction ms generalizing c with
  | nil => exact h'
  | cons m ms ih => exact ⟨h.1, ih h.2 h'⟩

/-! ## Aside -/

theorem lastContext_putAside (c : Context σ) (ms : List (Moment σ)) :
    lastContext c (putAside ms) = lastContext c ms := by
  induction ms generalizing c with
  | nil => rfl
  | cons m ms ih => exact ih m.context

theorem Unfolds.putAside {c : Context σ} {ms : List (Moment σ)} (h : Unfolds c ms) :
    Unfolds c (putAside ms) := by
  induction ms generalizing c with
  | nil => trivial
  | cons m ms ih =>
    obtain ⟨hm, hms⟩ := h
    refine ⟨?_, ih hms⟩
    cases hm with
    | moved hd hf hr hl => exact .moved hd hf hr hl
    | failed f => exact .failed f
    | forgot deepest => exact .forgot deepest
    | found d => exact .found d
    | opened rule hh hl => exact .opened rule hh hl
    | closed matched => exact .closed matched

/-! ## Failures on record -/

/-- The failure that a moment puts on record for good. -/
def Moment.heard? (m : Moment σ) : Option Failure :=
  match m.change with
  | .failed f => if m.aside then none else some f
  | _ => none

/-- The failures that were remembered and not aside, in order. -/
def heard (ms : List (Moment σ)) : List Failure := ms.filterMap Moment.heard?

@[simp] theorem heard_append (ms ms' : List (Moment σ)) :
    heard (ms ++ ms') = heard ms ++ heard ms' := List.filterMap_append

@[simp] theorem heard_putAside (ms : List (Moment σ)) : heard (putAside ms) = [] := by
  unfold heard putAside
  rw [List.filterMap_map, List.filterMap_eq_nil_iff]
  intro m _
  simp only [Function.comp, Moment.heard?]
  split <;> simp

/-- The deepest failure on record after some more failures. -/
def remember (deepest : Option Failure) (fs : List Failure) : Option Failure :=
  fs.foldl (fun d f => some (Failure.deepest d f)) deepest

@[simp] theorem remember_append (deepest : Option Failure) (fs fs' : List Failure) :
    remember deepest (fs ++ fs') = remember (remember deepest fs) fs' := List.foldl_append

/-! ## Accounts -/

/-- A tale from a context on whose skip rule is of `S`: its moments unfold, and it ends where
they end, with a skip rule of `S` and the deepest of the failures on record. -/
structure Tale.Account (S : σ → Prop) (c : Context σ) (t : Tale σ β) : Prop where
  unfolds : Unfolds c t.moments
  ends : ∀ {b d}, t.ending = some (b, d) →
    d = lastContext c t.moments ∧ (∀ s ∈ d.skip, S s) ∧
      d.deepest = remember c.deepest (heard t.moments)

namespace Told

variable {S : σ → Prop}

/-- Wherever the walk is told from, the tale is an account. -/
def Accounts (S : σ → Prop) (x : Told σ β) : Prop :=
  ∀ ⦃c : Context σ⦄, (∀ s ∈ c.skip, S s) → (x c).Account S c

theorem Accounts.bind {x : Told σ β} {f : β → Told σ γ} (hx : Accounts S x)
    (hf : ∀ b, Accounts S (f b)) : Accounts S (x >>= f) := by
  intro c hc
  have ha := hx hc
  cases he : (x c).ending with
  | none =>
    rw [bind_of_none he]
    exact ⟨ha.unfolds, fun h => by cases h⟩
  | some y =>
    obtain ⟨b, d⟩ := y
    rw [bind_of_some he]
    obtain ⟨hd, hs, hr⟩ := ha.ends he
    have hb := hf b hs
    refine ⟨ha.unfolds.append (hd ▸ hb.unfolds), ?_⟩
    intro b' d' h
    obtain ⟨hd', hs', hr'⟩ := hb.ends h
    refine ⟨?_, hs', ?_⟩
    · rw [lastContext_append, ← hd, hd']
    · rw [heard_append, remember_append, ← hr, hr']

/-- A single change. -/
theorem accounts_become {change : Change} {f : Context σ → Context σ}
    (hf : ∀ c, Moment.Follows c ⟨change, f c, false⟩)
    (hskip : ∀ c, (∀ s ∈ c.skip, S s) → ∀ s ∈ (f c).skip, S s)
    (hdeepest : ∀ c, (f c).deepest = remember c.deepest (heard [⟨change, f c, false⟩])) :
    Accounts S (become change f) := by
  intro c hc
  refine ⟨⟨hf c, trivial⟩, ?_⟩
  rintro b d ⟨⟩
  exact ⟨rfl, hskip c hc, hdeepest c⟩

theorem accounts_enterRule (name : String) : Accounts S (enterRule name : Told σ Bool) := by
  intro c hc
  unfold enterRule
  cases hh : c.isHalted with
  | true =>
    refine ⟨trivial, ?_⟩
    rintro b d ⟨⟩
    exact ⟨rfl, hc, rfl⟩
  | false =>
    cases hl : c.exceededLimit? with
    | some limit =>
      refine ⟨⟨.found _, trivial⟩, ?_⟩
      rintro b d ⟨⟩
      exact ⟨rfl, hc, rfl⟩
    | none =>
      refine ⟨⟨.opened name hh hl, trivial⟩, ?_⟩
      rintro b d ⟨⟩
      exact ⟨rfl, hc, rfl⟩

theorem Accounts.aside {x : Told σ β} (hx : Accounts S x) : Accounts S (aside x) := by
  intro c hc
  have ha := hx hc
  unfold Told.aside
  cases he : (x c).ending with
  | none => exact ⟨ha.unfolds.putAside, fun h => by cases h⟩
  | some y =>
    obtain ⟨b, d⟩ := y
    obtain ⟨hd, hs, _⟩ := ha.ends he
    have hlast : lastContext c (putAside (x c).moments) = d := by
      rw [lastContext_putAside, hd]
    refine ⟨ha.unfolds.putAside.append ⟨?_, trivial⟩, ?_⟩
    · rw [hlast]
      exact .forgot c.deepest
    · rintro b' d' ⟨⟩
      refine ⟨?_, hs, ?_⟩
      · rw [lastContext_append]
        rfl
      · rw [heard_append, heard_putAside]
        rfl

/-- Accounts are kept by all ways to make a telling walk. -/
theorem accounts_likeness : Likeness S (fun _ _ => True) fun _ x _ => Accounts S x where
  pure b := by
    intro c hc
    refine ⟨trivial, ?_⟩
    rintro b d ⟨⟩
    exact ⟨rfl, hc, rfl⟩
  bind hx hf := hx.bind hf
  never := by
    intro β y _ c _
    exact ⟨trivial, fun h => by cases h⟩
  look := by
    intro β f g hf c hc
    exact hf c.view hc hc
  moveTo i := accounts_become (fun _ => .moved rfl rfl rfl rfl) (fun _ hc => hc) fun _ => rfl
  note f := accounts_become (fun _ => .moved rfl rfl rfl rfl) (fun _ hc => hc) fun _ => rfl
  setSkip hskip := accounts_become (fun _ => .moved rfl rfl rfl rfl) (fun _ _ => hskip) fun _ => rfl
  setSkipping b := accounts_become (fun _ => .moved rfl rfl rfl rfl) (fun _ hc => hc) fun _ => rfl
  record f := accounts_become (fun _ => .failed f) (fun _ hc => hc) fun _ => rfl
  findUnresolved name := accounts_become (fun _ => .found _) (fun _ hc => hc) fun _ => rfl
  findStuck round := by
    intro c hc
    refine ⟨⟨.found _, trivial⟩, ?_⟩
    rintro b d ⟨⟩
    exact ⟨rfl, hc, rfl⟩
  enterRule name := accounts_enterRule name
  exitRule matched := by
    refine accounts_become (fun _ => .closed matched) (fun c hc => ?_) fun c => ?_
    · unfold Context.exitRule
      split <;> exact hc
    · show (c.exitRule matched).deepest = c.deepest
      unfold Context.exitRule
      split <;> rfl
  aside hx := hx.aside

end Told

namespace Grammar

variable {rules : RuleTable}

/-- The telling of a grammar gives an account of its run. -/
theorem tell_accounts (hrules : ∀ g ∈ rules, g.isBuiltIn = true) {fuel : Nat} {g : LinkedGrammar}
    (hg : g.isBuiltIn = true) {c : Context LinkedGrammar}
    (hskip : ∀ s ∈ c.skip, s.isBuiltIn = true) :
    (tell rules fuel g c).Account (·.isBuiltIn = true) c :=
  tell_alike Told.accounts_likeness hrules hg hskip

end Grammar

/-- A parse that is over with a defect gives the defect, whatever its outcome. -/
theorem Context.finish_of_fatal (c : Context σ) {d : Defect} (h : c.fatal = some d)
    (o : Outcome β) : c.finish o = .error (.defect d) := by
  cases o <;> simp [finish, h]

/-- Only a defect that was found makes a parse end with one. -/
theorem Context.fatal_of_finish {c : Context σ} {o : Outcome β} {d : Defect}
    (h : c.finish o = .error (.defect d)) : c.fatal = some d := by
  unfold finish at h
  cases o <;> cases hc : c.fatal <;> simp_all

namespace Parser

/-- Whether all grammars of a parser are made of what is built in. -/
def isBuiltIn (p : Parser) : Bool :=
  p.rules.toList.all (·.isBuiltIn) && p.skip.all (·.isBuiltIn)

theorem rules_isBuiltIn {p : Parser} (h : p.isBuiltIn = true) :
    ∀ g ∈ p.rules, g.isBuiltIn = true := fun g hm =>
  List.all_eq_true.mp (Bool.and_eq_true_iff.mp h).1 g (Array.mem_toList_iff.mpr hm)

theorem skip_isBuiltIn {p : Parser} (h : p.isBuiltIn = true) :
    ∀ s ∈ p.skip, s.isBuiltIn = true := fun s hs =>
  (Option.all_eq_true _ _).mp (Bool.and_eq_true_iff.mp h).2 s hs

theorem entry?_isBuiltIn {p : Parser} {name : String} {entry : LinkedGrammar}
    (h : p.entry? name = some entry) : entry.isBuiltIn = true := by
  obtain ⟨symbol, _, rfl⟩ := Option.map_eq_some_iff.mp h
  rfl

/-- What a parse tells. -/
def tale (p : Parser) (entry : LinkedGrammar) (chunks : Chunks) (trace : Option Trace) :
    Tale LinkedGrammar (Outcome Value) :=
  Grammar.tell p.rules (Grammar.enoughFuel p.rules (p.start chunks trace) entry) entry
    (p.start chunks trace)

theorem tale_account {p : Parser} (hp : p.isBuiltIn = true) {name : String}
    {entry : LinkedGrammar} (hentry : p.entry? name = some entry) (chunks : Chunks)
    (trace : Option Trace) :
    (p.tale entry chunks trace).Account (·.isBuiltIn = true) (p.start chunks trace) :=
  Grammar.tell_accounts (rules_isBuiltIn hp) (entry?_isBuiltIn hentry) (skip_isBuiltIn hp)

theorem ending_tale (p : Parser) (entry : LinkedGrammar) (chunks : Chunks)
    (trace : Option Trace) :
    (p.tale entry chunks trace).ending = Grammar.parse p.rules entry (p.start chunks trace) :=
  Grammar.ending_tell p.rules _ entry _

/-- A parse gives what its tale ends with. -/
theorem parse_eq_tale {p : Parser} {name : String} {entry : LinkedGrammar}
    (hentry : p.entry? name = some entry) (text : String) (trace : Option Trace) :
    (p.parse name text trace).1
      = (p.tale entry (p.tokenizer.tokenize text).1 trace).ending.map
          fun x => (x.2.finish x.1, x.2.trace) := by
  rw [fst_parse hentry]
  simp only [run, runWith, ending_tale]
  exact Option.map_eq_bind.symm

end Parser

end Chunkwise
