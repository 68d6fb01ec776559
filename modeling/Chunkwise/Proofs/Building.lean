import Chunkwise.Parser.Builder
import Chunkwise.Proofs.Naming

/-! What building a parser comes to. The registry numbers names while factories run, and a number
from that of the rules on is taken for a rule that is missing. As the rules are numbered first and
numbers stay, what is reported is the first name asked for that no rule has. -/

namespace Chunkwise

/-! ## Names -/

namespace Symbols

variable {s s' : Symbols} {name : String} {symbol : Symbol}

/-- A name keeps its symbol, whatever names follow. -/
theorem get?_mono (hs : s.names.toList <+: s'.names.toList) (h : s.get? name = some symbol) :
    s'.get? name = some symbol := by
  obtain ⟨rest, hrest⟩ := hs
  rw [get?_eq_some_iff, List.idxOf?_eq_some_iff] at h ⊢
  obtain ⟨hlt, he, hfirst⟩ := h
  simp only [← hrest]
  refine ⟨by rw [List.length_append]; omega, by rw [List.getElem_append_left hlt, he], ?_⟩
  intro j hj
  rw [List.getElem_append_left (Nat.lt_trans hj hlt)]
  exact hfirst j hj

theorem get?_intern (s : Symbols) (name : String) :
    (s.intern name).2.get? name = some (s.intern name).1 := by
  cases hget : s.get? name with
  | some symbol => simp [intern, hget]
  | none =>
    have hnew := get?_eq_none_iff.mp hget
    have hsymbol : (s.intern name).1 = ⟨s.names.toList.length⟩ := by simp [intern, hget, size]
    rw [hsymbol, get?_eq_some_iff, names_intern_of_not_mem hnew, List.idxOf?_eq_some_iff]
    refine ⟨by simp, by simp, fun j hj he => hnew ?_⟩
    rw [List.getElem_append_left hj] at he
    exact he ▸ List.getElem_mem hj

/-- The name of a symbol is the one that it was handed out for. -/
theorem resolve?_of_get? (h : s.get? name = some symbol) : s.resolve? symbol = some name := by
  rw [get?_eq_some_iff, List.idxOf?_eq_some_iff] at h
  obtain ⟨hlt, he, _⟩ := h
  rw [resolve?, ← Array.getElem?_toList, List.getElem?_eq_getElem hlt, he]

theorem mem_foldl_intern {names : List String} (h : name ∈ names) (s : Symbols) :
    name ∈ (names.foldl (fun s name => (s.intern name).2) s).names.toList := by
  obtain ⟨before, behind, rfl⟩ := List.append_of_mem h
  rw [List.foldl_append, List.foldl_cons]
  refine (prefix_foldl_intern behind _).mem ?_
  by_contra hnot
  exact Option.ne_none_iff_exists'.mpr ⟨_, get?_intern _ name⟩ (get?_eq_none_iff.mpr hnot)

theorem mem_ofList {names : List String} (h : name ∈ names) :
    name ∈ (ofList names).names.toList := mem_foldl_intern h {}

end Symbols

/-! ## Tokens -/

namespace Tokenizer

variable {tokens : List Token}

/-- The empty pattern is not read for a tokenizer, and it could be. -/
theorem ofTokens_of_unreadable (h : Regex.parse? (alternation tokens) = none)
    (limit : Option Nat) : ofTokens tokens limit = .error (.unreadable (alternation tokens)) := by
  have hne : alternation tokens ≠ "" := by
    intro he
    have hempty : (Regex.parse? "").isSome = true := by decide +kernel
    rw [he] at h
    rw [h] at hempty
    cases hempty
  simp [ofTokens, hne, h]

theorem ofTokens_of_readable (h : Regex.parse? (alternation tokens) ≠ none)
    (limit : Option Nat) : ∃ t, ofTokens tokens limit = .ok t := by
  obtain ⟨r, hr⟩ := Option.ne_none_iff_exists'.mp h
  by_cases he : alternation tokens = ""
  · exact ⟨{ pattern := alternation tokens, program := none, cacheLimit := limit },
      by simp [ofTokens, he]⟩
  · exact ⟨{ pattern := alternation tokens, program := some r.compile, cacheLimit := limit },
      by simp [ofTokens, he, hr]⟩

end Tokenizer

/-! ## Factories -/

namespace Registry

open Definition (refTo)

variable {r r₁ r₂ : Registry}

theorem names_ofNames {names : List String} (hnodup : names.Nodup) :
    (ofNames names).symbols.names.toList = names := Symbols.names_ofList hnodup

theorem fst_get (r : Registry) (name : String) : (r.get name).1 = refTo r.symbols name := by
  unfold get refTo Symbols.intern
  cases r.symbols.get? name with
  | some symbol => rfl
  | none => rfl

/-- Between the two registries these names were asked for, each for its rule. The symbols that
were handed out are those that the names have in the end. -/
structure Asks (r : Registry) (names : List (String × Option Symbol)) (r' : Registry) : Prop where
  symbols : r'.symbols = (names.map (·.1)).foldl (fun s name => (s.intern name).2) r.symbols
  defined : r'.defined = r.defined
  asked : ∀ s : Symbols, r'.symbols.names.toList <+: s.names.toList →
    r'.asked.toList
      = r.asked.toList ++ names.map fun (name, rule) => ((refTo s name).symbol, rule)

namespace Asks

variable {names names' : List (String × Option Symbol)}

theorem isPrefix (h : r.Asks names r₁) :
    r.symbols.names.toList <+: r₁.symbols.names.toList := by
  rw [h.symbols]
  exact Symbols.prefix_foldl_intern _ _

theorem refl : r.Asks [] r := ⟨rfl, rfl, fun _ _ => by simp⟩

theorem trans (h : r.Asks names r₁) (h' : r₁.Asks names' r₂) : r.Asks (names ++ names') r₂ := by
  refine ⟨?_, h'.defined.trans h.defined, fun s hs => ?_⟩
  · rw [h'.symbols, h.symbols, List.map_append, List.foldl_append]
  · rw [h'.asked s hs, h.asked s (h'.isPrefix.trans hs), List.map_append, List.append_assoc]

/-- It makes no difference to the names asked for which rule was under way before, or is
afterwards. -/
theorem of_current {current : Option Symbol} (h : { r with current }.Asks names r₁) :
    r.Asks names r₁ :=
  ⟨h.symbols, h.defined, h.asked⟩

theorem set_current (h : r.Asks names r₁) (current : Option Symbol) :
    r.Asks names { r₁ with current } :=
  ⟨h.symbols, h.defined, h.asked⟩

end Asks

theorem get_asks (r : Registry) (name : String) :
    r.Asks [(name, r.current)] (r.get name).2 := by
  refine ⟨rfl, rfl, fun s hs => ?_⟩
  have hsymbol := Symbols.get?_mono hs (Symbols.get?_intern r.symbols name)
  simp [get, refTo, hsymbol]

theorem foldl_get_asks (names : List String) (r : Registry) :
    r.Asks (names.map (·, r.current)) (names.foldl (fun r name => (r.get name).2) r) := by
  induction names generalizing r with
  | nil => exact .refl
  | cons name names ih => exact (get_asks r name).trans (ih (r.get name).2)

theorem run_asks (r : Registry) (f : Factory) :
    r.Asks (f.asks.map (·, r.current)) (r.run f).2 := foldl_get_asks f.asks r

/-- The factories ask one after another, each for the rule that has its number. -/
theorem runAll_asks (symbolOf : String → Symbol) : ∀ (rules : List (String × Factory)) {i : Nat}
    (r : Registry), (∀ k rule, rules[k]? = some rule → symbolOf rule.1 = ⟨i + k⟩) →
    r.Asks (rules.flatMap fun (rule, f) => f.asks.map (·, some (symbolOf rule)))
      (r.runAll i (rules.map (·.2))).2
  | [], _, _, _ => .refl
  | (rule, f) :: rest, i, r, h => by
    have hrule : symbolOf rule = ⟨i⟩ := h 0 (rule, f) rfl
    have hfirst : Asks { r with current := some ⟨i⟩ } (f.asks.map (·, some (symbolOf rule)))
        (Registry.run { r with current := some ⟨i⟩ } f).2 := by
      rw [hrule]
      exact run_asks _ f
    have hrest := runAll_asks symbolOf rest (i := i + 1)
      (Registry.run { r with current := some ⟨i⟩ } f).2
      fun k rule hk => by rw [h (k + 1) rule hk, Nat.add_assoc, Nat.add_comm 1 k]
    rw [List.flatMap_cons]
    exact (hfirst.trans hrest).of_current

/-- A factory that asks for no new name leaves the names as they are, and the handles that it gets
lead where they lead. -/
theorem run_of_known {f : Factory} (h : ∀ name ∈ f.asks, name ∈ r.symbols.names.toList) :
    (r.run f).1 = f.grammar.link (refTo r.symbols) ∧ (r.run f).2.symbols = r.symbols := by
  have hnames := (run_asks r f).symbols
  rw [List.map_map] at hnames
  have hsymbols : (r.run f).2.symbols = r.symbols := by
    rw [hnames]
    exact Symbols.foldl_intern_of_mem (by simpa using h)
  have hhandles : (fun name => ((r.run f).2.get name).1) = refTo r.symbols :=
    funext fun name => by rw [fst_get, hsymbols]
  exact ⟨congrArg (Grammar.link · f.grammar) hhandles, hsymbols⟩

theorem runAll_of_known : ∀ {fs : List Factory} {r : Registry},
    (∀ f ∈ fs, ∀ name ∈ f.asks, name ∈ r.symbols.names.toList) → ∀ i : Nat,
      (r.runAll i fs).1 = fs.map (·.grammar.link (refTo r.symbols)) ∧
        (r.runAll i fs).2.symbols = r.symbols
  | [], _, _, _ => ⟨rfl, rfl⟩
  | f :: rest, r, h, i => by
    obtain ⟨hf, hrest⟩ := List.forall_mem_cons.mp h
    obtain ⟨hgrammar, hsymbols⟩ := run_of_known (r := { r with current := some ⟨i⟩ }) hf
    have hsymbols : (Registry.run { r with current := some ⟨i⟩ } f).2.symbols = r.symbols :=
      hsymbols
    obtain ⟨hgrammars, hlast⟩ := runAll_of_known (i := i + 1)
      (r := (Registry.run { r with current := some ⟨i⟩ } f).2) (by rwa [hsymbols])
    rw [hsymbols] at hgrammars hlast
    exact ⟨congrArg₂ List.cons hgrammar hgrammars, hlast⟩

end Registry

namespace Builder

open Definition (refTo)

/-- Everything that these factories ask for, with the rule that asks for it: rule by rule, and the
skip rule last. -/
def asksOf (rules : List (String × Factory)) (skip : Option Factory) :
    List (String × Option String) :=
  rules.flatMap (fun (rule, f) => f.asks.map (·, some rule))
    ++ (skip.elim [] Factory.asks).map (·, none)

variable {b : Builder}

theorem nodup_ruleNames (b : Builder) : b.ruleNames.Nodup := b.distinct

/-- The names of the rules, and then the other names that are asked for. -/
def symbols (b : Builder) : Symbols :=
  .ofList (b.ruleNames ++ (asksOf b.factories b.skip).map (·.1))

theorem get?_symbols {i : Nat} {rule : String × Factory} (h : b.factories[i]? = some rule) :
    b.symbols.get? rule.1 = some ⟨i⟩ :=
  Symbols.get?_ofList b.distinct _ (by rw [List.getElem?_map, h]; rfl)

/-- What the registry has when all factories have run. -/
theorem runFactories_asks (b : Builder) :
    (Registry.ofNames b.ruleNames).Asks
      ((asksOf b.factories b.skip).map fun (name, rule) =>
        (name, rule.map fun rule => (refTo b.symbols rule).symbol)) b.runFactories.2.2 := by
  have hrules := Registry.runAll_asks (fun rule => (refTo b.symbols rule).symbol) b.factories
    (i := 0) (Registry.ofNames b.ruleNames) fun k rule hk => by
      rw [refTo, get?_symbols hk, Option.getD_some, Nat.zero_add]
  rw [asksOf, List.map_append, List.map_flatMap]
  simp only [List.map_map]
  refine Registry.Asks.trans (hrules.set_current none) ?_
  unfold runFactories
  cases b.skip with
  | none => exact .refl
  | some f => exact Registry.run_asks _ f

/-- All symbols are handed out, those of the rules first. -/
theorem symbols_runFactories (b : Builder) : b.runFactories.2.2.symbols = b.symbols := by
  have h := b.runFactories_asks.symbols
  rw [List.map_map] at h
  rw [h, symbols, Symbols.ofList, List.foldl_append]
  rfl

theorem defined_runFactories (b : Builder) :
    b.runFactories.2.2.defined = b.ruleNames.length := by
  have h := congrArg List.length (Registry.names_ofNames b.nodup_ruleNames)
  exact b.runFactories_asks.defined.trans h

theorem asked_runFactories (b : Builder) :
    b.runFactories.2.2.asked.toList = (asksOf b.factories b.skip).map fun (name, rule) =>
      ((refTo b.symbols name).symbol, rule.map fun rule => (refTo b.symbols rule).symbol) := by
  have hfinal : b.runFactories.2.2.symbols.names.toList <+: b.symbols.names.toList := by
    rw [symbols_runFactories]
  have h := b.runFactories_asks.asked b.symbols hfinal
  rw [List.map_map] at h
  exact h

/-- Factories that ask for rules only come to grammars that are linked by the names of the
rules. -/
theorem grammars_runFactories (h : ∀ x ∈ asksOf b.factories b.skip, x.1 ∈ b.ruleNames) :
    b.runFactories.1 = b.factories.map (·.2.grammar.link (refTo (.ofList b.ruleNames))) ∧
      b.runFactories.2.1 = b.skip.map (·.grammar.link (refTo (.ofList b.ruleNames))) := by
  have hknown : ∀ x ∈ asksOf b.factories b.skip,
      x.1 ∈ (Registry.ofNames b.ruleNames).symbols.names.toList := by
    intro x hx
    rw [Registry.names_ofNames b.nodup_ruleNames]
    exact h x hx
  have hrules : ∀ f ∈ b.factories.map (·.2), ∀ name ∈ f.asks,
      name ∈ (Registry.ofNames b.ruleNames).symbols.names.toList := by
    intro f hf name hname
    obtain ⟨x, hx, rfl⟩ := List.mem_map.mp hf
    exact hknown (name, some x.1)
      (List.mem_append_left _ (List.mem_flatMap.mpr ⟨x, hx, List.mem_map_of_mem hname⟩))
  obtain ⟨hgrammars, hsymbols⟩ := Registry.runAll_of_known hrules 0
  rw [List.map_map] at hgrammars
  unfold runFactories
  cases hskip : b.skip with
  | none => exact ⟨hgrammars, rfl⟩
  | some f =>
    refine ⟨hgrammars, congrArg some ?_⟩
    have hf : ∀ name ∈ f.asks, name ∈ ((Registry.ofNames b.ruleNames).runAll 0
        (b.factories.map (·.2))).2.symbols.names.toList := by
      intro name hname
      rw [hsymbols]
      refine hknown (name, none) (List.mem_append_right _ (List.mem_map_of_mem ?_))
      rwa [hskip]
    have hlast := (Registry.run_of_known (r := { ((Registry.ofNames b.ruleNames).runAll 0
      (b.factories.map (·.2))).2 with current := none }) hf).1
    exact hlast.trans (by rw [hsymbols]; rfl)

/-- A name of a symbol is found again. -/
theorem nameOf_refTo {name : String} (h : name ∈ b.symbols.names.toList) :
    b.runFactories.2.2.nameOf (refTo b.symbols name).symbol = name := by
  cases hsymbol : b.symbols.get? name with
  | none => exact absurd h (Symbols.get?_eq_none_iff.mp hsymbol)
  | some symbol =>
    rw [Registry.nameOf, symbols_runFactories, refTo, hsymbol, Option.getD_some,
      Symbols.resolve?_of_get? hsymbol, Option.getD_some]

/-- Whoever asks is a rule, and both names have symbols. -/
theorem mem_symbols {name : String} {rule : Option String}
    (h : (name, rule) ∈ asksOf b.factories b.skip) :
    name ∈ b.symbols.names.toList ∧ ∀ x ∈ rule, x ∈ b.symbols.names.toList := by
  refine ⟨Symbols.mem_ofList (List.mem_append_right _ (List.mem_map_of_mem h)), ?_⟩
  rintro x rfl
  refine Symbols.mem_ofList (List.mem_append_left _ ?_)
  rcases List.mem_append.mp h with h | h
  · obtain ⟨⟨rule, f⟩, hm, h⟩ := List.mem_flatMap.mp h
    obtain ⟨_, _, he⟩ := List.mem_map.mp h
    cases he
    exact List.mem_map_of_mem hm
  · obtain ⟨_, _, he⟩ := List.mem_map.mp h
    cases he

/-- What is checked by number is whether a rule has the name. -/
theorem resolve_runFactories (b : Builder) :
    b.runFactories.2.2.resolve =
      match (asksOf b.factories b.skip).find? fun x => x.1 ∉ b.ruleNames with
      | some (name, rule) => .error (.undefinedRule name rule)
      | none => .ok b.symbols := by
  have hmissing : ∀ x : String × Option String,
      decide (b.ruleNames.length ≤ (refTo b.symbols x.1).symbol.index)
        = decide (x.1 ∉ b.ruleNames) := fun x =>
    decide_eq_decide.mpr (Nat.not_lt.symm.trans
      (not_congr (Definition.index_refTo_lt_iff b.nodup_ruleNames _ x.1)))
  rw [Registry.resolve, asked_runFactories, List.find?_map, defined_runFactories]
  simp only [Function.comp_def, hmissing]
  cases hfind : (asksOf b.factories b.skip).find? fun x => x.1 ∉ b.ruleNames with
  | none => exact congrArg Except.ok b.symbols_runFactories
  | some x =>
    obtain ⟨name, rule⟩ := x
    obtain ⟨hname, hrule⟩ := mem_symbols (List.mem_of_find?_eq_some hfind)
    have hreferrer : (rule.map fun rule => (refTo b.symbols rule).symbol).map
        b.runFactories.2.2.nameOf = rule := by
      cases rule with
      | none => rfl
      | some rule => exact congrArg some (nameOf_refTo (hrule rule rfl))
    simp only [Option.map_some, nameOf_refTo hname, hreferrer]

/-- The grammars that the factories make, without what is asked for on the way. -/
def definition (b : Builder) : Definition where
  tokens := b.tokens
  rules := b.factories.map fun (name, f) => (name, f.grammar)
  skip := b.skip.map (·.grammar)
  recursionLimit := b.recursionLimit
  cacheLimit := b.cacheLimit

theorem ruleNames_definition (b : Builder) : b.definition.ruleNames = b.ruleNames := by
  rw [Definition.ruleNames, definition, List.map_map]
  rfl

theorem symbols_of_defined (h : ∀ x ∈ asksOf b.factories b.skip, x.1 ∈ b.ruleNames) :
    b.symbols = .ofList b.ruleNames :=
  Symbols.ofList_append b.nodup_ruleNames fun name hname => by
    obtain ⟨x, hx, rfl⟩ := List.mem_map.mp hname
    exact h x hx

/-- What building comes to when no name was defined for a second time. -/
theorem build_of_distinct (h : b.duplicate = none) :
    b.build = (Tokenizer.ofTokens b.tokens b.cacheLimit).bind fun t =>
      match (asksOf b.factories b.skip).find? fun x => x.1 ∉ b.ruleNames with
      | some (name, rule) => .error (.undefinedRule name rule)
      | none => .ok (b.definition.linkedBy (.ofList b.ruleNames) t) := by
  unfold build
  rw [h]
  refine congrArg (Except.bind _) (funext fun t => ?_)
  show (b.runFactories.2.2.resolve.map _) = _
  rw [resolve_runFactories]
  cases hfind : (asksOf b.factories b.skip).find? fun x => x.1 ∉ b.ruleNames with
  | some x => rfl
  | none =>
    have hdefined : ∀ x ∈ asksOf b.factories b.skip, x.1 ∈ b.ruleNames := by simpa using hfind
    obtain ⟨hrules, hskip⟩ := grammars_runFactories hdefined
    have hparser : ∀ symbols, symbols = Symbols.ofList b.ruleNames →
        ({ tokenizer := t
           symbols
           rules := b.runFactories.1.toArray
           skip := b.runFactories.2.1
           recursionLimit := b.recursionLimit } : Parser)
          = b.definition.linkedBy (.ofList b.ruleNames) t := by
      rintro _ rfl
      simp only [hrules, hskip, Definition.linkedBy, definition, List.map_map, Option.map_map]
      rfl
    exact congrArg Except.ok (hparser _ (symbols_of_defined hdefined))

/-! ## Definitions one after another -/

/-- The name is the first one that stands in the list for a second time. -/
def RepeatsFirst (names : List String) (name : String) : Prop :=
  ∃ before behind, names = before ++ name :: behind ∧ before.Nodup ∧ name ∈ before

theorem RepeatsFirst.not_nodup {names : List String} {name : String}
    (h : RepeatsFirst names name) : ¬ names.Nodup := by
  obtain ⟨before, behind, rfl, _, hmem⟩ := h
  intro hnodup
  exact List.disjoint_of_nodup_append hnodup hmem List.mem_cons_self

/-- Of two lists with one continuation each, the longer one has the other's next name. -/
theorem RepeatsFirst.eq {names : List String} {name name' : String}
    (h : RepeatsFirst names name) (h' : RepeatsFirst names name') : name = name' := by
  obtain ⟨before, behind, rfl, hnodup, hmem⟩ := h
  obtain ⟨before', behind', he, hnodup', hmem'⟩ := h'
  -- where one list is longer, it repeats the name that the other one stops at
  have hlonger : ∀ {x y : String} {xs ys more ends rest : List String}, x ∈ xs → ys.Nodup →
      ys = xs ++ more → x :: ends = more ++ y :: rest → x = y := by
    intro x y xs ys more ends rest hx hys hmore hends
    cases more with
    | nil => exact (List.cons.inj hends).1
    | cons z more =>
      obtain ⟨rfl, _⟩ := List.cons.inj hends
      rw [hmore] at hys
      exact absurd List.mem_cons_self (List.disjoint_of_nodup_append hys hx)
  rcases List.append_eq_append_iff.mp he with ⟨more, hmore, hends⟩ | ⟨more, hmore, hends⟩
  · exact hlonger hmem hnodup' hmore hends
  · exact (hlonger hmem' hnodup hmore hends).symm

/-- How builders are made: rules are defined one after another, and the rest is set in between
as often as one likes. -/
inductive Made : Builder → List (String × Factory) → Prop
  | new (tokens : List Token) : Made { tokens } []
  | rule {b : Builder} {rules : List (String × Factory)} (name : String) (f : Factory) :
      Made b rules → Made (b.rule name f) (rules ++ [(name, f)])
  | skip {b : Builder} {rules : List (String × Factory)} (skip : Option Factory) :
      Made b rules → Made { b with skip } rules
  | recursionLimit {b : Builder} {rules : List (String × Factory)} (recursionLimit : Option Nat) :
      Made b rules → Made { b with recursionLimit } rules
  | cacheLimit {b : Builder} {rules : List (String × Factory)} (cacheLimit : Option Nat) :
      Made b rules → Made { b with cacheLimit } rules

/-- What a builder knows of the definitions: all of them, or the first name repeated. -/
def Knows (b : Builder) (rules : List (String × Factory)) : Prop :=
  (b.duplicate = none ∧ b.factories = rules) ∨
    ∃ name, b.duplicate = some name ∧ RepeatsFirst (rules.map (·.1)) name

/-- One more definition is a new rule, or the first repetition, or nothing new. -/
theorem Knows.rule {rules : List (String × Factory)} (h : b.Knows rules) (name : String)
    (f : Factory) : (b.rule name f).Knows (rules ++ [(name, f)]) := by
  unfold Builder.rule
  rcases h with ⟨hnone, rfl⟩ | ⟨x, hsome, before, behind, hnames, hnodup, hx⟩
  · split
    · rename_i hm
      refine .inr ⟨name, by simp [hnone], b.ruleNames, [], ?_, b.nodup_ruleNames, hm⟩
      rw [List.map_append]
      rfl
    · exact .inl ⟨hnone, rfl⟩
  · have hrepeats : RepeatsFirst ((rules ++ [(name, f)]).map (·.1)) x :=
      ⟨before, behind ++ [name], by rw [List.map_append, hnames]; simp, hnodup, hx⟩
    split
    · exact .inr ⟨x, by simp [hsome], hrepeats⟩
    · exact .inr ⟨x, hsome, hrepeats⟩

theorem Made.knows {rules : List (String × Factory)} (h : b.Made rules) : b.Knows rules := by
  induction h with
  | new tokens => exact .inl ⟨rfl, rfl⟩
  | rule name f _ ih => exact ih.rule name f
  | skip skip _ ih => exact ih
  | recursionLimit recursionLimit _ ih => exact ih
  | cacheLimit cacheLimit _ ih => exact ih

theorem Made.define {rules : List (String × Factory)} (h : b.Made rules)
    (more : List (String × Factory)) : (b.define more).Made (rules ++ more) := by
  induction more generalizing b rules with
  | nil => rwa [List.append_nil]
  | cons rule more ih =>
    have hmore := ih (h.rule rule.1 rule.2)
    rwa [List.append_assoc] at hmore

/-! ## The outcome -/

/-- What building a parser of tokens, rules and a skip rule has to come to: the defects go before
one another in this order, and without a defect there is a parser. -/
structure Verdict (tokens : List Token) (rules : List (String × Factory)) (skip : Option Factory)
    (result : Except Defect Parser) : Prop where
  /-- The name of the first definition that defines a name again. -/
  duplicate : ∀ name, RepeatsFirst (rules.map (·.1)) name → result = .error (.duplicateRule name)
  /-- The alternation of all tokens. -/
  unreadable : (rules.map (·.1)).Nodup → Regex.parse? (Tokenizer.alternation tokens) = none →
    result = .error (.unreadable (Tokenizer.alternation tokens))
  /-- The first name asked for that is not defined, and the rule whose factory asked for it. -/
  undefined : (rules.map (·.1)).Nodup → Regex.parse? (Tokenizer.alternation tokens) ≠ none →
    ∀ before name rule behind, asksOf rules skip = before ++ (name, rule) :: behind →
      (∀ x ∈ before, x.1 ∈ rules.map (·.1)) → name ∉ rules.map (·.1) →
      result = .error (.undefinedRule name rule)
  built : (rules.map (·.1)).Nodup → Regex.parse? (Tokenizer.alternation tokens) ≠ none →
    (∀ x ∈ asksOf rules skip, x.1 ∈ rules.map (·.1)) →
    ∃ p, result = .ok p ∧ p.ruleNames = rules.map (·.1)
  ok_iff : (∃ p, result = .ok p) ↔
    (rules.map (·.1)).Nodup ∧ Regex.parse? (Tokenizer.alternation tokens) ≠ none ∧
      ∀ x ∈ asksOf rules skip, x.1 ∈ rules.map (·.1)

theorem build_of_duplicate {name : String} (h : b.duplicate = some name) :
    b.build = .error (.duplicateRule name) := by
  unfold build
  rw [h]

theorem build_of_unreadable (h : b.duplicate = none)
    (hpattern : Regex.parse? (Tokenizer.alternation b.tokens) = none) :
    b.build = .error (.unreadable (Tokenizer.alternation b.tokens)) := by
  rw [build_of_distinct h, Tokenizer.ofTokens_of_unreadable hpattern]
  rfl

theorem build_of_undefined (h : b.duplicate = none)
    (hpattern : Regex.parse? (Tokenizer.alternation b.tokens) ≠ none)
    {before behind : List (String × Option String)} {name : String} {rule : Option String}
    (hasks : asksOf b.factories b.skip = before ++ (name, rule) :: behind)
    (hbefore : ∀ x ∈ before, x.1 ∈ b.ruleNames) (hname : name ∉ b.ruleNames) :
    b.build = .error (.undefinedRule name rule) := by
  obtain ⟨t, ht⟩ := Tokenizer.ofTokens_of_readable hpattern b.cacheLimit
  have hfind : (asksOf b.factories b.skip).find? (fun x => x.1 ∉ b.ruleNames)
      = some (name, rule) := by
    rw [List.find?_eq_some_iff_append]
    exact ⟨by simpa using hname, before, behind, hasks, fun x hx => by simpa using hbefore x hx⟩
  rw [build_of_distinct h, ht, hfind]
  rfl

/-- A parser is built just where the definitions are distinct, whatever is asked for is a rule and
the tokens make a pattern. -/
theorem build_eq_ok_iff {p : Parser} : b.build = .ok p ↔
    b.duplicate = none ∧ (∀ x ∈ asksOf b.factories b.skip, x.1 ∈ b.ruleNames) ∧
      ∃ t, Tokenizer.ofTokens b.tokens b.cacheLimit = .ok t ∧
        p = b.definition.linkedBy (.ofList b.ruleNames) t := by
  cases hd : b.duplicate with
  | some name =>
    rw [build_of_duplicate hd]
    exact ⟨nofun, fun h => nomatch h.1⟩
  | none =>
    rw [build_of_distinct hd]
    cases hfind : (asksOf b.factories b.skip).find? fun x => x.1 ∉ b.ruleNames with
    | some x =>
      have hmissing : ¬ ∀ x ∈ asksOf b.factories b.skip, x.1 ∈ b.ruleNames := by
        intro hall
        have hx := List.find?_some hfind
        exact of_decide_eq_true hx (hall x (List.mem_of_find?_eq_some hfind))
      cases Tokenizer.ofTokens b.tokens b.cacheLimit <;>
        exact ⟨nofun, fun h => absurd h.2.1 hmissing⟩
    | none =>
      have hdefined : ∀ x ∈ asksOf b.factories b.skip, x.1 ∈ b.ruleNames := by simpa using hfind
      cases Tokenizer.ofTokens b.tokens b.cacheLimit with
      | error e => exact ⟨nofun, fun ⟨_, _, _, h, _⟩ => nomatch h⟩
      | ok t =>
        constructor
        · intro h
          exact ⟨rfl, hdefined, t, rfl, (Except.ok.inj h).symm⟩
        · rintro ⟨-, -, t, ht, rfl⟩
          cases ht
          rfl

theorem build_of_defined (h : b.duplicate = none)
    (hpattern : Regex.parse? (Tokenizer.alternation b.tokens) ≠ none)
    (hdefined : ∀ x ∈ asksOf b.factories b.skip, x.1 ∈ b.ruleNames) :
    ∃ p, b.build = .ok p ∧ p.ruleNames = b.ruleNames := by
  obtain ⟨t, ht⟩ := Tokenizer.ofTokens_of_readable hpattern b.cacheLimit
  exact ⟨_, build_eq_ok_iff.mpr ⟨h, hdefined, t, ht, rfl⟩, Symbols.names_ofList b.nodup_ruleNames⟩

theorem exists_build_eq_ok_iff : (∃ p, b.build = .ok p) ↔
    b.duplicate = none ∧ Regex.parse? (Tokenizer.alternation b.tokens) ≠ none ∧
      ∀ x ∈ asksOf b.factories b.skip, x.1 ∈ b.ruleNames := by
  constructor
  · rintro ⟨p, hp⟩
    obtain ⟨hnone, hdefined, _⟩ := build_eq_ok_iff.mp hp
    refine ⟨hnone, fun hpattern => ?_, hdefined⟩
    exact nomatch (build_of_unreadable hnone hpattern).symm.trans hp
  · rintro ⟨hnone, hpattern, hdefined⟩
    obtain ⟨p, hp, _⟩ := build_of_defined hnone hpattern hdefined
    exact ⟨p, hp⟩

/-- A builder that knows the definitions comes to the right verdict on them. -/
theorem Knows.verdict {rules : List (String × Factory)} (h : b.Knows rules) :
    Verdict b.tokens rules b.skip b.build := by
  rcases h with ⟨hnone, rfl⟩ | ⟨x, hsome, hx⟩
  · exact
      { duplicate := fun name h => absurd b.nodup_ruleNames h.not_nodup
        unreadable := fun _ hpattern => build_of_unreadable hnone hpattern
        undefined := fun _ hpattern _ _ _ _ hasks hbefore hname =>
          build_of_undefined hnone hpattern hasks hbefore hname
        built := fun _ hpattern hdefined => build_of_defined hnone hpattern hdefined
        ok_iff := exists_build_eq_ok_iff.trans
          (and_congr_left fun _ => iff_of_true hnone b.nodup_ruleNames) }
  · have hresult := build_of_duplicate hsome
    have hrepeated : ¬ (rules.map (·.1)).Nodup := hx.not_nodup
    exact
      { duplicate := fun name h => by rw [hresult, h.eq hx]
        unreadable := fun h => absurd h hrepeated
        undefined := fun h => absurd h hrepeated
        built := fun h => absurd h hrepeated
        ok_iff := ⟨fun ⟨p, hp⟩ => (nomatch hresult.symm.trans hp), fun h => absurd h.1 hrepeated⟩ }

/-- Defining rules leaves the rest of a builder alone. -/
theorem define_eq (rules : List (String × Factory)) : ∀ b : Builder,
    ∃ factories duplicate distinct,
      b.define rules = { b with factories, duplicate, distinct } := by
  induction rules with
  | nil => exact fun b => ⟨b.factories, b.duplicate, b.distinct, rfl⟩
  | cons rule rules ih =>
    intro b
    obtain ⟨factories, duplicate, distinct, h⟩ := ih (b.rule rule.1 rule.2)
    refine ⟨factories, duplicate, distinct, h.trans ?_⟩
    unfold Builder.rule
    split <;> rfl

/-- **The outcome of building.** Whatever rules are defined, in whatever way the builder is made
and whatever else is set, building comes to the one right verdict on the tokens, the rules and the
skip rule. So does building the parser in one step. -/
theorem building_outcome :
    (∀ (b : Builder) (rules : List (String × Factory)), b.Made rules →
      Verdict b.tokens rules b.skip b.build) ∧
    ∀ (tokens : List Token) (rules : List (String × Factory)) (skip : Option Factory),
      Verdict tokens rules skip (createParser tokens rules skip) := by
  refine ⟨fun b rules h => h.knows.verdict, fun tokens rules skip => ?_⟩
  have hmade : Made { ({ tokens : Builder }.define rules) with skip } rules :=
    .skip skip ((Made.new tokens).define rules)
  have hverdict := hmade.knows.verdict
  obtain ⟨_, _, _, hdefine⟩ := define_eq rules { tokens }
  have htokens : ({ tokens : Builder }.define rules).tokens = tokens :=
    congrArg Builder.tokens hdefine
  rwa [htokens] at hverdict

/-- Of two rules that a skip rule misses the first one is reported, and a rule that is defined again
goes before one that is missing. -/
theorem building_outcome_missing :
    ({ ({ tokens := [.literal 0 "a"] : Builder }.rule "A" ⟨["A"], .rule "A"⟩) with
      skip := some ⟨["A", "B", "C"], .rule "B"⟩ } : Builder).build
        = .error (.undefinedRule "B" none) ∧
    createParser [.literal 0 "a"]
      [("A", ⟨["B"], .rule "B"⟩), ("C", ⟨[], .unit⟩), ("A", ⟨[], .unit⟩)] none
        = .error (.duplicateRule "A") := by
  constructor
  · have hmade : Made { ({ tokens := [.literal 0 "a"] : Builder }.rule "A" ⟨["A"], .rule "A"⟩) with
        skip := some ⟨["A", "B", "C"], .rule "B"⟩ } [("A", ⟨["A"], .rule "A"⟩)] :=
      .skip _ (.rule "A" _ (.new _))
    exact (building_outcome.1 _ _ hmade).undefined (by decide) (by decide +kernel)
      [("A", some "A"), ("A", none)] "B" none [("C", none)] rfl (by decide) (by decide)
  · exact (building_outcome.2 _ _ _).duplicate "A" ⟨["A", "C"], [], rfl, by decide, by decide⟩

end Builder

/-! ## Definitions -/

namespace Definition

variable {d : Definition}

theorem firstRepeated_of_append {name : String} {before : List String} (behind : List String)
    (hnodup : before.Nodup) : ∀ {seen : List String}, (∀ x ∈ before, x ∉ seen) →
      (name ∈ before ∨ name ∈ seen) →
      firstRepeated seen (before ++ name :: behind) = some name := by
  induction before with
  | nil =>
    intro seen _ hname
    simp only [List.not_mem_nil, false_or] at hname
    rw [List.nil_append, firstRepeated, if_pos hname]
  | cons x before ih =>
    intro seen hnew hname
    obtain ⟨hx, hnew⟩ := List.forall_mem_cons.mp hnew
    obtain ⟨hnot, hnodup⟩ := List.nodup_cons.mp hnodup
    rw [List.cons_append, firstRepeated, if_neg hx]
    refine ih hnodup (fun y hy hseen => ?_) ?_
    · obtain rfl | hseen := List.mem_cons.mp hseen
      · exact hnot hy
      · exact hnew y hy hseen
    · simpa [or_assoc, or_left_comm] using hname

theorem build_of_repeatsFirst {name : String} (h : Builder.RepeatsFirst d.ruleNames name) :
    d.build = .error (.duplicateRule name) := by
  obtain ⟨before, behind, hnames, hnodup, hmem⟩ := h
  have hfirst : firstRepeated [] d.ruleNames = some name := by
    rw [hnames]
    exact firstRepeated_of_append behind hnodup (fun _ _ => List.not_mem_nil) (.inl hmem)
  rw [build, draft, hfirst]
  rfl

theorem build_of_nodup (h : d.ruleNames.Nodup) :
    d.build = (Tokenizer.ofTokens d.tokens d.cacheLimit).bind fun t =>
      match d.references.find? fun x => x.1 ∉ d.ruleNames with
      | some (name, rule) => .error (.undefinedRule name rule)
      | none => .ok (d.parserWith t) := by
  have hnone : firstRepeated [] d.ruleNames = none :=
    firstRepeated_eq_none h fun _ _ => List.not_mem_nil
  have hresolve : ∀ t, (d.draftWith t).resolve =
      match d.references.find? fun x => x.1 ∉ d.ruleNames with
      | some (name, rule) => .error (.undefinedRule name rule)
      | none => .ok (d.parserWith t) := by
    intro t
    have hdangling : ∀ x : String × Option String,
        (d.draftWith t).isDangling (refTo d.symbols x.1) = decide (x.1 ∉ d.ruleNames) := fun x =>
      decide_eq_decide.mpr (by
        rw [← refTo_lt_iff h x.1, Nat.not_lt, draftWith, List.size_toArray, List.length_map])
    unfold Draft.resolve
    have hreferences : (d.draftWith t).references
        = d.references.map fun (name, rule) => (refTo d.symbols name, rule) := rfl
    rw [hreferences, List.find?_map]
    simp only [Function.comp_def, hdangling]
    cases d.references.find? fun x => x.1 ∉ d.ruleNames with
    | none => rfl
    | some x => rfl
  rw [build, draft, hnone]
  cases ht : Tokenizer.ofTokens d.tokens d.cacheLimit with
  | error e => rfl
  | ok t => exact hresolve t

end Definition

namespace Builder

open Definition (refTo)

variable {b : Builder} {d : Definition}

/-- The builder of a definition has its grammars, unless two rules have one name. -/
theorem definition_ofDefinition {d : Definition}
    (h : (ofDefinition d).factories = d.rules.map fun (name, g) => (name, .ofGrammar g)) :
    (ofDefinition d).definition = d ∧
      asksOf (ofDefinition d).factories (ofDefinition d).skip = d.references := by
  obtain ⟨_, _, _, hdefine⟩ := define_eq (d.rules.map fun (name, g) => (name, .ofGrammar g))
    { tokens := d.tokens, skip := d.skip.map .ofGrammar, recursionLimit := d.recursionLimit,
      cacheLimit := d.cacheLimit }
  have htokens : (ofDefinition d).tokens = d.tokens := congrArg Builder.tokens hdefine
  have hskip : (ofDefinition d).skip = d.skip.map .ofGrammar := congrArg Builder.skip hdefine
  have hlimit : (ofDefinition d).recursionLimit = d.recursionLimit :=
    congrArg Builder.recursionLimit hdefine
  have hcache : (ofDefinition d).cacheLimit = d.cacheLimit := congrArg Builder.cacheLimit hdefine
  constructor
  · rw [definition, htokens, h, hskip, hlimit, hcache]
    simp [Function.comp_def, Factory.ofGrammar]
  · rw [asksOf, h, hskip, List.flatMap_map]
    cases hskip : d.skip <;> simp [Definition.references, hskip, Grammar.referencesOfOption,
      Factory.ofGrammar]

/-- A definition is built as its rules are defined one after another. -/
theorem build_ofDefinition (d : Definition) : (ofDefinition d).build = d.build := by
  have hknows : (ofDefinition d).Knows (d.rules.map fun (name, g) => (name, .ofGrammar g)) :=
    (Made.define (.cacheLimit d.cacheLimit (.recursionLimit d.recursionLimit
      (.skip (d.skip.map .ofGrammar) (.new d.tokens)))) _).knows
  rcases hknows with ⟨hnone, hfactories⟩ | ⟨name, hsome, hrepeats⟩
  · obtain ⟨hdefinition, hasks⟩ := definition_ofDefinition hfactories
    have hnames : (ofDefinition d).ruleNames = d.ruleNames := by
      rw [← ruleNames_definition, hdefinition]
    have hnodup : d.ruleNames.Nodup := hnames ▸ nodup_ruleNames _
    have htokens : (ofDefinition d).tokens = d.tokens := congrArg Definition.tokens hdefinition
    have hcache : (ofDefinition d).cacheLimit = d.cacheLimit :=
      congrArg Definition.cacheLimit hdefinition
    rw [build_of_distinct hnone, Definition.build_of_nodup hnodup, hasks, hdefinition, hnames,
      htokens, hcache]
    refine congrArg (Except.bind _) (funext fun t => ?_)
    cases hfind : d.references.find? fun x => x.1 ∉ d.ruleNames with
    | some x => rfl
    | none =>
      have hclosed : d.IsClosed := ⟨hnodup, by simpa using hfind⟩
      rw [Definition.parserWith, hclosed.symbols]
  · have hnames : (d.rules.map fun (name, g) => (name, Factory.ofGrammar g)).map (·.1)
        = d.ruleNames := by
      rw [List.map_map]
      rfl
    rw [hnames] at hrepeats
    rw [build_of_duplicate hsome, Definition.build_of_repeatsFirst hrepeats]

end Builder

end Chunkwise
