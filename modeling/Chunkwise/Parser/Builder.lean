import Chunkwise.Parser.Build

/-! Builders. The rules of a parser are defined one after another, each by a factory that makes
its grammar. The factories run when all rules have their names: a factory gets a handle for every
name that it asks for, defined or not, and once the last factory has run the handles are
checked. -/

namespace Chunkwise

/-- How a grammar is made: the names that are asked for on the way, in this order, and the grammar
that comes of it. -/
structure Factory where
  asks : List String := []
  grammar : Grammar String

/-- Asks for what the grammar refers to, in the order written. -/
def Factory.ofGrammar (g : Grammar String) : Factory := ⟨g.references, g⟩

/-- Where factories get their handles from. -/
structure Registry where
  /-- The names of the rules, and then the other names asked for. -/
  symbols : Symbols
  /-- How many rules there are. -/
  defined : Nat
  /-- The rule whose factory runs; the skip rule has no name. -/
  current : Option Symbol := none
  /-- What was asked for, and for which rule. -/
  asked : Array (Symbol × Option Symbol) := #[]

namespace Registry

/-- The registry before any factory has run. -/
def ofNames (names : List String) : Registry :=
  let symbols := Symbols.ofList names
  { symbols, defined := symbols.size }

/-- A handle to the rule of this name, whether there is one or not. -/
def get (r : Registry) (name : String) : RuleRef × Registry :=
  let (symbol, symbols) := r.symbols.intern name
  (⟨symbol, name⟩, { r with symbols, asked := r.asked.push (symbol, r.current) })

/-- Runs a factory. A name that it has asked for has the same handle ever after. -/
def run (r : Registry) (f : Factory) : LinkedGrammar × Registry :=
  let r := f.asks.foldl (fun r name => (r.get name).2) r
  (f.grammar.link fun name => (r.get name).1, r)

/-- Runs the factories of the rules from number `i` on. -/
def runAll (r : Registry) : Nat → List Factory → List LinkedGrammar × Registry
  | _, [] => ([], r)
  | i, f :: rest =>
    let (g, r) := { r with current := some ⟨i⟩ }.run f
    let (gs, r) := r.runAll (i + 1) rest
    (g :: gs, r)

/-- The name that a symbol was handed out for. -/
def nameOf (r : Registry) (symbol : Symbol) : String :=
  (r.symbols.resolve? symbol).getD (Symbols.outOfRange symbol)

/-- The names, unless something was asked for that is no rule. -/
def resolve (r : Registry) : Except Defect Symbols :=
  match r.asked.toList.find? fun (symbol, _) => r.defined ≤ symbol.index with
  | some (symbol, rule) => .error (.undefinedRule (r.nameOf symbol) (rule.map r.nameOf))
  | none => .ok r.symbols

end Registry

/-- A parser that is being described. -/
structure Builder where
  tokens : List Token
  /-- The rules, in the order of their definition. -/
  factories : List (String × Factory) := []
  /-- The first name that was defined for a second time. -/
  duplicate : Option String := none
  skip : Option Factory := none
  recursionLimit : Option Nat := some defaultRecursionLimit
  cacheLimit : Option Nat := none
  /-- No name has two factories. -/
  distinct : (factories.map (·.1)).Nodup := by exact List.nodup_nil

namespace Builder

def ruleNames (b : Builder) : List String := b.factories.map (·.1)

/-- Defines a rule. A name keeps the factory that it was given first. -/
def rule (b : Builder) (name : String) (f : Factory) : Builder :=
  if h : name ∈ b.ruleNames then { b with duplicate := b.duplicate <|> some name }
  else
    { b with
      factories := b.factories ++ [(name, f)]
      distinct := by
        have hnew : ∀ x ∈ b.ruleNames, x ≠ name := fun x hx he => h (he ▸ hx)
        rw [List.map_append, List.nodup_append]
        exact ⟨b.distinct, by simp, by simpa [ruleNames] using hnew⟩ }

/-- Defines one rule after another. -/
def define (b : Builder) (rules : List (String × Factory)) : Builder :=
  rules.foldl (fun b (name, f) => b.rule name f) b

/-- Runs the factories: the grammars of the rules, the skip rule, and the registry that is left. -/
def runFactories (b : Builder) : List LinkedGrammar × Option LinkedGrammar × Registry :=
  let (rules, r) := (Registry.ofNames b.ruleNames).runAll 0 (b.factories.map (·.2))
  let r := { r with current := none }
  match b.skip with
  | none => (rules, none, r)
  | some f =>
    let (skip, r) := r.run f
    (rules, some skip, r)

/-- Builds the parser, unless two rules have one name, the tokens make no pattern or a factory
asks for a rule that is not defined. -/
def build (b : Builder) : Except Defect Parser :=
  match b.duplicate with
  | some name => .error (.duplicateRule name)
  | none =>
    (Tokenizer.ofTokens b.tokens b.cacheLimit).bind fun tokenizer =>
      let (rules, skip, r) := b.runFactories
      r.resolve.map fun symbols =>
        { tokenizer
          symbols
          rules := rules.toArray
          skip
          recursionLimit := b.recursionLimit }

/-- What is needed to build the parser of a definition. -/
def ofDefinition (d : Definition) : Builder :=
  { tokens := d.tokens
    skip := d.skip.map .ofGrammar
    recursionLimit := d.recursionLimit
    cacheLimit := d.cacheLimit : Builder }.define
      (d.rules.map fun (name, g) => (name, .ofGrammar g))

end Builder

/-- The parser of these tokens and rules, within the usual limits. -/
def createParser (tokens : List Token) (rules : List (String × Factory)) (skip : Option Factory) :
    Except Defect Parser :=
  { ({ tokens : Builder }.define rules) with skip }.build

end Chunkwise
