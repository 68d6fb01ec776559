import Chunkwise.Parser.Basic

/-! Building a parser. The names of all rules are known before the first grammar is
linked, so rules may be defined in any order; a reference to a rule that is not
defined is reported once everything is linked. -/

namespace Chunkwise

/-- How deeply rules may be nested unless something else is said. -/
def defaultRecursionLimit : Nat := 512

/-- A parser as it is described. -/
structure Definition where
  /-- The tokens that cut the text, in order of preference. -/
  tokens : List Token
  rules : List (String × Grammar String)
  skip : Option (Grammar String) := none
  recursionLimit : Option Nat := some defaultRecursionLimit
  cacheLimit : Option Nat := none

/-- A parser all of whose grammars are linked, perhaps to rules that do not exist. -/
structure Draft where
  tokenizer : Tokenizer
  /-- The names of the defined rules, and then the other names referred to. -/
  symbols : Symbols
  rules : RuleTable
  skip : Option LinkedGrammar
  recursionLimit : Option Nat
  /-- Every reference, with the rule that makes it; the skip rule has no name. -/
  references : List (RuleRef × Option String)

namespace Definition

/-- The first name that occurs for a second time, given the names before. -/
def firstRepeated (seen : List String) : List String → Option String
  | [] => none
  | name :: rest => if name ∈ seen then some name else firstRepeated (name :: seen) rest

def ruleNames (d : Definition) : List String := d.rules.map (·.1)

/-- Every name referred to, with the rule that does: rule by rule, and the skip
rule last. -/
def references (d : Definition) : List (String × Option String) :=
  d.rules.flatMap (fun (rule, g) => g.references.map (·, some rule))
    ++ (Grammar.referencesOfOption d.skip).map (·, none)

/-- The defined names come first, so a symbol below their number is a rule's. -/
def symbols (d : Definition) : Symbols :=
  .ofList (d.ruleNames ++ d.references.map (·.1))

/-- The reference to a name that is interned. -/
def refTo (symbols : Symbols) (name : String) : RuleRef :=
  ⟨(symbols.get? name).getD ⟨symbols.size⟩, name⟩

/-- Links every grammar, unless two rules have one name or the tokens make no
pattern. -/
def draft (d : Definition) : Except Defect Draft :=
  match firstRepeated [] d.ruleNames with
  | some name => .error (.duplicateRule name)
  | none =>
    (Tokenizer.ofTokens d.tokens d.cacheLimit).map fun tokenizer =>
      let symbols := d.symbols
      let link := Grammar.link (refTo symbols)
      { tokenizer
        symbols
        rules := (d.rules.map fun (_, g) => link g).toArray
        skip := d.skip.map link
        recursionLimit := d.recursionLimit
        references := d.references.map fun (name, rule) => (refTo symbols name, rule) }

end Definition

namespace Draft

/-- Whether a reference is to a rule that is not defined. -/
def isDangling (d : Draft) (r : RuleRef) : Bool := d.rules.size ≤ r.symbol.index

/-- The parser, unless a rule is referred to but not defined. -/
def resolve (d : Draft) : Except Defect Parser :=
  match d.references.find? (d.isDangling ·.1) with
  | some (r, rule) => .error (.undefinedRule r.name rule)
  | none => .ok {
      tokenizer := d.tokenizer
      symbols := d.symbols
      rules := d.rules
      skip := d.skip
      recursionLimit := d.recursionLimit }

end Draft

def Definition.build (d : Definition) : Except Defect Parser := d.draft.bind Draft.resolve

end Chunkwise
