import Chunkwise.Chunks.Tokenizer
import Chunkwise.Grammar.Run
import Chunkwise.Report.SyntaxError

/-! Parsers: rules that refer to each other, the tokens that cut the text, and a
skip rule for the whole grammar. A parse matches all of its text. -/

namespace Chunkwise

/-- Why a parse gives no value. -/
inductive ParseError where
  /-- The text does not match the grammar. -/
  | mismatch (e : SyntaxError)
  /-- The grammar is broken. -/
  | defect (d : Defect)
  deriving DecidableEq, Repr

namespace ParseError

def message : ParseError → String
  | .mismatch e => e.display
  | .defect d => d.message

def isDefect : ParseError → Bool
  | .mismatch _ => false
  | .defect _ => true

end ParseError

/-- What a walk amounts to once it is over. A defect wins over everything else, and
a failure is reported where the parse got deepest. -/
def Context.finish {σ α : Type} (c : Context σ) : Outcome α → Except ParseError α
  | .success v =>
    match c.fatal with
    | some d => .error (.defect d)
    | none => .ok v
  | .failure f =>
    match c.fatal with
    | some d => .error (.defect d)
    | none =>
      let deepest := match c.deepest with
        | some d => if f.position ≤ d.position then d else f
        | none => f
      .error (.mismatch (.ofFailure c.chunks deepest))

/-- The entry of a rule: the rule, followed by the end of the input. -/
def LinkedGrammar.entryOf (symbol : Symbol) (name : String) : LinkedGrammar :=
  .map (Value.pick 0) (.sequence [.rule ⟨symbol, name⟩, .consume .eof])

/-- The entries that a parser has made, by symbol. What stands there for the symbol of a name
is the entry of the rule of that name. -/
structure Entries (symbols : Symbols) where
  made : List (Symbol × LinkedGrammar) := []
  genuine : ∀ {symbol entry name}, made.lookup symbol = some entry →
    symbols.get? name = some symbol → entry = .entryOf symbol name := by nofun

namespace Entries

variable {symbols : Symbols}

/-- The entries with that of one more rule. -/
def add (es : Entries symbols) {symbol : Symbol} {name : String}
    (h : symbols.get? name = some symbol) : Entries symbols where
  made := (symbol, .entryOf symbol name) :: es.made
  genuine := by
    intro symbol' entry name' hmade hname'
    rw [List.lookup_cons] at hmade
    split at hmade
    · rename_i hsame
      obtain rfl := beq_iff_eq.mp hsame
      rw [← Option.some.inj hmade, Symbols.get?_inj h hname']
    · exact es.genuine hmade hname'

end Entries

structure Parser where
  tokenizer : Tokenizer
  /-- The names of the rules, in the order of their definition. -/
  symbols : Symbols
  rules : RuleTable
  skip : Option LinkedGrammar
  recursionLimit : Option Nat
  entries : Entries symbols := {}

namespace Parser

def ruleNames (p : Parser) : List String := p.symbols.names.toList

/-- The rule of this name, followed by the end of the input. -/
def entry? (p : Parser) (name : String) : Option LinkedGrammar :=
  (p.symbols.get? name).map fun symbol => .entryOf symbol name

/-- The entry of the rule of this name, and the entries made so far. It is made for the first
parse that asks for it. -/
def takeEntry (p : Parser) (name : String) : Option (LinkedGrammar × Entries p.symbols) :=
  match h : p.symbols.get? name with
  | none => none
  | some symbol =>
    match p.entries.made.lookup symbol with
    | some entry => some (entry, p.entries)
    | none => some (.entryOf symbol name, p.entries.add h)

/-- The context in which a parse of these chunks starts. -/
def start (p : Parser) (chunks : Chunks) (trace : Option Trace) : Context LinkedGrammar :=
  { chunks, skip := p.skip, recursionLimit := p.recursionLimit, trace }

/-- The result of a parse and its trace. -/
abbrev Result := Except ParseError Value × Option Trace

/-- Runs an entry in at most `fuel` steps. -/
def runWith (p : Parser) (fuel : Nat) (entry : LinkedGrammar) (chunks : Chunks)
    (trace : Option Trace) : Option Result := do
  let (o, c) ← Grammar.run p.rules fuel entry (p.start chunks trace)
  some (c.finish o, c.trace)

/-- Runs an entry with steps enough. -/
def run (p : Parser) (entry : LinkedGrammar) (chunks : Chunks) (trace : Option Trace) :
    Option Result :=
  p.runWith (Grammar.enoughFuel p.rules (p.start chunks trace) entry) entry chunks trace

/-- Parses all of a text as the rule of this name; the parser remembers the chunks
of the text. Nothing is read for a rule that it does not have. -/
def parse (p : Parser) (name text : String) (trace : Option Trace) : Option Result × Parser :=
  match p.takeEntry name with
  | none => (some (.error (.defect (.unknownRule name)), trace), p)
  | some (entry, entries) =>
    let (chunks, tokenizer) := p.tokenizer.tokenize text
    (p.run entry chunks trace, { p with tokenizer, entries })

/-- Whether an entry is made or was made before, it is that of the rule. -/
theorem takeEntry_eq {p : Parser} {name : String} {entry : LinkedGrammar}
    (h : p.entry? name = some entry) :
    ∃ entries, p.takeEntry name = some (entry, entries) := by
  obtain ⟨symbol, hsymbol, rfl⟩ := Option.map_eq_some_iff.mp h
  unfold takeEntry
  split
  · simp_all
  · rename_i symbol' hsymbol'
    obtain rfl : symbol = symbol' := Option.some.inj (hsymbol.symm.trans hsymbol')
    split
    · rename_i entry hmade
      exact ⟨p.entries, by rw [p.entries.genuine hmade hsymbol]⟩
    · exact ⟨_, rfl⟩

/-- A parse runs the entry of its rule over the chunks of its text. -/
theorem parse_of_entry {p : Parser} {name : String} {entry : LinkedGrammar}
    (h : p.entry? name = some entry) (text : String) (trace : Option Trace) :
    ∃ entries, p.parse name text trace = (p.run entry (p.tokenizer.tokenize text).1 trace,
      { p with entries, tokenizer := (p.tokenizer.tokenize text).2 }) := by
  obtain ⟨entries, htake⟩ := takeEntry_eq h
  refine ⟨entries, ?_⟩
  rw [parse, htake]

theorem fst_parse {p : Parser} {name : String} {entry : LinkedGrammar}
    (h : p.entry? name = some entry) (text : String) (trace : Option Trace) :
    (p.parse name text trace).1 = p.run entry (p.tokenizer.tokenize text).1 trace := by
  obtain ⟨entries, hparse⟩ := parse_of_entry h text trace
  rw [hparse]

/-- Nothing happens to the parser when it is asked for a rule that it does not have. -/
theorem parse_of_unknown {p : Parser} {name : String} (h : p.entry? name = none)
    (text : String) (trace : Option Trace) :
    p.parse name text trace = (some (.error (.defect (.unknownRule name)), trace), p) := by
  have hnone : p.symbols.get? name = none := Option.map_eq_none_iff.mp h
  have htake : p.takeEntry name = none := by
    unfold takeEntry
    split
    · rfl
    · simp_all
  rw [parse, htake]

end Parser

end Chunkwise
