import Chunkwise.Proofs.Linking

/-! Names of rules. Once a parser is built each of its references is to a rule that is defined,
so nothing but the rules has a symbol, and the parser knows just the names of its definition. A
rule has the place in the table that it has in the definition, and a reference to its name leads
there. -/

namespace Chunkwise

namespace Symbols

variable {s : Symbols} {names more : List String} {name : String}

theorem get?_eq_none_iff : s.get? name = none ↔ name ∉ s.names.toList := by
  simp [get?]

/-- A symbol below the number of the names that stand first is one of theirs. -/
theorem mem_of_lt (hnodup : names.Nodup) {symbol : Symbol}
    (h : (ofList (names ++ more)).get? name = some symbol) (hlt : symbol.index < names.length) :
    name ∈ names := by
  obtain ⟨rest, hrest⟩ := prefix_ofList hnodup more
  rw [get?_eq_some_iff, ← hrest, List.idxOf?_eq_some_iff] at h
  obtain ⟨_, he, _⟩ := h
  rw [List.getElem_append_left hlt] at he
  exact he ▸ List.getElem_mem hlt

theorem length_le_size_ofList (hnodup : names.Nodup) (more : List String) :
    names.length ≤ (ofList (names ++ more)).size := (prefix_ofList hnodup more).length_le

/-- Names that are there already add nothing. -/
theorem foldl_intern_of_mem (h : ∀ name ∈ more, name ∈ s.names.toList) :
    more.foldl (fun (s : Symbols) name => (s.intern name).2) s = s := by
  induction more with
  | nil => rfl
  | cons name more ih =>
    rw [List.foldl_cons, intern_of_mem (h name List.mem_cons_self)]
    exact ih fun x hx => h x (List.mem_cons_of_mem _ hx)

theorem names_ofList (hnodup : names.Nodup) : (ofList names).names.toList = names :=
  foldl_intern_of_nodup names {} (by simpa using hnodup)

theorem ofList_append (hnodup : names.Nodup) (h : ∀ name ∈ more, name ∈ names) :
    ofList (names ++ more) = ofList names := by
  have hmore : ∀ name ∈ more, name ∈ (ofList names).names.toList := by
    rwa [names_ofList hnodup]
  rw [ofList, List.foldl_append]
  exact foldl_intern_of_mem hmore

end Symbols

namespace Definition

variable {d : Definition} {p : Parser}

/-- What a definition is when a parser is built of it: each rule has a name of its own, and
each reference is to one of them. -/
structure IsClosed (d : Definition) : Prop where
  nodup : d.ruleNames.Nodup
  defined : ∀ x ∈ d.references, x.1 ∈ d.ruleNames

/-- The draft of a definition whose tokens make up the tokenizer. -/
def draftWith (d : Definition) (t : Tokenizer) : Draft where
  tokenizer := t
  symbols := d.symbols
  rules := (d.rules.map fun (_, g) => g.link (refTo d.symbols)).toArray
  skip := d.skip.map (·.link (refTo d.symbols))
  recursionLimit := d.recursionLimit
  references := d.references.map fun (name, rule) => (refTo d.symbols name, rule)

/-- Where no entry is made yet, none is wrong. -/
theorem genuine_nil (symbols : Symbols) {symbol : Symbol} {entry : LinkedGrammar} {name : String}
    (h : [].lookup symbol = some entry) (_ : symbols.get? name = some symbol) :
    entry = .entryOf symbol name :=
  nomatch h

/-- The parser of the grammars of a definition, linked by these names. -/
def linkedBy (d : Definition) (symbols : Symbols) (t : Tokenizer) : Parser where
  tokenizer := t
  symbols
  rules := (d.rules.map (·.2.link (refTo symbols))).toArray
  skip := d.skip.map (·.link (refTo symbols))
  recursionLimit := d.recursionLimit
  entries := ⟨[], genuine_nil symbols⟩

/-- The parser of a definition whose tokens make up the tokenizer. -/
def parserWith (d : Definition) (t : Tokenizer) : Parser := d.linkedBy d.symbols t

theorem nodup_of_firstRepeated {seen names : List String}
    (h : firstRepeated seen names = none) : names.Nodup ∧ ∀ name ∈ names, name ∉ seen := by
  induction names generalizing seen with
  | nil => exact ⟨List.nodup_nil, nofun⟩
  | cons name names ih =>
    unfold firstRepeated at h
    by_cases hseen : name ∈ seen
    · rw [if_pos hseen] at h
      cases h
    rw [if_neg hseen] at h
    obtain ⟨hnodup, hnew⟩ := ih h
    refine ⟨List.nodup_cons.mpr ⟨fun hm => hnew name hm List.mem_cons_self, hnodup⟩, ?_⟩
    exact List.forall_mem_cons.mpr ⟨hseen, fun x hx hs => hnew x hx (List.mem_cons_of_mem _ hs)⟩

theorem firstRepeated_eq_none {seen names : List String} (hnodup : names.Nodup)
    (hnew : ∀ name ∈ names, name ∉ seen) : firstRepeated seen names = none := by
  induction names generalizing seen with
  | nil => rfl
  | cons name names ih =>
    obtain ⟨hname, hnames⟩ := List.forall_mem_cons.mp hnew
    obtain ⟨hnot, hnodup⟩ := List.nodup_cons.mp hnodup
    rw [firstRepeated, if_neg hname]
    refine ih hnodup fun x hx hseen => ?_
    obtain rfl | hseen := List.mem_cons.mp hseen
    · exact hnot hx
    · exact hnames x hx hseen

/-- Where names that differ stand first, a reference leads below their number just if it is to
one of them. -/
theorem index_refTo_lt_iff {names : List String} (hnodup : names.Nodup) (more : List String)
    (name : String) :
    (refTo (.ofList (names ++ more)) name).symbol.index < names.length ↔ name ∈ names := by
  constructor
  · intro h
    cases hsymbol : (Symbols.ofList (names ++ more)).get? name with
    | some symbol =>
      rw [refTo, hsymbol] at h
      exact Symbols.mem_of_lt hnodup hsymbol h
    | none =>
      rw [refTo, hsymbol] at h
      exact absurd h (Nat.not_lt_of_le (Symbols.length_le_size_ofList hnodup more))
  · intro hm
    obtain ⟨i, hi⟩ := List.mem_iff_getElem?.mp hm
    rw [refTo, Symbols.get?_ofList hnodup more hi]
    exact (List.getElem?_eq_some_iff.mp hi).1

/-- A reference leads below the number of the rules just if it is to a rule. -/
theorem refTo_lt_iff (hnodup : d.ruleNames.Nodup) (name : String) :
    (refTo d.symbols name).symbol.index < d.rules.length ↔ name ∈ d.ruleNames := by
  have hlength : d.ruleNames.length = d.rules.length := List.length_map _
  rw [← hlength]
  exact index_refTo_lt_iff hnodup _ name

/-- Nothing dangles just if each reference is to a rule. -/
theorem find_dangling_eq_none (hnodup : d.ruleNames.Nodup) (t : Tokenizer) :
    (d.draftWith t).references.find? ((d.draftWith t).isDangling ·.1) = none ↔
      ∀ x ∈ d.references, x.1 ∈ d.ruleNames := by
  rw [List.find?_eq_none]
  simp only [draftWith, Draft.isDangling, List.mem_map, List.size_toArray, List.length_map,
    forall_exists_index, and_imp, forall_apply_eq_imp_iff₂, decide_eq_true_eq, Nat.not_le]
  exact forall₂_congr fun x _ => refTo_lt_iff hnodup x.1

/-- A parser is built just of a definition that is closed and whose tokens make a pattern. -/
theorem build_eq_ok_iff : d.build = .ok p ↔
    d.IsClosed ∧ ∃ t, Tokenizer.ofTokens d.tokens d.cacheLimit = .ok t ∧ p = d.parserWith t := by
  unfold build draft
  cases hrepeated : firstRepeated [] d.ruleNames with
  | some name =>
    refine ⟨nofun, fun ⟨hclosed, _⟩ => ?_⟩
    rw [firstRepeated_eq_none hclosed.nodup fun _ _ => List.not_mem_nil] at hrepeated
    cases hrepeated
  | none =>
    have hnodup := (nodup_of_firstRepeated hrepeated).1
    cases ht : Tokenizer.ofTokens d.tokens d.cacheLimit with
    | error e => exact ⟨nofun, fun ⟨_, t, h, _⟩ => nomatch h⟩
    | ok t =>
      have hresolve : (d.draftWith t).resolve = .ok p ↔
          (d.draftWith t).references.find? ((d.draftWith t).isDangling ·.1) = none ∧
          d.parserWith t = p := by
        unfold Draft.resolve
        cases hfind : (d.draftWith t).references.find? ((d.draftWith t).isDangling ·.1) with
        | some x => exact ⟨nofun, fun h => nomatch h.1⟩
        | none => exact ⟨fun h => ⟨rfl, Except.ok.inj h⟩, fun h => congrArg Except.ok h.2⟩
      refine hresolve.trans ?_
      rw [find_dangling_eq_none hnodup]
      constructor
      · rintro ⟨hdefined, rfl⟩
        exact ⟨⟨hnodup, hdefined⟩, t, rfl, rfl⟩
      · rintro ⟨hclosed, t', ht', rfl⟩
        cases ht'
        exact ⟨hclosed.defined, rfl⟩

/-- No name has a symbol but those of the rules. -/
theorem IsClosed.symbols (h : d.IsClosed) : d.symbols = .ofList d.ruleNames :=
  Symbols.ofList_append h.nodup fun _ hm => by
    obtain ⟨x, hx, rfl⟩ := List.mem_map.mp hm
    exact h.defined x hx

end Definition

namespace Parser

variable {d : Definition} {p : Parser}

/-- What a parser has of the grammars that it was built of, whatever it has parsed since: they are
linked by the names of the rules, and texts are split by the tokens. -/
structure IsMadeOf (p : Parser) (d : Definition) : Prop where
  nodup : d.ruleNames.Nodup
  symbols : p.symbols = .ofList d.ruleNames
  rules : p.rules = (d.rules.map (·.2.link (Definition.refTo p.symbols))).toArray
  skip : p.skip = d.skip.map (·.link (Definition.refTo p.symbols))
  recursionLimit : p.recursionLimit = d.recursionLimit
  isTruthful : p.tokenizer.IsTruthful
  program : ∃ t, Tokenizer.ofTokens d.tokens d.cacheLimit = .ok t ∧
    p.tokenizer.program = t.program

theorem isMadeOf_linkedBy (hnodup : d.ruleNames.Nodup) {t : Tokenizer}
    (ht : Tokenizer.ofTokens d.tokens d.cacheLimit = .ok t) :
    (d.linkedBy (.ofList d.ruleNames) t).IsMadeOf d where
  nodup := hnodup
  symbols := rfl
  rules := rfl
  skip := rfl
  recursionLimit := rfl
  isTruthful := Tokenizer.ofTokens_isTruthful ht
  program := ⟨t, ht, rfl⟩

namespace IsMadeOf

/-- A parse changes nothing but what the tokenizer remembers and which entries are made. -/
theorem parse (h : p.IsMadeOf d) (name text : String) (trace : Option Trace) :
    (p.parse name text trace).2.IsMadeOf d := by
  cases hentry : p.entry? name with
  | none => rwa [parse_of_unknown hentry]
  | some entry =>
    obtain ⟨entries, hparse⟩ := parse_of_entry hentry text trace
    obtain ⟨t, ht, hprogram⟩ := h.program
    rw [hparse]
    exact ⟨h.nodup, h.symbols, h.rules, h.skip, h.recursionLimit,
      (Tokenizer.tokenize_spec h.isTruthful text).2,
      t, ht, (p.tokenizer.tokenize_program text).trans hprogram⟩

theorem ruleNames (h : p.IsMadeOf d) : p.ruleNames = d.ruleNames := by
  rw [Parser.ruleNames, h.symbols, Symbols.names_ofList h.nodup]

/-- A rule has the place in the table that it has in the definition, and its name leads there. -/
theorem rule (h : p.IsMadeOf d) {name : String} {g : Grammar String} (hm : (name, g) ∈ d.rules) :
    p.symbols.get? name = some (Definition.refTo p.symbols name).symbol ∧
    p.rules[(Definition.refTo p.symbols name).symbol.index]?
      = some (g.link (Definition.refTo p.symbols)) := by
  obtain ⟨i, hi⟩ := List.mem_iff_getElem?.mp hm
  have hname : d.ruleNames[i]? = some name := by
    rw [Definition.ruleNames, List.getElem?_map, hi]
    rfl
  have hsymbol : p.symbols.get? name = some ⟨i⟩ := by
    rw [h.symbols, ← List.append_nil d.ruleNames]
    exact Symbols.get?_ofList h.nodup [] hname
  have href : Definition.refTo p.symbols name = ⟨⟨i⟩, name⟩ := by
    rw [Definition.refTo, hsymbol, Option.getD_some]
  rw [href, h.rules, List.getElem?_toArray, List.getElem?_map, hi]
  exact ⟨hsymbol, rfl⟩

/-- Whatever was parsed before, a text is split by the tokens of the definition. -/
theorem tokenize_eq (h : p.IsMadeOf d) : ∃ t,
    Tokenizer.ofTokens d.tokens d.cacheLimit = .ok t ∧
      ∀ text, (p.tokenizer.tokenize text).1 = t.split text := by
  obtain ⟨t, ht, hprogram⟩ := h.program
  refine ⟨t, ht, fun text => ?_⟩
  rw [(Tokenizer.tokenize_spec h.isTruthful text).1, Tokenizer.split, hprogram]
  rfl

/-- The names that a parser does not know are those that no rule has. -/
theorem entry?_eq_none_iff (h : p.IsMadeOf d) {name : String} :
    p.entry? name = none ↔ name ∉ d.ruleNames := by
  rw [← h.ruleNames]
  exact Option.map_eq_none_iff.trans Symbols.get?_eq_none_iff

end IsMadeOf

theorem ComesFrom.isClosed (h : ComesFrom d p) : d.IsClosed := by
  induction h with
  | built h => exact (Definition.build_eq_ok_iff.mp h).1
  | parsed _ _ _ _ ih => exact ih

theorem ComesFrom.isMadeOf (h : ComesFrom d p) : p.IsMadeOf d := by
  induction h with
  | built h =>
    obtain ⟨hclosed, t, ht, rfl⟩ := Definition.build_eq_ok_iff.mp h
    rw [Definition.parserWith, hclosed.symbols]
    exact isMadeOf_linkedBy hclosed.nodup ht
  | parsed name text trace _ ih => exact ih.parse name text trace

theorem ComesFrom.symbols (h : ComesFrom d p) : p.symbols = d.symbols :=
  h.isMadeOf.symbols.trans h.isClosed.symbols.symm

/-- The result of a parse rests on the rules and on the chunks of the text. -/
theorem fst_parse_congr {q : Parser} (hsymbols : p.symbols = q.symbols) (hrules : p.rules = q.rules)
    (hskip : p.skip = q.skip) (hlimit : p.recursionLimit = q.recursionLimit) {text : String}
    (hchunks : (p.tokenizer.tokenize text).1 = (q.tokenizer.tokenize text).1) (name : String)
    (trace : Option Trace) : (p.parse name text trace).1 = (q.parse name text trace).1 := by
  have hentry : p.entry? name = q.entry? name := by unfold entry?; rw [hsymbols]
  cases hq : q.entry? name with
  | none => rw [parse_of_unknown (hentry.trans hq), parse_of_unknown hq]
  | some entry =>
    rw [fst_parse (hentry.trans hq), fst_parse hq]
    unfold run runWith start
    rw [hchunks, hrules, hskip, hlimit]

end Parser

end Chunkwise
