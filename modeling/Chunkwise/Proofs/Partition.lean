import Chunkwise.Parser.Build
import Chunkwise.Proofs.Leftmost
import Chunkwise.Proofs.Scanning

/-! The chunks of a text make up the text. A tokenizer searches for the first match from a
place on, which lies between that place and the end of the text, so the cuts around matches
leave nothing out and nothing twice, and are those that trying every place would give. What a
tokenizer remembers is what it would cut, however many texts it has cut before. -/

namespace Chunkwise

/-! ## Splitting -/

namespace Tokenizer

/-- Where the tokens are found in a text. -/
def searchIn (t : Tokenizer) (text : String) (p : Nat) : Option (Nat × Nat) :=
  t.program.bind fun program => program.search text.toList.toArray p

/-- The matches of the tokens in a text. -/
def matching (t : Tokenizer) (text : String) : Matching text.length where
  stop? q := t.program.bind fun program => program.matchAt text.toList.toArray q
  within := by
    intro q stop hq h
    obtain ⟨program, _, h⟩ := Option.bind_eq_some_iff.mp h
    rw [← size_toArray_toList] at hq ⊢
    exact Regex.Program.matchAt_place hq h

/-- A tokenizer for the characters of a set cuts around each of them. -/
theorem stop?_one {t : Tokenizer} {set : Text.Intervals}
    (h : t.program = some (Regex.compile (.one set))) {text : String} {q : Nat}
    (hq : q ≤ text.length) :
    (t.matching text).stop? q
      = if Regex.after set.has text.toList.toArray q then some (q + 1) else none := by
  rw [← size_toArray_toList] at hq
  simp only [matching, h, Option.bind_some]
  exact Regex.Program.matchAt_one hq set

/-- What a tokenizer finds is the match at the first of the places where one starts. -/
theorem searchIn_findsFirst (t : Tokenizer) (text : String) :
    (t.matching text).FindsFirst (t.searchIn text) where
  found := by
    intro p start stop hp h
    obtain ⟨program, hprogram, h⟩ := Option.bind_eq_some_iff.mp h
    simp only [matching, hprogram, Option.bind_some]
    rw [← size_toArray_toList] at hp ⊢
    exact (Regex.Program.searchFrom_spec (by omega) Regex.Program.dead_empty).1 h
  nothing := by
    intro p hp h
    cases hprogram : t.program with
    | none => simp [matching, hprogram]
    | some program =>
      simp only [matching, searchIn, hprogram, Option.bind_some] at h ⊢
      rw [← size_toArray_toList] at hp ⊢
      exact (Regex.Program.searchFrom_spec (by omega) Regex.Program.dead_empty).2 h

theorem searchIn_staysWithin (t : Tokenizer) (text : String) :
    StaysWithin text.length (t.searchIn text) := (t.searchIn_findsFirst text).staysWithin

/-- A text is split into what the loop cuts. -/
theorem split_eq_cut (t : Tokenizer) (text : String) :
    t.split text
      = Chunks.cut text (cuts (t.searchIn text) text.length (2 * text.length + 1) 0 0) := by
  unfold split searchIn
  cases t.program with
  | some program =>
    rw [← size_toArray_toList]
    rfl
  | none =>
    have hnone : cuts (fun _ => none) text.length (2 * text.length + 1) 0 0
        = [(0, text.length)] := by
      unfold cuts
      split <;> rfl
    simp only [Option.bind_none, hnone, Chunks.cut, List.map_cons, List.map_nil, slice_whole]
    rfl

theorem split_partitions (t : Tokenizer) (text : String) :
    ∃ pieces, Cutting (t.searchIn text) text.length 0 0 pieces ∧
      (t.split text).Partitions text pieces := by
  have hcut := cuts_cutting_whole (t.searchIn_staysWithin text)
  rw [split_eq_cut]
  exact ⟨_, hcut, Chunks.partitions_of_cutting (t.searchIn_staysWithin text) hcut⟩

theorem split_partitions_scan (t : Tokenizer) (text : String) :
    (t.split text).Partitions text ((t.matching text).scan 0 0) := by
  obtain ⟨pieces, hcut, hsplit⟩ := t.split_partitions text
  rwa [(t.searchIn_findsFirst text).scan_eq hcut]

theorem text_split (t : Tokenizer) (text : String) : (t.split text).text = text := by
  obtain ⟨_, _, h⟩ := t.split_partitions text
  exact h.whole

/-- Even the empty text has a chunk. -/
theorem size_split_pos (t : Tokenizer) (text : String) : 0 < (t.split text).size := by
  obtain ⟨_, _, h⟩ := t.split_partitions text
  have := h.odd
  have := h.size
  omega

/-! ## Memory -/

/-- What is remembered of a text are its chunks. -/
def IsTruthful (t : Tokenizer) : Prop :=
  ∀ text chunks, t.cache.lookup text = some chunks → chunks = t.split text

theorem ofTokens_isTruthful {tokens : List Token} {cacheLimit : Option Nat} {t : Tokenizer}
    (h : ofTokens tokens cacheLimit = .ok t) : t.IsTruthful := by
  have hcache : t.cache = [] := by
    unfold ofTokens at h
    dsimp only at h
    split at h
    · cases h; rfl
    · split at h
      · cases h; rfl
      · cases h
  intro text chunks hl
  rw [hcache] at hl
  cases hl

theorem remember_isTruthful {t : Tokenizer} (ht : t.IsTruthful) (text : String) :
    (t.remember text (t.split text)).IsTruthful := by
  -- the memory is what it was or was emptied, and perhaps holds the new text besides
  have hold : ∀ {full : Bool} {text' chunks},
      (if full then [] else t.cache).lookup text' = some chunks → chunks = t.split text' := by
    intro full text' chunks h
    cases full with
    | true => cases h
    | false => exact ht text' chunks h
  intro text' chunks h
  show chunks = t.split text'
  unfold remember at h
  dsimp only at h
  split at h
  · exact hold h
  · rw [List.lookup_cons] at h
    split at h
    · rename_i he
      cases h
      rw [beq_iff_eq.mp he]
    · exact hold h

/-- A truthful tokenizer gives the chunks of a text, and stays truthful. -/
theorem tokenize_spec {t : Tokenizer} (ht : t.IsTruthful) (text : String) :
    (t.tokenize text).1 = t.split text ∧ (t.tokenize text).2.IsTruthful := by
  unfold tokenize
  split
  · rename_i chunks h
    exact ⟨ht text chunks h, ht⟩
  · exact ⟨rfl, remember_isTruthful ht text⟩

/-- The tokenizer once it has split these texts too. -/
def after (t : Tokenizer) (texts : List String) : Tokenizer :=
  texts.foldl (fun t text => (t.tokenize text).2) t

theorem tokenize_program (t : Tokenizer) (text : String) :
    (t.tokenize text).2.program = t.program := by
  unfold tokenize
  split <;> rfl

theorem after_spec {t : Tokenizer} (ht : t.IsTruthful) (texts : List String) :
    (t.after texts).program = t.program ∧ (t.after texts).IsTruthful := by
  unfold after
  induction texts generalizing t with
  | nil => exact ⟨rfl, ht⟩
  | cons text texts ih =>
    obtain ⟨hprogram, htruthful⟩ := ih (tokenize_spec ht text).2
    exact ⟨hprogram.trans (t.tokenize_program text), htruthful⟩

/-- Whatever was split before, a text is split in the same way. -/
theorem tokenize_after {tokens : List Token} {cacheLimit : Option Nat} {t : Tokenizer}
    (h : ofTokens tokens cacheLimit = .ok t) (texts : List String) (text : String) :
    ((t.after texts).tokenize text).1 = t.split text := by
  obtain ⟨hprogram, htruthful⟩ := after_spec (ofTokens_isTruthful h) texts
  rw [(tokenize_spec htruthful text).1, split, hprogram, split]

/-- **Splitting ends and loses nothing.** Whatever a search finds, as long as it lies between
where the search starts and the end of the text: the loop that cuts the text ends, in one way,
and what it cuts are chunks that make up the text. The chunks of a tokenizer, whatever texts it
has split before, come from this loop. -/
theorem splitting_is_lossless :
    (∀ (text : String) (search : Nat → Option (Nat × Nat)), StaysWithin text.length search →
      ∃ pieces, Cutting search text.length 0 0 pieces ∧
        (∀ pieces', Cutting search text.length 0 0 pieces' → pieces' = pieces) ∧
        cuts search text.length (2 * text.length + 1) 0 0 = pieces ∧
        (Chunks.cut text pieces).Partitions text pieces) ∧
    ∀ (tokens : List Token) (cacheLimit : Option Nat) (t : Tokenizer),
      ofTokens tokens cacheLimit = .ok t → ∀ (earlier : List String) (text : String),
      ∃ pieces, Cutting (t.searchIn text) text.length 0 0 pieces ∧
        ((t.after earlier).tokenize text).1.Partitions text pieces := by
  refine ⟨fun text search hsearch => ?_, fun tokens cacheLimit t ht earlier text => ?_⟩
  · have hcut := cuts_cutting_whole hsearch
    exact ⟨_, hcut, fun _ h => hcut.unique h, rfl, Chunks.partitions_of_cutting hsearch hcut⟩
  · rw [tokenize_after ht]
    exact t.split_partitions text

/-- A search that finds something empty everywhere, of which only what stands between two
characters is a cut, the second of them of two bytes; and a list split at its comma. -/
theorem splitting_is_lossless_comma :
    (Chunks.cut "aé" [(0, 1), (1, 1), (1, 2)]).Partitions "aé" [(0, 1), (1, 1), (1, 2)] ∧
    ∃ t, ofTokens [.literal 0 ","] none = .ok t ∧
      ∃ pieces, Cutting (t.searchIn "a,b") "a,b".length 0 0 pieces ∧
        ((t.after ["a"]).tokenize "a,b").1.Partitions "a,b" pieces := by
  obtain ⟨hloop, htokens⟩ := splitting_is_lossless
  refine ⟨?_, ?_⟩
  · have hempty : StaysWithin "aé".length fun p => some (p, p) := by
      intro p start stop hp h
      cases h
      exact ⟨Nat.le_refl p, Nat.le_refl p, hp⟩
    obtain ⟨pieces, _, _, rfl, h⟩ := hloop "aé" _ hempty
    exact h
  · obtain ⟨t, ht⟩ : ∃ t, ofTokens [.literal 0 ","] none = .ok t :=
      ⟨_, by with_unfolding_all rfl⟩
    exact ⟨t, ht, htokens _ _ t ht ["a"] "a,b"⟩

/-- **Splitting is scanning.** Where a search finds the match at the first place possible, the
loop that searches cuts a text as the scan does that tries each place. The pieces of a scan are
matches in turn with what stands between them. The chunks of a tokenizer, whatever texts it has
split before, are the pieces of the scan for its matches, and the empty text has one chunk. -/
theorem splitting_is_scanning :
    (∀ {size : Nat} (m : Matching size) (search : Nat → Option (Nat × Nat)),
      m.FindsFirst search → cuts search size (2 * size + 1) 0 0 = m.scan 0 0) ∧
    (∀ {size : Nat} (m : Matching size) (i a b : Nat), (m.scan 0 0)[i]? = some (a, b) →
      (i % 2 = 1 → m.stop? a = some b) ∧
      (i % 2 = 0 → (∀ q, a < q → q < b → m.stop? q = none) ∧
        (a < b → m.stop? a = none ∨ m.stop? a = some a))) ∧
    ∀ (tokens : List Token) (cacheLimit : Option Nat) (t : Tokenizer),
      ofTokens tokens cacheLimit = .ok t → ∀ earlier : List String,
      (∀ text, ((t.after earlier).tokenize text).1.Partitions text ((t.matching text).scan 0 0)) ∧
      ((t.after earlier).tokenize "").1 = ⟨#[""]⟩ := by
  refine ⟨fun m search hm => ?_, fun m i a b hi => ?_, fun tokens cacheLimit t ht earlier => ?_⟩
  · exact (hm.scan_eq (cuts_cutting_whole hm.staysWithin)).symm
  · obtain ⟨hodd, heven⟩ := m.scan_pieces (Nat.le_refl 0) (Nat.zero_le _)
      (fun x _ hlt => absurd hlt (Nat.not_lt_zero x)) i a b hi
    exact ⟨hodd, fun h => ⟨(heven h).inside, (heven h).front⟩⟩
  · have hsplit : ∀ text, ((t.after earlier).tokenize text).1.Partitions text
        ((t.matching text).scan 0 0) := by
      intro text
      rw [tokenize_after ht]
      exact t.split_partitions_scan text
    refine ⟨hsplit, ?_⟩
    have hscan : (t.matching "").scan 0 0 = [(0, "".length)] :=
      Matching.scan_behind _ (Nat.le_refl 0)
    rw [(hsplit "").chunks, hscan]
    rfl

/-- Matches that are empty and start everywhere, and a list split at its comma. -/
theorem splitting_is_scanning_comma :
    (∃ m : Matching 2, (∀ q, m.stop? q = some q) ∧ m.scan 0 0 = [(0, 1), (1, 1), (1, 2)]) ∧
    ∃ t, ofTokens [.literal 0 ","] none = .ok t ∧
      ((t.after ["a"]).tokenize "a,b").1.Partitions "a,b" ((t.matching "a,b").scan 0 0) ∧
      ((t.after ["a"]).tokenize "").1 = ⟨#[""]⟩ := by
  obtain ⟨hloop, _, htokens⟩ := splitting_is_scanning
  refine ⟨?_, ?_⟩
  · let m : Matching 2 := ⟨fun q => some q, fun hq h => by cases h; exact ⟨Nat.le_refl _, hq⟩⟩
    have hfinds : m.FindsFirst fun p => some (p, p) := by
      refine ⟨fun hp h => ?_, fun _ h => nomatch h⟩
      cases h
      exact ⟨Nat.le_refl _, hp, rfl, fun q hq hlt => by omega⟩
    exact ⟨m, fun q => rfl, (hloop m _ hfinds).symm⟩
  · obtain ⟨t, ht⟩ : ∃ t, ofTokens [.literal 0 ","] none = .ok t :=
      ⟨_, by with_unfolding_all rfl⟩
    obtain ⟨hsplit, hempty⟩ := htokens _ _ t ht ["a"]
    exact ⟨t, ht, hsplit "a,b", hempty⟩

end Tokenizer

namespace Parser

/-- The parsers that come from a definition: the one that is built, and what a parse
leaves of one. -/
inductive ComesFrom (d : Definition) : Parser → Prop
  | built {p : Parser} : d.build = .ok p → ComesFrom d p
  | parsed {p : Parser} (name text : String) (trace : Option Trace) :
      ComesFrom d p → ComesFrom d (p.parse name text trace).2

theorem build_isTruthful {d : Definition} {p : Parser} (h : d.build = .ok p) :
    p.tokenizer.IsTruthful := by
  unfold Definition.build at h
  cases hdraft : d.draft with
  | error e => rw [hdraft] at h; cases h
  | ok draft =>
    rw [hdraft] at h
    have htokenizer : p.tokenizer = draft.tokenizer := by
      have h : draft.resolve = .ok p := h
      unfold Draft.resolve at h
      split at h
      · cases h
      · cases h; rfl
    unfold Definition.draft at hdraft
    split at hdraft
    · cases hdraft
    · cases ht : Tokenizer.ofTokens d.tokens d.cacheLimit with
      | error e => rw [ht] at hdraft; cases hdraft
      | ok t =>
        rw [ht] at hdraft
        cases hdraft
        rw [htokenizer]
        exact Tokenizer.ofTokens_isTruthful ht

theorem ComesFrom.isTruthful {d : Definition} {p : Parser} (h : ComesFrom d p) :
    p.tokenizer.IsTruthful := by
  induction h with
  | built h => exact build_isTruthful h
  | @parsed p name text trace _ ih =>
    cases hentry : p.entry? name with
    | none => rwa [parse_of_unknown hentry]
    | some entry =>
      obtain ⟨entries, hparse⟩ := parse_of_entry hentry text trace
      rw [hparse]
      exact (Tokenizer.tokenize_spec ih text).2

/-- Whatever was parsed before, the chunks of a text make up the text. -/
theorem ComesFrom.text_tokenize {d : Definition} {p : Parser} (h : ComesFrom d p)
    (text : String) : (p.tokenizer.tokenize text).1.text = text := by
  rw [(Tokenizer.tokenize_spec h.isTruthful text).1, Tokenizer.text_split]

theorem ComesFrom.size_tokenize_pos {d : Definition} {p : Parser} (h : ComesFrom d p)
    (text : String) : 0 < (p.tokenizer.tokenize text).1.size := by
  rw [(Tokenizer.tokenize_spec h.isTruthful text).1]
  exact Tokenizer.size_split_pos _ text

end Parser

end Chunkwise
