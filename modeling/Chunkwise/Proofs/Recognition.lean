import Chunkwise.Grammar.Run
import Chunkwise.Proofs.Escaping
import Chunkwise.Proofs.Partition
import Chunkwise.Proofs.Places
import Chunkwise.Proofs.Threads

/-! What is cut is recognised. A tokenizer cuts a text by one alternation of all its tokens'
patterns, searched for within the text; a token tests a chunk by itself against its own pattern,
anchored at both ends, or against its literal text. Where the patterns are plain, a chunk that a
token was found as is an instance of that token. -/

namespace Chunkwise

/-! ## Tokens -/

namespace Token

/-- The tokens that can be made, under their own names or others. -/
inductive Made : Token → Prop
  | eof : Made .eof
  | unexpected : Made .unexpected
  | infiniteLoop : Made .infiniteLoop
  | literal (identity : Nat) (text : String) : Made (.literal identity text)
  | pattern {identity : Nat} {source : String} {t : Token} :
      Token.pattern identity source = .ok t → Made t
  | named (identity : Nat) (name : String) {t : Token} : Made t → Made (t.named identity name)

/-- The pattern of the token, read by itself, leads from one place of a text to another one. -/
def Spans (t : Token) (text : String) (a b : Nat) : Prop :=
  ∃ source, t.source? = some source ∧ Regex.Denotes source text.toList.toArray a b

variable {t : Token} {text : String} {a b : Nat}

@[simp] theorem source?_named (identity : Nat) (name : String) (t : Token) :
    (t.named identity name).source? = t.source? := by
  cases t <;> rfl

@[simp] theorem accepts_named (identity : Nat) (name : String) (t : Token) (chunk : String) :
    (t.named identity name).accepts chunk = t.accepts chunk := by
  cases t <;> rfl

/-- What a pattern matches within a text it matches as a whole when it is cut out. -/
theorem accepts_pattern {identity : Nat} {source : String}
    (ht : Token.pattern identity source = .ok t) (hplain : Regex.isPlain source = true)
    (h : Regex.Denotes source text.toList.toArray a b) (hab : a ≤ b) (hb : b ≤ text.length) :
    t.accepts (slice text.toList.toArray a b) = true := by
  obtain ⟨x, hx, hmatch⟩ := h
  unfold Token.pattern at ht
  split at ht
  · rename_i y hy
    cases ht
    rw [← size_toArray_toList] at hb
    have hchunk : (slice text.toList.toArray a b).toList.toArray
        = text.toList.toArray.extract a b := by
      simp [slice]
    have hsize : (text.toList.toArray.extract a b).size = b - a := by
      rw [Array.size_extract, Nat.min_eq_left hb]
    refine Regex.Program.occursIn_compile_iff.mpr ⟨0, Nat.zero_le _, b - a, ?_⟩
    rw [hchunk, Regex.matches_anchored hplain hx hy]
    refine ⟨rfl, hsize.symm, ?_⟩
    -- the pattern looks at the characters of the chunk alone, and they are the same
    have hsame : ∀ k < b - a, text.toList.toArray[a + k]?
        = (text.toList.toArray.extract a b)[0 + k]? := by
      intro k hk
      rw [Array.getElem?_extract, Nat.min_eq_left hb, Nat.zero_add, if_pos hk]
    have hmoves := (Regex.local_of_isPlain hplain hx).moves hsame (i := 0) (Nat.le_refl _)
      (by rwa [Nat.add_zero, Nat.add_sub_cancel' hab])
    simpa only [Nat.zero_add] using hmoves
  · cases ht

/-- A token accepts what it is found as. -/
theorem Made.accepts (h : t.Made)
    (hplain : ∀ source, t.source? = some source → Regex.isPlain source = true)
    (hspans : t.Spans text a b) (hab : a ≤ b) (hb : b ≤ text.length) :
    t.accepts (slice text.toList.toArray a b) = true := by
  obtain ⟨source, hsource, hdenotes⟩ := hspans
  induction h with
  | eof => cases hsource
  | unexpected => cases hsource
  | infiniteLoop => cases hsource
  | literal identity literal =>
    cases hsource
    have hchunk : slice text.toList.toArray a b = literal := by
      rw [slice, Regex.extract_of_denotes_escape hdenotes, String.ofList_toList]
    exact beq_iff_eq.mpr hchunk
  | @pattern identity source' t ht =>
    have hsource' : source' = source := by
      unfold Token.pattern at ht
      split at ht
      · cases ht
        exact Option.some.inj hsource
      · cases ht
    subst hsource'
    exact accepts_pattern ht (hplain _ hsource) hdenotes hab hb
  | named identity name _ ih =>
    rw [accepts_named]
    rw [source?_named] at hsource
    exact ih (by simpa using hplain) hsource

/-- A literal is written as a plain pattern, so all patterns are plain if those are that were given
as patterns. -/
theorem Made.isPlain (h : t.Made)
    (hplain : ∀ m, t = .matcher m → m.isLiteral = false → Regex.isPlain m.source = true) :
    ∀ source, t.source? = some source → Regex.isPlain source = true := by
  intro source hsource
  induction h with
  | eof => cases hsource
  | unexpected => cases hsource
  | infiniteLoop => cases hsource
  | literal identity literal =>
    cases hsource
    exact Regex.isPlain_escape literal
  | pattern ht =>
    unfold Token.pattern at ht
    split at ht
    · cases ht
      cases hsource
      exact hplain _ rfl rfl
    · cases ht
  | named identity name _ ih =>
    rw [source?_named] at hsource
    refine ih (fun m hm hpattern => ?_) hsource
    subst hm
    exact hplain { m with identity, name } rfl hpattern

end Token

/-! ## Alternations -/

namespace Tokenizer

variable {tokens : List Token} {cacheLimit : Option Nat} {t : Tokenizer}

theorem toList_alternation (tokens : List Token) :
    (alternation tokens).toList
      = ['|'].intercalate ((tokens.filterMap Token.source?).map Regex.wrapped) := by
  rw [alternation, String.toList_intercalate, List.map_map]
  congr 2
  funext source
  simp [Regex.wrapped]

/-- What the alternation matches one of the tokens' patterns does. -/
theorem exists_spans
    (hplain : ∀ token ∈ tokens, ∀ source, token.source? = some source →
      Regex.isPlain source = true)
    (ht : ofTokens tokens cacheLimit = .ok t) {text : String} {a b : Nat} (ha : a ≤ text.length)
    (hstop : (t.matching text).stop? a = some b) : ∃ token ∈ tokens, token.Spans text a b := by
  obtain ⟨program, hprogram, hmatch⟩ := Option.bind_eq_some_iff.mp hstop
  unfold ofTokens at ht
  dsimp only at ht
  split at ht
  · cases ht
    cases hprogram
  · rename_i hne
    split at ht
    · rename_i r hr
      cases ht
      cases hprogram
      have hsources : tokens.filterMap Token.source? ≠ [] := by
        intro hnil
        rw [alternation, hnil] at hne
        exact hne rfl
      have hplain' : ∀ source ∈ tokens.filterMap Token.source?, Regex.isPlain source = true := by
        intro source hsource
        obtain ⟨token, htoken, hsource⟩ := List.mem_filterMap.mp hsource
        exact hplain token htoken source hsource
      rw [← size_toArray_toList] at ha
      obtain ⟨source, hsource, hdenotes⟩ := (Regex.matches_alternatives hsources hplain'
        (toList_alternation tokens) hr).mp (Regex.Program.matches_of_matchAt ha hmatch)
      obtain ⟨token, htoken, hsource⟩ := List.mem_filterMap.mp hsource
      exact ⟨token, htoken, source, hsource, hdenotes⟩
    · cases ht

end Tokenizer

/-! ## Chunks of a token -/

namespace Walk

variable {σ : Type}

theorem not_isExhausted {c : Context σ} {chunk : String} (h : c.chunk? = some chunk) :
    c.isExhausted = false :=
  decide_eq_false fun hsize => by
    cases (Chunks.get?_eq_none_iff.mpr hsize).symm.trans h

/-- A token is matched where a chunk of its own stands, if the chunk is not empty. -/
theorem consume_chunk (skip : Context σ → Option (Bool × Context σ)) {token : Token}
    {chunk : String} {c : Context σ} (hhalted : c.isHalted = false) (hchunk : c.chunk? = some chunk)
    (hne : chunk ≠ "") (haccepts : token.accepts chunk = true) (fuel : Nat) :
    ∃ c', consume skip token (fuel + 1) c = some (.success chunk, c') ∧
      c'.cursor = c.cursor + 1 := by
  have hskip : c.skipEmpty = c := by
    have : c.chunks.skipEmpty c.cursor = c.cursor := Chunks.skipEmpty_of_word hchunk hne
    rw [Context.skipEmpty, this]
    rfl
  refine ⟨(c.noteMatch token).moveTo (c.cursor + 1), ?_, rfl⟩
  simp only [consume, hhalted, consumeFrom, hskip, not_isExhausted hchunk, hchunk,
    Option.filter_some, haccepts, Bool.false_and, Bool.false_eq_true, if_false, if_true]

/-- A token is missed where, behind empty chunks, another one stands and nothing is skipped. -/
theorem consume_miss (skip : Context σ → Option (Bool × Context σ)) {token : Token}
    {chunk : String} {c : Context σ} (hhalted : c.isHalted = false)
    (hchunk : c.skipEmpty.chunk? = some chunk) (hrejects : token.accepts chunk = false)
    (hskip : skip c.skipEmpty = some (false, c.skipEmpty)) (fuel : Nat) :
    ∃ c', consume skip token (fuel + 1) c
      = some (.failure ⟨c.skipEmpty.cursor, token⟩, c') := by
  simp only [consume, hhalted, consumeFrom, not_isExhausted hchunk, hchunk, Option.filter_some,
    hrejects, hskip, Bool.false_and, Bool.false_eq_true, if_false, Option.bind_eq_bind,
    Option.bind_some]
  exact ⟨_, rfl⟩

end Walk

namespace Tokenizer

/-- **What is cut is recognised.** Let the tokens that are given by a pattern have plain ones, each
valid by itself and without assertions. A chunk at an odd place, whatever texts were split before,
is a match of the alternation, and a token of the list matches just there with its own pattern.
Every such token, the one whose alternative was taken among them, accepts the chunk by itself; if
it is a literal, the chunk is its text; and consuming it there gives the chunk, if the chunk is not
empty. -/
theorem cut_is_recognised {tokens : List Token} {cacheLimit : Option Nat} {t : Tokenizer}
    (hmade : ∀ token ∈ tokens, token.Made)
    (hplain : ∀ m, .matcher m ∈ tokens → m.isLiteral = false → Regex.isPlain m.source = true)
    (ht : ofTokens tokens cacheLimit = .ok t) (earlier : List String) (text : String)
    {i : Nat} (hodd : i % 2 = 1) {chunk : String}
    (hchunk : ((t.after earlier).tokenize text).1.get? i = some chunk) :
    ∃ a b, ((t.matching text).scan 0 0)[i]? = some (a, b) ∧
      chunk = slice text.toList.toArray a b ∧
      (∃ token ∈ tokens, token.Spans text a b) ∧
      ∀ token ∈ tokens, token.Spans text a b →
        token.accepts chunk = true ∧
        (∀ m literal, token = .matcher m → m.test = .literal literal → chunk = literal) ∧
        (chunk ≠ "" → ∀ (rules : RuleTable) (fuel : Nat) (c : Context LinkedGrammar),
          c.chunks = ((t.after earlier).tokenize text).1 → c.cursor = i → c.isHalted = false →
            ∃ c', Grammar.run rules (fuel + 2) (.consume token) c
                = some (.success (.text chunk), c') ∧ c'.cursor = i + 1) := by
  have hplain : ∀ token ∈ tokens, ∀ source, token.source? = some source →
      Regex.isPlain source = true := fun token htoken =>
    (hmade token htoken).isPlain fun m hm => hplain m (hm ▸ htoken)
  have hsplit := t.split_partitions_scan text
  have hcut := hchunk
  rw [tokenize_after ht, hsplit.chunks, Chunks.get?_cut] at hcut
  obtain ⟨⟨a, b⟩, hpiece, hslice⟩ := Option.map_eq_some_iff.mp hcut
  obtain ⟨_, hab, hb⟩ := hsplit.tiling.within hpiece
  have hstop := ((t.matching text).scan_pieces (Nat.le_refl 0) (Nat.zero_le _)
    (fun x _ hlt => absurd hlt (Nat.not_lt_zero x)) i a b hpiece).1 hodd
  refine ⟨a, b, hpiece, hslice.symm, exists_spans hplain ht (Nat.le_trans hab hb) hstop, ?_⟩
  intro token htoken hspans
  have haccepts : token.accepts chunk = true :=
    hslice ▸ (hmade token htoken).accepts (hplain token htoken) hspans hab hb
  refine ⟨haccepts, ?_, ?_⟩
  · rintro m literal rfl hliteral
    simp only [Token.accepts, hliteral] at haccepts
    exact beq_iff_eq.mp haccepts
  · intro hne rules fuel c hchunks hcursor hhalted
    have hhere : c.chunk? = some chunk := by
      rw [Context.chunk?, hchunks, hcursor]
      exact hchunk
    obtain ⟨c', hconsume, hcursor'⟩ := Walk.consume_chunk
      (Walk.trySkip (Grammar.run rules (fuel + 1))) hhalted hhere hne haccepts fuel
    refine ⟨c', ?_, hcursor ▸ hcursor'⟩
    show ((Walk.consume _ token (fuel + 1)).map Value.text) c = _
    rw [Walk.map, hconsume]
    rfl

/-- A letter among others is found, recognised and matched. -/
theorem cut_is_recognised_letter :
    ∃ token t, Token.pattern 0 "x" = .ok token ∧ ofTokens [token] none = .ok t ∧
      ((t.after ["b"]).tokenize "axb").1.get? 1 = some "x" ∧ token.accepts "x" = true ∧
      ∃ c', Grammar.run #[] 2 (.consume token)
          { chunks := ((t.after ["b"]).tokenize "axb").1, cursor := 1 }
        = some (.success (.text "x"), c') ∧ c'.cursor = 2 := by
  obtain ⟨token, t, htoken, hsource, ht, hprogram⟩ : ∃ token t,
      Token.pattern 0 "x" = .ok token ∧ token.source? = some "x" ∧ ofTokens [token] none = .ok t ∧
        t.program = some (Regex.compile (.one [(120, 120)])) :=
    ⟨_, _, by with_unfolding_all rfl, rfl, by with_unfolding_all rfl, by with_unfolding_all rfl⟩
  have hscan : (t.matching "axb").scan 0 0 = [(0, 1), (1, 2), (2, 3)] := by
    rw [Matching.scan_pass _ (by decide) (.inl (stop?_one hprogram (by decide))),
      Matching.scan_cut _ (by decide) (stop?_one hprogram (by decide)) (by decide),
      Matching.scan_pass _ (by decide) (.inl (stop?_one hprogram (by decide))),
      Matching.scan_behind _ (by decide)]
    rfl
  have hchunks : ((t.after ["b"]).tokenize "axb").1 = ⟨#["a", "x", "b"]⟩ := by
    rw [tokenize_after ht, (t.split_partitions_scan "axb").chunks, hscan]
    rfl
  have hchunk : ((t.after ["b"]).tokenize "axb").1.get? 1 = some "x" := by
    rw [hchunks]
    rfl
  have hplain : Regex.isPlain "x" = true := by with_unfolding_all rfl
  obtain ⟨a, b, _, _, ⟨token', htoken', hspans⟩, hall⟩ :=
    cut_is_recognised (List.forall_mem_singleton.mpr (.pattern htoken))
      (fun m hm _ => by
        cases List.mem_singleton.mp hm
        rw [show m.source = "x" from Option.some.inj hsource]
        exact hplain)
      ht ["b"] "axb" (i := 1) rfl hchunk
  cases List.mem_singleton.mp htoken'
  obtain ⟨haccepts, _, hconsume⟩ := hall token htoken' hspans
  exact ⟨token, t, htoken, ht, hchunk, haccepts,
    hconsume (by decide) #[] 0 _ rfl rfl rfl⟩

/-- Where a character is none of those that are repeated, the repetition stays there. -/
theorem matches_stays {s : Text.Intervals} {greedy : Bool} {text : Array Char} {q stop : Nat}
    (h : Regex.after s.has text q = false) :
    (Regex.loop (.one s) 0 none greedy).Matches text q stop ↔ stop = q := by
  constructor
  · rintro ⟨_ | n, _, _, hmatch⟩
    · exact hmatch.symm
    · obtain ⟨_, ⟨hs, _⟩, _⟩ := hmatch
      cases hs.symm.trans h
  · rintro rfl
    exact ⟨0, Nat.le_refl 0, nofun, rfl⟩

theorem matchAt_stays {s : Text.Intervals} {greedy : Bool} {text : Array Char} {q : Nat}
    (hq : q ≤ text.size) (h : Regex.after s.has text q = false) :
    Regex.Program.matchAt (Regex.compile (.loop (.one s) 0 none greedy)) text q = some q := by
  have hmatch : (Regex.loop (.one s) 0 none greedy).Matches text q q := (matches_stays h).mpr rfl
  obtain ⟨stop, hstop⟩ := Option.ne_none_iff_exists'.mp (Regex.Program.matchAt_ne_none hq hmatch)
  rw [hstop, (matches_stays h).mp (Regex.Program.matches_of_matchAt hq hstop)]

/-- An empty match between two characters is cut out and recognised, but consuming passes over
the empty chunk and meets the next character. -/
theorem cut_not_consumed :
    ∃ token t, Token.pattern 0 "x*" = .ok token ∧ Regex.isPlain "x*" = true ∧
      ofTokens [token] none = .ok t ∧ (t.tokenize "ab").1.get? 1 = some "" ∧
      token.accepts "" = true ∧
      ∀ (rules : RuleTable) (fuel : Nat), ∃ c', Grammar.run rules (fuel + 2) (.consume token)
          { chunks := (t.tokenize "ab").1, cursor := 1 } = some (.failure ⟨2, token⟩, c') := by
  obtain ⟨y, hy⟩ : ∃ y, Regex.parse? (Token.anchored "x*") = some y :=
    ⟨_, by with_unfolding_all rfl⟩
  let token : Token := .matcher ⟨0, "x*", "x*", .pattern y.compile⟩
  have htoken : Token.pattern 0 "x*" = .ok token := by
    rw [Token.pattern, hy]
  have halternation : alternation [token] = "(?:x*)" := rfl
  obtain ⟨t, ht, hprogram⟩ : ∃ t, ofTokens [token] none = .ok t ∧
      t.program = some (Regex.compile (.loop (.one [(120, 120)]) 0 none true)) := by
    have hr : Regex.parse? "(?:x*)" = some (.loop (.one [(120, 120)]) 0 none true) := by
      with_unfolding_all rfl
    exact ⟨_, by rw [ofTokens, halternation, if_neg (by decide), hr], rfl⟩
  have hplain : Regex.isPlain "x*" = true := by with_unfolding_all rfl
  have hx : Regex.parse? "x*" = some (.loop (.one [(120, 120)]) 0 none true) := by
    with_unfolding_all rfl
  have hstop : ∀ q ≤ 2, (t.matching "ab").stop? q = some q := by
    intro q hq
    simp only [matching, hprogram, Option.bind_some]
    refine matchAt_stays hq ?_
    obtain rfl | rfl | rfl : q = 0 ∨ q = 1 ∨ q = 2 := by omega
    · decide
    · decide
    · decide
  have hscan : (t.matching "ab").scan 0 0 = [(0, 1), (1, 1), (1, 2)] := by
    rw [Matching.scan_pass _ (by decide) (.inr (hstop 0 (by decide))),
      Matching.scan_cut _ (by decide) (hstop 1 (by decide)) (by decide),
      Matching.scan_pass _ (by decide) (.inr (hstop 1 (by decide))),
      Matching.scan_behind _ (by decide)]
    rfl
  have hchunks : (t.tokenize "ab").1 = ⟨#["a", "", "b"]⟩ := by
    refine (tokenize_after ht [] "ab").trans ?_
    rw [(t.split_partitions_scan "ab").chunks, hscan]
    rfl
  have haccepts : token.accepts "" = true :=
    Regex.Program.occursIn_compile_iff.mpr ⟨0, Nat.le_refl 0, 0,
      (Regex.matches_anchored hplain hx hy).mpr ⟨rfl, rfl, (matches_stays rfl).mpr rfl⟩⟩
  have hrejects : token.accepts "b" = false := by
    refine Bool.eq_false_iff.mpr fun h => ?_
    obtain ⟨p, _, stop, h⟩ := Regex.Program.occursIn_compile_iff.mp h
    obtain ⟨rfl, rfl, h⟩ := (Regex.matches_anchored hplain hx hy).mp h
    cases (matches_stays (by decide)).mp h
  refine ⟨token, t, htoken, hplain, ht, by rw [hchunks]; rfl, haccepts, fun rules fuel => ?_⟩
  rw [hchunks]
  obtain ⟨c', hconsume⟩ := Walk.consume_miss (Walk.trySkip (Grammar.run rules (fuel + 1)))
    (c := { chunks := ⟨#["a", "", "b"]⟩, cursor := 1 }) rfl rfl hrejects rfl fuel
  refine ⟨c', ?_⟩
  show (Walk.consume _ token (fuel + 1)).map Value.text _ = _
  rw [Walk.map, hconsume]
  rfl

end Tokenizer

end Chunkwise
