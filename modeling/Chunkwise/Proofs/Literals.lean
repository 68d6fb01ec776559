import Chunkwise.Proofs.Preference
import Chunkwise.Proofs.Recognition

/-! Literal tokens lex as plain text. The patterns of literal tokens are escaped texts, each put
in a group of its own, with bars in between; whatever the texts are, such a pattern is valid, no
character of a text leaves its group, and the match at a place is the first of the texts that
stands there. -/

namespace Chunkwise

namespace Regex

/-! ## Spelled texts -/

/-- The expression of a text, character by character. -/
def spelled (cs : List Char) : Regex := inSequence (cs.map fun c => .one (.single c.toNat))

variable {text : Array Char} {cs : List Char} {x : Regex}

theorem parts_inSequence : ∀ {rs : List Regex}, (∀ r ∈ rs, r.parts = [r]) →
    (inSequence rs).parts = rs
  | [], _ => rfl
  | [_], h => h _ List.mem_cons_self
  | r :: s :: rs, h => by
    show r.parts ++ (inSequence (s :: rs)).parts = _
    rw [h r List.mem_cons_self, parts_inSequence fun x hx => h x (List.mem_cons_of_mem _ hx)]
    rfl

theorem parts_of_mem_chars (hx : x ∈ cs.map fun c => Regex.one (.single c.toNat)) :
    x.parts = [x] := by
  obtain ⟨c, _, rfl⟩ := List.mem_map.mp hx
  rfl

theorem parts_spelled (cs : List Char) :
    (spelled cs).parts = cs.map fun c => .one (.single c.toNat) :=
  parts_inSequence fun _ => parts_of_mem_chars

theorem branches_spelled : ∀ cs : List Char, (spelled cs).branches = [spelled cs]
  | [] => rfl
  | [_] => rfl
  | _ :: _ :: _ => rfl

/-- Characters one after another spell the text. -/
theorem concat_chars (cs : List Char) :
    concat (cs.map fun c => .one (.single c.toNat)) = spelled cs := by
  rw [concat, List.flatMap_congr fun _ => parts_of_mem_chars, List.flatMap_singleton']
  rfl

theorem concat_spelled (cs : List Char) : concat [spelled cs] = spelled cs := by
  rw [concat, List.flatMap_singleton, parts_spelled]
  rfl

theorem isLoopFree_spelled (cs : List Char) : (spelled cs).isLoopFree = true := by
  refine isLoopFree_inSequence fun x hx => ?_
  obtain ⟨c, _, rfl⟩ := List.mem_map.mp hx
  rfl

theorem isDetermined_of_mem_parts_spelled (hx : x ∈ (spelled cs).parts) :
    x.IsDetermined text := by
  rw [parts_spelled] at hx
  obtain ⟨c, _, rfl⟩ := List.mem_map.mp hx
  exact isDetermined_one _

/-- A spelled text goes on behind the text where the text stands. -/
theorem backtrack_spelled (cs : List Char) (k : Nat → Option Nat) (i : Nat) :
    (spelled cs).backtrack text k i
      = if cs.isPrefixOf (text.toList.drop i) then k (i + cs.length) else none := by
  rw [spelled, backtrack_inSequence]
  induction cs generalizing i with
  | nil => rfl
  | cons c cs ih =>
    have hhead : text[i]? = (text.toList.drop i).head? := by
      rw [List.head?_drop, Array.getElem?_toList]
    have htail : text.toList.drop (i + 1) = (text.toList.drop i).tail := List.tail_drop.symm
    show (Regex.one (.single c.toNat)).backtrack text (backtrackAll text (cs.map _) k) i = _
    rw [backtrack, ih, after, hhead, htail]
    cases text.toList.drop i with
    | nil => rfl
    | cons d rest =>
      have hchar : (Text.Intervals.single c.toNat).has d = (c == d) := by
        rw [Text.Intervals.has, Text.Intervals.covers_single, Bool.eq_iff_iff, beq_iff_eq,
          beq_iff_eq, Char.toNat_inj, eq_comm]
      rw [List.head?_cons, Option.any_some, hchar, List.tail_cons, List.isPrefixOf_cons_cons,
        List.length_cons, Nat.add_right_comm i 1, ← Nat.add_assoc]
      cases c == d <;> rfl

/-! ## Reading -/

/-- The piece that an escaped text is read as in a group. -/
def Piece.ofText (text : String) : Piece :=
  ⟨spelled text.toList, depthOfParts (List.replicate text.toList.length 0) + 1⟩

theorem Piece.depth_ofText_le (text : String) : (Piece.ofText text).depth ≤ 2 :=
  Nat.succ_le_succ (depthOfParts_le fun _ hdepth =>
    Nat.le_of_eq (List.eq_of_mem_replicate hdepth))

/-- A group of characters is closed as the text that they spell. -/
theorem Group.close_chars (text : String) (outerFlags : Flags) :
    Group.close { outerFlags, pieces := (text.toList.map (some ∘ Piece.ofChar)).reverse }
      = .ofText text := by
  rw [close, inside_chars rfl rfl, concat_chars]
  rfl

theorem Group.branch_single {g : Group} {text : String} (h : g.pieces = [some (.ofText text)]) :
    g.branch = .ofText text := by
  rw [Group.branch, h]
  show Piece.mk (concat [spelled text.toList]) (max 0 (Piece.ofText text).depth) = _
  rw [concat_spelled, Nat.zero_max]
  rfl

namespace Reader

variable {r : Reader}

/-- A reader takes an escaped text in a group as one piece. -/
theorem takes_wrapped (hflags : r.flags = {}) (text : String) :
    r.Takes (wrapped (escape text)) (r.push (some (.ofText text))) := by
  let inside : Reader := { r.enter {} none with
    group := { outerFlags := r.flags
               pieces := (text.toList.map (some ∘ Piece.ofChar)).reverse } }
  have hopening : r.Takes ['(', '?', ':'] (r.enter {} none) := by
    refine takes_item (.opening (.plain {})) (hflags ▸ rfl) (Nat.succ_pos _)
      (fun tail => ⟨_, _, rfl, ?_⟩) rfl
    rw [hflags]
    rfl
  have htext : (r.enter {} none).Takes (escape text).toList inside := by
    have htakes := takes_escape (r := r.enter {} none) rfl text.toList
    simp only [enter, List.append_nil] at htakes
    rwa [toList_escape]
  have hclosing : inside.Takes [')'] (r.push (some (.ofText text))) := by
    refine takes_item .closing rfl (Nat.succ_pos _) (fun tail => ⟨_, _, rfl, rfl⟩) ?_
    show some (r.push (some (Group.close _))) = _
    rw [Group.close_chars]
  have hwrapped : wrapped (escape text) = ['(', '?', ':'] ++ ((escape text).toList ++ [')']) := by
    simp only [wrapped, List.cons_append, List.nil_append]
  rw [hwrapped]
  exact hopening.append (htext.append hclosing)

/-- A bar ends the alternative that a text is. -/
theorem takes_bar (hflags : r.flags = {}) {text : String}
    (hpieces : r.group.pieces = [some (.ofText text)]) :
    r.Takes ['|'] { r with group := { r.group with
      branches := .ofText text :: r.group.branches, pieces := [] } } := by
  refine takes_item .bar (hflags ▸ rfl) (Nat.succ_pos _) (fun tail => ⟨_, _, rfl, rfl⟩) ?_
  rw [accept, Group.branch_single hpieces]

/-- Escaped texts in groups, with bars in between, are read as alternatives. -/
theorem takes_alternatives {texts : List String} (hne : texts ≠ []) (hflags : r.flags = {})
    (hpieces : r.group.pieces = []) :
    ∃ r', r.Takes (['|'].intercalate (texts.map fun text => wrapped (escape text))) r' ∧
      r'.flags = {} ∧ r'.outer = r.outer ∧
      r'.group.branch :: r'.group.branches
        = (texts.map Piece.ofText).reverse ++ r.group.branches := by
  induction texts generalizing r with
  | nil => exact absurd rfl hne
  | cons text texts ih =>
    let first := r.push (some (.ofText text))
    have hfirst : r.Takes (wrapped (escape text)) first := takes_wrapped hflags text
    have hgroup : first.group.pieces = [some (.ofText text)] := congrArg (_ :: ·) hpieces
    cases texts with
    | nil =>
      rw [List.map_singleton, List.intercalate_singleton]
      refine ⟨first, hfirst, hflags, rfl, ?_⟩
      rw [Group.branch_single hgroup]
      rfl
    | cons next texts =>
      let behind : Reader := { first with group := { first.group with
        branches := .ofText text :: first.group.branches, pieces := [] } }
      have hbar : first.Takes ['|'] behind := takes_bar (r := first) hflags hgroup
      obtain ⟨r', htakes, hflags', houter, hbranches⟩ :=
        ih (r := behind) (List.cons_ne_nil _ _) hflags rfl
      refine ⟨r', ?_, hflags', houter, ?_⟩
      · rw [List.map_cons, List.map_cons, List.intercalate_cons_cons]
        exact (hfirst.append hbar).append htakes
      · rw [hbranches, List.map_cons (a := text), List.reverse_cons, List.append_assoc]
        rfl

end Reader

/-! ## The alternation -/

theorem Group.depth_inside_le {g : Group} {deepest : Nat}
    (h : ∀ x ∈ g.branch :: g.branches, x.depth ≤ deepest) : g.inside.depth ≤ deepest + 1 := by
  unfold inside
  split
  · exact Nat.le_succ_of_le (h _ List.mem_cons_self)
  · refine depthOfParts_le fun depth hdepth => ?_
    obtain ⟨x, hx, rfl⟩ := List.mem_map.mp hdepth
    exact h x (List.mem_reverse.mp hx)

/-- The expressions of the texts. -/
def spelledAll (texts : List String) : List Regex := texts.map fun text => spelled text.toList

/-- A group of texts tries the texts in their order. -/
theorem Group.backtrack_inside {g : Group} {texts : List String}
    (h : g.branch :: g.branches = (texts.map Piece.ofText).reverse) :
    g.inside.regex.isLoopFree = true ∧ ∀ text k i,
      g.inside.regex.backtrack text k i = backtrackAny text (spelledAll texts) k i := by
  have hregexes : (g.branch :: g.branches).reverse.map Piece.regex = spelledAll texts := by
    rw [h, List.reverse_reverse, List.map_map]
    rfl
  have hloopFree : ∀ r ∈ spelledAll texts, r.isLoopFree = true := by
    intro r hr
    obtain ⟨_, _, rfl⟩ := List.mem_map.mp hr
    exact isLoopFree_spelled _
  unfold inside
  split
  · rename_i hsingle
    rw [hsingle] at hregexes
    rw [← hregexes] at hloopFree ⊢
    exact ⟨hloopFree _ List.mem_cons_self, fun _ _ _ => List.findSome?_singleton.symm⟩
  · simp only [hregexes]
    refine ⟨isLoopFree_choice hloopFree, fun text k i => backtrack_choice fun r hr x hx => ?_⟩
    obtain ⟨_, hspelled, hr⟩ := List.mem_flatMap.mp hr
    obtain ⟨literal, _, rfl⟩ := List.mem_map.mp hspelled
    rw [branches_spelled, List.mem_singleton] at hr
    exact isDetermined_of_mem_parts_spelled (hr ▸ hx)

/-- Escaped texts in groups, with bars in between, are a valid pattern, which tries the texts in
their order. -/
theorem parse?_alternatives {texts : List String} (hne : texts ≠ []) {pattern : String}
    (hpattern : pattern.toList
      = ['|'].intercalate (texts.map fun text => wrapped (escape text))) :
    ∃ x, parse? pattern = some x ∧ x.isLoopFree = true ∧
      ∀ text k i, x.backtrack text k i = backtrackAny text (spelledAll texts) k i := by
  obtain ⟨r, htakes, hflags, houter, hbranches⟩ :=
    Reader.takes_alternatives (r := {}) hne rfl rfl
  rw [List.append_nil] at hbranches
  have hdepth : r.group.inside.depth ≤ Reader.depthLimit := by
    refine Nat.le_trans (Group.depth_inside_le fun x hx => ?_)
      (by decide : 2 + 1 ≤ Reader.depthLimit)
    rw [hbranches, List.mem_reverse] at hx
    obtain ⟨text, _, rfl⟩ := List.mem_map.mp hx
    exact Piece.depth_ofText_le text
  rw [← hpattern] at htakes
  exact ⟨r.group.inside.regex, htakes.parse?_eq (hflags ▸ rfl) houter hdepth,
    Group.backtrack_inside hbranches⟩

/-- Where the first of the texts that stands at a place ends. -/
theorem backtrackAny_spelledAll (texts : List String) {text : Array Char} {i : Nat} :
    backtrackAny text (spelledAll texts) some i
      = (texts.find? fun literal => literal.toList.isPrefixOf (text.toList.drop i)).map
        fun literal => i + literal.length := by
  induction texts with
  | nil => rfl
  | cons literal texts ih =>
    rw [spelledAll, List.map_cons, backtrackAny_cons, backtrack_spelled, ← spelledAll, ih,
      List.find?_cons, String.length_toList]
    cases literal.toList.isPrefixOf (text.toList.drop i) <;> rfl

end Regex

/-! ## Literal tokens -/

namespace Token

/-- The tokens that match one text each, under their own names or others, and those that stand
for places. -/
inductive IsLiteral : Token → Prop
  | eof : IsLiteral .eof
  | unexpected : IsLiteral .unexpected
  | infiniteLoop : IsLiteral .infiniteLoop
  | literal (identity : Nat) (text : String) : IsLiteral (.literal identity text)
  | named (identity : Nat) (name : String) {t : Token} :
      IsLiteral t → IsLiteral (t.named identity name)

/-- The one text that a token matches, if it is made for one. -/
def text? : Token → Option String
  | .matcher m =>
    match m.test with
    | .literal text => some text
    | .pattern _ => none
  | _ => none

theorem text?_named (identity : Nat) (name : String) (t : Token) :
    (t.named identity name).text? = t.text? := by
  cases t <;> rfl

theorem IsLiteral.source?_eq {t : Token} (h : t.IsLiteral) :
    t.source? = t.text?.map Regex.escape := by
  induction h with
  | named identity name _ ih => rw [source?_named, text?_named, ih]
  | _ => rfl

end Token

/-- The texts of the literal tokens, in their order. -/
def literals (tokens : List Token) : List String := tokens.filterMap Token.text?

/-- Matches of plain texts: the match at a place is the first of the texts that the rest of the
text starts with. -/
def plainMatching (texts : List String) (text : String) : Matching text.length where
  stop? q :=
    (texts.find? fun literal => literal.toList.isPrefixOf (text.toList.drop q)).map
      fun literal => q + literal.length
  within := by
    intro q stop hq h
    obtain ⟨literal, hfind, rfl⟩ := Option.map_eq_some_iff.mp h
    have hstands := List.find?_some hfind
    have hlength := (List.isPrefixOf_iff_prefix.mp hstands).length_le
    rw [List.length_drop, String.length_toList, String.length_toList] at hlength
    omega

namespace Tokenizer

variable {tokens : List Token} {t : Tokenizer}

theorem sources_of_isLiteral (h : ∀ token ∈ tokens, token.IsLiteral) :
    tokens.filterMap Token.source? = (literals tokens).map Regex.escape := by
  rw [literals, List.map_filterMap]
  exact List.filterMap_congr fun token htoken => (h token htoken).source?_eq

/-- A tokenizer can be made for literal tokens, and it finds their texts. -/
theorem ofTokens_literals (h : ∀ token ∈ tokens, token.IsLiteral) (cacheLimit : Option Nat) :
    ∃ t, ofTokens tokens cacheLimit = .ok t ∧ ∀ text : String, ∀ q ≤ text.length,
      (plainMatching (literals tokens) text).stop? q = (t.matching text).stop? q := by
  have hpattern : (alternation tokens).toList = ['|'].intercalate
      ((literals tokens).map fun text => Regex.wrapped (Regex.escape text)) := by
    rw [toList_alternation, sources_of_isLiteral h, List.map_map]
    rfl
  cases hliterals : literals tokens with
  | nil =>
    rw [hliterals] at hpattern
    have hempty : alternation tokens = "" := String.toList_eq_nil_iff.mp hpattern
    refine ⟨{ pattern := "", program := none, cacheLimit }, ?_, fun _ _ _ => rfl⟩
    rw [ofTokens, hempty]
    rfl
  | cons first rest =>
    rw [← hliterals]
    have hne : literals tokens ≠ [] := hliterals ▸ List.cons_ne_nil _ _
    obtain ⟨x, hparse, hloopFree, hbacktrack⟩ := Regex.parse?_alternatives hne hpattern
    have hsome : alternation tokens ≠ "" := by
      intro hempty
      rw [hempty, hliterals] at hpattern
      cases rest <;> simp [Regex.wrapped, List.intercalate_cons_cons] at hpattern
    refine ⟨{ pattern := alternation tokens, program := some x.compile, cacheLimit }, ?_, ?_⟩
    · simp only [ofTokens, if_neg hsome, hparse]
    · intro text q hq
      rw [← size_toArray_toList] at hq
      exact ((Regex.Program.matchAt_compile hloopFree hq).trans
        ((hbacktrack _ _ q).trans (Regex.backtrackAny_spelledAll _))).symm

/-- **Literal tokens lex as plain text.** Whatever texts the literal tokens of a list are made
for, and whatever other tokens that stand for places are among them: a tokenizer can be made for
the list, and whatever texts it has split before, it cuts a text as the scan does that tries each
place of it for the first of the literals that stands there. -/
theorem literals_lex_as_text (h : ∀ token ∈ tokens, token.IsLiteral) (cacheLimit : Option Nat) :
    ∃ t, ofTokens tokens cacheLimit = .ok t ∧ ∀ (earlier : List String) (text : String),
      t.split text = Chunks.cut text ((plainMatching (literals tokens) text).scan 0 0) ∧
      ((t.after earlier).tokenize text).1 = t.split text := by
  obtain ⟨t, ht, hstop⟩ := ofTokens_literals h cacheLimit
  refine ⟨t, ht, fun earlier text => ⟨?_, tokenize_after ht earlier text⟩⟩
  have hfinds := (t.searchIn_findsFirst text).congr (hstop text)
  rw [split_eq_cut, hfinds.scan_eq (cuts_cutting_whole hfinds.staysWithin)]

/-- A text that another one starts with, one of several bytes that are operators, one that is
given twice, and the empty one, which is found between two other characters. -/
theorem literals_lex_as_text_overlapping :
    ∃ t, ofTokens [.literal 0 "a.", .eof, (Token.literal 1 "a").named 7 "A", .literal 2 "é|(",
        .literal 3 "a", .literal 4 ""] none = .ok t ∧
      t.split "aa.é|(xy" = ⟨#["", "a", "", "a.", "", "é|(", "x", "", "y"]⟩ ∧
      ((t.after ["a"]).tokenize "aa.é|(xy").1 = t.split "aa.é|(xy" := by
  have hliteral : ∀ token ∈ [.literal 0 "a.", .eof, (Token.literal 1 "a").named 7 "A",
      .literal 2 "é|(", .literal 3 "a", .literal 4 ""], token.IsLiteral := by
    simp only [List.forall_mem_cons]
    exact ⟨.literal .., .eof, .named _ _ (.literal ..), .literal .., .literal .., .literal ..,
      nofun⟩
  obtain ⟨t, ht, hsplit⟩ := literals_lex_as_text hliteral none
  obtain ⟨hcut, htokenize⟩ := hsplit ["a"] "aa.é|(xy"
  refine ⟨t, ht, ?_, htokenize⟩
  have hscan : (plainMatching ["a.", "a", "é|(", "a", ""] "aa.é|(xy").scan 0 0
      = [(0, 0), (0, 1), (1, 1), (1, 3), (3, 3), (3, 6), (6, 7), (7, 7), (7, 8)] := by
    rw [Matching.scan_cut _ (by decide) (by rfl : _ = some 1) (by decide),
      Matching.scan_cut _ (by decide) (by rfl : _ = some 3) (by decide),
      Matching.scan_cut _ (by decide) (by rfl : _ = some 6) (by decide),
      Matching.scan_pass _ (by decide) (.inr (by rfl)),
      Matching.scan_cut _ (by decide) (by rfl : _ = some 7) (by decide),
      Matching.scan_pass _ (by decide) (.inr (by rfl)),
      Matching.scan_behind _ (by decide)]
    rfl
  rw [hcut]
  exact (congrArg (Chunks.cut _) hscan).trans (by decide +kernel)

end Tokenizer

end Chunkwise
