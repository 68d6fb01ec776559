import Chunkwise.Proofs.Advance
import Chunkwise.Proofs.Fuel
import Chunkwise.Proofs.Gathering

/-! The two kinds of sentinel. Chunks are gathered up to a chunk of a token, or up to a place where
a grammar matches. Where no skip rule can run, the grammar that matches the token stops at the same
place as the token itself, and what is gathered in front of it is the same; only the failures
differ, where the sentinel never comes. -/

namespace Chunkwise

namespace Chunks

/-- The chunks from place `i` up to place `j` that are not empty. -/
def filled (c : Chunks) (i j : Nat) : List String :=
  ((c.pieces.toList.take j).drop i).filter (!·.isEmpty)

theorem wordsBetween_words (c : Chunks) {i j : Nat} (h : i ≤ j) :
    wordsBetween c.words (c.wordIndex i) (c.wordIndex j) = c.filled i j := by
  have hsplit : c.pieces.toList.take j
      = c.pieces.toList.take i ++ (c.pieces.toList.take j).drop i := by
    have happend := (List.take_append_drop i (c.pieces.toList.take j)).symm
    rwa [List.take_take, Nat.min_eq_left h] at happend
  rw [wordsBetween, words_take, hsplit, List.filter_append, ← words_take, List.drop_left']
  · rfl
  · rw [List.length_take]
    exact Nat.min_eq_left (c.wordIndex_le i)

theorem filled_of_size_le (c : Chunks) {i j : Nat} (h : c.size ≤ j) :
    c.filled i j = c.filled i c.size := by
  have hlength : c.pieces.toList.length = c.size := Array.length_toList
  unfold filled
  rw [List.take_of_length_le (by omega), List.take_of_length_le (by omega)]

@[simp] theorem skipEmpty_skipEmpty (c : Chunks) (i : Nat) :
    c.skipEmpty (c.skipEmpty i) = c.skipEmpty i := by
  cases hget : c.get? (c.skipEmpty i) with
  | none =>
    have hend := get?_eq_none_iff.mp hget
    have hle := c.skipEmpty_le (c.skipEmpty i)
    have hge := c.le_skipEmpty (c.skipEmpty i)
    omega
  | some w =>
    refine skipEmpty_of_word hget ?_
    rintro rfl
    exact c.get?_skipEmpty_ne i hget

end Chunks

/-- Whether a token matches at a place: the chunk there is one of the token, or no chunk is left and
the token stands for the end. -/
def Token.isAt (t : Token) (chunks : Chunks) (i : Nat) : Bool :=
  match chunks.get? i with
  | some chunk => t.accepts chunk
  | none => t.isEof

namespace Context

variable {σ : Type}

/-- The parse goes on, and no skip rule can run. -/
structure Bare (c : Context σ) : Prop where
  running : c.isHalted = false
  unskipped : c.skip = none ∨ c.skipping = true

end Context

namespace Walk

variable {σ α : Type}

theorem trySkip_of_bare (run : σ → Walk σ α) {c : Context σ} (h : c.Bare) :
    trySkip run c = some (false, c) := by
  unfold trySkip
  rcases h.unskipped with hskip | hskipping
  · cases c.skipping <;> simp [hskip]
  · simp [hskipping]

/-- Where no skip rule can run, a token matches if it stands behind the empty chunks. -/
theorem consume_of_bare (run : σ → Walk σ α) (t : Token) (fuel : Nat) {c : Context σ}
    (hc : c.Bare) :
    ∃ o c', consume (trySkip run) t (fuel + 1) c = some (o, c') ∧
      o.isSuccess = t.isAt c.chunks c.skipEmpty.cursor ∧
      c' = { c with cursor := c'.cursor, deepest := c'.deepest, trace := c'.trace } := by
  have hskip : trySkip run c.skipEmpty = some (false, c.skipEmpty) :=
    trySkip_of_bare run ⟨hc.running, hc.unskipped⟩
  have hchunk : c.skipEmpty.chunk? = c.chunks.get? c.skipEmpty.cursor := rfl
  have hexhausted : c.skipEmpty.isExhausted = (c.chunks.get? c.skipEmpty.cursor).isNone := by
    rw [Bool.eq_iff_iff, Option.isNone_iff_eq_none, Chunks.get?_eq_none_iff]
    exact decide_eq_true_iff
  -- wherever the token is missed, no skip rule moves on and the cursor is put back
  have hmissed : ∀ c', c' = ((c.skipEmpty.noteMiss t).restore c.cursor).record
      ⟨c.skipEmpty.cursor, t⟩ →
      c' = { c with cursor := c'.cursor, deepest := c'.deepest, trace := c'.trace } := by
    rintro _ rfl
    rw [Context.restore_eq]
    rfl
  rw [consume, hc.running, if_neg Bool.false_ne_true, consumeFrom]
  dsimp only
  rw [hexhausted, hchunk]
  unfold Token.isAt
  cases hget : c.chunks.get? c.skipEmpty.cursor with
  | none =>
    cases heof : t.isEof with
    | true => exact ⟨_, _, rfl, rfl, rfl⟩
    | false =>
      simp only [Option.isNone_none, Bool.and_false, Bool.false_eq_true, if_false,
        Option.filter_none, hskip, Option.bind_eq_bind, Option.bind_some]
      exact ⟨_, _, rfl, rfl, hmissed _ rfl⟩
  | some chunk =>
    cases haccepts : t.accepts chunk with
    | true =>
      simp only [Option.isNone_some, Bool.false_and, Bool.false_eq_true, if_false,
        Option.filter_some, haccepts, if_true]
      exact ⟨_, _, rfl, rfl, rfl⟩
    | false =>
      simp only [Option.isNone_some, Bool.false_and, Bool.false_eq_true, if_false,
        Option.filter_some, haccepts, hskip, Option.bind_eq_bind, Option.bind_some]
      exact ⟨_, _, rfl, rfl, hmissed _ rfl⟩

/-- Looking ahead for the token changes no more than the trace. -/
theorem probe_consume_of_bare (run : σ → Walk σ α) (t : Token) (fuel : Nat) {c : Context σ}
    (hc : c.Bare) :
    ∃ trace, probe (consume (trySkip run) t (fuel + 1)) c
      = some (t.isAt c.chunks c.skipEmpty.cursor, { c with trace }) := by
  obtain ⟨o, c', hconsume, hsuccess, hc'⟩ := consume_of_bare run t fuel hc
  refine ⟨(c'.restore c.cursor).trace, ?_⟩
  simp only [probe, peek, hconsume, Option.bind_eq_bind, Option.bind_some, hsuccess]
  rw [Context.restore_eq, hc']

theorem gather_end {stop : String → Bool} {chunks : Chunks} {i : Nat} (n : Nat)
    (gathered : Array String) (h : chunks.get? (chunks.skipEmpty i) = none) :
    gather stop chunks (n + 1) i gathered = (false, gathered, chunks.skipEmpty i) := by
  rw [gather]
  simp only [h]

theorem gather_stop {stop : String → Bool} {chunks : Chunks} {i : Nat} {w : String} (n : Nat)
    (gathered : Array String) (h : chunks.get? (chunks.skipEmpty i) = some w)
    (hs : stop w = true) :
    gather stop chunks (n + 1) i gathered = (true, gathered, chunks.skipEmpty i) := by
  rw [gather]
  simp only [h, hs, if_true]

theorem gather_pass {stop : String → Bool} {chunks : Chunks} {i : Nat} {w : String} (n : Nat)
    (gathered : Array String) (h : chunks.get? (chunks.skipEmpty i) = some w)
    (hs : stop w = false) :
    gather stop chunks (n + 1) i gathered
      = gather stop chunks n (chunks.skipEmpty i + 1) (gathered.push w) := by
  rw [gather]
  simp only [h, hs, Bool.false_eq_true, if_false]

/-- How gathering up to a grammar for the token ends in `c`, if gathering up to the token itself
comes to `x`. -/
def endOfGathering (t : Token) (start : Nat) (c : Context σ) (x : Bool × Array String × Nat) :
    Outcome (List String) × Context σ :=
  if x.1 || t.isEof then (.success x.2.1.toList, c.moveTo x.2.2)
  else ((c.moveTo x.2.2).restore start).fail start .unexpected

/-- Gathering up to a walk that matches where the token does is gathering up to the token. -/
theorem untilMatchFrom_eq_gather {stop : Walk σ α} {t : Token}
    (hstop : ∀ c : Context σ, c.Bare →
      ∃ trace, probe stop c = some (t.isAt c.chunks c.skipEmpty.cursor, { c with trace }))
    {start : Nat} : ∀ {n fuel : Nat} {gathered : Array String} {c : Context σ}, c.Bare →
      n ≤ fuel → c.chunks.size - c.cursor < n →
      ∃ trace, untilMatchFrom stop start fuel gathered c
        = some (endOfGathering t start { c with trace }
            (gather t.accepts c.chunks n c.cursor gathered))
  | 0, _, _, _, _, _, hn => by omega
  | n + 1, 0, _, _, _, hfuel, _ => by omega
  | n + 1, fuel + 1, gathered, c, hc, hfuel, hn => by
    obtain ⟨trace, hprobe⟩ := hstop c.skipEmpty ⟨hc.running, hc.unskipped⟩
    have hcursor : c.skipEmpty.skipEmpty.cursor = c.chunks.skipEmpty c.cursor :=
      c.chunks.skipEmpty_skipEmpty c.cursor
    rw [hcursor] at hprobe
    have hprobe : probe stop c.skipEmpty = some (t.isAt c.chunks (c.chunks.skipEmpty c.cursor),
        { c with cursor := c.chunks.skipEmpty c.cursor, trace }) := hprobe
    have hhere : c.skipEmpty.cursor = c.chunks.skipEmpty c.cursor := rfl
    rw [untilMatchFrom]
    simp only [hprobe, hhere, Option.bind_eq_bind, Option.bind_some, Token.isAt]
    cases hget : c.chunks.get? (c.chunks.skipEmpty c.cursor) with
    | none =>
      refine ⟨trace, ?_⟩
      rw [gather_end n gathered hget]
      cases heof : t.isEof <;> simp [endOfGathering, heof, Context.moveTo]
    | some chunk =>
      cases haccepts : t.accepts chunk with
      | true =>
        refine ⟨trace, ?_⟩
        rw [gather_stop n gathered hget haccepts]
        simp [endOfGathering, Context.moveTo, haccepts]
      | false =>
        have hsize := Chunks.lt_size_of_get? hget
        have hle := c.chunks.le_skipEmpty c.cursor
        have hn : c.chunks.size - (c.chunks.skipEmpty c.cursor + 1) < n := by omega
        simp only [haccepts, Bool.false_eq_true, if_false]
        rw [gather_pass n gathered hget haccepts]
        exact untilMatchFrom_eq_gather hstop
          (c := { c with cursor := c.chunks.skipEmpty c.cursor + 1, trace })
          ⟨hc.running, hc.unskipped⟩ (Nat.le_of_succ_le_succ hfuel) hn

/-- With a step for each chunk that is left, gathering ends at a chunk of the token or at the
end. -/
theorem gather_ends {stop : String → Bool} {chunks : Chunks} {fuel i : Nat}
    {before gathered : Array String} {found : Bool} {j : Nat} (hfuel : chunks.size - i < fuel)
    (h : gather stop chunks fuel i before = (found, gathered, j)) :
    if found then (chunks.get? j).any stop = true else chunks.get? j = none := by
  induction fuel generalizing i before with
  | zero => omega
  | succ fuel ih =>
    cases hget : chunks.get? (chunks.skipEmpty i) with
    | none =>
      cases (gather_end fuel before hget).symm.trans h
      simpa using hget
    | some w =>
      cases hs : stop w with
      | true =>
        cases (gather_stop fuel before hget hs).symm.trans h
        simp [hget, hs]
      | false =>
        have hsize := Chunks.lt_size_of_get? hget
        have hle := chunks.le_skipEmpty i
        exact ih (by omega) ((gather_pass fuel before hget hs).symm.trans h)

/-- What is gathered are the chunks that are not empty, and none of them is the sentinel. -/
theorem gather_filled {stop : String → Bool} {chunks : Chunks} {fuel i : Nat}
    {gathered : Array String} {found : Bool} {j : Nat}
    (h : gather stop chunks fuel i #[] = (found, gathered, j)) :
    Advance chunks i j ∧ gathered.toList = chunks.filled i j ∧
      ∀ w ∈ chunks.filled i j, stop w = false := by
  have hgathered := gather_gathered stop chunks fuel i #[]
  have hadvance : Advance chunks i (gather stop chunks fuel i #[]).2.2 :=
    gather_travels travel_advance _ _ _
  rw [h] at hgathered hadvance
  have hwords := chunks.wordsBetween_words hadvance.1
  refine ⟨hadvance, by rw [hgathered.words, hwords]; rfl, ?_⟩
  intro w hw
  rw [← hwords, wordsBetween] at hw
  obtain ⟨k, hk⟩ := List.mem_iff_getElem?.mp hw
  rw [List.getElem?_drop, List.getElem?_take] at hk
  split at hk
  · rename_i hlt
    simpa [hk] using hgathered.passed _ (Nat.le_add_right _ k) hlt
  · cases hk

theorem probe_map {β : Type} (w : Walk σ α) (f : α → β) : probe (w.map f) = probe w := by
  funext c
  cases h : w c with
  | none => simp [probe, peek, Walk.map, h]
  | some x => simp [probe, peek, Walk.map, h]

end Walk

namespace Grammar

variable {rules : RuleTable}

/-- The grammar of a token as the sentinel, given what gathering up to the token comes to. -/
theorem untilMatch_consume_yields (t : Token) {c : Context LinkedGrammar} (hc : c.Bare)
    {x : Bool × Array String × Nat}
    (h : Walk.gather t.accepts c.chunks (c.chunks.size - c.cursor + 1) c.cursor #[] = x) :
    ∃ trace, Yields rules (.untilMatch (.consume t)) c
      ((Walk.endOfGathering t c.cursor { c with trace } x).1.map .ofTexts)
      (Walk.endOfGathering t c.cursor { c with trace } x).2 := by
  have hstop : ∀ d : Context LinkedGrammar, d.Bare → ∃ trace,
      Walk.probe (run rules (c.chunks.size + 2) (.consume t)) d
        = some (t.isAt d.chunks d.skipEmpty.cursor, { d with trace }) := by
    intro d hd
    rw [run, step, Walk.probe_map]
    exact Walk.probe_consume_of_bare _ t _ hd
  have hsteps : c.chunks.size - c.cursor + 1 ≤ c.chunks.size + 2 := by omega
  obtain ⟨trace, hrounds⟩ :=
    Walk.untilMatchFrom_eq_gather hstop hc hsteps (Nat.lt_succ_self _)
  rw [h] at hrounds
  refine ⟨trace, c.chunks.size + 3, ?_⟩
  rw [run, step, Walk.map, Walk.untilMatch, hc.running, if_neg Bool.false_ne_true, hrounds]
  rfl

/-- Where no skip rule can run, a token and the grammar of that token are the same sentinel. If it
comes, both gather the chunks in front of it that are not empty, none of which the token matches,
and stop at one place; nothing is remembered. If it does not, both go back: the one says that the
token is missing at the end, the other that nothing was found from its start on. -/
theorem sentinels_agree (rules : RuleTable) (t : Token) {c : Context LinkedGrammar}
    (hc : c.Bare) :
    ∃ o₁ c₁ o₂ c₂, Yields rules (.untilToken t) c o₁ c₁ ∧
      Yields rules (.untilMatch (.consume t)) c o₂ c₂ ∧ c₁.cursor = c₂.cursor ∧
      ((∃ texts, o₁ = .success (.ofTexts texts) ∧ o₂ = .success (.ofTexts texts) ∧
          c₁.deepest = c.deepest ∧ c₂.deepest = c.deepest ∧ c.cursor ≤ c₁.cursor ∧
          texts = c.chunks.filled c.cursor c₁.cursor ∧ (∀ w ∈ texts, t.accepts w = false) ∧
          t.isAt c.chunks c₁.cursor = true) ∨
        (o₁ = .failure ⟨max c.cursor c.chunks.size, t⟩ ∧
          o₂ = .failure ⟨c.cursor, .unexpected⟩ ∧ c₁.cursor = c.cursor ∧ t.isEof = false ∧
          ∀ w ∈ c.chunks.filled c.cursor c.chunks.size, t.accepts w = false)) := by
  rcases hx : Walk.gather t.accepts c.chunks (c.chunks.size - c.cursor + 1) c.cursor #[]
    with ⟨found, gathered, j⟩
  obtain ⟨trace, hmatch⟩ := untilMatch_consume_yields t hc hx
  obtain ⟨hadvance, hwords, hpassed⟩ := Walk.gather_filled hx
  have hends := Walk.gather_ends (Nat.lt_succ_self _) hx
  cases hcomes : found || t.isEof with
  | true =>
    simp only [Walk.endOfGathering, hcomes, if_true] at hmatch
    refine ⟨_, c.moveTo j, _, _, ⟨1, ?_⟩, hmatch, rfl, .inl ⟨gathered.toList, rfl, rfl, rfl, rfl,
      hadvance.1, hwords, hwords ▸ hpassed, ?_⟩⟩
    · simp only [run, step, Walk.map, Walk.untilToken, hc.running, hx, hcomes, if_true]
      rfl
    · show t.isAt c.chunks j = true
      unfold Token.isAt
      cases found with
      | true =>
        obtain ⟨w, hw, hs⟩ := (Option.any_eq_true _ _).mp hends
        rw [hw]
        exact hs
      | false =>
        rw [show c.chunks.get? j = none from hends]
        exact hcomes
  | false =>
    obtain ⟨rfl, heof⟩ := (Bool.or_eq_false_iff).mp hcomes
    have hend : c.chunks.size ≤ j := Chunks.get?_eq_none_iff.mp hends
    have hj : j = max c.cursor c.chunks.size := by
      unfold Advance at hadvance
      omega
    simp only [Walk.endOfGathering, hcomes, Bool.false_eq_true, if_false] at hmatch
    refine ⟨.failure ⟨j, t⟩, (((c.moveTo j).noteMiss t).restore c.cursor).record ⟨j, t⟩, _, _,
      ⟨1, ?_⟩, hmatch, ?_, .inr ⟨by rw [hj], rfl, ?_, heof,
      c.chunks.filled_of_size_le hend ▸ hpassed⟩⟩
    · simp only [run, step, Walk.map, Walk.untilToken, hc.running, hx, hcomes, Bool.false_eq_true,
        if_false]
      rfl
    · exact (Context.cursor_restore _ _).trans (Context.cursor_restore _ _).symm
    · exact Context.cursor_restore _ _

/-- Within the skip rule, with empty chunks on both sides of what is gathered. -/
theorem sentinels_agree_between_empty :
    let c : Context LinkedGrammar :=
      { chunks := ⟨#["", "a", "", "b", ""]⟩, skip := some (.consume (.literal 0 "a")),
        skipping := true }
    ∃ c₁ c₂, Yields #[] (.untilToken (.literal 1 "b")) c (.success (.ofTexts ["a"])) c₁ ∧
      Yields #[] (.untilMatch (.consume (.literal 1 "b"))) c (.success (.ofTexts ["a"])) c₂ ∧
      c₂.cursor = 3 := by
  intro c
  have htoken : Yields #[] (.untilToken (.literal 1 "b")) c (.success (.ofTexts ["a"]))
      (c.moveTo 3) := ⟨1, rfl⟩
  obtain ⟨o₁, c₁, o₂, c₂, h₁, h₂, hcursor, hends⟩ :=
    sentinels_agree #[] (.literal 1 "b") (c := c) ⟨rfl, .inr rfl⟩
  obtain ⟨rfl, rfl⟩ := h₁.unique htoken
  rcases hends with ⟨texts, _, rfl, _, _, _, htexts, _⟩ | ⟨hmissed, _⟩
  · have htexts : texts = ["a"] := htexts.trans (by decide)
    exact ⟨c.moveTo 3, c₂, htoken, htexts ▸ h₂, hcursor.symm⟩
  · cases hmissed

end Grammar

end Chunkwise
