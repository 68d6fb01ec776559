import Chunkwise.Proofs.Advance
import Chunkwise.Proofs.Compose
import Chunkwise.Proofs.Gathering
import Chunkwise.Proofs.Reference

/-! Following the meaning of a grammar. A context stands at a word index, however many
empty chunks are around its cursor. For each way to derive a verdict, the interpreter
meets the verdict in a context that stands at its index, if it does so for what the
verdict is derived from. -/

namespace Chunkwise

open Grammar (Yields)

/-- The context stands at word `k` of the chunks, under the skip rule `skip` which is
running or not, has not stopped, and has room for `n` more rules. -/
structure StandsAt (chunks : Chunks) (skip : Option LinkedGrammar) (skipping : Bool)
    (n k : Nat) (c : Context LinkedGrammar) : Prop where
  inside : c.cursor ≤ chunks.size
  index : chunks.wordIndex c.cursor = k
  chunks : c.chunks = chunks
  skip : c.skip = skip
  skipping : c.skipping = skipping
  running : c.fatal = none
  room : ∀ limit, c.recursionLimit = some limit → c.ruleStack.length + n ≤ limit

/-- The outcome is that of the verdict, the context is left at its index, and the parse
goes on. -/
def Verdict.Met (chunks : Chunks) : Verdict → Outcome Value → Context LinkedGrammar → Prop
  | .success v k, o, c => c.fatal = none ∧ o = .success v ∧ chunks.wordIndex c.cursor = k
  | .failure, o, c => c.fatal = none ∧ o.isSuccess = false

def Verdict.isSuccess : Verdict → Bool
  | .success _ _ => true
  | .failure => false

theorem Verdict.Met.running {chunks : Chunks} {r : Verdict} {o : Outcome Value}
    {c : Context LinkedGrammar} (h : r.Met chunks o c) : c.fatal = none := by
  cases r <;> exact h.1

theorem Verdict.Met.isSuccess_eq {chunks : Chunks} {r : Verdict} {o : Outcome Value}
    {c : Context LinkedGrammar} (h : r.Met chunks o c) : o.isSuccess = r.isSuccess := by
  cases r with
  | success v k => rw [h.2.1]; rfl
  | failure => exact h.2

theorem Verdict.Met.alike {chunks : Chunks} {r : Verdict}
    {x y : Outcome Value × Context LinkedGrammar} (ha : Walk.EndsAlike x y)
    (h : r.Met chunks x.1 x.2) : r.Met chunks y.1 y.2 := by
  obtain ⟨o, c⟩ := x
  obtain ⟨hf, ha⟩ := ha
  cases r with
  | success v k =>
    obtain ⟨hn, rfl, hk⟩ := h
    obtain ⟨ho, hc⟩ := ha
    exact ⟨hf.trans hn, ho, by rw [hc]; exact hk⟩
  | failure =>
    obtain ⟨hn, ho⟩ := h
    cases o with
    | success v => cases ho
    | failure f => exact ⟨hf.trans hn, ha⟩

/-- Running the grammar meets the verdict. -/
def Follows (rules : RuleTable) (chunks : Chunks) (g : LinkedGrammar) (c : Context LinkedGrammar)
    (r : Verdict) : Prop := ∃ o c', Yields rules g c o c' ∧ r.Met chunks o c'

section

variable {rules : RuleTable} {chunks : Chunks} {skip : Option LinkedGrammar} {b : Bool}
  {n k : Nat} {c c' : Context LinkedGrammar} {g : LinkedGrammar}

theorem run_tidy (hrules : ∀ g ∈ rules, g.isOrderly = true) (hg : g.isBuiltIn = true)
    {fuel : Nat} : Walk.Tidy (·.isBuiltIn = true) (Grammar.run rules fuel g) :=
  Grammar.run_tidy (fun g hm => Grammar.isBuiltIn_of_isOrderly (hrules g hm)) hg

namespace StandsAt

theorem mono {m : Nat} (h : StandsAt chunks skip b n k c) (hm : m ≤ n) :
    StandsAt chunks skip b m k c := by
  refine { h with room := ?_ }
  intro limit hl
  have := h.room limit hl
  omega

/-- Another place in the same setting. -/
theorem move {k' : Nat} (h : StandsAt chunks skip b n k c) (hs : c'.setting = c.setting)
    (hi : c'.cursor ≤ chunks.size) (hk : chunks.wordIndex c'.cursor = k')
    (hf : c'.fatal = none) : StandsAt chunks skip b n k' c' := by
  obtain ⟨chunks', cursor, skip', skipping, deepest, ruleStack, limit, fatal, trace⟩ := c'
  obtain ⟨rfl, rfl, rfl, rfl, rfl⟩ := Setting.mk.inj hs
  exact ⟨hi, hk, h.chunks, h.skip, h.skipping, hf, h.room⟩

theorem skipEmpty (h : StandsAt chunks skip b n k c) : StandsAt chunks skip b n k c.skipEmpty := by
  obtain rfl := h.chunks
  have := c.chunks.skipEmpty_le c.cursor
  have := h.inside
  refine h.move rfl ?_ ?_ h.running
  · show c.chunks.skipEmpty c.cursor ≤ _
    omega
  · show c.chunks.wordIndex (c.chunks.skipEmpty c.cursor) = k
    rw [Chunks.wordIndex_skipEmpty, h.index]

theorem chunk? (h : StandsAt chunks skip b n k c) : c.skipEmpty.chunk? = chunks.words[k]? := by
  obtain rfl := h.chunks
  rw [← h.index, ← Chunks.get?_skipEmpty]
  rfl

theorem isExhausted_eq_false (h : StandsAt chunks skip b n k c) (hk : k < chunks.words.length) :
    c.isExhausted = false := by
  obtain rfl := h.chunks
  refine decide_eq_false ?_
  intro he
  have hi := Chunks.wordIndex_of_size_le he
  rw [h.index] at hi
  omega

theorem skip_isBuiltIn (h : StandsAt chunks skip b n k c)
    (hskip : ∀ s ∈ skip, s.isOrderly = true) : ∀ s ∈ c.skip, s.isBuiltIn = true := by
  rw [h.skip]
  exact fun s hm => Grammar.isBuiltIn_of_isOrderly (hskip s hm)

theorem cursor_ne {k' : Nat} (h : StandsAt chunks skip b n k c) (hk : k < k')
    (h' : StandsAt chunks skip b n k' c') : c'.cursor ≠ c.cursor := by
  intro he
  have hi := h'.index
  rw [he, h.index] at hi
  omega

theorem advance {o : Outcome Value} (h : StandsAt chunks skip b n k c)
    (hrules : ∀ g ∈ rules, g.isOrderly = true) (hskip : ∀ s ∈ skip, s.isOrderly = true)
    (hg : g.isForward = true) (hy : Yields rules g c o c') : Advance chunks c.cursor c'.cursor := by
  obtain ⟨fuel, hy⟩ := hy
  have hmove := Grammar.run_advances
    (fun g hm => Grammar.isForward_of_isOrderly (hrules g hm)) hg (by
      rw [h.skip]
      exact fun s hm => Grammar.isForward_of_isOrderly (hskip s hm)) hy
  rwa [h.chunks] at hmove

theorem index_le {o : Outcome Value} (h : StandsAt chunks skip b n k c)
    (hrules : ∀ g ∈ rules, g.isOrderly = true) (hskip : ∀ s ∈ skip, s.isOrderly = true)
    (hg : g.isForward = true) (hy : Yields rules g c o c') : k ≤ chunks.wordIndex c'.cursor := by
  rw [← h.index]
  exact Chunks.wordIndex_mono (h.advance hrules hskip hg hy).1

/-- The place behind a success. -/
theorem success {v : Value} {k' : Nat} (h : StandsAt chunks skip b n k c)
    (hrules : ∀ g ∈ rules, g.isOrderly = true) (hskip : ∀ s ∈ skip, s.isOrderly = true)
    (hg : g.isForward = true) (hy : Yields rules g c (.success v) c') (hf : c'.fatal = none)
    (hk : chunks.wordIndex c'.cursor = k') : StandsAt chunks skip b n k' c' := by
  have hmove := h.advance hrules hskip hg hy
  obtain ⟨fuel, hy⟩ := hy
  have hkept := run_tidy hrules (Grammar.isBuiltIn_of_isForward hg) (h.skip_isBuiltIn hskip) hy
  have := h.inside
  exact h.move hkept.setting (by unfold Advance at hmove; omega) hk hf

/-- The place where it was, behind a failure. -/
theorem failure {f : Failure} (h : StandsAt chunks skip b n k c)
    (hrules : ∀ g ∈ rules, g.isOrderly = true) (hskip : ∀ s ∈ skip, s.isOrderly = true)
    (hg : g.isBuiltIn = true) (hy : Yields rules g c (.failure f) c') (hf : c'.fatal = none) :
    StandsAt chunks skip b n k c' := by
  obtain ⟨fuel, hy⟩ := hy
  have hkept := run_tidy hrules hg (h.skip_isBuiltIn hskip) hy
  have hc := hkept.cursor rfl
  exact h.move hkept.setting (hc ▸ h.inside) (hc ▸ h.index) hf

end StandsAt

/-! ## Tokens -/

variable {t : Token}

theorem follows_word {w : String} (hc : StandsAt chunks skip b n k c)
    (hw : chunks.words[k]? = some w) (ht : t.accepts w = true) :
    Follows rules chunks (.consume t) c (.success (.text w) (k + 1)) := by
  have hchunk : c.skipEmpty.chunk? = some w := by rw [hc.chunk?, hw]
  have hend := hc.skipEmpty.isExhausted_eq_false (List.getElem?_eq_some_iff.mp hw).1
  have hfrom : Walk.consumeFrom (Walk.trySkip (Grammar.run rules 0)) t c.cursor 1 c
      = some (.success w, (c.skipEmpty.noteMatch t).moveTo (c.skipEmpty.cursor + 1)) := by
    simp [Walk.consumeFrom, hend, hchunk, Option.filter_some_pos ht]
  obtain rfl := hc.chunks
  obtain rfl := hc.index
  exact ⟨_, _, .consume hc.running hfrom, hc.running, rfl, Chunks.wordIndex_skipEmpty_succ hw⟩

theorem follows_finish (hc : StandsAt chunks skip b n chunks.words.length c)
    (ht : t.isEof = true) :
    Follows rules chunks (.consume t) c (.success (.text "") chunks.words.length) := by
  have hnone : c.skipEmpty.chunk? = none := by rw [hc.chunk?]; simp
  have hend : c.skipEmpty.isExhausted = true := decide_eq_true (Chunks.get?_eq_none_iff.mp hnone)
  have hfrom : Walk.consumeFrom (Walk.trySkip (Grammar.run rules 0)) t c.cursor 1 c
      = some (.success "", c.skipEmpty.noteMatch t) := by
    simp [Walk.consumeFrom, hend, ht]
  exact ⟨_, _, .consume hc.running hfrom, hc.running, rfl, hc.skipEmpty.index⟩

/-- Where the token does not stand, what happens next is up to the skip rule. -/
theorem StandsAt.consumeFrom_eq (hc : StandsAt chunks skip b n k c)
    (ht : t.standsAt chunks.words k = false)
    (trySkip : Context LinkedGrammar → Option (Bool × Context LinkedGrammar)) (start fuel : Nat) :
    Walk.consumeFrom trySkip t start (fuel + 1) c = (trySkip c.skipEmpty).bind fun x =>
      if x.1 then Walk.consumeFrom trySkip t start fuel x.2
      else some (((x.2.noteMiss t).restore start).fail x.2.cursor t) := by
  unfold Token.standsAt at ht
  obtain ⟨hword, heof⟩ := Bool.or_eq_false_iff.mp ht
  have hend : (c.skipEmpty.isExhausted && t.isEof) = false := by
    by_cases hk : k < chunks.words.length
    · rw [hc.skipEmpty.isExhausted_eq_false hk, Bool.false_and]
    · have hle := Chunks.wordIndex_le chunks c.cursor
      rw [hc.index] at hle
      have hk : k = chunks.words.length := by omega
      simpa [hk] using fun _ => heof
  have hnone : c.skipEmpty.chunk?.filter t.accepts = none := by
    rw [hc.chunk?]
    cases hw : chunks.words[k]? with
    | none => rfl
    | some w => exact Option.filter_some_neg (by simpa [hw] using hword)
  rw [Walk.consumeFrom]
  simp only [hend, hnone, Bool.false_eq_true, if_false]
  rfl

/-- A token that is missed, with no skip rule to run. -/
theorem follows_missed (hc : StandsAt chunks skip b n k c)
    (ht : t.standsAt chunks.words k = false) (hskip : skip = none ∨ b = true) :
    Follows rules chunks (.consume t) c .failure := by
  have htry : Walk.trySkip (Grammar.run rules 0) c.skipEmpty = some (false, c.skipEmpty) := by
    unfold Walk.trySkip
    have hs := hc.skipEmpty
    rcases hskip with rfl | rfl
    · simp [hs.skip]
    · simp [hs.skipping]
  have hfrom := hc.consumeFrom_eq ht (Walk.trySkip (Grammar.run rules 0)) c.cursor 0
  rw [htry, Option.bind_some] at hfrom
  exact ⟨_, _, .consume hc.running hfrom, (Context.fatal_restore _ _).trans hc.running, rfl⟩

section

variable {s : LinkedGrammar}

theorem StandsAt.inSkip (hc : StandsAt chunks (some s) false n k c) :
    StandsAt chunks (some s) true n k (Walk.inSkip c) :=
  { hc with skipping := rfl }

theorem StandsAt.outOfSkip (hc : StandsAt chunks (some s) true n k c)
    (c₀ : Context LinkedGrammar) : StandsAt chunks (some s) false n k (Walk.outOfSkip c₀ c) :=
  { hc with skipping := rfl }

/-- What an attempt to skip comes to, once the skip rule has been run. -/
theorem StandsAt.trySkip_eq {run : LinkedGrammar → Walk LinkedGrammar Value}
    {o : Outcome Value} {c₁ : Context LinkedGrammar} (hc : StandsAt chunks (some s) false n k c)
    (h : run s (Walk.inSkip c) = some (o, c₁)) :
    Walk.trySkip run c = some (if o.isSuccess && c.cursor < c₁.cursor then
      (true, (Walk.outOfSkip c c₁).note (·.add (.skipped c.cursor c₁.cursor)))
      else (false, (Walk.outOfSkip c c₁).moveTo c.cursor)) := by
  unfold Walk.trySkip
  rw [if_neg (by simp [hc.skipping])]
  split
  · rename_i hn
    rw [hc.skip] at hn
    cases hn
  · rename_i s' hs
    rw [hc.skip] at hs
    cases hs
    have h : run s { c with skipping := true } = some (o, c₁) := h
    simp only [h, Option.bind_eq_bind, Option.bind_some]
    split <;> rfl

/-- A token that is missed, and then found or missed again behind what is skipped. -/
theorem follows_skipped {v : Value} {k₁ : Nat} {r : Verdict}
    (hrules : ∀ g ∈ rules, g.isOrderly = true) (hs : s.isOrderly = true)
    (hc : StandsAt chunks (some s) false n k c) (ht : t.standsAt chunks.words k = false)
    (hskip : Follows rules chunks s (Walk.inSkip c.skipEmpty) (.success v k₁)) (hk : k < k₁)
    (hrest : ∀ c, StandsAt chunks (some s) false n k₁ c → Follows rules chunks (.consume t) c r) :
    Follows rules chunks (.consume t) c r := by
  obtain ⟨o, c₁, hy, hf, rfl, hk₁⟩ := hskip
  have hc₁ := hc.skipEmpty.inSkip.success hrules (by simpa using hs)
    (Grammar.isForward_of_isOrderly hs) hy hf hk₁
  have hmoved : c.skipEmpty.cursor < c₁.cursor := by
    refine Nat.lt_of_not_le ?_
    intro hle
    have := Chunks.wordIndex_mono (c := chunks) hle
    have := hc.skipEmpty.index
    omega
  have hc₂ : StandsAt chunks (some s) false n k₁ ((Walk.outOfSkip c.skipEmpty c₁).note
      (·.add (.skipped c.skipEmpty.cursor c₁.cursor))) :=
    (hc₁.outOfSkip c.skipEmpty).move rfl hc₁.inside hc₁.index hc₁.running
  obtain ⟨o₂, c₂, hy₂, hmet⟩ := hrest _ hc₂
  obtain ⟨m, hrun, hstep⟩ := hy.together hy₂
  obtain ⟨o₃, rfl, hfrom⟩ := Grammar.consumeFrom_of_step hc₂.running hstep
  obtain ⟨⟨o₄, c₄⟩, hfrom, halike⟩ := Walk.consumeFrom_start c.cursor hfrom
  have hagain := hc.consumeFrom_eq ht (Walk.trySkip (Grammar.run rules m)) c.cursor m
  rw [hc.skipEmpty.trySkip_eq hrun, if_pos (by simpa [Outcome.isSuccess] using hmoved),
    Option.bind_some, if_pos rfl, hfrom] at hagain
  exact ⟨_, _, .consume hc.running hagain, hmet.alike (halike.map .text)⟩

/-- A token that is missed where the skip rule finds nothing to skip. The cursor stands at
a word or at the end, so the skip rule cannot have moved over empty chunks only. -/
theorem follows_unskipped {r : Verdict} (hrules : ∀ g ∈ rules, g.isOrderly = true)
    (hs : s.isOrderly = true) (hc : StandsAt chunks (some s) false n k c)
    (ht : t.standsAt chunks.words k = false)
    (hskip : Follows rules chunks s (Walk.inSkip c.skipEmpty) r) (hr : r.isPast k = false) :
    Follows rules chunks (.consume t) c .failure := by
  obtain ⟨o, c₁, hy, hmet⟩ := hskip
  have hf := hmet.running
  have hstays : (o.isSuccess && c.skipEmpty.cursor < c₁.cursor) = false := by
    cases r with
    | failure => rw [hmet.2, Bool.false_and]
    | success v k₁ =>
      obtain ⟨_, rfl, hk₁⟩ := hmet
      have hc₁ := hc.skipEmpty.inSkip.success hrules (by simpa using hs)
        (Grammar.isForward_of_isOrderly hs) hy hf hk₁
      have hk : ¬ k < k₁ := by simpa [Verdict.isPast] using hr
      refine Bool.and_eq_false_iff.mpr (.inr (decide_eq_false ?_))
      intro hlt
      obtain rfl := hc.chunks
      cases hget : c.skipEmpty.chunk? with
      | none =>
        have hend := Chunks.get?_eq_none_iff.mp hget
        have := hc₁.inside
        exact absurd (Nat.lt_of_lt_of_le hlt this) (Nat.not_lt.mpr hend)
      | some w =>
        have hw : w ≠ "" := by
          rintro rfl
          exact Chunks.get?_skipEmpty_ne c.chunks c.cursor hget
        have hlt' := Chunks.wordIndex_lt_of_word hget hw hlt
        have hi := hc.skipEmpty.index
        have hi₁ := hc₁.index
        exact hk (by rw [← hi, ← hi₁]; exact hlt')
  obtain ⟨m, hrun⟩ := hy
  have hagain := hc.consumeFrom_eq ht (Walk.trySkip (Grammar.run rules m)) c.cursor 0
  rw [hc.skipEmpty.trySkip_eq hrun, if_neg (by simp [hstays]), Option.bind_some,
    if_neg (by simp)] at hagain
  exact ⟨_, _, .consume hc.running hagain, (Context.fatal_restore _ _).trans hf, rfl⟩

end

/-! ## The word in front -/

/-- The word in front of the cursor is found, or the start, behind empty chunks. -/
theorem follows_behind {r : Verdict} (hc : StandsAt chunks skip b n k c)
    (hstart : k = 0 → r = if t.isEof then .success (.text "") 0 else .failure)
    (hword : ∀ i w, k = i + 1 → chunks.words[i]? = some w →
      r = if t.accepts w then .success (.text w) i else .failure) :
    Follows rules chunks (.behind t) c r := by
  obtain rfl := hc.chunks
  have hindex := c.chunks.wordIndex_skipEmptyBack c.cursor
  rw [hc.index] at hindex
  have hstep : Grammar.step rules 0 (Grammar.run rules 0) (.behind t) c
      = (Walk.consumeBehind t c).map fun x => (x.1.map .text, x.2) := rfl
  unfold Walk.consumeBehind at hstep
  rw [if_neg (by simp [Context.isHalted, hc.running])] at hstep
  cases hback : c.chunks.skipEmptyBack c.cursor with
  | zero =>
    rw [hback, Chunks.wordIndex_zero] at hindex
    rw [hstart hindex.symm]
    simp only [hback] at hstep
    split at hstep
    · rename_i ht
      rw [if_pos ht]
      exact ⟨_, _, .of_step hstep, hc.running, rfl, Chunks.wordIndex_zero _⟩
    · rename_i ht
      rw [if_neg ht]
      exact ⟨_, _, .of_step hstep, hc.running, rfl⟩
  | succ i =>
    have hle := c.chunks.skipEmptyBack_le c.cursor
    have hin := hc.inside
    rw [hback] at hindex hle
    obtain ⟨w, hget⟩ := Option.ne_none_iff_exists'.mp
      (mt Chunks.get?_eq_none_iff.mp (show ¬ c.chunks.size ≤ i by omega))
    have hne : w ≠ "" := by
      rintro rfl
      exact Chunks.get?_skipEmptyBack_ne hback hget
    rw [Chunks.wordIndex_succ_of_word hget hne] at hindex
    rw [hword _ w hindex.symm (Chunks.words_wordIndex hget hne)]
    simp only [hback, hget] at hstep
    by_cases ht : t.accepts w = true
    · rw [if_pos ht]
      simp only [Option.filter_some_pos ht] at hstep
      exact ⟨_, _, .of_step hstep, hc.running, rfl, rfl⟩
    · rw [if_neg ht]
      simp only [Option.filter_some_neg (by simpa using ht)] at hstep
      exact ⟨_, _, .of_step hstep, hc.running, rfl⟩

/-! ## Gathering -/

/-- Gathering ends at the first place where the token stands, or at the end. -/
theorem StandsAt.untilToken_eq (hc : StandsAt chunks skip b n k c) (t : Token) :
    ∃ i, k ≤ chunks.wordIndex i ∧
      (∀ j, k ≤ j → j < chunks.wordIndex i → t.standsAt chunks.words j = false) ∧
      (t.standsAt chunks.words (chunks.wordIndex i) = false →
        chunks.wordIndex i = chunks.words.length) ∧
      Walk.untilToken t c = some (if t.standsAt chunks.words (chunks.wordIndex i) then
        (.success (wordsBetween chunks.words k (chunks.wordIndex i)), c.moveTo i)
        else (((c.moveTo i).noteMiss t).restore c.cursor).fail i t) := by
  obtain rfl := hc.chunks
  obtain rfl := hc.index
  have hg := Walk.gather_gathered t.accepts c.chunks (c.chunks.size - c.cursor + 1) c.cursor #[]
  generalize hgather : Walk.gather t.accepts c.chunks (c.chunks.size - c.cursor + 1) c.cursor #[]
    = x at hg
  obtain ⟨found, gathered, i⟩ := x
  have hlast : found = false → c.chunks.wordIndex i = c.chunks.words.length := by
    intro hf
    have hmissed := Walk.gather_missed (i := c.cursor)
      (Nat.lt_succ_of_le (c.chunks.words_length_sub_le c.cursor)) (by rw [hgather]; exact hf)
    rwa [hgather] at hmissed
  have hstands : t.standsAt c.chunks.words (c.chunks.wordIndex i) = (found || t.isEof) := by
    unfold Token.standsAt
    cases hf : found with
    | true => rw [hg.found hf, Bool.true_or, Bool.true_or]
    | false => simp [hlast hf]
  refine ⟨i, hg.le, ?_, ?_, ?_⟩
  · intro j hk hj
    have := c.chunks.wordIndex_le i
    have hne : j ≠ c.chunks.words.length := by omega
    have hpassed := hg.passed j hk hj
    simp [Token.standsAt, hpassed, hne]
  · rw [hstands, Bool.or_eq_false_iff]
    exact fun hf => hlast hf.1
  · have hwords : gathered.toList = wordsBetween c.chunks.words (c.chunks.wordIndex c.cursor)
        (c.chunks.wordIndex i) := by simpa using hg.words
    unfold Walk.untilToken
    rw [if_neg (by simp [Context.isHalted, hc.running])]
    simp only [hgather, hstands, hwords]
    split <;> rfl

theorem follows_untilToken {k' : Nat} (hc : StandsAt chunks skip b n k c) (hk : k ≤ k')
    (hend : k' ≤ chunks.words.length)
    (hpass : ∀ j, k ≤ j → j < k' → t.standsAt chunks.words j = false)
    (ht : t.standsAt chunks.words k' = true) :
    Follows rules chunks (.untilToken t) c
      (.success (.ofTexts (wordsBetween chunks.words k k')) k') := by
  obtain ⟨i, hi, hbefore, hlast, heq⟩ := hc.untilToken_eq t
  have hk' : chunks.wordIndex i = k' := by
    rcases Nat.lt_trichotomy (chunks.wordIndex i) k' with hlt | he | hgt
    · have := hlast (hpass _ hi hlt)
      omega
    · exact he
    · rw [hbefore k' hk hgt] at ht
      cases ht
  rw [hk', if_pos ht] at heq
  refine ⟨.success (.ofTexts (wordsBetween chunks.words k k')), c.moveTo i, .of_step (m := 0) ?_,
    hc.running, rfl, hk'⟩
  simp [Grammar.step, Walk.map, heq, Outcome.map]

theorem follows_untilToken_missed (hc : StandsAt chunks skip b n k c)
    (hpass : ∀ j, k ≤ j → j ≤ chunks.words.length → t.standsAt chunks.words j = false) :
    Follows rules chunks (.untilToken t) c .failure := by
  obtain ⟨i, hi, hbefore, hlast, heq⟩ := hc.untilToken_eq t
  rw [if_neg (by simp [hpass _ hi (chunks.wordIndex_le i)])] at heq
  have hstep : Grammar.step rules 0 (Grammar.run rules 0) (.untilToken t) c
      = (Walk.untilToken t c).map fun x => (x.1.map .ofTexts, x.2) := rfl
  rw [heq] at hstep
  exact ⟨_, _, .of_step hstep, (Context.fatal_restore _ _).trans hc.running, rfl⟩

/-- Looking ahead says whether the verdict is a success, and stays where it is. -/
theorem StandsAt.probe_eq {r : Verdict} (hrules : ∀ g ∈ rules, g.isOrderly = true)
    (hskip : ∀ s ∈ skip, s.isOrderly = true) (hc : StandsAt chunks skip b n k c)
    (hg : g.isBuiltIn = true) (h : Follows rules chunks g c r) :
    ∃ c₁ m₀, StandsAt chunks skip b n k c₁ ∧ c₁.cursor = c.cursor ∧
      ∀ m, m₀ ≤ m → Walk.probe (Grammar.run rules m g) c = some (r.isSuccess, c₁) := by
  obtain ⟨o, c', hy, hmet⟩ := h
  obtain ⟨m₀, hrun⟩ := hy.eventually
  have hprobe : ∀ m, m₀ ≤ m → Walk.probe (Grammar.run rules m g) c
      = some (r.isSuccess, { c'.restore c.cursor with deepest := c.deepest }) := by
    intro m hm
    simp [Walk.probe, Walk.peek, hrun m hm, hmet.isSuccess_eq]
  obtain ⟨hs, hcur⟩ := Walk.probe_still (run_tidy hrules hg) (hc.skip_isBuiltIn hskip)
    (hprobe m₀ (Nat.le_refl m₀))
  refine ⟨_, m₀, hc.move hs (Nat.le_trans (Nat.le_of_eq hcur) hc.inside)
    ((congrArg _ hcur).trans hc.index) ?_, hcur, hprobe⟩
  exact (Context.fatal_restore c' c.cursor).trans hmet.running

/-- Passing over one word where the sentinel is not. -/
theorem StandsAt.untilMatchFrom_pass (hrules : ∀ g ∈ rules, g.isOrderly = true)
    (hskip : ∀ s ∈ skip, s.isOrderly = true) (hc : StandsAt chunks skip b n k c)
    (hg : g.isBuiltIn = true) (hk : k < chunks.words.length)
    (h : Follows rules chunks g c.skipEmpty .failure) (start : Nat) (gathered : Array String) :
    ∃ c₁ gathered₁ m₀, StandsAt chunks skip b n (k + 1) c₁ ∧ ∀ m, m₀ ≤ m → ∀ fuel,
      Walk.untilMatchFrom (Grammar.run rules m g) start (fuel + 1) gathered c
        = Walk.untilMatchFrom (Grammar.run rules m g) start fuel gathered₁ c₁ := by
  obtain ⟨c₁, m₀, hc₁, hcur, hprobe⟩ := hc.skipEmpty.probe_eq hrules hskip hg h
  obtain rfl := hc.chunks
  obtain ⟨w, hw⟩ : ∃ w, c.chunks.words[k]? = some w := ⟨_, List.getElem?_eq_getElem hk⟩
  have hget : c₁.chunks.get? c.skipEmpty.cursor = some w := by
    rw [hc₁.chunks, ← hw, ← hc.chunk?]
    rfl
  have hsize := Chunks.lt_size_of_get? hget
  rw [hc₁.chunks] at hsize
  have hnext : c.chunks.wordIndex (c.skipEmpty.cursor + 1) = k + 1 := by
    rw [← hc.index] at hw ⊢
    exact Chunks.wordIndex_skipEmpty_succ hw
  refine ⟨c₁.moveTo (c.skipEmpty.cursor + 1), gathered.push w, m₀,
    hc₁.move rfl hsize hnext hc₁.running, fun m hm fuel => ?_⟩
  rw [Walk.untilMatchFrom]
  simp [hprobe m hm, Verdict.isSuccess, hget]

/-- Passing over words up to an index. -/
theorem StandsAt.untilMatchFrom_reach (hrules : ∀ g ∈ rules, g.isOrderly = true)
    (hskip : ∀ s ∈ skip, s.isOrderly = true) (hg : g.isBuiltIn = true) (start d : Nat)
    (hc : StandsAt chunks skip b n k c) (hd : k + d ≤ chunks.words.length)
    (h : ∀ j, k ≤ j → j < k + d → ∀ c, StandsAt chunks skip b n j c →
      Follows rules chunks g c .failure) (gathered : Array String) :
    ∃ c₁ gathered₁ m₀, StandsAt chunks skip b n (k + d) c₁ ∧ ∀ m, m₀ ≤ m → ∀ fuel,
      Walk.untilMatchFrom (Grammar.run rules m g) start (fuel + d) gathered c
        = Walk.untilMatchFrom (Grammar.run rules m g) start fuel gathered₁ c₁ := by
  induction d generalizing k c gathered with
  | zero => exact ⟨c, gathered, 0, hc, fun m _ fuel => rfl⟩
  | succ d ih =>
    obtain ⟨c₁, gathered₁, m₁, hc₁, hpass⟩ := hc.untilMatchFrom_pass hrules hskip hg (by omega)
      (h k (Nat.le_refl k) (by omega) _ hc.skipEmpty) start gathered
    obtain ⟨c₂, gathered₂, m₂, hc₂, hreach⟩ := ih hc₁ (by omega)
      (fun j hj hlt => h j (by omega) (by omega)) gathered₁
    refine ⟨c₂, gathered₂, max m₁ m₂, by rwa [Nat.add_right_comm] at hc₂, ?_⟩
    intro m hm fuel
    rw [← Nat.add_assoc, hpass m (by omega), hreach m (by omega)]

theorem follows_untilMatch {k' k'' : Nat} {v : Value} (hrules : ∀ g ∈ rules, g.isOrderly = true)
    (hskip : ∀ s ∈ skip, s.isOrderly = true) (hg : g.isBuiltIn = true)
    (hc : StandsAt chunks skip b n k c) (hk : k ≤ k') (hend : k' ≤ chunks.words.length)
    (hpass : ∀ j, k ≤ j → j < k' → ∀ c, StandsAt chunks skip b n j c →
      Follows rules chunks g c .failure)
    (hstop : ∀ c, StandsAt chunks skip b n k' c → Follows rules chunks g c (.success v k'')) :
    Follows rules chunks (.untilMatch g) c
      (.success (.ofTexts (wordsBetween chunks.words k k')) k') := by
  obtain ⟨d, rfl⟩ := Nat.exists_eq_add_of_le hk
  obtain ⟨c₁, gathered, m₁, hc₁, hreach⟩ := hc.untilMatchFrom_reach hrules hskip hg c.cursor d
    hend hpass #[]
  obtain ⟨c₂, m₂, hc₂, hcur, hprobe⟩ := hc₁.skipEmpty.probe_eq hrules hskip hg
    (hstop _ hc₁.skipEmpty)
  have hfrom := hreach (max m₁ m₂) (by omega) 1
  rw [Walk.untilMatchFrom] at hfrom
  simp only [hprobe (max m₁ m₂) (by omega), Verdict.isSuccess, Option.bind_eq_bind,
    Option.bind_some, if_true] at hfrom
  have hwords := (Walk.untilMatchFrom_words (run_tidy hrules hg) (hc.skip_isBuiltIn hskip) hfrom).2
  rw [hc.chunks, hc.index, hc₂.index] at hwords
  refine ⟨_, _, .untilMatch hc.running hfrom, hc₂.running, ?_, hc₂.index⟩
  simp [Outcome.map, hwords]

theorem follows_untilMatch_missed (hrules : ∀ g ∈ rules, g.isOrderly = true)
    (hskip : ∀ s ∈ skip, s.isOrderly = true) (hg : g.isBuiltIn = true)
    (hc : StandsAt chunks skip b n k c)
    (hpass : ∀ j, k ≤ j → j ≤ chunks.words.length → ∀ c, StandsAt chunks skip b n j c →
      Follows rules chunks g c .failure) :
    Follows rules chunks (.untilMatch g) c .failure := by
  have hle := chunks.wordIndex_le c.cursor
  rw [hc.index] at hle
  obtain ⟨d, hd⟩ := Nat.exists_eq_add_of_le hle
  obtain ⟨c₁, gathered, m₁, hc₁, hreach⟩ := hc.untilMatchFrom_reach hrules hskip hg c.cursor d
    (by omega) (fun j hj hlt => hpass j hj (by omega)) #[]
  obtain ⟨c₂, m₂, hc₂, hcur, hprobe⟩ := hc₁.skipEmpty.probe_eq hrules hskip hg
    (hpass (k + d) (by omega) (by omega) _ hc₁.skipEmpty)
  have hnone : c₂.chunks.get? c₁.skipEmpty.cursor = none := by
    have hchunk := hc₁.chunk?
    rw [← hd, List.getElem?_eq_none (Nat.le_refl _)] at hchunk
    rw [hc₂.chunks, ← hc₁.chunks]
    exact hchunk
  have hfrom := hreach (max m₁ m₂) (by omega) 1
  rw [Walk.untilMatchFrom] at hfrom
  simp only [hprobe (max m₁ m₂) (by omega), Verdict.isSuccess, Option.bind_eq_bind,
    Option.bind_some, Bool.false_eq_true, if_false, hnone] at hfrom
  exact ⟨_, _, .untilMatch hc.running hfrom, (Context.fatal_restore _ _).trans hc₂.running, rfl⟩

/-! ## Combined grammars -/

theorem Verdict.Met.cons {r : Verdict} {o : Outcome (List Value)} (v : Value)
    (h : r.Met chunks (o.map .list) c) :
    (r.cons v).Met chunks ((o.map (v :: ·)).map .list) c := by
  cases r with
  | failure => exact ⟨h.1, by simpa using h.2⟩
  | success w k =>
    obtain ⟨hf, ho, hk⟩ := h
    cases o with
    | failure f => cases ho
    | success vs => cases ho; exact ⟨hf, rfl, hk⟩

theorem follows_sequence_cons {gs : List LinkedGrammar} {v : Value} {r : Verdict} {k₁ : Nat}
    (hrules : ∀ g ∈ rules, g.isOrderly = true) (hskip : ∀ s ∈ skip, s.isOrderly = true)
    (hg : g.isForward = true) (hc : StandsAt chunks skip b n k c)
    (h : Follows rules chunks g c (.success v k₁))
    (hrest : ∀ c, StandsAt chunks skip b n k₁ c → Follows rules chunks (.sequence gs) c r) :
    Follows rules chunks (.sequence (g :: gs)) c (r.cons v) := by
  obtain ⟨o, c₁, hy, hf, rfl, hk₁⟩ := h
  obtain ⟨o, c₂, hy₂, hmet⟩ := hrest c₁ (hc.success hrules hskip hg hy hf hk₁)
  obtain ⟨m, hrun, hstep⟩ := hy.together hy₂
  obtain ⟨⟨o₂, c₂⟩, hseq, he⟩ := Option.map_eq_some_iff.mp hstep
  cases he
  obtain ⟨⟨o₃, c₃⟩, hcons, halike⟩ := Walk.sequence_cons hrun hseq
  refine ⟨o₃.map .list, c₃, .of_step (m := m) ?_, (hmet.cons v).alike (halike.map .list)⟩
  simp [Grammar.step, Walk.map, hcons]

theorem follows_sequence_missed {gs : List LinkedGrammar} (h : Follows rules chunks g c .failure) :
    Follows rules chunks (.sequence (g :: gs)) c .failure := by
  obtain ⟨o, c', ⟨m, hrun⟩, hf, ho⟩ := h
  cases o with
  | success v => cases ho
  | failure f =>
    refine ⟨.failure f, c'.restore c.cursor, .of_step (m := m) ?_,
      (Context.fatal_restore _ _).trans hf, rfl⟩
    simp [Grammar.step, Walk.map, Walk.sequence, Walk.inTurn, hrun, Outcome.map]

theorem follows_choice_here {gs : List LinkedGrammar} {v : Value}
    (h : Follows rules chunks g c (.success v k)) :
    Follows rules chunks (.choice (g :: gs)) c (.success v k) := by
  obtain ⟨o, c', ⟨m, hrun⟩, hf, rfl, hk⟩ := h
  refine ⟨.success v, c', .of_step (m := m) ?_, hf, rfl, hk⟩
  simp [Grammar.step, Walk.choice, Walk.tryEach, hrun]

theorem follows_choice_next {gs : List LinkedGrammar} {r : Verdict}
    (hrules : ∀ g ∈ rules, g.isOrderly = true) (hskip : ∀ s ∈ skip, s.isOrderly = true)
    (hg : g.isBuiltIn = true) (hc : StandsAt chunks skip b n k c)
    (h : Follows rules chunks g c .failure)
    (hrest : ∀ c, StandsAt chunks skip b n k c → Follows rules chunks (.choice gs) c r) :
    Follows rules chunks (.choice (g :: gs)) c r := by
  obtain ⟨o, c', hy, hf, ho⟩ := h
  cases o with
  | success v => cases ho
  | failure f =>
    have hc₁ : StandsAt chunks skip b n k (c'.restore c.cursor) :=
      (hc.failure hrules hskip hg hy hf).move (Context.setting_restore _ _)
        (by rw [Context.cursor_restore]; exact hc.inside)
        (by rw [Context.cursor_restore]; exact hc.index)
        ((Context.fatal_restore _ _).trans hf)
    obtain ⟨o, c₂, hy₂, hmet⟩ := hrest _ hc₁
    obtain ⟨m, hrun, hstep⟩ := hy.together hy₂
    obtain ⟨⟨o₃, c₃⟩, hcons, halike⟩ := Walk.choice_cons hrun hstep
    exact ⟨o₃, c₃, .of_step (m := m) hcons, hmet.alike halike⟩

theorem follows_optional {r : Verdict} (hc : StandsAt chunks skip b n k c)
    (h : Follows rules chunks g c r) :
    Follows rules chunks (.optional g) c
      (match r with
        | .success v k' => .success (.present v) k'
        | .failure => .success .null k) := by
  obtain ⟨o, c', ⟨m, hrun⟩, hmet⟩ := h
  cases r with
  | success v k' =>
    obtain ⟨hf, rfl, hk⟩ := hmet
    refine ⟨.success (.present v), c', .of_step (m := m) ?_, hf, rfl, hk⟩
    simp [Grammar.step, Walk.map, Walk.optional, hrun, Outcome.map, Value.ofOption]
  | failure =>
    obtain ⟨hf, ho⟩ := hmet
    cases o with
    | success v => cases ho
    | failure f =>
      refine ⟨.success .null, c'.restore c.cursor, .of_step (m := m) ?_,
        (Context.fatal_restore _ _).trans hf, rfl, ?_⟩
      · simp [Grammar.step, Walk.map, Walk.optional, hrun, Outcome.map, Value.ofOption]
      · rw [Context.cursor_restore, hc.index]

theorem follows_peek {r : Verdict} (hc : StandsAt chunks skip b n k c)
    (h : Follows rules chunks g c r) :
    Follows rules chunks (.peek g) c
      (match r with
        | .success v _ => .success v k
        | .failure => .failure) := by
  obtain ⟨o, c', ⟨m, hrun⟩, hmet⟩ := h
  have hf : (c'.restore c.cursor).fatal = none := (Context.fatal_restore _ _).trans hmet.running
  refine ⟨o, { c'.restore c.cursor with deepest := c.deepest }, .of_step (m := m) ?_, ?_⟩
  · simp [Grammar.step, Walk.peek, hrun]
  · cases r with
    | success v k' => exact ⟨hf, hmet.2.1, by rw [← hc.index]; simp⟩
    | failure => exact ⟨hf, hmet.2⟩

theorem follows_notAhead {r : Verdict} (hrules : ∀ g ∈ rules, g.isOrderly = true)
    (hskip : ∀ s ∈ skip, s.isOrderly = true) (hg : g.isBuiltIn = true)
    (hc : StandsAt chunks skip b n k c) (h : Follows rules chunks g c r) :
    Follows rules chunks (.notAhead g) c
      (if r.isSuccess then .failure else .success .null k) := by
  obtain ⟨c₁, m, hc₁, _, hprobe⟩ := hc.probe_eq hrules hskip hg h
  have hnot : Walk.notAhead (Grammar.run rules m g) c = some (if r.isSuccess then
      c₁.fail c.cursor .unexpected else (.success (), c₁)) := by
    simp [Walk.notAhead, hprobe m (Nat.le_refl m)]
  have hstep : Grammar.step rules m (Grammar.run rules m) (.notAhead g) c
      = (Walk.notAhead (Grammar.run rules m g) c).map fun x => (x.1.map fun _ => .null, x.2) := rfl
  rw [hnot] at hstep
  split
  · rename_i hr
    rw [if_pos hr] at hstep
    exact ⟨_, _, .of_step hstep, hc₁.running, rfl⟩
  · rename_i hr
    rw [if_neg hr] at hstep
    exact ⟨_, _, .of_step hstep, hc₁.running, rfl, hc₁.index⟩

theorem follows_map {r : Verdict} (f : Value → Value) (h : Follows rules chunks g c r) :
    Follows rules chunks (.map f g) c (r.map f) := by
  obtain ⟨o, c', ⟨m, hrun⟩, hmet⟩ := h
  refine ⟨o.map f, c', .of_step (m := m) ?_, ?_⟩
  · simp [Grammar.step, Walk.map, hrun]
  · cases r with
    | success v k => exact ⟨hmet.1, by rw [hmet.2.1]; rfl, hmet.2.2⟩
    | failure => exact ⟨hmet.1, by simpa using hmet.2⟩

theorem follows_discard {r : Verdict} (h : Follows rules chunks g c r) :
    Follows rules chunks (.discard g) c (r.map fun _ => .null) := by
  obtain ⟨o, c', hy, hmet⟩ := follows_map (fun _ => .null) h
  obtain ⟨m, hrun⟩ := hy.eventually
  exact ⟨o, c', .of_step (hrun (m + 1) (Nat.le_succ m)), hmet⟩

theorem follows_skipIn {s : LinkedGrammar} {r : Verdict} (hc : StandsAt chunks skip b n k c)
    (h : ∀ c, StandsAt chunks (some s) b n k c → Follows rules chunks g c r) :
    Follows rules chunks (.skipIn s g) c r := by
  obtain ⟨o, c', ⟨m, hrun⟩, hmet⟩ := h (c.withSkip (some s)) { hc with skip := rfl }
  refine ⟨o, c'.withSkip c.skip, .of_step (m := m) ?_, ?_⟩
  · simp [Grammar.step, Walk.withSkip, hrun]
  · cases r <;> exact hmet

/-- A rule, with room for it. -/
theorem follows_rule {rule : RuleRef} {r : Verdict} (hget : rules[rule.symbol.index]? = some g)
    (hc : StandsAt chunks skip b (n + 1) k c)
    (h : ∀ c, StandsAt chunks skip b n k c → Follows rules chunks g c r) :
    Follows rules chunks (.rule rule) c r := by
  have hlimit : c.exceededLimit? = none := by
    refine Option.filter_eq_none_iff.mpr ?_
    intro limit hl
    have := hc.room limit hl
    simp only [decide_eq_true_eq]
    omega
  have hpush : StandsAt chunks skip b n k (c.pushRule rule.name) := by
    refine { hc with room := ?_ }
    intro limit hl
    have := hc.room limit hl
    show c.ruleStack.length + 1 + n ≤ limit
    omega
  obtain ⟨o, c', ⟨m, hrun⟩, hmet⟩ := h _ hpush
  refine ⟨o, c'.exitRule o.isSuccess, .of_step (m := m) ?_, ?_⟩
  · simp [Grammar.step, Grammar.call, hget, Walk.inRule, Context.enterRule, Context.isHalted,
      hc.running, hlimit, hrun]
  · cases r with
    | success v k => exact ⟨by simpa using hmet.1, hmet.2.1, by simpa using hmet.2.2⟩
    | failure => exact ⟨by simpa using hmet.1, hmet.2⟩

/-! ## Repetition -/

open Grammar (repetitionOf)
open Walk.Repetition (Leaves Continues EndsBehind)

section

variable {least : Nat} {separator stop : Option LinkedGrammar}

theorem StandsAt.stopsAt_eq (hrules : ∀ g ∈ rules, g.isOrderly = true)
    (hskip : ∀ s ∈ skip, s.isOrderly = true) (hc : StandsAt chunks skip b n k c)
    (hstop : ∀ u ∈ stop, u.isBuiltIn = true)
    (h : ∀ u, stop = some u → Follows rules chunks u c .failure) :
    ∃ c₁ m₀, StandsAt chunks skip b n k c₁ ∧ c₁.cursor = c.cursor ∧
      ∀ m, m₀ ≤ m → ∀ g least separator,
        (repetitionOf (Grammar.run rules m) g least separator stop).stopsAt c
          = some (false, c₁) := by
  cases stop with
  | none => exact ⟨c, 0, hc, rfl, fun _ _ _ _ _ => rfl⟩
  | some u =>
    obtain ⟨c₁, m₀, hc₁, hcur, hprobe⟩ := hc.probe_eq hrules hskip (hstop u rfl) (h u rfl)
    exact ⟨c₁, m₀, hc₁, hcur, fun m hm _ _ _ => hprobe m hm⟩

/-- A repetition that finds no element. At the end of the chunks it does not look for one
if it needs none. -/
theorem follows_repeated_nil (hc : StandsAt chunks skip b n k c)
    (hdone : least = 0 → ∃ m c', Leaves (repetitionOf (Grammar.run rules m) g least separator stop)
      c.cursor c.cursor #[] c (.success []) c' ∧ c'.fatal = none ∧ c'.cursor = c.cursor)
    (hshort : 0 < least → ∃ m f c', Leaves
      (repetitionOf (Grammar.run rules m) g least separator stop)
      c.cursor c.cursor #[] c (.failure f) c' ∧ c'.fatal = none) :
    Follows rules chunks (.repeated g least separator stop) c (.ending least [] k) := by
  rcases Nat.eq_zero_or_pos least with rfl | hl
  · obtain ⟨m, c', hleaves, hf, hcur⟩ := hdone rfl
    by_cases hspent : (repetitionOf (Grammar.run rules m) g 0 separator stop).IsSpent #[] c
    · refine ⟨_, _, .repeated (n := 1) (Walk.Repetition.rounds_of_isSpent hspent),
        (Context.fatal_restore _ _).trans hc.running, rfl, ?_⟩
      rw [Context.cursor_restore, hc.index]
    · refine ⟨_, _, .repeated (n := 1) (Walk.Repetition.rounds_of_leaves hspent hleaves), hf,
        rfl, ?_⟩
      rw [hcur, hc.index]
  · obtain ⟨m, f, c', hleaves, hf⟩ := hshort hl
    have hspent : ¬ (repetitionOf (Grammar.run rules m) g least separator stop).IsSpent #[] c :=
      fun h => absurd h.2 (Nat.not_le.mpr hl)
    have hending : Verdict.ending least [] k = .failure := if_pos hl
    rw [hending]
    exact ⟨_, _, .repeated (n := 1) (Walk.Repetition.rounds_of_leaves hspent hleaves), hf, rfl⟩

theorem follows_repeated_stopped {u : LinkedGrammar} {v : Value} {k' : Nat}
    (hrules : ∀ g ∈ rules, g.isOrderly = true) (hskip : ∀ s ∈ skip, s.isOrderly = true)
    (hc : StandsAt chunks skip b n k c) (hu : u.isBuiltIn = true)
    (h : Follows rules chunks u c (.success v k')) :
    Follows rules chunks (.repeated g least separator (some u)) c (.ending least [] k) := by
  obtain ⟨c₁, m, hc₁, _, hprobe⟩ := hc.probe_eq hrules hskip hu h
  have hstops : (repetitionOf (Grammar.run rules m) g least separator (some u)).stopsAt c
      = some (true, c₁) := hprobe m (Nat.le_refl m)
  refine follows_repeated_nil hc (fun hl => ⟨m, _, .stopped hstops ?_, ?_, ?_⟩)
    (fun hl => ⟨m, _, _, .stoppedShort hstops hl, ?_⟩)
  · exact Nat.le_of_eq hl
  · exact (Context.fatal_restore _ _).trans hc₁.running
  · exact Context.cursor_restore _ _
  · exact (Context.fatal_restore _ _).trans hc₁.running

theorem follows_repeated_missed (hrules : ∀ g ∈ rules, g.isOrderly = true)
    (hskip : ∀ s ∈ skip, s.isOrderly = true) (hc : StandsAt chunks skip b n k c)
    (hstop : ∀ u ∈ stop, u.isBuiltIn = true)
    (h : ∀ u, stop = some u → Follows rules chunks u c .failure)
    (helement : ∀ c, StandsAt chunks skip b n k c → Follows rules chunks g c .failure) :
    Follows rules chunks (.repeated g least separator stop) c (.ending least [] k) := by
  obtain ⟨c₁, m₁, hc₁, _, hstops⟩ := hc.stopsAt_eq hrules hskip hstop h
  obtain ⟨o, c₂, hy, hf, ho⟩ := helement c₁ hc₁
  obtain ⟨m₂, hrun⟩ := hy.eventually
  cases o with
  | success v => cases ho
  | failure f =>
    have hstops := hstops (max m₁ m₂) (by omega) g least separator
    have hrun : (repetitionOf (Grammar.run rules (max m₁ m₂)) g least separator stop).element c₁
        = some (.failure f, c₂) := hrun (max m₁ m₂) (by omega)
    refine follows_repeated_nil hc (fun hl => ⟨_, _, .missed hstops hrun ?_, ?_, ?_⟩)
      (fun hl => ⟨_, _, _, .missedShort hstops hrun hl, ?_⟩)
    · exact Nat.le_of_eq hl
    · exact (Context.fatal_restore _ _).trans hf
    · exact Context.cursor_restore _ _
    · exact (Context.fatal_restore _ _).trans hf

/-- A round that finds an element, and where it leaves the context. -/
theorem StandsAt.round {v : Value} {k₁ : Nat} (hrules : ∀ g ∈ rules, g.isOrderly = true)
    (hskip : ∀ s ∈ skip, s.isOrderly = true) (hc : StandsAt chunks skip b n k c)
    (hg : g.isForward = true) (hstop : ∀ u ∈ stop, u.isBuiltIn = true)
    (h : ∀ u, stop = some u → Follows rules chunks u c .failure)
    (helement : ∀ c, StandsAt chunks skip b n k c → Follows rules chunks g c (.success v k₁)) :
    ∃ c₁ c₂ m₀, c₁.cursor = c.cursor ∧ StandsAt chunks skip b n k₁ c₂ ∧
      ∀ m, m₀ ≤ m → Grammar.run rules m g c₁ = some (.success v, c₂) ∧ ∀ least separator,
        (repetitionOf (Grammar.run rules m) g least separator stop).stopsAt c
          = some (false, c₁) := by
  obtain ⟨c₁, m₁, hc₁, hcur, hstops⟩ := hc.stopsAt_eq hrules hskip hstop h
  obtain ⟨o, c₂, hy, hf, rfl, hk₁⟩ := helement c₁ hc₁
  obtain ⟨m₂, hrun⟩ := hy.eventually
  exact ⟨c₁, c₂, max m₁ m₂, hcur, hc₁.success hrules hskip hg hy hf hk₁,
    fun m hm => ⟨hrun m (by omega), hstops m (by omega) g⟩⟩

/-- An element that is found behind the index is found before the end of the chunks. -/
theorem StandsAt.not_isSpent {k₁ : Nat} {c₂ : Context LinkedGrammar}
    (hc : StandsAt chunks skip b n k c) (hk : k < k₁) (hc₂ : StandsAt chunks skip b n k₁ c₂)
    (r : Walk.Repetition LinkedGrammar Value Value Value) : ¬ r.IsSpent #[] c := by
  have hle := chunks.wordIndex_le c₂.cursor
  rw [hc₂.index] at hle
  have hend := hc.isExhausted_eq_false (by omega)
  exact fun hspent => Bool.false_ne_true (hend.symm.trans hspent.1)

theorem Verdict.Met.after {r : Verdict} {v : Value} {k₁ rewind : Nat} {c₂ : Context LinkedGrammar}
    {x y : Outcome (List Value) × Context LinkedGrammar} (hk : chunks.wordIndex c₂.cursor = k₁)
    (he : EndsBehind [v] [] rewind c₂.cursor x y) (h : r.Met chunks (x.1.map .list) x.2) :
    (r.after v k₁).Met chunks (y.1.map .list) y.2 := by
  obtain ⟨o, c⟩ := x
  obtain ⟨hf, he⟩ := he
  cases o with
  | failure f =>
    cases r with
    | success w k => cases h.2.1
    | failure => exact ⟨hf.trans h.1, (Outcome.isSuccess_map _ _).trans he⟩
  | success vs =>
    obtain ⟨more, rfl, ho, hcur⟩ := he
    cases r with
    | failure => cases h.2
    | success w k =>
      obtain ⟨hn, hw, hk'⟩ := h
      cases hw
      rw [ho]
      cases vs with
      | nil =>
        rw [if_pos rfl] at hcur
        exact ⟨hf.trans hn, rfl, hcur.2 ▸ hk⟩
      | cons v' vs =>
        rw [if_neg (List.cons_ne_nil v' vs)] at hcur
        exact ⟨hf.trans hn, rfl, hcur ▸ hk'⟩

/-- A round that goes on, and then the rest of the repetition. -/
theorem follows_repeated_cons {v : Value} {r : Verdict} {k₁ m₀ : Nat}
    {c₁ c₂ c₃ : Context LinkedGrammar} (hc : StandsAt chunks skip b n k c) (hk : k < k₁)
    (hc₂ : StandsAt chunks skip b n k₁ c₂)
    (hgo : ∀ m, m₀ ≤ m → Continues (repetitionOf (Grammar.run rules m) g least separator stop)
      c v c₁ c₂ c₃)
    (hrest : Follows rules chunks (.repeated g (least - 1) separator stop) c₃ r) :
    Follows rules chunks (.repeated g least separator stop) c (r.after v k₁) := by
  obtain ⟨o, c₄, hy, hmet⟩ := hrest
  obtain ⟨m₁, hrun⟩ := hy.eventually
  have hrun := hrun (max m₀ m₁ + 1) (by omega)
  obtain ⟨⟨o₄, c₄⟩, hrep, he⟩ := Option.map_eq_some_iff.mp hrun
  cases he
  obtain ⟨⟨o₅, c₅⟩, hcons, hends⟩ := Walk.Repetition.repetition_cons
    (hc.not_isSpent hk hc₂ _) (hgo (max m₀ m₁) (by omega)) hrep
  exact ⟨_, _, .repeated hcons, hmet.after hc₂.index hends⟩

theorem follows_repeated_next {v : Value} {r : Verdict} {k₁ : Nat}
    (hrules : ∀ g ∈ rules, g.isOrderly = true) (hskip : ∀ s ∈ skip, s.isOrderly = true)
    (hc : StandsAt chunks skip b n k c) (hg : g.isForward = true)
    (hstop : ∀ u ∈ stop, u.isBuiltIn = true)
    (h : ∀ u, stop = some u → Follows rules chunks u c .failure)
    (helement : ∀ c, StandsAt chunks skip b n k c → Follows rules chunks g c (.success v k₁))
    (hk : k < k₁)
    (hrest : ∀ c, StandsAt chunks skip b n k₁ c →
      Follows rules chunks (.repeated g (least - 1) none stop) c r) :
    Follows rules chunks (.repeated g least none stop) c (r.after v k₁) := by
  obtain ⟨c₁, c₂, m₀, hcur, hc₂, hround⟩ := hc.round hrules hskip hg hstop h helement
  have hgo : ∀ m, m₀ ≤ m → Continues (repetitionOf (Grammar.run rules m) g least none stop)
      c v c₁ c₂ c₂ := fun m hm =>
    ⟨(hround m hm).2 least none, (hround m hm).1, rfl, hcur ▸ hc.cursor_ne hk hc₂⟩
  exact follows_repeated_cons hc hk hc₂ hgo (hrest c₂ hc₂)

theorem follows_repeated_last {s : LinkedGrammar} {v : Value} {k₁ : Nat}
    (hrules : ∀ g ∈ rules, g.isOrderly = true) (hskip : ∀ s ∈ skip, s.isOrderly = true)
    (hc : StandsAt chunks skip b n k c) (hg : g.isForward = true)
    (hstop : ∀ u ∈ stop, u.isBuiltIn = true) (hl : least ≤ 1)
    (h : ∀ u, stop = some u → Follows rules chunks u c .failure)
    (helement : ∀ c, StandsAt chunks skip b n k c → Follows rules chunks g c (.success v k₁))
    (hk : k < k₁)
    (hseparator : ∀ c, StandsAt chunks skip b n k₁ c → Follows rules chunks s c .failure) :
    Follows rules chunks (.repeated g least (some s) stop) c (.ending least [v] k₁) := by
  obtain ⟨c₁, c₂, m₁, hcur, hc₂, hround⟩ := hc.round hrules hskip hg hstop h helement
  obtain ⟨o, c₃, hy, hf, ho⟩ := hseparator c₂ hc₂
  obtain ⟨m₂, hrun⟩ := hy.eventually
  obtain ⟨helement, hstops⟩ := hround (max m₁ m₂) (by omega)
  have hseparates : (repetitionOf (Grammar.run rules (max m₁ m₂)) g least (some s) stop).separates
      c₂ = some (false, c₃) := by
    simp [Walk.Repetition.separates, repetitionOf, hrun (max m₁ m₂) (by omega), ho]
  have hleaves : Leaves (repetitionOf (Grammar.run rules (max m₁ m₂)) g least (some s) stop)
      c.cursor c.cursor #[] c (.success [v]) (c₃.restore c₂.cursor) :=
    .last (hstops least (some s)) helement hseparates
  have hending : Verdict.ending least [v] k₁ = .success (.list [v]) k₁ :=
    if_neg (by simpa using hl)
  rw [hending]
  refine ⟨_, _, .repeated (n := 1)
    (Walk.Repetition.rounds_of_leaves (hc.not_isSpent hk hc₂ _) hleaves),
    (Context.fatal_restore _ _).trans hf, rfl, ?_⟩
  rw [Context.cursor_restore, hc₂.index]

theorem follows_repeated_more {s : LinkedGrammar} {v v' : Value} {r : Verdict} {k₁ k₂ : Nat}
    (hrules : ∀ g ∈ rules, g.isOrderly = true) (hskip : ∀ s ∈ skip, s.isOrderly = true)
    (hc : StandsAt chunks skip b n k c) (hg : g.isForward = true) (hs : s.isForward = true)
    (hstop : ∀ u ∈ stop, u.isBuiltIn = true)
    (h : ∀ u, stop = some u → Follows rules chunks u c .failure)
    (helement : ∀ c, StandsAt chunks skip b n k c → Follows rules chunks g c (.success v k₁))
    (hk : k < k₁)
    (hseparator : ∀ c, StandsAt chunks skip b n k₁ c → Follows rules chunks s c (.success v' k₂))
    (hrest : ∀ c, StandsAt chunks skip b n k₂ c →
      Follows rules chunks (.repeated g (least - 1) (some s) stop) c r) :
    Follows rules chunks (.repeated g least (some s) stop) c (r.after v k₁) := by
  obtain ⟨c₁, c₂, m₁, hcur, hc₂, hround⟩ := hc.round hrules hskip hg hstop h helement
  obtain ⟨o, c₃, hy, hf, rfl, hk₂⟩ := hseparator c₂ hc₂
  have hc₃ := hc₂.success hrules hskip hs hy hf hk₂
  -- the separator does not go back to where the round began
  have hle := hc₂.index_le hrules hskip hs hy
  obtain ⟨m₂, hrun⟩ := hy.eventually
  have hgo : ∀ m, max m₁ m₂ ≤ m →
      Continues (repetitionOf (Grammar.run rules m) g least (some s) stop) c v c₁ c₂ c₃ := by
    intro m hm
    obtain ⟨helement, hstops⟩ := hround m (by omega)
    refine ⟨hstops least (some s), helement, ?_, hcur ▸ hc.cursor_ne (by omega) hc₃⟩
    simp [Walk.Repetition.separates, repetitionOf, hrun m (by omega), Outcome.isSuccess]
  exact follows_repeated_cons hc hk hc₂ hgo (hrest c₃ hc₃)

end

end

end Chunkwise
