import Chunkwise.Proofs.Cases
import Chunkwise.Proofs.Fuel
import Chunkwise.Proofs.Recognition

/-! Looking behind undoes consuming. Consuming passes forward over empty chunks and over what the
skip rule takes, looking behind passes back over empty chunks only; but both stop at a word of the
token, and between the cursor that consuming leaves and the word in front of it nothing is passed
over. So each finds again what the other one found. -/

namespace Chunkwise

namespace Chunks

variable {c : Chunks} {i j k : Nat}

/-- Nothing but empty chunks is passed back over. -/
theorem empty_of_skipEmptyBack_le (h : c.skipEmptyBack i ≤ k) (hk : k < i) :
    c.get? k = some "" := by
  induction i with
  | zero => omega
  | succ i ih =>
    unfold skipEmptyBack at h
    split at h
    · rename_i hempty
      rcases Nat.lt_succ_iff_lt_or_eq.mp hk with hlt | rfl
      · exact ih h hlt
      · exact emptyAt_iff.mp hempty
    · omega

/-- Empty chunks on the way back make no difference. -/
theorem skipEmptyBack_of_empty (hij : i ≤ j) (h : ∀ k, i ≤ k → k < j → c.get? k = some "") :
    c.skipEmptyBack j = c.skipEmptyBack i := by
  induction hij with
  | refl => rfl
  | @step j hij ih =>
    have hempty : c.emptyAt j = true := emptyAt_iff.mpr (h j hij (Nat.lt_succ_self j))
    rw [skipEmptyBack, if_pos hempty]
    exact ih fun k hik hkj => h k hik (Nat.lt_succ_of_lt hkj)

theorem skipEmptyBack_of_word {w : String} (h : c.get? i = some w) (hw : w ≠ "") :
    c.skipEmptyBack (i + 1) = i + 1 := by
  have hempty : c.emptyAt i ≠ true := fun he =>
    hw (Option.some.inj (h.symm.trans (emptyAt_iff.mp he)))
  rw [skipEmptyBack, if_neg hempty]

end Chunks

/-- Chunk `i` is a word of the token, and so it is not empty. -/
structure Token.IsWord (t : Token) (chunks : Chunks) (i : Nat) (w : String) : Prop where
  chunk : chunks.get? i = some w
  nonempty : w ≠ ""
  accepted : t.accepts w = true

namespace Walk

variable {σ : Type} {t : Token} {c c' : Context σ} {i : Nat} {w : String}

/-- Whatever is skipped, consuming ends behind a word of the token. -/
theorem isWord_of_consumeFrom (ht : t.isEof = false) {skip : Context σ → Option (Bool × Context σ)}
    {start : Nat} : ∀ {fuel : Nat} {c : Context σ},
      consumeFrom skip t start fuel c = some (.success w, c') →
      ∃ i, c'.cursor = i + 1 ∧ t.IsWord c'.chunks i w
  | 0, _, h => by cases h
  | fuel + 1, c, h => by
    rcases consumeFrom_cases h with ⟨_, heof, _⟩ | ⟨chunk, hget, haccepts, ho, rfl⟩ |
      ⟨_, _, ho, _⟩ | ⟨c₁, _, h⟩
    · exact absurd heof (by simp [ht])
    · cases ho
      refine ⟨c.skipEmpty.cursor, rfl, hget, ?_, haccepts⟩
      rintro rfl
      exact c.chunks.get?_skipEmpty_ne c.cursor hget
    · cases ho
    · exact isWord_of_consumeFrom ht h

theorem isWord_of_consume (ht : t.isEof = false) {skip : Context σ → Option (Bool × Context σ)}
    {fuel : Nat} (h : consume skip t fuel c = some (.success w, c')) :
    ∃ i, c'.cursor = i + 1 ∧ t.IsWord c'.chunks i w := by
  unfold consume at h
  split at h
  · cases h
  · exact isWord_of_consumeFrom ht h

/-- Looking behind finds the word that stands behind the empty chunks. -/
theorem consumeBehind_of_isWord (hrunning : c.isHalted = false)
    (hback : c.chunks.skipEmptyBack c.cursor = i + 1) (hword : t.IsWord c.chunks i w) :
    consumeBehind t c = some (.success w, (c.moveTo i).noteMatch t) := by
  simp only [consumeBehind, hrunning, Bool.false_eq_true, if_false, hback, hword.chunk,
    Option.filter_some, hword.accepted, if_true]

/-- What looking behind finds is a word of the token, with empty chunks behind it. -/
theorem isWord_of_consumeBehind (ht : t.isEof = false)
    (h : consumeBehind t c = some (.success w, c')) :
    c.isHalted = false ∧ c.chunks.skipEmptyBack c.cursor = c'.cursor + 1 ∧
      t.IsWord c.chunks c'.cursor w ∧ c' = (c.moveTo c'.cursor).noteMatch t := by
  unfold consumeBehind at h
  split at h
  · cases h
  · rename_i hrunning
    split at h
    · rw [ht] at h
      cases h
    · rename_i i hback
      split at h
      · rename_i chunk hchunk
        obtain ⟨hget, haccepts⟩ := Option.filter_eq_some_iff.mp hchunk
        cases h
        refine ⟨by simpa using hrunning, hback, ⟨hget, ?_, haccepts⟩, rfl⟩
        rintro rfl
        exact Chunks.get?_skipEmptyBack_ne hback hget
      · cases h

end Walk

namespace Grammar

variable {rules : RuleTable} {t : Token} {c c' : Context LinkedGrammar} {i : Nat} {v : Value}
  {w : String}

theorem isWord_of_yields_consume (ht : t.isEof = false)
    (h : Yields rules (.consume t) c (.success v) c') :
    ∃ i w, v = .text w ∧ c'.cursor = i + 1 ∧ t.IsWord c'.chunks i w := by
  obtain ⟨_ | fuel, h⟩ := h
  · cases h
  · obtain ⟨⟨o, d⟩, h₁, he⟩ := Option.map_eq_some_iff.mp h
    cases o with
    | failure f => cases he
    | success w =>
      cases he
      obtain ⟨i, hcursor, hword⟩ := Walk.isWord_of_consume ht h₁
      exact ⟨i, w, rfl, hcursor, hword⟩

/-- A token is consumed where a word of it stands. -/
theorem yields_consume (rules : RuleTable) (hrunning : c.isHalted = false)
    (hword : t.IsWord c.chunks c.cursor w) :
    ∃ d, Yields rules (.consume t) c (.success (.text w)) d ∧ d.cursor = c.cursor + 1 := by
  obtain ⟨d, hconsume, hcursor⟩ := Walk.consume_chunk (Walk.trySkip (run rules 1)) hrunning
    hword.chunk hword.nonempty hword.accepted 0
  refine ⟨d, ⟨2, ?_⟩, hcursor⟩
  rw [run, step, Walk.map, hconsume]
  rfl

theorem yields_behind (rules : RuleTable) (hrunning : c.isHalted = false)
    (hback : c.chunks.skipEmptyBack c.cursor = i + 1) (hword : t.IsWord c.chunks i w) :
    Yields rules (.behind t) c (.success (.text w)) ((c.moveTo i).noteMatch t) := by
  refine ⟨1, ?_⟩
  rw [run, step, Walk.map, Walk.consumeBehind_of_isWord hrunning hback hword]
  rfl

theorem isWord_of_yields_behind (ht : t.isEof = false)
    (h : Yields rules (.behind t) c (.success v) c') :
    ∃ w, v = .text w ∧ c.isHalted = false ∧
      c.chunks.skipEmptyBack c.cursor = c'.cursor + 1 ∧ t.IsWord c.chunks c'.cursor w ∧
      c' = (c.moveTo c'.cursor).noteMatch t := by
  obtain ⟨_ | fuel, h⟩ := h
  · cases h
  · obtain ⟨⟨o, d⟩, h₁, he⟩ := Option.map_eq_some_iff.mp h
    cases o with
    | failure f => cases he
    | success w =>
      cases he
      exact ⟨w, rfl, Walk.isWord_of_consumeBehind ht h₁⟩

/-- **Looking behind inverts consuming**, for every token but that of the end, and whatever skip
rule is in force. Where a token was consumed and the parse goes on, looking behind from there, or
from behind empty chunks that follow, gives the same value and moves in front of what was consumed,
from where it can be consumed again. The other way round, what looking behind finds can be consumed,
and only empty chunks stand between it and where looking behind began. -/
theorem lookbehind_inverts_consuming (rules : RuleTable) {t : Token} (ht : t.isEof = false) :
    (∀ (c c' : Context LinkedGrammar) (v : Value), Yields rules (.consume t) c (.success v) c' →
      c'.isHalted = false →
      ∀ j, c'.cursor ≤ j → (∀ k, c'.cursor ≤ k → k < j → c'.chunks.get? k = some "") →
      ∃ d, Yields rules (.behind t) (c'.moveTo j) (.success v) d ∧ d.cursor + 1 = c'.cursor ∧
        ∃ e, Yields rules (.consume t) d (.success v) e ∧ e.cursor = c'.cursor) ∧
    ∀ (c c' : Context LinkedGrammar) (v : Value), Yields rules (.behind t) c (.success v) c' →
      c'.cursor < c.cursor ∧
      (∃ d, Yields rules (.consume t) c' (.success v) d ∧ d.cursor = c'.cursor + 1) ∧
      ∀ k, c'.cursor + 1 ≤ k → k < c.cursor → c.chunks.get? k = some "" := by
  constructor
  · intro c c' v h hrunning j hj hempty
    obtain ⟨i, w, rfl, hcursor, hword⟩ := isWord_of_yields_consume ht h
    have hback : c'.chunks.skipEmptyBack j = i + 1 := by
      rw [Chunks.skipEmptyBack_of_empty hj hempty, hcursor]
      exact Chunks.skipEmptyBack_of_word hword.chunk hword.nonempty
    obtain ⟨e, hagain, hend⟩ := yields_consume rules (t := t)
      (c := ((c'.moveTo j).moveTo i).noteMatch t) hrunning hword
    exact ⟨_, yields_behind rules hrunning hback hword, hcursor.symm, e, hagain,
      hend.trans hcursor.symm⟩
  · intro c c' v h
    obtain ⟨w, rfl, hrunning, hback, hword, hc'⟩ := isWord_of_yields_behind ht h
    have hle := c.chunks.skipEmptyBack_le c.cursor
    have hthere : c'.isHalted = false ∧ t.IsWord c'.chunks c'.cursor w := by
      rw [hc']
      exact ⟨hrunning, hword⟩
    exact ⟨by omega, yields_consume rules hthere.1 hthere.2, fun k hk hlt =>
      Chunks.empty_of_skipEmptyBack_le (by omega) hlt⟩

/-- A blank is skipped in front of the token, and empty chunks follow it to the end. -/
theorem lookbehind_inverts_consuming_blank :
    ∃ c' d e : Context LinkedGrammar,
      Yields #[] (.consume (.literal 0 "a"))
        { chunks := ⟨#["", " ", "", "a", "", ""]⟩, skip := some (.consume (.literal 1 " ")) }
        (.success (.text "a")) c' ∧ c'.cursor = 4 ∧
      Yields #[] (.behind (.literal 0 "a")) (c'.moveTo 6) (.success (.text "a")) d ∧
      d.cursor = 3 ∧
      Yields #[] (.consume (.literal 0 "a")) d (.success (.text "a")) e ∧ e.cursor = 4 ∧
      ∀ k, 4 ≤ k → k < 6 → c'.chunks.get? k = some "" := by
  obtain ⟨c', h, hcursor, hrunning, hchunks⟩ : ∃ c', Yields #[] (.consume (.literal 0 "a"))
      { chunks := ⟨#["", " ", "", "a", "", ""]⟩, skip := some (.consume (.literal 1 " ")) }
      (.success (.text "a")) c' ∧ c'.cursor = 4 ∧ c'.isHalted = false ∧
        c'.chunks = ⟨#["", " ", "", "a", "", ""]⟩ := ⟨_, ⟨9, rfl⟩, rfl, rfl, rfl⟩
  have hempty : ∀ k, c'.cursor ≤ k → k < 6 → c'.chunks.get? k = some "" := by
    rw [hcursor, hchunks]
    decide
  obtain ⟨d, hbehind, hd, _⟩ := (lookbehind_inverts_consuming #[] rfl).1 _ c' _ h hrunning 6
    (by omega) hempty
  have hd : d.cursor = 3 := by omega
  obtain ⟨_, ⟨e, hagain, he⟩, hbetween⟩ :=
    (lookbehind_inverts_consuming #[] rfl).2 _ d _ hbehind
  exact ⟨c', d, e, h, hcursor, hbehind, hd, hagain, by omega, fun k hk => hbetween k (by omega)⟩

end Grammar

end Chunkwise
