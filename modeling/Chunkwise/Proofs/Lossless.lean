import Chunkwise.Proofs.Gathering
import Chunkwise.Proofs.Partition
import Chunkwise.Parser.Build
import Mathlib.Data.String.Basic

/-! Lossless parsing. Without a skip rule, a grammar that neither changes its values nor
looks ahead or behind for them spells what it matches: the texts in its value, joined, are
the text between where it starts and where it ends. What is tried and given up leaves
nothing behind. -/

namespace Chunkwise

/-! ## The text of a value -/

namespace Value

@[simp] theorem concat_null : concat .null = "" := rfl

@[simp] theorem concat_text (s : String) : (text s).concat = s := by simp [concat, leaves]

@[simp] theorem concat_present (v : Value) : (present v).concat = v.concat := rfl

@[simp] theorem concat_list (vs : List Value) :
    (list vs).concat = String.join (vs.map concat) := by
  show String.join (leavesOfList vs) = _
  induction vs with
  | nil => rfl
  | cons v vs ih =>
    rw [leavesOfList, String.join_append, ih, List.map_cons, String.join_cons]
    rfl

@[simp] theorem concat_ofTexts (ss : List String) : (ofTexts ss).concat = String.join ss := by
  simp [ofTexts, Function.comp_def]

end Value

/-! ## The text between two places -/

namespace Chunks

theorem before_eq_append (c : Chunks) {i j : Nat} (h : c.wordIndex i ≤ c.wordIndex j) :
    c.before j
      = c.before i ++ String.join (wordsBetween c.words (c.wordIndex i) (c.wordIndex j)) := by
  rw [before_eq_join_words, before_eq_join_words, ← String.join_append,
    take_append_wordsBetween c.words h]

/-- The text between two places, cut out of the whole by its bytes. -/
theorem extract_offset {c : Chunks} {i j : Nat} {s : String} (h : c.before j = c.before i ++ s) :
    String.Pos.Raw.extract c.text ⟨c.offset i⟩ ⟨c.offset j⟩ = s := by
  have htext : c.text = c.before i ++ s ++ String.join (c.pieces.toList.drop j) := by
    rw [← h, before, ← String.join_append, List.take_append_drop]
    rfl
  have hvalid := String.extract_of_valid (c.before i).toList s.toList
    (String.join (c.pieces.toList.drop j)).toList
  rw [← String.toList_append, ← String.toList_append, ← htext] at hvalid
  simpa [offset_eq, h, String.utf8ByteSize_append] using hvalid

end Chunks

namespace Walk

variable {σ α β γ : Type} {S : σ → Prop} {f : α → String}

/-- Without a skip rule, what a success spells is the text between where the walk starts
and where it ends. -/
def Spells (f : α → String) (w : Walk σ α) : Prop :=
  ∀ ⦃c v c'⦄, c.skip = none → w c = some (.success v, c') →
    c.chunks.before c'.cursor = c.chunks.before c.cursor ++ f v

theorem map_success {w : Walk σ α} {h : α → β} {c c' : Context σ} {v : β}
    (hm : w.map h c = some (.success v, c')) : ∃ u, w c = some (.success u, c') ∧ v = h u := by
  obtain ⟨⟨o, c₁⟩, h₁, he⟩ := Option.map_eq_some_iff.mp hm
  cases o with
  | failure e => cases he
  | success u => cases he; exact ⟨u, h₁, rfl⟩

theorem Spells.map {w : Walk σ α} (hw : Spells f w) {h : α → β} {f' : β → String}
    (hf : ∀ v, f' (h v) = f v) : Spells f' (w.map h) := by
  intro c v c' hn hm
  obtain ⟨u, h₁, rfl⟩ := map_success hm
  rw [hf]
  exact hw hn h₁

theorem mem_skip {c : Context σ} (h : c.skip = none) : ∀ s ∈ c.skip, S s := by
  rw [h]
  intro s hs
  cases hs

/-! ## Terminals -/

/-- Without a skip rule, the token is matched at the next word or not at all. -/
theorem consume_spells {run : σ → Walk σ β} {token : Token} {fuel : Nat} :
    Spells id (consume (trySkip run) token fuel) := by
  intro c v c' hn h
  unfold consume at h
  split at h
  · cases h
  · cases fuel with
    | zero => cases h
    | succ fuel =>
      have hskip : ∀ {b c₁}, trySkip run c.skipEmpty = some (b, c₁) → b = false := by
        intro b c₁ h₁
        rcases trySkip_cases h₁ with ⟨_, hb, _⟩ | ⟨skip, _, _, _, hs, _⟩ | ⟨skip, _, _, _, hs, _⟩
        · exact hb
        · cases hn.symm.trans hs
        · cases hn.symm.trans hs
      rcases consumeFrom_cases h with ⟨_, _, ho, rfl⟩ | ⟨chunk, hget, _, ho, rfl⟩ | ⟨c₁, _, ho, _⟩ |
        ⟨c₁, h₁, _⟩
      · cases ho
        have hi : c.chunks.wordIndex c.skipEmpty.cursor = c.chunks.wordIndex c.cursor :=
          c.chunks.wordIndex_skipEmpty c.cursor
        have := c.chunks.before_eq_append (Nat.le_of_eq hi.symm)
        rw [hi, wordsBetween_self] at this
        exact this
      · cases ho
        have hw : c.chunks.words[c.chunks.wordIndex c.cursor]? = some v := by
          rw [← Chunks.get?_skipEmpty]
          exact hget
        have hi := Chunks.wordIndex_skipEmpty_succ hw
        have := c.chunks.before_eq_append (show c.chunks.wordIndex c.cursor
          ≤ c.chunks.wordIndex (c.chunks.skipEmpty c.cursor + 1) by omega)
        rw [hi, wordsBetween_eq_cons hw (Nat.lt_succ_self _), wordsBetween_self, String.join_cons,
          String.join_nil, String.append_empty] at this
        exact this
      · cases ho
      · cases hskip h₁

theorem untilToken_spells {token : Token} :
    Spells String.join (untilToken token : Walk σ (List String)) := by
  intro c v c' _ h
  unfold untilToken at h
  split at h
  · cases h
  · dsimp only at h
    have hg := gather_gathered token.accepts c.chunks (c.chunks.size - c.cursor + 1) c.cursor #[]
    split at h
    · cases h
      rw [hg.words]
      exact c.chunks.before_eq_append hg.le
    · cases h

theorem untilMatch_spells {stop : Walk σ α} (hstop : Tidy S stop) {fuel : Nat} :
    Spells String.join (untilMatch stop fuel) := by
  intro c v c' hn h
  unfold untilMatch at h
  split at h
  · cases h
  · obtain ⟨hle, hv⟩ := untilMatchFrom_words hstop (mem_skip hn) h
    rw [hv]
    exact c.chunks.before_eq_append hle

/-- The end of the input is matched behind all chunks. -/
theorem consumeFrom_eof {skip : Context σ → Option (Bool × Context σ)} {start : Nat} :
    ∀ {fuel c v c'}, consumeFrom skip .eof start fuel c = some (.success v, c') →
      v = "" ∧ c'.chunks.size ≤ c'.cursor
  | 0, _, _, _, h => by cases h
  | fuel + 1, c, v, c', h => by
    rcases consumeFrom_cases h with ⟨he, _, ho, rfl⟩ | ⟨chunk, _, ha, _, _⟩ | ⟨c₁, _, ho, _⟩ |
      ⟨c₁, _, h⟩
    · cases ho
      exact ⟨rfl, of_decide_eq_true he⟩
    · cases ha
    · cases ho
    · exact consumeFrom_eof h

/-! ## Combined walks -/

/-- One walk behind another. -/
theorem Spells.after {w : Walk σ α} (hw : Spells f w) {c c₁ c₂ : Context σ} {v : α}
    (hs : c₁.setting = c.setting) (hn : c.skip = none) (h : w c₁ = some (.success v, c₂)) :
    c.chunks.before c₂.cursor = c.chunks.before c₁.cursor ++ f v := by
  have := hw ((Context.skip_eq hs).trans hn) h
  rwa [Context.chunks_eq hs] at this

theorem inTurn_spells : ∀ {ws : List (Walk σ α)}, (∀ w ∈ ws, Tidy S w) →
    (∀ w ∈ ws, Spells f w) → Spells (fun vs => String.join (vs.map f)) (inTurn ws)
  | [], _, _, c, v, c', _, h => by cases h; simp
  | w :: ws, ht, hw, c, v, c', hn, h => by
    obtain ⟨v, c₁, vs, h₁, h₂, rfl⟩ := inTurn_cons h
    have hs := (ht w (by simp) (mem_skip hn) h₁).setting
    have hrest : Spells (fun vs => String.join (vs.map f)) (inTurn ws) :=
      inTurn_spells (fun w hm => ht w (by simp [hm])) (fun w hm => hw w (by simp [hm]))
    rw [hrest.after hs hn h₂, hw w (by simp) hn h₁]
    simp [String.append_assoc]

theorem sequence_spells {ws : List (Walk σ α)} (ht : ∀ w ∈ ws, Tidy S w)
    (hw : ∀ w ∈ ws, Spells f w) : Spells (fun vs => String.join (vs.map f)) (sequence ws) :=
  fun _ _ _ hn h => inTurn_spells ht hw hn (sequence_inTurn h)

theorem tryEach_spells : ∀ {ws : List (Walk σ α)}, (∀ w ∈ ws, Tidy S w) →
    (∀ w ∈ ws, Spells f w) → ∀ {before c v c'}, c.skip = none →
      tryEach c.cursor before ws c = some (.success v, c') →
      c.chunks.before c'.cursor = c.chunks.before c.cursor ++ f v
  | [], _, _, some e, c, v, c', _, h => by cases h
  | [], _, _, none, c, v, c', _, h => by cases h
  | w :: ws, ht, hw, before, c, v, c', hn, h => by
    rw [tryEach] at h
    obtain ⟨⟨o₁, c₁⟩, h₁, h⟩ := Option.bind_eq_some_iff.mp h
    cases o₁ with
    | success v₁ => cases h; exact hw w (by simp) hn h₁
    | failure e =>
      have hs : (c₁.restore c.cursor).setting = c.setting := by
        simpa using (ht w (by simp) (mem_skip hn) h₁).setting
      have h : tryEach (c₁.restore c.cursor).cursor (some (.deepest before e)) ws
          (c₁.restore c.cursor) = some (.success v, c') := by simpa using h
      have hrest := tryEach_spells (fun w hm => ht w (by simp [hm]))
        (fun w hm => hw w (by simp [hm])) ((Context.skip_eq hs).trans hn) h
      rwa [Context.cursor_restore, Context.chunks_eq hs] at hrest

theorem optional_spells {w : Walk σ α} (hw : Spells f w) :
    Spells (fun v => v.elim "" f) (optional w) := by
  intro c v c' hn h
  obtain ⟨⟨o₁, c₁⟩, h₁, h⟩ := Option.bind_eq_some_iff.mp h
  cases o₁ with
  | success v₁ => cases h; exact hw hn h₁
  | failure e => cases h; simp

theorem notAhead_spells {w : Walk σ α} (ht : Tidy S w) : Spells (fun _ => "") (notAhead w) := by
  intro c v c' hn h
  obtain ⟨⟨b, c₁⟩, h₁, h⟩ := Option.bind_eq_some_iff.mp h
  have hc := (probe_still ht (mem_skip hn) h₁).2
  cases b with
  | true => cases h
  | false => cases h; simp [hc]

theorem inRule_spells {w : Walk σ α} (hw : Spells f w) (name : String) :
    Spells f (inRule name w) := by
  intro c v c' hn h
  rcases inRule_cases h with ⟨_, ho, _⟩ | ⟨limit, _, _, ho, _⟩ | ⟨c₁, _, _, h₁, rfl⟩
  · cases ho
  · cases ho
  · rw [Context.cursor_exitRule]
    exact hw (c := c.pushRule name) hn h₁

/-- Without a separator, each round begins behind the last element. -/
theorem Repetition.rounds_spells {r : Repetition σ α β γ} (hr : r.Tidy S)
    (hsep : r.separator = none) (hw : Spells f r.element) {start : Nat} :
    ∀ {fuel values c vs c'}, c.skip = none →
      r.rounds start fuel c.cursor values c = some (.success vs, c') →
      ∃ more, vs = values.toList ++ more ∧
        c.chunks.before c'.cursor = c.chunks.before c.cursor ++ String.join (more.map f)
  | 0, _, _, _, _, _, h => by cases h
  | fuel + 1, values, c, vs, c', hn, h => by
    have hstay : ∀ {d : Context σ}, ∃ more, values.toList = values.toList ++ more ∧
        c.chunks.before (d.restore c.cursor).cursor
          = c.chunks.before c.cursor ++ String.join (more.map f) :=
      ⟨[], by simp, by simp⟩
    have helement : ∀ {c₁ v c₂}, r.stopsAt c = some (false, c₁) →
        r.element c₁ = some (.success v, c₂) →
        c.chunks.before c₂.cursor = c.chunks.before c.cursor ++ f v := by
      intro c₁ v c₂ h₁ h₂
      obtain ⟨hs₁, hc₁⟩ := stopsAt_still hr (mem_skip hn) h₁
      rw [hw.after hs₁ hn h₂, hc₁]
    rcases rounds_cases h with hl | ⟨v, c₁, c₂, c₃, hgo, h⟩
    · cases hl with
      | exhausted _ _ => exact hstay
      | stopped _ _ => exact hstay
      | missed _ _ _ => exact hstay
      | @last c₁ c₂ c₃ v h₁ h₂ _ =>
        exact ⟨[v], by simp, by simp [helement h₁ h₂]⟩
    · -- nothing separates the elements, so the next round begins where this one ends
      have hc₃ : c₂ = c₃ := by
        have := hgo.separates
        unfold separates at this
        rw [hsep] at this
        cases this
        rfl
      obtain ⟨_, hs₂, _⟩ := hgo.setting hr (mem_skip hn)
      subst hc₃
      obtain ⟨more, rfl, hmore⟩ :=
        rounds_spells hr hsep hw ((Context.skip_eq hs₂).trans hn) h
      refine ⟨v :: more, by simp, ?_⟩
      rw [← Context.chunks_eq hs₂, hmore, Context.chunks_eq hs₂, helement hgo.stopsAt hgo.element,
        String.append_assoc, List.map_cons, String.join_cons]

theorem repetition_spells {r : Repetition σ α β γ} (hr : r.Tidy S) (hsep : r.separator = none)
    (hw : Spells f r.element) {fuel : Nat} :
    Spells (fun vs => String.join (vs.map f)) (repetition r fuel) := by
  intro c vs c' hn h
  obtain ⟨more, rfl, hmore⟩ := Repetition.rounds_spells hr hsep hw hn h
  simpa using hmore

end Walk

/-! ## Grammars -/

namespace Grammar

mutual

/-- Whether the value of a grammar keeps the text that it matches, if those of the rules
in `kept` do. Nothing is asked of what is only looked ahead at. -/
def keepsText (kept : Nat → Bool) : LinkedGrammar → Bool
  | .consume _ => true
  | .untilToken _ => true
  | .untilMatch _ => true
  | .unit => true
  | .sequence gs => keepsTextOfList kept gs
  | .choice gs => keepsTextOfList kept gs
  | .optional g => keepsText kept g
  | .notAhead _ => true
  | .repeated g _ none _ => keepsText kept g
  | .rule r => kept r.symbol.index
  | _ => false

def keepsTextOfList (kept : Nat → Bool) : List LinkedGrammar → Bool
  | [] => true
  | g :: gs => keepsText kept g && keepsTextOfList kept gs

end

theorem keepsText_of_mem {kept : Nat → Bool} {gs : List LinkedGrammar} {g : LinkedGrammar}
    (h : keepsTextOfList kept gs = true) (hm : g ∈ gs) : g.keepsText kept = true := by
  induction gs with
  | nil => cases hm
  | cons g' gs ih =>
    obtain ⟨hg, hgs⟩ := Bool.and_eq_true_iff.mp h
    rcases List.mem_cons.mp hm with rfl | hm
    · exact hg
    · exact ih hgs hm

variable {rules : RuleTable} {kept : Nat → Bool}

/-- What a grammar spells, given what its parts spell. -/
theorem step_spells {run : LinkedGrammar → Walk LinkedGrammar Value} {S : LinkedGrammar → Prop}
    {fuel : Nat} {g : LinkedGrammar} (hg : g.keepsText kept = true)
    (htidy : ∀ part ∈ g.parts, Walk.Tidy S (run part))
    (hparts : ∀ part ∈ g.parts, part.keepsText kept = true → Walk.Spells Value.concat (run part))
    (hrules : ∀ i g, rules[i]? = some g → kept i = true → Walk.Spells Value.concat (run g)) :
    Walk.Spells Value.concat (step rules fuel run g) := by
  cases g with
  | consume t => exact Walk.consume_spells.map Value.concat_text
  | untilToken t => exact Walk.untilToken_spells.map Value.concat_ofTexts
  | untilMatch g =>
    exact (Walk.untilMatch_spells (htidy g (by simp [parts]))).map Value.concat_ofTexts
  | unit =>
    intro c v c' _ h
    cases h
    simp
  | sequence gs =>
    exact (Walk.sequence_spells (List.forall_mem_map.mpr htidy) (List.forall_mem_map.mpr
      fun g hm => hparts g hm (keepsText_of_mem hg hm))).map Value.concat_list
  | choice gs =>
    intro c v c' hn h
    exact Walk.tryEach_spells (List.forall_mem_map.mpr htidy) (List.forall_mem_map.mpr
      fun g hm => hparts g hm (keepsText_of_mem hg hm)) hn h
  | optional g =>
    refine (Walk.optional_spells (hparts g (by simp [parts]) hg)).map ?_
    intro v
    cases v <;> rfl
  | notAhead g =>
    exact (Walk.notAhead_spells (htidy g (by simp [parts]))).map fun _ => rfl
  | repeated g least separator stop =>
    cases separator with
    | some s => cases hg
    | none =>
      exact (Walk.repetition_spells (repeated_tidy htidy) rfl
        (hparts g (by simp [parts]) hg)).map Value.concat_list
  | rule r =>
    intro c v c' hn h
    rcases call_cases h with ⟨g, hget, h⟩ | ⟨_, ho, _⟩
    · exact Walk.inRule_spells (hrules _ g hget hg) r.name hn h
    · cases ho
  | behind t => cases hg
  | peek g => cases hg
  | skipIn skip g => cases hg
  | map f g => cases hg
  | discard g => cases hg
  | native f => cases hg
  | andThen g f => cases hg

/-- A grammar that keeps the text spells what it matches, if the rules that it counts on
do. -/
theorem run_spells (hbuilt : ∀ g ∈ rules, g.isBuiltIn = true)
    (hkept : ∀ i g, rules[i]? = some g → kept i = true → g.keepsText kept = true) {fuel : Nat}
    {g : LinkedGrammar} (hb : g.isBuiltIn = true) (hg : g.keepsText kept = true) :
    Walk.Spells Value.concat (run rules fuel g) := by
  induction fuel generalizing g with
  | zero => intro c v c' _ h; cases h
  | succ fuel ih =>
    exact step_spells hg (fun part hm => run_tidy hbuilt (isBuiltIn_part hb hm))
      (fun part hm => ih (isBuiltIn_part hb hm))
      (fun i g hget hi => ih (hbuilt g (Array.mem_of_getElem? hget)) (hkept i g hget hi))

/-- The value of an entry is that of its grammar, with the end of the input behind it. -/
theorem run_entry {fuel : Nat} {g : LinkedGrammar} {c c' : Context LinkedGrammar} {v : Value}
    (h : run rules fuel (.map (Value.pick 0) (.sequence [g, .consume .eof])) c
      = some (.success v, c')) :
    ∃ m c₁, run rules m g c = some (.success v, c₁) ∧
      run rules m (.consume .eof) c₁ = some (.success (.text ""), c') ∧
      c'.chunks.size ≤ c'.cursor := by
  rcases fuel with _ | fuel
  · cases h
  obtain ⟨w, hw, rfl⟩ := Walk.map_success h
  rcases fuel with _ | m
  · cases hw
  obtain ⟨vs, hvs, rfl⟩ := Walk.map_success hw
  obtain ⟨v, c₁, _, h₁, hrest, rfl⟩ := Walk.inTurn_cons (Walk.sequence_inTurn hvs)
  obtain ⟨u, c₂, _, h₂, hnil, rfl⟩ := Walk.inTurn_cons hrest
  cases hnil
  rcases m with _ | k
  · cases h₂
  obtain ⟨s, heof, rfl⟩ := Walk.map_success h₂
  unfold Walk.consume at heof
  split at heof
  · cases heof
  · obtain ⟨rfl, hend⟩ := Walk.consumeFrom_eof heof
    exact ⟨k + 1, c₁, h₁, h₂, hend⟩

end Grammar

namespace Parser

theorem parse_ok {p : Parser} {name text : String} {trace t : Option Trace} {v : Value}
    {symbol : Symbol} (hsymbol : p.symbols.get? name = some symbol)
    (h : (p.parse name text trace).1 = some (.ok v, t)) :
    ∃ fuel c, Grammar.run p.rules fuel
      (.map (Value.pick 0) (.sequence [.rule ⟨symbol, name⟩, .consume .eof]))
      (p.start (p.tokenizer.tokenize text).1 trace) = some (.success v, c) := by
  have hentry : p.entry? name
      = some (.map (Value.pick 0) (.sequence [.rule ⟨symbol, name⟩, .consume .eof])) := by
    rw [ entry?, hsymbol, Option.map_some]
    rfl
  rw [fst_parse hentry] at h
  obtain ⟨⟨o, c⟩, hrun, hfinish⟩ := Option.bind_eq_some_iff.mp h
  refine ⟨_, c, hrun.trans ?_⟩
  have hok : c.finish o = .ok v := congrArg Prod.fst (Option.some.inj hfinish)
  unfold Context.finish at hok
  split at hok
  · split at hok
    · cases hok
    · cases hok; rfl
  · split at hok <;> cases hok

/-- **Values keep the text.** Without a skip rule, the texts in the value of a grammar,
joined, are the text from the place where it starts to the place where it ends, whatever
was tried in between; and the value of a parse is made up of the whole text. -/
theorem values_keep_text {rules : RuleTable} {kept : Nat → Bool}
    (hbuilt : ∀ g ∈ rules, g.isBuiltIn = true)
    (hkept : ∀ i g, rules[i]? = some g → kept i = true → g.keepsText kept = true) :
    (∀ fuel g c v c', g.isBuiltIn = true → g.keepsText kept = true → c.skip = none →
      Grammar.run rules fuel g c = some (.success v, c') →
      v.concat = String.Pos.Raw.extract c.chunks.text
        ⟨c.chunks.offset c.cursor⟩ ⟨c.chunks.offset c'.cursor⟩) ∧
    (∀ d p name symbol text trace v t, ComesFrom d p → p.rules = rules → p.skip = none →
      p.symbols.get? name = some symbol → kept symbol.index = true →
      (p.parse name text trace).1 = some (.ok v, t) → v.concat = text) := by
  constructor
  · intro fuel g c v c' hb hg hn h
    exact (Chunks.extract_offset (Grammar.run_spells hbuilt hkept hb hg hn h)).symm
  · rintro d p name symbol text trace v t hd rfl hn hsymbol hk h
    obtain ⟨fuel, c, hrun⟩ := parse_ok hsymbol h
    obtain ⟨m, c₁, hrule, heof, hend⟩ := Grammar.run_entry hrun
    have hstart : (p.start (p.tokenizer.tokenize text).1 trace).skip = none := hn
    have hs := (Grammar.run_tidy hbuilt rfl (Walk.mem_skip hstart) hrule).setting
    have hs' := (Grammar.run_tidy hbuilt rfl
      (Walk.mem_skip ((Context.skip_eq hs).trans hstart)) heof).setting
    have hchunks : c₁.chunks = (p.tokenizer.tokenize text).1 := Context.chunks_eq hs
    have hchunks' : c.chunks = (p.tokenizer.tokenize text).1 :=
      (Context.chunks_eq hs').trans hchunks
    have hkeeps : Grammar.keepsText kept (.rule ⟨symbol, name⟩) = true := by
      simpa [Grammar.keepsText] using hk
    have hv := Grammar.run_spells hbuilt hkept rfl hkeeps hstart hrule
    have he := Grammar.run_spells hbuilt hkept rfl (by simp [Grammar.keepsText])
      ((Context.skip_eq hs).trans hstart) heof
    rw [hchunks] at he
    rw [hchunks'] at hend
    calc v.concat = (p.tokenizer.tokenize text).1.before c₁.cursor := by
          simpa [start, Chunks.before] using hv.symm
      _ = (p.tokenizer.tokenize text).1.before c.cursor := by simpa using he.symm
      _ = (p.tokenizer.tokenize text).1.text := Chunks.before_of_size_le hend
      _ = text := hd.text_tokenize text

/-- A rule that calls itself as long as there is another word, begun behind a word with an
empty chunk in its way, and as a parse. -/
theorem values_keep_text_list :
    (∃ v c', Grammar.run #[.sequence [.consume (.literal 0 "é"), .optional (.rule ⟨⟨0⟩, "A"⟩)]] 12
        (.rule ⟨⟨0⟩, "A"⟩) { chunks := ⟨#["a", "é", "", "é"]⟩, cursor := 1 }
        = some (.success v, c') ∧ v.concat = String.Pos.Raw.extract "aéé" ⟨1⟩ ⟨5⟩) ∧
    (Value.list [.text "é", .null]).concat = "é" := by
  have hrules : ∀ g ∈ (#[.sequence [.consume (.literal 0 "é"), .optional (.rule ⟨⟨0⟩, "A"⟩)]] :
      RuleTable), g.isBuiltIn = true ∧ g.keepsText (fun _ => true) = true := by
    intro g hm
    cases List.mem_singleton.mp (Array.mem_toList_iff.mpr hm)
    exact ⟨rfl, rfl⟩
  have h := @values_keep_text _ (fun _ => true) (fun g hm => (hrules g hm).1)
    fun i g hget _ => (hrules g (Array.mem_of_getElem? hget)).2
  refine ⟨⟨_, _, rfl, ?_⟩, ?_⟩
  · exact h.1 12 (.rule ⟨⟨0⟩, "A"⟩) { chunks := ⟨#["a", "é", "", "é"]⟩, cursor := 1 } _ _ rfl
      rfl rfl rfl
  · exact h.2
      { tokens := []
        rules := [("A", .sequence [.consume (.literal 0 "é"), .optional (.rule "A")])]
        recursionLimit := some 2 }
      { tokenizer := { pattern := "", program := none }
        symbols := ⟨#["A"]⟩
        rules := #[.sequence [.consume (.literal 0 "é"), .optional (.rule ⟨⟨0⟩, "A"⟩)]]
        skip := none
        recursionLimit := some 2 }
      "A" ⟨0⟩ "é" none _ none (.built (by with_unfolding_all rfl)) rfl rfl
      (by with_unfolding_all rfl) rfl (by with_unfolding_all rfl)

end Parser

end Chunkwise
