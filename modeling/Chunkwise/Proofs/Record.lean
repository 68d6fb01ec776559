import Chunkwise.Proofs.Account
import Chunkwise.Proofs.Discipline

/-! The failure on record. Out of the failures that a run puts on record, the deepest one is
kept, and the last one of those that are equally deep; what fails while looking ahead or
while skipping leaves no mark. A parse that fails is reported at that failure, unless it
failed further on. -/

namespace Chunkwise

/-- The deepest of some failures, and the last one of those that are equally deep. -/
def IsDeepest (fs : List Failure) (d : Failure) : Prop :=
  ∃ before behind, fs = before ++ d :: behind ∧ (∀ f ∈ before, f.position ≤ d.position) ∧
    ∀ f ∈ behind, f.position < d.position

theorem IsDeepest.le {fs : List Failure} {d f : Failure} (h : IsDeepest fs d) (hm : f ∈ fs) :
    f.position ≤ d.position := by
  obtain ⟨before, behind, rfl, hbefore, hbehind⟩ := h
  rcases List.mem_append.mp hm with hm | hm
  · exact hbefore f hm
  · rcases List.mem_cons.mp hm with rfl | hm
    · exact Nat.le_refl _
    · exact Nat.le_of_lt (hbehind f hm)

/-- A failure that is no deeper may come in front. -/
theorem IsDeepest.cons {fs : List Failure} {d f : Failure} (h : IsDeepest fs d)
    (hf : f.position ≤ d.position) : IsDeepest (f :: fs) d := by
  obtain ⟨before, behind, rfl, hbefore, hbehind⟩ := h
  refine ⟨f :: before, behind, rfl, ?_, hbehind⟩
  intro f' hm
  rcases List.mem_cons.mp hm with rfl | hm
  · exact hf
  · exact hbefore f' hm

/-- A failure that is less deep than the one before it may come in between. -/
theorem IsDeepest.insert {fs : List Failure} {d e f : Failure} (h : IsDeepest (d :: fs) e)
    (hf : f.position < d.position) : IsDeepest (d :: f :: fs) e := by
  have hd : d.position ≤ e.position := h.le (by simp)
  obtain ⟨before, behind, he, hbefore, hbehind⟩ := h
  rcases before with _ | ⟨d', before⟩
  · obtain ⟨rfl, rfl⟩ := List.cons.inj he
    refine ⟨[], f :: fs, rfl, by simp, ?_⟩
    intro f' hm
    rcases List.mem_cons.mp hm with rfl | hm
    · exact hf
    · exact hbehind f' hm
  · obtain ⟨rfl, rfl⟩ := List.cons.inj he
    have hrest : IsDeepest (before ++ e :: behind) e :=
      ⟨before, behind, rfl, fun f' hm => hbefore f' (by simp [hm]), hbehind⟩
    exact (hrest.cons (by omega)).cons hd

/-- There is one deepest failure at most. -/
theorem IsDeepest.unique {fs : List Failure} {d e : Failure} (hd : IsDeepest fs d)
    (he : IsDeepest fs e) : d = e := by
  obtain ⟨before, behind, rfl, hbefore, hbehind⟩ := hd
  obtain ⟨before', behind', heq, hbefore', hbehind'⟩ := he
  -- wherever the other one stands, it would be deeper and less deep at once
  rcases List.append_eq_append_iff.mp heq with ⟨between, rfl, h⟩ | ⟨between, rfl, h⟩
  · rcases between with _ | ⟨f, between⟩
    · exact (List.cons.inj h).1
    · obtain ⟨rfl, rfl⟩ := List.cons.inj h
      have h₁ := hbefore' d (by simp)
      have h₂ := hbehind e (by simp)
      omega
  · rcases between with _ | ⟨f, between⟩
    · exact (List.cons.inj h).1.symm
    · obtain ⟨rfl, rfl⟩ := List.cons.inj h
      have h₁ := hbefore e (by simp)
      have h₂ := hbehind' d (by simp)
      omega

theorem remember_cons (deepest : Option Failure) (f : Failure) (fs : List Failure) :
    remember deepest (f :: fs) = remember (some (Failure.deepest deepest f)) fs := rfl

theorem exists_remember (d : Failure) (fs : List Failure) :
    ∃ e, remember (some d) fs = some e ∧ IsDeepest (d :: fs) e := by
  induction fs generalizing d with
  | nil => exact ⟨d, rfl, [], [], rfl, by simp, by simp⟩
  | cons f fs ih =>
    rw [remember_cons]
    by_cases hdf : d.position ≤ f.position
    · have hmax : Failure.deepest (some d) f = f := if_pos hdf
      obtain ⟨e, he, hdeepest⟩ := ih f
      have hf : f.position ≤ e.position := hdeepest.le (by simp)
      exact ⟨e, by rw [hmax, he], hdeepest.cons (by omega)⟩
    · have hmax : Failure.deepest (some d) f = d := if_neg hdf
      obtain ⟨e, he, hdeepest⟩ := ih d
      exact ⟨e, by rw [hmax, he], hdeepest.insert (by omega)⟩

/-- What is remembered is the deepest of what was on record and what came to it. -/
theorem remember_iff (deepest : Option Failure) (fs : List Failure) :
    (∀ e, remember deepest fs = some e ↔ IsDeepest (deepest.toList ++ fs) e) ∧
    (remember deepest fs = none ↔ deepest.toList ++ fs = []) := by
  have hsome : ∀ (d : Failure) (fs : List Failure),
      (∀ e, remember (some d) fs = some e ↔ IsDeepest (d :: fs) e) ∧
      (remember (some d) fs = none ↔ d :: fs = []) := by
    intro d fs
    obtain ⟨e, he, hdeepest⟩ := exists_remember d fs
    rw [he]
    refine ⟨fun e' => ⟨?_, fun h => congrArg some (hdeepest.unique h)⟩, by simp⟩
    rintro ⟨⟩
    exact hdeepest
  cases deepest with
  | some d => exact hsome d fs
  | none =>
    cases fs with
    | cons f fs => exact hsome f fs
    | nil =>
      refine ⟨fun e => ⟨nofun, ?_⟩, fun _ => rfl, fun _ => rfl⟩
      rintro ⟨before, behind, he, _⟩
      simp at he

/-! ## Looking ahead and skipping -/

namespace Walk

variable {σ α : Type}

theorem deepest_peek {w : Walk σ α} {c c' : Context σ} {o : Outcome α}
    (h : peek w c = some (o, c')) : c'.deepest = c.deepest := by
  obtain ⟨⟨o₁, c₁⟩, _, h⟩ := Option.bind_eq_some_iff.mp h
  cases h
  rfl

theorem deepest_probe {w : Walk σ α} {c c' : Context σ} {b : Bool}
    (h : probe w c = some (b, c')) : c'.deepest = c.deepest := by
  obtain ⟨⟨o₁, c₁⟩, h₁, h⟩ := Option.bind_eq_some_iff.mp h
  cases h
  exact deepest_peek h₁

theorem deepest_notAhead {w : Walk σ α} {c c' : Context σ} {u : Unit}
    (h : notAhead w c = some (.success u, c')) : c'.deepest = c.deepest := by
  obtain ⟨⟨b, c₁⟩, h₁, h⟩ := Option.bind_eq_some_iff.mp h
  cases b with
  | true => cases h
  | false => cases h; exact deepest_probe h₁

theorem deepest_trySkip {run : σ → Walk σ α} {c c' : Context σ} {b : Bool}
    (h : trySkip run c = some (b, c')) : c'.deepest = c.deepest := by
  rcases trySkip_cases h with ⟨_, _, rfl⟩ | ⟨_, _, _, _, _, _, _, _, _, rfl⟩ |
    ⟨_, _, _, _, _, _, _, _, rfl⟩
  · rfl
  · rfl
  · rfl

end Walk

/-! ## The record of a run and of a parse -/

/-- What is on record once the moments `ms` have led from `c` to `c'`: the deepest of what
was on record and of the failures that were not aside. So the record gets no less deep. -/
structure RecordKept {σ : Type} (c c' : Context σ) (ms : List (Moment σ)) : Prop where
  deepest : ∀ d, c'.deepest = some d ↔ IsDeepest (c.deepest.toList ++ heard ms) d
  nothing : c'.deepest = none ↔ c.deepest.toList ++ heard ms = []
  grows : ∀ d ∈ c.deepest, ∃ d' ∈ c'.deepest, d.position ≤ d'.position

theorem RecordKept.of_remember {σ : Type} {c c' : Context σ} {ms : List (Moment σ)}
    (h : c'.deepest = remember c.deepest (heard ms)) : RecordKept c c' ms := by
  obtain ⟨hsome, hnone⟩ := remember_iff c.deepest (heard ms)
  refine ⟨fun d => by rw [h, hsome], by rw [h, hnone], ?_⟩
  intro d hd
  obtain ⟨d', hd', hdeepest⟩ := exists_remember d (heard ms)
  refine ⟨d', ?_, hdeepest.le (by simp)⟩
  rw [h, Option.mem_def.mp hd]
  exact hd'

namespace Grammar

variable {rules : RuleTable}

theorem run_recordKept (hrules : ∀ g ∈ rules, g.isBuiltIn = true) {fuel : Nat}
    {g : LinkedGrammar} (hg : g.isBuiltIn = true) {c c' : Context LinkedGrammar}
    (hskip : ∀ s ∈ c.skip, s.isBuiltIn = true) {o : Outcome Value}
    (h : run rules fuel g c = some (o, c')) :
    RecordKept c c' (tell rules fuel g c).moments := by
  exact .of_remember ((tell_accounts hrules hg hskip).ends ((ending_tell ..).trans h)).2.2

end Grammar

/-- The failure that a parse is reported at: the deepest of the failures heard, unless the
parse failed further on. -/
def IsReported (fs : List Failure) (f e : Failure) : Prop :=
  (IsDeepest fs e ∧ f.position ≤ e.position) ∨
    (e = f ∧ ∀ d, IsDeepest fs d → d.position < f.position)

namespace Parser

variable {p : Parser}

theorem exists_isReported (hp : p.isBuiltIn = true) {name : String} {entry : LinkedGrammar}
    (hentry : p.entry? name = some entry) {text : String} {trace : Option Trace} {f : Failure}
    {c' : Context LinkedGrammar}
    (h : Grammar.parse p.rules entry (p.start (p.tokenizer.tokenize text).1 trace)
      = some (.failure f, c')) (hfatal : c'.fatal = none) :
    ∃ e, IsReported (heard (p.tale entry (p.tokenizer.tokenize text).1 trace).moments) f e ∧
      (p.parse name text trace).1
        = some (.error (.mismatch (.ofFailure (p.tokenizer.tokenize text).1 e)), c'.trace) := by
  have hkept := Grammar.run_recordKept (rules_isBuiltIn hp) (entry?_isBuiltIn hentry)
    (skip_isBuiltIn hp) h
  have hchunks : c'.chunks = (p.tokenizer.tokenize text).1 :=
    Context.chunks_eq (Grammar.run_tidy (rules_isBuiltIn hp) (entry?_isBuiltIn hentry)
      (skip_isBuiltIn hp) h).setting
  rw [parse_eq_tale hentry, ending_tale, h]
  simp only [Option.map_some, Context.finish, hfatal, hchunks]
  cases hd : c'.deepest with
  | none =>
    refine ⟨f, .inr ⟨rfl, fun d hdeepest => ?_⟩, rfl⟩
    cases hd.symm.trans ((hkept.deepest d).mpr hdeepest)
  | some d =>
    have hdeepest := (hkept.deepest d).mp hd
    by_cases hle : f.position ≤ d.position
    · exact ⟨d, .inl ⟨hdeepest, hle⟩, by simp only [if_pos hle]⟩
    · refine ⟨f, .inr ⟨rfl, fun d' hdeepest' => ?_⟩, by simp only [if_neg hle]⟩
      rw [hdeepest'.unique hdeepest]
      omega

/-- **The record is the deepest failure that was not aside**, and the last one of those that
are equally deep. Lookahead, probes and attempts to skip leave it as it was. A parse that
fails is reported there, unless it failed further on. -/
theorem record_isDeepest (hp : p.isBuiltIn = true) :
    (∀ (fuel : Nat) (g : LinkedGrammar) (c c' : Context LinkedGrammar) (o : Outcome Value),
      g.isBuiltIn = true → (∀ s ∈ c.skip, s.isBuiltIn = true) →
      Grammar.run p.rules fuel g c = some (o, c') →
      RecordKept c c' (Grammar.tell p.rules fuel g c).moments) ∧
    (∀ (fuel : Nat) (g : LinkedGrammar) (c c' : Context LinkedGrammar),
      (∀ o, Grammar.run p.rules fuel (.peek g) c = some (o, c') → c'.deepest = c.deepest) ∧
      (∀ v, Grammar.run p.rules fuel (.notAhead g) c = some (.success v, c') →
        c'.deepest = c.deepest) ∧
      (∀ b, Walk.probe (Grammar.run p.rules fuel g) c = some (b, c') →
        c'.deepest = c.deepest) ∧
      ∀ b, Walk.trySkip (Grammar.run p.rules fuel) c = some (b, c') →
        c'.deepest = c.deepest) ∧
    ∀ (name : String) (entry : LinkedGrammar) (text : String) (trace : Option Trace) (f : Failure)
      (c' : Context LinkedGrammar), p.entry? name = some entry →
      Grammar.parse p.rules entry (p.start (p.tokenizer.tokenize text).1 trace)
        = some (.failure f, c') → c'.fatal = none →
      ∃ e, IsReported (heard (p.tale entry (p.tokenizer.tokenize text).1 trace).moments) f e ∧
        (p.parse name text trace).1
          = some (.error (.mismatch (.ofFailure (p.tokenizer.tokenize text).1 e)), c'.trace) := by
  refine ⟨?_, ?_, ?_⟩
  · intro fuel g c c' o hg hskip h
    exact Grammar.run_recordKept (rules_isBuiltIn hp) hg hskip h
  · intro fuel g c c'
    refine ⟨?_, ?_, fun _ => Walk.deepest_probe, fun _ => Walk.deepest_trySkip⟩
    · intro o h
      cases fuel with
      | zero => cases h
      | succ fuel => exact Walk.deepest_peek h
    · intro v h
      cases fuel with
      | zero => cases h
      | succ fuel =>
        obtain ⟨⟨o, c₁⟩, h₁, h⟩ := Option.map_eq_some_iff.mp h
        cases o with
        | failure f => cases h
        | success u => cases h; exact Walk.deepest_notAhead h₁
  · intro name entry text trace f c' hentry h hfatal
    exact exists_isReported hp hentry h hfatal

/-- The failure of `w` is forgotten with the lookahead, and that of `z` is less deep. -/
theorem record_isDeepest_optional :
    ∃ e, IsReported [⟨1, .literal 2 "y"⟩, ⟨0, .literal 3 "z"⟩] ⟨0, .literal 3 "z"⟩ e ∧
      (Parser.parse
        { tokenizer := { pattern := "", program := none }
          symbols := ⟨#["A"]⟩
          rules := #[.sequence [
            .peek (.optional (.sequence [.consume (.literal 0 "x"), .consume (.literal 1 "w")])),
            .optional (.sequence [.consume (.literal 0 "x"), .consume (.literal 2 "y")]),
            .consume (.literal 3 "z")]]
          skip := none
          recursionLimit := some 2 } "A" "x" none).1
        = some (.error (.mismatch (.ofFailure ⟨#["x"]⟩ e)), none) := by
  obtain ⟨e, he, hparse⟩ := (record_isDeepest (p :=
    { tokenizer := { pattern := "", program := none }
      symbols := ⟨#["A"]⟩
      rules := #[.sequence [
        .peek (.optional (.sequence [.consume (.literal 0 "x"), .consume (.literal 1 "w")])),
        .optional (.sequence [.consume (.literal 0 "x"), .consume (.literal 2 "y")]),
        .consume (.literal 3 "z")]]
      skip := none
      recursionLimit := some 2 }) (by decide)).2.2 "A"
    (.map (Value.pick 0) (.sequence [.rule ⟨⟨0⟩, "A"⟩, .consume .eof])) "x" none
    ⟨0, .literal 3 "z"⟩
    { chunks := ⟨#["x"]⟩, deepest := some ⟨1, .literal 2 "y"⟩, recursionLimit := some 2 }
    (by with_unfolding_all rfl) (by with_unfolding_all rfl) rfl
  exact ⟨e, Eq.subst (motive := (IsReported · _ e)) (by decide +kernel) he, hparse⟩

end Parser

end Chunkwise
