import Chunkwise.Proofs.Advance

/-! Nothing lies outside of the input. A walk that begins within the chunks ends within them,
looking behind included, and every failure, returned or on record, is at a chunk or at the end of
the input. One invariant of contexts carries this: each walk keeps it, and fails within the chunks
where it fails. -/

namespace Chunkwise

theorem Failure.deepest_le {before : Option Failure} {f : Failure} {n : Nat}
    (hbefore : ∀ d ∈ before, d.position ≤ n) (hf : f.position ≤ n) :
    (Failure.deepest before f).position ≤ n := by
  rcases Failure.deepest_eq_or before f with he | hm
  · rwa [he]
  · exact hbefore _ hm

namespace Context

variable {σ : Type} {S : σ → Prop} {n : Nat} {c : Context σ}

/-- A context among `n` chunks: its cursor and the failure on record are within them, and its skip
rule is of `S`. -/
structure Inside (S : σ → Prop) (n : Nat) (c : Context σ) : Prop where
  skip : ∀ s ∈ c.skip, S s
  size : c.chunks.size = n
  cursor : c.cursor ≤ n
  deepest : ∀ d ∈ c.deepest, d.position ≤ n

namespace Inside

theorem moveTo (h : c.Inside S n) {i : Nat} (hi : i ≤ n) : (c.moveTo i).Inside S n :=
  ⟨h.skip, h.size, hi, h.deepest⟩

theorem note (h : c.Inside S n) (f : Trace → Trace) : (c.note f).Inside S n :=
  ⟨h.skip, h.size, h.cursor, h.deepest⟩

theorem halt (h : c.Inside S n) (d : Defect) : (c.halt d).Inside S n :=
  ⟨h.skip, h.size, h.cursor, h.deepest⟩

theorem restore (h : c.Inside S n) {i : Nat} (hi : i ≤ n) : (c.restore i).Inside S n := by
  rw [restore_eq]
  exact ⟨h.skip, h.size, hi, h.deepest⟩

theorem skipEmpty (h : c.Inside S n) : c.skipEmpty.Inside S n := by
  have hle := c.chunks.skipEmpty_le c.cursor
  have hsize := h.size
  have hcursor := h.cursor
  exact h.moveTo (by omega)

theorem record (h : c.Inside S n) {f : Failure} (hf : f.position ≤ n) :
    (c.record f).Inside S n := by
  refine ⟨h.skip, h.size, h.cursor, ?_⟩
  rintro d ⟨⟩
  exact Failure.deepest_le h.deepest hf

theorem exitRule (h : c.Inside S n) (matched : Bool) : (c.exitRule matched).Inside S n := by
  unfold Context.exitRule
  split
  · exact h
  · exact ⟨h.skip, h.size, h.cursor, h.deepest⟩

/-- Behind a chunk that is there. -/
theorem next (h : c.Inside S n) {i : Nat} {w : String} (hget : c.chunks.get? i = some w) :
    i + 1 ≤ n := by
  have hlt := Chunks.lt_size_of_get? hget
  have hsize := h.size
  omega

end Inside

end Context

namespace Walk

variable {σ α β γ : Type} {S : σ → Prop} {n : Nat}

/-- How a walk ends among `n` chunks: in a context inside, and with a failure inside if it fails. -/
structure Confined (S : σ → Prop) (n : Nat) (o : Outcome α) (c' : Context σ) : Prop where
  inside : c'.Inside S n
  failure : ∀ f, o = .failure f → f.position ≤ n

theorem confined_success {c' : Context σ} (h : c'.Inside S n) (v : α) :
    Confined S n (.success v) c' := ⟨h, nofun⟩

theorem confined_failure {c' : Context σ} (h : c'.Inside S n) {f : Failure} (hf : f.position ≤ n) :
    Confined S n (.failure f : Outcome α) c' := by
  refine ⟨h, ?_⟩
  rintro f ⟨⟩
  exact hf

/-- A failure that is put on record where it is found. -/
theorem confined_fail {c' : Context σ} (h : c'.Inside S n) {f : Failure} (hf : f.position ≤ n) :
    Confined S n (.failure f : Outcome α) (c'.record f) := confined_failure (h.record hf) hf

/-- Wherever among `n` chunks the walk begins, it ends there. -/
def Confines (S : σ → Prop) (n : Nat) (w : Walk σ α) : Prop :=
  ∀ ⦃c o c'⦄, c.Inside S n → w c = some (o, c') → Confined S n o c'

theorem Confines.map {w : Walk σ α} (hw : Confines S n w) (f : α → β) :
    Confines S n (w.map f) := by
  intro c o c' hc h
  obtain ⟨⟨o₁, c₁⟩, h₁, he⟩ := Option.map_eq_some_iff.mp h
  obtain ⟨hin, hf⟩ := hw hc h₁
  cases he
  cases o₁ with
  | success v => exact confined_success hin _
  | failure e => exact confined_failure hin (hf e rfl)

/-! ## Combined walks -/

theorem inTurn_confines : ∀ {ws : List (Walk σ α)}, (∀ w ∈ ws, Confines S n w) →
    Confines S n (inTurn ws)
  | [], _, c, o, c', hc, h => by cases h; exact confined_success hc _
  | w :: ws, hws, c, o, c', hc, h => by
    obtain ⟨⟨o₁, c₁⟩, h₁, h⟩ := Option.bind_eq_some_iff.mp h
    obtain ⟨hin, hf⟩ := hws w (by simp) hc h₁
    cases o₁ with
    | failure f => cases h; exact confined_failure hin (hf f rfl)
    | success v =>
      obtain ⟨⟨o₂, c₂⟩, h₂, h⟩ := Option.bind_eq_some_iff.mp h
      obtain ⟨hin₂, hf₂⟩ := inTurn_confines (fun w hm => hws w (by simp [hm])) hin h₂
      cases h
      cases o₂ with
      | success vs => exact confined_success hin₂ _
      | failure f => exact confined_failure hin₂ (hf₂ f rfl)

theorem sequence_confines {ws : List (Walk σ α)} (hws : ∀ w ∈ ws, Confines S n w) :
    Confines S n (sequence ws) := by
  intro c o c' hc h
  obtain ⟨⟨o₁, c₁⟩, h₁, h⟩ := Option.bind_eq_some_iff.mp h
  obtain ⟨hin, hf⟩ := inTurn_confines hws hc h₁
  cases o₁ with
  | success vs => cases h; exact confined_success hin vs
  | failure f => cases h; exact confined_failure (hin.restore hc.cursor) (hf f rfl)

theorem tryEach_confines {start : Nat} (hstart : start ≤ n) : ∀ {ws : List (Walk σ α)},
    (∀ w ∈ ws, Confines S n w) → ∀ {before : Option Failure}, (∀ d ∈ before, d.position ≤ n) →
      Confines S n (tryEach start before ws)
  | [], _, some f, hbefore, c, o, c', hc, h => by
    cases h
    exact confined_failure hc (hbefore f rfl)
  | [], _, none, _, c, o, c', hc, h => by cases h; exact confined_fail hc hstart
  | w :: ws, hws, before, hbefore, c, o, c', hc, h => by
    rw [tryEach] at h
    obtain ⟨⟨o₁, c₁⟩, h₁, h⟩ := Option.bind_eq_some_iff.mp h
    obtain ⟨hin, hf⟩ := hws w (by simp) hc h₁
    cases o₁ with
    | success v => cases h; exact confined_success hin v
    | failure f =>
      refine tryEach_confines hstart (fun w hm => hws w (by simp [hm])) ?_ (hin.restore hstart) h
      rintro d ⟨⟩
      exact Failure.deepest_le hbefore (hf f rfl)

theorem choice_confines {ws : List (Walk σ α)} (hws : ∀ w ∈ ws, Confines S n w) :
    Confines S n (choice ws) :=
  fun _ _ _ hc h => tryEach_confines hc.cursor hws (by simp) hc h

theorem optional_confines {w : Walk σ α} (hw : Confines S n w) : Confines S n (optional w) := by
  intro c o c' hc h
  obtain ⟨⟨o₁, c₁⟩, h₁, h⟩ := Option.bind_eq_some_iff.mp h
  have hin := (hw hc h₁).inside
  cases o₁ with
  | success v => cases h; exact confined_success hin _
  | failure f => cases h; exact confined_success (hin.restore hc.cursor) _

theorem peek_confines {w : Walk σ α} (hw : Confines S n w) : Confines S n (peek w) := by
  intro c o c' hc h
  obtain ⟨⟨o₁, c₁⟩, h₁, h⟩ := Option.bind_eq_some_iff.mp h
  obtain ⟨hin, hf⟩ := hw hc h₁
  have hback := hin.restore hc.cursor
  cases h
  exact ⟨⟨hback.skip, hback.size, hback.cursor, hc.deepest⟩, hf⟩

theorem probe_inside {w : Walk σ α} (hw : Confines S n w) {c c₁ : Context σ} {b : Bool}
    (hc : c.Inside S n) (h : probe w c = some (b, c₁)) : c₁.Inside S n := by
  obtain ⟨⟨o, d⟩, h₁, h⟩ := Option.bind_eq_some_iff.mp h
  cases h
  exact (peek_confines hw hc h₁).inside

theorem notAhead_confines {w : Walk σ α} (hw : Confines S n w) : Confines S n (notAhead w) := by
  intro c o c' hc h
  obtain ⟨⟨b, c₁⟩, h₁, h⟩ := Option.bind_eq_some_iff.mp h
  have hin := probe_inside hw hc h₁
  cases b with
  | true => cases h; exact confined_fail hin hc.cursor
  | false => cases h; exact confined_success hin ()

theorem withSkip_confines {w : Walk σ α} {skip : σ} (hskip : S skip) (hw : Confines S n w) :
    Confines S n (withSkip skip w) := by
  intro c o c' hc h
  obtain ⟨⟨o₁, c₁⟩, h₁, h⟩ := Option.bind_eq_some_iff.mp h
  have hin : (c.withSkip (some skip)).Inside S n := by
    refine ⟨?_, hc.size, hc.cursor, hc.deepest⟩
    rintro s ⟨⟩
    exact hskip
  obtain ⟨hin₁, hf⟩ := hw hin h₁
  cases h
  exact ⟨⟨hc.skip, hin₁.size, hin₁.cursor, hin₁.deepest⟩, hf⟩

/-- An attempt to skip ends inside. What fails on the way is forgotten. -/
theorem trySkip_inside {run : σ → Walk σ α} (hrun : ∀ s, S s → Confines S n (run s))
    {c c₁ : Context σ} {b : Bool} (hc : c.Inside S n) (h : trySkip run c = some (b, c₁)) :
    c₁.Inside S n := by
  have hout : ∀ {skip o d}, c.skip = some skip → run skip (inSkip c) = some (o, d) →
      (outOfSkip c d).Inside S n := by
    intro skip o d hskip h₁
    have hin : (inSkip c).Inside S n := ⟨hc.skip, hc.size, hc.cursor, hc.deepest⟩
    have hd := (hrun skip (hc.skip skip hskip) hin h₁).inside
    exact ⟨hd.skip, hd.size, hd.cursor, hc.deepest⟩
  rcases trySkip_cases h with ⟨_, _, rfl⟩ | ⟨skip, o, d, _, hskip, h₁, _, _, _, rfl⟩ |
    ⟨skip, o, d, _, hskip, h₁, _, _, rfl⟩
  · exact hc
  · exact (hout hskip h₁).note _
  · exact (hout hskip h₁).moveTo hc.cursor

theorem inRule_confines {w : Walk σ α} (hw : Confines S n w) (name : String) :
    Confines S n (inRule name w) := by
  intro c o c' hc h
  rcases inRule_cases h with ⟨_, rfl, rfl⟩ | ⟨limit, _, _, rfl, rfl⟩ | ⟨c₁, _, _, h₁, rfl⟩
  · exact confined_failure hc hc.cursor
  · exact confined_failure (hc.halt _) hc.cursor
  · have hin : (c.pushRule name).Inside S n := ⟨hc.skip, hc.size, hc.cursor, hc.deepest⟩
    obtain ⟨hin₁, hf⟩ := hw hin h₁
    exact ⟨hin₁.exitRule _, hf⟩

/-! ## Terminals -/

theorem consumeFrom_confines {skip : Context σ → Option (Bool × Context σ)} {token : Token}
    (hskip : ∀ {c b c₁}, c.Inside S n → skip c = some (b, c₁) → c₁.Inside S n) {start : Nat}
    (hstart : start ≤ n) : ∀ {fuel}, Confines S n (consumeFrom skip token start fuel)
  | 0, _, _, _, _, h => by cases h
  | fuel + 1, c, o, c', hc, h => by
    rcases consumeFrom_cases h with ⟨_, _, rfl, rfl⟩ | ⟨chunk, hget, _, rfl, rfl⟩ |
      ⟨c₁, h₁, rfl, rfl⟩ | ⟨c₁, h₁, h⟩
    · exact confined_success (hc.skipEmpty.note _) _
    · exact confined_success ((hc.skipEmpty.note _).moveTo (hc.skipEmpty.next hget)) _
    · have hin := hskip hc.skipEmpty h₁
      exact confined_fail ((hin.note _).restore hstart) hin.cursor
    · exact consumeFrom_confines hskip hstart (hskip hc.skipEmpty h₁) h

theorem consume_confines {skip : Context σ → Option (Bool × Context σ)} {token : Token}
    (hskip : ∀ {c b c₁}, c.Inside S n → skip c = some (b, c₁) → c₁.Inside S n) {fuel : Nat} :
    Confines S n (consume skip token fuel) := by
  intro c o c' hc h
  unfold consume at h
  split at h
  · cases h; exact confined_failure hc hc.cursor
  · exact consumeFrom_confines hskip hc.cursor hc h

theorem consumeBehind_confines {token : Token} :
    Confines S n (consumeBehind token : Walk σ String) := by
  intro c o c' hc h
  have hback := c.chunks.skipEmptyBack_le c.cursor
  have hcursor := hc.cursor
  unfold consumeBehind at h
  split at h
  · cases h; exact confined_failure hc hcursor
  · split at h
    · split at h
      · cases h; exact confined_success (hc.moveTo (Nat.zero_le n)) _
      · cases h; exact confined_fail hc (Nat.zero_le n)
    · rename_i i hi
      have hi : i ≤ n := by omega
      split at h
      · cases h; exact confined_success ((hc.moveTo hi).note _) _
      · cases h; exact confined_fail (((hc.moveTo hi).note _).moveTo hcursor) hi

theorem untilToken_confines {token : Token} :
    Confines S n (untilToken token : Walk σ (List String)) := by
  intro c o c' hc h
  unfold untilToken at h
  split at h
  · cases h; exact confined_failure hc hc.cursor
  · have hgather : Advance c.chunks c.cursor
        (gather token.accepts c.chunks (c.chunks.size - c.cursor + 1) c.cursor #[]).2.2 :=
      gather_travels travel_advance _ _ _
    have hend := hgather.2
    rw [hc.size, Nat.max_eq_right hc.cursor] at hend
    rw [hc.size] at h
    dsimp only at h
    split at h
    · cases h; exact confined_success (hc.moveTo hend) _
    · cases h; exact confined_fail (((hc.moveTo hend).note _).restore hc.cursor) hend

theorem untilMatchFrom_confines {stop : Walk σ α} (hstop : Confines S n stop) {start : Nat}
    (hstart : start ≤ n) :
    ∀ {fuel gathered}, Confines S n (untilMatchFrom stop start fuel gathered)
  | 0, _, _, _, _, _, h => by cases h
  | fuel + 1, gathered, c, o, c', hc, h => by
    rcases untilMatchFrom_cases h with ⟨h₁, rfl⟩ | ⟨c₁, h₁, _, rfl, rfl⟩ | ⟨c₁, chunk, h₁, hget, h⟩
    · exact confined_success (probe_inside hstop hc.skipEmpty h₁) _
    · exact confined_fail ((probe_inside hstop hc.skipEmpty h₁).restore hstart) hstart
    · have hin := probe_inside hstop hc.skipEmpty h₁
      exact untilMatchFrom_confines hstop hstart (hin.moveTo (hin.next hget)) h

theorem untilMatch_confines {stop : Walk σ α} (hstop : Confines S n stop) {fuel : Nat} :
    Confines S n (untilMatch stop fuel) := by
  intro c o c' hc h
  unfold untilMatch at h
  split at h
  · cases h; exact confined_failure hc hc.cursor
  · exact untilMatchFrom_confines hstop hc.cursor hc h

/-! ## Repetition -/

namespace Repetition

/-- The walks of a repetition are confined. -/
structure Confines (S : σ → Prop) (n : Nat) (r : Repetition σ α β γ) : Prop where
  element : Walk.Confines S n r.element
  separator : ∀ w ∈ r.separator, Walk.Confines S n w
  stop : ∀ w ∈ r.stop, Walk.Confines S n w

variable {r : Repetition σ α β γ}

theorem stopsAt_inside (hr : r.Confines S n) {c c₁ : Context σ} {b : Bool} (hc : c.Inside S n)
    (h : r.stopsAt c = some (b, c₁)) : c₁.Inside S n := by
  unfold stopsAt at h
  split at h
  · cases h; exact hc
  · rename_i stop hstop
    exact probe_inside (hr.stop stop hstop) hc h

theorem separates_inside (hr : r.Confines S n) {c c₁ : Context σ} {b : Bool} (hc : c.Inside S n)
    (h : r.separates c = some (b, c₁)) : c₁.Inside S n := by
  unfold separates at h
  split at h
  · cases h; exact hc
  · rename_i separator hsep
    obtain ⟨⟨o, d⟩, h₁, h⟩ := Option.bind_eq_some_iff.mp h
    cases h
    exact (hr.separator separator hsep hc h₁).inside

theorem Leaves.confined (hr : r.Confines S n) {start rewind : Nat} {values : Array α} {c o c'}
    (hstart : start ≤ n) (hrewind : rewind ≤ n) (hc : c.Inside S n)
    (h : r.Leaves start rewind values c o c') : Confined S n o c' := by
  cases h with
  | exhausted _ _ => exact confined_success (hc.restore hrewind) _
  | stopped h₁ _ => exact confined_success ((stopsAt_inside hr hc h₁).restore hrewind) _
  | stoppedShort h₁ _ =>
    have hin₁ := stopsAt_inside hr hc h₁
    exact confined_fail (hin₁.restore hstart) hin₁.cursor
  | missed h₁ h₂ _ =>
    have hin₂ := (hr.element (stopsAt_inside hr hc h₁) h₂).inside
    exact confined_success (hin₂.restore hrewind) _
  | missedShort h₁ h₂ _ =>
    obtain ⟨hin₂, hf⟩ := hr.element (stopsAt_inside hr hc h₁) h₂
    exact confined_failure (hin₂.restore hstart) (hf _ rfl)
  | last h₁ h₂ h₃ =>
    have hin₂ := (hr.element (stopsAt_inside hr hc h₁) h₂).inside
    exact confined_success ((separates_inside hr hin₂ h₃).restore hin₂.cursor) _
  | stuck h₁ h₂ h₃ _ =>
    have hin₁ := stopsAt_inside hr hc h₁
    have hin₃ := separates_inside hr (hr.element hin₁ h₂).inside h₃
    exact confined_fail ((hin₃.halt _).restore hstart) hin₁.cursor

theorem rounds_confined (hr : r.Confines S n) {start : Nat} (hstart : start ≤ n) :
    ∀ {fuel rewind values}, rewind ≤ n → Walk.Confines S n (r.rounds start fuel rewind values)
  | 0, _, _, _, _, _, _, _, h => by cases h
  | fuel + 1, rewind, values, hrewind, c, o, c', hc, h => by
    rcases rounds_cases h with hl | ⟨v, c₁, c₂, c₃, hgo, h⟩
    · exact hl.confined hr hstart hrewind hc
    · have hin₂ := (hr.element (stopsAt_inside hr hc hgo.stopsAt) hgo.element).inside
      have hin₃ := separates_inside hr hin₂ hgo.separates
      exact rounds_confined hr hstart hin₂.cursor hin₃ h

end Repetition

theorem repetition_confines {r : Repetition σ α β γ} (hr : r.Confines S n) {fuel : Nat} :
    Confines S n (repetition r fuel) :=
  fun _ _ _ hc h => Repetition.rounds_confined hr hc.cursor hc.cursor hc h

end Walk

/-! ## Grammars -/

namespace Grammar

variable {rules : RuleTable} {n : Nat}

theorem repeated_confines {run : LinkedGrammar → Walk LinkedGrammar Value}
    {S : LinkedGrammar → Prop} {g : LinkedGrammar} {least : Nat}
    {separator stop : Option LinkedGrammar}
    (hparts : ∀ part ∈ (Grammar.repeated g least separator stop).parts,
      Walk.Confines S n (run part)) :
    Walk.Repetition.Confines S n ⟨run g, least, separator.map run, stop.map run⟩ := by
  obtain ⟨helement, hseparator, hstop⟩ := repeated_walks hparts
  exact ⟨helement, hseparator, hstop⟩

/-- The walk of a grammar is confined if the walks of its parts, of the rules and of the skip
rules are. -/
theorem step_confines {run : LinkedGrammar → Walk LinkedGrammar Value} {S : LinkedGrammar → Prop}
    {fuel : Nat} {g : LinkedGrammar} (hg : g.isNative = false)
    (hrules : ∀ g ∈ rules, Walk.Confines S n (run g))
    (hskips : ∀ s, S s → Walk.Confines S n (run s))
    (hinstalled : ∀ skip body, g = .skipIn skip body → S skip)
    (hparts : ∀ part ∈ g.parts, Walk.Confines S n (run part)) :
    Walk.Confines S n (step rules fuel run g) := by
  cases g with
  | consume t => exact (Walk.consume_confines (Walk.trySkip_inside hskips)).map _
  | behind t => exact Walk.consumeBehind_confines.map _
  | untilToken t => exact Walk.untilToken_confines.map _
  | untilMatch g => exact (Walk.untilMatch_confines (hparts g (by simp [parts]))).map _
  | unit =>
    intro c o c' hc h
    cases h
    exact Walk.confined_success hc _
  | sequence gs => exact (Walk.sequence_confines (List.forall_mem_map.mpr hparts)).map _
  | choice gs => exact Walk.choice_confines (List.forall_mem_map.mpr hparts)
  | optional g => exact (Walk.optional_confines (hparts g (by simp [parts]))).map _
  | peek g => exact Walk.peek_confines (hparts g (by simp [parts]))
  | notAhead g => exact (Walk.notAhead_confines (hparts g (by simp [parts]))).map _
  | skipIn skip g =>
    exact Walk.withSkip_confines (hinstalled skip g rfl) (hparts g (by simp [parts]))
  | repeated g least separator stop =>
    exact (Walk.repetition_confines (repeated_confines hparts)).map _
  | rule r =>
    intro c o c' hc h
    rcases call_cases h with ⟨g, hget, h⟩ | ⟨_, rfl, rfl⟩
    · exact Walk.inRule_confines (hrules g (Array.mem_of_getElem? hget)) r.name hc h
    · exact Walk.confined_failure (hc.halt _) hc.cursor
  | map f g => exact (hparts g (by simp [parts])).map f
  | discard g => exact (hparts g (by simp [parts])).map _
  | native f => cases hg
  | andThen g f => cases hg

theorem run_confines (hrules : ∀ g ∈ rules, g.isBuiltIn = true) {fuel : Nat} {g : LinkedGrammar}
    (hg : g.isBuiltIn = true) : Walk.Confines (·.isBuiltIn = true) n (run rules fuel g) := by
  induction fuel generalizing g with
  | zero => intro c o c' _ h; cases h
  | succ fuel ih =>
    refine step_confines (by simpa using all_self hg) (fun g hm => ih (hrules g hm))
      (fun s hs => ih hs) ?_ (fun part hm => ih (isBuiltIn_part hg hm))
    rintro skip body rfl
    exact isBuiltIn_part hg (by simp [parts])

/-- **Everything stays inside the input.** A run that begins within the chunks, with no failure on
record that is not, ends within them, and so are the failure that it returns and the one that is
then on record, however the grammars look behind. Where they do so right under a lookahead only,
a run that succeeds does not end before it began. -/
theorem run_stays_inside (hrules : ∀ g ∈ rules, g.isBuiltIn = true) {fuel : Nat}
    {g : LinkedGrammar} (hg : g.isBuiltIn = true) {c c' : Context LinkedGrammar}
    {o : Outcome Value} (hskip : ∀ s ∈ c.skip, s.isBuiltIn = true)
    (hcursor : c.cursor ≤ c.chunks.size) (hdeepest : ∀ d ∈ c.deepest, d.position ≤ c.chunks.size)
    (h : run rules fuel g c = some (o, c')) :
    c'.cursor ≤ c.chunks.size ∧ (∀ f, o = .failure f → f.position ≤ c.chunks.size) ∧
      (∀ d ∈ c'.deepest, d.position ≤ c.chunks.size) ∧
      ((∀ g ∈ rules, g.isForward = true) → g.isForward = true →
        (∀ s ∈ c.skip, s.isForward = true) → o.isSuccess = true → c.cursor ≤ c'.cursor) := by
  obtain ⟨hin, hf⟩ := run_confines hrules hg ⟨hskip, rfl, hcursor, hdeepest⟩ h
  refine ⟨hin.cursor, hf, hin.deepest, ?_⟩
  intro hrules hg hskip _
  exact (run_advances hrules hg hskip h).1

/-- Looking behind leads back and fails there, less deep than what is on record; looking behind
under a lookahead does not lead back. -/
theorem run_stays_inside_behind :
    (∃ c', run #[.sequence [.behind (.literal 1 "b"), .behind (.literal 2 "x")]] 9
        (.rule ⟨⟨0⟩, "back"⟩)
        { chunks := ⟨#["", "a", "", "b", ""]⟩, cursor := 5, deepest := some ⟨4, .eof⟩ }
      = some (.failure ⟨1, .literal 2 "x"⟩, c') ∧ c'.cursor ≤ 5 ∧ 1 ≤ 5 ∧
        ∀ d ∈ c'.deepest, d.position ≤ 5) ∧
    ∃ c' v, run #[.sequence [.peek (.behind (.literal 0 "a")), .consume (.literal 1 "b")]] 9
        (.rule ⟨⟨0⟩, "ahead"⟩)
        { chunks := ⟨#["", "a", "", "b", ""]⟩, cursor := 2,
          skip := some (.consume (.literal 0 "a")) }
      = some (.success v, c') ∧ 2 ≤ c'.cursor ∧ c'.cursor ≤ 5 := by
  constructor
  · obtain ⟨c', h⟩ : ∃ c', run
        #[.sequence [.behind (.literal 1 "b"), .behind (.literal 2 "x")]] 9 (.rule ⟨⟨0⟩, "back"⟩)
        { chunks := ⟨#["", "a", "", "b", ""]⟩, cursor := 5, deepest := some ⟨4, .eof⟩ }
        = some (.failure ⟨1, .literal 2 "x"⟩, c') := ⟨_, rfl⟩
    obtain ⟨hcursor, hfailure, hdeepest, _⟩ := run_stays_inside (by decide) (by decide)
      (by decide) (by decide) (by decide) h
    exact ⟨c', h, hcursor, hfailure _ rfl, hdeepest⟩
  · obtain ⟨c', v, h⟩ : ∃ c' v, run
        #[.sequence [.peek (.behind (.literal 0 "a")), .consume (.literal 1 "b")]] 9
        (.rule ⟨⟨0⟩, "ahead"⟩)
        { chunks := ⟨#["", "a", "", "b", ""]⟩, cursor := 2,
          skip := some (.consume (.literal 0 "a")) }
        = some (.success v, c') := ⟨_, _, rfl⟩
    obtain ⟨hcursor, _, _, honward⟩ := run_stays_inside (by decide) (by decide) (by decide)
      (by decide) (by decide) h
    exact ⟨c', v, h, honward (by decide) (by decide) (by decide) rfl, hcursor⟩

end Grammar

end Chunkwise
