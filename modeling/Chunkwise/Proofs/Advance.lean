import Chunkwise.Proofs.Discipline
import Chunkwise.Proofs.Places

/-! Where walks can get to. A walk moves by passing over empty chunks and over a chunk at
a time, and takes back moves that led nowhere; so whatever holds of these moves and
composes holds between the start of a walk and its end. A grammar that looks behind
only to look moves forward, and not past the end. -/

namespace Chunkwise

/-- What can be said of all moves: it composes, and holds of the smallest ones. -/
structure Travel (R : Chunks → Nat → Nat → Prop) : Prop where
  refl : ∀ {cs i}, R cs i i
  trans : ∀ {cs i j k}, R cs i j → R cs j k → R cs i k
  skipEmpty : ∀ {cs i}, R cs i (cs.skipEmpty i)
  next : ∀ {cs i w}, cs.get? i = some w → R cs i (i + 1)

/-- A move forward, and not past the end. -/
def Advance (cs : Chunks) (i j : Nat) : Prop := i ≤ j ∧ j ≤ max i cs.size

theorem travel_advance : Travel Advance where
  refl := fun {cs i} => ⟨Nat.le_refl i, Nat.le_max_left i cs.size⟩
  trans := by
    intro cs i j k hij hjk
    unfold Advance at *
    omega
  skipEmpty := fun {cs i} => ⟨cs.le_skipEmpty i, cs.skipEmpty_le i⟩
  next := by
    intro cs i w h
    have := Chunks.lt_size_of_get? h
    unfold Advance
    omega

/-- A move that does not lead back. -/
def Onward (_ : Chunks) (i j : Nat) : Prop := i ≤ j

theorem travel_onward : Travel Onward where
  refl := fun {_ i} => Nat.le_refl i
  trans := fun hij hjk => Nat.le_trans hij hjk
  skipEmpty := fun {cs i} => cs.le_skipEmpty i
  next := fun {_ i _} _ => Nat.le_succ i

namespace Walk

variable {σ α β γ : Type} {S T : σ → Prop} {R : Chunks → Nat → Nat → Prop}

/-- `R` holds between where the walk starts and where it ends. -/
def Travels (S : σ → Prop) (R : Chunks → Nat → Nat → Prop) (w : Walk σ α) : Prop :=
  ∀ ⦃c o c'⦄, (∀ s ∈ c.skip, S s) → w c = some (o, c') → R c.chunks c.cursor c'.cursor

theorem Tidy.mono {w : Walk σ α} (hw : Tidy T w) (h : ∀ s, S s → T s) : Tidy S w :=
  fun _ _ _ hS hr => hw (fun s hs => h s (hS s hs)) hr

theorem Travels.map {w : Walk σ α} (hw : Travels S R w) (f : α → β) :
    Travels S R (w.map f) := by
  intro c o c' hS h
  obtain ⟨⟨o₁, c₁⟩, h₁, he⟩ := Option.map_eq_some_iff.mp h
  cases he
  exact hw hS h₁

/-- One walk behind another. -/
theorem Travels.after {w : Walk σ α} (hR : Travel R) (hw : Travels S R w) {c c₁ c₂ : Context σ}
    {o : Outcome α} (hs : c₁.setting = c.setting) (hc : R c.chunks c.cursor c₁.cursor)
    (hS : ∀ s ∈ c.skip, S s) (h : w c₁ = some (o, c₂)) : R c.chunks c.cursor c₂.cursor := by
  have h₂ := hw (Context.skip_of_setting hs hS) h
  rw [Context.chunks_eq hs] at h₂
  exact hR.trans hc h₂

/-! ## Combined walks -/

theorem inTurn_travels (hR : Travel R) : ∀ {ws : List (Walk σ α)}, (∀ w ∈ ws, Tidy S w) →
    (∀ w ∈ ws, Travels S R w) → Travels S R (inTurn ws)
  | [], _, _, c, o, c', _, h => by cases h; exact hR.refl
  | w :: ws, ht, hw, c, o, c', hS, h => by
    obtain ⟨⟨o₁, c₁⟩, h₁, h⟩ := Option.bind_eq_some_iff.mp h
    have hc := hw w (by simp) hS h₁
    cases o₁ with
    | failure f => cases h; exact hc
    | success v =>
      obtain ⟨⟨o₂, c₂⟩, h₂, h⟩ := Option.bind_eq_some_iff.mp h
      cases h
      exact (inTurn_travels hR (fun w hm => ht w (by simp [hm]))
        (fun w hm => hw w (by simp [hm]))).after hR (ht w (by simp) hS h₁).setting hc hS h₂

theorem sequence_travels (hR : Travel R) {ws : List (Walk σ α)} (ht : ∀ w ∈ ws, Tidy S w)
    (hw : ∀ w ∈ ws, Travels S R w) : Travels S R (sequence ws) := by
  intro c o c' hS h
  obtain ⟨⟨o₁, c₁⟩, h₁, h⟩ := Option.bind_eq_some_iff.mp h
  cases o₁ with
  | success vs => cases h; exact inTurn_travels hR ht hw hS h₁
  | failure f => cases h; rw [Context.cursor_restore]; exact hR.refl

theorem tryEach_travels (hR : Travel R) : ∀ {ws : List (Walk σ α)}, (∀ w ∈ ws, Tidy S w) →
    (∀ w ∈ ws, Travels S R w) → ∀ {before c o c'}, (∀ s ∈ c.skip, S s) →
      tryEach c.cursor before ws c = some (o, c') → R c.chunks c.cursor c'.cursor
  | [], _, _, some f, c, o, c', _, h => by cases h; exact hR.refl
  | [], _, _, none, c, o, c', _, h => by cases h; exact hR.refl
  | w :: ws, ht, hw, before, c, o, c', hS, h => by
    rw [tryEach] at h
    obtain ⟨⟨o₁, c₁⟩, h₁, h⟩ := Option.bind_eq_some_iff.mp h
    cases o₁ with
    | success v => cases h; exact hw w (by simp) hS h₁
    | failure f =>
      have hs : (c₁.restore c.cursor).setting = c.setting := by
        simpa using (ht w (by simp) hS h₁).setting
      have h : tryEach (c₁.restore c.cursor).cursor (some (.deepest before f)) ws
          (c₁.restore c.cursor) = some (o, c') := by simpa using h
      have hr := tryEach_travels hR (fun w hm => ht w (by simp [hm]))
        (fun w hm => hw w (by simp [hm])) (Context.skip_of_setting hs hS) h
      rwa [Context.cursor_restore, Context.chunks_eq hs] at hr

theorem choice_travels (hR : Travel R) {ws : List (Walk σ α)} (ht : ∀ w ∈ ws, Tidy S w)
    (hw : ∀ w ∈ ws, Travels S R w) : Travels S R (choice ws) :=
  fun _ _ _ hS h => tryEach_travels hR ht hw hS h

theorem optional_travels (hR : Travel R) {w : Walk σ α} (hw : Travels S R w) :
    Travels S R (optional w) := by
  intro c o c' hS h
  obtain ⟨⟨o₁, c₁⟩, h₁, h⟩ := Option.bind_eq_some_iff.mp h
  cases o₁ with
  | success v => cases h; exact hw hS h₁
  | failure f => cases h; rw [Context.cursor_restore]; exact hR.refl

theorem peek_travels (hR : Travel R) {w : Walk σ α} (ht : Tidy S w) : Travels S R (peek w) := by
  intro c o c' hS h
  rw [(peek_still ht hS h).2]
  exact hR.refl

theorem notAhead_travels (hR : Travel R) {w : Walk σ α} (ht : Tidy S w) :
    Travels S R (notAhead w) := by
  intro c o c' hS h
  obtain ⟨⟨b, c₁⟩, h₁, h⟩ := Option.bind_eq_some_iff.mp h
  have hc := (probe_still ht hS h₁).2
  have hc' : c'.cursor = c₁.cursor := by cases b <;> cases h <;> rfl
  rw [hc', hc]
  exact hR.refl

theorem withSkip_travels {w : Walk σ α} {skip : σ} (hskip : S skip) (hw : Travels S R w) :
    Travels S R (withSkip skip w) := by
  intro c o c' hS h
  obtain ⟨⟨o₁, c₁⟩, h₁, h⟩ := Option.bind_eq_some_iff.mp h
  have hS₁ : ∀ s ∈ (c.withSkip (some skip)).skip, S s := by
    intro s hs
    cases hs
    exact hskip
  have hr := hw hS₁ h₁
  cases h
  exact hr

theorem trySkip_travels (hR : Travel R) {run : σ → Walk σ α}
    (hrun : ∀ s, S s → Travels S R (run s)) {c b c'} (hS : ∀ s ∈ c.skip, S s)
    (h : trySkip run c = some (b, c')) : R c.chunks c.cursor c'.cursor := by
  rcases trySkip_cases h with ⟨_, rfl, rfl⟩ | ⟨skip, o, c₁, _, hskip, h₁, _, _, rfl, rfl⟩ |
    ⟨skip, o, c₁, _, _, _, _, rfl, rfl⟩
  · exact hR.refl
  · have hr := hrun skip (hS skip hskip) (c := inSkip c) hS h₁
    exact hr
  · exact hR.refl

/-- Whatever the skip rule does, an attempt to skip does not lead back. -/
theorem Skipped.onward {c c' : Context σ} {b : Bool} (h : Skipped c b c') :
    Onward c.chunks c.cursor c'.cursor := by
  have hc := h.cursor
  cases b with
  | true => exact Nat.le_of_lt hc
  | false => exact Nat.le_of_eq hc.symm

theorem inRule_travels (hR : Travel R) {w : Walk σ α} (hw : Travels S R w) (name : String) :
    Travels S R (inRule name w) := by
  intro c o c' hS h
  rcases inRule_cases h with ⟨_, rfl, rfl⟩ | ⟨limit, _, _, rfl, rfl⟩ | ⟨c₁, _, _, h₁, rfl⟩
  · exact hR.refl
  · exact hR.refl
  · rw [Context.cursor_exitRule]
    exact hw (c := c.pushRule name) hS h₁

/-! ## Terminals -/

theorem consumeFrom_travels (hR : Travel R) {skip : Context σ → Option (Bool × Context σ)}
    {token : Token}
    (hskip : ∀ {c b c'}, (∀ s ∈ c.skip, S s) → skip c = some (b, c') →
      Skipped c b c' ∧ R c.chunks c.cursor c'.cursor)
    {start : Nat} : ∀ {fuel c o c'}, (∀ s ∈ c.skip, S s) → R c.chunks start c.cursor →
      consumeFrom skip token start fuel c = some (o, c') → R c.chunks start c'.cursor
  | 0, _, _, _, _, _, h => by cases h
  | fuel + 1, c, o, c', hS, hc, h => by
    have hc₀ : R c.chunks start c.skipEmpty.cursor := hR.trans hc hR.skipEmpty
    rcases consumeFrom_cases h with ⟨_, _, rfl, rfl⟩ | ⟨chunk, hget, _, rfl, rfl⟩ |
      ⟨c₁, _, rfl, rfl⟩ | ⟨c₁, h₁, h⟩
    · exact hc₀
    · exact hR.trans hc₀ (hR.next hget)
    · exact (Context.cursor_restore (c₁.noteMiss token) start).symm ▸ hR.refl
    · obtain ⟨⟨hs, _⟩, hr⟩ := hskip (c := c.skipEmpty) hS h₁
      have hs : c₁.setting = c.setting := hs
      have hc₁ : R c₁.chunks start c₁.cursor := by
        rw [Context.chunks_eq hs]
        exact hR.trans hc₀ hr
      have hr' := consumeFrom_travels hR hskip (Context.skip_of_setting hs hS) hc₁ h
      rwa [Context.chunks_eq hs] at hr'

theorem consume_travels (hR : Travel R) {skip : Context σ → Option (Bool × Context σ)}
    {token : Token} {fuel : Nat}
    (hskip : ∀ {c b c'}, (∀ s ∈ c.skip, S s) → skip c = some (b, c') →
      Skipped c b c' ∧ R c.chunks c.cursor c'.cursor) :
    Travels S R (consume skip token fuel) := by
  intro c o c' hS h
  unfold consume at h
  split at h
  · cases h; exact hR.refl
  · exact consumeFrom_travels hR hskip hS hR.refl h

theorem gather_travels (hR : Travel R) {stop : String → Bool} {chunks : Chunks} (fuel i : Nat)
    (gathered : Array String) : R chunks i (gather stop chunks fuel i gathered).2.2 := by
  induction fuel generalizing i gathered with
  | zero => exact hR.refl
  | succ fuel ih =>
    unfold gather
    dsimp only
    split
    · exact hR.skipEmpty
    · rename_i chunk hget
      split
      · exact hR.skipEmpty
      · exact hR.trans hR.skipEmpty (hR.trans (hR.next hget) (ih _ _))

theorem untilToken_travels (hR : Travel R) {token : Token} :
    Travels S R (untilToken token : Walk σ (List String)) := by
  intro c o c' _ h
  unfold untilToken at h
  split at h
  · cases h; exact hR.refl
  · dsimp only at h
    split at h
    · cases h; exact gather_travels hR _ _ _
    · cases h
      exact (Context.cursor_restore _ _).symm ▸ hR.refl

theorem untilMatchFrom_travels (hR : Travel R) {stop : Walk σ α} (ht : Tidy S stop) {start : Nat} :
    ∀ {fuel gathered c o c'}, (∀ s ∈ c.skip, S s) → R c.chunks start c.cursor →
      untilMatchFrom stop start fuel gathered c = some (o, c') → R c.chunks start c'.cursor
  | 0, _, _, _, _, _, _, h => by cases h
  | fuel + 1, gathered, c, o, c', hS, hc, h => by
    have hc₀ : R c.chunks start c.skipEmpty.cursor := hR.trans hc hR.skipEmpty
    rcases untilMatchFrom_cases h with ⟨h₁, rfl⟩ | ⟨c₁, _, _, rfl, rfl⟩ | ⟨c₁, chunk, h₁, hget, h⟩
    · rw [(probe_still ht (c := c.skipEmpty) hS h₁).2]
      exact hc₀
    · exact (Context.cursor_restore c₁ start).symm ▸ hR.refl
    · have hs₁ := (probe_still ht (c := c.skipEmpty) hS h₁).1
      have hs : (c₁.moveTo (c.skipEmpty.cursor + 1)).setting = c.setting := hs₁
      have hget : c.chunks.get? c.skipEmpty.cursor = some chunk := Context.chunks_eq hs ▸ hget
      have hr := untilMatchFrom_travels hR ht (Context.skip_of_setting hs hS)
        (by rw [Context.chunks_eq hs]; exact hR.trans hc₀ (hR.next hget)) h
      rwa [Context.chunks_eq hs] at hr

theorem untilMatch_travels (hR : Travel R) {stop : Walk σ α} (ht : Tidy S stop) {fuel : Nat} :
    Travels S R (untilMatch stop fuel) := by
  intro c o c' hS h
  unfold untilMatch at h
  split at h
  · cases h; exact hR.refl
  · exact untilMatchFrom_travels hR ht hS hR.refl h

/-! ## Repetition -/

namespace Repetition

/-- The walks of a repetition that move are the elements and the separators. -/
structure Travels (S : σ → Prop) (R : Chunks → Nat → Nat → Prop) (r : Repetition σ α β γ) :
    Prop where
  element : Walk.Travels S R r.element
  separator : ∀ w ∈ r.separator, Walk.Travels S R w

theorem separates_travels (hR : Travel R) {r : Repetition σ α β γ} (hr : r.Travels S R) {c b c'}
    (hS : ∀ s ∈ c.skip, S s) (h : r.separates c = some (b, c')) :
    R c.chunks c.cursor c'.cursor := by
  unfold separates at h
  split at h
  · cases h; exact hR.refl
  · rename_i separator hsep
    obtain ⟨⟨o₁, c₁⟩, h₁, h⟩ := Option.bind_eq_some_iff.mp h
    cases h
    exact hr.separator separator hsep hS h₁

/-- Where the element and the separator of a round get to. -/
theorem Continues.travels (hR : Travel R) {r : Repetition σ α β γ} (ht : r.Tidy S)
    (hr : r.Travels S R) {c v c₁ c₂ c₃} (hS : ∀ s ∈ c.skip, S s)
    (h : r.Continues c v c₁ c₂ c₃) :
    R c.chunks c.cursor c₂.cursor ∧ R c.chunks c₂.cursor c₃.cursor := by
  obtain ⟨hs₁, hs₂, _⟩ := h.setting ht hS
  have hc₁ := (stopsAt_still ht hS h.stopsAt).2
  have hsep := separates_travels hR hr (Context.skip_of_setting hs₂ hS) h.separates
  rw [Context.chunks_eq hs₂] at hsep
  exact ⟨hr.element.after hR hs₁ (hc₁ ▸ hR.refl) hS h.element, hsep⟩

theorem Leaves.travels (hR : Travel R) {r : Repetition σ α β γ} (ht : r.Tidy S)
    (hr : r.Travels S R) {start rewind values c o c'} (hS : ∀ s ∈ c.skip, S s)
    (hrw : R c.chunks start rewind) (hc : R c.chunks start c.cursor)
    (h : r.Leaves start rewind values c o c') : R c.chunks start c'.cursor := by
  -- every way out goes back to the start or behind the last element
  have hout : ∀ {d : Context σ} {i : Nat}, R c.chunks start i →
      R c.chunks start (d.restore i).cursor := by
    intro d i hi
    rwa [Context.cursor_restore]
  cases h with
  | exhausted _ _ => exact hout hrw
  | stopped _ _ => exact hout hrw
  | stoppedShort _ _ => exact hout hR.refl
  | missed _ _ _ => exact hout hrw
  | missedShort _ _ _ => exact hout hR.refl
  | last h₁ h₂ _ =>
    obtain ⟨hs₁, hc₁⟩ := stopsAt_still ht hS h₁
    exact hout (hR.trans hc (hr.element.after hR hs₁ (hc₁ ▸ hR.refl) hS h₂))
  | stuck _ _ _ _ => exact hout hR.refl

theorem rounds_travels (hR : Travel R) {r : Repetition σ α β γ} (ht : r.Tidy S)
    (hr : r.Travels S R) {start : Nat} :
    ∀ {fuel rewind values c o c'}, (∀ s ∈ c.skip, S s) → R c.chunks start rewind →
      R c.chunks start c.cursor → r.rounds start fuel rewind values c = some (o, c') →
      R c.chunks start c'.cursor
  | 0, _, _, _, _, _, _, _, _, h => by cases h
  | fuel + 1, rewind, values, c, o, c', hS, hrw, hc, h => by
    rcases rounds_cases h with hl | ⟨v, c₁, c₂, c₃, hgo, h⟩
    · exact hl.travels hR ht hr hS hrw hc
    · obtain ⟨_, _, hs₃⟩ := hgo.setting ht hS
      obtain ⟨helement, hsep⟩ := hgo.travels hR ht hr hS
      have hc₂ := hR.trans hc helement
      have hrec := rounds_travels hR ht hr (Context.skip_of_setting hs₃ hS)
        (by rw [Context.chunks_eq hs₃]; exact hc₂)
        (by rw [Context.chunks_eq hs₃]; exact hR.trans hc₂ hsep) h
      rwa [Context.chunks_eq hs₃] at hrec

end Repetition

theorem repetition_travels (hR : Travel R) {r : Repetition σ α β γ} (ht : r.Tidy S)
    (hr : r.Travels S R) {fuel : Nat} : Travels S R (repetition r fuel) :=
  fun _ _ _ hS h => Repetition.rounds_travels hR ht hr hS hR.refl hR.refl h

end Walk

/-! ## Grammars -/

namespace Grammar

variable {rules : RuleTable} {R : Chunks → Nat → Nat → Prop}

theorem repeated_travels {run : LinkedGrammar → Walk LinkedGrammar Value}
    {S : LinkedGrammar → Prop} {g : LinkedGrammar} {least : Nat}
    {separator stop : Option LinkedGrammar}
    (hparts : ∀ part ∈ (Grammar.repeated g least separator stop).openParts,
      Walk.Travels S R (run part)) :
    Walk.Repetition.Travels S R ⟨run g, least, separator.map run, stop.map run⟩ := by
  refine ⟨hparts g (by simp [openParts]), fun w hw => ?_⟩
  obtain ⟨g, hm, rfl⟩ := Option.map_eq_some_iff.mp hw
  exact hparts g (by simp [openParts, hm])

/-- Where the walk of a grammar that does not look behind gets to, given where the walks
that it runs in the open get to, and attempts to skip. Nothing is asked of what is only looked
ahead at. -/
theorem step_travels (hR : Travel R) {run : LinkedGrammar → Walk LinkedGrammar Value}
    {S : LinkedGrammar → Prop} {fuel : Nat} {g : LinkedGrammar} (hg : g.isNative = false)
    (hb : g.isBehind = false)
    (htidy : ∀ part ∈ g.parts, Walk.Tidy S (run part))
    (hskips : ∀ s, S s → Walk.Tidy S (run s))
    (htry : ∀ {c b c'}, (∀ s ∈ c.skip, S s) → Walk.trySkip run c = some (b, c') →
      R c.chunks c.cursor c'.cursor)
    (hinstalled : ∀ skip body, g = .skipIn skip body → S skip)
    (hparts : ∀ part ∈ g.openParts, Walk.Travels S R (run part))
    (hrules : ∀ r body, g = .rule r → rules[r.symbol.index]? = some body →
      Walk.Travels S R (run body)) :
    Walk.Travels S R (step rules fuel run g) := by
  cases g with
  | consume t =>
    refine (Walk.consume_travels hR ?_).map _
    intro c b c' hS h
    exact ⟨Walk.trySkip_skipped hskips hS h, htry hS h⟩
  | behind t => cases hb
  | untilToken t => exact (Walk.untilToken_travels hR).map _
  | untilMatch g => exact (Walk.untilMatch_travels hR (htidy g (by simp [parts]))).map _
  | unit =>
    intro c o c' _ h
    cases h
    exact hR.refl
  | sequence gs =>
    exact (Walk.sequence_travels hR (List.forall_mem_map.mpr htidy)
      (List.forall_mem_map.mpr hparts)).map _
  | choice gs =>
    exact Walk.choice_travels hR (List.forall_mem_map.mpr htidy) (List.forall_mem_map.mpr hparts)
  | optional g => exact (Walk.optional_travels hR (hparts g (by simp [openParts, parts]))).map _
  | peek g => exact Walk.peek_travels hR (htidy g (by simp [parts]))
  | notAhead g => exact (Walk.notAhead_travels hR (htidy g (by simp [parts]))).map _
  | skipIn skip g =>
    exact Walk.withSkip_travels (hinstalled skip g rfl) (hparts g (by simp [openParts]))
  | repeated g least separator stop =>
    exact (Walk.repetition_travels hR (repeated_tidy htidy) (repeated_travels hparts)).map _
  | rule r =>
    intro c o c' hS h
    rcases call_cases h with ⟨g, hget, h⟩ | ⟨_, rfl, rfl⟩
    · exact Walk.inRule_travels hR (hrules r g rfl hget) r.name hS h
    · exact hR.refl
  | map f g => exact (hparts g (by simp [openParts, parts])).map f
  | discard g => exact (hparts g (by simp [openParts, parts])).map _
  | native f => cases hg
  | andThen g f => cases hg

theorem run_travels (hR : Travel R) (hrules : ∀ g ∈ rules, g.isForward = true) {fuel : Nat}
    {g : LinkedGrammar} (hg : g.isForward = true) :
    Walk.Travels (·.isForward = true) R (run rules fuel g) := by
  induction fuel generalizing g with
  | zero => intro c o c' _ h; cases h
  | succ fuel ih =>
    have htidy : ∀ {g : LinkedGrammar}, g.isBuiltIn = true →
        Walk.Tidy (·.isForward = true) (run rules fuel g) := fun hb =>
      (run_tidy (fun g hm => isBuiltIn_of_isForward (hrules g hm)) hb).mono
        fun _ => isBuiltIn_of_isForward
    have hb := isBuiltIn_of_isForward hg
    refine step_travels hR (by simpa using all_self hb) (isBehind_of_isForward hg)
      (fun part hm => htidy (isBuiltIn_part hb hm))
      (fun s hs => htidy (isBuiltIn_of_isForward hs))
      (Walk.trySkip_travels hR fun s hs => ih hs) ?_ (fun part hm => ih ?_)
      (fun r body _ hget => ih (hrules body (Array.mem_of_getElem? hget)))
    · rintro skip body rfl
      exact isForward_part (isCareful_of_isForward hg) (by simp) (by simp) (by simp [parts])
    · exact isForward_part (isCareful_of_isForward hg) (by rintro g' rfl; cases hm)
        (by rintro g' rfl; cases hm) (mem_parts_of_mem_openParts hm)

/-- Such a grammar moves forward, and not past the end. -/
theorem run_advances (hrules : ∀ g ∈ rules, g.isForward = true) {fuel : Nat} {g : LinkedGrammar}
    (hg : g.isForward = true) {c c' : Context LinkedGrammar} {o : Outcome Value}
    (hskip : ∀ s ∈ c.skip, s.isForward = true) (h : run rules fuel g c = some (o, c')) :
    Advance c.chunks c.cursor c'.cursor := run_travels travel_advance hrules hg hskip h

/-- A grammar that comes to no looking behind in the open does not move back. Its skip rule may
look behind: what it skips lies ahead. -/
theorem run_onward (hrules : ∀ g ∈ rules, g.isBuiltIn = true) {fuel : Nat} {g : LinkedGrammar}
    (hg : g.isBuiltIn = true) (hbehind : ∀ h, Reaches rules g h → h.isBehind = false) :
    Walk.Travels (·.isBuiltIn = true) Onward (run rules fuel g) := by
  induction fuel generalizing g with
  | zero => intro c o c' _ h; cases h
  | succ fuel ih =>
    have htidy : ∀ {g : LinkedGrammar}, g.isBuiltIn = true →
        Walk.Tidy (·.isBuiltIn = true) (run rules fuel g) := fun hb => run_tidy hrules hb
    refine step_travels travel_onward (by simpa using all_self hg) (hbehind g (.self g))
      (fun part hm => htidy (isBuiltIn_part hg hm)) (fun s hs => htidy hs) ?_ ?_ ?_ ?_
    · intro c b c' hS h
      exact (Walk.trySkip_skipped (fun s hs => htidy hs) hS h).onward
    · rintro skip body rfl
      exact isBuiltIn_part hg (by simp [parts])
    · intro part hm
      exact ih (isBuiltIn_part hg (mem_parts_of_mem_openParts hm))
        fun h hreach => hbehind h (.part hm hreach)
    · rintro r body rfl hget
      exact ih (hrules body (Array.mem_of_getElem? hget))
        fun h hreach => hbehind h (.rule hget hreach)

end Grammar

end Chunkwise
