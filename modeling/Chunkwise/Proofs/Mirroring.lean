import Chunkwise.Proofs.Levels
import Chunkwise.Proofs.Stopping

/-! Walks over two cuts into the same words. Two tellings mirror each other if they go on from
contexts that stand level to contexts that stand level, with the same outcome, and if the first
defect that the one finds is the first one that the other finds. What is built of tellings that
mirror each other does so too. How deep a failure was is compared apart from that: what a walk
does never depends on it. -/

namespace Chunkwise

variable {σ ι α β β' γ γ' : Type}

theorem firstDefect?_append (ms ms' : List (Moment σ)) :
    firstDefect? (ms ++ ms') = (firstDefect? ms).or (firstDefect? ms') :=
  List.findSome?_append

/-- A defect that is found aside is found. -/
theorem firstDefect?_putAside (ms : List (Moment σ)) :
    firstDefect? (putAside ms) = firstDefect? ms := by
  rw [firstDefect?, putAside, List.findSome?_map]
  rfl

/-- Two cuts of a text into the same words, and which skip rules are in force. -/
structure TwoCuts (σ : Type) where
  left : Chunks
  right : Chunks
  same : left.SameWords right
  skips : σ → Prop

namespace TwoCuts

variable {P : TwoCuts σ} {c c' d d' : Context σ}

/-- Running contexts that stand level, in the same setting but for the chunks. -/
structure Near (P : TwoCuts σ) (c c' : Context σ) : Prop where
  place : Level P.left P.right c.cursor c'.cursor
  left : c.chunks = P.left
  right : c'.chunks = P.right
  skip : c'.skip = c.skip
  skipping : c'.skipping = c.skipping
  ruleStack : c'.ruleStack = c.ruleStack
  recursionLimit : c'.recursionLimit = c.recursionLimit
  running : c.fatal = none
  running' : c'.fatal = none
  skips : ∀ s ∈ c.skip, P.skips s

/-- The deepest failures were level, if there were any. -/
def Deep (P : TwoCuts σ) (c c' : Context σ) : Prop :=
  Option.Rel (fun f f' => Level P.left P.right f.position f'.position) c.deepest c'.deepest

/-- The same value, or failures that are level. -/
inductive Outcomes (P : TwoCuts σ) : Outcome α → Outcome α → Prop
  | success (v : α) : P.Outcomes (.success v) (.success v)
  | failure {f f' : Failure} : Level P.left P.right f.position f'.position →
      P.Outcomes (.failure f) (.failure f')

theorem Outcomes.map {o o' : Outcome α} (h : P.Outcomes o o') (f : α → β) :
    P.Outcomes (o.map f) (o'.map f) := by
  cases h with
  | success v => exact .success (f v)
  | failure hlevel => exact .failure hlevel

theorem Outcomes.isSuccess_eq {o o' : Outcome α} (h : P.Outcomes o o') :
    o'.isSuccess = o.isSuccess := by
  cases h <;> rfl

namespace Near

theorem isHalted (h : P.Near c c') : c.isHalted = false := by
  simp [Context.isHalted, h.running]

theorem isHalted' (h : P.Near c c') : c'.isHalted = false := by
  simp [Context.isHalted, h.running']

theorem isExhausted_eq (h : P.Near c c') : c'.isExhausted = c.isExhausted := by
  have hover := h.place.atEnd
  have hleft := h.place.left
  have hright := h.place.right
  unfold Context.isExhausted
  rw [h.left, h.right, decide_eq_decide]
  omega

theorem moveTo (h : P.Near c c') {i i' : Nat} (hi : Level P.left P.right i i') :
    P.Near (c.moveTo i) (c'.moveTo i') := { h with place := hi }

theorem note (h : P.Near c c') (f f' : Trace → Trace) : P.Near (c.note f) (c'.note f') := { h with }

theorem record (h : P.Near c c') (f f' : Failure) : P.Near (c.record f) (c'.record f') :=
  { h with }

theorem withDeepest (h : P.Near c c') (deepest deepest' : Option Failure) :
    P.Near { c with deepest } { c' with deepest := deepest' } := { h with }

theorem withSkipping (h : P.Near c c') (b : Bool) :
    P.Near { c with skipping := b } { c' with skipping := b } := { h with skipping := rfl }

theorem withSkip (h : P.Near c c') {skip : Option σ} (hskip : ∀ s ∈ skip, P.skips s) :
    P.Near (c.withSkip skip) (c'.withSkip skip) := { h with skip := rfl, skips := hskip }

theorem skipEmpty (h : P.Near c c') : P.Near c.skipEmpty c'.skipEmpty := by
  unfold Context.skipEmpty
  rw [h.left, h.right]
  exact h.moveTo (h.place.skipEmpty P.same.words)

theorem restore (h : P.Near c c') {i i' : Nat} (hi : Level P.left P.right i i') :
    P.Near (c.restore i) (c'.restore i') := by
  have hrestore : ∀ (c : Context σ) (i : Nat), ∃ f, c.restore i = (c.note f).moveTo i := by
    intro c i
    unfold Context.restore
    split
    · rename_i he
      subst he
      exact ⟨id, by simp [Context.note, Context.moveTo]⟩
    · exact ⟨_, rfl⟩
  obtain ⟨f, hf⟩ := hrestore c i
  obtain ⟨f', hf'⟩ := hrestore c' i'
  rw [hf, hf']
  exact (h.note f f').moveTo hi

theorem pushRule (h : P.Near c c') (name : String) : P.Near (c.pushRule name) (c'.pushRule name) :=
  { h with ruleStack := congrArg (name :: ·) h.ruleStack }

theorem exitRule (h : P.Near c c') (matched : Bool) :
    P.Near (c.exitRule matched) (c'.exitRule matched) := by
  have hstack := h.ruleStack
  unfold Context.exitRule
  cases hrules : c.ruleStack with
  | nil =>
    rw [hrules] at hstack
    simpa only [hstack] using h
  | cons name outer =>
    rw [hrules] at hstack
    simp only [hstack]
    exact { h with ruleStack := rfl }

theorem exceededLimit?_eq (h : P.Near c c') : c'.exceededLimit? = c.exceededLimit? := by
  unfold Context.exceededLimit?
  rw [h.recursionLimit, h.ruleStack]

/-- The next word is the same. -/
theorem chunk?_skipEmpty (h : P.Near c c') : c'.skipEmpty.chunk? = c.skipEmpty.chunk? := by
  have hget := h.place.get?_skipEmpty P.same.words
  unfold Context.chunk? Context.skipEmpty Context.moveTo
  rw [h.left, h.right]
  exact hget.symm

/-- Behind the next word. -/
theorem behindWord (h : P.Near c c') {w : String} (hw : c.skipEmpty.chunk? = some w) :
    Level P.left P.right (c.skipEmpty.cursor + 1) (c'.skipEmpty.cursor + 1) := by
  have hget : c.chunks.get? (c.chunks.skipEmpty c.cursor) = some w := hw
  have hlevel := h.place
  unfold Context.skipEmpty Context.moveTo
  dsimp only
  rw [h.left] at hget ⊢
  rw [h.right]
  exact hlevel.behindWord P.same hget

/-- A round that does not move is the same defect on both sides. -/
theorem stuckAt_eq (h : P.Near c c') {i i' : Nat} (hi : Level P.left P.right i i') :
    c'.stuckAt i' = c.stuckAt i := by
  unfold Context.stuckAt Context.currentRule
  rw [h.ruleStack, h.left, h.right, hi.offset P.same.words]

end Near

/-! ## Tellings -/

/-- From `c` and `c'` both tellings come to contexts that stand level, with results in `Q`, or
find the same first defect; so far as the first one is not out of steps. -/
structure Mirrors (P : TwoCuts σ) (Q : β → β' → Prop) (x : Told σ β) (y : Told σ β')
    (c c' : Context σ) : Prop where
  ends : ∀ {b d}, (x c).ending = some (b, d) → firstDefect? (x c).moments = none →
    ∃ b' d', (y c').ending = some (b', d') ∧ firstDefect? (y c').moments = none ∧
      P.Near d d' ∧ (P.Deep c c' → P.Deep d d') ∧ Q b b'
  finds : ∀ {e}, firstDefect? (x c).moments = some e → firstDefect? (y c').moments = some e

variable {Q : β → β' → Prop} {Q' : γ → γ' → Prop} {x : Told σ β} {y : Told σ β'}

/-- Two tellings that end without a defect. -/
theorem mirrors_of_ending {b : β} {b' : β'} (hx : (x c).ending = some (b, d))
    (hxs : firstDefect? (x c).moments = none) (hy : (y c').ending = some (b', d'))
    (hys : firstDefect? (y c').moments = none) (hd : P.Near d d')
    (hdeep : P.Deep c c' → P.Deep d d') (hQ : Q b b') : P.Mirrors Q x y c c' where
  ends h _ := by
    rw [hx] at h
    cases h
    exact ⟨b', d', hy, hys, hd, hdeep, hQ⟩
  finds h := by
    rw [hxs] at h
    cases h

/-- Two tellings that find a defect. -/
theorem mirrors_of_defect {e : Defect} (hx : firstDefect? (x c).moments = some e)
    (hy : firstDefect? (y c').moments = some e) : P.Mirrors Q x y c c' where
  ends _ h := by
    rw [hx] at h
    cases h
  finds h := by
    rw [hx] at h
    cases h
    exact hy

theorem mirrors_pure (h : P.Near c c') {b : β} {b' : β'} (hQ : Q b b') :
    P.Mirrors Q (pure b) (pure b') c c' :=
  mirrors_of_ending rfl rfl rfl rfl h id hQ

/-- The first telling is out of steps and has found no defect. -/
theorem mirrors_of_nothing (hx : (x c).ending = none) (hxs : firstDefect? (x c).moments = none) :
    P.Mirrors Q x y c c' where
  ends h := by
    rw [hx] at h
    cases h
  finds h := by
    rw [hxs] at h
    cases h

theorem mirrors_never : P.Mirrors Q Told.never y c c' := mirrors_of_nothing rfl rfl

/-- The second steps are compared behind what the first ones came to without a defect. -/
theorem Mirrors.bind_ending {f : β → Told σ γ} {g : β' → Told σ γ'} (hx : P.Mirrors Q x y c c')
    (hf : ∀ {b b' d d'}, (x c).ending = some (b, d) → firstDefect? (x c).moments = none →
      (y c').ending = some (b', d') → firstDefect? (y c').moments = none → P.Near d d' → Q b b' →
      P.Mirrors Q' (f b) (g b') d d') : P.Mirrors Q' (x >>= f) (y >>= g) c c' := by
  constructor
  · intro b d hend hnone
    cases h : (x c).ending with
    | none =>
      rw [Told.bind_of_none h] at hend
      cases hend
    | some z =>
      obtain ⟨b₁, d₁⟩ := z
      rw [Told.bind_of_some h] at hend hnone
      rw [firstDefect?_append, Option.or_eq_none_iff] at hnone
      obtain ⟨b₁', d₁', h', hnone', hd₁, hdeep₁, hQ⟩ := hx.ends h hnone.1
      obtain ⟨b', d', hend', hnone₂', hd, hdeep, hQ'⟩ :=
        (hf h hnone.1 h' hnone' hd₁ hQ).ends hend hnone.2
      refine ⟨b', d', by rw [Told.bind_of_some h', hend'], ?_, hd, hdeep ∘ hdeep₁, hQ'⟩
      rw [Told.bind_of_some h', firstDefect?_append, hnone', hnone₂']
      rfl
  · intro e he
    -- a defect of the first step is found whether the second one is come to or not
    have hfirst : firstDefect? (x c).moments = some e →
        firstDefect? ((y >>= g) c').moments = some e := by
      intro he
      have he' := hx.finds he
      cases h' : (y c').ending with
      | none => rwa [Told.bind_of_none h']
      | some z => rw [Told.bind_of_some h', firstDefect?_append, he', Option.some_or]
    cases h : (x c).ending with
    | none =>
      rw [Told.bind_of_none h] at he
      exact hfirst he
    | some z =>
      obtain ⟨b₁, d₁⟩ := z
      rw [Told.bind_of_some h, firstDefect?_append] at he
      cases hnone : firstDefect? (x c).moments with
      | some e₁ =>
        rw [hnone, Option.some_or] at he
        cases he
        exact hfirst hnone
      | none =>
        rw [hnone, Option.none_or] at he
        obtain ⟨b₁', d₁', h', hnone', hd₁, _, hQ⟩ := hx.ends h hnone
        rw [Told.bind_of_some h', firstDefect?_append, hnone', Option.none_or]
        exact (hf h hnone h' hnone' hd₁ hQ).finds he

theorem Mirrors.bind {f : β → Told σ γ} {g : β' → Told σ γ'} (hx : P.Mirrors Q x y c c')
    (hf : ∀ {b b' d d'}, (x c).ending = some (b, d) → (y c').ending = some (b', d') →
      P.Near d d' → Q b b' → P.Mirrors Q' (f b) (g b') d d') :
    P.Mirrors Q' (x >>= f) (y >>= g) c c' :=
  hx.bind_ending fun h _ h' _ hd hQ => hf h h' hd hQ

theorem mirrors_look {f : View σ → Told σ β} {g : View σ → Told σ β'}
    (h : P.Mirrors Q (f c.view) (g c'.view) c c') :
    P.Mirrors Q (Told.look >>= f) (Told.look >>= g) c c' := ⟨h.ends, h.finds⟩

theorem Mirrors.mono {R : β → β' → Prop} (h : P.Mirrors Q x y c c') (hQ : ∀ b b', Q b b' → R b b') :
    P.Mirrors R x y c c' where
  ends hend hnone := by
    obtain ⟨b', d', h', hnone', hd, hdeep, hb⟩ := h.ends hend hnone
    exact ⟨b', d', h', hnone', hd, hdeep, hQ _ _ hb⟩
  finds := h.finds

/-- What happens aside leaves the deepest failure as it was. -/
theorem Mirrors.aside (h : P.Mirrors Q x y c c') :
    P.Mirrors Q (Told.aside x) (Told.aside y) c c' := by
  have hmoments : ∀ {β : Type} (x : Told σ β) (c : Context σ),
      firstDefect? (Told.aside x c).moments = firstDefect? (x c).moments := by
    intro β x c
    unfold Told.aside
    split
    · exact firstDefect?_putAside _
    · rw [firstDefect?_append, firstDefect?_putAside]
      exact Option.or_none
  constructor
  · intro b d hend hnone
    obtain ⟨d₁, hend₁, rfl⟩ := Told.ending_aside_eq_some.mp hend
    rw [hmoments] at hnone
    obtain ⟨b', d₁', hend', hnone', hd, _, hQ⟩ := h.ends hend₁ hnone
    exact ⟨b', _, Told.ending_aside_eq_some.mpr ⟨d₁', hend', rfl⟩, by rwa [hmoments],
      hd.withDeepest _ _, id, hQ⟩
  · intro e he
    rw [hmoments] at he ⊢
    exact h.finds he

/-! ## Small walks -/

theorem mirrors_moveTo (h : P.Near c c') {i i' : Nat} (hi : Level P.left P.right i i') :
    P.Mirrors (fun _ _ => True) (Told.moveTo i) (Told.moveTo i') c c' :=
  mirrors_of_ending rfl rfl rfl rfl (h.moveTo hi) id trivial

theorem mirrors_note (h : P.Near c c') (f f' : Trace → Trace) :
    P.Mirrors (fun _ _ => True) (Told.note f) (Told.note f') c c' :=
  mirrors_of_ending rfl rfl rfl rfl (h.note f f') id trivial

theorem mirrors_noteMatch (h : P.Near c c') (t : Token) :
    P.Mirrors (fun _ _ => True) (Told.noteMatch t) (Told.noteMatch t) c c' :=
  mirrors_look (mirrors_note h _ _)

theorem mirrors_noteMiss (h : P.Near c c') (t : Token) :
    P.Mirrors (fun _ _ => True) (Told.noteMiss t) (Told.noteMiss t) c c' :=
  mirrors_look (mirrors_note h _ _)

theorem mirrors_skipEmpty (h : P.Near c c') {f : Unit → Told σ γ} {g : Unit → Told σ γ'}
    (hnext : P.Near c.skipEmpty c'.skipEmpty →
      P.Mirrors Q' (f ()) (g ()) c.skipEmpty c'.skipEmpty) :
    P.Mirrors Q' (Told.skipEmpty >>= f) (Told.skipEmpty >>= g) c c' := by
  have hskip : P.Mirrors (fun _ _ => True) Told.skipEmpty Told.skipEmpty c c' :=
    mirrors_of_ending rfl rfl rfl rfl h.skipEmpty id trivial
  refine hskip.bind fun {_ _ d d'} hend hend' hd _ => ?_
  obtain rfl : c.skipEmpty = d := congrArg Prod.snd (Option.some.inj hend)
  obtain rfl : c'.skipEmpty = d' := congrArg Prod.snd (Option.some.inj hend')
  exact hnext hd

theorem mirrors_restore (h : P.Near c c') {i i' : Nat} (hi : Level P.left P.right i i') :
    P.Mirrors (fun _ _ => True) (Told.restore i) (Told.restore i') c c' := by
  have hnone : ∀ (i : Nat) (c : Context σ), firstDefect? (Told.restore i c).moments = none := by
    intro i c
    show firstDefect? ((if i = c.cursor then _ else _ : Told σ Unit) c).moments = none
    split <;> rfl
  have hdeepest : ∀ (c : Context σ) (i : Nat), (c.restore i).deepest = c.deepest := by
    intro c i
    unfold Context.restore
    split <;> rfl
  refine mirrors_of_ending (Told.forget_restore i c) (hnone i c) (Told.forget_restore i' c')
    (hnone i' c') (h.restore hi) (fun hdeep => ?_) trivial
  unfold Deep
  rwa [hdeepest, hdeepest]

theorem mirrors_fail (h : P.Near c c') {i i' : Nat} (hi : Level P.left P.right i i') (t : Token) :
    P.Mirrors P.Outcomes (Told.fail i t : Told σ (Outcome α)) (Told.fail i' t) c c' := by
  refine mirrors_of_ending (Told.forget_fail i t c) rfl (Told.forget_fail i' t c') rfl
    (h.record _ _) (fun hdeep => .some ?_) (.failure hi)
  unfold Deep at hdeep
  generalize c.deepest = before at hdeep ⊢
  generalize c'.deepest = before' at hdeep ⊢
  cases hdeep with
  | none => exact hi
  | some hbefore =>
    rename_i f f'
    have hi : Level P.left P.right (Failure.mk i t).position (Failure.mk i' t).position := hi
    exact hbefore.ite_position hi

theorem mirrors_haltedFailure (h : P.Near c c') :
    P.Mirrors P.Outcomes (Told.haltedFailure : Told σ (Outcome α)) Told.haltedFailure c c' :=
  mirrors_look (mirrors_pure h (.failure h.place))

/-! ## Combined walks -/

/-- The tellings mirror each other from wherever contexts stand level. -/
def Copies (P : TwoCuts σ) (x y : Told σ (Outcome α)) : Prop :=
  ∀ ⦃c c'⦄, P.Near c c' → P.Mirrors P.Outcomes x y c c'

theorem Copies.map {x y : Told σ (Outcome α)} (h : P.Copies x y) (f : α → β) :
    P.Copies (x.map f) (y.map f) := fun _ _ hc =>
  (h hc).bind fun _ _ hd ho => mirrors_pure hd (ho.map f)

theorem copies_inTurn {tell tell' : ι → Told σ (Outcome α)} :
    ∀ {gs : List ι}, (∀ g ∈ gs, P.Copies (tell g) (tell' g)) →
      P.Copies (Told.inTurn (gs.map tell)) (Told.inTurn (gs.map tell'))
  | [], _, _, _, hc => mirrors_pure hc (.success [])
  | g :: gs, hgs, _, _, hc => by
    refine (hgs g List.mem_cons_self hc).bind fun _ _ hd ho => ?_
    cases ho with
    | failure hlevel => exact mirrors_pure hd (.failure hlevel)
    | success v =>
      refine (copies_inTurn (fun g hm => hgs g (List.mem_cons_of_mem _ hm)) hd).bind
        fun _ _ hd₂ ho₂ => mirrors_pure hd₂ (ho₂.map _)

theorem copies_sequence {tell tell' : ι → Told σ (Outcome α)} {gs : List ι}
    (hgs : ∀ g ∈ gs, P.Copies (tell g) (tell' g)) :
    P.Copies (Told.sequence (gs.map tell)) (Told.sequence (gs.map tell')) := by
  refine fun c c' hc => mirrors_look ((copies_inTurn hgs hc).bind fun _ _ hd ho => ?_)
  cases ho with
  | success vs => exact mirrors_pure hd (.success vs)
  | failure hlevel =>
    exact (mirrors_restore hd hc.place).bind fun _ _ hd₂ _ => mirrors_pure hd₂ (.failure hlevel)

/-- The deepest failures of the walks so far are level. -/
theorem mirrors_tryEach {tell tell' : ι → Told σ (Outcome α)} {start start' : Nat}
    (hstart : Level P.left P.right start start') :
    ∀ {gs : List ι}, (∀ g ∈ gs, P.Copies (tell g) (tell' g)) → ∀ {before before'},
      Option.Rel (fun f f' => Level P.left P.right f.position f'.position) before before' →
      P.Copies (Told.tryEach start before (gs.map tell))
        (Told.tryEach start' before' (gs.map tell'))
  | [], _, _, _, .none => fun _ _ hc => mirrors_fail hc hstart .unexpected
  | [], _, _, _, .some hf => fun _ _ hc => mirrors_pure hc (.failure hf)
  | g :: gs, hgs, before, before', hbefore => by
    intro c c' hc
    rw [List.map_cons, List.map_cons, Told.tryEach, Told.tryEach]
    refine (hgs g List.mem_cons_self hc).bind fun _ _ hd ho => ?_
    cases ho with
    | success v => exact mirrors_pure hd (.success v)
    | failure hlevel =>
      refine (mirrors_restore hd hstart).bind fun _ _ hd₂ _ =>
        mirrors_tryEach hstart (fun g hm => hgs g (List.mem_cons_of_mem _ hm)) (.some ?_) hd₂
      cases hbefore with
      | none => exact hlevel
      | some hf => exact hf.ite_position hlevel

theorem copies_choice {tell tell' : ι → Told σ (Outcome α)} {gs : List ι}
    (hgs : ∀ g ∈ gs, P.Copies (tell g) (tell' g)) :
    P.Copies (Told.choice (gs.map tell)) (Told.choice (gs.map tell')) := fun _ _ hc =>
  mirrors_look (mirrors_tryEach hc.place hgs .none hc)

theorem copies_optional {x y : Told σ (Outcome α)} (hx : P.Copies x y) :
    P.Copies (Told.optional x) (Told.optional y) := by
  refine fun c c' hc => mirrors_look ((hx hc).bind fun _ _ hd ho => ?_)
  cases ho with
  | success v => exact mirrors_pure hd (.success (some v))
  | failure _ =>
    exact (mirrors_restore hd hc.place).bind fun _ _ hd₂ _ => mirrors_pure hd₂ (.success none)

theorem copies_peek {x y : Told σ (Outcome α)} (hx : P.Copies x y) :
    P.Copies (Told.peek x) (Told.peek y) := fun _ _ hc =>
  mirrors_look (((hx hc).bind fun _ _ hd ho =>
    (mirrors_restore hd hc.place).bind fun _ _ hd₂ _ => mirrors_pure hd₂ ho).aside)

theorem mirrors_probe {x y : Told σ (Outcome α)} (hx : P.Copies x y) (hc : P.Near c c') :
    P.Mirrors Eq (Told.probe x) (Told.probe y) c c' :=
  (copies_peek hx hc).bind fun _ _ hd ho => mirrors_pure hd ho.isSuccess_eq.symm

theorem copies_notAhead {x y : Told σ (Outcome α)} (hx : P.Copies x y) :
    P.Copies (Told.notAhead x) (Told.notAhead y) := by
  refine fun c c' hc => mirrors_look ((mirrors_probe hx hc).bind fun _ _ hd ho => ?_)
  subst ho
  split
  · exact mirrors_fail hd hc.place .unexpected
  · exact mirrors_pure hd (.success ())

theorem copies_withSkip {x y : Told σ (Outcome α)} {skip : σ} (hskip : P.skips skip)
    (hx : P.Copies x y) : P.Copies (Told.withSkip skip x) (Told.withSkip skip y) := by
  intro c c' hc
  have hset : ∀ {d d' : Context σ} {skip : Option σ}, P.Near d d' → (∀ s ∈ skip, P.skips s) →
      P.Mirrors (fun _ _ => True) (Told.setSkip skip) (Told.setSkip skip) d d' :=
    fun hd hs => mirrors_of_ending rfl rfl rfl rfl (hd.withSkip hs) id trivial
  refine mirrors_look ((hset hc ?_).bind fun _ _ hd _ => (hx hd).bind fun _ _ hd₂ ho => ?_)
  · rintro s ⟨⟩
    exact hskip
  · have hback : c'.view.skip = c.view.skip := hc.skip
    rw [hback]
    exact (hset hd₂ hc.skips).bind fun _ _ hd₃ _ => mirrors_pure hd₃ ho

/-- In front of a word or at the end, the skip rule moves on in both cuts or in neither. -/
theorem mirrors_trySkip {tell tell' : σ → Told σ (Outcome α)}
    (htell : ∀ s, P.skips s → P.Copies (tell s) (tell' s)) (hc : P.Near c c')
    (hleft : c.chunk? ≠ some "") (hright : c'.chunk? ≠ some "") :
    P.Mirrors Eq (Told.trySkip tell) (Told.trySkip tell') c c' := by
  have hset : ∀ {d d' : Context σ}, P.Near d d' → ∀ b,
      P.Mirrors (fun _ _ => True) (Told.setSkipping b) (Told.setSkipping b) d d' :=
    fun hd b => mirrors_of_ending rfl rfl rfl rfl (hd.withSkipping b) id trivial
  have hskipping : c'.view.skipping = c.view.skipping := hc.skipping
  have hskip : c'.view.skip = c.view.skip := hc.skip
  refine mirrors_look ?_
  rw [hskipping, hskip]
  split
  · exact mirrors_pure hc rfl
  · cases hs : c.view.skip with
    | none => exact mirrors_pure hc rfl
    | some s =>
      have hrun : P.Mirrors P.Outcomes
          (do Told.setSkipping true; let o ← tell s; Told.setSkipping false; pure o)
          (do Told.setSkipping true; let o ← tell' s; Told.setSkipping false; pure o) c c' :=
        (hset hc true).bind fun _ _ hd _ => (htell s (hc.skips s hs) hd).bind fun _ _ hd₂ ho =>
          (hset hd₂ false).bind fun _ _ hd₃ _ => mirrors_pure hd₃ ho
      refine hrun.aside.bind fun {o o' d d'} _ _ hd ho => mirrors_look ?_
      have hmoved : c'.view.cursor < d'.view.cursor ↔ c.view.cursor < d.view.cursor := by
        refine (hc.place.lt_iff hd.place ?_ ?_).symm
        · rw [← hc.left]
          exact hleft
        · rw [← hc.right]
          exact hright
      simp only [ho.isSuccess_eq, hmoved]
      split
      · exact (mirrors_note hd _ _).bind fun _ _ hd₂ _ => mirrors_pure hd₂ rfl
      · exact (mirrors_moveTo hd hc.place).bind fun _ _ hd₂ _ => mirrors_pure hd₂ rfl

theorem mirrors_enterRule (name : String) (hc : P.Near c c') :
    P.Mirrors Eq (Told.enterRule name) (Told.enterRule name) c c' := by
  have henter : ∀ {c : Context σ}, c.isHalted = false → ∀ limit, c.exceededLimit? = some limit →
      firstDefect? (Told.enterRule name c).moments
        = some (.recursionLimitExceeded name limit) := by
    intro c hh limit hlimit
    unfold Told.enterRule
    rw [if_neg (by simp [hh]), hlimit]
    rfl
  have hlimits := hc.exceededLimit?_eq
  cases hlimit : c.exceededLimit? with
  | some limit =>
    rw [hlimit] at hlimits
    exact mirrors_of_defect (henter hc.isHalted limit hlimit) (henter hc.isHalted' limit hlimits)
  | none =>
    rw [hlimit] at hlimits
    have hopen : ∀ {c : Context σ}, c.isHalted = false → c.exceededLimit? = none →
        Told.enterRule name c = ⟨[⟨.opened name, c.pushRule name, false⟩],
          some (true, c.pushRule name)⟩ := by
      intro c hh hnone
      unfold Told.enterRule
      rw [if_neg (by simp [hh]), hnone]
    have hx := hopen hc.isHalted hlimit
    have hy := hopen hc.isHalted' hlimits
    exact mirrors_of_ending (by rw [hx]) (by rw [hx]; rfl) (by rw [hy]) (by rw [hy]; rfl)
      (hc.pushRule name) id rfl

theorem copies_inRule {x y : Told σ (Outcome α)} (hx : P.Copies x y) (name : String) :
    P.Copies (Told.inRule name x) (Told.inRule name y) := by
  refine fun c c' hc => (mirrors_enterRule name hc).bind fun _ _ hd he => ?_
  subst he
  split
  · refine (hx hd).bind fun {o o' d₂ d₂'} _ _ hd₂ ho => ?_
    have hexit : P.Mirrors (fun _ _ => True) (Told.exitRule o.isSuccess)
        (Told.exitRule o'.isSuccess) d₂ d₂' := by
      rw [ho.isSuccess_eq]
      refine mirrors_of_ending rfl rfl rfl rfl (hd₂.exitRule _) (fun hdeep => ?_) trivial
      have hdeepest : ∀ (d : Context σ), (d.exitRule o.isSuccess).deepest = d.deepest := by
        intro d
        unfold Context.exitRule
        split <;> rfl
      unfold Deep
      rwa [hdeepest, hdeepest]
    exact hexit.bind fun _ _ hd₃ _ => mirrors_pure hd₃ ho
  · exact mirrors_haltedFailure hd

/-! ## Terminals -/

theorem chunk?_skipEmpty_ne (c : Context σ) : c.skipEmpty.chunk? ≠ some "" :=
  c.chunks.get?_skipEmpty_ne c.cursor

theorem mirrors_consumeFrom {skip skip' : Told σ Bool} {token : Token}
    (hskip : ∀ ⦃c c'⦄, P.Near c c' → c.chunk? ≠ some "" → c'.chunk? ≠ some "" →
      P.Mirrors Eq skip skip' c c') {start start' : Nat}
    (hstart : Level P.left P.right start start') (more : Nat) : ∀ fuel,
    P.Copies (Told.consumeFrom skip token start fuel)
      (Told.consumeFrom skip' token start' (more + fuel))
  | 0 => fun _ _ _ => mirrors_never
  | fuel + 1 => by
    intro c c' hc
    refine mirrors_skipEmpty hc fun hd => mirrors_look ?_
    have hexhausted : c'.skipEmpty.view.isExhausted = c.skipEmpty.view.isExhausted :=
      hd.isExhausted_eq
    have hchunk : c'.skipEmpty.view.chunk? = c.skipEmpty.view.chunk? := hc.chunk?_skipEmpty
    rw [hexhausted, hchunk]
    split
    · exact (mirrors_noteMatch hd token).bind fun _ _ hd₂ _ => mirrors_pure hd₂ (.success "")
    · cases hw : c.skipEmpty.view.chunk?.filter token.accepts with
      | some w =>
        have hlevel := hc.behindWord (Option.filter_eq_some_iff.mp hw).1
        exact (mirrors_noteMatch hd token).bind fun _ _ hd₂ _ =>
          (mirrors_moveTo hd₂ hlevel).bind fun _ _ hd₃ _ => mirrors_pure hd₃ (.success w)
      | none =>
        refine (hskip hd (chunk?_skipEmpty_ne c) (chunk?_skipEmpty_ne c')).bind
          fun _ _ hd₂ hmoved => ?_
        subst hmoved
        split
        · exact mirrors_consumeFrom hskip hstart more fuel hd₂
        · exact mirrors_look ((mirrors_noteMiss hd₂ token).bind fun _ _ hd₃ _ =>
            (mirrors_restore hd₃ hstart).bind fun _ _ hd₄ _ => mirrors_fail hd₄ hd₂.place token)

theorem copies_consume {tell tell' : σ → Told σ (Outcome α)}
    (htell : ∀ s, P.skips s → P.Copies (tell s) (tell' s)) (token : Token) (more fuel : Nat) :
    P.Copies (Told.consume (Told.trySkip tell) token fuel)
      (Told.consume (Told.trySkip tell') token (more + fuel)) := by
  intro c c' hc
  refine mirrors_look ?_
  have hh : c.view.halted = false := hc.isHalted
  have hh' : c'.view.halted = false := hc.isHalted'
  rw [hh, hh']
  exact mirrors_consumeFrom (fun _ _ hd => mirrors_trySkip htell hd) hc.place more fuel hc

/-- In front of the same words stands the same word, or the start. -/
theorem copies_consumeBehind (token : Token) :
    P.Copies (Told.consumeBehind token) (Told.consumeBehind token) := by
  intro c c' hc
  refine mirrors_look ?_
  have hh : c.view.halted = false := hc.isHalted
  have hh' : c'.view.halted = false := hc.isHalted'
  have hchunks : c.view.chunks = P.left := hc.left
  have hchunks' : c'.view.chunks = P.right := hc.right
  rw [hh, hh', hchunks, hchunks', if_neg Bool.false_ne_true, if_neg Bool.false_ne_true]
  rcases hc.place.skipEmptyBack P.same with ⟨hback, hback'⟩ | ⟨k, k', hback, hback', hget, hlevel⟩
  · have hback : P.left.skipEmptyBack c.view.cursor = 0 := hback
    have hback' : P.right.skipEmptyBack c'.view.cursor = 0 := hback'
    rw [hback, hback']
    have hzero := Level.zero P.same
    dsimp only
    split
    · exact (mirrors_moveTo hc hzero).bind fun _ _ hd _ => mirrors_pure hd (.success "")
    · exact mirrors_fail hc hzero token
  · have hback : P.left.skipEmptyBack c.view.cursor = k + 1 := hback
    have hback' : P.right.skipEmptyBack c'.view.cursor = k' + 1 := hback'
    rw [hback, hback']
    dsimp only
    rw [hget]
    cases (P.right.get? k').filter token.accepts with
    | some w =>
      exact (mirrors_moveTo hc hlevel).bind fun _ _ hd _ =>
        (mirrors_noteMatch hd token).bind fun _ _ hd₂ _ => mirrors_pure hd₂ (.success w)
    | none =>
      exact (mirrors_moveTo hc hlevel).bind fun _ _ hd _ =>
        (mirrors_noteMiss hd token).bind fun _ _ hd₂ _ =>
          (mirrors_moveTo hd₂ hc.place).bind fun _ _ hd₃ _ => mirrors_fail hd₃ hlevel token

/-- The same words are gathered. -/
theorem gather_level (stop : String → Bool) : ∀ {fuel fuel' i i' : Nat} (gathered : Array String),
    Level P.left P.right i i' → P.left.size - i < fuel → P.right.size - i' < fuel' →
    ∃ found gathered' j j', Level P.left P.right j j' ∧
      Walk.gather stop P.left fuel i gathered = (found, gathered', j) ∧
      Walk.gather stop P.right fuel' i' gathered = (found, gathered', j')
  | 0, _, _, _, _, _, h, _ => by omega
  | _ + 1, 0, _, _, _, _, _, h => by omega
  | fuel + 1, fuel' + 1, i, i', gathered, hi, hfuel, hfuel' => by
    have hlevel := hi.skipEmpty P.same.words
    have hget := hi.get?_skipEmpty P.same.words
    unfold Walk.gather
    dsimp only
    rw [← hget]
    cases hw : P.left.get? (P.left.skipEmpty i) with
    | none => exact ⟨false, gathered, _, _, hlevel, rfl, rfl⟩
    | some w =>
      dsimp only
      split
      · exact ⟨true, gathered, _, _, hlevel, rfl, rfl⟩
      · have hle := P.left.le_skipEmpty i
        have hle' := P.right.le_skipEmpty i'
        have hlt := Chunks.lt_size_of_get? hw
        have hlt' := Chunks.lt_size_of_get? (hget.symm.trans hw)
        exact gather_level stop _ (hi.behindWord P.same hw) (by omega) (by omega)

theorem copies_untilToken (token : Token) :
    P.Copies (Told.untilToken token) (Told.untilToken token) := by
  intro c c' hc
  refine mirrors_look ?_
  have hh : c.view.halted = false := hc.isHalted
  have hh' : c'.view.halted = false := hc.isHalted'
  have hchunks : c.view.chunks = P.left := hc.left
  have hchunks' : c'.view.chunks = P.right := hc.right
  rw [hh, hh', hchunks, hchunks']
  obtain ⟨found, gathered, j, j', hj, hleft, hright⟩ :=
    gather_level token.accepts #[] hc.place
      (Nat.lt_succ_self (P.left.size - c.cursor)) (Nat.lt_succ_self (P.right.size - c'.cursor))
  have hleft : Walk.gather token.accepts P.left (P.left.size - c.view.cursor + 1) c.view.cursor #[]
      = (found, gathered, j) := hleft
  have hright : Walk.gather token.accepts P.right (P.right.size - c'.view.cursor + 1)
      c'.view.cursor #[] = (found, gathered, j') := hright
  rw [hleft, hright]
  refine (mirrors_moveTo hc hj).bind fun _ _ hd _ => ?_
  split
  · exact mirrors_pure hd (.success _)
  · exact (mirrors_noteMiss hd token).bind fun _ _ hd₂ _ =>
      (mirrors_restore hd₂ hc.place).bind fun _ _ hd₃ _ => mirrors_fail hd₃ hj token

theorem mirrors_untilMatchFrom {x y : Told σ (Outcome α)} (hx : P.Copies x y) {start start' : Nat}
    (hstart : Level P.left P.right start start') (more : Nat) : ∀ (fuel : Nat) {gathered},
    P.Copies (Told.untilMatchFrom x start fuel gathered)
      (Told.untilMatchFrom y start' (more + fuel) gathered)
  | 0, _ => fun _ _ _ => mirrors_never
  | fuel + 1, gathered => by
    intro c c' hc
    refine mirrors_skipEmpty hc fun hd => mirrors_look ?_
    refine (mirrors_probe hx hd).bind fun {_ _ d d'} _ _ hd₂ hstops => ?_
    subst hstops
    split
    · exact mirrors_pure hd₂ (.success _)
    · refine mirrors_look ?_
      have hget : d'.view.chunks.get? c'.skipEmpty.view.cursor
          = d.view.chunks.get? c.skipEmpty.view.cursor := by
        have hchunk := hc.chunk?_skipEmpty
        unfold Context.chunk? at hchunk
        show d'.chunks.get? c'.skipEmpty.cursor = d.chunks.get? c.skipEmpty.cursor
        rw [hd₂.left, hd₂.right, ← hd.left, ← hd.right, hchunk]
      rw [hget]
      cases hw : d.view.chunks.get? c.skipEmpty.view.cursor with
      | none =>
        exact (mirrors_restore hd₂ hstart).bind fun _ _ hd₃ _ => mirrors_fail hd₃ hstart .unexpected
      | some w =>
        have hlevel := hc.behindWord (w := w) (by
          unfold Context.chunk?
          rw [hd.left, ← hd₂.left]
          exact hw)
        exact (mirrors_moveTo hd₂ hlevel).bind fun _ _ hd₃ _ =>
          mirrors_untilMatchFrom hx hstart more fuel hd₃

theorem copies_untilMatch {x y : Told σ (Outcome α)} (hx : P.Copies x y) (more fuel : Nat) :
    P.Copies (Told.untilMatch x fuel) (Told.untilMatch y (more + fuel)) := by
  intro c c' hc
  refine mirrors_look ?_
  have hh : c.view.halted = false := hc.isHalted
  have hh' : c'.view.halted = false := hc.isHalted'
  rw [hh, hh']
  exact mirrors_untilMatchFrom hx hc.place more fuel hc

end TwoCuts

end Chunkwise
