import Chunkwise.Proofs.Parts
import Chunkwise.Proofs.Telling

/-! What all tellings have in common. Every telling walk is made of a few small moments, put
one behind another and sometimes told aside. So what holds of these moments and composes
holds of the tellings of all grammars that are made of what is built in. It is stated of two
tellings side by side, which covers what is said of a single one; the second one may have
more steps, and then goes on where the first one is out of them. What does not hold of finding
a round stuck, wherever that is, is left to be shown of repetitions. -/

namespace Chunkwise

namespace Told

variable {σ ι α β γ : Type} {S : σ → Prop} {Q : (β : Type) → Told σ β → Prop}
  {R : (β : Type) → Told σ β → Told σ β → Prop}

/-- A relation of telling walks that all ways to make one respect but for repetitions, where
the skip rules in force are of `S`. Where the first one is out of steps, `Q` is asked of the
second one. -/
structure Resemblance (S : σ → Prop) (Q : (β : Type) → Told σ β → Prop)
    (R : (β : Type) → Told σ β → Told σ β → Prop) : Prop where
  pure : ∀ {β : Type} (b : β), R β (pure b) (pure b)
  bind : ∀ {β γ : Type} {x y : Told σ β} {f g : β → Told σ γ}, R β x y →
    (∀ b, R γ (f b) (g b)) → R γ (x >>= f) (y >>= g)
  never : ∀ {β : Type} {y : Told σ β}, Q β y → R β never y
  look : ∀ {β : Type} {f g : View σ → Told σ β},
    (∀ v, (∀ s ∈ v.skip, S s) → R β (f v) (g v)) → R β (look >>= f) (look >>= g)
  moveTo : ∀ i, R Unit (moveTo i) (moveTo i)
  note : ∀ f, R Unit (note f) (note f)
  setSkip : ∀ {skip : Option σ}, (∀ s ∈ skip, S s) → R Unit (setSkip skip) (setSkip skip)
  setSkipping : ∀ b, R Unit (setSkipping b) (setSkipping b)
  record : ∀ f, R Unit (record f) (record f)
  findUnresolved : ∀ name, R Unit (findUnresolved name) (findUnresolved name)
  enterRule : ∀ name, R Bool (enterRule name) (enterRule name)
  exitRule : ∀ matched, R Unit (exitRule matched) (exitRule matched)
  aside : ∀ {β : Type} {x y : Told σ β}, R β x y → R β (aside x) (aside y)

/-- A relation of telling walks that all ways to make one respect. -/
structure Likeness (S : σ → Prop) (Q : (β : Type) → Told σ β → Prop)
    (R : (β : Type) → Told σ β → Told σ β → Prop) : Prop extends Resemblance S Q R where
  findStuck : ∀ round, R Unit (findStuck round) (findStuck round)

namespace Resemblance

variable (hR : Resemblance S Q R)

include hR

/-! ## Small walks -/

theorem restore (i : Nat) : R Unit (Told.restore i) (Told.restore i) := by
  refine hR.look fun v _ => ?_
  split
  · exact hR.pure ()
  · exact hR.bind (hR.note _) fun _ => hR.moveTo i

theorem skipEmpty : R Unit Told.skipEmpty Told.skipEmpty :=
  hR.look fun _ _ => hR.moveTo _

theorem noteMatch (t : Token) : R Unit (Told.noteMatch t) (Told.noteMatch t) :=
  hR.look fun _ _ => hR.note _

theorem noteMiss (t : Token) : R Unit (Told.noteMiss t) (Told.noteMiss t) :=
  hR.look fun _ _ => hR.note _

theorem fail (position : Nat) (expected : Token) :
    R (Outcome α) (Told.fail position expected) (Told.fail position expected) :=
  hR.bind (hR.record _) fun _ => hR.pure _

theorem haltedFailure : R (Outcome α) Told.haltedFailure Told.haltedFailure :=
  hR.look fun _ _ => hR.pure _

theorem map {x y : Told σ (Outcome α)} (hx : R _ x y) (f : α → β) :
    R _ (x.map f) (y.map f) :=
  hR.bind hx fun _ => hR.pure _

/-! ## Combined walks -/

theorem inTurn {tell tell' : ι → Told σ (Outcome α)} :
    ∀ {gs : List ι}, (∀ g ∈ gs, R _ (tell g) (tell' g)) →
      R _ (Told.inTurn (gs.map tell)) (Told.inTurn (gs.map tell'))
  | [], _ => hR.pure _
  | g :: gs, hgs => by
    refine hR.bind (hgs g (by simp)) fun o => ?_
    cases o with
    | failure f => exact hR.pure _
    | success v =>
      exact hR.bind (inTurn fun g hm => hgs g (by simp [hm])) fun _ => hR.pure _

theorem sequence {tell tell' : ι → Told σ (Outcome α)} {gs : List ι}
    (hgs : ∀ g ∈ gs, R _ (tell g) (tell' g)) :
    R _ (Told.sequence (gs.map tell)) (Told.sequence (gs.map tell')) := by
  refine hR.look fun v _ => hR.bind (hR.inTurn hgs) fun o => ?_
  cases o with
  | success vs => exact hR.pure _
  | failure f => exact hR.bind (hR.restore _) fun _ => hR.pure _

theorem tryEach {tell tell' : ι → Told σ (Outcome α)} {start : Nat} :
    ∀ {gs : List ι}, (∀ g ∈ gs, R _ (tell g) (tell' g)) → ∀ {before},
      R _ (Told.tryEach start before (gs.map tell)) (Told.tryEach start before (gs.map tell'))
  | [], _, some f => hR.pure _
  | [], _, none => hR.fail _ _
  | g :: gs, hgs, before => by
    rw [List.map_cons, List.map_cons, Told.tryEach, Told.tryEach]
    refine hR.bind (hgs g (by simp)) fun o => ?_
    cases o with
    | success v => exact hR.pure _
    | failure f =>
      exact hR.bind (hR.restore _) fun _ => tryEach fun g hm => hgs g (by simp [hm])

theorem choice {tell tell' : ι → Told σ (Outcome α)} {gs : List ι}
    (hgs : ∀ g ∈ gs, R _ (tell g) (tell' g)) :
    R _ (Told.choice (gs.map tell)) (Told.choice (gs.map tell')) :=
  hR.look fun _ _ => hR.tryEach hgs

theorem optional {x y : Told σ (Outcome α)} (hx : R _ x y) :
    R _ (Told.optional x) (Told.optional y) := by
  refine hR.look fun v _ => hR.bind hx fun o => ?_
  cases o with
  | success w => exact hR.pure _
  | failure f => exact hR.bind (hR.restore _) fun _ => hR.pure _

theorem peek {x y : Told σ (Outcome α)} (hx : R _ x y) : R _ (Told.peek x) (Told.peek y) :=
  hR.look fun _ _ => hR.aside (hR.bind hx fun _ => hR.bind (hR.restore _) fun _ => hR.pure _)

theorem probe {x y : Told σ (Outcome α)} (hx : R _ x y) : R _ (Told.probe x) (Told.probe y) :=
  hR.bind (hR.peek hx) fun _ => hR.pure _

theorem notAhead {x y : Told σ (Outcome α)} (hx : R _ x y) :
    R _ (Told.notAhead x) (Told.notAhead y) := by
  refine hR.look fun v _ => hR.bind (hR.probe hx) fun matched => ?_
  split
  · exact hR.fail _ _
  · exact hR.pure _

theorem withSkip {x y : Told σ (Outcome α)} {skip : σ} (hskip : S skip) (hx : R _ x y) :
    R _ (Told.withSkip skip x) (Told.withSkip skip y) := by
  refine hR.look fun v hv => hR.bind (hR.setSkip ?_) fun _ =>
    hR.bind hx fun _ => hR.bind (hR.setSkip hv) fun _ => hR.pure _
  intro s hs
  cases hs
  exact hskip

theorem trySkip {tell tell' : σ → Told σ (Outcome α)} (htell : ∀ s, S s → R _ (tell s) (tell' s)) :
    R _ (Told.trySkip tell) (Told.trySkip tell') := by
  refine hR.look fun v hv => ?_
  split
  · exact hR.pure _
  · cases hs : v.skip with
    | none => exact hR.pure _
    | some skip =>
      refine hR.bind (hR.aside ?_) fun o => hR.look fun v' _ => ?_
      · exact hR.bind (hR.setSkipping _) fun _ => hR.bind (htell skip (hv skip hs)) fun _ =>
          hR.bind (hR.setSkipping _) fun _ => hR.pure _
      · split
        · exact hR.bind (hR.note _) fun _ => hR.pure _
        · exact hR.bind (hR.moveTo _) fun _ => hR.pure _

theorem inRule {x y : Told σ (Outcome α)} (hx : R _ x y) (name : String) :
    R _ (Told.inRule name x) (Told.inRule name y) := by
  refine hR.bind (hR.enterRule name) fun entered => ?_
  split
  · exact hR.bind hx fun _ => hR.bind (hR.exitRule _) fun _ => hR.pure _
  · exact hR.haltedFailure

/-! ## Terminals -/

theorem consumeFrom {skip skip' : Told σ Bool} (hskip : R _ skip skip') {token : Token}
    {start more : Nat} (hmore : Q _ (Told.consumeFrom skip' token start more)) (fuel : Nat) :
    R _ (Told.consumeFrom skip token start fuel)
      (Told.consumeFrom skip' token start (more + fuel)) := by
  induction fuel with
  | zero => exact hR.never hmore
  | succ fuel ih =>
    refine hR.bind hR.skipEmpty fun _ => hR.look fun v _ => ?_
    split
    · exact hR.bind (hR.noteMatch _) fun _ => hR.pure _
    · split
      · exact hR.bind (hR.noteMatch _) fun _ => hR.bind (hR.moveTo _) fun _ => hR.pure _
      · refine hR.bind hskip fun moved => ?_
        split
        · exact ih
        · exact hR.look fun _ _ => hR.bind (hR.noteMiss _) fun _ =>
            hR.bind (hR.restore _) fun _ => hR.fail _ _

theorem consume {skip skip' : Told σ Bool} (hskip : R _ skip skip') {token : Token} {more : Nat}
    (hmore : ∀ start, Q _ (Told.consumeFrom skip' token start more)) (fuel : Nat) :
    R _ (Told.consume skip token fuel) (Told.consume skip' token (more + fuel)) := by
  refine hR.look fun v _ => ?_
  split
  · exact hR.haltedFailure
  · exact hR.consumeFrom hskip (hmore _) fuel

theorem consumeBehind (token : Token) :
    R (Outcome String) (Told.consumeBehind token) (Told.consumeBehind token) := by
  refine hR.look fun v _ => ?_
  split
  · exact hR.haltedFailure
  · split
    · split
      · exact hR.bind (hR.moveTo _) fun _ => hR.pure _
      · exact hR.fail _ _
    · split
      · exact hR.bind (hR.moveTo _) fun _ => hR.bind (hR.noteMatch _) fun _ => hR.pure _
      · exact hR.bind (hR.moveTo _) fun _ => hR.bind (hR.noteMiss _) fun _ =>
          hR.bind (hR.moveTo _) fun _ => hR.fail _ _

theorem untilToken (token : Token) :
    R (Outcome (List String)) (Told.untilToken token) (Told.untilToken token) := by
  refine hR.look fun v _ => ?_
  split
  · exact hR.haltedFailure
  · generalize Walk.gather token.accepts v.chunks (v.chunks.size - v.cursor + 1) v.cursor #[] = x
    obtain ⟨found, gathered, i⟩ := x
    refine hR.bind (hR.moveTo i) fun _ => ?_
    split
    · exact hR.pure _
    · exact hR.bind (hR.noteMiss _) fun _ => hR.bind (hR.restore _) fun _ => hR.fail _ _

theorem untilMatchFrom {x y : Told σ (Outcome α)} (hx : R _ x y) {start more : Nat}
    (hmore : ∀ gathered, Q _ (Told.untilMatchFrom y start more gathered)) (fuel : Nat) :
    ∀ {gathered}, R _ (Told.untilMatchFrom x start fuel gathered)
      (Told.untilMatchFrom y start (more + fuel) gathered) := by
  induction fuel with
  | zero => exact fun {gathered} => hR.never (hmore gathered)
  | succ fuel ih =>
    intro gathered
    refine hR.bind hR.skipEmpty fun _ => hR.look fun v _ => hR.bind (hR.probe hx) fun stops => ?_
    split
    · exact hR.pure _
    · refine hR.look fun v' _ => ?_
      split
      · exact hR.bind (hR.restore _) fun _ => hR.fail _ _
      · exact hR.bind (hR.moveTo _) fun _ => ih

theorem untilMatch {x y : Told σ (Outcome α)} (hx : R _ x y) {more : Nat}
    (hmore : ∀ start gathered, Q _ (Told.untilMatchFrom y start more gathered)) (fuel : Nat) :
    R _ (Told.untilMatch x fuel) (Told.untilMatch y (more + fuel)) := by
  refine hR.look fun v _ => ?_
  split
  · exact hR.haltedFailure
  · exact hR.untilMatchFrom hx (hmore _) fuel

/-! ## Repetition -/

theorem stopsAt {tell tell' : ι → Told σ (Outcome γ)} {r r' : Repetition σ α β γ}
    {stop : Option ι} (hr : r.stop = stop.map tell) (hr' : r'.stop = stop.map tell')
    (hstop : ∀ s ∈ stop, R _ (tell s) (tell' s)) : R Bool r.stopsAt r'.stopsAt := by
  unfold Repetition.stopsAt
  rw [hr, hr']
  cases stop with
  | none => exact hR.pure _
  | some s => exact hR.probe (hstop s rfl)

theorem separates {tell tell' : ι → Told σ (Outcome β)} {r r' : Repetition σ α β γ}
    {separator : Option ι} (hr : r.separator = separator.map tell)
    (hr' : r'.separator = separator.map tell')
    (hseparator : ∀ s ∈ separator, R _ (tell s) (tell' s)) : R Bool r.separates r'.separates := by
  unfold Repetition.separates
  rw [hr, hr']
  cases separator with
  | none => exact hR.pure _
  | some s => exact hR.bind (hseparator s rfl) fun _ => hR.pure _

end Resemblance

namespace Likeness

variable (hR : Likeness S Q R)

include hR

/-- The two repetitions of parts that are told by `tell` and by `tell'`. -/
theorem rounds {tell tell' : ι → Told σ (Outcome α)} {g : ι} {least : Nat}
    {separator stop : Option ι} (hg : R _ (tell g) (tell' g))
    (hseparator : ∀ s ∈ separator, R _ (tell s) (tell' s))
    (hstop : ∀ s ∈ stop, R _ (tell s) (tell' s)) {start more : Nat}
    (hmore : ∀ rewind values, Q _ (Repetition.rounds
      ⟨tell' g, least, separator.map tell', stop.map tell'⟩ start more rewind values))
    (fuel : Nat) :
    ∀ {rewind values}, R _
      (Repetition.rounds ⟨tell g, least, separator.map tell, stop.map tell⟩ start fuel
        rewind values)
      (Repetition.rounds ⟨tell' g, least, separator.map tell', stop.map tell'⟩ start (more + fuel)
        rewind values) := by
  induction fuel with
  | zero => exact fun {rewind values} => hR.never (hmore rewind values)
  | succ fuel ih =>
    intro rewind values
    refine hR.look fun v _ => ?_
    split
    · exact hR.bind (hR.restore _) fun _ => hR.pure _
    · refine hR.bind (hR.stopsAt rfl rfl hstop) fun stops => hR.look fun v _ => ?_
      split
      · split
        · exact hR.bind (hR.restore _) fun _ => hR.fail _ _
        · exact hR.bind (hR.restore _) fun _ => hR.pure _
      · refine hR.bind hg fun o => ?_
        cases o with
        | failure f =>
          dsimp only
          split
          · exact hR.bind (hR.restore _) fun _ => hR.pure _
          · exact hR.bind (hR.restore _) fun _ => hR.pure _
        | success w =>
          refine hR.look fun v₂ _ => hR.bind (hR.separates rfl rfl hseparator) fun more =>
            hR.look fun v₃ _ => ?_
          split
          · exact hR.bind (hR.restore _) fun _ => hR.pure _
          · split
            · exact hR.bind (hR.findStuck _) fun _ => hR.bind (hR.restore _) fun _ => hR.fail _ _
            · exact ih

end Likeness

end Told

namespace Grammar

variable {rules : RuleTable} {S : LinkedGrammar → Prop}
  {Q : (β : Type) → Told LinkedGrammar β → Prop}
  {R : (β : Type) → Told LinkedGrammar β → Told LinkedGrammar β → Prop}

/-- What is asked of the loops of a grammar, given the tellings of its parts, where they have
`more` rounds to go. -/
structure LoopsGoOn (Q : (β : Type) → Told LinkedGrammar β → Prop)
    (tell : LinkedGrammar → Told LinkedGrammar (Outcome Value)) (more : Nat) (g : LinkedGrammar) :
    Prop where
  consume : ∀ token start, Q _ (Told.consumeFrom (Told.trySkip tell) token start more)
  untilMatch : ∀ g', g = .untilMatch g' → ∀ start gathered,
    Q _ (Told.untilMatchFrom (tell g') start more gathered)
  repeated : ∀ g' least separator stop, g = .repeated g' least separator stop →
    ∀ start rewind values, Q _ (Told.Repetition.rounds
      ⟨tell g', least, separator.map tell, stop.map tell⟩ start more rewind values)

/-- Two tellings of a grammar resemble each other if those of its parts, of the rules and of
the skip rules do, and the repetition does if it is one. -/
theorem tellStep_resembling (hR : Told.Resemblance S Q R)
    {tell tell' : LinkedGrammar → Told LinkedGrammar (Outcome Value)} {fuel more : Nat}
    {g : LinkedGrammar} (hg : g.isNative = false) (hrules : ∀ g ∈ rules, R _ (tell g) (tell' g))
    (hskips : ∀ s, S s → R _ (tell s) (tell' s))
    (hinstalled : ∀ skip body, g = .skipIn skip body → S skip)
    (hparts : ∀ part ∈ g.parts, R _ (tell part) (tell' part))
    (hloops : LoopsGoOn Q tell' more g)
    (hrepeated : ∀ g' least separator stop, g = .repeated g' least separator stop →
      R _ (Told.repetition ⟨tell g', least, separator.map tell, stop.map tell⟩ fuel)
        (Told.repetition ⟨tell' g', least, separator.map tell', stop.map tell'⟩ (more + fuel))) :
    R _ (tellStep rules fuel tell g) (tellStep rules (more + fuel) tell' g) := by
  cases g with
  | consume t => exact hR.map (hR.consume (hR.trySkip hskips) (hloops.consume t) fuel) _
  | behind t => exact hR.map (hR.consumeBehind t) _
  | untilToken t => exact hR.map (hR.untilToken t) _
  | untilMatch g =>
    exact hR.map (hR.untilMatch (hparts g (by simp [parts])) (hloops.untilMatch g rfl) fuel) _
  | unit => exact hR.pure _
  | sequence gs => exact hR.map (hR.sequence hparts) _
  | choice gs => exact hR.choice hparts
  | optional g => exact hR.map (hR.optional (hparts g (by simp [parts]))) _
  | peek g => exact hR.peek (hparts g (by simp [parts]))
  | notAhead g => exact hR.map (hR.notAhead (hparts g (by simp [parts]))) _
  | skipIn skip g => exact hR.withSkip (hinstalled skip g rfl) (hparts g (by simp [parts]))
  | repeated g least separator stop => exact hR.map (hrepeated g least separator stop rfl) _
  | rule r =>
    show R _ (tellCall rules tell r) (tellCall rules tell' r)
    unfold tellCall
    split
    · rename_i g hget
      exact hR.inRule (hrules g (Array.mem_of_getElem? hget)) r.name
    · exact hR.bind (hR.findUnresolved _) fun _ => hR.haltedFailure
  | map f g => exact hR.map (hparts g (by simp [parts])) f
  | discard g => exact hR.map (hparts g (by simp [parts])) _
  | native f => cases hg
  | andThen g f => cases hg

/-- What is said of the telling of a grammar next to itself. -/
theorem tellStep_resembles (hR : Told.Resemblance S (fun _ _ => True) R)
    {tell : LinkedGrammar → Told LinkedGrammar (Outcome Value)} {fuel : Nat} {g : LinkedGrammar}
    (hg : g.isNative = false) (hrules : ∀ g ∈ rules, R _ (tell g) (tell g))
    (hskips : ∀ s, S s → R _ (tell s) (tell s))
    (hinstalled : ∀ skip body, g = .skipIn skip body → S skip)
    (hparts : ∀ part ∈ g.parts, R _ (tell part) (tell part))
    (hrepeated : ∀ g' least separator stop, g = .repeated g' least separator stop →
      R _ (Told.repetition ⟨tell g', least, separator.map tell, stop.map tell⟩ fuel)
        (Told.repetition ⟨tell g', least, separator.map tell, stop.map tell⟩ fuel)) :
    R _ (tellStep rules fuel tell g) (tellStep rules fuel tell g) := by
  have h : R _ (tellStep rules fuel tell g) (tellStep rules (0 + fuel) tell g) := by
    refine tellStep_resembling hR hg hrules hskips hinstalled hparts
      ⟨fun _ _ => trivial, fun _ _ _ _ => trivial, fun _ _ _ _ _ _ _ _ => trivial⟩ ?_
    rw [Nat.zero_add]
    exact hrepeated
  rwa [Nat.zero_add] at h

/-- Two tellings of a grammar are alike if those of its parts, of the rules and of the skip
rules are. -/
theorem tellStep_alike (hR : Told.Likeness S Q R)
    {tell tell' : LinkedGrammar → Told LinkedGrammar (Outcome Value)} {fuel more : Nat}
    {g : LinkedGrammar} (hg : g.isNative = false) (hrules : ∀ g ∈ rules, R _ (tell g) (tell' g))
    (hskips : ∀ s, S s → R _ (tell s) (tell' s))
    (hinstalled : ∀ skip body, g = .skipIn skip body → S skip)
    (hparts : ∀ part ∈ g.parts, R _ (tell part) (tell' part)) (hloops : LoopsGoOn Q tell' more g) :
    R _ (tellStep rules fuel tell g) (tellStep rules (more + fuel) tell' g) := by
  refine tellStep_resembling hR.toResemblance hg hrules hskips hinstalled hparts
    hloops ?_
  rintro g least separator stop rfl
  refine hR.look fun v _ => hR.rounds (hparts g (by simp [parts])) ?_ ?_
    (hloops.repeated g least separator stop rfl v.cursor) fuel
  · exact fun s hs => hparts s (by simp [parts, Option.mem_def.mp hs])
  · exact fun s hs => hparts s (by simp [parts, Option.mem_def.mp hs])

/-- The telling of a grammar that is made of what is built in is like the one with more
steps. -/
theorem tell_alike_more {G : LinkedGrammar → Prop} (hR : Told.Likeness G Q R)
    (hbuilt : ∀ g, G g → g.isBuiltIn = true) (hpart : ∀ g, G g → ∀ part ∈ g.parts, G part)
    (hrules : ∀ g ∈ rules, G g) {more : Nat} (hmore : ∀ g, G g → Q _ (tell rules more g))
    (hloops : ∀ g, G g → ∀ fuel, LoopsGoOn Q (tell rules (more + fuel)) more g) {fuel : Nat}
    {g : LinkedGrammar} (hg : G g) : R _ (tell rules fuel g) (tell rules (more + fuel) g) := by
  induction fuel generalizing g with
  | zero => exact hR.never (hmore g hg)
  | succ fuel ih =>
    refine tellStep_alike hR (by simpa using all_self (hbuilt g hg))
      (fun g hm => ih (hrules g hm)) (fun s hs => ih hs) ?_ (fun part hm => ih (hpart g hg part hm))
      (hloops g hg fuel)
    rintro skip body rfl
    exact hpart _ hg skip (by simp [parts])

/-- The telling of a grammar that is made of what is built in has whatever the small moments
have in common. -/
theorem tell_alike (hR : Told.Likeness (·.isBuiltIn = true) (fun _ _ => True) R)
    (hrules : ∀ g ∈ rules, g.isBuiltIn = true) {fuel : Nat} {g : LinkedGrammar}
    (hg : g.isBuiltIn = true) : R _ (tell rules fuel g) (tell rules fuel g) := by
  have h : R _ (tell rules fuel g) (tell rules (0 + fuel) g) :=
    tell_alike_more hR (fun _ hg => hg) (fun _ hg part hm => isBuiltIn_part hg hm) hrules
      (fun _ _ => trivial) (fun _ _ _ =>
        ⟨fun _ _ => trivial, fun _ _ _ _ => trivial, fun _ _ _ _ _ _ _ _ => trivial⟩) hg
  rwa [Nat.zero_add] at h

end Grammar

end Chunkwise
