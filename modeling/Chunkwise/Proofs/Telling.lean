import Chunkwise.Grammar.Run

/-! Walks that tell what happens. A telling walk does what the walk does, and lists its
moments besides: one for every change of the context, with the context that it leaves. What
happens while looking ahead or while skipping is marked as happening aside. A walk that runs
out of steps has told what happened until then. Without the moments it is the walk again, so
what is shown of all tellings holds of all walks. -/

namespace Chunkwise

/-- What changes in a moment. -/
inductive Change where
  /-- The cursor, the trace, the skip rule or the mark that it is running. -/
  | moved
  /-- A failure is remembered. -/
  | failed (f : Failure)
  /-- The failures since a lookahead began are forgotten. -/
  | forgot
  /-- A defect is found. -/
  | found (d : Defect)
  | opened (rule : String)
  | closed
  deriving DecidableEq, Repr

structure Moment (σ : Type) where
  change : Change
  /-- The context that the change leaves. -/
  context : Context σ
  /-- Whether this happens while looking ahead or skipping. -/
  aside : Bool := false

/-- The same moments, aside. -/
def putAside {σ : Type} (ms : List (Moment σ)) : List (Moment σ) :=
  ms.map ({ · with aside := true })

/-- What a walk tells: its moments, and how it ends unless it runs out of steps. -/
structure Tale (σ β : Type) where
  moments : List (Moment σ)
  ending : Option (β × Context σ)

/-- A walk that tells what happens. -/
def Told (σ β : Type) : Type := Context σ → Tale σ β

/-- What of a context decides how a walk goes on, besides the limit. -/
structure View (σ : Type) where
  chunks : Chunks
  cursor : Nat
  skip : Option σ
  skipping : Bool
  halted : Bool

namespace View

variable {σ : Type}

def chunk? (v : View σ) : Option String := v.chunks.get? v.cursor

def isExhausted (v : View σ) : Bool := v.chunks.size ≤ v.cursor

end View

namespace Context

variable {σ : Type}

def view (c : Context σ) : View σ := ⟨c.chunks, c.cursor, c.skip, c.skipping, c.isHalted⟩

/-- The defect of a round that began at chunk `round` and did not move. -/
def stuckAt (c : Context σ) (round : Nat) : Defect :=
  .infiniteLoop c.currentRule (c.chunks.offset round)

theorem view_isExhausted (c : Context σ) : c.view.isExhausted = c.isExhausted := rfl

theorem view_chunk? (c : Context σ) : c.view.chunk? = c.chunk? := rfl

end Context

namespace Told

variable {σ α β γ : Type}

instance : Monad (Told σ) where
  pure b := fun c => ⟨[], some (b, c)⟩
  bind x f := fun c =>
    match (x c).ending with
    | none => ⟨(x c).moments, none⟩
    | some (b, d) => ⟨(x c).moments ++ (f b d).moments, (f b d).ending⟩

/-- The walk without its moments. -/
def forget (x : Told σ β) (c : Context σ) : Option (β × Context σ) := (x c).ending

@[simp] theorem forget_pure (b : β) (c : Context σ) :
    forget (pure b : Told σ β) c = some (b, c) := rfl

theorem bind_of_none {x : Told σ β} {c : Context σ} (h : (x c).ending = none)
    (f : β → Told σ γ) : (x >>= f) c = ⟨(x c).moments, none⟩ := by
  simp only [Bind.bind, h]

theorem bind_of_some {x : Told σ β} {c d : Context σ} {b : β} (h : (x c).ending = some (b, d))
    (f : β → Told σ γ) :
    (x >>= f) c = ⟨(x c).moments ++ (f b d).moments, (f b d).ending⟩ := by
  simp only [Bind.bind, h]

@[simp] theorem forget_bind (x : Told σ β) (f : β → Told σ γ) (c : Context σ) :
    forget (x >>= f) c = (forget x c).bind fun y => forget (f y.1) y.2 := by
  unfold forget
  cases h : (x c).ending with
  | none => rw [bind_of_none h, Option.bind_none]
  | some y => rw [bind_of_some h, Option.bind_some]

@[simp] theorem forget_ite (p : Prop) [Decidable p] (x y : Told σ β) (c : Context σ) :
    forget (if p then x else y) c = if p then forget x c else forget y c := by
  split <;> rfl

/-! ## Moments -/

/-- Out of steps. -/
def never : Told σ β := fun _ => ⟨[], none⟩

def look : Told σ (View σ) := fun c => ⟨[], some (c.view, c)⟩

/-- A change of the context. -/
def become (change : Change) (f : Context σ → Context σ) : Told σ Unit := fun c =>
  ⟨[⟨change, f c, false⟩], some ((), f c)⟩

def moveTo (i : Nat) : Told σ Unit := become .moved (·.moveTo i)

def note (f : Trace → Trace) : Told σ Unit := become .moved (·.note f)

def setSkip (skip : Option σ) : Told σ Unit := become .moved (·.withSkip skip)

def setSkipping (b : Bool) : Told σ Unit := become .moved ({ · with skipping := b })

def record (f : Failure) : Told σ Unit := become (.failed f) (·.record f)

def findUnresolved (name : String) : Told σ Unit :=
  become (.found (.unresolvedRule name)) (·.halt (.unresolvedRule name))

def findStuck (round : Nat) : Told σ Unit := fun c =>
  become (.found (c.stuckAt round)) (·.halt (c.stuckAt round)) c

/-- Opens a rule, unless the parse has stopped or stops because of the limit. -/
def enterRule (name : String) : Told σ Bool := fun c =>
  if c.isHalted then ⟨[], some (false, c)⟩
  else
    match c.exceededLimit? with
    | some limit =>
      let d := c.halt (.recursionLimitExceeded name limit)
      ⟨[⟨.found (.recursionLimitExceeded name limit), d, false⟩], some (false, d)⟩
    | none => ⟨[⟨.opened name, c.pushRule name, false⟩], some (true, c.pushRule name)⟩

def exitRule (matched : Bool) : Told σ Unit := become .closed (·.exitRule matched)

/-- A walk whose moments happen aside and whose failures are forgotten. -/
def aside (x : Told σ β) : Told σ β := fun c =>
  match (x c).ending with
  | none => ⟨putAside (x c).moments, none⟩
  | some (b, d) =>
    let d := { d with deepest := c.deepest }
    ⟨putAside (x c).moments ++ [⟨.forgot, d, true⟩], some (b, d)⟩

@[simp] theorem forget_look (c : Context σ) : forget look c = some (c.view, c) := rfl

@[simp] theorem forget_become (change : Change) (f : Context σ → Context σ) (c : Context σ) :
    forget (become change f) c = some ((), f c) := rfl

@[simp] theorem forget_findStuck (round : Nat) (c : Context σ) :
    forget (findStuck round) c = some ((), c.halt (c.stuckAt round)) := rfl

@[simp] theorem forget_enterRule (name : String) (c : Context σ) :
    forget (enterRule name) c = some (c.enterRule name) := by
  unfold forget enterRule Context.enterRule
  split
  · rfl
  · cases c.exceededLimit? <;> rfl

@[simp] theorem forget_aside (x : Told σ β) (c : Context σ) :
    forget (aside x) c
      = (forget x c).map fun y => (y.1, { y.2 with deepest := c.deepest }) := by
  unfold forget aside
  cases (x c).ending <;> rfl

/-- What is forgotten is neither the defect nor where the walk ends. -/
theorem ending_aside_eq_some {x : Told σ β} {c d : Context σ} {b : β} :
    (aside x c).ending = some (b, d) ↔
      ∃ d₁, (x c).ending = some (b, d₁) ∧ d = { d₁ with deepest := c.deepest } := by
  have haside : (aside x c).ending = _ := forget_aside x c
  rw [haside, Option.map_eq_some_iff]
  constructor
  · rintro ⟨⟨b₁, d₁⟩, h₁, he⟩
    cases he
    exact ⟨d₁, h₁, rfl⟩
  · rintro ⟨d₁, h₁, rfl⟩
    exact ⟨(b, d₁), h₁, rfl⟩

/-! ## Small walks -/

def restore (i : Nat) : Told σ Unit := do
  let v ← look
  if i = v.cursor then pure ()
  else do
    note (·.add (.backtracked v.cursor i))
    moveTo i

def skipEmpty : Told σ Unit := do
  let v ← look
  moveTo (v.chunks.skipEmpty v.cursor)

def noteMatch (t : Token) : Told σ Unit := do
  let v ← look
  note (·.add (.matched t.name v.cursor (v.chunk?.getD "")))

def noteMiss (t : Token) : Told σ Unit := do
  let v ← look
  note (·.add (.missed t.name v.cursor v.chunk?))

def fail (position : Nat) (expected : Token) : Told σ (Outcome α) := do
  record ⟨position, expected⟩
  pure (.failure ⟨position, expected⟩)

def haltedFailure : Told σ (Outcome α) := do
  let v ← look
  pure (.failure ⟨v.cursor, .unexpected⟩)

def map (f : α → β) (x : Told σ (Outcome α)) : Told σ (Outcome β) := do
  let o ← x
  pure (o.map f)

@[simp] theorem forget_restore (i : Nat) (c : Context σ) :
    forget (restore i) c = some ((), c.restore i) := by
  by_cases h : i = c.cursor
  · simp [restore, Context.restore, Context.view, h]
  · simp [restore, Context.restore, Context.view, h, note, moveTo]

@[simp] theorem forget_skipEmpty (c : Context σ) :
    forget skipEmpty c = some ((), c.skipEmpty) := rfl

@[simp] theorem forget_noteMatch (t : Token) (c : Context σ) :
    forget (noteMatch t) c = some ((), c.noteMatch t) := rfl

@[simp] theorem forget_noteMiss (t : Token) (c : Context σ) :
    forget (noteMiss t) c = some ((), c.noteMiss t) := rfl

@[simp] theorem forget_fail (position : Nat) (expected : Token) (c : Context σ) :
    forget (fail position expected : Told σ (Outcome α)) c = some (c.fail position expected) := rfl

@[simp] theorem forget_haltedFailure (c : Context σ) :
    forget (haltedFailure : Told σ (Outcome α)) c = some (c.haltedFailure, c) := rfl

@[simp] theorem forget_map (f : α → β) (x : Told σ (Outcome α)) :
    forget (map f x) = Walk.map f (forget x) := by
  funext c
  simp only [map, forget_bind, forget_pure, Walk.map]
  cases forget x c <;> rfl

/-! ## Combined walks -/

def inTurn : List (Told σ (Outcome α)) → Told σ (Outcome (List α))
  | [] => pure (.success [])
  | x :: xs => do
    match ← x with
    | .failure f => pure (.failure f)
    | .success v => do
      let o ← inTurn xs
      pure (o.map (v :: ·))

def sequence (xs : List (Told σ (Outcome α))) : Told σ (Outcome (List α)) := do
  let v ← look
  match ← inTurn xs with
  | .success vs => pure (.success vs)
  | .failure f => do
    restore v.cursor
    pure (.failure f)

def tryEach (start : Nat) : Option Failure → List (Told σ (Outcome α)) → Told σ (Outcome α)
  | some f, [] => pure (.failure f)
  | none, [] => fail start .unexpected
  | before, x :: xs => do
    match ← x with
    | .success v => pure (.success v)
    | .failure f => do
      restore start
      tryEach start (some (.deepest before f)) xs

def choice (xs : List (Told σ (Outcome α))) : Told σ (Outcome α) := do
  let v ← look
  tryEach v.cursor none xs

def optional (x : Told σ (Outcome α)) : Told σ (Outcome (Option α)) := do
  let v ← look
  match ← x with
  | .success w => pure (.success (some w))
  | .failure _ => do
    restore v.cursor
    pure (.success none)

def peek (x : Told σ (Outcome α)) : Told σ (Outcome α) := do
  let v ← look
  aside do
    let o ← x
    restore v.cursor
    pure o

def probe (x : Told σ (Outcome α)) : Told σ Bool := do
  let o ← peek x
  pure o.isSuccess

def notAhead (x : Told σ (Outcome α)) : Told σ (Outcome Unit) := do
  let v ← look
  let matched ← probe x
  if matched then fail v.cursor .unexpected else pure (.success ())

def withSkip (skip : σ) (x : Told σ (Outcome α)) : Told σ (Outcome α) := do
  let v ← look
  setSkip (some skip)
  let o ← x
  setSkip v.skip
  pure o

def trySkip (run : σ → Told σ (Outcome α)) : Told σ Bool := do
  let v ← look
  if v.skipping then pure false
  else
    match v.skip with
    | none => pure false
    | some skip => do
      let o ← aside do
        setSkipping true
        let o ← run skip
        setSkipping false
        pure o
      let v' ← look
      if o.isSuccess && v.cursor < v'.cursor then do
        note (·.add (.skipped v.cursor v'.cursor))
        pure true
      else do
        moveTo v.cursor
        pure false

def inRule (name : String) (body : Told σ (Outcome α)) : Told σ (Outcome α) := do
  let entered ← enterRule name
  if entered then do
    let o ← body
    exitRule o.isSuccess
    pure o
  else haltedFailure

@[simp] theorem forget_inTurn (xs : List (Told σ (Outcome α))) :
    forget (inTurn xs) = Walk.inTurn (xs.map forget) := by
  induction xs with
  | nil => rfl
  | cons x xs ih =>
    funext c
    simp only [inTurn, List.map_cons, Walk.inTurn, forget_bind]
    refine congrArg _ (funext fun y => ?_)
    obtain ⟨o, d⟩ := y
    cases o with
    | failure f => rfl
    | success v => simp only [forget_bind, ih]; rfl

@[simp] theorem forget_sequence (xs : List (Told σ (Outcome α))) :
    forget (sequence xs) = Walk.sequence (xs.map forget) := by
  funext c
  simp only [sequence, forget_bind, forget_look, Option.bind_some, forget_inTurn, Walk.sequence]
  refine congrArg _ (funext fun y => ?_)
  obtain ⟨o, d⟩ := y
  cases o with
  | success vs => rfl
  | failure f => simp [Context.view]

@[simp] theorem forget_tryEach (start : Nat) (before : Option Failure)
    (xs : List (Told σ (Outcome α))) :
    forget (tryEach start before xs) = Walk.tryEach start before (xs.map forget) := by
  induction xs generalizing before with
  | nil => cases before <;> rfl
  | cons x xs ih =>
    funext c
    rw [tryEach, List.map_cons, Walk.tryEach, forget_bind]
    refine congrArg _ (funext fun y => ?_)
    obtain ⟨o, d⟩ := y
    cases o with
    | success v => rfl
    | failure f => simp [ih]

@[simp] theorem forget_choice (xs : List (Told σ (Outcome α))) :
    forget (choice xs) = Walk.choice (xs.map forget) := by
  funext c
  simp [choice, Walk.choice, Context.view]

@[simp] theorem forget_optional (x : Told σ (Outcome α)) :
    forget (optional x) = Walk.optional (forget x) := by
  funext c
  simp only [optional, forget_bind, forget_look, Option.bind_some, Walk.optional]
  refine congrArg _ (funext fun y => ?_)
  obtain ⟨o, d⟩ := y
  cases o with
  | success v => rfl
  | failure f => simp [Context.view]

@[simp] theorem forget_peek (x : Told σ (Outcome α)) :
    forget (peek x) = Walk.peek (forget x) := by
  funext c
  simp only [peek, forget_bind, forget_look, Option.bind_some, forget_aside, Walk.peek,
    forget_restore, forget_pure]
  cases forget x c <;> rfl

@[simp] theorem forget_probe (x : Told σ (Outcome α)) :
    forget (probe x) = Walk.probe (forget x) := by
  funext c
  simp only [probe, forget_bind, forget_peek, forget_pure, Walk.probe]
  rfl

@[simp] theorem forget_notAhead (x : Told σ (Outcome α)) :
    forget (notAhead x) = Walk.notAhead (forget x) := by
  funext c
  simp only [notAhead, forget_bind, forget_look, Option.bind_some, forget_probe, Walk.notAhead]
  refine congrArg _ (funext fun y => ?_)
  obtain ⟨b, d⟩ := y
  cases b <;> rfl

@[simp] theorem forget_withSkip (skip : σ) (x : Told σ (Outcome α)) :
    forget (withSkip skip x) = Walk.withSkip skip (forget x) := by
  funext c
  simp only [withSkip, setSkip, forget_bind, forget_look, forget_become, Option.bind_some,
    forget_pure, Walk.withSkip]
  rfl

@[simp] theorem forget_trySkip (run : σ → Told σ (Outcome α)) :
    forget (trySkip run) = Walk.trySkip fun s => forget (run s) := by
  funext c
  simp only [trySkip, Walk.trySkip, forget_bind, forget_look, Option.bind_some]
  cases hk : c.skipping with
  | true => simp [Context.view, hk]
  | false =>
    cases hs : c.skip with
    | none => simp [Context.view, hk, hs]
    | some skip =>
      simp only [Context.view, hk, hs, Bool.false_eq_true, if_false, setSkipping, forget_bind,
        forget_aside, forget_become, Option.bind_some, forget_pure, forget_look, forget_ite]
      cases forget (run skip)
        { chunks := c.chunks, cursor := c.cursor, skip := some skip, skipping := true,
          deepest := c.deepest, ruleStack := c.ruleStack, recursionLimit := c.recursionLimit,
          fatal := c.fatal, trace := c.trace } with
      | none => rfl
      | some y => rfl

@[simp] theorem forget_inRule (name : String) (x : Told σ (Outcome α)) :
    forget (inRule name x) = Walk.inRule name (forget x) := by
  funext c
  simp only [inRule, Walk.inRule, forget_bind, forget_enterRule, Option.bind_some]
  rcases c.enterRule name with ⟨entered, d⟩
  cases entered with
  | false => rfl
  | true => simp [exitRule]

/-! ## Terminals -/

def consumeFrom (skip : Told σ Bool) (token : Token) (start : Nat) :
    Nat → Told σ (Outcome String)
  | 0 => never
  | fuel + 1 => do
    skipEmpty
    let v ← look
    if v.isExhausted && token.isEof then do
      noteMatch token
      pure (.success "")
    else
      match v.chunk?.filter token.accepts with
      | some chunk => do
        noteMatch token
        moveTo (v.cursor + 1)
        pure (.success chunk)
      | none => do
        let moved ← skip
        if moved then consumeFrom skip token start fuel
        else do
          let v ← look
          noteMiss token
          restore start
          fail v.cursor token

def consume (skip : Told σ Bool) (token : Token) (fuel : Nat) : Told σ (Outcome String) := do
  let v ← look
  if v.halted then haltedFailure else consumeFrom skip token v.cursor fuel

def consumeBehind (token : Token) : Told σ (Outcome String) := do
  let v ← look
  if v.halted then haltedFailure
  else
    match v.chunks.skipEmptyBack v.cursor with
    | 0 =>
      if token.isEof then do
        moveTo 0
        pure (.success "")
      else fail 0 token
    | i + 1 =>
      match (v.chunks.get? i).filter token.accepts with
      | some chunk => do
        moveTo i
        noteMatch token
        pure (.success chunk)
      | none => do
        moveTo i
        noteMiss token
        moveTo v.cursor
        fail i token

def untilToken (token : Token) : Told σ (Outcome (List String)) := do
  let v ← look
  if v.halted then haltedFailure
  else
    let (found, gathered, i) :=
      Walk.gather token.accepts v.chunks (v.chunks.size - v.cursor + 1) v.cursor #[]
    do
      moveTo i
      if found || token.isEof then pure (.success gathered.toList)
      else do
        noteMiss token
        restore v.cursor
        fail i token

def untilMatchFrom (stop : Told σ (Outcome α)) (start : Nat) :
    Nat → Array String → Told σ (Outcome (List String))
  | 0, _ => never
  | fuel + 1, gathered => do
    skipEmpty
    let v ← look
    let stops ← probe stop
    if stops then pure (.success gathered.toList)
    else do
      let v' ← look
      match v'.chunks.get? v.cursor with
      | none => do
        restore start
        fail start .unexpected
      | some chunk => do
        moveTo (v.cursor + 1)
        untilMatchFrom stop start fuel (gathered.push chunk)

def untilMatch (stop : Told σ (Outcome α)) (fuel : Nat) : Told σ (Outcome (List String)) := do
  let v ← look
  if v.halted then haltedFailure else untilMatchFrom stop v.cursor fuel #[]

@[simp] theorem forget_consumeFrom (skip : Told σ Bool) (token : Token) (start fuel : Nat) :
    forget (consumeFrom skip token start fuel)
      = Walk.consumeFrom (forget skip) token start fuel := by
  induction fuel with
  | zero => rfl
  | succ fuel ih =>
    funext c
    simp only [consumeFrom, Walk.consumeFrom, forget_bind, forget_skipEmpty, forget_look,
      Option.bind_some, Context.view_isExhausted, Context.view_chunk?, forget_ite]
    cases c.skipEmpty.chunk?.filter token.accepts with
    | some chunk => rfl
    | none =>
      refine congrArg _ ?_
      rw [forget_bind]
      refine congrArg _ (funext fun y => ?_)
      obtain ⟨moved, d⟩ := y
      cases moved with
      | true => simp [ih]
      | false => simp [Context.view]

@[simp] theorem forget_consume (skip : Told σ Bool) (token : Token) (fuel : Nat) :
    forget (consume skip token fuel) = Walk.consume (forget skip) token fuel := by
  funext c
  simp [consume, Walk.consume, Context.view]

@[simp] theorem forget_consumeBehind (token : Token) :
    forget (consumeBehind token : Told σ (Outcome String)) = Walk.consumeBehind token := by
  funext c
  simp only [consumeBehind, Walk.consumeBehind, forget_bind, forget_look, Option.bind_some,
    forget_ite, forget_haltedFailure, Context.view]
  rcases c.chunks.skipEmptyBack c.cursor with _ | i
  · simp [moveTo]
  · cases hm : (c.chunks.get? i).filter token.accepts <;> simp [hm, moveTo]

@[simp] theorem forget_untilToken (token : Token) :
    forget (untilToken token : Told σ (Outcome (List String))) = Walk.untilToken token := by
  funext c
  simp [untilToken, Walk.untilToken, Context.view, moveTo]

@[simp] theorem forget_untilMatchFrom (stop : Told σ (Outcome α)) (start fuel : Nat)
    (gathered : Array String) :
    forget (untilMatchFrom stop start fuel gathered)
      = Walk.untilMatchFrom (forget stop) start fuel gathered := by
  induction fuel generalizing gathered with
  | zero => rfl
  | succ fuel ih =>
    funext c
    simp only [untilMatchFrom, Walk.untilMatchFrom, forget_bind, forget_skipEmpty, forget_look,
      forget_probe, Option.bind_some]
    refine congrArg _ (funext fun y => ?_)
    obtain ⟨stops, d⟩ := y
    cases stops with
    | true => rfl
    | false =>
      simp only [Bool.false_eq_true, if_false, forget_bind, forget_look, Option.bind_some,
        Context.view]
      cases d.chunks.get? c.skipEmpty.cursor with
      | none => simp
      | some chunk => simp [moveTo, ih]

@[simp] theorem forget_untilMatch (stop : Told σ (Outcome α)) (fuel : Nat) :
    forget (untilMatch stop fuel) = Walk.untilMatch (forget stop) fuel := by
  funext c
  simp [untilMatch, Walk.untilMatch, Context.view]

/-! ## Repetition -/

/-- A repetition of telling walks. -/
structure Repetition (σ α β γ : Type) where
  element : Told σ (Outcome α)
  least : Nat
  separator : Option (Told σ (Outcome β))
  stop : Option (Told σ (Outcome γ))

namespace Repetition

def forget (r : Repetition σ α β γ) : Walk.Repetition σ α β γ :=
  ⟨r.element.forget, r.least, r.separator.map Told.forget, r.stop.map Told.forget⟩

/-- The repetition of parts that are told by `tell`. -/
theorem forget_mk {ι : Type} (tell : ι → Told σ (Outcome α)) (g : ι) (least : Nat)
    (separator stop : Option ι) :
    forget ⟨tell g, least, separator.map tell, stop.map tell⟩
      = ⟨(tell g).forget, least, separator.map fun s => (tell s).forget,
          stop.map fun s => (tell s).forget⟩ := by
  simp only [forget, Option.map_map]
  rfl

def stopsAt (r : Repetition σ α β γ) : Told σ Bool :=
  match r.stop with
  | none => pure false
  | some stop => probe stop

def separates (r : Repetition σ α β γ) : Told σ Bool :=
  match r.separator with
  | none => pure true
  | some separator => do
    let o ← separator
    pure o.isSuccess

def rounds (r : Repetition σ α β γ) (start : Nat) : Nat → Nat → Array α → Told σ (Outcome (List α))
  | 0, _, _ => never
  | fuel + 1, rewind, values => do
    let v ← look
    if v.isExhausted && r.least ≤ values.size then do
      restore rewind
      pure (.success values.toList)
    else do
      let stops ← r.stopsAt
      let v ← look
      if stops then
        if values.size < r.least then do
          restore start
          fail v.cursor .unexpected
        else do
          restore rewind
          pure (.success values.toList)
      else do
        match ← r.element with
        | .failure f =>
          if values.size < r.least then do
            restore start
            pure (.failure f)
          else do
            restore rewind
            pure (.success values.toList)
        | .success w => do
          let v₂ ← look
          let more ← r.separates
          let v₃ ← look
          if !more then do
            restore v₂.cursor
            pure (.success (values.push w).toList)
          else if v₃.cursor = v.cursor then do
            findStuck v.cursor
            restore start
            fail v.cursor .infiniteLoop
          else rounds r start fuel v₂.cursor (values.push w)

@[simp] theorem forget_stopsAt (r : Repetition σ α β γ) :
    Told.forget r.stopsAt = r.forget.stopsAt := by
  funext c
  unfold stopsAt Walk.Repetition.stopsAt forget
  cases r.stop with
  | none => rfl
  | some stop => simp

@[simp] theorem forget_separates (r : Repetition σ α β γ) :
    Told.forget r.separates = r.forget.separates := by
  funext c
  unfold separates Walk.Repetition.separates forget
  cases r.separator with
  | none => rfl
  | some separator => simp

@[simp] theorem forget_rounds (r : Repetition σ α β γ) (start fuel rewind : Nat)
    (values : Array α) : Told.forget (r.rounds start fuel rewind values)
      = r.forget.rounds start fuel rewind values := by
  induction fuel generalizing rewind values with
  | zero => rfl
  | succ fuel ih =>
    funext c
    simp only [rounds, Walk.Repetition.rounds, forget_bind, forget_look, Option.bind_some,
      forget_ite, forget_restore, forget_pure, Context.view_isExhausted, forget_stopsAt]
    refine congrArg _ (congrArg _ (funext fun y => ?_))
    obtain ⟨stops, d⟩ := y
    cases stops with
    | true => rfl
    | false =>
      simp only [Bool.false_eq_true, if_false]
      refine congrArg _ (funext fun y => ?_)
      obtain ⟨o, e⟩ := y
      cases o with
      | failure f =>
        simp only [forget_ite, forget_bind, forget_restore, Option.bind_some, forget_pure]
        rfl
      | success w =>
        simp only [forget_bind, forget_look, Option.bind_some, forget_separates]
        refine congrArg _ (funext fun y => ?_)
        obtain ⟨more, e'⟩ := y
        cases more with
        | false => simp [Context.view]
        | true =>
          by_cases hc : e'.cursor = d.cursor
          · simp [Context.view, hc, Walk.Repetition.stuck, Context.stuckAt]
          · simp [Context.view, hc, ih]

end Repetition

def repetition (r : Repetition σ α β γ) (fuel : Nat) : Told σ (Outcome (List α)) := do
  let v ← look
  r.rounds v.cursor fuel v.cursor #[]

@[simp] theorem forget_repetition (r : Repetition σ α β γ) (fuel : Nat) :
    forget (repetition r fuel) = Walk.repetition r.forget fuel := by
  funext c
  simp [repetition, Walk.repetition, Context.view]

end Told

/-! ## Grammars -/

namespace Grammar

/-- The telling walk of a rule. -/
def tellCall (rules : RuleTable) (tell : LinkedGrammar → Told LinkedGrammar (Outcome Value))
    (r : RuleRef) : Told LinkedGrammar (Outcome Value) :=
  match rules[r.symbol.index]? with
  | some g => Told.inRule r.name (tell g)
  | none => do
    Told.findUnresolved r.name
    Told.haltedFailure

/-- A step of the user's own is one moment. -/
def tellNative (step : NativeStep) : Told LinkedGrammar (Outcome Value) := fun c =>
  ⟨[⟨.moved, (runNative step c).2, false⟩], some (runNative step c)⟩

/-- The telling walk of a grammar, given those of its parts. -/
def tellStep (rules : RuleTable) (fuel : Nat)
    (tell : LinkedGrammar → Told LinkedGrammar (Outcome Value)) :
    LinkedGrammar → Told LinkedGrammar (Outcome Value)
  | .consume t => (Told.consume (Told.trySkip tell) t fuel).map .text
  | .behind t => (Told.consumeBehind t).map .text
  | .untilToken t => (Told.untilToken t).map .ofTexts
  | .untilMatch g => (Told.untilMatch (tell g) fuel).map .ofTexts
  | .unit => pure (.success .null)
  | .sequence gs => (Told.sequence (gs.map tell)).map .list
  | .choice gs => Told.choice (gs.map tell)
  | .optional g => (Told.optional (tell g)).map .ofOption
  | .peek g => Told.peek (tell g)
  | .notAhead g => (Told.notAhead (tell g)).map fun _ => .null
  | .skipIn skip g => Told.withSkip skip (tell g)
  | .repeated g least separator stop =>
    (Told.repetition ⟨tell g, least, separator.map tell, stop.map tell⟩ fuel).map .list
  | .rule r => tellCall rules tell r
  | .map f g => (tell g).map f
  | .discard g => (tell g).map fun _ => .null
  | .native f => tellNative f
  | .andThen g f => do
    let o ← tell g
    tellNative (f o)

/-- The telling walk of a grammar in at most `fuel` steps. -/
def tell (rules : RuleTable) : Nat → LinkedGrammar → Told LinkedGrammar (Outcome Value)
  | 0, _ => Told.never
  | fuel + 1, g => tellStep rules fuel (tell rules fuel) g

theorem forget_tellCall (rules : RuleTable)
    (tell : LinkedGrammar → Told LinkedGrammar (Outcome Value)) (r : RuleRef) :
    (tellCall rules tell r).forget = call rules (fun g => (tell g).forget) r := by
  funext c
  unfold tellCall call
  cases rules[r.symbol.index]? with
  | some g => simp
  | none => rfl

theorem forget_tellStep (rules : RuleTable) (fuel : Nat)
    (tell : LinkedGrammar → Told LinkedGrammar (Outcome Value)) (g : LinkedGrammar) :
    (tellStep rules fuel tell g).forget = step rules fuel (fun g => (tell g).forget) g := by
  have hlist : ∀ gs : List LinkedGrammar,
      (gs.map tell).map Told.forget = gs.map fun g => (tell g).forget :=
    fun gs => List.map_map
  cases g with
  | consume t => simp [tellStep, step]
  | behind t => simp [tellStep, step]
  | untilToken t => simp [tellStep, step]
  | untilMatch g => simp [tellStep, step]
  | unit => rfl
  | sequence gs => rw [tellStep, step, Told.forget_map, Told.forget_sequence, hlist]
  | choice gs => rw [tellStep, step, Told.forget_choice, hlist]
  | optional g => simp [tellStep, step]
  | peek g => simp [tellStep, step]
  | notAhead g => simp [tellStep, step]
  | skipIn skip g => simp [tellStep, step]
  | repeated g least separator stop =>
    rw [tellStep, step, Told.forget_map, Told.forget_repetition, Told.Repetition.forget_mk]
  | rule r => exact forget_tellCall rules tell r
  | map f g => simp [tellStep, step]
  | discard g => simp [tellStep, step]
  | native f => rfl
  | andThen g f =>
    funext c
    rw [tellStep, Told.forget_bind]
    rfl

/-- Without its moments, a telling run is the run. -/
@[simp] theorem forget_tell (rules : RuleTable) (fuel : Nat) (g : LinkedGrammar) :
    (tell rules fuel g).forget = run rules fuel g := by
  induction fuel generalizing g with
  | zero => rfl
  | succ fuel ih =>
    have hrun : (fun g => (tell rules fuel g).forget) = run rules fuel := funext ih
    rw [tell, run, forget_tellStep, hrun]

theorem ending_tell (rules : RuleTable) (fuel : Nat) (g : LinkedGrammar)
    (c : Context LinkedGrammar) : (tell rules fuel g c).ending = run rules fuel g c :=
  congrFun (forget_tell rules fuel g) c

end Grammar

end Chunkwise
