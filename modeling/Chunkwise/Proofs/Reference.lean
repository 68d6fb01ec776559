import Chunkwise.Grammar.Run
import Chunkwise.Proofs.Places

/-! What grammars mean, said without cursors, empty chunks or backtracking: ordered choice
over a list of words. A grammar that is applied at a word index either succeeds with a
value and the index behind what it took, or fails. The skip rule in force, and whether it
is running, are what it is applied under. -/

namespace Chunkwise

/-- What a grammar comes to at a word index. -/
inductive Verdict where
  | success (v : Value) (k : Nat)
  | failure

namespace Verdict

def map (f : Value → Value) : Verdict → Verdict
  | .success v k => .success (f v) k
  | .failure => .failure

/-- Whether something was taken from index `k` on. -/
def isPast (k : Nat) : Verdict → Bool
  | .success _ k' => k < k'
  | .failure => false

/-- The verdict on a sequence that begins with the value `v`, given that on the rest. -/
def cons (v : Value) : Verdict → Verdict
  | .success (.list vs) k => .success (.list (v :: vs)) k
  | r => r

/-- The verdict on a repetition that found no more than `vs`. -/
def ending (least : Nat) (vs : List Value) (k : Nat) : Verdict :=
  if vs.length < least then .failure else .success (.list vs) k

/-- The verdict on a repetition whose first element is `v` and ends at index `k`, given
that on the rest. If the rest has no elements, what separates it from the first one is
not taken. -/
def after (v : Value) (k : Nat) : Verdict → Verdict
  | .success (.list []) _ => .success (.list [v]) k
  | r => r.cons v

end Verdict

/-- Whether the token stands at a word index. The token of the end stands behind the last
word. -/
def Token.standsAt (t : Token) (words : List String) (k : Nat) : Bool :=
  words[k]?.any t.accepts || (t.isEof && k == words.length)

/-- What grammars come to at word indices, under a skip rule and a mark that it is
running. -/
inductive Derives (rules : RuleTable) (words : List String) :
    Option LinkedGrammar → Bool → LinkedGrammar → Nat → Verdict → Prop
  -- a word of the token, or the end
  | word {skip b t k w} : words[k]? = some w → t.accepts w = true →
      Derives rules words skip b (.consume t) k (.success (.text w) (k + 1))
  | finish {skip b t} : t.isEof = true →
      Derives rules words skip b (.consume t) words.length (.success (.text "") words.length)
  -- else the skip rule is applied, and the token tried again behind what it took
  | skipped {s t k k₁ v r} : t.standsAt words k = false →
      Derives rules words (some s) true s k (.success v k₁) → k < k₁ →
      Derives rules words (some s) false (.consume t) k₁ r →
      Derives rules words (some s) false (.consume t) k r
  | unskipped {s t k r} : t.standsAt words k = false →
      Derives rules words (some s) true s k r → r.isPast k = false →
      Derives rules words (some s) false (.consume t) k .failure
  | missed {skip b t k} : t.standsAt words k = false → skip = none ∨ b = true →
      Derives rules words skip b (.consume t) k .failure
  -- the word in front of the index, or the start
  | behindWord {skip b t k w} : words[k]? = some w → t.accepts w = true →
      Derives rules words skip b (.behind t) (k + 1) (.success (.text w) k)
  | behindMissed {skip b t k} : words[k]?.any t.accepts = false →
      Derives rules words skip b (.behind t) (k + 1) .failure
  | behindStart {skip b t} : t.isEof = true →
      Derives rules words skip b (.behind t) 0 (.success (.text "") 0)
  | behindStartMissed {skip b t} : t.isEof = false →
      Derives rules words skip b (.behind t) 0 .failure
  -- the shortest run of words in front of a sentinel
  | untilToken {skip b t k k'} : k ≤ k' → k' ≤ words.length →
      (∀ j, k ≤ j → j < k' → t.standsAt words j = false) → t.standsAt words k' = true →
      Derives rules words skip b (.untilToken t) k
        (.success (.ofTexts (wordsBetween words k k')) k')
  | untilTokenMissed {skip b t k} :
      (∀ j, k ≤ j → j ≤ words.length → t.standsAt words j = false) →
      Derives rules words skip b (.untilToken t) k .failure
  | untilMatch {skip b g k k' k'' v} : k ≤ k' → k' ≤ words.length →
      (∀ j, k ≤ j → j < k' → Derives rules words skip b g j .failure) →
      Derives rules words skip b g k' (.success v k'') →
      Derives rules words skip b (.untilMatch g) k
        (.success (.ofTexts (wordsBetween words k k')) k')
  | untilMatchMissed {skip b g k} :
      (∀ j, k ≤ j → j ≤ words.length → Derives rules words skip b g j .failure) →
      Derives rules words skip b (.untilMatch g) k .failure
  -- one after another, and the first that succeeds
  | unit {skip b k} : Derives rules words skip b .unit k (.success .null k)
  | sequenceNil {skip b k} : Derives rules words skip b (.sequence []) k (.success (.list []) k)
  | sequenceCons {skip b g gs k k₁ v r} : Derives rules words skip b g k (.success v k₁) →
      Derives rules words skip b (.sequence gs) k₁ r →
      Derives rules words skip b (.sequence (g :: gs)) k (r.cons v)
  | sequenceMissed {skip b g gs k} : Derives rules words skip b g k .failure →
      Derives rules words skip b (.sequence (g :: gs)) k .failure
  | choiceNil {skip b k} : Derives rules words skip b (.choice []) k .failure
  | choiceHere {skip b g gs k k' v} : Derives rules words skip b g k (.success v k') →
      Derives rules words skip b (.choice (g :: gs)) k (.success v k')
  | choiceNext {skip b g gs k r} : Derives rules words skip b g k .failure →
      Derives rules words skip b (.choice gs) k r →
      Derives rules words skip b (.choice (g :: gs)) k r
  | optionalSome {skip b g k k' v} : Derives rules words skip b g k (.success v k') →
      Derives rules words skip b (.optional g) k (.success (.present v) k')
  | optionalNone {skip b g k} : Derives rules words skip b g k .failure →
      Derives rules words skip b (.optional g) k (.success .null k)
  -- lookahead
  | peekSome {skip b g k k' v} : Derives rules words skip b g k (.success v k') →
      Derives rules words skip b (.peek g) k (.success v k)
  | peekNone {skip b g k} : Derives rules words skip b g k .failure →
      Derives rules words skip b (.peek g) k .failure
  | notSome {skip b g k k' v} : Derives rules words skip b g k (.success v k') →
      Derives rules words skip b (.notAhead g) k .failure
  | notNone {skip b g k} : Derives rules words skip b g k .failure →
      Derives rules words skip b (.notAhead g) k (.success .null k)
  -- repetition. There is no rule for an element that succeeds and takes no word
  | repeatStopped {skip b g least separator stop k k' v} :
      Derives rules words skip b stop k (.success v k') →
      Derives rules words skip b (.repeated g least separator (some stop)) k (.ending least [] k)
  | repeatMissed {skip b g least separator stop k} :
      (∀ u, stop = some u → Derives rules words skip b u k .failure) →
      Derives rules words skip b g k .failure →
      Derives rules words skip b (.repeated g least separator stop) k (.ending least [] k)
  | repeatNext {skip b g least stop k k₁ v r} :
      (∀ u, stop = some u → Derives rules words skip b u k .failure) →
      Derives rules words skip b g k (.success v k₁) → k < k₁ →
      Derives rules words skip b (.repeated g (least - 1) none stop) k₁ r →
      Derives rules words skip b (.repeated g least none stop) k (r.after v k₁)
  | repeatLast {skip b g least s stop k k₁ v} :
      (∀ u, stop = some u → Derives rules words skip b u k .failure) →
      Derives rules words skip b g k (.success v k₁) → k < k₁ →
      Derives rules words skip b s k₁ .failure →
      Derives rules words skip b (.repeated g least (some s) stop) k (.ending least [v] k₁)
  | repeatMore {skip b g least s stop k k₁ k₂ v v' r} :
      (∀ u, stop = some u → Derives rules words skip b u k .failure) →
      Derives rules words skip b g k (.success v k₁) → k < k₁ →
      Derives rules words skip b s k₁ (.success v' k₂) →
      Derives rules words skip b (.repeated g (least - 1) (some s) stop) k₂ r →
      Derives rules words skip b (.repeated g least (some s) stop) k (r.after v k₁)
  -- rules, skip rules and values
  | rule {skip b r g k x} : rules[r.symbol.index]? = some g →
      Derives rules words skip b g k x → Derives rules words skip b (.rule r) k x
  | skipIn {skip b s g k r} : Derives rules words (some s) b g k r →
      Derives rules words skip b (.skipIn s g) k r
  | map {skip b f g k r} : Derives rules words skip b g k r →
      Derives rules words skip b (.map f g) k (r.map f)
  | discard {skip b g k r} : Derives rules words skip b g k r →
      Derives rules words skip b (.discard g) k (r.map fun _ => .null)

end Chunkwise
