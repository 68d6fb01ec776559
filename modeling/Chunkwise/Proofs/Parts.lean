import Chunkwise.Grammar.Run

/-! The grammars that a grammar is made of, and the classes of grammars that are
told apart by what occurs in them: grammars without steps of the user's own, and
grammars that look behind only to look. -/

namespace Chunkwise.Grammar

variable {ρ : Type}

/-- The grammars that a grammar is put together from. -/
def parts : Grammar ρ → List (Grammar ρ)
  | .consume _ => []
  | .behind _ => []
  | .untilToken _ => []
  | .untilMatch g => [g]
  | .unit => []
  | .sequence gs => gs
  | .choice gs => gs
  | .optional g => [g]
  | .peek g => [g]
  | .notAhead g => [g]
  | .skipIn skip g => [skip, g]
  | .repeated g _ separator stop => g :: (separator.toList ++ stop.toList)
  | .rule _ => []
  | .map _ g => [g]
  | .discard g => [g]
  | .native _ => []
  | .andThen g _ => [g]

mutual

/-- Whether a grammar and everything in it passes a test. -/
def all (p : Grammar ρ → Bool) : Grammar ρ → Bool
  | .consume t => p (.consume t)
  | .behind t => p (.behind t)
  | .untilToken t => p (.untilToken t)
  | .untilMatch g => p (.untilMatch g) && all p g
  | .unit => p .unit
  | .sequence gs => p (.sequence gs) && allOfList p gs
  | .choice gs => p (.choice gs) && allOfList p gs
  | .optional g => p (.optional g) && all p g
  | .peek g => p (.peek g) && all p g
  | .notAhead g => p (.notAhead g) && all p g
  | .skipIn skip g => p (.skipIn skip g) && (all p skip && all p g)
  | .repeated g least separator stop =>
    p (.repeated g least separator stop)
      && (all p g && (allOfOption p separator && allOfOption p stop))
  | .rule r => p (.rule r)
  | .map f g => p (.map f g) && all p g
  | .discard g => p (.discard g) && all p g
  | .native step => p (.native step)
  | .andThen g step => p (.andThen g step) && all p g

def allOfList (p : Grammar ρ → Bool) : List (Grammar ρ) → Bool
  | [] => true
  | g :: gs => all p g && allOfList p gs

def allOfOption (p : Grammar ρ → Bool) : Option (Grammar ρ) → Bool
  | none => true
  | some g => all p g

end

theorem allOfList_eq (p : Grammar ρ → Bool) (gs : List (Grammar ρ)) :
    allOfList p gs = gs.all (all p) := by
  induction gs with
  | nil => rfl
  | cons g gs ih => rw [allOfList, ih, List.all_cons]

theorem allOfOption_eq (p : Grammar ρ → Bool) (g : Option (Grammar ρ)) :
    allOfOption p g = g.toList.all (all p) := by
  cases g with
  | none => rfl
  | some g => simp [allOfOption]

theorem all_eq (p : Grammar ρ → Bool) (g : Grammar ρ) : g.all p = (p g && g.parts.all (all p)) := by
  cases g <;> simp [all, parts, allOfList_eq, allOfOption_eq]

theorem all_self {p : Grammar ρ → Bool} {g : Grammar ρ} (h : g.all p = true) : p g = true := by
  rw [all_eq, Bool.and_eq_true] at h
  exact h.1

theorem all_part {p : Grammar ρ → Bool} {g part : Grammar ρ} (h : g.all p = true)
    (hm : part ∈ g.parts) : part.all p = true := by
  rw [all_eq, Bool.and_eq_true] at h
  exact List.all_eq_true.mp h.2 part hm

/-- `P` holds of the grammar and of all grammars in it. -/
inductive Everywhere (P : Grammar ρ → Prop) : Grammar ρ → Prop
  | intro {g : Grammar ρ} : P g → (∀ part ∈ g.parts, Everywhere P part) → Everywhere P g

theorem Everywhere.self {P : Grammar ρ → Prop} {g : Grammar ρ} (h : g.Everywhere P) : P g := by
  cases h with
  | intro hg _ => exact hg

theorem Everywhere.part {P : Grammar ρ → Prop} {g part : Grammar ρ} (h : g.Everywhere P)
    (hm : part ∈ g.parts) : part.Everywhere P := by
  cases h with
  | intro _ hparts => exact hparts part hm

theorem Everywhere.leaf {P : Grammar ρ → Prop} {g : Grammar ρ} (hparts : g.parts = [])
    (hg : P g) : g.Everywhere P := .intro hg (by simp [hparts])

/-! ## Steps of the user's own -/

def isNative : Grammar ρ → Bool
  | .native _ => true
  | .andThen _ _ => true
  | _ => false

/-- Whether a grammar is made of what is built in, without steps of the user's own. -/
def isBuiltIn (g : Grammar ρ) : Bool := g.all (!·.isNative)

theorem isBuiltIn_part {g part : Grammar ρ} (h : g.isBuiltIn = true) (hm : part ∈ g.parts) :
    part.isBuiltIn = true := all_part h hm

/-! ## Looking behind -/

def isBehind : Grammar ρ → Bool
  | .behind _ => true
  | _ => false

/-- Whether none of its parts looks behind, unless they stand right under a lookahead,
where moving back is undone. -/
def guardsParts : Grammar ρ → Bool
  | .peek _ => true
  | .notAhead _ => true
  | g => g.parts.all (!·.isBehind)

/-- Whether a grammar is made of what is built in, and nothing in it looks behind except
right under a lookahead. It may itself look behind. -/
def isCareful (g : Grammar ρ) : Bool := g.isBuiltIn && g.all guardsParts

/-- Whether a grammar is made of what is built in, and looks behind only right under a
lookahead. -/
def isForward (g : Grammar ρ) : Bool := g.isCareful && !g.isBehind

theorem isBuiltIn_of_isCareful {g : Grammar ρ} (h : g.isCareful = true) : g.isBuiltIn = true :=
  (Bool.and_eq_true_iff.mp h).1

theorem isCareful_of_isForward {g : Grammar ρ} (h : g.isForward = true) : g.isCareful = true :=
  (Bool.and_eq_true_iff.mp h).1

theorem isBuiltIn_of_isForward {g : Grammar ρ} (h : g.isForward = true) : g.isBuiltIn = true :=
  isBuiltIn_of_isCareful (isCareful_of_isForward h)

theorem isBehind_of_isForward {g : Grammar ρ} (h : g.isForward = true) : g.isBehind = false := by
  simpa using (Bool.and_eq_true_iff.mp h).2

theorem isCareful_part {g part : Grammar ρ} (h : g.isCareful = true) (hm : part ∈ g.parts) :
    part.isCareful = true := by
  obtain ⟨hb, hg⟩ := Bool.and_eq_true_iff.mp h
  exact Bool.and_eq_true_iff.mpr ⟨isBuiltIn_part hb hm, all_part hg hm⟩

/-- A part of a careful grammar moves forward, unless lookahead stands around it. -/
theorem isForward_part {g part : Grammar ρ} (h : g.isCareful = true)
    (hp : ∀ g', g ≠ .peek g') (hn : ∀ g', g ≠ .notAhead g') (hm : part ∈ g.parts) :
    part.isForward = true := by
  have hs : g.parts.all (!·.isBehind) = true := by
    have hg := all_self (Bool.and_eq_true_iff.mp h).2
    unfold guardsParts at hg
    split at hg
    · exact absurd rfl (hp _)
    · exact absurd rfl (hn _)
    · exact hg
  exact Bool.and_eq_true_iff.mpr ⟨isCareful_part h hm, List.all_eq_true.mp hs part hm⟩

/-- A grammar that does not itself look behind moves forward if its parts do. -/
theorem isForward_of_parts {g : Grammar ρ} (hn : g.isNative = false) (hb : g.isBehind = false)
    (hparts : ∀ part ∈ g.parts, part.isForward = true) : g.isForward = true := by
  have hguards : g.guardsParts = true := by
    unfold guardsParts
    split
    · rfl
    · rfl
    · exact List.all_eq_true.mpr fun part hm => by simp [isBehind_of_isForward (hparts part hm)]
  have hcareful : ∀ part ∈ g.parts, part.isCareful = true :=
    fun part hm => isCareful_of_isForward (hparts part hm)
  simp only [isForward, isCareful, isBuiltIn, Bool.and_eq_true, all_eq _ g, hn, hb, hguards,
    Bool.not_false, List.all_eq_true, true_and, and_true]
  exact ⟨fun part hm => (Bool.and_eq_true_iff.mp (hcareful part hm)).1,
    fun part hm => (Bool.and_eq_true_iff.mp (hcareful part hm)).2⟩

/-! ## Separators -/

/-- Whether no more than one element is needed if there is a separator. -/
def separatesFew : Grammar ρ → Bool
  | .repeated _ least (some _) _ => least ≤ 1
  | _ => true

/-- Whether a grammar is careful, and no repetition with a separator in it needs more than
one element. It may itself look behind. -/
def isRegular (g : Grammar ρ) : Bool := g.isCareful && g.all separatesFew

/-- Whether a grammar is regular and does not itself look behind. -/
def isOrderly (g : Grammar ρ) : Bool := g.isRegular && !g.isBehind

theorem isCareful_of_isRegular {g : Grammar ρ} (h : g.isRegular = true) : g.isCareful = true :=
  (Bool.and_eq_true_iff.mp h).1

theorem isRegular_of_isOrderly {g : Grammar ρ} (h : g.isOrderly = true) : g.isRegular = true :=
  (Bool.and_eq_true_iff.mp h).1

theorem isForward_of_isOrderly {g : Grammar ρ} (h : g.isOrderly = true) : g.isForward = true := by
  obtain ⟨hr, hb⟩ := Bool.and_eq_true_iff.mp h
  exact Bool.and_eq_true_iff.mpr ⟨isCareful_of_isRegular hr, hb⟩

theorem isBuiltIn_of_isRegular {g : Grammar ρ} (h : g.isRegular = true) : g.isBuiltIn = true :=
  isBuiltIn_of_isCareful (isCareful_of_isRegular h)

theorem isBuiltIn_of_isOrderly {g : Grammar ρ} (h : g.isOrderly = true) : g.isBuiltIn = true :=
  isBuiltIn_of_isForward (isForward_of_isOrderly h)

theorem isRegular_part {g part : Grammar ρ} (h : g.isRegular = true) (hm : part ∈ g.parts) :
    part.isRegular = true := by
  obtain ⟨hc, hs⟩ := Bool.and_eq_true_iff.mp h
  exact Bool.and_eq_true_iff.mpr ⟨isCareful_part hc hm, all_part hs hm⟩

theorem isOrderly_part {g part : Grammar ρ} (h : g.isRegular = true)
    (hp : ∀ g', g ≠ .peek g') (hn : ∀ g', g ≠ .notAhead g') (hm : part ∈ g.parts) :
    part.isOrderly = true := by
  have hf := isForward_part (isCareful_of_isRegular h) hp hn hm
  exact Bool.and_eq_true_iff.mpr ⟨isRegular_part h hm, (Bool.and_eq_true_iff.mp hf).2⟩

/-- A grammar is regular if another one is that is made of the same parts and more. -/
theorem isRegular_of_parts {g g' : Grammar ρ} (h : g.isRegular = true)
    (hparts : ∀ part ∈ g'.parts, part ∈ g.parts) (hn : g'.isNative = false)
    (hg : g.guardsParts = g.parts.all (!·.isBehind)) (hs : g'.separatesFew = true) :
    g'.isRegular = true := by
  have hguards : g.parts.all (!·.isBehind) = true :=
    hg ▸ all_self (Bool.and_eq_true_iff.mp (isCareful_of_isRegular h)).2
  have hg' : g'.guardsParts = true := by
    unfold guardsParts
    split
    · rfl
    · rfl
    · exact List.all_eq_true.mpr fun part hm => List.all_eq_true.mp hguards part (hparts part hm)
  have hall : ∀ {p : Grammar ρ → Bool}, g.all p = true → p g' = true → g'.all p = true := by
    intro p hp hp'
    rw [all_eq, hp', Bool.true_and]
    exact List.all_eq_true.mpr fun part hm => all_part hp (hparts part hm)
  obtain ⟨hc, hf⟩ := Bool.and_eq_true_iff.mp h
  obtain ⟨hb, hu⟩ := Bool.and_eq_true_iff.mp hc
  exact Bool.and_eq_true_iff.mpr
    ⟨Bool.and_eq_true_iff.mpr ⟨hall hb (by simp [hn]), hall hu hg'⟩, hall hf hs⟩

/-! ## In the open -/

def isPeek : Grammar ρ → Bool
  | .peek _ => true
  | _ => false

/-- The parts that a grammar runs in the open, which are neither looked ahead at nor skip rules. -/
def openParts : Grammar ρ → List (Grammar ρ)
  | .untilMatch _ => []
  | .peek _ => []
  | .notAhead _ => []
  | .skipIn _ g => [g]
  | .repeated g _ separator _ => g :: separator.toList
  | g => g.parts

theorem mem_parts_of_mem_openParts {g part : Grammar ρ} (h : part ∈ g.openParts) :
    part ∈ g.parts := by
  unfold openParts at h
  split at h
  · cases h
  · cases h
  · cases h
  · simpa [parts] using .inr (List.mem_singleton.mp h)
  · simp only [parts, List.mem_cons, List.mem_append] at h ⊢
    exact h.imp_right .inl
  · exact h

/-- A run of the first grammar can come to run the second one in the open, by itself or through
the rules. -/
inductive Reaches (rules : RuleTable) : LinkedGrammar → LinkedGrammar → Prop
  | self (g : LinkedGrammar) : Reaches rules g g
  | part {g part h : LinkedGrammar} : part ∈ g.openParts → Reaches rules part h →
      Reaches rules g h
  | rule {r : RuleRef} {g h : LinkedGrammar} : rules[r.symbol.index]? = some g →
      Reaches rules g h → Reaches rules (.rule r) h

/-- What is passed on to what a grammar runs in the open holds of all that it reaches. -/
theorem Reaches.invariant {rules : RuleTable} {P : LinkedGrammar → Prop}
    (hpart : ∀ g, P g → ∀ part ∈ g.openParts, P part)
    (hrule : ∀ r g, P (.rule r) → rules[r.symbol.index]? = some g → P g)
    {g h : LinkedGrammar} (hreach : Reaches rules g h) (hg : P g) : P h := by
  induction hreach with
  | self g => exact hg
  | part hm _ ih => exact ih (hpart _ hg _ hm)
  | rule hget _ ih => exact ih (hrule _ _ hg hget)

end Chunkwise.Grammar
