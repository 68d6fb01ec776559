import Chunkwise.Proofs.Follows
import Chunkwise.Proofs.Termination

/-! The interpreter does what grammars mean. Where a verdict can be derived, running the
grammar in a context that stands at the word index ends, without stopping the parse, with
the outcome of the verdict and at its index; it only takes a recursion limit that leaves
room for the rules of the derivation. The converse does not hold: a repetition looks for
no further element at the end of the chunks, even for one that would succeed there and
take nothing, and for such an element there is no verdict. -/

namespace Chunkwise

section

variable {rules : RuleTable} {words : List String} {skip : Option LinkedGrammar} {b : Bool}
  {g : LinkedGrammar} {k : Nat} {r : Verdict}

/-- The verdict is met in all contexts that have room for `n` rules. -/
def Holds (rules : RuleTable) (words : List String) (skip : Option LinkedGrammar) (b : Bool)
    (g : LinkedGrammar) (k : Nat) (r : Verdict) (n : Nat) : Prop :=
  ∀ chunks : Chunks, chunks.words = words → ∀ c, StandsAt chunks skip b n k c →
    Follows rules chunks g c r

theorem Holds.mono {m n : Nat} (h : Holds rules words skip b g k r m) (hm : m ≤ n) :
    Holds rules words skip b g k r n :=
  fun chunks hw c hc => h chunks hw c (hc.mono hm)

/-- Room enough for a verdict at each index of a range. -/
theorem exists_holds (hi : Nat)
    (h : ∀ j, k ≤ j → j < hi → ∃ n, Holds rules words skip b g j r n) :
    ∃ n, ∀ j, k ≤ j → j < hi → Holds rules words skip b g j r n := by
  induction hi with
  | zero => exact ⟨0, fun j _ hj => absurd hj (Nat.not_lt_zero j)⟩
  | succ hi ih =>
    obtain ⟨n, hn⟩ := ih fun j hk hj => h j hk (Nat.lt_succ_of_lt hj)
    by_cases hlast : k ≤ hi
    · obtain ⟨m, hm⟩ := h hi hlast (Nat.lt_succ_self hi)
      refine ⟨max n m, ?_⟩
      intro j hk hj
      rcases Nat.lt_succ_iff_lt_or_eq.mp hj with hj | rfl
      · exact (hn j hk hj).mono (Nat.le_max_left n m)
      · exact hm.mono (Nat.le_max_right n m)
    · exact ⟨n, fun j hk hj => absurd hj (by omega)⟩

/-- The same for the sign to stop of a repetition, if there is one. -/
theorem exists_holds_stop {stop : Option LinkedGrammar}
    (h : ∀ u, stop = some u → ∃ n, Holds rules words skip b u k r n) :
    ∃ n, ∀ u, stop = some u → Holds rules words skip b u k r n := by
  cases stop with
  | none => exact ⟨0, fun u hu => by cases hu⟩
  | some u =>
    obtain ⟨n, hn⟩ := h u rfl
    exact ⟨n, fun u hu => by cases hu; exact hn⟩

/-- What is known of the parts of a repetition. -/
theorem regular_repeated {least : Nat} {separator stop : Option LinkedGrammar}
    (h : Grammar.isRegular (.repeated g least separator stop) = true) :
    g.isOrderly = true ∧ (∀ s, separator = some s → s.isOrderly = true ∧ least ≤ 1) ∧
      ∀ u, stop = some u → u.isRegular = true := by
  refine ⟨Grammar.isOrderly_part h (by simp) (by simp) (by simp [Grammar.parts]), ?_, ?_⟩
  · rintro s rfl
    have hfew := Grammar.all_self (Bool.and_eq_true_iff.mp h).2
    exact ⟨Grammar.isOrderly_part h (by simp) (by simp) (by simp [Grammar.parts]),
      of_decide_eq_true hfew⟩
  · rintro u rfl
    exact Grammar.isRegular_part h (by simp [Grammar.parts])

/-- What follows from a part that is run in the same context. -/
theorem exists_holds_of_part {part : LinkedGrammar} {q : Verdict}
    (hpart : ∃ n, Holds rules words skip b part k q n)
    (h : ∀ {chunks n c}, StandsAt chunks skip b n k c → Follows rules chunks part c q →
      Follows rules chunks g c r) :
    ∃ n, Holds rules words skip b g k r n := by
  obtain ⟨n, hn⟩ := hpart
  exact ⟨n, fun chunks hw c hc => h hc (hn chunks hw c hc)⟩

/-- Room enough for a repetition to miss its sign to stop and to run its element. -/
theorem exists_holds_element {least : Nat} {separator stop : Option LinkedGrammar}
    (hg : Grammar.isRegular (.repeated g least separator stop) = true)
    (hstop : ∀ u, stop = some u → u.isRegular = true →
      ∃ n, Holds rules words skip b u k .failure n)
    (helement : g.isRegular = true → ∃ n, Holds rules words skip b g k r n) :
    ∃ n, (∀ u, stop = some u → Holds rules words skip b u k .failure n) ∧
      Holds rules words skip b g k r n := by
  obtain ⟨hpart, _, hregular⟩ := regular_repeated hg
  obtain ⟨n₁, h₁⟩ := exists_holds_stop fun u hu => hstop u hu (hregular u hu)
  obtain ⟨n₂, h₂⟩ := helement (Grammar.isRegular_of_isOrderly hpart)
  exact ⟨max n₁ n₂, fun u hu => (h₁ u hu).mono (Nat.le_max_left n₁ n₂),
    h₂.mono (Nat.le_max_right n₁ n₂)⟩

/-- Every verdict that can be derived is met, given room enough for rules. -/
theorem Derives.holds (hrules : ∀ g ∈ rules, g.isOrderly = true)
    (h : Derives rules words skip b g k r) (hskip : ∀ s ∈ skip, s.isOrderly = true)
    (hg : g.isRegular = true) : ∃ n, Holds rules words skip b g k r n := by
  induction h with
  | word hw ht => exact ⟨0, fun chunks he c hc => follows_word hc (he ▸ hw) ht⟩
  | finish ht =>
    refine ⟨0, ?_⟩
    intro chunks he c hc
    subst he
    exact follows_finish hc ht
  | @skipped s t k k₁ v r ht _ hk _ ihs iht =>
    obtain ⟨n₁, h₁⟩ := ihs hskip (Grammar.isRegular_of_isOrderly (hskip s rfl))
    obtain ⟨n₂, h₂⟩ := iht hskip hg
    refine ⟨max n₁ n₂, ?_⟩
    intro chunks he c hc
    subst he
    exact follows_skipped hrules (hskip s rfl) hc ht
      (h₁ chunks rfl _ (hc.skipEmpty.inSkip.mono (Nat.le_max_left n₁ n₂))) hk
      fun c hc => h₂ chunks rfl c (hc.mono (Nat.le_max_right n₁ n₂))
  | @unskipped s t k r ht _ hr ihs =>
    obtain ⟨n, h₁⟩ := ihs hskip (Grammar.isRegular_of_isOrderly (hskip s rfl))
    refine ⟨n, ?_⟩
    intro chunks he c hc
    subst he
    exact follows_unskipped hrules (hskip s rfl) hc ht (h₁ chunks rfl _ hc.skipEmpty.inSkip) hr
  | missed ht hs => exact ⟨0, fun chunks he c hc => follows_missed hc (he ▸ ht) hs⟩
  | behindWord hw ht =>
    refine ⟨0, fun chunks he c hc => follows_behind hc (fun hk => by cases hk) ?_⟩
    rintro i w hk hi
    cases hk
    subst he
    rw [hw] at hi
    cases hi
    rw [if_pos ht]
  | behindMissed ht =>
    refine ⟨0, fun chunks he c hc => follows_behind hc (fun hk => by cases hk) ?_⟩
    rintro i w hk hi
    cases hk
    subst he
    rw [hi] at ht
    rw [if_neg (by simpa using ht)]
  | behindStart ht =>
    refine ⟨0, fun chunks he c hc => follows_behind hc (fun _ => by rw [if_pos ht]) ?_⟩
    rintro i w hk
    cases hk
  | behindStartMissed ht =>
    refine ⟨0, fun chunks he c hc => follows_behind hc (fun _ => by rw [if_neg (by simp [ht])]) ?_⟩
    rintro i w hk
    cases hk
  | untilToken hk hend hpass ht =>
    refine ⟨0, ?_⟩
    intro chunks he c hc
    subst he
    exact follows_untilToken hc hk hend hpass ht
  | untilTokenMissed hpass =>
    refine ⟨0, ?_⟩
    intro chunks he c hc
    subst he
    exact follows_untilToken_missed hc hpass
  | @untilMatch skip b g k k' k'' v hk hend _ _ ihpass ihstop =>
    have hpart : g.isRegular = true := Grammar.isRegular_part hg (by simp [Grammar.parts])
    obtain ⟨n₁, h₁⟩ := exists_holds k' fun j hj hlt => ihpass j hj hlt hskip hpart
    obtain ⟨n₂, h₂⟩ := ihstop hskip hpart
    refine ⟨max n₁ n₂, ?_⟩
    intro chunks he c hc
    subst he
    exact follows_untilMatch hrules hskip (Grammar.isBuiltIn_of_isRegular hpart) hc hk hend
      (fun j hj hlt c hc => h₁ j hj hlt chunks rfl c (hc.mono (Nat.le_max_left n₁ n₂)))
      fun c hc => h₂ chunks rfl c (hc.mono (Nat.le_max_right n₁ n₂))
  | @untilMatchMissed skip b g k _ ihpass =>
    have hpart : g.isRegular = true := Grammar.isRegular_part hg (by simp [Grammar.parts])
    obtain ⟨n, h₁⟩ := exists_holds (words.length + 1) fun j hj hlt =>
      ihpass j hj (Nat.le_of_lt_succ hlt) hskip hpart
    refine ⟨n, ?_⟩
    intro chunks he c hc
    subst he
    exact follows_untilMatch_missed hrules hskip (Grammar.isBuiltIn_of_isRegular hpart) hc
      fun j hj hle c hc => h₁ j hj (Nat.lt_succ_of_le hle) chunks rfl c hc
  | unit => exact ⟨0, fun chunks _ c hc => ⟨_, c, ⟨1, rfl⟩, hc.running, rfl, hc.index⟩⟩
  | sequenceNil => exact ⟨0, fun chunks _ c hc => ⟨_, c, ⟨1, rfl⟩, hc.running, rfl, hc.index⟩⟩
  | @sequenceCons skip b g gs k k₁ v r _ _ ihg ihgs =>
    have hpart : g.isOrderly = true :=
      Grammar.isOrderly_part hg (by simp) (by simp) (by simp [Grammar.parts])
    have hrest : (Grammar.sequence gs).isRegular = true :=
      Grammar.isRegular_of_parts hg (by simp +contextual [Grammar.parts]) rfl rfl rfl
    obtain ⟨n₁, h₁⟩ := ihg hskip (Grammar.isRegular_of_isOrderly hpart)
    obtain ⟨n₂, h₂⟩ := ihgs hskip hrest
    refine ⟨max n₁ n₂, ?_⟩
    intro chunks he c hc
    exact follows_sequence_cons hrules hskip (Grammar.isForward_of_isOrderly hpart) hc
      (h₁ chunks he c (hc.mono (Nat.le_max_left n₁ n₂)))
      fun c hc => h₂ chunks he c (hc.mono (Nat.le_max_right n₁ n₂))
  | sequenceMissed _ ihg =>
    exact exists_holds_of_part (ihg hskip (Grammar.isRegular_part hg (by simp [Grammar.parts])))
      fun _ h => follows_sequence_missed h
  | choiceNil => exact ⟨0, fun chunks _ c hc => ⟨_, _, ⟨1, rfl⟩, hc.running, rfl⟩⟩
  | choiceHere _ ihg =>
    exact exists_holds_of_part (ihg hskip (Grammar.isRegular_part hg (by simp [Grammar.parts])))
      fun _ h => follows_choice_here h
  | @choiceNext skip b g gs k r _ _ ihg ihgs =>
    have hpart : g.isRegular = true := Grammar.isRegular_part hg (by simp [Grammar.parts])
    have hrest : (Grammar.choice gs).isRegular = true :=
      Grammar.isRegular_of_parts hg (by simp +contextual [Grammar.parts]) rfl rfl rfl
    obtain ⟨n₁, h₁⟩ := ihg hskip hpart
    obtain ⟨n₂, h₂⟩ := ihgs hskip hrest
    refine ⟨max n₁ n₂, ?_⟩
    intro chunks he c hc
    exact follows_choice_next hrules hskip (Grammar.isBuiltIn_of_isRegular hpart) hc
      (h₁ chunks he c (hc.mono (Nat.le_max_left n₁ n₂)))
      fun c hc => h₂ chunks he c (hc.mono (Nat.le_max_right n₁ n₂))
  | optionalSome _ ihg =>
    exact exists_holds_of_part (ihg hskip (Grammar.isRegular_part hg (by simp [Grammar.parts])))
      follows_optional
  | optionalNone _ ihg =>
    exact exists_holds_of_part (ihg hskip (Grammar.isRegular_part hg (by simp [Grammar.parts])))
      follows_optional
  | peekSome _ ihg =>
    exact exists_holds_of_part (ihg hskip (Grammar.isRegular_part hg (by simp [Grammar.parts])))
      follows_peek
  | peekNone _ ihg =>
    exact exists_holds_of_part (ihg hskip (Grammar.isRegular_part hg (by simp [Grammar.parts])))
      follows_peek
  | @notSome skip b g k k' v _ ihg =>
    have hpart : g.isRegular = true := Grammar.isRegular_part hg (by simp [Grammar.parts])
    exact exists_holds_of_part (ihg hskip hpart)
      (follows_notAhead hrules hskip (Grammar.isBuiltIn_of_isRegular hpart))
  | @notNone skip b g k _ ihg =>
    have hpart : g.isRegular = true := Grammar.isRegular_part hg (by simp [Grammar.parts])
    exact exists_holds_of_part (ihg hskip hpart)
      (follows_notAhead hrules hskip (Grammar.isBuiltIn_of_isRegular hpart))
  | @rule skip b ref g k r hget _ ihg =>
    have hg := Grammar.isRegular_of_isOrderly (hrules g (Array.mem_of_getElem? hget))
    obtain ⟨n, h₁⟩ := ihg hskip hg
    -- only here does the room grow: the rule is open while its body runs
    exact ⟨n + 1, fun chunks he c hc => follows_rule hget hc fun c hc => h₁ chunks he c hc⟩
  | @skipIn skip b s g k r _ ihg =>
    have hs : s.isOrderly = true :=
      Grammar.isOrderly_part hg (by simp) (by simp) (by simp [Grammar.parts])
    obtain ⟨n, h₁⟩ := ihg (by simpa using hs) (Grammar.isRegular_part hg (by simp [Grammar.parts]))
    exact ⟨n, fun chunks he c hc => follows_skipIn hc fun c hc => h₁ chunks he c hc⟩
  | @map skip b f g k r _ ihg =>
    exact exists_holds_of_part (ihg hskip (Grammar.isRegular_part hg (by simp [Grammar.parts])))
      fun _ h => follows_map f h
  | discard _ ihg =>
    exact exists_holds_of_part (ihg hskip (Grammar.isRegular_part hg (by simp [Grammar.parts])))
      fun _ h => follows_discard h
  | @repeatStopped skip b g least separator u k k' v _ ihu =>
    obtain ⟨_, _, hstop⟩ := regular_repeated hg
    exact exists_holds_of_part (ihu hskip (hstop u rfl)) fun hc h =>
      follows_repeated_stopped hrules hskip hc (Grammar.isBuiltIn_of_isRegular (hstop u rfl)) h
  | @repeatMissed skip b g least separator stop k _ _ ihu ihg =>
    obtain ⟨_, _, hstop⟩ := regular_repeated hg
    obtain ⟨n, hmissed, h₁⟩ := exists_holds_element hg (fun u hu => ihu u hu hskip) (ihg hskip)
    exact ⟨n, fun chunks he c hc => follows_repeated_missed hrules hskip hc
      (fun u hm => Grammar.isBuiltIn_of_isRegular (hstop u hm))
      (fun u hm => hmissed u hm chunks he c hc) fun c hc => h₁ chunks he c hc⟩
  | @repeatNext skip b g least stop k k₁ v r _ _ hk _ ihu ihg ihrest =>
    obtain ⟨hpart, _, hstop⟩ := regular_repeated hg
    obtain ⟨n₁, hmissed, h₁⟩ := exists_holds_element hg (fun u hu => ihu u hu hskip) (ihg hskip)
    obtain ⟨n₂, h₂⟩ := ihrest hskip (Grammar.isRegular_of_parts hg (fun _ hm => hm) rfl rfl rfl)
    refine ⟨max n₁ n₂, ?_⟩
    intro chunks he c hc
    exact follows_repeated_next hrules hskip hc (Grammar.isForward_of_isOrderly hpart)
      (fun u hm => Grammar.isBuiltIn_of_isRegular (hstop u hm))
      (fun u hm => hmissed u hm chunks he c (hc.mono (by omega)))
      (fun c hc => h₁ chunks he c (hc.mono (by omega))) hk
      (fun c hc => h₂ chunks he c (hc.mono (by omega)))
  | @repeatLast skip b g least s stop k k₁ v _ _ hk _ ihu ihg ihs =>
    obtain ⟨hpart, hsep, hstop⟩ := regular_repeated hg
    obtain ⟨n₁, hmissed, h₁⟩ := exists_holds_element hg (fun u hu => ihu u hu hskip) (ihg hskip)
    obtain ⟨n₂, h₂⟩ := ihs hskip (Grammar.isRegular_of_isOrderly (hsep s rfl).1)
    refine ⟨max n₁ n₂, ?_⟩
    intro chunks he c hc
    exact follows_repeated_last hrules hskip hc (Grammar.isForward_of_isOrderly hpart)
      (fun u hm => Grammar.isBuiltIn_of_isRegular (hstop u hm)) (hsep s rfl).2
      (fun u hm => hmissed u hm chunks he c (hc.mono (by omega)))
      (fun c hc => h₁ chunks he c (hc.mono (by omega))) hk
      (fun c hc => h₂ chunks he c (hc.mono (by omega)))
  | @repeatMore skip b g least s stop k k₁ k₂ v v' r _ _ hk _ _ ihu ihg ihs ihrest =>
    obtain ⟨hpart, hsep, hstop⟩ := regular_repeated hg
    have hless : Grammar.separatesFew (.repeated g (least - 1) (some s) stop) = true := by
      have := (hsep s rfl).2
      simp only [Grammar.separatesFew, decide_eq_true_eq]
      omega
    obtain ⟨n₁, hmissed, h₁⟩ := exists_holds_element hg (fun u hu => ihu u hu hskip) (ihg hskip)
    obtain ⟨n₂, h₂⟩ := ihs hskip (Grammar.isRegular_of_isOrderly (hsep s rfl).1)
    obtain ⟨n₃, h₃⟩ := ihrest hskip
      (Grammar.isRegular_of_parts hg (fun _ hm => hm) rfl rfl hless)
    refine ⟨max n₁ (max n₂ n₃), ?_⟩
    intro chunks he c hc
    exact follows_repeated_more hrules hskip hc (Grammar.isForward_of_isOrderly hpart)
      (Grammar.isForward_of_isOrderly (hsep s rfl).1)
      (fun u hm => Grammar.isBuiltIn_of_isRegular (hstop u hm))
      (fun u hm => hmissed u hm chunks he c (hc.mono (by omega)))
      (fun c hc => h₁ chunks he c (hc.mono (by omega))) hk
      (fun c hc => h₂ chunks he c (hc.mono (by omega)))
      (fun c hc => h₃ chunks he c (hc.mono (by omega)))

end

/-- The result of a parse that the verdict on its entry calls for. -/
def Verdict.CallsFor : Verdict → Except ParseError Value → Prop
  | .success v _, x => x = .ok v
  | .failure, x => ∃ e, x = .error (.mismatch e)

theorem Verdict.Met.callsFor {chunks : Chunks} {r : Verdict} {o : Outcome Value}
    {c : Context LinkedGrammar} (h : r.Met chunks o c) : r.CallsFor (c.finish o) := by
  have hf := h.running
  cases r with
  | success v k =>
    obtain ⟨_, rfl, _⟩ := h
    simp [CallsFor, Context.finish, hf]
  | failure =>
    cases o with
    | success v => cases h.2
    | failure f => simp [CallsFor, Context.finish, hf]

namespace Parser

/-- Whether all grammars of a parser are orderly. -/
def isOrderly (p : Parser) : Bool :=
  p.rules.toList.all (·.isOrderly) && p.skip.all (·.isOrderly)

theorem isForward_of_isOrderly {p : Parser} (h : p.isOrderly = true) : p.isForward = true := by
  obtain ⟨hrules, hskip⟩ := Bool.and_eq_true_iff.mp h
  refine Bool.and_eq_true_iff.mpr ⟨?_, ?_⟩
  · exact List.all_eq_true.mpr fun g hm =>
      Grammar.isForward_of_isOrderly (List.all_eq_true.mp hrules g hm)
  · exact (Option.all_eq_true _ _).mpr fun s hs =>
      Grammar.isForward_of_isOrderly ((Option.all_eq_true _ _).mp hskip s hs)

theorem entry?_isRegular {p : Parser} {name : String} {entry : LinkedGrammar}
    (h : p.entry? name = some entry) : entry.isRegular = true := by
  obtain ⟨symbol, _, rfl⟩ := Option.map_eq_some_iff.mp h
  rfl

theorem start_standsAt (p : Parser) (chunks : Chunks) (trace : Option Trace) {n : Nat}
    (hroom : ∀ limit, p.recursionLimit = some limit → n ≤ limit) :
    StandsAt chunks p.skip false n 0 (p.start chunks trace) where
  inside := Nat.zero_le _
  index := Chunks.wordIndex_zero chunks
  chunks := rfl
  skip := rfl
  skipping := rfl
  running := rfl
  room := fun limit hl => by simpa [start] using hroom limit hl

/-- **Runs and parses give the verdicts that can be derived.** A run that has room for the
rules of the derivation ends, and all runs that end do so in the one way that meets the
verdict. How much room that is does not depend on the limit: a parse of a text whose entry has a
verdict gives what the verdict calls for under every limit from some number on. Without a limit
it does so if it ends, and with steps enough it ends. -/
theorem refines_derivations {p : Parser} (hp : p.isOrderly = true) :
    (∀ words skip b g k r, (∀ s ∈ skip, s.isOrderly = true) → g.isOrderly = true →
      Derives p.rules words skip b g k r →
      ∃ n, ∀ chunks c, chunks.words = words → StandsAt chunks skip b n k c →
        ∃ o c', r.Met chunks o c' ∧
          (∃ m₀, ∀ m, m₀ ≤ m → Grammar.run p.rules m g c = some (o, c')) ∧
          ∀ m x, Grammar.run p.rules m g c = some x → x = (o, c')) ∧
    (∀ name entry text trace r, p.entry? name = some entry →
      Derives p.rules (p.tokenizer.tokenize text).1.words p.skip false entry 0 r →
      ∃ n, ∀ limit q, q = { p with recursionLimit := limit } →
        (∀ l, limit = some l → n ≤ l) →
        (∃ m₀ x, r.CallsFor x.1 ∧ ∀ m, m₀ ≤ m →
          q.runWith m entry (p.tokenizer.tokenize text).1 trace = some x) ∧
        (∀ x, (q.parse name text trace).1 = some x → r.CallsFor x.1) ∧
        (limit.isSome = true → (q.parse name text trace).1.isSome = true)) := by
  obtain ⟨hrules, hskip⟩ := Bool.and_eq_true_iff.mp hp
  have hrules : ∀ g ∈ p.rules, g.isOrderly = true := fun g hm =>
    List.all_eq_true.mp hrules g (Array.mem_toList_iff.mpr hm)
  have hskip : ∀ s ∈ p.skip, s.isOrderly = true := fun s hs =>
    (Option.all_eq_true _ _).mp hskip s hs
  constructor
  · intro words skip b g k r hskip hg h
    obtain ⟨n, hn⟩ := h.holds hrules hskip (Grammar.isRegular_of_isOrderly hg)
    refine ⟨n, ?_⟩
    intro chunks c hw hc
    obtain ⟨o, c', hy, hmet⟩ := hn chunks hw c hc
    refine ⟨o, c', hmet, hy.eventually, ?_⟩
    intro m x hx
    obtain ⟨ho, hc'⟩ := Grammar.Yields.unique ⟨m, hx⟩ hy
    exact Prod.ext ho hc'
  · intro name entry text trace r hentry h
    obtain ⟨n, hn⟩ := h.holds hrules hskip (entry?_isRegular hentry)
    refine ⟨n, ?_⟩
    intro limit q hq hroom
    have hforward : q.isForward = true := isForward_of_isOrderly (p := q) (by rw [hq]; exact hp)
    have hentry : q.entry? name = some entry := by rw [hq]; exact hentry
    have hrules : q.rules = p.rules := by rw [hq]
    have hstart : StandsAt (p.tokenizer.tokenize text).1 p.skip false n 0
        (q.start (p.tokenizer.tokenize text).1 trace) := by
      subst hq
      exact start_standsAt { p with recursionLimit := limit } _ trace hroom
    obtain ⟨o, c', hy, hmet⟩ := hn _ rfl _ hstart
    rw [← hrules] at hy
    obtain ⟨m₀, hrun⟩ := hy.eventually
    have hparse : (q.parse name text trace).1
        = q.run entry (p.tokenizer.tokenize text).1 trace := by
      rw [fst_parse hentry text trace, hq]
    refine ⟨⟨m₀, (c'.finish o, c'.trace), hmet.callsFor, fun m hm => ?_⟩, ?_, ?_⟩
    · simp [runWith, hrun m hm]
    · intro x hx
      rw [hparse] at hx
      obtain ⟨⟨o', c''⟩, hx', he⟩ := Option.bind_eq_some_iff.mp hx
      obtain ⟨rfl, rfl⟩ := Grammar.Yields.unique ⟨_, hx'⟩ hy
      cases he
      exact hmet.callsFor
    · intro hlimit
      obtain ⟨l, rfl⟩ := Option.isSome_iff_exists.mp hlimit
      have hlimit : q.recursionLimit = some l := by rw [hq]
      obtain ⟨x, hx⟩ := parse_entry_isSome hforward hlimit hentry
        (p.tokenizer.tokenize text).1 trace
      have hx : Grammar.run q.rules _ _ _ = some x := hx
      rw [hparse]
      simp [run, runWith, hx]

/-- One word and the end: the rule takes the word and stops. -/
theorem derives_word :
    Derives #[.repeated (.consume (.literal 0 "x")) 1 none (some (.consume .eof))] ["x"] none false
      (.map (Value.pick 0) (.sequence [.rule ⟨⟨0⟩, "A"⟩, .consume .eof])) 0
      (.success (.list [.text "x"]) 1) := by
  refine .map (f := Value.pick 0) (r := .success (.list [.list [.text "x"], .text ""]) 1) ?_
  refine .sequenceCons (r := .success (.list [.text ""]) 1) (.rule rfl ?_)
    (.sequenceCons (.finish rfl) .sequenceNil)
  refine .repeatNext ?_ (.word rfl rfl) (Nat.lt_succ_self 0) (.repeatStopped (.finish rfl))
  rintro u ⟨⟩
  exact .missed rfl (.inl rfl)

/-- The word is taken under every limit that leaves room for the rule. -/
theorem refines_derivations_word :
    ∃ n, ∀ limit, n ≤ limit → ∃ x : Result, x.1 = .ok (.list [.text "x"]) ∧
      (Parser.parse
        { tokenizer := { pattern := "", program := none }
          symbols := ⟨#["A"]⟩
          rules := #[.repeated (.consume (.literal 0 "x")) 1 none (some (.consume .eof))]
          skip := none
          recursionLimit := some limit } "A" "x" none).1 = some x := by
  obtain ⟨n, h⟩ := (refines_derivations (p :=
    { tokenizer := { pattern := "", program := none }
      symbols := ⟨#["A"]⟩
      rules := #[.repeated (.consume (.literal 0 "x")) 1 none (some (.consume .eof))]
      skip := none
      recursionLimit := none }) (by decide)).2 "A"
    (.map (Value.pick 0) (.sequence [.rule ⟨⟨0⟩, "A"⟩, .consume .eof])) "x" none
    (.success (.list [.text "x"]) 1) (by simp [ entry?, Symbols.get?, LinkedGrammar.entryOf])
    derives_word
  refine ⟨n, fun limit hlimit => ?_⟩
  obtain ⟨_, hresult, hsome⟩ := h (some limit) _ rfl fun l hl => Option.some.inj hl ▸ hlimit
  obtain ⟨x, hx⟩ := Option.isSome_iff_exists.mp (hsome rfl)
  exact ⟨x, hresult x hx, hx⟩

end Parser

/-- No verdict for a repetition whose element takes nothing at the end, where the
interpreter stops looking before it gets there. -/
theorem not_derives_of_exhausted :
    (∃ c', Grammar.run #[] 4 (.zeroOrMore (.optional (.consume (.literal 0 "y"))))
        { chunks := ⟨#["y"]⟩ } = some (.success (.list [.present (.text "y")]), c') ∧
      c'.fatal = none) ∧
    ∀ r, ¬ Derives #[] ["y"] none false
      (.zeroOrMore (.optional (.consume (.literal 0 "y")))) 0 r := by
  refine ⟨⟨_, rfl, rfl⟩, ?_⟩
  intro r h
  have hend : ∀ {v k}, Derives #[] ["y"] none false (.optional (.consume (.literal 0 "y"))) 1
      (.success v k) → k = 1 := by
    intro v k h
    cases h with
    | optionalSome h =>
      cases h with
      | word hw _ => cases hw
      | finish ht => cases ht
    | optionalNone _ => rfl
  cases h with
  | repeatMissed _ h => cases h
  | repeatNext _ h _ hrest =>
    cases h with
    | optionalNone _ => omega
    | optionalSome h =>
      cases h with
      | word _ _ =>
        cases hrest with
        | repeatMissed _ h => cases h
        | repeatNext _ h hk _ =>
          have := hend h
          omega

end Chunkwise
