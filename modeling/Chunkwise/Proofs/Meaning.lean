import Chunkwise.Regex.Match

/-! What expressions mean. An expression leads from one place of a text to others; expressions
are put together in such ways that what they lead to follows from their parts. Without
assertions, what they lead to depends on the characters in between alone. -/

namespace Chunkwise.Regex

/-- From which places of a text to which others something leads. -/
abbrev Meaning := Array Char → Nat → Nat → Prop

namespace Meaning

variable {text : Array Char} {i j k : Nat} {m : Meaning} {ms : List Meaning}

/-- The meanings one after another. -/
def inTurn : List Meaning → Meaning
  | [] => fun _ i j => i = j
  | m :: ms => fun text i k => ∃ j, m text i j ∧ inTurn ms text j k

/-- One of the meanings. -/
def either (ms : List Meaning) : Meaning := fun text i j => ∃ m ∈ ms, m text i j

/-- A meaning again and again, at least `least` and at most `most` times, and exactly `least`
times if that is more. -/
def repeated (m : Meaning) (least : Nat) (most : Option Nat) : Meaning := fun text i j =>
  ∃ n, least ≤ n ∧ (∀ bound ∈ most, n ≤ max least bound) ∧ inTurn (List.replicate n m) text i j

theorem inTurn_append (ms ns : List Meaning) :
    inTurn (ms ++ ns) text i k ↔ ∃ j, inTurn ms text i j ∧ inTurn ns text j k := by
  induction ms generalizing i with
  | nil => simp [inTurn]
  | cons m ms ih =>
    simp only [List.cons_append, inTurn, ih]
    constructor
    · rintro ⟨j, hm, j', hms, hns⟩
      exact ⟨j', ⟨j, hm, hms⟩, hns⟩
    · rintro ⟨j', ⟨j, hm, hms⟩, hns⟩
      exact ⟨j, hm, j', hms, hns⟩

theorem inTurn_single (m : Meaning) : inTurn [m] = m := by
  funext text i j
  simp [inTurn]

theorem inTurn_cons (m : Meaning) (ms : List Meaning) :
    inTurn (m :: ms) = inTurn [m, inTurn ms] := by
  funext text i j
  simp [inTurn]

/-- Sequences of sequences are sequences. -/
theorem inTurn_flatMap {α : Type} (l : List α) (f : α → List Meaning) :
    inTurn (l.flatMap f) = inTurn (l.map fun a => inTurn (f a)) := by
  induction l with
  | nil => rfl
  | cons a l ih =>
    funext text i k
    rw [List.flatMap_cons, inTurn_append, ih]
    rfl

theorem either_single (m : Meaning) : either [m] = m := by
  funext text i j
  simp [either]

theorem either_cons (m : Meaning) (ms : List Meaning) :
    either (m :: ms) = either [m, either ms] := by
  funext text i j
  simp [either]

/-- Choices between choices are choices. -/
theorem either_flatMap {α : Type} (l : List α) (f : α → List Meaning) :
    either (l.flatMap f) = either (l.map fun a => either (f a)) := by
  funext text i j
  simp only [either, List.mem_flatMap, List.mem_map, eq_iff_iff]
  constructor
  · rintro ⟨m, ⟨a, ha, hm⟩, h⟩
    exact ⟨_, ⟨a, ha, rfl⟩, m, hm, h⟩
  · rintro ⟨_, ⟨a, ha, rfl⟩, m, hm, h⟩
    exact ⟨m, ⟨a, ha, hm⟩, h⟩

/-- What all choices start with can be done before the choice is made. -/
theorem either_inTurn (ms : List Meaning) (nss : List (List Meaning)) :
    either (nss.map fun ns => inTurn (ms ++ ns)) = inTurn (ms ++ [either (nss.map inTurn)]) := by
  funext text i k
  rw [eq_iff_iff, inTurn_append, inTurn_single]
  constructor
  · rintro ⟨_, hm, h⟩
    obtain ⟨ns, hns, rfl⟩ := List.mem_map.mp hm
    obtain ⟨j, hms, h⟩ := (inTurn_append ms ns).mp h
    exact ⟨j, hms, _, List.mem_map_of_mem hns, h⟩
  · rintro ⟨j, hms, _, hm, h⟩
    obtain ⟨ns, hns, rfl⟩ := List.mem_map.mp hm
    exact ⟨_, List.mem_map.mpr ⟨ns, hns, rfl⟩, (inTurn_append ms ns).mpr ⟨j, hms, h⟩⟩

/-! ## Repetitions -/

theorem repeated_once (m : Meaning) : repeated m 1 (some 1) = m := by
  funext text i j
  rw [eq_iff_iff]
  constructor
  · rintro ⟨n, hleast, hmost, h⟩
    obtain rfl : n = 1 := by
      have := hmost 1 rfl
      omega
    exact (congrFun (congrFun (congrFun (inTurn_single m) text) i) j).mp h
  · intro h
    exact ⟨1, Nat.le_refl 1, by simp, j, h, rfl⟩

theorem repeated_never (m : Meaning) : repeated m 0 (some 0) = inTurn [] := by
  funext text i j
  rw [eq_iff_iff]
  constructor
  · rintro ⟨n, _, hmost, h⟩
    obtain rfl : n = 0 := by
      have := hmost 0 rfl
      omega
    exact h
  · exact fun h => ⟨0, Nat.le_refl 0, by simp, h⟩

theorem repeated_succ (m : Meaning) (n : Nat) :
    repeated m 0 (some (n + 1)) = either [inTurn [m, repeated m 0 (some n)], inTurn []] := by
  funext text i k
  simp only [eq_iff_iff, either, List.mem_cons, List.not_mem_nil, or_false, exists_eq_or_imp,
    exists_eq_left]
  constructor
  · rintro ⟨times, _, hmost, h⟩
    have hmost := hmost (n + 1) rfl
    cases times with
    | zero => exact .inr h
    | succ times =>
      obtain ⟨j, hij, hjk⟩ := h
      refine .inl ⟨j, hij, k, ⟨times, Nat.zero_le _, fun bound hbound => ?_, hjk⟩, rfl⟩
      cases hbound
      omega
  · rintro (⟨j, hij, _, ⟨times, _, hmost, hjk⟩, rfl⟩ | h)
    · have hmost := hmost n rfl
      refine ⟨times + 1, Nat.zero_le _, fun bound hbound => ?_, j, hij, hjk⟩
      cases hbound
      omega
    · exact ⟨0, Nat.le_refl 0, fun _ _ => Nat.zero_le _, h⟩

/-- What leads nowhere else does so in one time as in many. -/
theorem inTurn_replicate_still (hm : ∀ {i j}, m text i j → i = j) (n : Nat) :
    inTurn (List.replicate n m) text i j ↔ i = j ∧ (n = 0 ∨ m text i i) := by
  induction n generalizing i with
  | zero => simp [inTurn]
  | succ n ih =>
    rw [List.replicate_succ]
    constructor
    · rintro ⟨x, hx, h⟩
      obtain rfl := hm hx
      exact ⟨(ih.mp h).1, .inr hx⟩
    · rintro ⟨rfl, h⟩
      have h := h.resolve_left (Nat.succ_ne_zero n)
      exact ⟨i, h, ih.mpr ⟨rfl, .inr h⟩⟩

/-- Repeating what leads nowhere else changes nothing after the first time. -/
theorem repeated_still (hm : ∀ {i j}, m text i j → i = j) (least : Nat) (most : Option Nat) :
    repeated m (min least 1) (some (min (most.getD 1) 1)) text i j
      ↔ repeated m least most text i j := by
  have honce : ∀ least most, repeated m least most text i j ↔ i = j ∧ (least = 0 ∨ m text i i) := by
    intro least most
    constructor
    · rintro ⟨n, hleast, _, hn⟩
      obtain ⟨rfl, h⟩ := (inTurn_replicate_still hm n).mp hn
      exact ⟨rfl, h.imp (by omega) id⟩
    · rintro ⟨rfl, h⟩
      exact ⟨least, Nat.le_refl _, fun _ _ => Nat.le_max_left _ _,
        (inTurn_replicate_still hm least).mpr ⟨rfl, h⟩⟩
  rw [honce, honce]
  simp

/-- What is repeated is repeated the least number of times first, and then for as long as it may
be. -/
theorem inTurn_repeated (m : Meaning) (least : Nat) (most : Option Nat) :
    inTurn [inTurn (List.replicate least m), repeated m 0 (most.map (· - least))]
      = repeated m least most := by
  funext text i k
  rw [eq_iff_iff, inTurn_cons, inTurn_single]
  constructor
  · rintro ⟨j, hfirst, _, ⟨n, _, hmost, hrest⟩, rfl⟩
    refine ⟨least + n, Nat.le_add_right _ _, fun bound hbound => ?_, ?_⟩
    · have := hmost (bound - least) (by simp [Option.mem_def.mp hbound])
      omega
    · rw [← List.replicate_append_replicate, inTurn_append]
      exact ⟨j, hfirst, hrest⟩
  · rintro ⟨n, hleast, hmost, h⟩
    obtain ⟨n, rfl⟩ := Nat.exists_eq_add_of_le hleast
    rw [← List.replicate_append_replicate, inTurn_append] at h
    obtain ⟨j, hfirst, hrest⟩ := h
    refine ⟨j, hfirst, k, ⟨n, Nat.zero_le n, fun bound hbound => ?_, hrest⟩, rfl⟩
    obtain ⟨last, hlast, rfl⟩ := Option.map_eq_some_iff.mp hbound
    have := hmost last hlast
    omega

/-! ## Meanings that look at what they pass only -/

/-- A meaning that does not lead back, and that leads through the same characters in the same
way wherever they stand. -/
structure Local (m : Meaning) : Prop where
  le : ∀ {text i j}, m text i j → i ≤ j
  moves : ∀ {text text' : Array Char} {p q n : Nat}, (∀ k < n, text[p + k]? = text'[q + k]?) →
    ∀ {i j}, j ≤ n → m text (p + i) (p + j) → m text' (q + i) (q + j)

theorem local_inTurn (h : ∀ m ∈ ms, Local m) : Local (inTurn ms) := by
  induction ms with
  | nil =>
    refine ⟨fun h => Nat.le_of_eq h, fun _ _ _ _ hij => ?_⟩
    obtain rfl := Nat.add_left_cancel hij
    rfl
  | cons m ms ih =>
    obtain ⟨hm, hms⟩ := List.forall_mem_cons.mp h
    refine ⟨fun ⟨_, h₁, h₂⟩ => Nat.le_trans (hm.le h₁) ((ih hms).le h₂), ?_⟩
    rintro text text' p q n hsame i k hk ⟨x, h₁, h₂⟩
    -- the place in between is one of the places that the characters stand at
    obtain ⟨j, rfl⟩ : ∃ j, x = p + j := ⟨x - p, by have := hm.le h₁; omega⟩
    have hj := (ih hms).le h₂
    exact ⟨q + j, hm.moves hsame (by omega) h₁, (ih hms).moves hsame hk h₂⟩

theorem local_either (h : ∀ m ∈ ms, Local m) : Local (either ms) where
  le := fun ⟨m, hm, hij⟩ => (h m hm).le hij
  moves := fun hsame _ _ hj ⟨m, hm, hij⟩ => ⟨m, hm, (h m hm).moves hsame hj hij⟩

theorem local_repeated (h : Local m) (least : Nat) (most : Option Nat) :
    Local (repeated m least most) where
  le := fun ⟨_, _, _, hij⟩ =>
    (local_inTurn fun _ hm => (List.eq_of_mem_replicate hm) ▸ h).le hij
  moves := fun hsame _ _ hj ⟨n, hleast, hmost, hij⟩ => ⟨n, hleast, hmost,
    (local_inTurn fun _ hm => (List.eq_of_mem_replicate hm) ▸ h).moves hsame hj hij⟩

end Meaning

/-! ## Expressions -/

open Meaning (inTurn either)

/-- What an expression leads from and to. -/
def Matches : Regex → Meaning
  | .empty => inTurn []
  | .one s => fun text i j => after s.has text i = true ∧ j = i + 1
  | .assertion a => fun text i j => a.holds text i = true ∧ j = i
  | .group _ r => r.Matches
  | .seq r s => inTurn [r.Matches, s.Matches]
  | .alt r s => either [r.Matches, s.Matches]
  | .loop r least most _ => r.Matches.repeated least most

theorem inTurn_parts (r : Regex) : inTurn (r.parts.map Matches) = r.Matches := by
  induction r with
  | empty => rfl
  | seq r s ihr ihs =>
    have hparts : (Regex.seq r s).parts = [r, s].flatMap parts := by simp [parts]
    rw [hparts, List.map_flatMap, Meaning.inTurn_flatMap]
    simp only [List.map_cons, List.map_nil, ihr, ihs]
    rfl
  | _ => exact Meaning.inTurn_single _

theorem matches_inSequence : ∀ rs : List Regex, (inSequence rs).Matches = inTurn (rs.map Matches)
  | [] => rfl
  | [r] => (Meaning.inTurn_single _).symm
  | r :: s :: rs => by
    rw [List.map_cons, Meaning.inTurn_cons, ← matches_inSequence (s :: rs)]
    rfl

theorem matches_concat (rs : List Regex) : (concat rs).Matches = inTurn (rs.map Matches) := by
  rw [concat, matches_inSequence, List.map_flatMap, Meaning.inTurn_flatMap]
  simp only [inTurn_parts]

/-! ### Choices -/

theorem flatten_atoms (rs : List Regex) : (atoms rs).flatten = rs := by
  induction rs with
  | nil => rfl
  | cons r rs ih =>
    unfold atoms
    split
    · rename_i s run rest h
      rw [h] at ih
      split <;> simpa using ih
    · simp [ih]

theorem either_branches (r : Regex) : either (r.branches.map Matches) = r.Matches := by
  induction r with
  | alt r s ihr ihs =>
    have hbranches : (Regex.alt r s).branches = [r, s].flatMap branches := by simp [branches]
    rw [hbranches, List.map_flatMap, Meaning.either_flatMap]
    simp only [List.map_cons, List.map_nil, ihr, ihs]
    rfl
  | _ => exact Meaning.either_single _

theorem either_flatMap_branches (rs : List Regex) :
    either ((rs.flatMap branches).map Matches) = either (rs.map Matches) := by
  rw [List.map_flatMap, Meaning.either_flatMap]
  simp only [either_branches]

theorem matches_inChoice : ∀ (r : Regex) (rs : List Regex),
    (inChoice r rs).Matches = either ((r :: rs).map Matches)
  | r, [] => (Meaning.either_single _).symm
  | r, s :: rs => by
    rw [List.map_cons, Meaning.either_cons, ← matches_inChoice s rs]
    rfl

theorem allSets?_eq_some {rs : List Regex} {sets : List Text.Intervals}
    (h : allSets? rs = some sets) : rs = sets.map Regex.one := by
  have hmap : ∀ {rs : List Regex} {sets}, rs.mapM set? = some sets → rs = sets.map Regex.one := by
    intro rs
    induction rs with
    | nil =>
      intro sets h
      cases h
      rfl
    | cons r rs ih =>
      intro sets h
      rw [List.mapM_cons] at h
      obtain ⟨s, hs, h⟩ := Option.bind_eq_some_iff.mp h
      obtain ⟨rest, hrest, h⟩ := Option.bind_eq_some_iff.mp h
      cases h
      cases r with
      | one s' =>
        cases hs
        rw [ih hrest]
        rfl
      | _ => cases hs
  unfold allSets? at h
  split at h
  · exact hmap h
  · cases h

/-- A character of one of the sets is a character of their union. -/
theorem matches_sets (sets : List Text.Intervals) :
    (Regex.one (.ofList sets.flatten)).Matches = either ((sets.map Regex.one).map Matches) := by
  funext text i j
  rw [eq_iff_iff]
  simp only [Matches, after, Option.any_eq_true, either, List.map_map, List.mem_map]
  constructor
  · rintro ⟨⟨c, hc, hhas⟩, rfl⟩
    rw [Text.Intervals.has, Text.Intervals.covers_ofList, Text.Intervals.covers,
      List.any_flatten, List.any_eq_true] at hhas
    obtain ⟨s, hs, hhas⟩ := hhas
    exact ⟨_, ⟨s, hs, rfl⟩, (Option.any_eq_true _ _).mpr ⟨c, hc, hhas⟩, rfl⟩
  · rintro ⟨_, ⟨s, hs, rfl⟩, h, rfl⟩
    obtain ⟨c, hc, hhas⟩ := (Option.any_eq_true _ _).mp h
    refine ⟨⟨c, hc, ?_⟩, rfl⟩
    rw [Text.Intervals.has, Text.Intervals.covers_ofList, Text.Intervals.covers,
      List.any_flatten, List.any_eq_true]
    exact ⟨s, hs, hhas⟩

theorem matches_oneOf (rs : List Regex) : (oneOf rs).Matches = either (rs.map Matches) := by
  rw [← either_flatMap_branches]
  unfold oneOf
  split
  · rename_i h
    rw [h]
    have hnone : Text.Intervals.has [] = fun _ => false := rfl
    funext text i j
    simp [Matches, either, after, hnone]
  · rename_i r h
    rw [h]
    exact (Meaning.either_single _).symm
  · rename_i r rest _ h
    rw [h]
    split
    · rename_i sets hsets
      rw [allSets?_eq_some hsets, matches_sets]
    · exact matches_inChoice r rest

theorem take_of_le_commonLength : ∀ {as bs : List (List Regex)} {n : Nat},
    n ≤ commonLength as bs → bs.take n = as.take n
  | [], [], n, h => rfl
  | [], _ :: _, n, h => by simp [Nat.le_zero.mp h]
  | _ :: _, [], n, h => by simp [Nat.le_zero.mp h]
  | a :: as, b :: bs, n, h => by
    unfold commonLength at h
    cases n with
    | zero => rfl
    | succ n =>
      split at h
      · rename_i hab
        subst hab
        rw [List.take_succ_cons, List.take_succ_cons,
          take_of_le_commonLength (Nat.le_of_succ_le_succ h)]
      · cases h

/-- All sequences start with the parts that they share. -/
theorem take_sharedLength {first as : List (List Regex)} {others : List (List (List Regex))}
    (h : as ∈ first :: others) :
    as.take (sharedLength first others) = first.take (sharedLength first others) := by
  have hfold : ∀ (others : List (List (List Regex))) (n : Nat),
      let least := others.foldl (fun n other => min n (commonLength first other)) n
      least ≤ n ∧ ∀ other ∈ others, least ≤ commonLength first other := by
    intro others
    induction others with
    | nil => exact fun n => ⟨Nat.le_refl n, nofun⟩
    | cons other others ih =>
      intro n
      obtain ⟨hn, hothers⟩ := ih (min n (commonLength first other))
      rw [List.foldl_cons]
      exact ⟨by omega, List.forall_mem_cons.mpr ⟨by omega, hothers⟩⟩
  rcases List.mem_cons.mp h with rfl | h
  · rfl
  · unfold sharedLength
    split
    · exact take_of_le_commonLength ((hfold others first.length).2 as h)
    · rfl

theorem matches_choice (rs : List Regex) : (choice rs).Matches = either (rs.map Matches) := by
  unfold choice
  split
  · rename_i first second rest hatoms
    split
    · exact matches_oneOf rs
    · rename_i n hn
      -- every branch is the shared front and its own rest
      have hbranch : ∀ r ∈ rs.flatMap branches, r.Matches
          = inTurn ((first.take (n + 1)).flatten.map Matches
            ++ ((atoms r.parts).drop (n + 1)).flatten.map Matches) := by
        intro r hr
        have hmem : atoms r.parts ∈ first :: second :: rest := by
          rw [← hatoms]
          exact List.mem_map_of_mem hr
        have htake := take_sharedLength hmem
        rw [hn] at htake
        rw [← List.map_append, ← htake, ← List.flatten_append, List.take_append_drop,
          flatten_atoms, inTurn_parts]
      have htails : ((rs.flatMap branches).map Matches)
          = ((rs.flatMap branches).map
            fun r => ((atoms r.parts).drop (n + 1)).flatten.map Matches).map
              fun ns => inTurn ((first.take (n + 1)).flatten.map Matches ++ ns) := by
        rw [List.map_congr_left hbranch, List.map_map]
        rfl
      rw [← either_flatMap_branches, htails, Meaning.either_inTurn, matches_concat, List.map_append,
        ← hatoms]
      simp only [List.map_cons, List.map_nil, matches_oneOf, List.map_map]
      exact congrArg (fun ms => inTurn (_ ++ [either ms]))
        (List.map_congr_left fun r _ => matches_concat _)
  · exact matches_oneOf rs

/-! ### Repetitions -/

theorem matches_of_isZeroWidth {r : Regex} (h : r.isZeroWidth = true) {text : Array Char}
    {i j : Nat} : r.Matches text i j → i = j := by
  induction r generalizing i j with
  | empty => exact id
  | one s => cases h
  | assertion a => exact fun h => h.2.symm
  | group n r ih => exact ih h
  | seq r s ihr ihs =>
    obtain ⟨hr, hs⟩ := Bool.and_eq_true_iff.mp h
    rintro ⟨x, hix, y, hxy, rfl⟩
    exact (ihr hr hix).trans (ihs hs hxy)
  | alt r s ihr ihs =>
    obtain ⟨hr, hs⟩ := Bool.and_eq_true_iff.mp h
    rintro ⟨m, hm, hij⟩
    simp only [List.mem_cons, List.not_mem_nil, or_false] at hm
    rcases hm with rfl | rfl
    · exact ihr hr hij
    · exact ihs hs hij
  | loop r least most greedy ih =>
    rintro ⟨n, _, _, hij⟩
    exact ((Meaning.inTurn_replicate_still (ih h) n).mp hij).1

theorem matches_repeated (r : Regex) {least : Nat} {most : Option Nat} (greedy : Bool)
    (h : ∀ bound ∈ most, least ≤ bound) :
    (repeated r least most greedy).Matches = r.Matches.repeated least most := by
  have hbuild : ∀ least most, (∀ bound ∈ most, least ≤ bound) →
      (if most = some 0 then Regex.empty
        else if least = 1 ∧ most = some 1 then r else .loop r least most greedy).Matches
          = r.Matches.repeated least most := by
    intro least most hle
    split
    · rename_i hmost
      subst hmost
      obtain rfl : least = 0 := Nat.le_zero.mp (hle 0 rfl)
      exact (Meaning.repeated_never _).symm
    · split
      · rename_i hone
        obtain ⟨rfl, rfl⟩ := hone
        exact (Meaning.repeated_once _).symm
      · rfl
  unfold repeated
  split
  rename_i least' most' hbounds
  split at hbounds
  · rename_i hzero
    cases hbounds
    rw [hbuild]
    · funext text i j
      exact propext (Meaning.repeated_still (matches_of_isZeroWidth hzero) least most)
    · rintro bound hbound
      cases hbound
      cases most with
      | none => exact Nat.min_le_right least 1
      | some n =>
        have := h n rfl
        show min least 1 ≤ min n 1
        omega
  · cases hbounds
    exact hbuild least most h

end Chunkwise.Regex
