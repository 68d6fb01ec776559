import Chunkwise.Proofs.Partition
import Chunkwise.Proofs.Parts
import Mathlib.Data.List.Nodup

/-! Names and linked grammars. Names are interned in the order in which they first come, so names
that differ and stand first have their places for symbols. Linking replaces the references of a
grammar, and leaves all else as it is. -/

namespace Chunkwise

/-! ## Names -/

namespace Symbols

variable {s : Symbols} {name : String}

theorem get?_eq_some_iff {i : Nat} :
    s.get? name = some ⟨i⟩ ↔ s.names.toList.idxOf? name = some i := by
  unfold get?
  rw [← List.idxOf?_toArray, Array.toArray_toList, Option.map_eq_some_iff]
  constructor
  · rintro ⟨j, hj, he⟩
    cases he
    exact hj
  · exact fun h => ⟨i, h, rfl⟩

theorem intern_of_mem (h : name ∈ s.names.toList) : (s.intern name).2 = s := by
  have hsome : s.names.idxOf? name ≠ none := by simpa using h
  obtain ⟨i, hi⟩ := Option.ne_none_iff_exists'.mp hsome
  simp [intern, get?, hi]

theorem names_intern_of_not_mem (h : name ∉ s.names.toList) :
    (s.intern name).2.names.toList = s.names.toList ++ [name] := by
  have hnone : s.names.idxOf? name = none := by simpa using h
  simp [intern, get?, hnone]

/-- The names that are interned keep their places. -/
theorem prefix_foldl_intern (names : List String) (s : Symbols) :
    s.names.toList <+: (names.foldl (fun s name => (s.intern name).2) s).names.toList := by
  induction names generalizing s with
  | nil => exact List.prefix_rfl
  | cons name names ih =>
    rw [List.foldl_cons]
    by_cases h : name ∈ s.names.toList
    · rw [intern_of_mem h]
      exact ih s
    · have hmore := ih (s.intern name).2
      rw [names_intern_of_not_mem h] at hmore
      exact (List.prefix_append _ _).trans hmore

/-- New names are added in their order. -/
theorem foldl_intern_of_nodup (names : List String) (s : Symbols)
    (h : (s.names.toList ++ names).Nodup) :
    (names.foldl (fun s name => (s.intern name).2) s).names.toList = s.names.toList ++ names := by
  induction names generalizing s with
  | nil => exact (List.append_nil _).symm
  | cons name names ih =>
    have hnew : name ∉ s.names.toList := fun hm =>
      List.disjoint_of_nodup_append h hm List.mem_cons_self
    have hnames := names_intern_of_not_mem hnew
    rw [List.foldl_cons, ih _ (by rw [hnames]; simpa using h), hnames, List.append_assoc]
    rfl

/-- Names that differ stand first, whatever names follow. -/
theorem prefix_ofList {names : List String} (hnodup : names.Nodup) (more : List String) :
    names <+: (ofList (names ++ more)).names.toList := by
  have hfold := foldl_intern_of_nodup names {} (by simpa using hnodup)
  have hprefix := prefix_foldl_intern more (names.foldl (fun s name => (s.intern name).2) {})
  rwa [hfold, ← List.foldl_append] at hprefix

/-- Names that differ have their places for symbols, whatever names follow. -/
theorem get?_ofList {names : List String} (hnodup : names.Nodup) (more : List String) {i : Nat}
    (hi : names[i]? = some name) : (ofList (names ++ more)).get? name = some ⟨i⟩ := by
  obtain ⟨rest, hrest⟩ := prefix_ofList hnodup more
  obtain ⟨hlt, rfl⟩ := List.getElem?_eq_some_iff.mp hi
  rw [get?_eq_some_iff, ← hrest, List.idxOf?_eq_some_iff]
  refine ⟨by rw [List.length_append]; omega, List.getElem_append_left hlt, fun j hj he => ?_⟩
  rw [List.getElem_append_left (Nat.lt_trans hj hlt), hnodup.getElem_inj_iff] at he
  omega

end Symbols

/-! ## Grammars -/

namespace Grammar

variable {ρ ρ' : Type} (f : ρ → ρ')

theorem linkList_eq (gs : List (Grammar ρ)) : linkList f gs = gs.map (link f) := by
  induction gs with
  | nil => rfl
  | cons g gs ih => rw [linkList, ih, List.map_cons]

theorem parts_link (g : Grammar ρ) : (g.link f).parts = g.parts.map (link f) := by
  cases g with
  | repeated g least separator stop => cases separator <;> cases stop <;> rfl
  | _ => simp [link, parts, linkList_eq]

mutual

/-- Linking replaces references, so it does not change what tests say that do not look at
them. -/
theorem all_link {p : Grammar ρ → Bool} {p' : Grammar ρ' → Bool} (h : ∀ g, p' (g.link f) = p g) :
    ∀ g : Grammar ρ, (g.link f).all p' = g.all p
  | .consume t => h (.consume t)
  | .behind t => h (.behind t)
  | .untilToken t => h (.untilToken t)
  | .untilMatch g => congrArg₂ and (h (.untilMatch g)) (all_link h g)
  | .unit => h .unit
  | .sequence gs => congrArg₂ and (h (.sequence gs)) (all_linkList h gs)
  | .choice gs => congrArg₂ and (h (.choice gs)) (all_linkList h gs)
  | .optional g => congrArg₂ and (h (.optional g)) (all_link h g)
  | .peek g => congrArg₂ and (h (.peek g)) (all_link h g)
  | .notAhead g => congrArg₂ and (h (.notAhead g)) (all_link h g)
  | .skipIn skip g =>
    congrArg₂ and (h (.skipIn skip g)) (congrArg₂ and (all_link h skip) (all_link h g))
  | .repeated g least separator stop =>
    congrArg₂ and (h (.repeated g least separator stop)) (congrArg₂ and (all_link h g)
      (congrArg₂ and (all_linkOption h separator) (all_linkOption h stop)))
  | .rule r => h (.rule r)
  | .map v g => congrArg₂ and (h (.map v g)) (all_link h g)
  | .discard g => congrArg₂ and (h (.discard g)) (all_link h g)
  | .native step => h (.native step)
  | .andThen g step => congrArg₂ and (h (.andThen g step)) (all_link h g)

theorem all_linkList {p : Grammar ρ → Bool} {p' : Grammar ρ' → Bool}
    (h : ∀ g, p' (g.link f) = p g) : ∀ gs, allOfList p' (linkList f gs) = allOfList p gs
  | [] => rfl
  | g :: gs => congrArg₂ and (all_link h g) (all_linkList h gs)

theorem all_linkOption {p : Grammar ρ → Bool} {p' : Grammar ρ' → Bool}
    (h : ∀ g, p' (g.link f) = p g) : ∀ o, allOfOption p' (linkOption f o) = allOfOption p o
  | none => rfl
  | some g => all_link h g

end

mutual

/-- Linking looks at nothing but the references. -/
theorem link_congr {f f' : ρ → ρ'} : ∀ g : Grammar ρ, (∀ r ∈ g.references, f r = f' r) →
    g.link f = g.link f'
  | .consume _, _ => rfl
  | .behind _, _ => rfl
  | .untilToken _, _ => rfl
  | .untilMatch g, h => congrArg Grammar.untilMatch (link_congr g h)
  | .unit, _ => rfl
  | .sequence gs, h => congrArg Grammar.sequence (linkList_congr gs h)
  | .choice gs, h => congrArg Grammar.choice (linkList_congr gs h)
  | .optional g, h => congrArg Grammar.optional (link_congr g h)
  | .peek g, h => congrArg Grammar.peek (link_congr g h)
  | .notAhead g, h => congrArg Grammar.notAhead (link_congr g h)
  | .skipIn skip g, h =>
    congrArg₂ Grammar.skipIn (link_congr skip fun r hr => h r (List.mem_append_left _ hr))
      (link_congr g fun r hr => h r (List.mem_append_right _ hr))
  | .repeated g least separator stop, h => by
    have hg := link_congr g fun r hr =>
      h r (List.mem_append_left _ (List.mem_append_left _ hr))
    have hseparator := linkOption_congr separator fun r hr =>
      h r (List.mem_append_left _ (List.mem_append_right _ hr))
    have hstop := linkOption_congr stop fun r hr => h r (List.mem_append_right _ hr)
    simp only [link, hg, hseparator, hstop]
  | .rule r, h => congrArg Grammar.rule (h r (List.mem_singleton.mpr rfl))
  | .map v g, h => congrArg (Grammar.map v) (link_congr g h)
  | .discard g, h => congrArg Grammar.discard (link_congr g h)
  | .native _, _ => rfl
  | .andThen g step, h => congrArg (Grammar.andThen · step) (link_congr g h)

theorem linkList_congr {f f' : ρ → ρ'} : ∀ gs : List (Grammar ρ),
    (∀ r ∈ referencesOfList gs, f r = f' r) → linkList f gs = linkList f' gs
  | [], _ => rfl
  | g :: gs, h => congrArg₂ List.cons (link_congr g fun r hr => h r (List.mem_append_left _ hr))
      (linkList_congr gs fun r hr => h r (List.mem_append_right _ hr))

theorem linkOption_congr {f f' : ρ → ρ'} : ∀ o : Option (Grammar ρ),
    (∀ r ∈ referencesOfOption o, f r = f' r) → linkOption f o = linkOption f' o
  | none, _ => rfl
  | some g, h => congrArg some (link_congr g h)

end

/-- Linking puts in no step of the user's own. -/
theorem isBuiltIn_link (g : Grammar ρ) : (g.link f).isBuiltIn = g.isBuiltIn :=
  all_link f (fun g => by cases g <;> rfl) g

theorem isBehind_link (g : Grammar ρ) : (g.link f).isBehind = g.isBehind := by
  cases g <;> rfl

theorem guardsParts_link (g : Grammar ρ) : (g.link f).guardsParts = g.guardsParts := by
  have hparts : (g.link f).parts.all (!·.isBehind) = g.parts.all (!·.isBehind) := by
    rw [parts_link, List.all_map]
    exact congrArg _ (funext fun part => congrArg not (isBehind_link f part))
  cases g with
  | peek g => rfl
  | notAhead g => rfl
  | _ => exact hparts

theorem isForward_link (g : Grammar ρ) : (g.link f).isForward = g.isForward := by
  unfold isForward isCareful
  rw [isBuiltIn_link, isBehind_link, all_link f (guardsParts_link f)]

end Grammar

end Chunkwise
