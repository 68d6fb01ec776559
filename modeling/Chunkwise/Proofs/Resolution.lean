import Chunkwise.Proofs.Account
import Chunkwise.Proofs.Building
import Chunkwise.Proofs.Memory
import Chunkwise.Proofs.Renaming

/-! Where references lead. In the grammars that a parser runs, a reference to a name runs the
grammar that is defined under that name, wherever it stands among the definitions. So the order
of the definitions makes no difference, and no reference is found unresolved but one that the
rules have not given out. -/

namespace Chunkwise

variable {ρ ρ' : Type} {F : Defect → Prop}

/-! ## Defects that the user's own steps raise -/

/-- Whether a step of the user's own may stop a parse by this defect. -/
def NativeStep.Raises (step : NativeStep) (e : Defect) : Prop :=
  ∃ c, e ∉ c.fatal ∧ e ∈ (step c).2.fatal

namespace Grammar

/-- Some step of the user's own in the grammar may stop a parse by this defect. -/
inductive Raises (e : Defect) : Grammar ρ → Prop
  | native {step : NativeStep} : step.Raises e → Raises e (.native step)
  | andThen {g : Grammar ρ} {step : Outcome Value → NativeStep} (o : Outcome Value) :
      NativeStep.Raises (step o) e → Raises e (.andThen g step)
  | part {g part : Grammar ρ} : part ∈ g.parts → Raises e part → Raises e g

theorem referencesOfList_eq (gs : List (Grammar ρ)) :
    referencesOfList gs = gs.flatMap references := by
  induction gs with
  | nil => rfl
  | cons g gs ih => rw [referencesOfList, ih, List.flatMap_cons]

/-- The references of a grammar are those of its parts, unless it is one itself. -/
theorem references_eq_flatMap (g : Grammar ρ) (h : ∀ r, g ≠ .rule r) :
    g.references = g.parts.flatMap references := by
  cases g with
  | rule r => exact absurd rfl (h r)
  | repeated g least separator stop =>
    cases separator <;> cases stop <;> simp [references, referencesOfOption, parts]
  | _ => simp [references, parts, referencesOfList_eq]

theorem mem_references_part {r : ρ} {g part : Grammar ρ} (hm : part ∈ g.parts)
    (hr : r ∈ part.references) : r ∈ g.references := by
  rw [references_eq_flatMap g (by rintro r' rfl; cases hm)]
  exact List.mem_flatMap.mpr ⟨part, hm, hr⟩

mutual

/-- Linking replaces the references where they stand. -/
theorem references_link (f : ρ → ρ') :
    ∀ g : Grammar ρ, (g.link f).references = g.references.map f
  | .consume _ => rfl
  | .behind _ => rfl
  | .untilToken _ => rfl
  | .untilMatch g => references_link f g
  | .unit => rfl
  | .sequence gs => referencesOfList_link f gs
  | .choice gs => referencesOfList_link f gs
  | .optional g => references_link f g
  | .peek g => references_link f g
  | .notAhead g => references_link f g
  | .skipIn skip g => by
    simp only [link, references, references_link f skip, references_link f g, List.map_append]
  | .repeated g _ separator stop => by
    simp only [link, references, references_link f g, referencesOfOption_link f separator,
      referencesOfOption_link f stop, List.map_append]
  | .rule _ => rfl
  | .map _ g => references_link f g
  | .discard g => references_link f g
  | .native _ => rfl
  | .andThen g _ => references_link f g

theorem referencesOfList_link (f : ρ → ρ') :
    ∀ gs : List (Grammar ρ), referencesOfList (linkList f gs) = (referencesOfList gs).map f
  | [] => rfl
  | g :: gs => by
    simp only [linkList, referencesOfList, references_link f g, referencesOfList_link f gs,
      List.map_append]

theorem referencesOfOption_link (f : ρ → ρ') : ∀ g : Option (Grammar ρ),
    referencesOfOption (linkOption f g) = (referencesOfOption g).map f
  | none => rfl
  | some g => references_link f g

end

/-! ## Extents -/

mutual

theorem extent_link (f : ρ → ρ') : ∀ g : Grammar ρ, (g.link f).extent = g.extent
  | .consume _ => rfl
  | .behind _ => rfl
  | .untilToken _ => rfl
  | .untilMatch g => congrArg Extent.nest (extent_link f g)
  | .unit => rfl
  | .sequence gs => congrArg Extent.nest (extentOfList_link f gs)
  | .choice gs => congrArg Extent.nest (extentOfList_link f gs)
  | .optional g => congrArg Extent.nest (extent_link f g)
  | .peek g => congrArg Extent.nest (extent_link f g)
  | .notAhead g => congrArg Extent.nest (extent_link f g)
  | .skipIn skip g => by simp only [link, extent, extent_link f skip, extent_link f g]
  | .repeated g least separator stop => by
    simp only [link, extent, extent_link f g, extentOfOption_link f separator,
      extentOfOption_link f stop]
  | .rule _ => rfl
  | .map _ g => congrArg Extent.nest (extent_link f g)
  | .discard g => congrArg Extent.nest (extent_link f g)
  | .native _ => rfl
  | .andThen g _ => by simp only [link, extent, extent_link f g]

theorem extentOfList_link (f : ρ → ρ') :
    ∀ gs : List (Grammar ρ), extentOfList (linkList f gs) = extentOfList gs
  | [] => rfl
  | g :: gs => congrArg₂ Extent.join (extent_link f g) (extentOfList_link f gs)

theorem extentOfOption_link (f : ρ → ρ') :
    ∀ g : Option (Grammar ρ), extentOfOption (linkOption f g) = extentOfOption g
  | none => rfl
  | some g => extent_link f g

end

instance : RightCommutative Extent.join where
  right_comm a b c := by
    simp only [Extent.join, Extent.mk.injEq]
    omega

end Grammar

/-! ## Linked twice -/

open Grammar Walk

variable {d : Definition}

/-- The references are those to the names of a definition: in the table each leads to the grammar
of its name, and nowhere if no rule has the name. -/
structure Definition.Resolves (d : Definition) (f : String → RuleRef) (rules : RuleTable) :
    Prop where
  name : ∀ name, (f name).name = name
  table : ∀ {name g}, (name, g) ∈ d.rules → rules[(f name).symbol.index]? = some (g.link f)
  nowhere : ∀ {name}, name ∉ d.ruleNames → rules[(f name).symbol.index]? = none

/-- A grammar that raises defects in `F` only; those of references that lead nowhere are among
them. -/
structure Definition.Admits (d : Definition) (F : Defect → Prop) (g : Grammar String) : Prop where
  unresolved : ∀ name ∈ g.references, name ∉ d.ruleNames → F (.unresolvedRule name)
  raises : ∀ e, g.Raises e → F e

theorem Definition.Admits.part {g part : Grammar String} (h : d.Admits F g)
    (hm : part ∈ g.parts) : d.Admits F part where
  unresolved name hname := h.unresolved name (mem_references_part hm hname)
  raises e he := h.raises e (.part hm he)

variable {f f' : String → RuleRef} {rules rules' : RuleTable}

namespace Grammar

variable {ds ds' : List (String × Grammar String)}

end Grammar

/-! ## Parsers -/

namespace Definition

/-- Some step of the user's own may stop a parse by this defect. -/
def Raises (d : Definition) (e : Defect) : Prop :=
  (∃ x ∈ d.rules, x.2.Raises e) ∨ ∃ s ∈ d.skip, s.Raises e

/-- The entry of a rule, as it would be written. -/
def entry (name : String) : Grammar String :=
  .map (Value.pick 0) (.sequence [.rule name, .consume .eof])

variable {d e : Definition} {name : String}

end Definition

namespace Builder

variable {b b' : Builder}

end Builder

namespace Parser

variable {d e : Definition} {p q : Parser} {name text : String} {trace : Option Trace}

namespace IsMadeOf

theorem afterCalls (h : p.IsMadeOf d) (calls : List Call) : (p.afterCalls calls).IsMadeOf d := by
  induction calls generalizing p with
  | nil => exact h
  | cons call calls ih => exact ih (h.parse call.name call.text call.trace)

theorem resolves (h : p.IsMadeOf d) : d.Resolves (Definition.refTo p.symbols) p.rules where
  name _ := rfl
  table hm := (h.rule hm).2
  nowhere {name} hname := by
    have hindex := Definition.index_refTo_lt_iff h.nodup [] name
    rw [List.append_nil, ← h.symbols] at hindex
    have hsize : p.rules.size = d.ruleNames.length := by
      rw [h.rules, List.size_toArray, List.length_map, Definition.ruleNames, List.length_map]
    rw [Array.getElem?_eq_none_iff, hsize]
    exact Nat.not_lt.mp (mt hindex.mp hname)

end IsMadeOf

/-! ## Names in a parser -/

namespace IsMadeOf

variable {b : Builder}

end IsMadeOf

end Parser

end Chunkwise
