import Chunkwise.Proofs.Threads

/-! The preferred match. An expression without repetitions tries its ways one after the other and
goes on from the first one that succeeds. Its program explores threads in the same order, and
since each of its instructions leads on to later ones only, that no thread is explored twice takes
nothing away. So the match that the program finds is the first one that the expression comes
to. -/

namespace Chunkwise.Regex

variable {text : Array Char} {k : Nat → Option Nat} {i : Nat}

/-! ## Backtracking -/

/-- Whether nothing is repeated in the expression. -/
def isLoopFree : Regex → Bool
  | .empty => true
  | .one _ => true
  | .assertion _ => true
  | .group _ r => r.isLoopFree
  | .seq r s => r.isLoopFree && s.isLoopFree
  | .alt r s => r.isLoopFree && s.isLoopFree
  | .loop .. => false

/-- What `k` gives for the first place, of those that an expression without repetitions leads to
in the order of preference, for which it gives something. -/
def backtrack (text : Array Char) : Regex → (Nat → Option Nat) → Nat → Option Nat
  | .empty, k, i => k i
  | .one s, k, i => if after s.has text i then k (i + 1) else none
  | .assertion a, k, i => if a.holds text i then k i else none
  | .group _ r, k, i => backtrack text r k i
  | .seq r s, k, i => backtrack text r (backtrack text s k) i
  | .alt r s, k, i => (backtrack text r k i).or (backtrack text s k i)
  | .loop .., _, _ => none

/-- The expressions one after another. -/
def backtrackAll (text : Array Char) (rs : List Regex) (k : Nat → Option Nat) :
    Nat → Option Nat := rs.foldr (backtrack text) k

/-- The expressions one instead of another. -/
def backtrackAny (text : Array Char) (rs : List Regex) (k : Nat → Option Nat) (i : Nat) :
    Option Nat := rs.findSome? fun r => r.backtrack text k i

theorem backtrackAll_append (rs rs' : List Regex) :
    backtrackAll text (rs ++ rs') k = backtrackAll text rs (backtrackAll text rs' k) :=
  List.foldr_append

theorem backtrackAny_cons (r : Regex) (rs : List Regex) :
    backtrackAny text (r :: rs) k i = (r.backtrack text k i).or (backtrackAny text rs k i) := by
  rw [backtrackAny, List.findSome?_cons]
  cases r.backtrack text k i <;> rfl

theorem backtrackAny_append (rs rs' : List Regex) :
    backtrackAny text (rs ++ rs') k i
      = (backtrackAny text rs k i).or (backtrackAny text rs' k i) :=
  List.findSome?_append

/-! ### Sequences -/

theorem backtrackAll_parts (r : Regex) : backtrackAll text r.parts k = r.backtrack text k := by
  induction r generalizing k with
  | empty => rfl
  | seq r s ihr ihs =>
    rw [parts, backtrackAll_append, ihs, ihr]
    rfl
  | _ => rfl

theorem backtrackAll_flatMap_parts (rs : List Regex) :
    backtrackAll text (rs.flatMap parts) k = backtrackAll text rs k := by
  induction rs with
  | nil => rfl
  | cons r rs ih =>
    rw [List.flatMap_cons, backtrackAll_append, ih, backtrackAll_parts]
    rfl

theorem backtrack_inSequence : ∀ rs : List Regex,
    (inSequence rs).backtrack text k = backtrackAll text rs k
  | [] => rfl
  | [_] => rfl
  | r :: s :: rs => by
    show r.backtrack text ((inSequence (s :: rs)).backtrack text k) = _
    rw [backtrack_inSequence (s :: rs)]
    rfl

theorem backtrack_concat (rs : List Regex) :
    (concat rs).backtrack text k = backtrackAll text rs k := by
  rw [concat, backtrack_inSequence, backtrackAll_flatMap_parts]

/-! ### Choices -/

theorem backtrackAny_branches (r : Regex) :
    backtrackAny text r.branches k i = r.backtrack text k i := by
  induction r with
  | alt r s ihr ihs => rw [branches, backtrackAny_append, ihr, ihs]; rfl
  | _ => exact List.findSome?_singleton

theorem backtrackAny_flatMap_branches (rs : List Regex) :
    backtrackAny text (rs.flatMap branches) k i = backtrackAny text rs k i := by
  induction rs with
  | nil => rfl
  | cons r rs ih =>
    rw [List.flatMap_cons, backtrackAny_append, ih, backtrackAny_branches, backtrackAny_cons]

theorem backtrack_inChoice : ∀ (r : Regex) (rs : List Regex),
    (inChoice r rs).backtrack text k i = backtrackAny text (r :: rs) k i
  | _, [] => List.findSome?_singleton.symm
  | r, s :: rs => by
    rw [backtrackAny_cons, ← backtrack_inChoice s rs]
    rfl

theorem after_ofList (sets : List Text.Intervals) :
    after (Text.Intervals.ofList sets.flatten).has text i
      = sets.any fun s => after s.has text i := by
  unfold after
  cases text[i]? with
  | none => simp
  | some c =>
    simp only [Option.any_some, Text.Intervals.has, Text.Intervals.covers_ofList]
    rw [Text.Intervals.covers, List.any_flatten]
    rfl

/-- Whichever set a character is of, it is the same character that is led over. -/
theorem backtrack_sets (sets : List Text.Intervals) :
    (Regex.one (.ofList sets.flatten)).backtrack text k i
      = backtrackAny text (sets.map Regex.one) k i := by
  rw [backtrack, after_ofList]
  induction sets with
  | nil => rfl
  | cons s sets ih =>
    rw [List.map_cons, backtrackAny_cons, ← ih, List.any_cons, backtrack]
    cases after s.has text i with
    | false => simp
    | true => cases k (i + 1) <;> simp

theorem backtrack_oneOf (rs : List Regex) :
    (oneOf rs).backtrack text k i = backtrackAny text rs k i := by
  rw [← backtrackAny_flatMap_branches]
  unfold oneOf
  split
  · rename_i h
    have hnone : after (Text.Intervals.has []) text i = false := by
      unfold after
      cases text[i]? <;> rfl
    rw [h, backtrack, hnone]
    rfl
  · rename_i r h
    rw [h]
    exact List.findSome?_singleton.symm
  · rename_i r rest _ h
    rw [h]
    split
    · rename_i sets hsets
      rw [allSets?_eq_some hsets, backtrack_sets]
    · exact backtrack_inChoice r rest

/-- An expression that leads to one place at most. -/
def IsDetermined (text : Array Char) (r : Regex) : Prop :=
  ∃ step : Nat → Option Nat, ∀ k i, r.backtrack text k i = (step i).bind k

theorem isDetermined_one (s : Text.Intervals) : IsDetermined text (.one s) := by
  refine ⟨fun i => if after s.has text i then some (i + 1) else none, fun k i => ?_⟩
  by_cases h : after s.has text i = true <;> simp [backtrack, h]

theorem backtrackAll_of_isDetermined {rs : List Regex} (h : ∀ r ∈ rs, r.IsDetermined text) :
    ∃ step : Nat → Option Nat, ∀ k i, backtrackAll text rs k i = (step i).bind k := by
  induction rs with
  | nil => exact ⟨some, fun k i => rfl⟩
  | cons r rs ih =>
    obtain ⟨hr, hrs⟩ := List.forall_mem_cons.mp h
    obtain ⟨first, hfirst⟩ := hr
    obtain ⟨rest, hrest⟩ := ih hrs
    refine ⟨fun i => (first i).bind rest, fun k i => ?_⟩
    rw [Option.bind_assoc, ← funext (hrest k)]
    exact hfirst _ i

/-- What all choices start with can be done before the choice is made, if it leads to one place
at most. -/
theorem findSome?_backtrackAll {front : List Regex} (h : ∀ r ∈ front, r.IsDetermined text)
    (tails : List (List Regex)) :
    tails.findSome? (fun tail => backtrackAll text (front ++ tail) k i)
      = backtrackAll text front (fun j => tails.findSome? fun tail => backtrackAll text tail k j)
          i := by
  obtain ⟨step, hstep⟩ := backtrackAll_of_isDetermined h
  simp only [backtrackAll_append, hstep]
  cases step i with
  | none => simp
  | some j => rfl

theorem backtrack_choice {rs : List Regex}
    (h : ∀ r ∈ rs.flatMap branches, ∀ x ∈ r.parts, x.IsDetermined text) :
    (choice rs).backtrack text k i = backtrackAny text rs k i := by
  unfold choice
  split
  · rename_i first second rest hatoms
    split
    · exact backtrack_oneOf rs
    · rename_i n hn
      have hmem : ∀ {r}, r ∈ rs.flatMap branches → atoms r.parts ∈ first :: second :: rest :=
        fun hr => hatoms ▸ List.mem_map_of_mem hr
      -- every branch is the shared front and its own rest
      have hparts : ∀ r ∈ rs.flatMap branches, r.parts
          = (first.take (n + 1)).flatten ++ ((atoms r.parts).drop (n + 1)).flatten := by
        intro r hr
        have htake := take_sharedLength (hmem hr)
        rw [hn] at htake
        rw [← htake, ← List.flatten_append, List.take_append_drop, flatten_atoms]
      have hfront : ∀ x ∈ (first.take (n + 1)).flatten, x.IsDetermined text := by
        have hfirst : first ∈ (rs.flatMap branches).map fun r => atoms r.parts :=
          hatoms ▸ List.mem_cons_self
        obtain ⟨r, hr, rfl⟩ := List.mem_map.mp hfirst
        exact fun x hx => h r hr x (hparts r hr ▸ List.mem_append_left _ hx)
      calc (concat ((first.take (n + 1)).flatten ++ [oneOf _])).backtrack text k i
          = backtrackAll text (first.take (n + 1)).flatten (fun j =>
              ((rs.flatMap branches).map fun r => ((atoms r.parts).drop (n + 1)).flatten).findSome?
                fun tail => backtrackAll text tail k j) i := by
            rw [backtrack_concat, backtrackAll_append, ← hatoms]
            refine congrFun (congrArg (backtrackAll text _) (funext fun j => ?_)) i
            show (oneOf _).backtrack text k j = _
            simp only [backtrack_oneOf, backtrackAny, List.findSome?_map, Function.comp_def,
              backtrack_concat]
        _ = ((rs.flatMap branches).map parts).findSome? fun ps => backtrackAll text ps k i := by
            rw [List.map_congr_left hparts, ← findSome?_backtrackAll hfront, List.findSome?_map,
              List.findSome?_map]
            rfl
        _ = backtrackAny text rs k i := by
            rw [← backtrackAny_flatMap_branches, List.findSome?_map]
            simp only [Function.comp_def, backtrackAll_parts, backtrackAny]
  · exact backtrack_oneOf rs

/-! ### Expressions that repeat nothing -/

theorem isLoopFree_of_mem_parts {r x : Regex} (h : r.isLoopFree = true) (hx : x ∈ r.parts) :
    x.isLoopFree = true := by
  induction r with
  | empty => cases hx
  | seq r s ihr ihs =>
    obtain ⟨hr, hs⟩ := Bool.and_eq_true_iff.mp h
    exact (List.mem_append.mp hx).elim (ihr hr) (ihs hs)
  | _ => exact List.mem_singleton.mp hx ▸ h

theorem isLoopFree_of_mem_branches {r x : Regex} (h : r.isLoopFree = true)
    (hx : x ∈ r.branches) : x.isLoopFree = true := by
  induction r with
  | alt r s ihr ihs =>
    obtain ⟨hr, hs⟩ := Bool.and_eq_true_iff.mp h
    exact (List.mem_append.mp hx).elim (ihr hr) (ihs hs)
  | _ => exact List.mem_singleton.mp hx ▸ h

theorem isLoopFree_inSequence : ∀ {rs : List Regex}, (∀ r ∈ rs, r.isLoopFree = true) →
    (inSequence rs).isLoopFree = true
  | [], _ => rfl
  | [_], h => h _ List.mem_cons_self
  | _ :: _ :: _, h =>
    Bool.and_eq_true_iff.mpr ⟨h _ List.mem_cons_self,
      isLoopFree_inSequence fun r hr => h r (List.mem_cons_of_mem _ hr)⟩

theorem isLoopFree_concat {rs : List Regex} (h : ∀ r ∈ rs, r.isLoopFree = true) :
    (concat rs).isLoopFree = true := by
  refine isLoopFree_inSequence fun x hx => ?_
  obtain ⟨r, hr, hx⟩ := List.mem_flatMap.mp hx
  exact isLoopFree_of_mem_parts (h r hr) hx

theorem isLoopFree_inChoice : ∀ {r : Regex} {rs : List Regex},
    (∀ x ∈ r :: rs, x.isLoopFree = true) → (inChoice r rs).isLoopFree = true
  | _, [], h => h _ List.mem_cons_self
  | _, _ :: _, h =>
    Bool.and_eq_true_iff.mpr ⟨h _ List.mem_cons_self,
      isLoopFree_inChoice fun x hx => h x (List.mem_cons_of_mem _ hx)⟩

theorem isLoopFree_oneOf {rs : List Regex} (h : ∀ r ∈ rs, r.isLoopFree = true) :
    (oneOf rs).isLoopFree = true := by
  have hbranches : ∀ x ∈ rs.flatMap branches, x.isLoopFree = true := by
    intro x hx
    obtain ⟨r, hr, hx⟩ := List.mem_flatMap.mp hx
    exact isLoopFree_of_mem_branches (h r hr) hx
  unfold oneOf
  split
  · rfl
  · rename_i r hr
    exact hbranches r (hr ▸ List.mem_cons_self)
  · rename_i r rest _ hr
    split
    · rfl
    · exact isLoopFree_inChoice (hr ▸ hbranches)

theorem isLoopFree_choice {rs : List Regex} (h : ∀ r ∈ rs, r.isLoopFree = true) :
    (choice rs).isLoopFree = true := by
  unfold choice
  split
  · rename_i first second rest hatoms
    -- all that the branches are made of repeats nothing
    have hparts : ∀ as ∈ first :: second :: rest, ∀ x ∈ as.flatten, x.isLoopFree = true := by
      intro as has x hx
      obtain ⟨b, hb, rfl⟩ := List.mem_map.mp (hatoms ▸ has)
      obtain ⟨r, hr, hb⟩ := List.mem_flatMap.mp hb
      rw [flatten_atoms] at hx
      exact isLoopFree_of_mem_parts (isLoopFree_of_mem_branches (h r hr) hb) hx
    split
    · exact isLoopFree_oneOf h
    · rename_i n _
      refine isLoopFree_concat (List.forall_mem_append.mpr ⟨fun x hx => ?_, ?_⟩)
      · exact hparts first List.mem_cons_self x
          ((List.take_sublist _ _).flatten.subset hx)
      · refine List.forall_mem_singleton.mpr (isLoopFree_oneOf fun r hr => ?_)
        obtain ⟨as, has, rfl⟩ := List.mem_map.mp hr
        exact isLoopFree_concat fun x hx =>
          hparts as has x ((List.drop_sublist _ _).flatten.subset hx)
  · exact isLoopFree_oneOf h

/-! ## Exploring by preference -/

namespace Program

variable {program : Program} {base next : Nat}

/-- Instructions lead to those behind them only. -/
def LeadsOn (code : List Instruction) (base : Nat) : Prop :=
  ∀ k i, code[k]? = some i → ∀ text p, ∀ u ∈ i.next text p, base + k < u.address

theorem LeadsOn.lt (h : LeadsOn program.toList 0) {a p : Nat} {i : Instruction}
    (hi : program[a]? = some i) {u : Thread} (hu : u ∈ i.next text p) : a < u.address := by
  have := h a i (by rwa [Array.getElem?_toList]) text p u hu
  omega

/-- Exploring a thread comes to this, if nothing has been seen before. -/
def Reaches (program : Program) (text : Array Char) (t : Thread) (o : Option Nat) : Prop :=
  ∃ seen, Explores program text [t] ∅ o seen

namespace Explores

variable {threads rest : List Thread} {seen seen' : Set Thread} {o o' : Option Nat}

/-- What waits is explored if the threads in front of it are explored in vain. -/
theorem append (h : Explores program text threads seen o seen') :
    (o = none → ∃ last, Explores program text rest seen' o' last) →
    ∃ last, Explores program text (threads ++ rest) seen (o.or o') last := by
  induction h with
  | done => exact fun hrest => hrest rfl
  | again ht _ ih => exact fun hrest => (ih hrest).imp fun _ => .again ht
  | astray ht hget _ ih => exact fun hrest => (ih hrest).imp fun _ => .astray ht hget
  | accepts ht hget => exact fun _ => ⟨_, .accepts ht hget⟩
  | leads ht hget hne _ ih =>
    intro hrest
    obtain ⟨last, hlast⟩ := ih hrest
    exact ⟨last, .leads ht hget hne (List.append_assoc .. ▸ hlast)⟩

/-- Where instructions lead to those behind them, a thread in front of all that are explored can
be put among those seen. -/
theorem insert_front {t : Thread} (hprogram : LeadsOn program.toList 0)
    (h : Explores program text threads seen o seen') :
    (∀ u ∈ threads, t.address < u.address) →
    Explores program text threads (insert t seen) o (insert t seen') := by
  have hnew : ∀ {u : Thread} {seen : Set Thread}, t.address < u.address → u ∉ seen →
      u ∉ insert t seen :=
    fun hlt hu => not_or.mpr ⟨fun he => Nat.lt_irrefl _ (he ▸ hlt), hu⟩
  induction h with
  | done => exact fun _ => .done
  | again ht _ ih => exact fun hlt => .again (.inr ht) (ih (List.forall_mem_cons.mp hlt).2)
  | astray ht hget _ ih =>
    intro hlt
    obtain ⟨hfirst, hrest⟩ := List.forall_mem_cons.mp hlt
    exact .astray (hnew hfirst ht) hget (Set.insert_comm .. ▸ ih hrest)
  | accepts ht hget =>
    intro hlt
    rw [Set.insert_comm]
    exact .accepts (hnew (List.forall_mem_cons.mp hlt).1 ht) hget
  | @leads u _ _ _ _ i ht hget hne _ ih =>
    intro hlt
    obtain ⟨hfirst, hrest⟩ := List.forall_mem_cons.mp hlt
    have hnext : ∀ v ∈ i.next text u.place, t.address < v.address :=
      fun v hv => Nat.lt_trans hfirst (hprogram.lt hget hv)
    exact .leads (hnew hfirst ht) hget hne
      (Set.insert_comm .. ▸ ih (List.forall_mem_append.mpr ⟨hnext, hrest⟩))

end Explores

/-- Threads that come to something by themselves come to the first of it together. -/
theorem explores_first {threads : List Thread} {os : List (Option Nat)}
    (h : List.Forall₂ (program.Reaches text) threads os) :
    ∃ seen, Explores program text threads ∅ (os.foldr Option.or none) seen := by
  induction h with
  | nil => exact ⟨∅, .done⟩
  | cons ht _ ih =>
    obtain ⟨seen, ht⟩ := ht
    obtain ⟨last, hlast⟩ := ih
    refine ht.append fun hnone => ?_
    -- what was explored in vain is dead, so it does not change what the others come to
    have hpast := hlast.past_dead (ht.dead hnone .empty)
    rw [Set.empty_union] at hpast
    exact ⟨_, hpast⟩

/-- A thread comes to the first of what those threads come to that its instruction leads to. -/
theorem reaches_of_next (hprogram : LeadsOn program.toList 0) {a p : Nat} {i : Instruction}
    (hi : program[a]? = some i) (hne : i ≠ .accept) {threads : List Thread}
    (hthreads : i.next text p = threads) {os : List (Option Nat)}
    (h : List.Forall₂ (program.Reaches text) threads os) :
    program.Reaches text ⟨a, p⟩ (os.foldr Option.or none) := by
  subst hthreads
  obtain ⟨seen, hnext⟩ := explores_first h
  refine ⟨insert ⟨a, p⟩ seen, .leads (Set.notMem_empty _) hi hne ?_⟩
  rw [List.append_nil]
  exact hnext.insert_front hprogram fun u hu => hprogram.lt hi hu

/-- A thread goes on from where it is led if the place is right. -/
theorem reaches_of_check (hprogram : LeadsOn program.toList 0) {a p q : Nat} {i : Instruction}
    (hi : program[a]? = some i) (hne : i ≠ .accept) (right : Bool)
    (h : i.next text p = if right then [⟨next, q⟩] else [])
    (hnext : program.Reaches text ⟨next, q⟩ (k q)) :
    program.Reaches text ⟨a, p⟩ (if right then k q else none) := by
  cases right with
  | true =>
    have hreaches := reaches_of_next hprogram hi hne h (.cons hnext .nil)
    rwa [List.foldr_cons, List.foldr_nil, Option.or_none] at hreaches
  | false => exact reaches_of_next hprogram hi hne h .nil

/-- The code of an expression without repetitions comes to what the expression does. -/
theorem reaches_code (hprogram : LeadsOn program.toList 0) {r : Regex}
    (hr : r.isLoopFree = true) (hcode : HasCode program base (r.code base next))
    (hnext : ∀ q, program.Reaches text ⟨next, q⟩ (k q)) (p : Nat) :
    program.Reaches text ⟨base, p⟩ (r.backtrack text k p) := by
  induction r generalizing base next k p with
  | empty =>
    exact reaches_of_check hprogram (hcode 0 _ rfl) (by simp) true rfl (hnext p)
  | one s => exact reaches_of_check hprogram (hcode 0 _ rfl) (by simp) _ rfl (hnext (p + 1))
  | assertion a => exact reaches_of_check hprogram (hcode 0 _ rfl) (by simp) _ rfl (hnext p)
  | group n r ih => exact ih hr hcode hnext p
  | seq r s ihr ihs =>
    obtain ⟨hr, hs⟩ := Bool.and_eq_true_iff.mp hr
    rw [code, hasCode_append, length_code] at hcode
    exact ihr hr hcode.1 (ihs hs hcode.2 hnext) p
  | alt r s ihr ihs =>
    obtain ⟨hr, hs⟩ := Bool.and_eq_true_iff.mp hr
    rw [code, List.cons_append, hasCode_cons, hasCode_append, length_code] at hcode
    obtain ⟨hfork, hfirst, hsecond⟩ := hcode
    have hreaches := reaches_of_next hprogram hfork (by simp) rfl
      (.cons (ihr hr hfirst hnext p) (.cons (ihs hs hsecond hnext p) .nil))
    rwa [List.foldr_cons, List.foldr_cons, List.foldr_nil, Option.or_none] at hreaches
  | loop => cases hr

/-! ### The code of expressions without repetitions -/

theorem leadsOn_nil : LeadsOn [] base := nofun

theorem leadsOn_cons {i : Instruction} {code : List Instruction}
    (h : ∀ text p, ∀ u ∈ i.next text p, base < u.address) (hcode : LeadsOn code (base + 1)) :
    LeadsOn (i :: code) base := by
  intro k j hk text p u hu
  cases k with
  | zero =>
    cases hk
    exact h text p u hu
  | succ k =>
    have := hcode k j hk text p u hu
    omega

theorem leadsOn_append {code code' : List Instruction} (h : LeadsOn code base)
    (h' : LeadsOn code' (base + code.length)) : LeadsOn (code ++ code') base := by
  induction code generalizing base with
  | nil => exact h'
  | cons i code ih =>
    rw [List.length_cons, Nat.add_comm code.length, ← Nat.add_assoc] at h'
    refine leadsOn_cons (h 0 i rfl) (ih (fun k j hk text p u hu => ?_) h')
    have := h (k + 1) j hk text p u hu
    omega

theorem leadsOn_code {r : Regex} (hr : r.isLoopFree = true) {base next : Nat}
    (hnext : base + r.codeSize ≤ next) : LeadsOn (r.code base next) base := by
  induction r generalizing base next with
  | empty =>
    refine leadsOn_cons (fun text p u hu => ?_) leadsOn_nil
    cases List.mem_singleton.mp hu
    exact hnext
  | one s =>
    refine leadsOn_cons (fun text p u hu => ?_) leadsOn_nil
    rw [Instruction.next, List.mem_ite_nil_right] at hu
    cases List.mem_singleton.mp hu.2
    exact hnext
  | assertion a =>
    refine leadsOn_cons (fun text p u hu => ?_) leadsOn_nil
    rw [Instruction.next, List.mem_ite_nil_right] at hu
    cases List.mem_singleton.mp hu.2
    exact hnext
  | group n r ih => exact ih hr hnext
  | seq r s ihr ihs =>
    obtain ⟨hr, hs⟩ := Bool.and_eq_true_iff.mp hr
    rw [codeSize, ← Nat.add_assoc] at hnext
    refine leadsOn_append (ihr hr (Nat.le_refl _)) ?_
    rw [length_code]
    exact ihs hs hnext
  | alt r s ihr ihs =>
    obtain ⟨hr, hs⟩ := Bool.and_eq_true_iff.mp hr
    rw [codeSize] at hnext
    rw [code, List.cons_append]
    refine leadsOn_cons (fun text p u hu => ?_) (leadsOn_append (ihr hr (by omega)) ?_)
    · simp only [Instruction.next, List.mem_cons, List.not_mem_nil, or_false] at hu
      rcases hu with rfl | rfl
      · exact Nat.lt_succ_self base
      · exact Nat.lt_of_lt_of_le (Nat.lt_succ_self base) (Nat.le_add_right _ _)
    · rw [length_code]
      exact ihs hs (by omega)
  | loop => cases hr

theorem leadsOn_compile {r : Regex} (hr : r.isLoopFree = true) :
    LeadsOn (compile r).toList 0 := by
  refine leadsOn_append (leadsOn_code hr (Nat.le_of_eq (Nat.zero_add _))) ?_
  exact leadsOn_cons (fun _ _ => nofun) leadsOn_nil

/-- The program of an expression without repetitions finds the match that the expression comes to
first. -/
theorem matchAt_compile {r : Regex} (hr : r.isLoopFree = true) {p : Nat} (hp : p ≤ text.size) :
    matchAt (compile r) text p = r.backtrack text some p := by
  obtain ⟨hcode, haccept⟩ := hasCode_compile r
  have hnext : ∀ q, (compile r).Reaches text ⟨r.codeSize, q⟩ (some q) :=
    fun q => ⟨_, .accepts (Set.notMem_empty _) haccept⟩
  obtain ⟨seen, hends⟩ := reaches_code (leadsOn_compile hr) hr hcode hnext p
  rw [← mem_set_empty] at hends
  exact hends.unique (explores_from hp ∅)

end Program

end Chunkwise.Regex
