import Mathlib.Data.Finset.Card
import Mathlib.Data.Finset.Prod
import Mathlib.Data.Set.Basic
import Chunkwise.Regex.Match

/-! The search finds the first match. It tries one place after the other and does not explore
again what it has explored from earlier ones. That changes nothing: threads that were explored
in vain are dead, they lead to dead threads only, and what is dead can be put among the threads
seen without a change of the outcome. -/

namespace Chunkwise

namespace Regex

theorem Instruction.length_next_le (i : Instruction) (text : Array Char) (place : Nat) :
    (i.next text place).length ≤ 2 := by
  cases i with
  | one s address => simp only [next]; split <;> simp
  | assertion a address => simp only [next]; split <;> simp
  | jump address => simp [next]
  | fork first second => simp [next]
  | accept => simp [next]

/-- An instruction leads on within the text, and not back. -/
theorem Instruction.next_place {text : Array Char} {place : Nat} {i : Instruction} {t : Thread}
    (hp : place ≤ text.size) (h : t ∈ i.next text place) :
    place ≤ t.place ∧ t.place ≤ text.size := by
  cases i with
  | one s address =>
    simp only [Instruction.next] at h
    split at h
    · rename_i ha
      obtain ⟨ch, hch, _⟩ := (Option.any_eq_true _ _).mp ha
      have hlt := (Array.getElem?_eq_some_iff.mp hch).1
      cases List.mem_singleton.mp h
      exact ⟨Nat.le_succ place, hlt⟩
    · cases h
  | assertion a address =>
    simp only [Instruction.next] at h
    split at h
    · cases List.mem_singleton.mp h
      exact ⟨Nat.le_refl place, hp⟩
    · cases h
  | jump address =>
    cases List.mem_singleton.mp h
    exact ⟨Nat.le_refl place, hp⟩
  | fork first second =>
    have hplace : t.place = place := by
      simp only [Instruction.next, List.mem_cons, List.not_mem_nil, or_false] at h
      rcases h with rfl | rfl <;> rfl
    omega
  | accept => cases h

namespace Program

variable {program : Program} {text : Array Char}

/-! ## Exploring to the end -/

/-- Exploring the threads, apart from those seen, comes to an end with this outcome and with
these threads seen. -/
inductive Explores (program : Program) (text : Array Char) :
    List Thread → Set Thread → Option Nat → Set Thread → Prop
  | done {seen} : Explores program text [] seen none seen
  | again {t rest seen o seen'} : t ∈ seen → Explores program text rest seen o seen' →
      Explores program text (t :: rest) seen o seen'
  | astray {t rest seen o seen'} : t ∉ seen → program[t.address]? = none →
      Explores program text rest (insert t seen) o seen' →
      Explores program text (t :: rest) seen o seen'
  | accepts {t rest seen} : t ∉ seen → program[t.address]? = some .accept →
      Explores program text (t :: rest) seen (some t.place) (insert t seen)
  | leads {t rest seen o seen' i} : t ∉ seen → program[t.address]? = some i → i ≠ .accept →
      Explores program text (i.next text t.place ++ rest) (insert t seen) o seen' →
      Explores program text (t :: rest) seen o seen'

/-- The threads within the text that are still to be explored. -/
def unseen (program : Program) (text : Array Char) (seen : Std.HashSet Thread) : Finset Thread :=
  ((Finset.range program.size ×ˢ Finset.range (text.size + 1)).image
    fun x => (⟨x.1, x.2⟩ : Thread)).filter fun t => t ∉ seen

theorem mem_unseen {seen : Std.HashSet Thread} {t : Thread} :
    t ∈ unseen program text seen
      ↔ (t.address < program.size ∧ t.place < text.size + 1) ∧ t ∉ seen := by
  simp only [unseen, Finset.mem_filter, Finset.mem_image, Finset.mem_product, Finset.mem_range,
    Prod.exists]
  constructor
  · rintro ⟨⟨a, b, hab, rfl⟩, ht⟩
    exact ⟨hab, ht⟩
  · rintro ⟨hab, ht⟩
    exact ⟨⟨t.address, t.place, hab, rfl⟩, ht⟩

theorem card_unseen_le (seen : Std.HashSet Thread) :
    (unseen program text seen).card ≤ program.size * (text.size + 1) := by
  refine (Finset.card_filter_le _ _).trans (Finset.card_image_le.trans ?_)
  rw [Finset.card_product, Finset.card_range, Finset.card_range]

theorem unseen_insert (seen : Std.HashSet Thread) (t : Thread) :
    unseen program text (seen.insert t) = (unseen program text seen).erase t := by
  ext u
  rw [Finset.mem_erase, mem_unseen, mem_unseen, Std.HashSet.mem_insert, beq_iff_eq]
  constructor
  · rintro ⟨hu, hseen⟩
    exact ⟨fun he => hseen (.inl he.symm), hu, fun hm => hseen (.inr hm)⟩
  · rintro ⟨hne, hu, hseen⟩
    exact ⟨hu, fun h => h.elim (fun he => hne he.symm) hseen⟩

theorem mem_set_insert (seen : Std.HashSet Thread) (t : Thread) :
    {u | u ∈ seen.insert t} = insert t {u | u ∈ seen} := by
  ext u
  show u ∈ seen.insert t ↔ u = t ∨ u ∈ seen
  rw [Std.HashSet.mem_insert, beq_iff_eq, eq_comm]

theorem mem_set_empty : {t : Thread | t ∈ (∅ : Std.HashSet Thread)} = ∅ := by
  ext t
  exact iff_of_false Std.HashSet.not_mem_empty (Set.notMem_empty t)

/-- With steps enough for what is unseen and for what is waiting, exploring comes to its end. -/
theorem explores_explore : ∀ {fuel threads} {seen : Std.HashSet Thread},
    (∀ t ∈ threads, t.place ≤ text.size) →
    2 * (unseen program text seen).card + threads.length < fuel →
    Explores program text threads {t | t ∈ seen} (explore program text fuel threads seen).1
      {t | t ∈ (explore program text fuel threads seen).2}
  | 0, _, _, _, hfuel => by cases hfuel
  | fuel + 1, [], seen, _, _ => .done
  | fuel + 1, t :: rest, seen, hthreads, hfuel => by
    have hrest : ∀ t ∈ rest, t.place ≤ text.size :=
      fun t hm => hthreads t (List.mem_cons_of_mem _ hm)
    have hplace : t.place ≤ text.size := hthreads t List.mem_cons_self
    rw [List.length_cons] at hfuel
    unfold explore
    split
    · rename_i hseen
      exact .again (by simpa using hseen) (explores_explore hrest (by omega))
    · rename_i hseen
      have hseen : t ∉ seen := by simpa using hseen
      split
      · rename_i hget
        refine .astray hseen hget ?_
        rw [← mem_set_insert]
        refine explores_explore hrest ?_
        have := Finset.card_le_card (Finset.erase_subset t (unseen program text seen))
        rw [unseen_insert]
        omega
      · rename_i hget
        rw [mem_set_insert]
        exact .accepts hseen hget
      · rename_i i hne hget
        refine .leads hseen hget (by rintro rfl; exact hne rfl) ?_
        rw [← mem_set_insert]
        refine explores_explore (fun u hm => ?_) ?_
        · rcases List.mem_append.mp hm with hm | hm
          · exact (Instruction.next_place hplace hm).2
          · exact hrest u hm
        · -- one thread fewer is unseen, and no more than two are waiting in its place
          have hlt : t.address < program.size := (Array.getElem?_eq_some_iff.mp hget).1
          have hunseen : t ∈ unseen program text seen :=
            mem_unseen.mpr ⟨⟨hlt, Nat.lt_succ_of_le hplace⟩, hseen⟩
          have hpos := Finset.card_pos.mpr ⟨t, hunseen⟩
          have hnext := i.length_next_le text t.place
          rw [unseen_insert, Finset.card_erase_of_mem hunseen, List.length_append]
          omega

/-- Exploring ends in one way only. -/
theorem Explores.unique {threads : List Thread} {seen seen₁ seen₂ : Set Thread}
    {o₁ o₂ : Option Nat} (h₁ : Explores program text threads seen o₁ seen₁) :
    Explores program text threads seen o₂ seen₂ → o₂ = o₁ := by
  induction h₁ with
  | done =>
    intro h₂
    cases h₂ with
    | done => rfl
  | again ht _ ih =>
    intro h₂
    cases h₂ with
    | again _ h => exact ih h
    | astray hn _ _ => exact absurd ht hn
    | accepts hn _ => exact absurd ht hn
    | leads hn _ _ _ => exact absurd ht hn
  | astray hn hget _ ih =>
    intro h₂
    cases h₂ with
    | again ht _ => exact absurd ht hn
    | astray _ _ h => exact ih h
    | accepts _ hget' => cases hget.symm.trans hget'
    | leads _ hget' _ _ => cases hget.symm.trans hget'
  | accepts hn hget =>
    intro h₂
    cases h₂ with
    | again ht _ => exact absurd ht hn
    | astray _ hget' _ => cases hget.symm.trans hget'
    | accepts _ _ => rfl
    | leads _ hget' hne _ => cases hget.symm.trans hget'; exact absurd rfl hne
  | leads hn hget hne _ ih =>
    intro h₂
    cases h₂ with
    | again ht _ => exact absurd ht hn
    | astray _ hget' _ => cases hget.symm.trans hget'
    | accepts _ hget' => cases hget.symm.trans hget'; exact absurd rfl hne
    | leads _ hget' _ h => cases hget.symm.trans hget'; exact ih h

/-! ## Dead threads -/

/-- None of the threads accepts, and they lead to each other only or to those that are still
waiting. -/
structure Dead (program : Program) (text : Array Char) (waiting : List Thread)
    (threads : Set Thread) : Prop where
  accept : ∀ t ∈ threads, program[t.address]? ≠ some .accept
  next : ∀ t ∈ threads, ∀ i, program[t.address]? = some i →
    ∀ u ∈ i.next text t.place, u ∈ threads ∨ u ∈ waiting

namespace Dead

variable {t : Thread} {waiting rest : List Thread} {seen : Set Thread}

theorem empty : Dead program text waiting ∅ := ⟨nofun, nofun⟩

theorem waits (h : Dead program text [] seen) : Dead program text waiting seen where
  accept := h.accept
  next u hu i hget v hv := .inl ((h.next u hu i hget v hv).elim id nofun)

/-- A thread that is among the dead need not be waited for. -/
theorem again (h : Dead program text (t :: rest) seen) (ht : t ∈ seen) :
    Dead program text rest seen where
  accept := h.accept
  next u hu i hget v hv := by
    rcases h.next u hu i hget v hv with hv | hv
    · exact .inl hv
    · rcases List.mem_cons.mp hv with rfl | hv
      · exact .inl ht
      · exact .inr hv

/-- A thread that does not accept joins the dead, and what it leads to is waited for. -/
theorem join (h : Dead program text (t :: rest) seen) {more : List Thread}
    (haccept : program[t.address]? ≠ some .accept)
    (hmore : ∀ i, program[t.address]? = some i → ∀ u ∈ i.next text t.place, u ∈ more) :
    Dead program text (more ++ rest) (insert t seen) where
  accept := by
    rintro u (rfl | hu)
    · exact haccept
    · exact h.accept u hu
  next := by
    rintro u (rfl | hu) i hget v hv
    · exact .inr (List.mem_append_left _ (hmore i hget v hv))
    · rcases h.next u hu i hget v hv with hv | hv
      · exact .inl (.inr hv)
      · rcases List.mem_cons.mp hv with rfl | hv
        · exact .inl (.inl rfl)
        · exact .inr (List.mem_append_right _ hv)

end Dead

namespace Explores

variable {threads rest : List Thread} {seen seen' : Set Thread} {o : Option Nat}

/-- Threads that are within the text accept within it, and not in front of all of them. -/
theorem place {least : Nat} (h : Explores program text threads seen o seen') :
    (∀ t ∈ threads, least ≤ t.place ∧ t.place ≤ text.size) →
    ∀ stop, o = some stop → least ≤ stop ∧ stop ≤ text.size := by
  induction h with
  | done => exact fun _ _ ho => nomatch ho
  | again _ _ ih => exact fun ht => ih (List.forall_mem_cons.mp ht).2
  | astray _ _ _ ih => exact fun ht => ih (List.forall_mem_cons.mp ht).2
  | accepts _ _ =>
    intro ht stop ho
    cases ho
    exact (List.forall_mem_cons.mp ht).1
  | leads _ _ _ _ ih =>
    intro ht
    obtain ⟨⟨hleast, hsize⟩, hrest⟩ := List.forall_mem_cons.mp ht
    refine ih (List.forall_mem_append.mpr ⟨fun u hu => ?_, hrest⟩)
    have := Instruction.next_place hsize hu
    omega

/-- What was explored in vain is dead. -/
theorem dead (h : Explores program text threads seen o seen') :
    o = none → Dead program text threads seen → Dead program text [] seen' := by
  induction h with
  | done => exact fun _ hd => hd
  | again ht _ ih => exact fun ho hd => ih ho (hd.again ht)
  | @astray t rest seen o seen' _ hget _ ih =>
    intro ho hd
    have hjoin : Dead program text ([] ++ rest) (insert t seen) := by
      refine hd.join (fun he => ?_) fun i hi => ?_
      · cases hget.symm.trans he
      · cases hget.symm.trans hi
    exact ih ho hjoin
  | accepts _ _ => exact fun ho => nomatch ho
  | leads _ hget hne _ ih =>
    refine fun ho hd => ih ho (hd.join (fun he => ?_) fun i hi u hu => ?_)
    · exact hne (Option.some.inj (hget.symm.trans he))
    · cases hget.symm.trans hi
      exact hu

/-- Threads that have been seen can be left out in front. -/
theorem behind_seen (h : Explores program text (threads ++ rest) seen o seen')
    (hthreads : ∀ t ∈ threads, t ∈ seen) : Explores program text rest seen o seen' := by
  induction threads with
  | nil => exact h
  | cons t threads ih =>
    have ht : t ∈ seen := hthreads t List.mem_cons_self
    cases h with
    | again _ h => exact ih h fun u hu => hthreads u (List.mem_cons_of_mem _ hu)
    | astray hn _ _ => exact absurd ht hn
    | accepts hn _ => exact absurd ht hn
    | leads hn _ _ _ => exact absurd ht hn

/-- The outcome stays the same if what is dead has been seen before. -/
theorem past_dead {D : Set Thread} (hD : Dead program text [] D)
    (h : Explores program text threads seen o seen') :
    Explores program text threads (seen ∪ D) o (seen' ∪ D) := by
  induction h with
  | done => exact .done
  | again ht _ ih => exact .again (.inl ht) ih
  | @astray t rest seen o seen' hn hget _ ih =>
    rw [Set.insert_union] at ih
    by_cases ht : t ∈ D
    · rw [Set.insert_eq_of_mem (Set.mem_union_right seen ht)] at ih
      exact .again (.inr ht) ih
    · exact .astray (fun h => h.elim hn ht) hget ih
  | @accepts t rest seen hn hget =>
    rw [Set.insert_union]
    exact .accepts (fun h => h.elim hn fun ht => hD.accept t ht hget) hget
  | @leads t rest seen o seen' i hn hget hne _ ih =>
    rw [Set.insert_union] at ih
    by_cases ht : t ∈ D
    · -- what it leads to is dead as well, so it has been seen
      rw [Set.insert_eq_of_mem (Set.mem_union_right seen ht)] at ih
      refine .again (.inr ht) (ih.behind_seen fun u hu => .inr ?_)
      exact (hD.next t ht i hget u hu).elim id nofun
    · exact .leads (fun h => h.elim hn ht) hget hne ih

end Explores

/-! ## Matches -/

/-- The exploring that a search does from a place comes to its end. -/
theorem explores_from {place : Nat} (hplace : place ≤ text.size) (seen : Std.HashSet Thread) :
    Explores program text [⟨0, place⟩] {t | t ∈ seen}
      (explore program text (enoughSteps program text) [⟨0, place⟩] seen).1
      {t | t ∈ (explore program text (enoughSteps program text) [⟨0, place⟩] seen).2} := by
  refine explores_explore (List.forall_mem_singleton.mpr hplace) ?_
  have : (unseen program text seen).card ≤ _ := card_unseen_le seen
  unfold enoughSteps
  rw [List.length_singleton]
  omega

/-- What is dead does not change whether a match starts at a place, nor where it ends. -/
theorem explore_eq_matchAt {place : Nat} (hplace : place ≤ text.size) {seen : Std.HashSet Thread}
    (hseen : Dead program text [] {t | t ∈ seen}) :
    (explore program text (enoughSteps program text) [⟨0, place⟩] seen).1
      = matchAt program text place := by
  have hmatch := (explores_from hplace ∅).past_dead hseen
  rw [mem_set_empty, Set.empty_union] at hmatch
  exact hmatch.unique (explores_from hplace seen)

theorem matchAt_place {place stop : Nat} (hplace : place ≤ text.size)
    (h : matchAt program text place = some stop) : place ≤ stop ∧ stop ≤ text.size :=
  (explores_from hplace ∅).place (List.forall_mem_singleton.mpr ⟨Nat.le_refl place, hplace⟩) stop h

/-- A set is matched by each of its characters. -/
theorem matchAt_one {place : Nat} (hplace : place ≤ text.size) (s : Text.Intervals) :
    matchAt (compile (.one s)) text place
      = if after s.has text place then some (place + 1) else none := by
  obtain ⟨seen, hends⟩ : ∃ seen, Explores (compile (.one s)) text [⟨0, place⟩] ∅
      (if after s.has text place then some (place + 1) else none) seen := by
    split
    · rename_i h
      refine ⟨insert ⟨1, place + 1⟩ (insert ⟨0, place⟩ ∅),
        .leads (i := .one s 1) (Set.notMem_empty _) rfl nofun ?_⟩
      rw [Instruction.next, if_pos h]
      exact .accepts (by simp) rfl
    · rename_i h
      refine ⟨insert ⟨0, place⟩ ∅, .leads (i := .one s 1) (Set.notMem_empty _) rfl nofun ?_⟩
      rw [Instruction.next, if_neg h]
      exact .done
  rw [← mem_set_empty] at hends
  exact hends.unique (explores_from hplace ∅)

/-- The search finds the match at the first of the places where one starts. -/
theorem searchFrom_spec : ∀ {n place} {seen : Std.HashSet Thread}, place + n = text.size + 1 →
    Dead program text [] {t | t ∈ seen} →
    (∀ {start stop}, searchFrom program text n place seen = some (start, stop) →
      place ≤ start ∧ start ≤ text.size ∧ matchAt program text start = some stop ∧
        ∀ q, place ≤ q → q < start → matchAt program text q = none) ∧
    (searchFrom program text n place seen = none →
      ∀ q, place ≤ q → q ≤ text.size → matchAt program text q = none)
  | 0, place, seen, hn, _ => ⟨nofun, fun _ q hq hsize => by omega⟩
  | n + 1, place, seen, hn, hseen => by
    have hplace : place ≤ text.size := by omega
    have hmatch := explore_eq_matchAt hplace hseen
    have hends : Explores program text _ _ _ _ := explores_from hplace seen
    unfold searchFrom
    split
    · rename_i stop' seen' hexplore
      rw [hexplore] at hmatch
      refine ⟨fun h => ?_, nofun⟩
      cases h
      exact ⟨Nat.le_refl place, hplace, hmatch.symm, fun q hq hlt => by omega⟩
    · rename_i seen' hexplore
      rw [hexplore] at hmatch hends
      have hdead := hends.dead rfl hseen.waits
      obtain ⟨hfound, hnothing⟩ := searchFrom_spec (n := n) (by omega : place + 1 + n = _) hdead
      -- no match starts at the first place, and the rest is searched as before
      refine ⟨fun h => ?_, fun h q hq hsize => ?_⟩
      · obtain ⟨hstart, hsize, hstop, hnone⟩ := hfound h
        refine ⟨by omega, hsize, hstop, fun q hq hlt => ?_⟩
        rcases Nat.eq_or_lt_of_le hq with rfl | hq
        · exact hmatch.symm
        · exact hnone q hq hlt
      · rcases Nat.eq_or_lt_of_le hq with rfl | hq
        · exact hmatch.symm
        · exact hnothing h q hq hsize

theorem dead_empty : Dead program text [] {t | t ∈ (∅ : Std.HashSet Thread)} := by
  rw [mem_set_empty]
  exact .empty

end Program

end Regex

end Chunkwise
