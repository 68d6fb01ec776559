import Chunkwise.Proofs.Leftmost
import Chunkwise.Proofs.Meaning

/-! Programs match what their expressions mean. The code of an expression takes a thread from
where it starts to where it goes on, over just those characters that the expression leads over;
the exploring of threads ends in an accepting one if there is any. -/

namespace Chunkwise.Regex

open Meaning (inTurn either)

namespace Program

variable {program : Program} {text : Array Char} {m m' : Meaning} {a b c stop : Nat}

/-! ## Threads that accept -/

/-- A thread leads, in this number of steps, to one that accepts at `stop`. -/
def AcceptsIn (program : Program) (text : Array Char) (stop : Nat) : Nat → Thread → Prop
  | 0, t => program[t.address]? = some .accept ∧ t.place = stop
  | n + 1, t => ∃ i, program[t.address]? = some i ∧
      ∃ u ∈ i.next text t.place, AcceptsIn program text stop n u

/-- A thread at an instruction accepts by way of what the instruction leads to. -/
theorem acceptsIn_iff {i : Instruction} (hi : program[a]? = some i) (hne : i ≠ .accept)
    {n p : Nat} :
    program.AcceptsIn text stop n ⟨a, p⟩
      ↔ ∃ n', n = n' + 1 ∧ ∃ u ∈ i.next text p, program.AcceptsIn text stop n' u := by
  cases n with
  | zero =>
    refine ⟨fun h => absurd (Option.some.inj (hi.symm.trans h.1)) hne, ?_⟩
    rintro ⟨_, h, _⟩
    cases h
  | succ n =>
    constructor
    · rintro ⟨i', hi', u, hu, h⟩
      cases hi.symm.trans hi'
      exact ⟨n, rfl, u, hu, h⟩
    · rintro ⟨n', h, u, hu, hn⟩
      cases h
      exact ⟨i, hi, u, hu, hn⟩

/-- Threads at the same instruction accept alike. -/
theorem acceptsIn_congr (h : program[a]? = program[b]?) {n p : Nat} :
    program.AcceptsIn text stop n ⟨a, p⟩ ↔ program.AcceptsIn text stop n ⟨b, p⟩ := by
  cases n <;> simp only [AcceptsIn, h]

/-! ## Code that means something -/

/-- A thread at `a` accepts just if one at `b` does, to which the meaning leads, and that takes
no more steps. -/
structure Runs (program : Program) (text : Array Char) (m : Meaning) (a b : Nat) : Prop where
  leads : ∀ {i j n stop}, m text i j → program.AcceptsIn text stop n ⟨b, j⟩ →
    ∃ n', program.AcceptsIn text stop n' ⟨a, i⟩
  comes : ∀ {i n stop}, program.AcceptsIn text stop n ⟨a, i⟩ →
    ∃ j, m text i j ∧ ∃ n' ≤ n, program.AcceptsIn text stop n' ⟨b, j⟩

/-- What runs from an instruction runs from where the same instruction stands again. -/
theorem Runs.of_same (hab : program[a]? = program[b]?) (h : Runs program text m b c) :
    Runs program text m a c where
  leads := fun hm hn => (h.leads hm hn).imp fun _ => (acceptsIn_congr hab).mpr
  comes := fun hn => h.comes ((acceptsIn_congr hab).mp hn)

theorem runs_nil : Runs program text (inTurn []) a a where
  leads := fun h hn => h ▸ ⟨_, hn⟩
  comes := fun h => ⟨_, rfl, _, Nat.le_refl _, h⟩

theorem Runs.trans (h : Runs program text m a b) (h' : Runs program text m' b c) :
    Runs program text (inTurn [m, m']) a c where
  leads := by
    rintro i k n stop ⟨j, hij, _, hjk, rfl⟩ hn
    obtain ⟨n', hn'⟩ := h'.leads hjk hn
    exact h.leads hij hn'
  comes := by
    intro i n stop hn
    obtain ⟨j, hij, n', hle, hn'⟩ := h.comes hn
    obtain ⟨k, hjk, n'', hle', hn''⟩ := h'.comes hn'
    exact ⟨k, ⟨j, hij, k, hjk, rfl⟩, n'', by omega, hn''⟩

/-- An instruction runs what it leads to. -/
theorem runs_instruction {i : Instruction} (hi : program[a]? = some i) (hne : i ≠ .accept)
    (h : ∀ p u, u ∈ i.next text p ↔ u.address = b ∧ m text p u.place) :
    Runs program text m a b where
  leads := fun {p q n stop} hpq hn =>
    ⟨n + 1, (acceptsIn_iff hi hne).mpr ⟨n, rfl, ⟨b, q⟩, (h p _).mpr ⟨rfl, hpq⟩, hn⟩⟩
  comes := by
    intro p n stop hn
    obtain ⟨n', rfl, ⟨_, q⟩, hu, hn'⟩ := (acceptsIn_iff hi hne).mp hn
    obtain ⟨rfl, hpq⟩ := (h p _).mp hu
    exact ⟨q, hpq, n', Nat.le_succ n', hn'⟩

/-- A fork runs either of its ways. -/
theorem runs_fork {i : Instruction} (hi : program[a]? = some i) (hne : i ≠ .accept) {b' : Nat}
    (h : ∀ p u, u ∈ i.next text p ↔ u = ⟨b, p⟩ ∨ u = ⟨b', p⟩)
    (hb : Runs program text m b c) (hb' : Runs program text m' b' c) :
    Runs program text (either [m, m']) a c where
  leads := by
    rintro p q n stop ⟨x, hx, hpq⟩ hn
    simp only [List.mem_cons, List.not_mem_nil, or_false] at hx
    rcases hx with rfl | rfl
    · obtain ⟨n', hn'⟩ := hb.leads hpq hn
      exact ⟨n' + 1, (acceptsIn_iff hi hne).mpr ⟨n', rfl, _, (h p _).mpr (.inl rfl), hn'⟩⟩
    · obtain ⟨n', hn'⟩ := hb'.leads hpq hn
      exact ⟨n' + 1, (acceptsIn_iff hi hne).mpr ⟨n', rfl, _, (h p _).mpr (.inr rfl), hn'⟩⟩
  comes := by
    intro p n stop hn
    obtain ⟨n', rfl, u, hu, hn'⟩ := (acceptsIn_iff hi hne).mp hn
    rcases (h p u).mp hu with rfl | rfl
    · obtain ⟨q, hpq, n'', hle, hn''⟩ := hb.comes hn'
      exact ⟨q, ⟨m, by simp, hpq⟩, n'', by omega, hn''⟩
    · obtain ⟨q, hpq, n'', hle, hn''⟩ := hb'.comes hn'
      exact ⟨q, ⟨m', by simp, hpq⟩, n'', by omega, hn''⟩

theorem mem_next_enter (greedy : Bool) (body next p : Nat) (u : Thread) :
    u ∈ (Instruction.enter greedy body next).next text p ↔ u = ⟨body, p⟩ ∨ u = ⟨next, p⟩ := by
  cases greedy <;> simp [Instruction.enter, Instruction.next, or_comm]

theorem enter_ne_accept (greedy : Bool) (body next : Nat) :
    Instruction.enter greedy body next ≠ .accept := by
  cases greedy <;> exact nofun

/-- A loop whose body leads back to where it is entered runs the body again and again. -/
theorem runs_loop {greedy : Bool} {body next : Nat}
    (ha : program[a]? = some (.enter greedy body next)) (hbody : Runs program text m body a) :
    Runs program text (m.repeated 0 none) a next := by
  have haccepts : ∀ {n p stop}, AcceptsIn program text stop n ⟨a, p⟩ ↔ ∃ n', n = n' + 1 ∧
      ∃ u, (u = ⟨body, p⟩ ∨ u = ⟨next, p⟩) ∧ AcceptsIn program text stop n' u := by
    intro n p stop
    simp only [acceptsIn_iff ha (enter_ne_accept greedy body next), mem_next_enter]
  constructor
  · rintro i k n stop ⟨times, -, -, h⟩ hn
    induction times generalizing i with
    | zero =>
      obtain rfl : i = k := h
      exact ⟨n + 1, haccepts.mpr ⟨n, rfl, _, .inr rfl, hn⟩⟩
    | succ times ih =>
      obtain ⟨j, hij, hjk⟩ := h
      obtain ⟨n', hn'⟩ := ih hjk
      obtain ⟨n'', hn''⟩ := hbody.leads hij hn'
      exact ⟨n'' + 1, haccepts.mpr ⟨n'', rfl, _, .inl rfl, hn''⟩⟩
  · -- each time around takes a step at least
    intro i n stop hn
    induction n using Nat.strongRecOn generalizing i with
    | _ n ih =>
      obtain ⟨n', rfl, u, rfl | rfl, hn'⟩ := haccepts.mp hn
      · obtain ⟨j, hij, n'', hle, hn''⟩ := hbody.comes hn'
        obtain ⟨k, ⟨times, _, _, hjk⟩, n₃, hle', hn₃⟩ := ih n'' (by omega) hn''
        exact ⟨k, ⟨times + 1, Nat.zero_le _, nofun, j, hij, hjk⟩, n₃, by omega, hn₃⟩
      · exact ⟨i, ⟨0, Nat.le_refl 0, nofun, rfl⟩, n', Nat.le_succ n', hn'⟩

/-! ## The code of expressions -/

/-- The instructions stand in the program from address `base` on. -/
def HasCode (program : Program) (base : Nat) (code : List Instruction) : Prop :=
  ∀ k i, code[k]? = some i → program[base + k]? = some i

theorem hasCode_cons {base : Nat} {i : Instruction} {code : List Instruction} :
    HasCode program base (i :: code)
      ↔ program[base]? = some i ∧ HasCode program (base + 1) code := by
  constructor
  · intro h
    exact ⟨h 0 i rfl, fun k j hj => by rw [Nat.add_assoc, Nat.add_comm 1]; exact h (k + 1) j hj⟩
  · rintro ⟨hi, hcode⟩ k j hj
    cases k with
    | zero =>
      cases hj
      exact hi
    | succ k => rw [Nat.add_comm k, ← Nat.add_assoc]; exact hcode k j hj

theorem hasCode_append {base : Nat} {code code' : List Instruction} :
    HasCode program base (code ++ code')
      ↔ HasCode program base code ∧ HasCode program (base + code.length) code' := by
  induction code generalizing base with
  | nil => simp [HasCode]
  | cons i code ih =>
    rw [List.cons_append, hasCode_cons, hasCode_cons, ih, and_assoc, List.length_cons,
      Nat.add_assoc, Nat.add_comm 1]

variable {body : Nat → Nat → List Instruction} {size base : Nat}

/-- Copies of what runs a meaning run it so many times. -/
theorem runs_copies (hbody : ∀ {base next}, HasCode program base (body base next) →
      Runs program text m base next) (hsize : ∀ base next, (body base next).length = size)
    {n : Nat} (h : HasCode program base (copies body size n base)) :
    Runs program text (inTurn (List.replicate n m)) base (base + n * size) := by
  induction n generalizing base with
  | zero => simpa using runs_nil
  | succ n ih =>
    rw [copies, hasCode_append, hsize] at h
    have hrest := ih h.2
    rw [Nat.add_assoc, Nat.add_comm size, ← Nat.succ_mul] at hrest
    rw [List.replicate_succ, Meaning.inTurn_cons]
    exact (hbody h.1).trans hrest

theorem hasCode_last_copy (hsize : ∀ base next, (body base next).length = size) {n : Nat}
    (h : HasCode program base (copies body size (n + 1) base)) :
    HasCode program (base + n * size) (body (base + n * size) (base + (n + 1) * size)) := by
  induction n generalizing base with
  | zero =>
    rw [copies, hasCode_append] at h
    simpa using h.1
  | succ n ih =>
    rw [copies, hasCode_append, hsize] at h
    have := ih h.2
    rwa [Nat.add_assoc, Nat.add_assoc, Nat.add_comm size, Nat.add_comm size, ← Nat.succ_mul,
      ← Nat.succ_mul] at this

/-- Options of what runs a meaning run it at most so many times. -/
theorem runs_options (hbody : ∀ {base next}, HasCode program base (body base next) →
      Runs program text m base next) (hsize : ∀ base next, (body base next).length = size)
    {greedy : Bool} {next n : Nat} (h : HasCode program base (options body size greedy next n base))
    (hnext : Runs program text (inTurn []) (base + n * (size + 1)) next) :
    Runs program text (m.repeated 0 (some n)) base next := by
  induction n generalizing base with
  | zero =>
    rw [Meaning.repeated_never]
    simpa using hnext
  | succ n ih =>
    rw [options, List.cons_append, hasCode_cons, hasCode_append, hsize] at h
    obtain ⟨henter, hfirst, hrest⟩ := h
    rw [Meaning.repeated_succ]
    refine runs_fork henter (enter_ne_accept _ _ _) (mem_next_enter _ _ _)
      ((hbody hfirst).trans (ih hrest ?_)) runs_nil
    have hplace : base + (n + 1) * (size + 1) = base + 1 + size + n * (size + 1) := by
      rw [Nat.succ_mul]
      omega
    rwa [hplace] at hnext

/-- The code of an expression runs what the expression means. -/
theorem runs_code (r : Regex) {base next : Nat} (h : HasCode program base (r.code base next)) :
    Runs program text r.Matches base next := by
  induction r generalizing base next with
  | empty =>
    refine runs_instruction (h 0 _ rfl) (by simp) fun p u => ?_
    obtain ⟨a, q⟩ := u
    simp [Instruction.next, Matches, inTurn, eq_comm]
  | one s =>
    refine runs_instruction (h 0 _ rfl) (by simp) fun p u => ?_
    obtain ⟨a, q⟩ := u
    simp only [Instruction.next, Matches]
    split <;> simp [*]
  | assertion x =>
    refine runs_instruction (h 0 _ rfl) (by simp) fun p u => ?_
    obtain ⟨a, q⟩ := u
    simp only [Instruction.next, Matches]
    split <;> simp [*]
  | group n r ih => exact ih h
  | seq r s ihr ihs =>
    rw [code, hasCode_append, length_code] at h
    exact (ihr h.1).trans (ihs h.2)
  | alt r s ihr ihs =>
    rw [code, List.cons_append, hasCode_cons, hasCode_append, length_code] at h
    exact runs_fork h.1 (by simp) (fun p u => by simp [Instruction.next]) (ihr h.2.1) (ihs h.2.2)
  | loop r least most greedy ih =>
    have hcopies : ∀ n, HasCode program base _ → Runs program text _ base (base + n * r.codeSize) :=
      fun n => runs_copies (n := n) ih (length_code r)
    cases most with
    | none =>
      cases least with
      | zero =>
        unfold code at h
        split at h
        · rw [List.cons_append, hasCode_cons, hasCode_append, length_code, hasCode_cons] at h
          obtain ⟨hfirst, hbody, hagain, _⟩ := h
          exact .of_same (hfirst.trans hagain.symm) (runs_loop hagain (ih hbody))
        · obtain ⟨hfirst, hbody⟩ := hasCode_cons.mp h
          exact runs_loop hfirst (ih hbody)
      | succ n =>
        rw [code, hasCode_append, length_copies _ _ (length_code r), hasCode_cons] at h
        have hloop := runs_loop h.2.1 (ih (hasCode_last_copy (length_code r) h.1))
        have hruns := (hcopies (n + 1) h.1).trans hloop
        rw [Matches, ← Meaning.inTurn_repeated]
        exact hruns
    | some most =>
      rw [code, hasCode_append, hasCode_append, length_copies _ _ (length_code r),
        List.length_append, length_copies _ _ (length_code r),
        length_options _ _ _ _ (length_code r), hasCode_cons, ← Nat.add_assoc] at h
      obtain ⟨⟨hfirst, hrest⟩, hjump, _⟩ := h
      have hend : Runs program text (inTurn []) (base + least * r.codeSize
          + (most - least) * (r.codeSize + 1)) next := by
        refine runs_instruction hjump (by simp) fun p u => ?_
        obtain ⟨a, q⟩ := u
        simp [Instruction.next, inTurn, eq_comm]
      have hruns := (hcopies least hfirst).trans (runs_options ih (length_code r) hrest hend)
      rw [Matches, ← Meaning.inTurn_repeated]
      exact hruns

theorem hasCode_compile (r : Regex) :
    HasCode (compile r) 0 (r.code 0 r.codeSize) ∧ (compile r)[r.codeSize]? = some .accept := by
  have h : HasCode (compile r) 0 (r.code 0 r.codeSize ++ [.accept]) := by
    intro k i hk
    rwa [compile, Nat.zero_add, List.getElem?_toArray]
  rw [hasCode_append, length_code, hasCode_cons, Nat.zero_add] at h
  exact ⟨h.1, h.2.1⟩

/-- The program of an expression accepts where the expression leads to. -/
theorem acceptsIn_compile_iff (r : Regex) {p : Nat} :
    (∃ n, (compile r).AcceptsIn text stop n ⟨0, p⟩) ↔ r.Matches text p stop := by
  obtain ⟨hcode, haccept⟩ := hasCode_compile r
  have hruns : Runs (compile r) text r.Matches 0 r.codeSize := runs_code r hcode
  constructor
  · rintro ⟨n, hn⟩
    obtain ⟨j, hj, n', _, hn'⟩ := hruns.comes hn
    cases n' with
    | zero =>
      obtain rfl : j = stop := hn'.2
      exact hj
    | succ n' =>
      obtain ⟨i, hi, u, hu, _⟩ := hn'
      cases haccept.symm.trans hi
      cases hu
  · exact fun h => hruns.leads h (n := 0) ⟨haccept, rfl⟩

/-! ## Exploring -/

/-- Exploring ends where one of the threads accepts. -/
theorem Explores.acceptsIn {threads : List Thread} {seen seen' : Set Thread} {o : Option Nat}
    (h : Explores program text threads seen o seen') :
    o = some stop → ∃ t ∈ threads, ∃ n, program.AcceptsIn text stop n t := by
  induction h with
  | done => exact nofun
  | again _ _ ih => exact fun ho => (ih ho).imp fun _ h => ⟨List.mem_cons_of_mem _ h.1, h.2⟩
  | astray _ _ _ ih => exact fun ho => (ih ho).imp fun _ h => ⟨List.mem_cons_of_mem _ h.1, h.2⟩
  | @accepts t _ _ _ hget =>
    intro ho
    exact ⟨t, List.mem_cons_self, 0, hget, Option.some.inj ho⟩
  | @leads t _ _ _ _ i _ hget _ _ ih =>
    intro ho
    obtain ⟨u, hu, n, hn⟩ := ih ho
    rcases List.mem_append.mp hu with hu | hu
    · exact ⟨t, List.mem_cons_self, n + 1, i, hget, u, hu, hn⟩
    · exact ⟨u, List.mem_cons_of_mem _ hu, n, hn⟩

/-- What is explored in vain has been seen then. -/
theorem Explores.seen {threads : List Thread} {seen seen' : Set Thread} {o : Option Nat}
    (h : Explores program text threads seen o seen') :
    o = none → seen ⊆ seen' ∧ ∀ t ∈ threads, t ∈ seen' := by
  induction h with
  | done => exact fun _ => ⟨subset_rfl, nofun⟩
  | again ht _ ih =>
    intro ho
    obtain ⟨hseen, hrest⟩ := ih ho
    exact ⟨hseen, List.forall_mem_cons.mpr ⟨hseen ht, hrest⟩⟩
  | astray _ _ _ ih =>
    intro ho
    obtain ⟨hseen, hrest⟩ := ih ho
    obtain ⟨ht, hseen⟩ := Set.insert_subset_iff.mp hseen
    exact ⟨hseen, List.forall_mem_cons.mpr ⟨ht, hrest⟩⟩
  | accepts _ _ => exact nofun
  | leads _ _ _ _ ih =>
    intro ho
    obtain ⟨hseen, hrest⟩ := ih ho
    obtain ⟨ht, hseen⟩ := Set.insert_subset_iff.mp hseen
    exact ⟨hseen, List.forall_mem_cons.mpr ⟨ht, (List.forall_mem_append.mp hrest).2⟩⟩

/-- The dead do not lead to one that accepts. -/
theorem Dead.not_acceptsIn {threads : Set Thread} (h : Dead program text [] threads) :
    ∀ {n t}, t ∈ threads → ¬ program.AcceptsIn text stop n t
  | 0, t, ht => fun hn => h.accept t ht hn.1
  | _ + 1, t, ht => fun ⟨i, hi, u, hu, hn⟩ =>
    h.not_acceptsIn ((h.next t ht i hi u hu).elim id nofun) hn

variable {r : Regex} {p : Nat}

/-- A match is what the expression means. -/
theorem matches_of_matchAt (hp : p ≤ text.size) (h : matchAt (compile r) text p = some stop) :
    r.Matches text p stop := by
  obtain ⟨t, ht, hn⟩ := (explores_from hp ∅).acceptsIn h
  cases List.mem_singleton.mp ht
  exact (acceptsIn_compile_iff r).mp hn

/-- Where an expression leads from, there is a match. -/
theorem matchAt_ne_none (hp : p ≤ text.size) (h : r.Matches text p stop) :
    matchAt (compile r) text p ≠ none := by
  intro hnone
  have hends := @explores_from (compile r) text p hp ∅
  obtain ⟨n, hn⟩ := (acceptsIn_compile_iff r).mpr h
  refine (hends.dead hnone ?_).not_acceptsIn ((hends.seen hnone).2 _ List.mem_cons_self) hn
  rw [mem_set_empty]
  exact .empty

/-- A text holds a match just if the expression leads from a place of it. -/
theorem occursIn_compile_iff {text : String} :
    (compile r).occursIn text = true
      ↔ ∃ p ≤ text.length, ∃ stop, r.Matches text.toList.toArray p stop := by
  have hsize : text.toList.toArray.size = text.length := by
    rw [List.size_toArray, String.length_toList]
  rw [occursIn, Option.isSome_iff_exists, ← hsize]
  constructor
  · rintro ⟨⟨a, b⟩, h⟩
    obtain ⟨_, ha, hm, _⟩ := (searchFrom_spec (by omega) dead_empty).1 h
    exact ⟨a, ha, b, matches_of_matchAt ha hm⟩
  · rintro ⟨p, hp, stop, h⟩
    refine Option.ne_none_iff_exists'.mp fun hnone => ?_
    exact matchAt_ne_none hp h
      ((searchFrom_spec (by omega) dead_empty).2 hnone p (Nat.zero_le p) hp)

end Program

end Chunkwise.Regex
