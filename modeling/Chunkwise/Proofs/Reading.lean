import Chunkwise.Regex.Reader

/-! Reading on. What a pattern reads as does not change when it is put in a group: each reader
reads the same from a pattern that goes on with a closing parenthesis. -/

namespace Chunkwise.Regex

/-- A reader that reads the same when a closing parenthesis and more follow. -/
def ReadsOn {α : Type} (read : List Char → Option (α × List Char)) : Prop :=
  ∀ ⦃cs a rest⦄ (tail : List Char), read cs = some (a, rest) →
    read (cs ++ ')' :: tail) = some (a, rest ++ ')' :: tail)

variable {α β : Type} {f : Flags}

theorem readsOn_rest (a : α) : ReadsOn fun rest => some (a, rest) := by
  intro cs a' rest tail h
  cases h
  rfl

theorem ReadsOn.map {read : List Char → Option (α × List Char)} (h : ReadsOn read) (g : α → β) :
    ReadsOn fun cs => (read cs).map fun x => (g x.1, x.2) := by
  intro cs b rest tail hread
  obtain ⟨⟨a, rest'⟩, ha, hb⟩ := Option.map_eq_some_iff.mp hread
  cases hb
  simp only [h tail ha, Option.map_some]

/-- A check of what was read does not change what is read behind it. -/
theorem readsOn_check (x : Option α) (g : α → β) :
    ReadsOn fun rest => x.bind fun a => some (g a, rest) := by
  intro cs b rest tail h
  obtain ⟨a, rfl, h⟩ := Option.bind_eq_some_iff.mp h
  cases h
  rfl

theorem takeWhile_append_of_found {p : Char → Bool} {cs tail : List Char}
    (h : cs.dropWhile p ≠ []) : (cs ++ tail).takeWhile p = cs.takeWhile p := by
  have hlength : (cs.takeWhile p).length ≠ cs.length := by
    have := congrArg List.length (List.takeWhile_append_dropWhile (p := p) (l := cs))
    have := List.length_pos_iff.mpr h
    rw [List.length_append] at *
    omega
  rw [List.takeWhile_append, if_neg hlength]

theorem dropWhile_append_of_found {p : Char → Bool} {cs tail : List Char}
    (h : cs.dropWhile p ≠ []) : (cs ++ tail).dropWhile p = cs.dropWhile p ++ tail := by
  rw [List.dropWhile_append, if_neg (by rwa [List.isEmpty_iff])]

/-- A pattern that goes on starts with the characters, other than the parenthesis, that it starts
with when it goes on. -/
theorem eq_cons_of_append {d : Char} {cs tail rest : List Char} (hd : d ≠ ')')
    (h : cs ++ ')' :: tail = d :: rest) : ∃ cs', cs = d :: cs' ∧ cs' ++ ')' :: tail = rest := by
  cases cs with
  | nil =>
    cases h
    exact (hd rfl).elim
  | cons c cs =>
    cases h
    exact ⟨cs, rfl, rfl⟩

/-! ## Flags -/

namespace Flags

theorem skip_eq (hf : f.verbose = false) (cs : List Char) : f.skip cs = cs := by
  rw [skip, hf]
  rfl

theorem takeBraced_readsOn (hf : f.verbose = false) : ReadsOn (f.takeBraced false) := by
  intro cs
  induction cs with
  | nil => exact fun _ _ _ h => nomatch h
  | cons c cs ih =>
    intro a rest tail h
    simp only [takeBraced, hf, Bool.false_and, Bool.false_eq_true, if_false, List.cons_append]
      at h ⊢
    split
    · rename_i hc
      rw [if_pos hc] at h
      cases h
      rfl
    · rename_i hc
      rw [if_neg hc] at h
      obtain ⟨⟨a', rest'⟩, ha, h⟩ := Option.map_eq_some_iff.mp h
      cases h
      rw [ih tail ha]
      rfl

end Flags

/-! ## Escapes -/

namespace Escape

theorem takeChars_readsOn (hf : f.verbose = false) (n : Nat) : ReadsOn (takeChars f n) := by
  induction n with
  | zero => exact readsOn_rest []
  | succ n ih =>
    intro cs a rest tail h
    simp only [takeChars, Flags.skip_eq hf] at h ⊢
    cases cs with
    | nil => cases h
    | cons c cs => exact ih.map (c :: ·) tail h

theorem readCodePoint_readsOn (hf : f.verbose = false) (width : Nat) :
    ReadsOn (readCodePoint f width) := by
  intro cs e rest tail h
  unfold readCodePoint at h ⊢
  rw [Flags.skip_eq hf] at h ⊢
  split at h
  · obtain ⟨⟨digits, rest'⟩, hdigits, h⟩ := Option.bind_eq_some_iff.mp h
    simp only [List.cons_append, Flags.takeBraced_readsOn hf tail hdigits, Option.bind_eq_bind,
      Option.bind_some] at h ⊢
    split at h
    · cases h
    · rename_i hempty
      rw [if_neg hempty]
      exact readsOn_check (hexChar? digits) (Escape.literal · false) tail h
  · rename_i hbrace
    have hbrace' : ∀ rest, cs ++ ')' :: tail ≠ '\x7b' :: rest := by
      intro rest he
      cases cs with
      | nil => cases he
      | cons c cs =>
        cases he
        exact hbrace _ rfl
    obtain ⟨⟨digits, rest'⟩, hdigits, h⟩ := Option.bind_eq_some_iff.mp h
    split
    · rename_i he
      exact absurd he (hbrace' _)
    · simp only [takeChars_readsOn hf width tail hdigits, Option.bind_eq_bind, Option.bind_some]
      exact readsOn_check (hexChar? digits) (Escape.literal · (width = 2)) tail h

theorem readSet_readsOn (negated : Bool) (s : Text.Intervals) : ReadsOn (readSet f negated s) := by
  intro cs e rest tail h
  unfold readSet at h ⊢
  obtain ⟨s', hs, h⟩ := Option.map_eq_some_iff.mp h
  cases h
  rw [hs]
  rfl

theorem readProperty_readsOn (hf : f.verbose = false) (negated : Bool) :
    ReadsOn (readProperty f negated) := by
  have hnext : ∀ text : List Char, ReadsOn fun rest => (Property.read? text).bind fun s =>
      if f.unicode then readSet f negated (f.folded s) rest else none := by
    intro text cs e rest tail h
    obtain ⟨s, hs, h⟩ := Option.bind_eq_some_iff.mp h
    simp only [hs, Option.bind_some]
    split at h
    · rename_i hu
      rw [if_pos hu]
      exact readSet_readsOn negated _ tail h
    · cases h
  intro cs e rest tail h
  cases cs with
  | nil => simp [readProperty, Flags.skip_eq hf] at h
  | cons c cs =>
    simp only [readProperty, Flags.skip_eq hf, List.cons_append] at h ⊢
    split at h
    · cases h
    · rename_i he
      cases he
      obtain ⟨⟨text, rest'⟩, htext, h⟩ := Option.bind_eq_some_iff.mp h
      simp only [Flags.takeBraced_readsOn hf tail htext, Option.bind_eq_bind, Option.bind_some]
      exact hnext text tail h
    · cases h
    · rename_i c' rest' hbrace hslash he
      cases he
      split
      · rename_i he
        cases he
      · rename_i he
        cases he
        exact (hbrace rfl).elim
      · rename_i he
        cases he
        exact (hslash rfl).elim
      · rename_i he
        cases he
        exact hnext _ tail h

theorem readBoundary_readsOn (hf : f.verbose = false) : ReadsOn (readBoundary f) := by
  intro cs w rest tail h
  unfold readBoundary at h ⊢
  split at h
  · rename_i inside
    simp only [Flags.skip_eq hf, List.cons_append] at h ⊢
    cases inside with
    | nil => cases h
    | cons c inside =>
      simp only [List.cons_append] at h ⊢
      split at h
      · rename_i hname
        rw [if_pos hname]
        obtain ⟨⟨name, rest'⟩, hread, h⟩ := Option.bind_eq_some_iff.mp h
        have hread' := Flags.takeBraced_readsOn hf tail hread
        rw [List.cons_append] at hread'
        simp only [hread', Option.bind_eq_bind, Option.bind_some] at h ⊢
        split at h
        · exact readsOn_rest _ tail h
        · exact readsOn_rest _ tail h
        · exact readsOn_rest _ tail h
        · exact readsOn_rest _ tail h
        · cases h
      · rename_i hname
        rw [if_neg hname]
        cases h
        rfl
  · rename_i hbrace
    cases h
    cases cs with
    | nil => rfl
    | cons c cs =>
      rw [List.cons_append]
      split
      · rename_i he
        cases he
        exact (hbrace _ rfl).elim
      · rfl

theorem read_readsOn (hf : f.verbose = false) : ReadsOn (read f) := by
  intro cs e rest tail h
  cases cs with
  | nil => cases h
  | cons c cs =>
    unfold read at h ⊢
    simp only [List.cons_append] at h ⊢
    split at h
    · exact readCodePoint_readsOn hf 2 tail h
    · exact readCodePoint_readsOn hf 4 tail h
    · exact readCodePoint_readsOn hf 8 tail h
    · exact readProperty_readsOn hf false tail h
    · exact readProperty_readsOn hf true tail h
    · exact readSet_readsOn false _ tail h
    · exact readSet_readsOn false _ tail h
    · exact readSet_readsOn false _ tail h
    · exact readSet_readsOn true _ tail h
    · exact readSet_readsOn true _ tail h
    · exact readSet_readsOn true _ tail h
    · exact readsOn_rest _ tail h
    · exact readsOn_rest _ tail h
    · exact readsOn_rest _ tail h
    · exact readsOn_rest _ tail h
    · exact readsOn_rest _ tail h
    · exact readsOn_rest _ tail h
    · exact readsOn_rest _ tail h
    · exact readsOn_rest _ tail h
    · exact (readBoundary_readsOn hf).map (fun w => Escape.assertion (.word (!f.unicode) w)) tail h
    · exact readsOn_rest _ tail h
    · exact readsOn_rest _ tail h
    · exact readsOn_rest _ tail h
    · split at h
      · rename_i hc
        simp only [hc, if_true]
        exact readsOn_rest _ tail h
      · cases h

end Escape

/-! ## Brackets -/

namespace Bracket

/-- No class has a parenthesis in its name. -/
theorem named?_paren {name : List Char} (h : ')' ∈ name) : named? (String.ofList name) = none := by
  have hne : ∀ s : String, ')' ∉ s.toList → String.ofList name ≠ s := by
    rintro s hs rfl
    rw [String.toList_ofList] at hs
    exact hs h
  unfold named?
  split <;> first | rfl | (rename_i he; exact absurd he (hne _ (by decide)))

theorem readName_append (cs tail : List Char) :
    readName (cs ++ ')' :: tail) = (readName cs).map fun x => (x.1, x.2 ++ ')' :: tail) := by
  unfold readName
  cases hdrop : cs.dropWhile (· ≠ ':') with
  | nil =>
    rw [List.dropWhile_append, List.takeWhile_append, hdrop]
    have htake : cs.takeWhile (· ≠ ':') = cs := by
      have := List.takeWhile_append_dropWhile (p := (· ≠ ':')) (l := cs)
      rwa [hdrop, List.append_nil] at this
    simp only [htake, List.isEmpty_nil, if_true]
    -- the name would hold the parenthesis
    split
    · rw [named?_paren (by simp)]
      rfl
    · rfl
  | cons x back =>
    have hfound : cs.dropWhile (· ≠ ':') ≠ [] := by rw [hdrop]; exact nofun
    rw [takeWhile_append_of_found hfound, dropWhile_append_of_found hfound, hdrop]
    cases back with
    | nil =>
      split
      · rename_i he
        cases he
      · split
        · rename_i he
          cases he
        · rfl
    | cons y back =>
      simp only [List.cons_append]
      split
      · rename_i he
        cases he
        simp [Function.comp_def]
      · rename_i hne
        split
        · rename_i he
          cases he
          exact (hne _ rfl).elim
        · rfl

theorem readNamed_of_head?_ne {cs : List Char} (h : cs.head? ≠ some '^') :
    readNamed (':' :: cs) = (readName cs).map fun x => ((x.1, false), x.2) := by
  unfold readNamed
  split
  · rename_i he
    cases he
    exact (h rfl).elim
  · rename_i he
    cases he
    rfl
  · rename_i hne
    exact (hne _ rfl).elim

theorem readNamed_append (cs tail : List Char) :
    readNamed (cs ++ ')' :: tail) = (readNamed cs).map fun x => (x.1, x.2 ++ ')' :: tail) := by
  have hother : ∀ {c : Char} (ds : List Char), c ≠ ':' → readNamed (c :: ds) = none := by
    intro c ds hc
    unfold readNamed
    split
    · rename_i he
      cases he
      exact (hc rfl).elim
    · rename_i he
      cases he
      exact (hc rfl).elim
    · rfl
  match cs with
  | [] => rfl
  | c :: cs =>
    rw [List.cons_append]
    by_cases hc : c = ':'
    · subst hc
      by_cases hcaret : cs.head? = some '^'
      · obtain ⟨ds, rfl⟩ := List.head?_eq_some_iff.mp hcaret
        show (readName (ds ++ ')' :: tail)).map _ = ((readName ds).map _).map _
        rw [readName_append]
        simp [Function.comp_def]
      · have hcaret' : (cs ++ ')' :: tail).head? ≠ some '^' := by
          cases cs with
          | nil => simp
          | cons d cs => exact hcaret
        rw [readNamed_of_head?_ne hcaret, readNamed_of_head?_ne hcaret', readName_append]
        simp [Function.comp_def]
    · rw [hother _ hc, hother _ hc]
      rfl

theorem dashes_append (hf : f.verbose = false) (b : Bracket) (cs tail : List Char) :
    dashes f false b (cs ++ ')' :: tail)
      = ((dashes f false b cs).1, (dashes f false b cs).2 ++ ')' :: tail) := by
  induction cs generalizing b with
  | nil => simp [dashes, hf]
  | cons c cs ih =>
    simp only [dashes, hf, Bool.false_and, Bool.false_eq_true, if_false, List.cons_append]
    split
    · exact ih _
    · rfl

theorem startMembers_append (hf : f.verbose = false) (negated : Bool) (cs tail : List Char) :
    startMembers f negated (cs ++ ')' :: tail)
      = ((startMembers f negated cs).1, (startMembers f negated cs).2 ++ ')' :: tail) := by
  cases cs with
  | nil => exact dashes_append hf _ [] tail
  | cons c cs =>
    by_cases hc : c = ']'
    · subst hc
      rfl
    · have hstart : ∀ ds, startMembers f negated (c :: ds)
          = dashes f false { negated } (c :: ds) := by
        intro ds
        unfold startMembers
        split
        · rename_i he
          cases he
          exact (hc rfl).elim
        · rfl
      rw [List.cons_append, hstart, hstart]
      exact dashes_append hf _ (c :: cs) tail

theorem start_append (hf : f.verbose = false) (cs tail : List Char) :
    start f (cs ++ ')' :: tail) = ((start f cs).1, (start f cs).2 ++ ')' :: tail) := by
  simp only [start, Flags.skip_eq hf]
  cases cs with
  | nil => exact startMembers_append hf false [] tail
  | cons c cs =>
    rw [List.cons_append]
    split
    · rename_i he
      cases he
      exact startMembers_append hf true cs tail
    · rename_i hcaret
      split
      · rename_i he
        cases he
        exact (hcaret _ rfl).elim
      · exact startMembers_append hf false (c :: cs) tail

theorem readMember_readsOn (hf : f.verbose = false) : ReadsOn (readMember f) := by
  intro cs e rest tail h
  cases cs with
  | nil => cases h
  | cons c cs =>
    rw [List.cons_append]
    unfold readMember at h ⊢
    split at h
    · cases h
    · rename_i he
      cases he
      exact Escape.read_readsOn hf tail h
    · rename_i hslash he
      cases he
      split
      · rename_i he
        cases he
      · rename_i he
        cases he
        exact (hslash rfl).elim
      · rename_i he
        cases he
        cases h
        rfl

theorem readRange_readsOn (hf : f.verbose = false) : ReadsOn (readRange f) := by
  intro cs s rest tail h
  unfold readRange at h ⊢
  obtain ⟨⟨first, behind⟩, hfirst, h⟩ := Option.bind_eq_some_iff.mp h
  have halone : ReadsOn fun rest => (single? f first).map (·, rest) := by
    intro ds s rest tail h
    obtain ⟨s, hs, h⟩ := Option.map_eq_some_iff.mp h
    cases h
    rw [hs]
    rfl
  simp only [readMember_readsOn hf tail hfirst, Option.bind_eq_bind, Option.bind_some,
    Flags.skip_eq hf] at h ⊢
  cases behind with
  | nil => cases h
  | cons d behind =>
    rw [List.cons_append]
    split at h
    · cases h
    · rename_i he
      cases he
      cases behind with
      | nil => simp [Flags.behindDash?, hf, readMember] at h
      | cons d behind =>
        have hdash : f.behindDash? (d :: behind ++ ')' :: tail) = f.behindDash? (d :: behind) := by
          simp [Flags.behindDash?, hf]
        simp only [hdash]
        split at h
        · rename_i halways
          rw [if_pos halways]
          exact halone tail h
        · rename_i hnever
          rw [if_neg hnever]
          obtain ⟨⟨last, rest'⟩, hlast, h⟩ := Option.bind_eq_some_iff.mp h
          simp only [readMember_readsOn hf tail hlast, Option.bind_some] at h ⊢
          split at h
          · obtain ⟨s', hs', h⟩ := Option.map_eq_some_iff.mp h
            cases h
            rw [hs']
            rfl
          · cases h
    · rename_i hnil hdash
      split
      · rename_i he
        cases he
      · rename_i he
        cases he
        exact (hdash _ rfl).elim
      · exact halone tail h

theorem readRest_readsOn (hf : f.verbose = false) {n m : Nat} (hnm : n ≤ m) {b : Bracket}
    {outer : List Bracket} {cs rest : List Char} {x : Text.Intervals × Nat} (tail : List Char)
    (h : readRest f n b outer cs = some (x, rest)) :
    readRest f m b outer (cs ++ ')' :: tail) = some (x, rest ++ ')' :: tail) := by
  induction n generalizing m b outer cs with
  | zero => cases h
  | succ n ih =>
    obtain ⟨m, rfl⟩ : ∃ k, m = k + 1 := ⟨m - 1, by omega⟩
    have hle : n ≤ m := by omega
    unfold readRest at h ⊢
    simp only [Flags.skip_eq hf] at h ⊢
    split at h
    · cases h
    · rename_i rest'
      simp only [List.cons_append, readNamed_append] at h ⊢
      cases hnamed : readNamed rest' with
      | some y =>
        obtain ⟨⟨s, negated⟩, behind⟩ := y
        simp only [hnamed, Option.map_some] at h ⊢
        obtain ⟨s', hs', h⟩ := Option.bind_eq_some_iff.mp h
        simp only [hs', Option.bind_eq_bind, Option.bind_some]
        exact ih hle h
      | none =>
        simp only [hnamed, Option.map_none, start_append hf] at h ⊢
        exact ih hle h
    · simp only [List.cons_append] at h ⊢
      obtain ⟨⟨s, depth⟩, hclose, h⟩ := Option.bind_eq_some_iff.mp h
      simp only [hclose, Option.bind_eq_bind, Option.bind_some]
      cases outer with
      | nil =>
        cases h
        rfl
      | cons up outer => exact ih hle h
    · exact ih hle h
    · exact ih hle h
    · exact ih hle h
    · rename_i hnil hopen hclose hand hdash htilde
      obtain ⟨⟨s, rest'⟩, hrange, h⟩ := Option.bind_eq_some_iff.mp h
      split
      · rename_i he
        simp at he
      · rename_i he
        obtain ⟨_, rfl, -⟩ := eq_cons_of_append (by decide) he
        exact (hopen _ rfl).elim
      · rename_i he
        obtain ⟨_, rfl, -⟩ := eq_cons_of_append (by decide) he
        exact (hclose _ rfl).elim
      · rename_i he
        obtain ⟨_, rfl, hbehind⟩ := eq_cons_of_append (by decide) he
        obtain ⟨_, rfl, -⟩ := eq_cons_of_append (by decide) hbehind
        exact (hand _ rfl).elim
      · rename_i he
        obtain ⟨_, rfl, hbehind⟩ := eq_cons_of_append (by decide) he
        obtain ⟨_, rfl, -⟩ := eq_cons_of_append (by decide) hbehind
        exact (hdash _ rfl).elim
      · rename_i he
        obtain ⟨_, rfl, hbehind⟩ := eq_cons_of_append (by decide) he
        obtain ⟨_, rfl, -⟩ := eq_cons_of_append (by decide) hbehind
        exact (htilde _ rfl).elim
      · simp only [readRange_readsOn hf tail hrange, Option.bind_eq_bind, Option.bind_some]
        exact ih hle h

theorem read_readsOn (hf : f.verbose = false) : ReadsOn (read f) := by
  intro cs x rest tail h
  unfold read at h ⊢
  simp only [start_append hf] at h ⊢
  refine readRest_readsOn hf ?_ tail h
  rw [List.length_append]
  omega

end Bracket

/-! ## Items -/

namespace Item

theorem dropBlanks_append (cs tail : List Char) :
    (cs ++ ')' :: tail).dropWhile Text.isBlank = cs.dropWhile Text.isBlank ++ ')' :: tail := by
  induction cs with
  | nil => rfl
  | cons c cs ih =>
    simp only [List.cons_append, List.dropWhile_cons]
    split
    · exact ih
    · rfl

theorem takeDigits_append (hf : f.verbose = false) (cs tail : List Char) :
    takeDigits f false (cs ++ ')' :: tail)
      = ((takeDigits f false cs).1, (takeDigits f false cs).2 ++ ')' :: tail) := by
  induction cs with
  | nil => simp [takeDigits, hf]
  | cons c cs ih =>
    simp only [takeDigits, hf, Bool.false_and, Bool.false_eq_true, if_false, List.cons_append, ih]
    split <;> rfl

theorem readCount_readsOn (hf : f.verbose = false) : ReadsOn (readCount f) := by
  intro cs n rest tail h
  unfold readCount at h ⊢
  simp only [dropBlanks_append, takeDigits_append hf] at h ⊢
  split at h
  · cases h
  · rename_i hvalid
    cases h
    rw [if_neg hvalid]

theorem readMost_readsOn (hf : f.verbose = false) (least : Nat) : ReadsOn (readMost f least) := by
  intro cs bounds rest tail h
  unfold readMost at h ⊢
  obtain ⟨⟨most, behind⟩, hmost, h⟩ := Option.bind_eq_some_iff.mp h
  simp only [readCount_readsOn hf tail hmost, Option.bind_eq_bind, Option.bind_some] at h ⊢
  split at h
  · rw [List.cons_append]
    simp only at h ⊢
    split at h
    · rename_i hle
      rw [if_pos hle]
      exact readsOn_rest _ tail h
    · cases h
  · cases h

theorem readBounds_readsOn (hf : f.verbose = false) : ReadsOn (readBounds f) := by
  intro cs bounds rest tail h
  unfold readBounds at h ⊢
  simp only [Flags.skip_eq hf] at h ⊢
  obtain ⟨⟨least, behind⟩, hleast, h⟩ := Option.bind_eq_some_iff.mp h
  simp only [readCount_readsOn hf tail hleast, Option.bind_eq_bind, Option.bind_some] at h ⊢
  split at h
  · exact readsOn_rest _ tail h
  · simp only [List.cons_append] at h ⊢
    split at h
    · exact readsOn_rest _ tail h
    · rename_i hbrace
      split
      · rename_i he
        obtain ⟨_, rfl, -⟩ := eq_cons_of_append (by decide) he
        exact (hbrace _ rfl).elim
      · exact readMost_readsOn hf least tail h
  · cases h

theorem quantified_append (least : Nat) (most : Option Nat) (cs tail : List Char) :
    quantified least most (cs ++ ')' :: tail)
      = ((quantified least most cs).1, (quantified least most cs).2 ++ ')' :: tail) := by
  by_cases h : ∃ rest, cs = '?' :: rest
  · obtain ⟨rest, rfl⟩ := h
    rfl
  · have hgreedy : ∀ cs, (∀ rest, cs ≠ '?' :: rest) →
        quantified least most cs = (.quantifier least most true, cs) := by
      intro cs h
      unfold quantified
      split
      · exact (h _ rfl).elim
      · rfl
    have h := not_exists.mp h
    rw [hgreedy cs h, hgreedy]
    intro rest he
    obtain ⟨_, rfl, -⟩ := eq_cons_of_append (by decide) he
    exact h _ rfl

theorem readGroupName_readsOn : ReadsOn readGroupName := by
  intro cs x rest tail h
  unfold readGroupName at h ⊢
  obtain ⟨behind, hbehind, h⟩ := Option.bind_eq_some_iff.mp h
  have hfound : cs.dropWhile (· ≠ '>') ≠ [] := by
    intro hnil
    rw [hnil] at hbehind
    cases hbehind
  obtain ⟨c, hdrop⟩ : ∃ c, cs.dropWhile (· ≠ '>') = c :: behind := by
    cases hcs : cs.dropWhile (· ≠ '>') with
    | nil => exact (hfound hcs).elim
    | cons c behind' =>
      rw [hcs] at hbehind
      cases hbehind
      exact ⟨c, rfl⟩
  rw [takeWhile_append_of_found hfound, dropWhile_append_of_found hfound, hdrop]
  simp only [List.cons_append, List.tail?_cons, Option.bind_eq_bind, Option.bind_some]
  split at h
  · rename_i hname
    rw [if_pos hname]
    exact readsOn_rest _ tail h
  · cases h

theorem readSetting_readsOn : ReadsOn (readSetting f) := by
  intro cs x rest tail h
  unfold readSetting at h ⊢
  obtain ⟨inside, hinside, h⟩ := Option.bind_eq_some_iff.mp h
  have hfound : cs.dropWhile (fun c => !(c == ':' || c == ')')) ≠ [] := by
    intro hnil
    simp only [hnil] at h
    cases h
  simp only [takeWhile_append_of_found hfound, dropWhile_append_of_found hfound, hinside,
    Option.bind_eq_bind, Option.bind_some] at h ⊢
  split at h
  · rename_i hcolon
    rw [hcolon]
    exact readsOn_rest _ tail h
  · rename_i hparen
    rw [hparen]
    simp only [List.cons_append] at h ⊢
    split at h
    · cases h
    · rename_i hletters
      rw [if_neg hletters]
      exact readsOn_rest _ tail h
  · cases h

theorem readGroup_readsOn (hf : f.verbose = false) : ReadsOn (readGroup f) := by
  intro cs x rest tail h
  unfold readGroup at h ⊢
  simp only [Flags.skip_eq hf] at h ⊢
  split at h
  · exact readGroupName_readsOn tail h
  · exact readGroupName_readsOn tail h
  · rename_i hlongName hname
    rw [List.cons_append]
    split
    · rename_i he
      obtain ⟨_, rfl, hbehind⟩ := eq_cons_of_append (by decide) (List.cons_eq_cons.mp he).2
      obtain ⟨_, rfl, -⟩ := eq_cons_of_append (by decide) hbehind
      exact (hlongName _ rfl).elim
    · rename_i he
      obtain ⟨_, rfl, -⟩ := eq_cons_of_append (by decide) (List.cons_eq_cons.mp he).2
      exact (hname _ rfl).elim
    · rename_i he
      cases he
      exact readSetting_readsOn tail h
    · rename_i hsetting
      exact (hsetting _ rfl).elim
  · rename_i hlongName hname hsetting
    have hplain : ∀ rest, cs ++ ')' :: tail ≠ '?' :: rest := by
      intro rest he
      obtain ⟨_, rfl, -⟩ := eq_cons_of_append (by decide) he
      exact hsetting _ rfl
    split
    · rename_i he
      exact (hplain _ he).elim
    · rename_i he
      exact (hplain _ he).elim
    · rename_i he
      exact (hplain _ he).elim
    · exact readsOn_rest _ tail h

theorem read_readsOn (hf : f.verbose = false) (c : Char) : ReadsOn (read f c) := by
  intro cs x rest tail h
  have hquantified : ∀ {least most cs x rest}, some (quantified least most cs) = some (x, rest) →
      some (quantified least most (cs ++ ')' :: tail)) = some (x, rest ++ ')' :: tail) := by
    intro least most cs x rest h
    rw [quantified_append, Option.some.inj h]
  unfold read at h ⊢
  split at h
  · exact readGroup_readsOn hf tail h
  · exact readsOn_rest _ tail h
  · exact readsOn_rest _ tail h
  · exact (Bracket.read_readsOn hf).map (fun x => Item.piece (.one x.1) x.2) tail h
  · exact hquantified h
  · exact hquantified h
  · exact hquantified h
  · obtain ⟨⟨bounds, behind⟩, hbounds, h⟩ := Option.map_eq_some_iff.mp h
    simp only [Flags.skip_eq hf] at h ⊢
    rw [readBounds_readsOn hf tail hbounds]
    exact hquantified (congrArg some h)
  · obtain ⟨s, hs, h⟩ := Option.map_eq_some_iff.mp h
    rw [hs]
    exact readsOn_rest _ tail (congrArg some h)
  · exact readsOn_rest _ tail h
  · exact readsOn_rest _ tail h
  · obtain ⟨⟨e, behind⟩, he, h⟩ := Option.bind_eq_some_iff.mp h
    simp only [Escape.read_readsOn hf tail he, Option.bind_eq_bind, Option.bind_some] at h ⊢
    exact readsOn_check (ofEscape f e) (Item.piece · 0) tail h
  · obtain ⟨r, hr, h⟩ := Option.map_eq_some_iff.mp h
    simp only [hr]
    exact readsOn_rest _ tail (congrArg some h)

end Item

end Chunkwise.Regex
