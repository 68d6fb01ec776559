import Chunkwise.Report.SyntaxError
import Mathlib.Tactic.SplitIfs

/-! What a message says can be read back from it. Quoted texts are a code in which no text is the
beginning of another one: a quote ends the text only where no backslash stands in front of it, and
what stands behind a backslash tells the character that was escaped. So it does not matter what
names and chunks consist of, nor that the message puts commas and words of its own around them. -/

namespace Chunkwise

namespace Text.Quoted

/-! ## Code points -/

theorem digitChar_inj {m n : Nat} (hm : m < 16) (hn : n < 16)
    (h : m.digitChar = n.digitChar) : m = n := by
  have hall : ∀ m < 16, ∀ n < 16, Nat.digitChar m = Nat.digitChar n → m = n := by decide
  exact hall m hm n hn h

/-- Hexadecimal digits tell the number. -/
theorem toDigits_inj {m n : Nat} (h : Nat.toDigits 16 m = Nat.toDigits 16 n) : m = n := by
  have hlonger : ∀ {k : Nat} {d e : Char}, Nat.toDigits 16 k ++ [d] ≠ [e] := by
    intro k d e he
    have hne : Nat.toDigits 16 k = [] := (List.append_eq_singleton_iff.mp he).elim
      (·.1) fun h => absurd h.2 (by simp)
    exact Nat.toDigits_ne_nil hne
  induction m using Nat.strongRecOn generalizing n with
  | ind m ih =>
    by_cases hm : m < 16
    · rw [Nat.toDigits_of_lt_base hm] at h
      by_cases hn : n < 16
      · rw [Nat.toDigits_of_lt_base hn] at h
        exact digitChar_inj hm hn (List.singleton_inj.mp h)
      · rw [Nat.toDigits_of_base_le (by decide) (Nat.le_of_not_lt hn)] at h
        exact absurd h.symm hlonger
    · rw [Nat.toDigits_of_base_le (by decide) (Nat.le_of_not_lt hm)] at h
      by_cases hn : n < 16
      · rw [Nat.toDigits_of_lt_base hn] at h
        exact absurd h hlonger
      · rw [Nat.toDigits_of_base_le (by decide) (Nat.le_of_not_lt hn)] at h
        obtain ⟨hdigits, hlast⟩ := List.append_inj' h rfl
        have hdiv := ih (m / 16) (by omega) hdigits
        have hmod : m % 16 = n % 16 := digitChar_inj (Nat.mod_lt _ (by decide))
          (Nat.mod_lt _ (by decide)) (List.singleton_inj.mp hlast)
        omega

/-- A hexadecimal number has no brace in it. -/
theorem brace_notMem_toDigits (n : Nat) : '\x7d' ∉ Nat.toDigits 16 n := by
  induction n using Nat.strongRecOn with
  | ind n ih =>
    have hdigit : ∀ m : Nat, '\x7d' ∉ [m.digitChar] := fun m hm =>
      Nat.digitChar_ne '\x7d' (by decide) (List.mem_singleton.mp hm).symm
    by_cases hn : n < 16
    · rw [Nat.toDigits_of_lt_base hn]
      exact hdigit n
    · rw [Nat.toDigits_of_base_le (by decide) (Nat.le_of_not_lt hn), List.mem_append]
      exact not_or.mpr ⟨ih (n / 16) (by omega), hdigit _⟩

/-- What stands in front of the first `a`, and what stands behind it. -/
theorem split_at_first {α : Type} {a : α} : ∀ {xs ys r r' : List α}, a ∉ xs → a ∉ ys →
    xs ++ a :: r = ys ++ a :: r' → xs = ys ∧ r = r'
  | [], [], _, _, _, _, h => ⟨rfl, (List.cons.inj h).2⟩
  | [], y :: ys, _, _, _, hy, h => absurd ((List.cons.inj h).1 ▸ List.mem_cons_self) hy
  | x :: xs, [], _, _, hx, _, h => absurd ((List.cons.inj h).1 ▸ List.mem_cons_self) hx
  | x :: xs, y :: ys, r, r', hx, hy, h => by
    obtain ⟨rfl, htail⟩ := List.cons.inj h
    obtain ⟨rfl, hr⟩ := split_at_first (List.not_mem_of_not_mem_cons hx)
      (List.not_mem_of_not_mem_cons hy) htail
    exact ⟨rfl, hr⟩

theorem codePoint_append_inj {c d : Char} {r r' : List Char}
    (h : codePoint c ++ r = codePoint d ++ r') : c = d ∧ r = r' := by
  simp only [codePoint, List.append_assoc, List.cons_append, List.nil_append, List.cons.injEq,
    true_and] at h
  obtain ⟨hdigits, hr⟩ := split_at_first (brace_notMem_toDigits _) (brace_notMem_toDigits _) h
  exact ⟨Char.toNat_inj.mp (toDigits_inj hdigits), hr⟩

/-! ## Escapes -/

/-- The character that a letter behind a backslash stands for. -/
def unmark : Char → Char
  | 'n' => '\n'
  | 'r' => '\r'
  | 't' => '\t'
  | '0' => '\x00'
  | c => c

/-- How a character can stand between the quotes: as itself, by a letter behind a backslash, or by
its code point. -/
inductive Stands (c : Char) : List Char → Prop
  | plain : c ≠ '"' → c ≠ '\\' → Stands c [c]
  | marked {mark : Char} : mark ≠ 'u' → unmark mark = c → Stands c ['\\', mark]
  | numbered : Stands c (codePoint c)

theorem stands_escape (c : Char) : Stands c (escape c) := by
  unfold escape
  split_ifs with hquote hslash hnewline hreturn htab hnull hvisible
  · exact .marked (by decide) hquote.symm
  · exact .marked (by decide) hslash.symm
  · exact .marked (by decide) hnewline.symm
  · exact .marked (by decide) hreturn.symm
  · exact .marked (by decide) htab.symm
  · exact .marked (by decide) hnull.symm
  · exact .plain hquote hslash
  · exact .numbered

/-- No character is taken for the closing quote. -/
theorem Stands.head {c : Char} {cs : List Char} (h : Stands c cs) :
    ∃ first rest, cs = first :: rest ∧ first ≠ '"' := by
  cases h with
  | plain hquote _ => exact ⟨c, [], rfl, hquote⟩
  | marked _ _ => exact ⟨_, _, rfl, by decide⟩
  | numbered => exact ⟨_, _, rfl, by decide⟩

/-- How a character stands tells the character, whatever follows. -/
theorem Stands.inj {c d : Char} {cs ds r r' : List Char} (hc : Stands c cs) (hd : Stands d ds)
    (h : cs ++ r = ds ++ r') : c = d ∧ r = r' := by
  cases hc with
  | plain _ hc =>
    cases hd with
    | plain _ _ => exact List.cons.inj h
    | marked _ _ => exact absurd (List.cons.inj h).1 hc
    | numbered => exact absurd (List.cons.inj h).1 hc
  | marked hmark hc =>
    cases hd with
    | plain _ hd => exact absurd (List.cons.inj h).1.symm hd
    | marked _ hd =>
      obtain ⟨rfl, hr⟩ := List.cons.inj (List.cons.inj h).2
      exact ⟨hc.symm.trans hd, hr⟩
    | numbered => exact absurd (List.cons.inj (List.cons.inj h).2).1 hmark
  | numbered =>
    cases hd with
    | plain _ hd => exact absurd (List.cons.inj h).1.symm hd
    | marked hmark _ => exact absurd (List.cons.inj (List.cons.inj h).2).1.symm hmark
    | numbered => exact codePoint_append_inj h

theorem encode_cons (c : Char) (cs : List Char) : encode (c :: cs) = escape c ++ encode cs :=
  List.flatMap_cons

theorem encode_cons_ne_quote {c : Char} {cs r r' : List Char} :
    encode (c :: cs) ++ r ≠ '"' :: r' := by
  obtain ⟨first, rest, he, hne⟩ := (stands_escape c).head
  rw [encode_cons, he]
  intro h
  exact hne (List.cons.inj h).1

/-- The first quote that is not escaped ends the text. -/
theorem encode_append_inj : ∀ {cs ds r r' : List Char},
    encode cs ++ '"' :: r = encode ds ++ '"' :: r' → cs = ds ∧ r = r'
  | [], [], _, _, h => ⟨rfl, (List.cons.inj h).2⟩
  | [], _ :: _, _, _, h => absurd h.symm encode_cons_ne_quote
  | _ :: _, [], _, _, h => absurd h encode_cons_ne_quote
  | c :: cs, d :: ds, r, r', h => by
    rw [encode_cons, encode_cons, List.append_assoc, List.append_assoc] at h
    obtain ⟨rfl, hrest⟩ := (stands_escape c).inj (stands_escape d) h
    obtain ⟨rfl, hr⟩ := encode_append_inj hrest
    exact ⟨rfl, hr⟩

end Text.Quoted

namespace Text

theorem toList_quoted (s : String) :
    (quoted s).toList = '"' :: (Quoted.encode s.toList ++ ['"']) := by
  rw [quoted, String.toList_ofList]
  rfl

/-- A quoted text tells the text, whatever follows. -/
theorem quoted_append_inj {s t : String} {r r' : List Char}
    (h : (quoted s).toList ++ r = (quoted t).toList ++ r') : s = t ∧ r = r' := by
  simp only [toList_quoted, List.cons_append, List.append_assoc, List.nil_append,
    List.cons.injEq, true_and] at h
  obtain ⟨hs, hr⟩ := Quoted.encode_append_inj h
  exact ⟨String.toList_inj.mp hs, hr⟩

end Text

namespace SyntaxError

/-- No quoted text is taken for the end of the input, which stands without quotes. -/
theorem quoted_ne_eof {s : String} {r r' : List Char} :
    (Text.quoted s).toList ++ r ≠ "EOF".toList ++ r' := by
  rw [Text.toList_quoted]
  intro h
  exact absurd (List.cons.inj h).1 (by decide)

theorem showName_append_inj {name name' : String} {r r' : List Char}
    (h : (showName name).toList ++ r = (showName name').toList ++ r') : name = name' ∧ r = r' := by
  unfold showName at h
  split at h
  · rename_i hname
    split at h
    · rename_i hname'
      subst hname hname'
      exact ⟨rfl, List.append_cancel_left h⟩
    · rw [hname] at h
      exact absurd h.symm quoted_ne_eof
  · split at h
    · rename_i hname'
      rw [hname'] at h
      exact absurd h quoted_ne_eof
    · exact Text.quoted_append_inj h

theorem showFound_inj {found found' : Option String}
    (h : (showFound found).toList = (showFound found').toList) : found = found' := by
  rw [← List.append_nil (showFound found).toList, ← List.append_nil (showFound found').toList] at h
  cases found with
  | none =>
    cases found' with
    | none => rfl
    | some chunk' => exact absurd h.symm quoted_ne_eof
  | some chunk =>
    cases found' with
    | none => exact absurd h quoted_ne_eof
    | some chunk' => exact congrArg some (Text.quoted_append_inj h).1

/-- What is said tells what was wanted and what was found. -/
theorem describe_inj {expected expected' found found' : Option String}
    (h : describe expected found = describe expected' found') :
    expected = expected' ∧ found = found' := by
  replace h := congrArg String.toList h
  cases expected with
  | some name =>
    cases expected' with
    | some name' =>
      simp only [describe, String.toList_append, List.append_assoc] at h
      obtain ⟨rfl, hfound⟩ := showName_append_inj (List.append_cancel_left h)
      exact ⟨rfl, showFound_inj (List.append_cancel_left hfound)⟩
    | none =>
      simp only [describe, String.toList_append, List.append_assoc] at h
      exact absurd (List.cons.inj h).1 (by decide)
  | none =>
    cases expected' with
    | some name' =>
      simp only [describe, String.toList_append, List.append_assoc] at h
      exact absurd (List.cons.inj h).1 (by decide)
    | none =>
      simp only [describe, String.toList_append] at h
      exact ⟨rfl, showFound_inj (List.append_cancel_left h)⟩

/-- **A message is unambiguous.** Two errors, each over chunks and a token of its own, have the
same message only if the same name was wanted and the same chunk was found. -/
theorem messages_are_unambiguous (chunks chunks' : Chunks) (f f' : Failure) :
    (ofFailure chunks f).message = (ofFailure chunks' f').message ↔
      (ofFailure chunks f).expected = (ofFailure chunks' f').expected ∧
        (ofFailure chunks f).found = (ofFailure chunks' f').found := by
  constructor
  · intro h
    exact describe_inj h
  · rintro ⟨hexpected, hfound⟩
    show describe _ _ = describe _ _
    exact congr (congrArg describe hexpected) hfound

end SyntaxError

end Chunkwise
