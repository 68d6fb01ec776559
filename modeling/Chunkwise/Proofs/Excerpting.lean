import Chunkwise.Proofs.Locating
import Mathlib.Data.List.DropRight

/-! What an excerpt shows. Read line by line, an excerpt has the line of the error, the line above
it unless that is blank, and below it the carets, all behind gutters of one width. The carets stand
below the chunk and end with the line as it stands in the text; the line that is shown can end
before them, where it ends with carriage returns that the chunk reaches. -/

namespace Chunkwise

namespace Excerpt

/-! ## The lines of a text -/

/-- The lines of a text, without the newlines between them. -/
def lines (text : String) : List (List Char) := text.toList.splitOn '\n'

/-- A line of a text, by its number from one on. -/
def lineAt (text : String) (number : Nat) : List Char := (lines text).getD (number - 1) []

/-- A line of a text without the carriage returns at its end. -/
def shown (text : String) (number : Nat) : List Char := (lineAt text number).rdropWhile (· = '\r')

theorem length_splitOn (cs : List Char) : (cs.splitOn '\n').length = lineNumber cs := by
  induction cs with
  | nil => rfl
  | cons c cs ih =>
    rw [List.splitOn_cons_eq_if_modifyHead, lineNumber, List.count_cons]
    split
    · rw [List.length_cons, ih, lineNumber]
    · rw [List.length_modifyHead, ih, lineNumber]

theorem lineTail_append {head : List Char} (h : '\n' ∉ head) (after : List Char) :
    lineTail (head ++ after) = head ++ lineTail after := by
  refine List.takeWhile_append_of_pos fun c hc => ?_
  exact ne_newline_of_notMem h c (List.mem_reverse.mpr hc)

theorem lineTail_initial (cs more : List Char) : lineTail cs <+: lineTail (cs ++ more) := by
  unfold lineTail
  rw [List.takeWhile_append]
  split
  · rename_i hall
    rw [takeWhile_of_length hall]
    exact ⟨_, rfl⟩
  · exact ⟨[], List.append_nil _⟩

/-- The first line of a text ends where its first newline stands. -/
theorem splitOn_first (cs : List Char) : (cs.splitOn '\n')[0]? = some (lineTail cs) := by
  induction cs with
  | nil => rfl
  | cons c cs ih =>
    rw [List.splitOn_cons_eq_if_modifyHead]
    by_cases hc : c = '\n'
    · rw [hc]
      rfl
    · have hne : (c == '\n') = false := beq_eq_false_iff_ne.mpr hc
      have hcs : '\n' ∉ [c] := fun hmem => hc (List.mem_singleton.mp hmem).symm
      have htail : lineTail (c :: cs) = c :: lineTail cs := lineTail_append hcs cs
      rw [hne, if_neg Bool.false_ne_true, List.getElem?_modifyHead_zero, ih, htail]
      rfl

/-- The line of a place has what stands on it in front of the place and behind it. -/
theorem splitOn_place (before after : List Char) :
    ((before ++ after).splitOn '\n')[lineNumber before - 1]?
      = some (lineHead before ++ lineTail after) := by
  rcases place_cases before with h | ⟨earlier, head, rfl, hhead⟩
  · have hline : lineNumber before - 1 = 0 := by
      simpa [lineNumber] using List.count_eq_zero.mpr h
    rw [hline, splitOn_first, lineTail_append h, lineHead_of_notMem h]
  · have hlength := length_splitOn earlier
    rw [lineNumber_newline earlier hhead, Nat.add_sub_cancel, List.append_assoc, List.cons_append,
      List.splitOn_append_cons_self, List.getElem?_append_right (Nat.le_of_eq hlength), hlength,
      Nat.sub_self, splitOn_first, lineTail_append hhead, lineHead_newline,
      lineHead_of_notMem hhead]

variable {text : String} {before after : List Char}

theorem line_place (h : text.toList = before ++ after) :
    lineAt text (lineNumber before) = lineHead before ++ lineTail after := by
  rw [lineAt, lines, h, List.getD_eq_getElem?_getD, splitOn_place]
  rfl

theorem lineNumber_le (h : text.toList = before ++ after) :
    lineNumber before ≤ (lines text).length := by
  have hplace := splitOn_place before after
  rw [← h] at hplace
  have := (List.getElem?_eq_some_iff.mp hplace).1
  have hpos : 0 < lineNumber before := Nat.succ_pos _
  unfold lines
  omega

theorem newline_notMem_line (h : text.toList = before ++ after) :
    '\n' ∉ lineAt text (lineNumber before) := by
  rw [line_place h]
  intro hmem
  rcases List.mem_append.mp hmem with hm | hm
  · exact newline_notMem_lineHead before hm
  · simpa using List.mem_takeWhile_imp hm

/-- The line above a place is that of the end of the line before. -/
theorem previousLine?_place (h : text.toList = before ++ after) :
    (lineNumber before = 1 ∧ previousLine? before = none) ∨
    (2 ≤ lineNumber before ∧ '\n' ∉ lineAt text (lineNumber before - 1) ∧
      previousLine? before = some (lineAt text (lineNumber before - 1))) := by
  rcases place_cases before with hb | ⟨earlier, head, rfl, hhead⟩
  · refine .inl ⟨?_, previousLine?_of_notMem hb⟩
    rw [lineNumber, List.count_eq_zero.mpr hb]
  · have htext : text.toList = earlier ++ '\n' :: (head ++ after) := by
      rw [h, List.append_assoc, List.cons_append]
    have hline := line_place htext
    have hnewline := newline_notMem_line htext
    have hnumber := lineNumber_newline earlier hhead
    refine .inr ⟨?_, ?_, ?_⟩
    · rw [hnumber]
      exact Nat.succ_le_succ (Nat.succ_pos _)
    · rwa [hnumber, Nat.add_sub_cancel]
    · rw [hnumber, Nat.add_sub_cancel, hline, previousLine?_newline earlier hhead]
      simp [lineTail]

/-! ## The rows of an excerpt -/

/-- A row of an excerpt: a gutter, right-aligned, and what stands beside it. -/
def beside (width : Nat) (gutter : String) (content : List Char) : List Char :=
  gutter.toList.leftpad width ' ' ++ " | ".toList ++ content

theorem toList_row (width : Nat) (gutter : String) (content : List Char) :
    (row width gutter content).toList = beside width gutter content := by
  simp [row, beside, List.leftpad, String.length_toList]

/-- What is in the gutter of a row: blanks, digits and nothing else. -/
theorem mem_gutter {width : Nat} {number : Nat} {c : Char}
    (h : c ∈ (toString number).toList.leftpad width ' ') : c = ' ' ∨ c.isDigit = true := by
  rw [List.leftpad, Nat.toString_eq_ofList_toDigits, String.toList_ofList] at h
  rcases List.mem_append.mp h with hm | hm
  · exact .inl (List.eq_of_mem_replicate hm)
  · exact .inr (Nat.isDigit_of_mem_toDigits (by decide) (by decide) hm)

theorem newline_notMem_shown {number : Nat} (h : '\n' ∉ lineAt text number) :
    '\n' ∉ shown text number := by
  have hshown : shown text number <+: lineAt text number := List.rdropWhile_prefix _ _
  exact fun hmem => h (hshown.mem hmem)

theorem newline_notMem_beside {width number : Nat} {content : List Char} (h : '\n' ∉ content) :
    '\n' ∉ beside width (toString number) content := by
  intro hmem
  rcases List.mem_append.mp hmem with hm | hm
  · rcases List.mem_append.mp hm with hm | hm
    · rcases mem_gutter hm with hc | hc <;> exact absurd hc (by decide)
    · exact absurd hm (by decide)
  · exact h hm

theorem length_toString_le {m n : Nat} (h : m ≤ n) : (toString m).length ≤ (toString n).length := by
  rw [Nat.toString_eq_ofList_toDigits, Nat.toString_eq_ofList_toDigits, String.length_ofList,
    String.length_ofList, Nat.length_toDigits_le_iff (by decide) Nat.length_toDigits_pos]
  have := (Nat.length_toDigits_le_iff (b := 10) (n := n) (by decide) Nat.length_toDigits_pos).mp
    (Nat.le_refl _)
  omega

theorem length_leftpad_toString {m n : Nat} (h : m ≤ n) :
    ((toString m).toList.leftpad (toString n).length ' ').length = (toString n).length := by
  rw [List.length_leftpad, String.length_toList]
  exact Nat.max_eq_left (length_toString_le h)

/-- The row above that of a line, unless what it would show is blank. -/
def rowsAbove (text : String) (number : Nat) : List (List Char) :=
  if 2 ≤ number ∧ shown text (number - 1) ≠ [] then
    [beside (toString number).length (toString (number - 1)) (shown text (number - 1))]
  else []

/-- The row with the carets. -/
def caretRow (number column carets : Nat) : List Char :=
  beside (toString number).length ""
    (List.replicate (column - 1) ' ' ++ List.replicate carets '^')

theorem newline_notMem_caretRow (number column carets : Nat) :
    '\n' ∉ caretRow number column carets := by
  simp [caretRow, beside, List.leftpad, List.mem_replicate]

theorem lines_intercalate {rows : List String} {rows' : List (List Char)}
    (hrows : rows.map String.toList = rows') (hne : rows' ≠ []) (h : ∀ r ∈ rows', '\n' ∉ r) :
    lines ("\n".intercalate rows) = rows' := by
  rw [lines, String.toList_intercalate, hrows]
  exact List.splitOn_intercalate '\n' h hne

/-- An excerpt is written in rows, with those in front that are above its line. -/
theorem render_rows (h : text.toList = before ++ after) (carets : Nat) :
    ∃ above : List String, above.map String.toList = rowsAbove text (lineNumber before) ∧
      render before after carets = "\n".intercalate (above
        ++ [row (toString (lineNumber before)).length (toString (lineNumber before))
            (trimReturns (lineHead before ++ lineTail after)),
          row (toString (lineNumber before)).length ""
            (List.replicate (lineHead before).length ' ' ++ List.replicate carets '^')]) := by
  refine ⟨_, ?_, rfl⟩
  rcases previousLine?_place h with ⟨hnumber, hnone⟩ | ⟨hnumber, _, hsome⟩
  · rw [hnone, hnumber]
    rfl
  · have htrim : trimReturns (lineAt text (lineNumber before - 1))
        = shown text (lineNumber before - 1) := rfl
    rw [hsome, Option.map_some, htrim, rowsAbove]
    cases hshown : shown text (lineNumber before - 1) with
    | nil => simp
    | cons c cs =>
      rw [if_pos ⟨hnumber, List.cons_ne_nil c cs⟩, List.map_singleton, toList_row]

theorem newline_notMem_rowsAbove (h : text.toList = before ++ after) :
    ∀ r ∈ rowsAbove text (lineNumber before), '\n' ∉ r := by
  intro r hr
  rw [rowsAbove] at hr
  split at hr
  · rename_i hnumber
    rcases previousLine?_place h with ⟨hone, _⟩ | ⟨_, hline, _⟩
    · omega
    · rw [List.mem_singleton.mp hr]
      exact newline_notMem_beside (newline_notMem_shown hline)
  · cases hr

theorem lines_render (h : text.toList = before ++ after) (carets : Nat) :
    lines (render before after carets)
      = rowsAbove text (lineNumber before)
        ++ [beside (toString (lineNumber before)).length (toString (lineNumber before))
            (shown text (lineNumber before)),
          caretRow (lineNumber before) (column before) carets] := by
  obtain ⟨above, habove, hrender⟩ := render_rows h carets
  have hshown : trimReturns (lineHead before ++ lineTail after)
      = shown text (lineNumber before) := by
    rw [shown, line_place h]
    rfl
  rw [hrender, hshown]
  refine lines_intercalate ?_ (by simp) ?_
  · rw [List.map_append, habove]
    simp only [List.map_cons, List.map_nil, toList_row]
    rfl
  · intro r hr
    rcases List.mem_append.mp hr with hr | hr
    · exact newline_notMem_rowsAbove h r hr
    · rcases List.mem_cons.mp hr with hr | hr
      · rw [hr]
        exact newline_notMem_beside (newline_notMem_shown (newline_notMem_line h))
      · rw [List.mem_singleton.mp hr]
        exact newline_notMem_caretRow _ _ _

/-! ## The carets and the line above them -/

/-- The carets of an excerpt, which stand in its last row. -/
def carets (excerpt : String) : Nat := ((lines excerpt).getLastD []).count '^'

/-- The line above the carets of an excerpt, without its gutter. -/
def displayed (excerpt : String) : List Char :=
  (((lines excerpt).dropLast.getLastD []).dropWhile (· ≠ '|')).drop 2

theorem drop_gutter (width number : Nat) (content : List Char) :
    ((beside width (toString number) content).dropWhile (· ≠ '|')).drop 2 = content := by
  have hgutter : ∀ c ∈ (toString number).toList.leftpad width ' ', decide (c ≠ '|') = true := by
    intro c hc
    refine decide_eq_true fun he => ?_
    rcases mem_gutter hc with hblank | hdigit
    · exact absurd (he.symm.trans hblank) (by decide)
    · exact absurd (he ▸ hdigit) (by decide)
  rw [beside, List.append_assoc, List.dropWhile_append_of_pos hgutter]
  rfl

theorem count_caretRow (number column carets : Nat) :
    (caretRow number column carets).count '^' = carets := by
  simp [caretRow, beside, List.leftpad, List.count_replicate]

/-- What is left when characters of one kind are taken off the end reaches to the last character
of another. -/
theorem lt_length_rdropWhile (p : Char → Bool) (n : Nat) (cs : List Char) :
    n < (cs.rdropWhile p).length ↔ ∃ c ∈ cs.drop n, p c = false := by
  have hsplit : cs.rdropWhile p ++ cs.rtakeWhile p = cs := List.rdropWhile_append_rtakeWhile
  constructor
  · intro hn
    have hne : cs.rdropWhile p ≠ [] := List.length_pos_iff.mp (Nat.zero_lt_of_lt hn)
    refine ⟨(cs.rdropWhile p).getLast hne, ?_, by simpa using List.rdropWhile_last_not p cs hne⟩
    have hdrop : (cs.rdropWhile p).drop n ≠ [] := by simpa using hn
    have hmem := List.mem_append_left (cs.rtakeWhile p) (List.getLast_mem hdrop)
    rwa [List.getLast_drop, ← List.drop_append_of_le_length (Nat.le_of_lt hn), hsplit] at hmem
  · rintro ⟨c, hc, hp⟩
    by_contra hn
    rw [← hsplit, List.drop_append, List.drop_of_length_le (Nat.le_of_not_lt hn),
      List.nil_append] at hc
    rw [List.mem_rtakeWhile_imp (List.mem_of_mem_drop hc)] at hp
    cases hp

/-- Behind what stands in front of its last character, a part of a line goes on with it. -/
theorem mem_drop_getLast? {head part more : List Char} {c : Char} (h : part.getLast? = some c) :
    c ∈ (head ++ (part ++ more)).drop (head.length + part.length - 1) := by
  obtain ⟨init, rfl⟩ := List.getLast?_eq_some_iff.mp h
  have hline : head ++ (init ++ [c] ++ more) = (head ++ init) ++ c :: more := by simp
  have hlength : head.length + (init ++ [c]).length - 1 = (head ++ init).length := by
    simp only [List.length_append, List.length_singleton]
    omega
  rw [hline, hlength, List.drop_left]
  exact List.mem_cons_self

end Excerpt

namespace SyntaxError

open Excerpt

/-- What the excerpt of an error shows of a text: the line above that of the error, unless it is
blank, the line itself, and carets below the chunk. -/
structure ShowsLines (e : SyntaxError) (text : String) : Prop where
  line_pos : 0 < e.line
  line_le : e.line ≤ (lines text).length
  rows : lines e.excerpt = rowsAbove text e.line
    ++ [beside (toString e.line).length (toString e.line) (shown text e.line),
      caretRow e.line e.column (max 1 ((e.found.getD "").toList.takeWhile (· ≠ '\n')).length)]
  two_or_three : (lines e.excerpt).length = 2 ∨ (lines e.excerpt).length = 3
  gutters : ∀ r ∈ lines e.excerpt, ∃ gutter content, r = gutter ++ " | ".toList ++ content ∧
    gutter.length = (toString e.line).length

theorem excerpt_ofFailure (chunks : Chunks) (f : Failure) :
    (ofFailure chunks f).excerpt = Excerpt.render (chunks.before (place chunks f)).toList
      (String.join (chunks.pieces.toList.drop (place chunks f))).toList
      (width (chunks.get? (place chunks f))) := by
  rw [ofFailure]

theorem lines_excerpt (chunks : Chunks) (f : Failure) :
    lines (ofFailure chunks f).excerpt
      = rowsAbove chunks.text (ofFailure chunks f).line
        ++ [beside (toString (ofFailure chunks f).line).length (toString (ofFailure chunks f).line)
            (shown chunks.text (ofFailure chunks f).line),
          caretRow (ofFailure chunks f).line (ofFailure chunks f).column
            (width (ofFailure chunks f).found)] := by
  rw [excerpt_ofFailure]
  exact lines_render (chunks.toList_text (place chunks f)) (width (chunks.get? (place chunks f)))

/-- **The excerpt shows the lines around the error**, numbered and in two or three rows. -/
theorem excerpt_shows_lines (chunks : Chunks) (f : Failure) :
    (ofFailure chunks f).ShowsLines chunks.text where
  line_pos := Nat.succ_pos _
  line_le := lineNumber_le (chunks.toList_text (place chunks f))
  rows := lines_excerpt chunks f
  two_or_three := by
    rw [lines_excerpt, List.length_append, rowsAbove]
    split
    · exact .inr rfl
    · exact .inl rfl
  gutters := by
    intro r hr
    rw [lines_excerpt] at hr
    rcases List.mem_append.mp hr with hr | hr
    · rw [rowsAbove] at hr
      split at hr
      · rw [List.mem_singleton.mp hr]
        exact ⟨_, _, rfl, length_leftpad_toString (Nat.sub_le _ 1)⟩
      · cases hr
    · rcases List.mem_cons.mp hr with hr | hr
      · exact ⟨_, _, hr, length_leftpad_toString (Nat.le_refl _)⟩
      · rw [List.mem_singleton.mp hr]
        refine ⟨_, _, rfl, ?_⟩
        rw [List.length_leftpad]
        exact Nat.max_eq_left (Nat.zero_le _)

/-! ## How far the carets reach -/

theorem displayed_excerpt (chunks : Chunks) (f : Failure) :
    displayed (ofFailure chunks f).excerpt = shown chunks.text (ofFailure chunks f).line := by
  rw [displayed, lines_excerpt, List.dropLast_append_of_ne_nil (by simp)]
  simp only [List.dropLast, List.getLastD_concat, drop_gutter]

theorem carets_excerpt (chunks : Chunks) (f : Failure) :
    carets (ofFailure chunks f).excerpt = width (ofFailure chunks f).found := by
  rw [carets, lines_excerpt, List.append_cons, List.getLastD_concat, count_caretRow]

/-- How far the carets of an error reach below a text: not beyond the line, and not beyond what is
shown of it unless it ends with carriage returns from the last caret on. -/
structure Underlines (e : SyntaxError) (text : String) : Prop where
  on_line : carets e.excerpt = 1 ∨
    e.column - 1 + carets e.excerpt ≤ (lineAt text e.line).length
  on_displayed_iff : e.column - 1 + carets e.excerpt ≤ (displayed e.excerpt).length ↔
    ∃ c ∈ (lineAt text e.line).drop (e.column + carets e.excerpt - 2), c ≠ '\r'
  on_displayed : ((e.found.getD "").toList.takeWhile (· ≠ '\n')).getLast? ≠ some '\r' →
    carets e.excerpt = 1 ∨ e.column - 1 + carets e.excerpt ≤ (displayed e.excerpt).length

/-- The line of an error has the chunk, as far as it lies on the line, behind its head. -/
theorem lineAt_ofFailure (chunks : Chunks) (f : Failure) :
    ∃ more, lineAt chunks.text (ofFailure chunks f).line
      = lineHead (chunks.before (place chunks f)).toList
        ++ (lineTail ((ofFailure chunks f).found.getD "").toList ++ more) := by
  have hplace := line_place (chunks.toList_text (place chunks f))
  rw [chunks.join_drop, String.toList_append] at hplace
  obtain ⟨more, hmore⟩ := lineTail_initial ((chunks.get? (place chunks f)).getD "").toList
    (String.join (chunks.pieces.toList.drop (place chunks f + 1))).toList
  refine ⟨more, hplace.trans ?_⟩
  rw [← hmore]
  rfl

/-- **The carets end with the line.** More than one caret do not reach beyond the line of the text,
nor beyond what is shown of it, if the chunk does not end with a carriage return there; and they
reach beyond what is shown exactly if nothing but carriage returns stands from the last of them
on. -/
theorem underline_ends_on_line (chunks : Chunks) (f : Failure) :
    (ofFailure chunks f).Underlines chunks.text := by
  obtain ⟨more, hline⟩ := lineAt_ofFailure chunks f
  have hcolumn : (ofFailure chunks f).column
      = (lineHead (chunks.before (place chunks f)).toList).length + 1 := rfl
  have hwidth : width (ofFailure chunks f).found
      = max 1 (lineTail ((ofFailure chunks f).found.getD "").toList).length := rfl
  have hiff : (ofFailure chunks f).column - 1 + carets (ofFailure chunks f).excerpt
        ≤ (displayed (ofFailure chunks f).excerpt).length ↔
      ∃ c ∈ (lineAt chunks.text (ofFailure chunks f).line).drop
        ((ofFailure chunks f).column + carets (ofFailure chunks f).excerpt - 2), c ≠ '\r' := by
    have hlt := lt_length_rdropWhile (fun c => decide (c = '\r'))
      ((ofFailure chunks f).column + carets (ofFailure chunks f).excerpt - 2)
      (lineAt chunks.text (ofFailure chunks f).line)
    simp only [decide_eq_false_iff_not] at hlt
    rw [← hlt, displayed_excerpt, carets_excerpt, shown]
    omega
  refine ⟨?_, hiff, fun hlast => ?_⟩
  · rw [carets_excerpt, hline, List.length_append, List.length_append]
    omega
  · by_cases hone : carets (ofFailure chunks f).excerpt = 1
    · exact .inl hone
    rw [carets_excerpt] at hone
    have hlong : 1 < (lineTail ((ofFailure chunks f).found.getD "").toList).length := by omega
    have hne : lineTail ((ofFailure chunks f).found.getD "").toList ≠ [] :=
      List.length_pos_iff.mp (Nat.lt_of_succ_lt hlong)
    have hgetLast := List.getLast?_eq_some_getLast hne
    have hindex : (ofFailure chunks f).column + width (ofFailure chunks f).found - 2
        = (lineHead (chunks.before (place chunks f)).toList).length
          + (lineTail ((ofFailure chunks f).found.getD "").toList).length - 1 := by omega
    refine .inr (hiff.mpr ⟨_, ?_, fun hreturn => hlast (hreturn ▸ hgetLast)⟩)
    rw [carets_excerpt, hline, hindex]
    exact mem_drop_getLast? hgetLast

/-- The chunk that the carets stand below goes on behind the end of the line, where they stop. -/
theorem underline_ends_on_line_newline :
    ((((ofFailure ⟨#["x", ";", "ab\ncd"]⟩ ⟨2, .eof⟩).found.getD "").toList.takeWhile
        (· ≠ '\n')).getLast? ≠ some '\r') ∧
    carets (ofFailure ⟨#["x", ";", "ab\ncd"]⟩ ⟨2, .eof⟩).excerpt = 2 ∧
    (ofFailure ⟨#["x", ";", "ab\ncd"]⟩ ⟨2, .eof⟩).column - 1 + 2
      ≤ (displayed (ofFailure ⟨#["x", ";", "ab\ncd"]⟩ ⟨2, .eof⟩).excerpt).length := by
  have hlast : (((ofFailure ⟨#["x", ";", "ab\ncd"]⟩ ⟨2, .eof⟩).found.getD "").toList.takeWhile
      (· ≠ '\n')).getLast? ≠ some '\r' := by decide
  have hcarets : carets (ofFailure ⟨#["x", ";", "ab\ncd"]⟩ ⟨2, .eof⟩).excerpt = 2 := by
    rw [carets_excerpt]
    decide
  refine ⟨hlast, hcarets, ?_⟩
  rcases (underline_ends_on_line ⟨#["x", ";", "ab\ncd"]⟩ ⟨2, .eof⟩).on_displayed hlast with h | h
  · rw [hcarets] at h
    cases h
  · rwa [hcarets] at h

/-- The carriage return at the end of the line is not shown, but has a caret. -/
theorem underline_overruns :
    ¬ ∀ (chunks : Chunks) (f : Failure), 1 < carets (ofFailure chunks f).excerpt →
      (ofFailure chunks f).column - 1 + carets (ofFailure chunks f).excerpt
        ≤ (displayed (ofFailure chunks f).excerpt).length := by
  intro h
  have hline := h ⟨#["", ";", "a\r\nb"]⟩ ⟨2, .eof⟩
  rw [carets_excerpt, displayed_excerpt] at hline
  exact absurd (hline (by decide)) (by decide)

end SyntaxError

end Chunkwise
