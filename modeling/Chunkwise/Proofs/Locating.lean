import Chunkwise.Proofs.Lossless
import Chunkwise.Report.SyntaxError
import Mathlib.Data.List.TakeWhile

/-! Where an error is. The line and the column that an error gives lead back to the byte at which
the chunk starts that it reports: over the newlines in front of the line, and from there over the
characters in front of the column. So places in one text are in the order of their lines and
columns. Everything rests on one case distinction: either no newline stands in front of a place, or
the last one parts the earlier lines from the head of the line. -/

namespace Chunkwise

namespace Excerpt

/-! ## The line of a place -/

theorem ne_newline_of_notMem {head : List Char} (h : '\n' ∉ head) :
    ∀ c ∈ head.reverse, decide (c ≠ '\n') = true := by
  intro c hc
  have hne : c ≠ '\n' := fun he => h (he ▸ List.mem_reverse.mp hc)
  simpa using hne

theorem takeWhile_of_length {p : Char → Bool} {cs : List Char}
    (h : (cs.takeWhile p).length = cs.length) : cs.takeWhile p = cs := by
  have hinitial : cs.takeWhile p <+: cs := List.takeWhile_prefix p
  exact hinitial.eq_of_length h

theorem lineHead_of_notMem {head : List Char} (h : '\n' ∉ head) : lineHead head = head := by
  rw [lineHead, List.takeWhile_eq_self_iff.mpr (ne_newline_of_notMem h), List.reverse_reverse]

/-- What stands in front of the last newline is not on the line. -/
theorem lineHead_newline (earlier head : List Char) :
    lineHead (earlier ++ '\n' :: head) = lineHead head := by
  have hsplit : (earlier ++ '\n' :: head).reverse = head.reverse ++ ('\n' :: earlier.reverse) := by
    simp
  rw [lineHead, hsplit, List.takeWhile_append]
  split
  · rename_i hall
    rw [lineHead, takeWhile_of_length hall]
    simp
  · rfl

theorem previousLine?_of_notMem {head : List Char} (h : '\n' ∉ head) :
    previousLine? head = none := by
  rw [previousLine?, List.dropWhile_eq_nil_iff.mpr (ne_newline_of_notMem h)]

theorem previousLine?_newline (earlier : List Char) {head : List Char} (h : '\n' ∉ head) :
    previousLine? (earlier ++ '\n' :: head) = some (lineHead earlier) := by
  have hsplit : (earlier ++ '\n' :: head).reverse = head.reverse ++ ('\n' :: earlier.reverse) := by
    simp
  rw [previousLine?, hsplit, List.dropWhile_append_of_pos (ne_newline_of_notMem h)]
  simp [lineHead]

/-- A place is on the first line, or behind a newline with no other between them. -/
theorem place_cases (before : List Char) :
    '\n' ∉ before ∨ ∃ earlier head, before = earlier ++ '\n' :: head ∧ '\n' ∉ head := by
  induction before with
  | nil => exact .inl List.not_mem_nil
  | cons c cs ih =>
    rcases ih with hcs | ⟨earlier, head, rfl, hhead⟩
    · by_cases hc : c = '\n'
      · exact .inr ⟨[], cs, by rw [hc]; rfl, hcs⟩
      · refine .inl fun hmem => ?_
        rcases List.mem_cons.mp hmem with he | he
        · exact hc he.symm
        · exact hcs he
    · exact .inr ⟨c :: earlier, head, rfl, hhead⟩

theorem newline_notMem_lineHead (before : List Char) : '\n' ∉ lineHead before := by
  rcases place_cases before with h | ⟨earlier, head, rfl, hhead⟩
  · rwa [lineHead_of_notMem h]
  · rwa [lineHead_newline, lineHead_of_notMem hhead]

theorem lineNumber_newline (earlier : List Char) {head : List Char} (h : '\n' ∉ head) :
    lineNumber (earlier ++ '\n' :: head) = lineNumber earlier + 1 := by
  simp [lineNumber, List.count_append, List.count_eq_zero.mpr h]

/-! ## From a line and a column to a place -/

/-- The bytes passed in a text on the way over `newlines` newlines and, from there on, over `rest`
characters that are none; nothing if the text ends or the line does before that. -/
def seek : (newlines rest : Nat) → List Char → Option Nat
  | 0, 0, _ => some 0
  | _, _, [] => none
  | 0, rest + 1, c :: cs => if c = '\n' then none else (seek 0 rest cs).map (c.utf8Size + ·)
  | newlines + 1, rest, c :: cs =>
    (seek (if c = '\n' then newlines else newlines + 1) rest cs).map (c.utf8Size + ·)

theorem seek_head {head : List Char} (h : '\n' ∉ head) (after : List Char) :
    seek 0 head.length (head ++ after) = some (String.utf8Len head) := by
  induction head with
  | nil => rw [List.length_nil, seek]; rfl
  | cons c cs ih =>
    have hc : c ≠ '\n' := fun he => h (he ▸ List.mem_cons_self)
    have hcs : '\n' ∉ cs := fun hmem => h (List.mem_cons_of_mem c hmem)
    rw [List.length_cons, List.cons_append, seek, if_neg hc, ih hcs, Option.map_some,
      String.utf8Len_cons, Nat.add_comm]

theorem seek_newline (rest : Nat) (earlier cs : List Char) :
    seek (earlier.count '\n' + 1) rest (earlier ++ '\n' :: cs)
      = (seek 0 rest cs).map (String.utf8Len (earlier ++ ['\n']) + ·) := by
  induction earlier with
  | nil =>
    rw [List.count_nil, List.nil_append, seek, if_pos rfl]
    rfl
  | cons c earlier ih =>
    have hcount : (if c = '\n' then (c :: earlier).count '\n' else (c :: earlier).count '\n' + 1)
        = earlier.count '\n' + 1 := by
      split
      · rename_i hc
        rw [hc, List.count_cons_self]
      · rename_i hc
        rw [List.count_cons_of_ne hc]
    rw [List.cons_append, seek, hcount, ih, Option.map_map]
    congr 1
    funext n
    rw [Function.comp_apply, List.cons_append, String.utf8Len_cons]
    omega

/-- The line and the column of a place lead to it. -/
theorem seek_place (before after : List Char) :
    seek (lineNumber before - 1) (column before - 1) (before ++ after)
      = some (String.utf8Len before) := by
  rcases place_cases before with h | ⟨earlier, head, rfl, hhead⟩
  · have hline : lineNumber before - 1 = 0 := by
      simpa [lineNumber] using List.count_eq_zero.mpr h
    rw [hline, column, lineHead_of_notMem h, Nat.add_sub_cancel, seek_head h]
  · rw [lineNumber_newline earlier hhead, column, lineHead_newline, lineHead_of_notMem hhead,
      Nat.add_sub_cancel, Nat.add_sub_cancel, List.append_assoc, List.cons_append, lineNumber,
      seek_newline, seek_head hhead, Option.map_some, ← String.utf8Len_append]
    simp

/-- The text in front of a place is that in front of its line and the head of the line. -/
theorem line_start (before : List Char) :
    ∃ front, before = front ++ lineHead before ∧ lineNumber front = lineNumber before ∧
      column front = 1 := by
  rcases place_cases before with h | ⟨earlier, head, rfl, hhead⟩
  · refine ⟨[], (lineHead_of_notMem h).symm, ?_, rfl⟩
    rw [lineNumber, lineNumber, List.count_eq_zero.mpr h]
    rfl
  · refine ⟨earlier ++ ['\n'], ?_, ?_, ?_⟩
    · rw [lineHead_newline, lineHead_of_notMem hhead, List.append_assoc]
      rfl
    · rw [lineNumber_newline earlier hhead, lineNumber_newline earlier List.not_mem_nil]
    · rw [column, lineHead_newline]
      rfl

/-- Behind the first characters of a text there is a place for another. -/
theorem isValid_utf8Len {text : String} {front rest : List Char} (h : text.toList = front ++ rest) :
    (⟨String.utf8Len front⟩ : String.Pos.Raw).IsValid text := by
  refine String.Pos.Raw.isValid_iff_exists_append.mpr
    ⟨String.ofList front, String.ofList rest, ?_, ?_⟩
  · rw [← String.ofList_append, ← h, String.ofList_toList]
  · rw [String.rawEndPos, String.utf8ByteSize_ofList]

/-- The line of a place can be cut out of the text up to the place, and has as many characters
there as stand in front of the column. -/
theorem seek_line {text : String} {before after : List Char} (h : text.toList = before ++ after) :
    ∃ start, seek (lineNumber before - 1) 0 text.toList = some start ∧
      (⟨start⟩ : String.Pos.Raw).IsValid text ∧
      (String.Pos.Raw.extract text ⟨start⟩ ⟨String.utf8Len before⟩).length = column before - 1 := by
  obtain ⟨front, hfront, hline, hcolumn⟩ := line_start before
  have htext : text.toList = front ++ (lineHead before ++ after) := by
    rw [h, ← List.append_assoc, ← hfront]
  refine ⟨String.utf8Len front, ?_, isValid_utf8Len htext, ?_⟩
  · have hseek := seek_place front (lineHead before ++ after)
    rwa [hline, hcolumn, ← htext] at hseek
  · have hlength : String.utf8Len before
        = String.utf8Len front + String.utf8Len (lineHead before) := by
      rw [← String.utf8Len_append, ← hfront]
    have hextract := String.extract_of_valid front (lineHead before) after
    rw [List.append_assoc, ← htext, String.ofList_toList] at hextract
    rw [hlength, hextract, String.length_ofList]
    rfl

/-! ## The order of places -/

theorem lineHead_append (before : List Char) {more : List Char} (h : '\n' ∉ more) :
    lineHead (before ++ more) = lineHead before ++ more := by
  have happend : ∀ {head : List Char}, '\n' ∉ head → '\n' ∉ head ++ more := fun hhead hmem =>
    (List.mem_append.mp hmem).elim hhead h
  rcases place_cases before with hb | ⟨earlier, head, rfl, hhead⟩
  · rw [lineHead_of_notMem (happend hb), lineHead_of_notMem hb]
  · rw [List.append_assoc, List.cons_append, lineHead_newline, lineHead_newline,
      lineHead_of_notMem (happend hhead), lineHead_of_notMem hhead]

/-- How the lines of two places compare, and for places on one line, their columns. -/
def comparePlaces (before before' : List Char) : Ordering :=
  (compare (lineNumber before) (lineNumber before')).then (compare (column before) (column before'))

theorem comparePlaces_append (before : List Char) {more : List Char} (h : more ≠ []) :
    comparePlaces before (before ++ more) = .lt := by
  have hline : lineNumber (before ++ more) = lineNumber before + more.count '\n' := by
    rw [lineNumber, lineNumber, List.count_append]
    omega
  by_cases hmore : '\n' ∈ more
  · have hlt : lineNumber before < lineNumber (before ++ more) := by
      have := List.count_pos_iff.mpr hmore
      omega
    rw [comparePlaces, Nat.compare_eq_lt.mpr hlt]
    rfl
  · have heq : lineNumber (before ++ more) = lineNumber before := by
      rw [hline, List.count_eq_zero.mpr hmore, Nat.add_zero]
    have hlt : column before < column (before ++ more) := by
      have := List.length_pos_iff.mpr h
      rw [column, column, lineHead_append before hmore, List.length_append]
      omega
    rw [comparePlaces, heq, Nat.compare_eq_eq.mpr rfl, Nat.compare_eq_lt.mpr hlt]
    rfl

theorem comparePlaces_initial {before before' : List Char} (h : before <+: before') :
    comparePlaces before before' = compare (String.utf8Len before) (String.utf8Len before') := by
  obtain ⟨more, rfl⟩ := h
  by_cases hmore : more = []
  · rw [hmore, List.append_nil, comparePlaces, Nat.compare_eq_eq.mpr rfl, Nat.compare_eq_eq.mpr rfl,
      Nat.compare_eq_eq.mpr rfl]
    rfl
  · have hlt : String.utf8Len before < String.utf8Len (before ++ more) := by
      have hpos : String.utf8Len more ≠ 0 := fun he => hmore (String.utf8Len_eq_zero.mp he)
      rw [String.utf8Len_append]
      omega
    rw [comparePlaces_append before hmore, Nat.compare_eq_lt.mpr hlt]

/-- Places of one text compare as the bytes in front of them. -/
theorem comparePlaces_eq {text before before' : List Char} (h : before <+: text)
    (h' : before' <+: text) :
    comparePlaces before before' = compare (String.utf8Len before) (String.utf8Len before') := by
  rcases List.prefix_or_prefix_of_prefix h h' with hp | hp
  · exact comparePlaces_initial hp
  · have hswap := congrArg Ordering.swap (comparePlaces_initial hp)
    rwa [comparePlaces, Ordering.swap_then, Nat.compare_swap, Nat.compare_swap, Nat.compare_swap]
      at hswap

end Excerpt

/-! ## The chunk of a place -/

namespace Chunks

/-- The first chunk from place `i` on that is not empty is chunk `j`. -/
structure NextWord (c : Chunks) (i j : Nat) (w : String) : Prop where
  le : i ≤ j
  here : c.get? j = some w
  filled : w ≠ ""
  first : ∀ k, i ≤ k → k < j → c.get? k = some ""

theorem empty_of_lt_skipEmpty {c : Chunks} {i k : Nat} (hi : i ≤ k) (hk : k < c.skipEmpty i) {w}
    (h : c.get? k = some w) : w = "" := by
  by_contra hw
  have hlt := wordIndex_lt_of_word h hw hk
  have hle := wordIndex_mono (c := c) hi
  rw [wordIndex_skipEmpty] at hlt
  omega

/-- Where empty chunks have been passed over, the next word stands, or the chunks are over. -/
theorem skipEmpty_nextWord {c : Chunks} {i : Nat} {w : String}
    (h : c.get? (c.skipEmpty i) = some w) : c.NextWord i (c.skipEmpty i) w where
  le := c.le_skipEmpty i
  here := h
  filled := by
    rintro rfl
    exact c.get?_skipEmpty_ne i h
  first := by
    intro k hi hk
    have hsize := lt_size_of_get? h
    cases hget : c.get? k with
    | none => exact absurd (get?_eq_none_iff.mp hget) (by omega)
    | some v => rw [empty_of_lt_skipEmpty hi hk hget]

theorem empty_of_skipEmpty_none {c : Chunks} {i k : Nat} (h : c.get? (c.skipEmpty i) = none)
    (hi : i ≤ k) {w : String} (hk : c.get? k = some w) : w = "" := by
  have hsize := get?_eq_none_iff.mp h
  have hlt := lt_size_of_get? hk
  exact empty_of_lt_skipEmpty hi (by omega) hk

theorem toList_text (c : Chunks) (i : Nat) :
    c.text.toList = (c.before i).toList ++ (String.join (c.pieces.toList.drop i)).toList := by
  rw [← String.toList_append, before, ← String.join_append, List.take_append_drop, text]

theorem before_succ (c : Chunks) (i : Nat) :
    c.before (i + 1) = c.before i ++ (c.get? i).getD "" := by
  rw [before, before, List.take_add_one, String.join_append, ← get?_eq]
  cases c.get? i with
  | none => simp
  | some w => simp

/-- The text from a chunk on is the chunk and what stands behind it. -/
theorem join_drop (c : Chunks) (i : Nat) :
    String.join (c.pieces.toList.drop i)
      = (c.get? i).getD "" ++ String.join (c.pieces.toList.drop (i + 1)) := by
  rw [get?_eq]
  cases h : c.pieces.toList[i]? with
  | none =>
    have hlength := List.getElem?_eq_none_iff.mp h
    rw [List.drop_of_length_le hlength, List.drop_of_length_le (Nat.le_succ_of_le hlength)]
    rfl
  | some w =>
    obtain ⟨hlt, rfl⟩ := List.getElem?_eq_some_iff.mp h
    rw [List.drop_eq_getElem_cons hlt, String.join_cons]
    rfl

theorem offset_eq_utf8Len (c : Chunks) (i : Nat) :
    c.offset i = String.utf8Len (c.before i).toList := by
  rw [String.utf8Len_toList, offset_eq]

/-- A chunk starts where a character of the text does. -/
theorem isValid_offset (c : Chunks) (i : Nat) : (⟨c.offset i⟩ : String.Pos.Raw).IsValid c.text := by
  rw [offset_eq_utf8Len]
  exact Excerpt.isValid_utf8Len (c.toList_text i)

end Chunks

namespace SyntaxError

open Excerpt

/-- What an error says of the place where a parse failed: its chunk is the first from there on that
is not empty, or the text is over; its bytes are those of that chunk, and its line and column lead
to the first of them. -/
structure Locates (e : SyntaxError) (chunks : Chunks) (position : Nat) : Prop where
  input : e.input = chunks.text
  chunk : (∃ i w, chunks.NextWord position i w ∧ e.found = some w ∧ chunks.span? i = some e.span) ∨
    ((∀ i w, position ≤ i → chunks.get? i = some w → w = "") ∧ e.found = none ∧
      e.span = (e.input.utf8ByteSize, e.input.utf8ByteSize))
  offset : e.offset = e.span.1
  start_valid : (⟨e.span.1⟩ : String.Pos.Raw).IsValid e.input
  stop_valid : (⟨e.span.2⟩ : String.Pos.Raw).IsValid e.input
  bytes : String.Pos.Raw.extract e.input ⟨e.span.1⟩ ⟨e.span.2⟩ = e.found.getD ""
  line_pos : 0 < e.line
  column_pos : 0 < e.column
  line_start : ∃ start, seek (e.line - 1) 0 e.input.toList = some start ∧
    (⟨start⟩ : String.Pos.Raw).IsValid e.input ∧
    (String.Pos.Raw.extract e.input ⟨start⟩ ⟨e.offset⟩).length = e.column - 1
  leads : seek (e.line - 1) (e.column - 1) e.input.toList = some e.offset

theorem place_of_word {chunks : Chunks} {f : Failure} {w : String}
    (h : chunks.get? (chunks.skipEmpty f.position) = some w) :
    place chunks f = chunks.skipEmpty f.position :=
  Nat.min_eq_left (Nat.le_of_lt (Chunks.lt_size_of_get? h))

theorem place_of_none {chunks : Chunks} {f : Failure}
    (h : chunks.get? (chunks.skipEmpty f.position) = none) : place chunks f = chunks.size :=
  Nat.min_eq_right (Chunks.get?_eq_none_iff.mp h)

theorem ofFailure_locates (chunks : Chunks) (f : Failure) :
    (ofFailure chunks f).Locates chunks f.position where
  input := rfl
  chunk := by
    cases h : chunks.get? (chunks.skipEmpty f.position) with
    | some w =>
      have hplace := place_of_word h
      refine .inl ⟨_, w, Chunks.skipEmpty_nextWord h, ?_, ?_⟩
      · show chunks.get? (place chunks f) = some w
        rw [hplace, h]
      · show chunks.span? (chunks.skipEmpty f.position)
          = some (chunks.offset (place chunks f), chunks.offset (place chunks f + 1))
        rw [hplace, Chunks.span?, if_pos (Chunks.lt_size_of_get? h)]
    | none =>
      have hplace := place_of_none h
      refine .inr ⟨fun _ _ hi hw => Chunks.empty_of_skipEmpty_none h hi hw, ?_, ?_⟩
      · show chunks.get? (place chunks f) = none
        rw [hplace]
        exact Chunks.get?_eq_none_iff.mpr (Nat.le_refl _)
      · show (chunks.offset (place chunks f), chunks.offset (place chunks f + 1)) = _
        rw [hplace, Chunks.offset_of_size_le _ (Nat.le_refl _),
          Chunks.offset_of_size_le _ (Nat.le_succ _)]
        rfl
  offset := rfl
  start_valid := chunks.isValid_offset _
  stop_valid := chunks.isValid_offset _
  bytes := Chunks.extract_offset (chunks.before_succ (place chunks f))
  line_pos := Nat.succ_pos _
  column_pos := Nat.succ_pos _
  line_start := by
    show ∃ start, _ ∧ _ ∧ (String.Pos.Raw.extract chunks.text ⟨start⟩
      ⟨chunks.offset (place chunks f)⟩).length = _
    rw [chunks.offset_eq_utf8Len]
    exact seek_line (chunks.toList_text _)
  leads := by
    show seek _ _ chunks.text.toList = some (chunks.offset (place chunks f))
    rw [chunks.offset_eq_utf8Len, chunks.toList_text (place chunks f)]
    exact seek_place _ _

theorem before_initial (chunks : Chunks) (i : Nat) :
    (chunks.before i).toList <+: chunks.text.toList :=
  ⟨_, (chunks.toList_text i).symm⟩

/-- **Errors identify places.** Whatever cut the text and wherever the parse failed, the error has
the chunk from there on and its bytes, and its line and column lead to the byte where it starts.
So errors over one text, however it was cut for each of them, compare by line and column as they
do by bytes. -/
theorem errors_identify_places (chunks : Chunks) (f : Failure) :
    (ofFailure chunks f).Locates chunks f.position ∧
    ∀ (chunks' : Chunks) (f' : Failure), chunks'.text = chunks.text →
      (compare (ofFailure chunks f).line (ofFailure chunks' f').line).then
          (compare (ofFailure chunks f).column (ofFailure chunks' f').column)
        = compare (ofFailure chunks f).offset (ofFailure chunks' f').offset := by
  refine ⟨ofFailure_locates chunks f, fun chunks' f' htext => ?_⟩
  have hbefore := before_initial chunks (place chunks f)
  have hbefore' := before_initial chunks' (place chunks' f')
  rw [htext] at hbefore'
  show _ = compare (chunks.offset (place chunks f)) (chunks'.offset (place chunks' f'))
  rw [chunks.offset_eq_utf8Len, chunks'.offset_eq_utf8Len]
  exact comparePlaces_eq hbefore hbefore'

/-- The first letter of a text is reported behind an empty chunk, and its second line from a text
that was cut in another way. -/
theorem errors_identify_places_lines :
    (⟨#["", "é\n", "b"]⟩ : Chunks).text = (⟨#["é", "\nb"]⟩ : Chunks).text ∧
    (ofFailure ⟨#["é", "\nb"]⟩ ⟨1, .eof⟩).Locates ⟨#["é", "\nb"]⟩ 1 ∧
    (ofFailure ⟨#["é", "\nb"]⟩ ⟨1, .eof⟩).offset = 2 ∧
    (compare (ofFailure ⟨#["é", "\nb"]⟩ ⟨1, .eof⟩).line
        (ofFailure ⟨#["", "é\n", "b"]⟩ ⟨2, .eof⟩).line).then
      (compare (ofFailure ⟨#["é", "\nb"]⟩ ⟨1, .eof⟩).column
        (ofFailure ⟨#["", "é\n", "b"]⟩ ⟨2, .eof⟩).column) = .lt := by
  have htext : (⟨#["", "é\n", "b"]⟩ : Chunks).text = (⟨#["é", "\nb"]⟩ : Chunks).text := by decide
  obtain ⟨hplace, hcompare⟩ := errors_identify_places ⟨#["é", "\nb"]⟩ ⟨1, .eof⟩
  refine ⟨htext, hplace, by decide, ?_⟩
  rw [hcompare _ ⟨2, .eof⟩ htext]
  decide

end SyntaxError

end Chunkwise
