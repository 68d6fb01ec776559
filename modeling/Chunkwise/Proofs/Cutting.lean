import Chunkwise.Chunks.Split

/-! How a text is cut. The loop has two marks: where the last piece ended, and where the next
match is searched from. A match behind which nothing would be left out moves both, and one that
ends at the first mark only the second, so that one of them moves in each round. What the loop
has cut in the end are pieces that lead from the start of the text to its end, each from where
the one before it stops. -/

namespace Chunkwise

/-! ## The loop -/

/-- All that is asked of a search: what it finds lies between where it starts and the end of
the text. -/
def StaysWithin (size : Nat) (search : Nat → Option (Nat × Nat)) : Prop :=
  ∀ ⦃p start stop⦄, p ≤ size → search p = some (start, stop) →
    p ≤ start ∧ start ≤ stop ∧ stop ≤ size

/-- The loop that cuts a text, from `last` and `p` on, comes to an end, and these are the
pieces that it has cut by then. -/
inductive Cutting (search : Nat → Option (Nat × Nat)) (size : Nat) :
    Nat → Nat → List (Nat × Nat) → Prop
  | behind {last p} : size ≤ p → Cutting search size last p [(last, size)]
  | unmatched {last p} : p < size → search p = none → Cutting search size last p [(last, size)]
  | matchedBehind {last p start stop} : p < size → search p = some (start, stop) →
      size ≤ start → Cutting search size last p [(last, size)]
  | steppedOver {last p start rest} : p < size → search p = some (start, last) → start < size →
      Cutting search size last (start + 1) rest → Cutting search size last p rest
  | cut {last p start stop rest} : p < size → search p = some (start, stop) → start < size →
      stop ≠ last → Cutting search size stop stop rest →
      Cutting search size last p ((last, start) :: (start, stop) :: rest)

section

variable {search : Nat → Option (Nat × Nat)} {size last p : Nat} {pieces : List (Nat × Nat)}

/-- Given steps enough, what the loop has cut in the end does not depend on how many. -/
theorem Cutting.cuts_eq (h : Cutting search size last p pieces) :
    ∃ n, ∀ fuel, n ≤ fuel → cuts search size fuel last p = pieces := by
  induction h with
  | behind hp =>
    refine ⟨0, fun fuel _ => ?_⟩
    cases fuel with
    | zero => rfl
    | succ fuel => rw [cuts, if_neg (by omega)]
  | unmatched hp hs =>
    refine ⟨0, fun fuel _ => ?_⟩
    cases fuel with
    | zero => rfl
    | succ fuel => rw [cuts, if_pos hp, hs]
  | matchedBehind hp hs hstart =>
    refine ⟨0, fun fuel _ => ?_⟩
    cases fuel with
    | zero => rfl
    | succ fuel => simp only [cuts, if_pos hp, hs, if_pos hstart]
  | steppedOver hp hs hstart _ ih =>
    obtain ⟨n, hn⟩ := ih
    refine ⟨n + 1, fun fuel hfuel => ?_⟩
    obtain ⟨fuel, rfl⟩ : ∃ k, fuel = k + 1 := ⟨fuel - 1, by omega⟩
    simp only [cuts, if_pos hp, hs, if_neg (Nat.not_le_of_lt hstart), if_true]
    exact hn fuel (by omega)
  | cut hp hs hstart hne _ ih =>
    obtain ⟨n, hn⟩ := ih
    refine ⟨n + 1, fun fuel hfuel => ?_⟩
    obtain ⟨fuel, rfl⟩ : ∃ k, fuel = k + 1 := ⟨fuel - 1, by omega⟩
    simp only [cuts, if_pos hp, hs, if_neg (Nat.not_le_of_lt hstart), if_neg hne]
    rw [hn fuel (by omega)]

/-- The loop cuts in one way only. -/
theorem Cutting.unique {pieces' : List (Nat × Nat)} (h : Cutting search size last p pieces)
    (h' : Cutting search size last p pieces') : pieces' = pieces := by
  obtain ⟨n, hn⟩ := h.cuts_eq
  obtain ⟨m, hm⟩ := h'.cuts_eq
  exact (hm (n + m) (Nat.le_add_left m n)).symm.trans (hn (n + m) (Nat.le_add_right n m))

/-- Each round moves `p`, or closes the gap between `last` and `p`, so the loop ends. -/
theorem cuts_cutting (hsearch : StaysWithin size search) : ∀ {fuel last p}, last ≤ p →
    2 * (size - p) + (if last < p then 1 else 0) < fuel →
    Cutting search size last p (cuts search size fuel last p)
  | 0, _, _, _, hfuel => by cases hfuel
  | fuel + 1, last, p, hlast, hfuel => by
    unfold cuts
    split
    · rename_i hp
      split
      · exact .unmatched hp ‹_›
      · rename_i start stop hs
        obtain ⟨hstart, hstop, _⟩ := hsearch (Nat.le_of_lt hp) hs
        split
        · exact .matchedBehind hp hs ‹_›
        · split
          · rename_i hlt he
            subst he
            refine .steppedOver hp hs (by omega) (cuts_cutting hsearch (by omega) ?_)
            split at hfuel <;> split <;> omega
          · rename_i hlt hne
            refine .cut hp hs (by omega) hne (cuts_cutting hsearch (Nat.le_refl stop) ?_)
            rw [if_neg (Nat.lt_irrefl stop)]
            split at hfuel <;> omega
    · exact .behind (by omega)

/-- The loop over a whole text ends. -/
theorem cuts_cutting_whole (hsearch : StaysWithin size search) :
    Cutting search size 0 0 (cuts search size (2 * size + 1) 0 0) :=
  cuts_cutting hsearch (Nat.le_refl 0) (by rw [if_neg (Nat.lt_irrefl 0)]; omega)

end

/-! ## Pieces -/

/-- The pieces lead from the first place to the second one, each from where the one before it
stops. -/
inductive Tiling : Nat → Nat → List (Nat × Nat) → Prop
  | nil {a} : Tiling a a []
  | cons {a b c rest} : a ≤ b → Tiling b c rest → Tiling a c ((a, b) :: rest)

namespace Tiling

variable {a c : Nat} {pieces : List (Nat × Nat)}

theorem single (h : a ≤ c) : Tiling a c [(a, c)] := .cons h .nil

theorem le (h : Tiling a c pieces) : a ≤ c := by
  induction h with
  | nil => exact Nat.le_refl _
  | cons hab _ ih => omega

theorem within (h : Tiling a c pieces) :
    ∀ {i : Nat} {x : Nat × Nat}, pieces[i]? = some x → a ≤ x.1 ∧ x.1 ≤ x.2 ∧ x.2 ≤ c := by
  induction h with
  | nil => intro i x hx; cases hx
  | cons hab hrest ih =>
    intro i x hx
    cases i with
    | zero => cases hx; exact ⟨Nat.le_refl _, hab, hrest.le⟩
    | succ i =>
      obtain ⟨hstart, hx, hend⟩ := ih hx
      exact ⟨Nat.le_trans hab hstart, hx, hend⟩

/-- The pieces in front of one lead to where that one starts. -/
theorem take (h : Tiling a c pieces) :
    ∀ {i x}, pieces[i]? = some x → Tiling a x.1 (pieces.take i) := by
  induction h with
  | nil => intro i x hx; cases hx
  | cons hab _ ih =>
    intro i x hx
    cases i with
    | zero => cases hx; exact .nil
    | succ i => exact .cons hab (ih hx)

/-- The next piece starts where one stops, and behind the last one nothing is left. -/
theorem next (h : Tiling a c pieces) :
    ∀ {i x}, pieces[i]? = some x → x.2 = (pieces[i + 1]?.map Prod.fst).getD c := by
  induction h with
  | nil => intro i x hx; cases hx
  | @cons a b c rest _ hrest ih =>
    intro i x hx
    cases i with
    | zero =>
      cases hx
      cases hrest <;> rfl
    | succ i => exact ih hx

end Tiling

section

variable {search : Nat → Option (Nat × Nat)} {size last p : Nat} {pieces : List (Nat × Nat)}

/-- The loop leaves nothing out, and cuts nothing twice. -/
theorem Cutting.tiling (hsearch : StaysWithin size search) (h : Cutting search size last p pieces) :
    last ≤ p → last ≤ size → Tiling last size pieces := by
  induction h with
  | behind _ => exact fun _ hsize => .single hsize
  | unmatched _ _ => exact fun _ hsize => .single hsize
  | matchedBehind _ _ _ => exact fun _ hsize => .single hsize
  | steppedOver hp hs _ _ ih =>
    intro hlast hsize
    have := hsearch (Nat.le_of_lt hp) hs
    exact ih (by omega) hsize
  | cut hp hs _ _ _ ih =>
    intro hlast hsize
    obtain ⟨hstart, hstop, hend⟩ := hsearch (Nat.le_of_lt hp) hs
    exact .cons (by omega) (.cons hstop (ih (Nat.le_refl _) hend))

/-- What stands between matches comes once more than matches do. -/
theorem Cutting.odd (h : Cutting search size last p pieces) : pieces.length % 2 = 1 := by
  induction h with
  | behind _ => rfl
  | unmatched _ _ => rfl
  | matchedBehind _ _ _ => rfl
  | steppedOver _ _ _ _ ih => exact ih
  | cut _ _ _ _ _ ih => simp only [List.length_cons]; omega

/-- Each match ends behind the one before it, so there are no more of them than characters. -/
theorem Cutting.length_le (hsearch : StaysWithin size search)
    (h : Cutting search size last p pieces) :
    last ≤ p → pieces.length ≤ 2 * (size - last) + 1 := by
  induction h with
  | behind _ => exact fun _ => Nat.le_add_left 1 _
  | unmatched _ _ => exact fun _ => Nat.le_add_left 1 _
  | matchedBehind _ _ _ => exact fun _ => Nat.le_add_left 1 _
  | steppedOver hp hs _ _ ih =>
    intro hlast
    have := hsearch (Nat.le_of_lt hp) hs
    exact ih (by omega)
  | cut hp hs _ _ _ ih =>
    intro hlast
    obtain ⟨hstart, hstop, hend⟩ := hsearch (Nat.le_of_lt hp) hs
    have := ih (Nat.le_refl _)
    simp only [List.length_cons]
    omega

end

/-! ## Chunks -/

theorem slice_append (text : Array Char) {i j k : Nat} (hij : i ≤ j) (hjk : j ≤ k) :
    slice text i j ++ slice text j k = slice text i k := by
  unfold slice
  rw [← String.ofList_append, ← Array.toList_append, Array.extract_append_extract,
    Nat.min_eq_left hij, Nat.max_eq_right hjk]

/-- The characters of the pieces are those that they lead through. -/
theorem Tiling.join {text : Array Char} {a c : Nat} {pieces : List (Nat × Nat)}
    (h : Tiling a c pieces) :
    String.join (pieces.map fun x => slice text x.1 x.2) = slice text a c := by
  induction h with
  | nil => simp [slice]
  | cons hab hrest ih => rw [List.map_cons, String.join_cons, ih, slice_append text hab hrest.le]

theorem size_toArray_toList (text : String) : text.toList.toArray.size = text.length := by
  rw [List.size_toArray, String.length_toList]

/-- How many bytes stand in front of character `n` of a text. -/
def bytesBefore (text : String) (n : Nat) : Nat :=
  (String.ofList (text.toList.take n)).utf8ByteSize

/-- A piece of a text as a range of its bytes. -/
def byteSpan (text : String) (x : Nat × Nat) : Nat × Nat :=
  (bytesBefore text x.1, bytesBefore text x.2)

theorem utf8ByteSize_slice (text : String) (n : Nat) :
    (slice text.toList.toArray 0 n).utf8ByteSize = bytesBefore text n := by
  simp [slice, bytesBefore]

theorem slice_whole (text : String) : slice text.toList.toArray 0 text.length = text := by
  simp [slice, ← String.length_toList]

theorem bytesBefore_length (text : String) : bytesBefore text text.length = text.utf8ByteSize := by
  rw [← utf8ByteSize_slice, slice_whole]

theorem bytesBefore_mono (text : String) {a b : Nat} (h : a ≤ b) :
    bytesBefore text a ≤ bytesBefore text b := by
  rw [← utf8ByteSize_slice text b, ← slice_append _ (Nat.zero_le a) h, String.utf8ByteSize_append,
    utf8ByteSize_slice]
  exact Nat.le_add_right _ _

theorem isValid_bytesBefore (text : String) (n : Nat) :
    (⟨bytesBefore text n⟩ : String.Pos.Raw).IsValid text :=
  String.Pos.Raw.isValid_iff_exists_take_toList.mpr ⟨n, rfl⟩

/-- Pieces that follow each other do so in bytes. -/
theorem Tiling.byteSpan (text : String) {a c : Nat} {pieces : List (Nat × Nat)}
    (h : Tiling a c pieces) :
    Tiling (bytesBefore text a) (bytesBefore text c) (pieces.map (byteSpan text)) := by
  induction h with
  | nil => exact .nil
  | cons hab _ ih => exact .cons (bytesBefore_mono text hab) ih

namespace Chunks

/-- These pieces of a text. -/
def cut (text : String) (pieces : List (Nat × Nat)) : Chunks :=
  ⟨(pieces.map fun x => slice text.toList.toArray x.1 x.2).toArray⟩

theorem offset_mono (c : Chunks) {i j : Nat} (h : i ≤ j) : c.offset i ≤ c.offset j := by
  have hsplit : c.before j = c.before i ++ String.join ((c.pieces.toList.take j).drop i) := by
    have htake : c.pieces.toList.take i = (c.pieces.toList.take j).take i := by
      rw [List.take_take, Nat.min_eq_left h]
    unfold before
    rw [htake, ← String.join_append, List.take_append_drop]
  rw [offset_eq, offset_eq, hsplit, String.utf8ByteSize_append]
  exact Nat.le_add_right _ _

theorem offset_of_size_le (c : Chunks) {i : Nat} (h : c.size ≤ i) :
    c.offset i = c.text.utf8ByteSize := by
  rw [offset_eq, before_of_size_le h]

variable {text : String} {pieces : List (Nat × Nat)}

theorem size_cut : (cut text pieces).size = pieces.length := by
  simp [cut, size]

theorem get?_cut (i : Nat) :
    (cut text pieces).get? i = pieces[i]?.map fun x => slice text.toList.toArray x.1 x.2 := by
  simp [cut, get?]

theorem text_cut (h : Tiling 0 text.length pieces) : (cut text pieces).text = text := by
  show String.join (pieces.map fun x => slice text.toList.toArray x.1 x.2) = text
  rw [h.join, slice_whole]

/-- A chunk starts where its piece does, and behind the last one the text is over. -/
theorem offset_cut (h : Tiling 0 text.length pieces) (i : Nat) :
    (cut text pieces).offset i
      = bytesBefore text ((pieces[i]?.map Prod.fst).getD text.length) := by
  have hoffset : (cut text pieces).offset i
      = (String.join ((pieces.take i).map fun x =>
          slice text.toList.toArray x.1 x.2)).utf8ByteSize := by
    rw [offset_eq, before, List.map_take]
    rfl
  rw [hoffset]
  cases hx : pieces[i]? with
  | some x => rw [(h.take hx).join, utf8ByteSize_slice]; rfl
  | none =>
    rw [List.take_of_length_le (List.getElem?_eq_none_iff.mp hx), h.join, utf8ByteSize_slice]
    rfl

theorem span?_cut (h : Tiling 0 text.length pieces) (i : Nat) :
    (cut text pieces).span? i = (pieces.map (byteSpan text))[i]? := by
  rw [List.getElem?_map, span?, size_cut]
  cases hx : pieces[i]? with
  | some x =>
    rw [if_pos (List.getElem?_eq_some_iff.mp hx).1, offset_cut h, offset_cut h, hx, ← h.next hx]
    rfl
  | none => rw [if_neg (Nat.not_lt_of_le (List.getElem?_eq_none_iff.mp hx))]; rfl

/-- The chunks are these pieces of a text, and the pieces, counted in characters or in bytes,
leave nothing out. -/
structure Partitions (c : Chunks) (text : String) (pieces : List (Nat × Nat)) : Prop where
  chunks : c = cut text pieces
  odd : pieces.length % 2 = 1
  size : c.size = pieces.length
  size_le : c.size ≤ 2 * text.length + 1
  tiling : Tiling 0 text.length pieces
  span : ∀ i, c.span? i = (pieces.map (byteSpan text))[i]?
  bytes : Tiling 0 text.utf8ByteSize (pieces.map (byteSpan text))
  boundary : ∀ i a b, c.span? i = some (a, b) →
    (⟨a⟩ : String.Pos.Raw).IsValid text ∧ (⟨b⟩ : String.Pos.Raw).IsValid text
  whole : c.text = text
  offset_mono : ∀ i j, i ≤ j → c.offset i ≤ c.offset j
  offset_end : ∀ i, c.size ≤ i → c.offset i = text.utf8ByteSize

/-- What the loop cuts are chunks of the text. -/
theorem partitions_of_cutting {search : Nat → Option (Nat × Nat)}
    (hsearch : StaysWithin text.length search) (h : Cutting search text.length 0 0 pieces) :
    (cut text pieces).Partitions text pieces := by
  have htiling := h.tiling hsearch (Nat.le_refl 0) (Nat.zero_le _)
  have hlength := h.length_le hsearch (Nat.le_refl 0)
  have hbytes := htiling.byteSpan text
  rw [bytesBefore_length] at hbytes
  refine ⟨rfl, h.odd, size_cut, Nat.le_trans (Nat.le_of_eq size_cut) hlength, htiling,
    span?_cut htiling, hbytes, ?_,
    text_cut htiling, fun _ _ => offset_mono _, fun i hi => ?_⟩
  · intro i a b hab
    rw [span?_cut htiling, List.getElem?_map] at hab
    obtain ⟨x, _, hx⟩ := Option.map_eq_some_iff.mp hab
    cases hx
    exact ⟨isValid_bytesBefore text x.1, isValid_bytesBefore text x.2⟩
  · rw [offset_of_size_le _ hi, text_cut htiling]

end Chunks

end Chunkwise
