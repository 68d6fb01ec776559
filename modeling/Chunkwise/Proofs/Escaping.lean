import Chunkwise.Proofs.Wrapping
import Chunkwise.Regex.Escape

/-! Escaped texts. A text with its operators escaped is a pattern, plain and valid whatever the
text is, and it means the text itself. -/

namespace Chunkwise.Regex

open Meaning (inTurn)

variable {text : Array Char} {i j : Nat}

/-- A literal character, read under the flags that hold at first. -/
theorem Item.literal?_default (c : Char) :
    literal? {} c false = some (.one (.single c.toNat)) := rfl

/-- A character as it is escaped is read as itself. -/
theorem Item.read_escapeChar (c : Char) (rest : List Char) :
    ∃ d tail, escapeChar c ++ rest = d :: tail ∧
      Item.read {} d tail = some (.piece (.one (.single c.toNat)) 0, rest) := by
  unfold escapeChar
  by_cases hc : Escape.isOperator c = true
  · rw [if_pos hc]
    refine ⟨'\\', c :: rest, rfl, ?_⟩
    have hescape : Escape.read {} (c :: rest) = some (.literal c false, rest) := by
      -- no operator is a letter or an angle bracket
      simp only [Escape.read]
      split <;> first | exact absurd hc (by decide) | rw [if_pos (by simp [Escape.isEscapable, hc])]
    simp only [Item.read, hescape, Option.bind_eq_bind, Option.bind_some, ofEscape,
      literal?_default]
  · rw [if_neg hc]
    refine ⟨c, rest, rfl, ?_⟩
    -- all characters that are read in another way are operators
    unfold Item.read
    split <;> first | exact absurd (by decide) hc | rw [literal?_default, Option.map_some]

theorem length_escapeChar_pos (c : Char) : 0 < (escapeChar c).length := by
  unfold escapeChar
  split <;> exact Nat.succ_pos _

/-- The piece that a literal character is read as. -/
def Piece.ofChar (c : Char) : Piece := ⟨.one (.single c.toNat), 0⟩

/-! ## Readers that take characters -/

namespace Reader

variable {r r' r'' : Reader} {cs cs' : List Char}

/-- The reader takes the characters, whatever follows, and goes on as another one. -/
def Takes (r : Reader) (cs : List Char) (r' : Reader) : Prop :=
  ∀ n tail, (cs ++ tail).length < n →
    ∃ m, tail.length < m ∧ read n r (cs ++ tail) = read m r' tail

theorem takes_nil : r.Takes [] r := fun n _ hn => ⟨n, hn, rfl⟩

theorem Takes.append (h : r.Takes cs r') (h' : r'.Takes cs' r'') : r.Takes (cs ++ cs') r'' := by
  intro n tail hn
  rw [List.append_assoc] at hn ⊢
  obtain ⟨m, hm, hread⟩ := h n _ hn
  obtain ⟨l, hl, hread'⟩ := h' m tail hm
  exact ⟨l, hl, hread.trans hread'⟩

/-- A reader takes what it reads as an item that can stand there. -/
theorem takes_item (item : Item) (hverbose : r.flags.verbose = false) (hcs : 0 < cs.length)
    (hitem : ∀ tail, ∃ c rest, cs ++ tail = c :: rest ∧
      Item.read r.flags c rest = some (item, tail))
    (haccept : r.accept item = some r') : r.Takes cs r' := by
  intro n tail hn
  obtain ⟨c, rest, hcons, hread⟩ := hitem tail
  rw [List.length_append] at hn
  obtain ⟨n, rfl⟩ : ∃ m, n = m + 1 := ⟨n - 1, by omega⟩
  refine ⟨n, by omega, ?_⟩
  rw [hcons, read_cons hverbose, hread]
  simp only [Option.bind_eq_bind, Option.bind_some, haccept]

/-- A pattern is read to its end by what takes all of it. -/
theorem Takes.read (h : r.Takes cs r') (hverbose : r'.flags.verbose = false) {n : Nat}
    (hn : cs.length < n) : Reader.read n r cs = some r' := by
  rw [← List.append_nil cs] at hn ⊢
  obtain ⟨m, hm, hread⟩ := h n [] hn
  obtain ⟨m, rfl⟩ : ∃ l, m = l + 1 := ⟨m - 1, by omega⟩
  rw [hread, Reader.read, Flags.skip_eq hverbose]

/-- A pattern is valid if every group is closed when it has been taken, and it is not nested too
deeply. -/
theorem Takes.parse?_eq {pattern : String} (h : Takes {} pattern.toList r)
    (hverbose : r.flags.verbose = false) (houter : r.outer = [])
    (hdepth : r.group.inside.depth ≤ depthLimit) :
    parse? pattern = some r.group.inside.regex := by
  rw [parse?, h.read hverbose (Nat.lt_succ_of_le (Nat.le_of_eq String.length_toList))]
  simp only [Option.bind_eq_bind, Option.bind_some, finish, houter, if_pos hdepth]

/-- A reader takes an escaped text character by character. -/
theorem takes_escape (hflags : r.flags = {}) (cs : List Char) :
    r.Takes (cs.flatMap escapeChar) { r with group := { r.group with
      pieces := (cs.map (some ∘ Piece.ofChar)).reverse ++ r.group.pieces } } := by
  induction cs generalizing r with
  | nil => exact takes_nil
  | cons c cs ih =>
    have hchar : r.Takes (escapeChar c) (r.push (some (.ofChar c))) := by
      refine takes_item (.piece (.one (.single c.toNat)) 0) (hflags ▸ rfl)
        (length_escapeChar_pos c) (fun tail => ?_) rfl
      rw [hflags]
      exact Item.read_escapeChar c tail
    have hrest := hchar.append (ih (r := r.push (some (.ofChar c))) hflags)
    simpa [push] using hrest

/-- The characters of an escaped text are all plain. -/
theorem items?_escape (hflags : r.flags = {}) {n : Nat} (cs : List Char)
    (hn : (cs.flatMap escapeChar).length < n) :
    (r.items? n (cs.flatMap escapeChar)).any (·.all Item.isPlain) = true := by
  induction cs generalizing r n with
  | nil =>
    obtain ⟨n, rfl⟩ : ∃ k, n = k + 1 := ⟨n - 1, by omega⟩
    rw [List.flatMap_nil, items?, Flags.skip_eq (hflags ▸ rfl)]
    rfl
  | cons c cs ih =>
    obtain ⟨d, tail, hpattern, hitem⟩ := Item.read_escapeChar c (cs.flatMap escapeChar)
    have hlength : (cs.flatMap escapeChar).length < (d :: tail).length := by
      rw [← hpattern, List.length_append]
      have := length_escapeChar_pos c
      omega
    rw [List.flatMap_cons, hpattern] at hn ⊢
    obtain ⟨n, rfl⟩ : ∃ k, n = k + 1 := ⟨n - 1, by omega⟩
    rw [← hflags] at hitem
    have hrest := ih (r := r.push (some (.ofChar c))) hflags
      (Nat.lt_of_lt_of_le hlength (Nat.lt_succ_iff.mp hn))
    exact (plain_cons (hflags ▸ rfl) hitem rfl).mpr ⟨rfl, hrest⟩

end Reader

/-! ## Nesting -/

theorem foldl_max_le {parts : List Nat} {n deepest : Nat} (hn : n ≤ deepest)
    (h : ∀ depth ∈ parts, depth ≤ deepest) : parts.foldl max n ≤ deepest := by
  induction parts generalizing n with
  | nil => exact hn
  | cons depth parts ih =>
    obtain ⟨hdepth, hparts⟩ := List.forall_mem_cons.mp h
    exact ih (Nat.max_le.mpr ⟨hn, hdepth⟩) hparts

/-- What is written of parts is nested one level more deeply than they are, at most. -/
theorem depthOfParts_le {parts : List Nat} {deepest : Nat} (h : ∀ depth ∈ parts, depth ≤ deepest) :
    depthOfParts parts ≤ deepest + 1 := by
  have hdeepest := foldl_max_le (Nat.zero_le deepest) h
  simp only [depthOfParts]
  split <;> omega

/-! ## Escaped texts -/

/-- A group of characters holds them one after another. -/
theorem Group.inside_chars {g : Group} {cs : List Char} (hbranches : g.branches = [])
    (hpieces : g.pieces = (cs.map (some ∘ Piece.ofChar)).reverse) :
    g.inside = ⟨concat (cs.map fun c => .one (.single c.toNat)),
      depthOfParts (List.replicate cs.length 0)⟩ := by
  have hregexes : (cs.map (some ∘ Piece.ofChar)).filterMap (·.map Piece.regex)
      = cs.map fun c => .one (.single c.toNat) := by
    rw [List.filterMap_map]
    exact congrFun List.filterMap_eq_map cs
  have hdepths : (cs.map (some ∘ Piece.ofChar)).map
      (fun p : Option Piece => (p.map Piece.depth).getD 0) = List.replicate cs.length 0 := by
    rw [List.map_map]
    exact List.map_const' ..
  simp only [inside, hbranches]
  rw [branch, hpieces, List.reverse_reverse, hregexes, List.map_reverse, hdepths,
    List.reverse_replicate]

theorem toList_escape (text : String) : (escape text).toList = text.toList.flatMap escapeChar :=
  String.toList_ofList

theorem parse?_escape (text : String) :
    parse? (escape text) = some (concat (text.toList.map fun c => .one (.single c.toNat))) := by
  have htakes := Reader.takes_escape (r := {}) rfl text.toList
  rw [← toList_escape] at htakes
  have hinside := Group.inside_chars (g := { pieces := (text.toList.map _).reverse ++ [] }) rfl
    (List.append_nil _)
  have hdepth : depthOfParts (List.replicate text.toList.length 0) ≤ Reader.depthLimit :=
    Nat.le_trans
      (depthOfParts_le fun _ hdepth => Nat.le_of_eq (List.eq_of_mem_replicate hdepth))
      (by decide : 0 + 1 ≤ Reader.depthLimit)
  rw [htakes.parse?_eq rfl rfl (by rw [hinside]; exact hdepth), hinside]

/-- A literal text can always be written as a plain pattern. -/
theorem isPlain_escape (text : String) : isPlain (escape text) = true := by
  rw [isPlain, parse?_escape, toList_escape, Reader.items?_escape rfl]
  · rfl
  · rw [← toList_escape, String.length_toList]
    exact Nat.lt_succ_self _

/-- Characters one after another lead over themselves. -/
theorem extract_of_inTurn_chars {cs : List Char}
    (h : inTurn (cs.map fun c => (Regex.one (.single c.toNat)).Matches) text i j) :
    (text.extract i j).toList = cs := by
  rw [Array.toList_extract, List.extract_eq_take_drop]
  induction cs generalizing i with
  | nil =>
    obtain rfl : i = j := h
    simp
  | cons c cs ih =>
    obtain ⟨_, ⟨hc, rfl⟩, hrest⟩ := h
    have hle : i + 1 ≤ j := by
      refine (Meaning.local_inTurn fun m hm => ?_).le hrest
      obtain ⟨c, _, rfl⟩ := List.mem_map.mp hm
      exact local_one _
    obtain ⟨d, hd, hdc⟩ := (Option.any_eq_true _ _).mp hc
    rw [Text.Intervals.has, Text.Intervals.covers_single, beq_iff_eq, Char.toNat_inj] at hdc
    obtain ⟨hi, hd⟩ := Array.getElem?_eq_some_iff.mp hd
    rw [List.drop_eq_getElem_cons (by simpa using hi), Array.getElem_toList, hd, hdc,
      show j - i = j - (i + 1) + 1 by omega, List.take_succ_cons, ih hrest]

/-- An escaped text means the text itself. -/
theorem extract_of_denotes_escape {literal : String} (h : Denotes (escape literal) text i j) :
    (text.extract i j).toList = literal.toList := by
  rw [denotes_iff (parse?_escape literal), matches_concat, List.map_map] at h
  exact extract_of_inTurn_chars h

end Chunkwise.Regex
