import Mathlib.Data.List.Forall2
import Chunkwise.Proofs.Meaning
import Chunkwise.Proofs.Reading

/-! Patterns in groups. Written patterns are put in groups before they are read. A pattern that is
valid by itself and makes no assertions means the same in a group, unless it sets the flag under
which the closing parenthesis of the group could stand in a comment. -/

namespace Chunkwise.Regex

open Meaning (inTurn either Local)

/-! ## Plain patterns -/

/-- Whether an item asserts nothing and does not set that blanks stand for nothing. -/
def Item.isPlain : Item → Bool
  | .piece (.assertion _) _ => false
  | .opening (.plain inside) => !inside.verbose
  | .flags f => !f.verbose
  | _ => true

/-- The items of a pattern, read as `Reader.read` reads them. -/
def Reader.items? : Nat → Reader → List Char → Option (List Item)
  | 0, _, _ => none
  | fuel + 1, r, cs =>
    match r.flags.skip cs with
    | [] => some []
    | c :: rest => do
      let (item, rest) ← Item.read r.flags c rest
      let items ← items? fuel (← r.accept item) rest
      some (item :: items)

/-- Whether a pattern is valid by itself and all its items are plain. -/
def isPlain (pattern : String) : Bool :=
  (parse? pattern).isSome &&
    (Reader.items? (pattern.length + 1) {} pattern.toList).any (·.all Item.isPlain)

/-! ## Plain items -/

/-- An item that means the same wherever it stands. -/
def Item.Steady : Item → Prop
  | .piece x _ => Local x.Matches
  | .opening (.plain inside) => inside.verbose = false
  | .quantifier least most _ => ∀ bound ∈ most, least ≤ bound
  | .flags f => f.verbose = false
  | _ => True

theorem local_one (s : Text.Intervals) : Local (Regex.one s).Matches where
  le := by
    rintro text i j ⟨_, rfl⟩
    exact Nat.le_succ i
  moves := by
    rintro text text' p q n hsame i j hj ⟨hs, hij⟩
    obtain rfl : j = i + 1 := by omega
    refine ⟨?_, by omega⟩
    unfold after at hs ⊢
    rwa [← hsame i (by omega)]

namespace Item

variable {f : Flags} {c : Char} {rest rest' : List Char} {item : Item}

theorem readMost_le {least : Nat} {bounds : Nat × Option Nat}
    (h : readMost f least rest = some (bounds, rest')) :
    bounds.1 = least ∧ ∀ most ∈ bounds.2, least ≤ most := by
  obtain ⟨⟨most, behind⟩, _, h⟩ := Option.bind_eq_some_iff.mp h
  simp only at h
  split at h
  · split at h
    · cases h
      exact ⟨rfl, by simpa⟩
    · cases h
  · cases h

theorem readBounds_le {bounds : Nat × Option Nat} (h : readBounds f rest = some (bounds, rest')) :
    ∀ most ∈ bounds.2, bounds.1 ≤ most := by
  obtain ⟨⟨least, behind⟩, _, h⟩ := Option.bind_eq_some_iff.mp h
  simp only at h
  split at h
  · cases h
    simp
  · split at h
    · cases h
      exact nofun
    · obtain ⟨hleast, hmost⟩ := readMost_le h
      exact hleast ▸ hmost
  · cases h

theorem steady_quantified {least : Nat} {most : Option Nat} (hle : ∀ bound ∈ most, least ≤ bound)
    (h : quantified least most rest = (item, rest')) : item.Steady := by
  unfold quantified at h
  split at h
  · cases h
    exact hle
  · cases h
    exact hle

theorem steady_literal? {byte : Bool} {x : Regex} (h : literal? f c byte = some x) :
    Local x.Matches := by
  unfold literal? at h
  split at h
  · cases h
    exact local_one _
  · split at h
    · cases h
    · cases h
      exact local_one _

theorem steady_ofEscape {e : Escape} {x : Regex} (h : ofEscape f e = some x)
    (hplain : (Item.piece x 0).isPlain = true) : Local x.Matches := by
  cases e with
  | literal c byte => exact steady_literal? h
  | set s =>
    cases h
    exact local_one s
  | assertion a =>
    cases h
    cases hplain

theorem steady_readSetting (h : readSetting f rest = some (item, rest'))
    (hplain : item.isPlain = true) : item.Steady := by
  obtain ⟨inside, _, h⟩ := Option.bind_eq_some_iff.mp h
  split at h
  · cases h
    simpa [isPlain, Steady] using hplain
  · split at h
    · cases h
    · cases h
      simpa [isPlain, Steady] using hplain
  · cases h

theorem steady_readGroupName (h : readGroupName rest = some (item, rest')) : item.Steady := by
  obtain ⟨behind, _, h⟩ := Option.bind_eq_some_iff.mp h
  split at h
  · cases h
    trivial
  · cases h

theorem steady_readGroup (h : readGroup f rest = some (item, rest'))
    (hplain : item.isPlain = true) : item.Steady := by
  unfold readGroup at h
  split at h
  · exact steady_readGroupName h
  · exact steady_readGroupName h
  · exact steady_readSetting h hplain
  · cases h
    trivial

theorem steady_read (h : read f c rest = some (item, rest')) (hplain : item.isPlain = true) :
    item.Steady := by
  unfold read at h
  split at h
  · exact steady_readGroup h hplain
  · cases h
    trivial
  · cases h
    trivial
  · obtain ⟨_, _, h⟩ := Option.map_eq_some_iff.mp h
    cases h
    exact local_one _
  · exact steady_quantified (by simp) (Option.some.inj h)
  · exact steady_quantified (by simp) (Option.some.inj h)
  · exact steady_quantified (by simp) (Option.some.inj h)
  · obtain ⟨⟨bounds, behind⟩, hbounds, h⟩ := Option.map_eq_some_iff.mp h
    exact steady_quantified (readBounds_le hbounds) h
  · obtain ⟨_, _, h⟩ := Option.map_eq_some_iff.mp h
    cases h
    exact local_one _
  · cases h
    cases hplain
  · cases h
    cases hplain
  · obtain ⟨⟨e, behind⟩, _, h⟩ := Option.bind_eq_some_iff.mp h
    obtain ⟨x, hx, h⟩ := Option.bind_eq_some_iff.mp h
    cases h
    exact steady_ofEscape hx hplain
  · obtain ⟨x, hx, h⟩ := Option.map_eq_some_iff.mp h
    cases h
    exact steady_literal? hx

end Item

/-! ## Groups of the same meaning -/

def Piece.meaning (x : Piece) : Meaning := x.regex.Matches

namespace Group

variable {g g' : Group}

theorem meaning_branch (g : Group) :
    g.branch.meaning = inTurn ((g.pieces.map (·.map Piece.meaning)).reverse.filterMap id) := by
  rw [Piece.meaning, branch, matches_concat, List.map_filterMap, ← List.map_reverse,
    List.filterMap_map]
  congr 2
  funext x
  cases x <;> rfl

theorem meaning_inside (g : Group) :
    g.inside.meaning = either ((g.branch :: g.branches).reverse.map Piece.meaning) := by
  unfold inside
  split
  · rename_i h
    rw [h]
    exact (Meaning.either_single _).symm
  · simp only [Piece.meaning, matches_choice, List.map_map]
    rfl

theorem meaning_close (g : Group) : g.close.meaning = g.inside.meaning := by
  unfold close
  split <;> rfl

/-- Groups that have been read alike, but for their numbers. -/
structure Alike (g g' : Group) : Prop where
  outerFlags : g.outerFlags = g'.outerFlags
  branches : g.branches.map Piece.meaning = g'.branches.map Piece.meaning
  pieces : g.pieces.map (·.map Piece.meaning) = g'.pieces.map (·.map Piece.meaning)

theorem Alike.branch (h : g.Alike g') : g.branch.meaning = g'.branch.meaning := by
  rw [meaning_branch, meaning_branch, h.pieces]

theorem Alike.close (h : g.Alike g') : g.close.meaning = g'.close.meaning := by
  rw [meaning_close, meaning_close, meaning_inside, meaning_inside, List.map_reverse,
    List.map_reverse, List.map_cons, List.map_cons, h.branch, h.branches]

/-- A group that holds nothing but what means the same wherever it stands. -/
structure Steady (g : Group) : Prop where
  outerFlags : g.outerFlags.verbose = false
  branches : ∀ x ∈ g.branches, Local x.meaning
  pieces : ∀ x, some x ∈ g.pieces → Local x.meaning

theorem Steady.branch (h : g.Steady) : Local g.branch.meaning := by
  rw [meaning_branch]
  refine Meaning.local_inTurn fun m hm => ?_
  simp only [List.mem_filterMap, List.mem_reverse, List.mem_map, id] at hm
  obtain ⟨_, ⟨x, hx, rfl⟩, hm⟩ := hm
  obtain ⟨y, rfl, rfl⟩ := Option.map_eq_some_iff.mp hm
  exact h.pieces y hx

theorem Steady.inside (h : g.Steady) : Local g.inside.meaning := by
  rw [meaning_inside]
  refine Meaning.local_either fun m hm => ?_
  obtain ⟨x, hx, rfl⟩ := List.mem_map.mp hm
  rcases List.mem_cons.mp (List.mem_reverse.mp hx) with rfl | hx
  · exact h.branch
  · exact h.branches x hx

end Group

/-! ## Readers -/

/-- The pattern in a group that is not counted. -/
def wrapped (source : String) : List Char := '(' :: '?' :: ':' :: source.toList ++ [')']

namespace Reader

variable {r r' w w' : Reader} {item : Item} {below : List Group}

/-- A reader that has read nothing but what means the same wherever it stands, from the flags on
that hold at first. -/
structure Steady (r : Reader) : Prop where
  flags : r.flags.verbose = false
  groups : ∀ g ∈ r.group :: r.outer, g.Steady
  bottom : ((r.group :: r.outer).map Group.outerFlags).getLast? = some {}

/-- A reader within the groups `below` that has read what another one has read alone. -/
structure Alike (below : List Group) (r w : Reader) : Prop where
  flags : r.flags = w.flags
  group : r.group.Alike w.group
  outer : ∃ outer, w.outer = outer ++ below ∧ List.Forall₂ Group.Alike r.outer outer

theorem Steady.push (h : r.Steady) {piece : Option Piece}
    (hpiece : ∀ x ∈ piece, Local x.meaning) : (r.push piece).Steady where
  flags := h.flags
  groups := by
    obtain ⟨hgroup, houter⟩ := List.forall_mem_cons.mp h.groups
    refine List.forall_mem_cons.mpr ⟨⟨hgroup.outerFlags, hgroup.branches, fun x hx => ?_⟩, houter⟩
    exact (List.mem_cons.mp hx).elim (fun hx => hpiece x hx.symm) (hgroup.pieces x)
  bottom := h.bottom

theorem Steady.enter (h : r.Steady) {inside : Flags} (hinside : inside.verbose = false)
    (index : Option Nat) : (r.enter inside index).Steady where
  flags := hinside
  groups := List.forall_mem_cons.mpr ⟨⟨h.flags, nofun, nofun⟩, h.groups⟩
  bottom := h.bottom

theorem Steady.accept (h : r.Steady) (hitem : item.Steady) (haccept : r.accept item = some r') :
    r'.Steady := by
  obtain ⟨hgroup, houter⟩ := List.forall_mem_cons.mp h.groups
  cases item with
  | piece x depth =>
    cases haccept
    exact h.push fun y hy => Option.some.inj hy ▸ hitem
  | opening o =>
    cases o with
    | plain inside =>
      cases haccept
      exact h.enter hitem none
    | counted name =>
      simp only [Reader.accept] at haccept
      split at haccept
      · cases haccept
      · cases haccept
        have henter := h.enter h.flags (some r.count)
        exact ⟨henter.flags, henter.groups, henter.bottom⟩
  | closing =>
    simp only [Reader.accept] at haccept
    split at haccept
    · cases haccept
    · rename_i g outer hcons
      cases haccept
      have hbottom := h.bottom
      rw [hcons] at houter hbottom
      refine Steady.push ⟨hgroup.outerFlags, houter, hbottom⟩ fun x hx => ?_
      cases hx
      exact Group.meaning_close _ ▸ hgroup.inside
  | bar =>
    cases haccept
    refine ⟨h.flags, List.forall_mem_cons.mpr ⟨⟨hgroup.outerFlags, ?_, nofun⟩, houter⟩, h.bottom⟩
    exact List.forall_mem_cons.mpr ⟨hgroup.branch, hgroup.branches⟩
  | quantifier least most greedy =>
    simp only [Reader.accept] at haccept
    split at haccept
    · rename_i x pieces hpieces
      cases haccept
      have hbefore := hgroup.pieces
      rw [hpieces] at hbefore
      refine ⟨h.flags, List.forall_mem_cons.mpr ⟨⟨hgroup.outerFlags, hgroup.branches, ?_⟩, houter⟩,
        h.bottom⟩
      intro y hy
      rcases List.mem_cons.mp hy with hy | hy
      · cases hy
        rw [Piece.meaning, matches_repeated _ _ hitem]
        exact Meaning.local_repeated (hbefore x List.mem_cons_self) least most
      · exact hbefore y (List.mem_cons_of_mem _ hy)
    · cases haccept
  | flags f =>
    cases haccept
    exact Steady.push (r := { r with flags := f }) ⟨hitem, h.groups, h.bottom⟩ (by simp)

theorem Alike.push (h : Alike below r w) {piece piece' : Option Piece}
    (hpiece : piece.map Piece.meaning = piece'.map Piece.meaning) :
    Alike below (r.push piece) (w.push piece') where
  flags := h.flags
  group := ⟨h.group.outerFlags, h.group.branches, List.cons_eq_cons.mpr ⟨hpiece, h.group.pieces⟩⟩
  outer := h.outer

theorem Alike.enter (h : Alike below r w) (inside : Flags) (index index' : Option Nat) :
    Alike below (r.enter inside index) (w.enter inside index') where
  flags := rfl
  group := ⟨h.flags, rfl, rfl⟩
  outer := by
    obtain ⟨outer, houter, halike⟩ := h.outer
    exact ⟨w.group :: outer, congrArg (w.group :: ·) houter, .cons h.group halike⟩

/-- What is taken alone is taken alike within groups. -/
theorem Alike.accept (h : Alike below r w) (hitem : item.Steady)
    (hr : r.accept item = some r') (hw : w.accept item = some w') : Alike below r' w' := by
  cases item with
  | piece x depth =>
    cases hr
    cases hw
    exact h.push rfl
  | opening o =>
    cases o with
    | plain inside =>
      cases hr
      cases hw
      exact h.enter inside none none
    | counted name =>
      simp only [Reader.accept] at hr hw
      split at hr <;> cases hr
      split at hw <;> cases hw
      have henter := h.enter r.flags (some r.count) (some w.count)
      exact ⟨h.flags, henter.group, henter.outer⟩
  | closing =>
    obtain ⟨outer, houter, halike⟩ := h.outer
    simp only [Reader.accept] at hr hw
    split at hr <;> cases hr
    rename_i g rest hcons
    rw [hcons] at halike
    obtain _ | ⟨hg, hrest⟩ := halike
    rw [houter, List.cons_append] at hw
    cases hw
    exact Alike.push ⟨h.group.outerFlags, hg, _, rfl, hrest⟩ (congrArg some h.group.close)
  | bar =>
    cases hr
    cases hw
    exact ⟨h.flags, ⟨h.group.outerFlags,
      List.cons_eq_cons.mpr ⟨h.group.branch, h.group.branches⟩, rfl⟩, h.outer⟩
  | quantifier least most greedy =>
    have hpieces := h.group.pieces
    simp only [Reader.accept] at hr hw
    split at hr <;> cases hr
    rename_i x pieces hcons
    split at hw <;> cases hw
    rename_i y pieces' hcons'
    rw [hcons, hcons'] at hpieces
    obtain ⟨hxy, hpieces⟩ := List.cons_eq_cons.mp hpieces
    refine ⟨h.flags, ⟨h.group.outerFlags, h.group.branches, ?_⟩, h.outer⟩
    refine List.cons_eq_cons.mpr ⟨congrArg some ?_, hpieces⟩
    have hxy : x.regex.Matches = y.regex.Matches := Option.some.inj hxy
    simp only [Piece.meaning]
    rw [matches_repeated _ _ hitem, matches_repeated _ _ hitem, hxy]
  | flags f =>
    cases hr
    cases hw
    exact Alike.push (r := { r with flags := f }) (w := { w with flags := f })
      ⟨rfl, h.group, h.outer⟩ rfl

theorem read_cons {n : Nat} {c : Char} {rest : List Char} (hverbose : r.flags.verbose = false) :
    read (n + 1) r (c :: rest) = (do
      let (item, rest) ← Item.read r.flags c rest
      read n (← r.accept item) rest) := by
  rw [read, Flags.skip_eq hverbose]

theorem read_nil {n : Nat} {fin : Reader} (hverbose : r.flags.verbose = false)
    (h : read n r [] = some fin) : fin = r := by
  cases n with
  | zero => cases h
  | succ n =>
    rw [read, Flags.skip_eq hverbose] at h
    exact (Option.some.inj h).symm

/-- A pattern is plain if its first item and the rest are. -/
theorem plain_cons {n : Nat} {c : Char} {rest rest' : List Char}
    (hverbose : r.flags.verbose = false) (hitem : Item.read r.flags c rest = some (item, rest'))
    (haccept : r.accept item = some r') :
    (r.items? (n + 1) (c :: rest)).any (·.all Item.isPlain) = true
      ↔ item.isPlain = true ∧ (r'.items? n rest').any (·.all Item.isPlain) = true := by
  simp only [items?, Flags.skip_eq hverbose, hitem, haccept, Option.bind_eq_bind,
    Option.bind_some]
  cases r'.items? n rest' <;> simp

theorem Steady.read {n : Nat} {cs : List Char} (h : r.Steady) (hread : read n r cs = some r')
    (hplain : (r.items? n cs).any (·.all Item.isPlain) = true) : r'.Steady := by
  induction n generalizing r cs with
  | zero => cases hread
  | succ n ih =>
    cases cs with
    | nil => exact read_nil h.flags hread ▸ h
    | cons c cs =>
      rw [read_cons h.flags] at hread
      obtain ⟨⟨item, rest⟩, hitem, hread⟩ := Option.bind_eq_some_iff.mp hread
      obtain ⟨r₁, haccept, hread⟩ := Option.bind_eq_some_iff.mp hread
      obtain ⟨hplain, hrest⟩ := (plain_cons h.flags hitem haccept).mp hplain
      exact ih (h.accept (Item.steady_read hitem hplain) haccept) hread hrest

/-- What is read alone is read alike within groups, up to the parenthesis that closes them. -/
theorem Alike.read {n k : Nat} {cs tail : List Char} {fin : Reader} (h : Alike below r w)
    (hsteady : r.Steady) (hr : read n r cs = some r')
    (hplain : (r.items? n cs).any (·.all Item.isPlain) = true)
    (hw : read k w (cs ++ ')' :: tail) = some fin) :
    ∃ k w', Alike below r' w' ∧ Reader.read k w' (')' :: tail) = some fin := by
  induction n generalizing k r w cs with
  | zero => cases hr
  | succ n ih =>
    cases cs with
    | nil => exact ⟨k, w, read_nil hsteady.flags hr ▸ h, hw⟩
    | cons c cs =>
      rw [read_cons hsteady.flags] at hr
      obtain ⟨⟨item, rest⟩, hitem, hr⟩ := Option.bind_eq_some_iff.mp hr
      obtain ⟨r₁, haccept, hr⟩ := Option.bind_eq_some_iff.mp hr
      obtain ⟨hplain, hrest⟩ := (plain_cons hsteady.flags hitem haccept).mp hplain
      have hitemSteady := Item.steady_read hitem hplain
      -- the item is read within the groups, too, for the reading there has not failed
      cases k with
      | zero => cases hw
      | succ k =>
        rw [List.cons_append, read_cons (h.flags ▸ hsteady.flags), ← h.flags] at hw
        simp only [Item.read_readsOn hsteady.flags c tail hitem, Option.bind_eq_bind,
          Option.bind_some] at hw
        obtain ⟨w₁, haccept', hw⟩ := Option.bind_eq_some_iff.mp hw
        exact ih (h.accept hitemSteady haccept haccept')
          (hsteady.accept hitemSteady haccept) hr hrest hw

theorem finish_eq_some {x : Regex} (h : r.finish = some x) :
    r.outer = [] ∧ r.group.inside.regex = x := by
  unfold finish at h
  split at h
  · rename_i houter
    split at h
    · exact ⟨houter, Option.some.inj h⟩
    · cases h
  · cases h

theorem steady_default : Steady {} where
  flags := rfl
  groups := List.forall_mem_singleton.mpr ⟨rfl, nofun, nofun⟩
  bottom := rfl

/-- What a plain pattern is read as, and the reader that has read it. -/
theorem reader_of_isPlain {source : String} {x : Regex} (hplain : isPlain source = true)
    (hparse : parse? source = some x) :
    ∃ own, read (source.length + 1) {} source.toList = some own ∧ own.Steady ∧ own.outer = [] ∧
      own.group.inside.meaning = x.Matches := by
  obtain ⟨own, hown, hfinish⟩ := Option.bind_eq_some_iff.mp hparse
  obtain ⟨houter, rfl⟩ := finish_eq_some hfinish
  exact ⟨own, hown, steady_default.read hown (Bool.and_eq_true_iff.mp hplain).2, houter, rfl⟩

/-- A plain pattern means the same in a group. -/
theorem read_group {source : String} {x : Regex} (hplain : isPlain source = true)
    (hparse : parse? source = some x) (hflags : r.flags = {}) {n : Nat} {tail : List Char}
    {fin : Reader} (h : read n r (wrapped source ++ tail) = some fin) :
    ∃ k r' piece, piece.meaning = x.Matches ∧ r'.flags = {} ∧ r'.outer = r.outer ∧
      r'.group = { r.group with pieces := some piece :: r.group.pieces } ∧
      read k r' tail = some fin := by
  obtain ⟨own, hown, hsteady, houter, hmeaning⟩ := reader_of_isPlain hplain hparse
  cases n with
  | zero => cases h
  | succ n =>
    simp only [wrapped, List.append_assoc, List.cons_append, List.nil_append,
      read_cons (r := r) (hflags ▸ rfl), hflags] at h
    -- the group is opened under the flags that hold for a pattern by itself
    replace h : read n (r.enter {} none) (source.toList ++ ')' :: tail) = some fin := h
    have hbegin : Alike (r.group :: r.outer) {} (r.enter {} none) :=
      ⟨rfl, ⟨hflags.symm, rfl, rfl⟩, [], rfl, .nil⟩
    obtain ⟨k, w, halike, hw⟩ :=
      hbegin.read steady_default hown (Bool.and_eq_true_iff.mp hplain).2 h
    obtain ⟨outer, houter', hrest⟩ := halike.outer
    rw [houter] at hrest
    cases hrest
    have hbottom := hsteady.bottom
    rw [houter] at hbottom
    cases k with
    | zero => cases hw
    | succ k =>
      rw [read_cons (halike.flags ▸ hsteady.flags)] at hw
      simp only [Item.read, Option.bind_eq_bind, Option.bind_some, Reader.accept, houter',
        List.nil_append] at hw
      refine ⟨k, _, w.group.close, ?_, ?_, ?_, ?_, hw⟩
      · rw [← halike.group.close, Group.meaning_close, hmeaning]
      · exact halike.group.outerFlags.symm.trans (Option.some.inj hbottom)
      · rfl
      · rfl

end Reader

/-! ## Written patterns -/

/-- Where a written pattern leads from and to, read by itself. -/
def Denotes (pattern : String) : Meaning := fun text i j =>
  ∃ x, parse? pattern = some x ∧ x.Matches text i j

variable {text : Array Char} {i j : Nat}

theorem denotes_iff {pattern : String} {x : Regex} (h : parse? pattern = some x) :
    Denotes pattern text i j ↔ x.Matches text i j := by
  simp [Denotes, h]

theorem either_cons_iff (m : Meaning) (ms : List Meaning) :
    either (m :: ms) text i j ↔ m text i j ∨ either ms text i j := by
  simp [either]

/-- A plain pattern looks at nothing but what it leads over. -/
theorem local_of_isPlain {source : String} {x : Regex} (hplain : isPlain source = true)
    (hparse : parse? source = some x) : Local x.Matches := by
  obtain ⟨own, _, hsteady, _, hmeaning⟩ := Reader.reader_of_isPlain hplain hparse
  exact hmeaning ▸ (hsteady.groups own.group List.mem_cons_self).inside

theorem exists_of_isPlain {source : String} (h : isPlain source = true) :
    ∃ x, parse? source = some x :=
  Option.isSome_iff_exists.mp (Bool.and_eq_true_iff.mp h).1

theorem Group.meaning_inside_iff (g : Group) :
    g.inside.meaning text i j
      ↔ g.branch.meaning text i j ∨ either (g.branches.map Piece.meaning) text i j := by
  rw [Group.meaning_inside]
  simp only [either, List.mem_map, List.mem_reverse, List.mem_cons]
  constructor
  · rintro ⟨m, ⟨x, rfl | hx, rfl⟩, h⟩
    · exact .inl h
    · exact .inr ⟨_, ⟨x, hx, rfl⟩, h⟩
  · rintro (h | ⟨m, ⟨x, hx, rfl⟩, h⟩)
    · exact ⟨_, ⟨_, .inl rfl, rfl⟩, h⟩
    · exact ⟨_, ⟨x, .inr hx, rfl⟩, h⟩

theorem meaning_branch_single {g : Group} {piece : Piece} (h : g.pieces = [some piece]) :
    g.branch.meaning = piece.meaning := by
  rw [Group.meaning_branch, h]
  exact Meaning.inTurn_single _

/-- Plain patterns in groups, with bars in between, are read as what one of them means or what
one of the alternatives in front of them does. -/
theorem Reader.read_alternatives {sources : List String} (hne : sources ≠ [])
    (hplain : ∀ source ∈ sources, isPlain source = true) {r : Reader} (hflags : r.flags = {})
    (houter : r.outer = []) (hpieces : r.group.pieces = []) {n : Nat} {fin : Reader}
    (h : read n r (['|'].intercalate (sources.map wrapped)) = some fin) :
    fin.group.inside.meaning text i j ↔ either (sources.map Denotes) text i j ∨
      either (r.group.branches.map Piece.meaning) text i j := by
  induction sources generalizing n r with
  | nil => exact (hne rfl).elim
  | cons source sources ih =>
    obtain ⟨hsource, hplain⟩ := List.forall_mem_cons.mp hplain
    obtain ⟨x, hx⟩ := exists_of_isPlain hsource
    cases sources with
    | nil =>
      rw [List.map_singleton, List.intercalate_singleton, ← List.append_nil (wrapped source)] at h
      obtain ⟨k, r', piece, hpiece, hflags', houter', hgroup, h⟩ := read_group hsource hx hflags h
      obtain rfl := read_nil (hflags' ▸ rfl) h
      rw [hpieces] at hgroup
      rw [Group.meaning_inside_iff, meaning_branch_single (congrArg Group.pieces hgroup), hpiece,
        hgroup, List.map_singleton, either_cons_iff, denotes_iff hx]
      simp [either]
    | cons next sources =>
      rw [List.map_cons, List.map_cons, List.intercalate_cons_cons, List.append_assoc] at h
      obtain ⟨k, r', piece, hpiece, hflags', houter', hgroup, h⟩ := read_group hsource hx hflags h
      rw [hpieces] at hgroup
      cases k with
      | zero => cases h
      | succ k =>
        rw [List.cons_append, List.nil_append, read_cons (hflags' ▸ rfl)] at h
        -- the bar ends the alternative that the group is
        have hrest : fin.group.inside.meaning text i j
            ↔ either ((next :: sources).map Denotes) text i j
              ∨ either (r'.group.branch.meaning :: r'.group.branches.map Piece.meaning) text i j :=
          ih (r := { r' with group := { r'.group with
              branches := r'.group.branch :: r'.group.branches, pieces := [] } })
            (List.cons_ne_nil _ _) hplain hflags' (houter'.trans houter) rfl h
        have hbranch : r'.group.branch.meaning = x.Matches :=
          (meaning_branch_single (congrArg Group.pieces hgroup)).trans hpiece
        rw [hrest, hbranch, either_cons_iff x.Matches, List.map_cons (a := source),
          either_cons_iff, denotes_iff hx, hgroup]
        exact or_left_comm.trans or_assoc.symm

/-- What plain patterns in groups with bars in between mean. -/
theorem matches_alternatives {sources : List String} (hne : sources ≠ [])
    (hplain : ∀ source ∈ sources, isPlain source = true) {pattern : String}
    (hpattern : pattern.toList = ['|'].intercalate (sources.map wrapped)) {x : Regex}
    (h : parse? pattern = some x) :
    x.Matches text i j ↔ ∃ source ∈ sources, Denotes source text i j := by
  obtain ⟨fin, hread, hfinish⟩ := Option.bind_eq_some_iff.mp h
  obtain ⟨_, rfl⟩ := Reader.finish_eq_some hfinish
  rw [hpattern] at hread
  have hmeaning : fin.group.inside.meaning text i j ↔ either (sources.map Denotes) text i j ∨
      either [] text i j := Reader.read_alternatives hne hplain rfl rfl rfl hread
  simpa [Piece.meaning, either] using hmeaning

/-- What a plain pattern in a group means between assertions of both ends. -/
theorem matches_anchored {source : String} {x y : Regex} (hplain : isPlain source = true)
    (hx : parse? source = some x) (hy : parse? ("^(?:" ++ source ++ ")$") = some y) :
    y.Matches text i j ↔ i = 0 ∧ j = text.size ∧ x.Matches text i j := by
  obtain ⟨fin, hread, hfinish⟩ := Option.bind_eq_some_iff.mp hy
  obtain ⟨_, rfl⟩ := Reader.finish_eq_some hfinish
  have hpattern : ("^(?:" ++ source ++ ")$").toList = '^' :: (wrapped source ++ ['$']) := by
    simp [wrapped]
  rw [hpattern, Reader.read_cons rfl] at hread
  replace hread : Reader.read _ (Reader.push {} (some ⟨.assertion .textStart, 0⟩))
    (wrapped source ++ ['$']) = some fin := hread
  obtain ⟨k, r', piece, hpiece, hflags, _, hgroup, hread⟩ :=
    Reader.read_group hplain hx rfl hread
  cases k with
  | zero => cases hread
  | succ k =>
    rw [Reader.read_cons (hflags ▸ rfl), hflags] at hread
    obtain rfl := Reader.read_nil (r := r'.push (some ⟨.assertion .textEnd, 0⟩)) (hflags ▸ rfl)
      hread
    have hpieces : (r'.push (some ⟨.assertion .textEnd, 0⟩)).group.pieces
        = [some ⟨.assertion .textEnd, 0⟩, some piece, some ⟨.assertion .textStart, 0⟩] := by
      rw [Reader.push, hgroup]
      rfl
    have hbranches : (r'.push (some ⟨.assertion .textEnd, 0⟩)).group.branches = [] := by
      rw [Reader.push, hgroup]
      rfl
    show Piece.meaning _ text i j ↔ _
    rw [Group.meaning_inside_iff, hbranches, Group.meaning_branch, hpieces]
    show inTurn [_, piece.meaning, _] text i j ∨ either [] text i j ↔ _
    rw [hpiece]
    constructor
    · rintro (⟨_, ⟨hstart, rfl⟩, _, hmatch, _, ⟨hend, rfl⟩, rfl⟩ | ⟨_, hnone, _⟩)
      · exact ⟨eq_of_beq hstart, eq_of_beq hend, hmatch⟩
      · cases hnone
    · rintro ⟨rfl, rfl, hmatch⟩
      exact .inl ⟨0, ⟨rfl, rfl⟩, _, hmatch, _, ⟨beq_self_eq_true _, rfl⟩, rfl⟩

end Chunkwise.Regex
