import Chunkwise.Proofs.Building
import Mathlib.Data.List.Induction

/-! Names and their symbols. However many names are interned in a row, and however often each, a
name that is new gets the number of the different names in front of it. It keeps it ever after, no
other name has it, and the name is found by it. -/

namespace Chunkwise.Symbols

/-- Interns names one after another: the symbols that they get, and the names known then. -/
def internAll (s : Symbols) : List String → List Symbol × Symbols
  | [] => ([], s)
  | name :: names =>
    let (symbol, s) := s.intern name
    let (symbols, s) := s.internAll names
    (symbol :: symbols, s)

variable {s : Symbols} {names : List String} {name : String} {symbol : Symbol}

theorem snd_internAll (names : List String) (s : Symbols) :
    (s.internAll names).2 = names.foldl (fun s name => (s.intern name).2) s := by
  induction names generalizing s with
  | nil => rfl
  | cons name names ih => exact ih (s.intern name).2

@[simp] theorem length_internAll (names : List String) (s : Symbols) :
    (s.internAll names).1.length = names.length := by
  induction names generalizing s with
  | nil => rfl
  | cons name names ih => exact congrArg Nat.succ (ih (s.intern name).2)

theorem prefix_internAll (names : List String) (s : Symbols) :
    s.names.toList <+: (s.internAll names).2.names.toList := by
  rw [snd_internAll]
  exact prefix_foldl_intern names s

/-- The symbol that a name got is its symbol from then on. -/
theorem get?_of_mem_zip {x : String × Symbol} (h : x ∈ names.zip (s.internAll names).1) :
    (s.internAll names).2.get? x.1 = some x.2 := by
  induction names generalizing s with
  | nil => cases h
  | cons name names ih =>
    rcases List.mem_cons.mp h with rfl | hm
    · exact get?_mono (prefix_internAll names _) (get?_intern s name)
    · exact ih hm

/-- What is known is each name once, in the order in which the names first came. -/
theorem names_ofList_eq (names : List String) : (ofList names).names.toList = names.eraseDups := by
  induction names using List.reverseRecOn with
  | nil => rfl
  | append_singleton names name ih =>
    rw [ofList, List.foldl_append, List.foldl_cons, List.foldl_nil, ← ofList, List.eraseDups_append,
      ← ih]
    by_cases h : name ∈ names
    · rw [intern_of_mem (ih ▸ List.mem_eraseDups.mpr h)]
      simp [List.removeAll, h]
    · rw [names_intern_of_not_mem (ih ▸ fun hm => h (List.mem_eraseDups.mp hm))]
      simp [List.removeAll, h, List.eraseDups_cons]

/-! ## What a table knows -/

/-- A symbol is the place of its name. -/
theorem index_of_get? (h : s.get? name = some symbol) :
    symbol.index = s.names.toList.idxOf name ∧ symbol.index < s.size := by
  have hplace : s.names.toList.idxOf? name = some symbol.index := get?_eq_some_iff.mp h
  obtain ⟨hlt, _⟩ := List.idxOf?_eq_some_iff.mp hplace
  rw [List.idxOf_eq_getD_idxOf?, hplace]
  exact ⟨rfl, hlt⟩

theorem mem_of_get? (h : s.get? name = some symbol) : name ∈ s.names.toList := by
  by_contra hnot
  cases (get?_eq_none_iff.mpr hnot).symm.trans h

theorem resolve?_eq_none_iff : s.resolve? symbol = none ↔ s.size ≤ symbol.index :=
  Array.getElem?_eq_none_iff

theorem resolve_of_get? (h : s.get? name = some symbol) : s.resolve symbol = .ok name := by
  rw [resolve, resolve?_of_get? h]

theorem resolve_eq_error_iff {e : String} :
    s.resolve symbol = .error e ↔ s.size ≤ symbol.index ∧ e = outOfRange symbol := by
  rw [← resolve?_eq_none_iff, resolve]
  cases s.resolve? symbol with
  | some name => simp
  | none => simp [eq_comm]

/-! ## What a sequence of names gets -/

/-- What the names that are interned in a row get, where `symbols` are what the calls gave and `s`
is the table then. -/
structure Numbered (names : List String) (symbols : List Symbol) (s : Symbols) : Prop where
  length : symbols.length = names.length
  /-- The number of a name among the different names, in the order in which they first came. -/
  numbers : ∀ x ∈ names.zip symbols, x.2.index = names.eraseDups.idxOf x.1
  /-- Only the same name gets the same symbol again. -/
  same : ∀ x ∈ names.zip symbols, ∀ y ∈ names.zip symbols, x.2 = y.2 ↔ x.1 = y.1
  size : s.size = names.eraseDups.length
  /-- With fewer names than that, 32 bits are enough for a symbol. -/
  fits : s.size < 2 ^ 32 → ∀ x ∈ names.zip symbols, x.2.index < 2 ^ 32
  /-- A name is found by its symbol, whatever more is interned. -/
  resolves : ∀ more, ∀ x ∈ names.zip symbols, (s.internAll more).2.resolve x.2 = .ok x.1
  /-- Just the names that were interned are known, each by the symbol that it got. Asking for the
  symbol of a name gives no other table. -/
  knows : ∀ name symbol, s.get? name = some symbol ↔ (name, symbol) ∈ names.zip symbols
  /-- Just the numbers from the size on are out of range. -/
  unknown : ∀ symbol, (s.resolve? symbol = none ↔ s.size ≤ symbol.index) ∧
    ∀ e, s.resolve symbol = .error e ↔ s.size ≤ symbol.index ∧ e = outOfRange symbol
  /-- The different names are listed with their symbols, in the order in which they first came. -/
  lists : s.toList = names.eraseDups.zipIdx.map fun (name, i) => (⟨i⟩, name)

/-- **Interning is a stable numbering.** Whatever names are interned, the symbols are the numbers of
the different names from zero on, and a name and its symbol belong to each other for good. -/
theorem interning_is_stable (names : List String) :
    Numbered names (internAll {} names).1 (internAll {} names).2 := by
  have hnames : (internAll {} names).2.names.toList = names.eraseDups := by
    rw [snd_internAll]
    exact names_ofList_eq names
  have hfst : (names.zip (internAll {} names).1).map Prod.fst = names :=
    List.map_fst_zip (Nat.le_of_eq (length_internAll names {}).symm)
  constructor
  case length => exact length_internAll names {}
  case numbers =>
    intro x hx
    rw [← hnames]
    exact (index_of_get? (get?_of_mem_zip hx)).1
  case same =>
    intro x hx y hy
    have hgetx := get?_of_mem_zip hx
    have hgety := get?_of_mem_zip hy
    constructor
    · intro he
      exact get?_inj hgetx (he ▸ hgety)
    · intro he
      exact Option.some.inj (hgetx.symm.trans (he ▸ hgety))
  case size => rw [← hnames, Array.length_toList, size]
  case fits =>
    intro hfew x hx
    exact Nat.lt_trans (index_of_get? (get?_of_mem_zip hx)).2 hfew
  case resolves =>
    intro more x hx
    exact resolve_of_get? (get?_mono (prefix_internAll more _) (get?_of_mem_zip hx))
  case knows =>
    intro name symbol
    refine ⟨fun hget => ?_, get?_of_mem_zip⟩
    -- a name that is known was interned, and got the symbol by which it is known
    have hm : name ∈ (names.zip (internAll {} names).1).map Prod.fst := by
      rw [hfst, ← List.mem_eraseDups, ← hnames]
      exact mem_of_get? hget
    obtain ⟨x, hx, rfl⟩ := List.mem_map.mp hm
    cases (get?_of_mem_zip hx).symm.trans hget
    exact hx
  case unknown => exact fun symbol => ⟨resolve?_eq_none_iff, fun e => resolve_eq_error_iff⟩
  case lists => rw [toList, hnames]

example : (internAll {} ["z", "a", "z"]).1 = [⟨0⟩, ⟨1⟩, ⟨0⟩] := by decide +kernel

end Chunkwise.Symbols
