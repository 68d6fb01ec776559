import Chunkwise.Proofs.Cutting

/-! Cutting a text by trying every place. The scan asks at one place after the other whether a
match starts there, and cuts around it unless it ends where the last piece did. A search that
jumps to the next match leaves out only places at which the scan goes on, so the loop that uses
it cuts the same pieces. -/

namespace Chunkwise

/-- Where the match that starts at a place ends, if one does, for a text of `size`
characters. -/
structure Matching (size : Nat) where
  stop? : Nat → Option Nat
  within : ∀ {q stop}, q ≤ size → stop? q = some stop → q ≤ stop ∧ stop ≤ size

namespace Matching

variable {size : Nat} (m : Matching size)

/-- The pieces of a text, the last one of which ended at `p`, with every place tried from `q`
on. -/
def scan (p q : Nat) : List (Nat × Nat) :=
  if _ : q < size then
    match hm : m.stop? q with
    | none => scan p (q + 1)
    | some stop =>
      if stop = p then scan p (q + 1) else (p, q) :: (q, stop) :: scan stop stop
  else [(p, size)]
termination_by 2 * (size - q) + if p = q then 0 else 1
decreasing_by
  · split <;> split <;> omega
  · split <;> split <;> omega
  · have := m.within (by omega) hm
    rw [if_pos trivial]
    split <;> omega

/-- No match starts at the place that the scan would cut around. -/
def Passes (p q : Nat) : Prop := m.stop? q = none ∨ m.stop? q = some p

theorem scan_behind {p q : Nat} (hq : size ≤ q) : m.scan p q = [(p, size)] := by
  rw [scan, dif_neg (Nat.not_lt_of_le hq)]

theorem scan_pass {p q : Nat} (hq : q < size) (h : m.Passes p q) :
    m.scan p q = m.scan p (q + 1) := by
  rw [scan, dif_pos hq]
  rcases h with h | h
  · split
    · rfl
    · rename_i hm
      cases h.symm.trans hm
  · split
    · rfl
    · rename_i hm
      cases h.symm.trans hm
      rw [if_pos rfl]

theorem scan_cut {p q stop : Nat} (hq : q < size) (hm : m.stop? q = some stop) (hne : stop ≠ p) :
    m.scan p q = (p, q) :: (q, stop) :: m.scan stop stop := by
  rw [scan, dif_pos hq]
  split
  · rename_i h
    cases h.symm.trans hm
  · rename_i h
    cases h.symm.trans hm
    rw [if_neg hne]

/-- The scan goes on to the next place that it would cut around. -/
theorem scan_passes {p q r : Nat} (hqr : q ≤ r) (hr : r ≤ size)
    (h : ∀ x, q ≤ x → x < r → m.Passes p x) : m.scan p q = m.scan p r := by
  induction hqr with
  | refl => rfl
  | @step r hle ih =>
    rw [ih (by omega) fun x hx hlt => h x hx (by omega)]
    exact m.scan_pass hr (h r hle (Nat.lt_succ_self r))

/-! ## Searching -/

/-- The search finds the match that starts at the first place possible. -/
structure FindsFirst (search : Nat → Option (Nat × Nat)) : Prop where
  found : ∀ {p start stop}, p ≤ size → search p = some (start, stop) →
    p ≤ start ∧ start ≤ size ∧ m.stop? start = some stop ∧
      ∀ q, p ≤ q → q < start → m.stop? q = none
  nothing : ∀ {p}, p ≤ size → search p = none → ∀ q, p ≤ q → q ≤ size → m.stop? q = none

variable {m} {search : Nat → Option (Nat × Nat)}

/-- A search finds the matches within the text, whatever is told of places behind it. -/
theorem FindsFirst.congr {m' : Matching size} (h : m.FindsFirst search)
    (hstop : ∀ q ≤ size, m'.stop? q = m.stop? q) : m'.FindsFirst search where
  found := by
    intro p start stop hp hs
    obtain ⟨hstart, hsize, hm, hnone⟩ := h.found hp hs
    refine ⟨hstart, hsize, (hstop start hsize).trans hm, fun q hq hlt => ?_⟩
    exact (hstop q (by omega)).trans (hnone q hq hlt)
  nothing hp hs q hq hsize := (hstop q hsize).trans (h.nothing hp hs q hq hsize)

theorem FindsFirst.staysWithin (h : m.FindsFirst search) : StaysWithin size search := by
  intro p start stop hp hs
  obtain ⟨hstart, hsize, hm, _⟩ := h.found hp hs
  exact ⟨hstart, m.within hsize hm⟩

/-- The loop cuts what the scan does. -/
theorem FindsFirst.scan_eq (h : m.FindsFirst search) {last p : Nat} {pieces : List (Nat × Nat)}
    (hcut : Cutting search size last p pieces) : m.scan last p = pieces := by
  induction hcut with
  | behind hp => exact m.scan_behind hp
  | @unmatched last p hp hs =>
    have hnone := h.nothing (Nat.le_of_lt hp) hs
    rw [m.scan_passes (Nat.le_of_lt hp) (Nat.le_refl size)
      fun q hq hlt => .inl (hnone q hq (Nat.le_of_lt hlt))]
    exact m.scan_behind (Nat.le_refl size)
  | @matchedBehind last p start stop hp hs hstart =>
    obtain ⟨_, _, _, hnone⟩ := h.found (Nat.le_of_lt hp) hs
    rw [m.scan_passes (Nat.le_of_lt hp) (Nat.le_refl size)
      fun q hq hlt => .inl (hnone q hq (Nat.lt_of_lt_of_le hlt hstart))]
    exact m.scan_behind (Nat.le_refl size)
  | @steppedOver last p start rest hp hs hlt _ ih =>
    obtain ⟨hstart, hsize, hm, hnone⟩ := h.found (Nat.le_of_lt hp) hs
    rw [m.scan_passes hstart hsize fun q hq hlt => .inl (hnone q hq hlt),
      m.scan_pass hlt (.inr hm)]
    exact ih
  | @cut last p start stop rest hp hs hlt hne _ ih =>
    obtain ⟨hstart, hsize, hm, hnone⟩ := h.found (Nat.le_of_lt hp) hs
    rw [m.scan_passes hstart hsize fun q hq hlt => .inl (hnone q hq hlt),
      m.scan_cut hlt hm hne, ih]

/-! ## What is cut -/

variable (m)

/-- What stands between two matches: no match starts in it, unless it is empty and starts in
front of it. -/
structure Filler (a b : Nat) : Prop where
  inside : ∀ q, a < q → q < b → m.stop? q = none
  front : a < b → m.stop? a = none ∨ m.stop? a = some a

theorem filler_of_passes {p q : Nat} (hq : q ≤ size) (h : ∀ x, p ≤ x → x < q → m.Passes p x) :
    m.Filler p q where
  inside := by
    intro x hx hlt
    rcases h x (Nat.le_of_lt hx) hlt with hnone | hsome
    · exact hnone
    · have := m.within (by omega) hsome
      omega
  front hlt := h p (Nat.le_refl p) hlt

/-- The pieces are matches in turn with what stands between them. -/
theorem scan_pieces {p q : Nat} (hpq : p ≤ q) (hq : q ≤ size)
    (h : ∀ x, p ≤ x → x < q → m.Passes p x) :
    ∀ i a b, (m.scan p q)[i]? = some (a, b) →
      (i % 2 = 1 → m.stop? a = some b) ∧ (i % 2 = 0 → m.Filler a b) := by
  induction p, q using scan.induct m with
  | case1 p q hlt hm ih =>
    rw [m.scan_pass hlt (.inl hm)]
    refine ih (by omega) hlt fun x hx hxq => ?_
    rcases Nat.lt_succ_iff_lt_or_eq.mp hxq with hxq | rfl
    · exact h x hx hxq
    · exact .inl hm
  | case2 q hlt stop hm ih =>
    rw [m.scan_pass hlt (.inr hm)]
    refine ih (by omega) hlt fun x hx hxq => ?_
    rcases Nat.lt_succ_iff_lt_or_eq.mp hxq with hxq | rfl
    · exact h x hx hxq
    · exact .inr hm
  | case3 p q hlt stop hm hne ih =>
    rw [m.scan_cut hlt hm hne]
    obtain ⟨_, hstop⟩ := m.within (Nat.le_of_lt hlt) hm
    intro i a b hi
    match i with
    | 0 =>
      cases hi
      exact ⟨nofun, fun _ => m.filler_of_passes hq h⟩
    | 1 =>
      cases hi
      exact ⟨fun _ => hm, nofun⟩
    | i + 2 =>
      have := ih (Nat.le_refl stop) hstop (fun x hx hlt => by omega) i a b hi
      rwa [Nat.add_mod_right]
  | case4 p q hlt =>
    have hqs : q = size := by omega
    rw [m.scan_behind (by omega)]
    intro i a b hi
    match i with
    | 0 =>
      cases hi
      exact ⟨nofun, fun _ => m.filler_of_passes (Nat.le_refl size) (hqs ▸ h)⟩

end Matching

end Chunkwise
