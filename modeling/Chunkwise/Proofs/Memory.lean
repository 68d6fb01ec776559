import Chunkwise.Proofs.Naming
import Mathlib.Data.List.Dedup
import Mathlib.Data.List.Induction

/-! What a parser remembers from one parse to the next: the chunks of texts, up to a limit, and
the entries of its rules. Both only save work. Whatever was parsed before, a parse gives what a
parser gives that is new and remembers no text; and which texts are remembered follows from the
texts that were read and the limit. -/

namespace Chunkwise

/-! ## Texts -/

namespace Tokenizer

variable {t : Tokenizer} {text : String} {limit : Option Nat} {asked : List String}

/-- The texts whose chunks are remembered, the latest first. -/
def texts (t : Tokenizer) : List String := t.cache.map Prod.fst

theorem length_texts (t : Tokenizer) : t.texts.length = t.cached := List.length_map _

theorem remembers_iff : t.remembers text = true ↔ text ∈ t.texts := by
  rw [remembers, texts, List.lookup_isSome_iff, List.mem_map]
  exact exists_congr fun x => and_congr_right fun _ => beq_iff_eq.trans eq_comm

/-- A text that is remembered changes nothing. -/
theorem tokenize_of_mem (h : text ∈ t.texts) : (t.tokenize text).2 = t := by
  obtain ⟨chunks, hchunks⟩ := Option.isSome_iff_exists.mp (remembers_iff.mpr h)
  rw [tokenize, hchunks]

/-- A new text comes in front of the others, which are forgotten if they are too many; where no
text is to be remembered none is. -/
theorem texts_tokenize_of_not_mem (h : text ∉ t.texts) : (t.tokenize text).2.texts =
    if t.cacheLimit = some 0 then []
    else text :: if t.cacheLimit.any (· ≤ t.cached) then [] else t.texts := by
  have hnone : t.cache.lookup text = none := by
    rw [← Option.not_isSome_iff_eq_none]
    exact fun hsome => h (remembers_iff.mp hsome)
  rw [tokenize, hnone]
  by_cases hzero : t.cacheLimit = some 0
  · simp [remember, texts, hzero]
  · simp only [remember, texts, if_neg hzero, List.map_cons]
    congr 1
    exact apply_ite (List.map Prod.fst) _ _ _

/-- What a memory holds after these texts were asked for. -/
structure Remembered (limit : Option Nat) (asked : List String) (t : Tokenizer) : Prop where
  cacheLimit : t.cacheLimit = limit
  nodup : t.texts.Nodup
  bounded : ∀ n, limit = some n → t.cached ≤ n
  all : limit = none → ∀ text, text ∈ t.texts ↔ text ∈ asked
  latest : limit ≠ some 0 → ∀ text, asked.getLast? = some text → text ∈ t.texts

theorem cacheLimit_tokenize (t : Tokenizer) (text : String) :
    (t.tokenize text).2.cacheLimit = t.cacheLimit := by
  unfold tokenize
  split <;> rfl

/-- One more text that is remembered already. -/
theorem Remembered.again (h : t.Remembered limit asked) (hm : text ∈ t.texts) :
    t.Remembered limit (asked ++ [text]) where
  cacheLimit := h.cacheLimit
  nodup := h.nodup
  bounded := h.bounded
  all := by
    intro hlimit text'
    rw [List.mem_append, List.mem_singleton, h.all hlimit]
    refine ⟨Or.inl, fun hor => hor.elim id fun he => ?_⟩
    exact he ▸ (h.all hlimit text).mp hm
  latest := by
    intro _ text' hlast
    rw [List.getLast?_concat] at hlast
    exact Option.some.inj hlast ▸ hm

theorem Remembered.tokenize (h : t.Remembered limit asked) (text : String) :
    (t.tokenize text).2.Remembered limit (asked ++ [text]) := by
  by_cases hm : text ∈ t.texts
  · rw [tokenize_of_mem hm]
    exact h.again hm
  have htexts := texts_tokenize_of_not_mem hm
  rw [h.cacheLimit] at htexts
  have hlimit := (t.cacheLimit_tokenize text).trans h.cacheLimit
  match limit with
  | none =>
    have htexts : (t.tokenize text).2.texts = text :: t.texts := by simpa using htexts
    refine ⟨hlimit, ?_, nofun, fun _ text' => ?_, fun _ text' hlast => ?_⟩
    · rw [htexts]
      exact List.nodup_cons.mpr ⟨hm, h.nodup⟩
    · rw [htexts, List.mem_cons, List.mem_append, List.mem_singleton, h.all rfl, or_comm]
    · rw [List.getLast?_concat] at hlast
      rw [htexts, ← Option.some.inj hlast]
      exact List.mem_cons_self
  | some 0 =>
    have htexts : (t.tokenize text).2.texts = [] := by simpa using htexts
    refine ⟨hlimit, htexts ▸ List.nodup_nil, ?_, nofun, fun hne => absurd rfl hne⟩
    rintro n ⟨⟩
    rw [← length_texts, htexts]
    exact Nat.le_refl 0
  | some (n + 1) =>
    -- the other texts are forgotten if there are as many as the limit
    have htexts : (t.tokenize text).2.texts
        = text :: if n + 1 ≤ t.cached then [] else t.texts := by simpa using htexts
    refine ⟨hlimit, ?_, ?_, nofun, fun _ text' hlast => ?_⟩
    · rw [htexts]
      split
      · exact List.nodup_singleton text
      · exact List.nodup_cons.mpr ⟨hm, h.nodup⟩
    · rintro _ ⟨⟩
      rw [← length_texts, htexts, List.length_cons]
      split
      · exact Nat.succ_le_succ (Nat.zero_le n)
      · rw [length_texts]
        omega
    · rw [List.getLast?_concat] at hlast
      rw [htexts, ← Option.some.inj hlast]
      exact List.mem_cons_self

/-- Without a limit each text that was asked for is remembered, and once. -/
theorem Remembered.cached_eq (h : t.Remembered none asked) : t.cached = asked.dedup.length := by
  rw [← length_texts]
  have hsame : t.texts.Perm asked.dedup := by
    rw [List.perm_ext_iff_of_nodup h.nodup (List.nodup_dedup asked)]
    intro text
    rw [h.all rfl, List.mem_dedup]
  exact hsame.length_eq

theorem cache_of_ofTokens {tokens : List Token} (h : ofTokens tokens limit = .ok t) :
    t.cacheLimit = limit ∧ t.cache = [] := by
  unfold ofTokens at h
  dsimp only at h
  split at h
  · cases h
    exact ⟨rfl, rfl⟩
  · split at h
    · cases h
      exact ⟨rfl, rfl⟩
    · cases h

/-- A new tokenizer has been asked for nothing. -/
theorem ofTokens_remembered {tokens : List Token} (h : ofTokens tokens limit = .ok t) :
    t.Remembered limit [] := by
  obtain ⟨hlimit, hcache⟩ := cache_of_ofTokens h
  have htexts : t.texts = [] := by rw [texts, hcache, List.map_nil]
  refine ⟨hlimit, htexts ▸ List.nodup_nil, fun n _ => ?_, fun _ text => ?_, fun _ _ => nofun⟩
  · rw [← length_texts, htexts]
    exact Nat.zero_le n
  · rw [htexts]

/-- The limit has no part in what a tokenizer does with a text. -/
theorem ofTokens_withLimit {tokens : List Token} (h : ofTokens tokens limit = .ok t)
    (limit' : Option Nat) : ofTokens tokens limit' = .ok { t with cacheLimit := limit' } := by
  unfold ofTokens at h ⊢
  dsimp only at h ⊢
  split at h
  · rename_i hempty
    cases h
    rw [if_pos hempty]
  · rename_i hempty
    rw [if_neg hempty]
    split at h
    · rename_i r hr
      cases h
      rfl
    · cases h

end Tokenizer

/-! ## Parses -/

namespace Parser

/-- One call of a parser. -/
structure Call where
  name : String
  text : String
  trace : Option Trace := none

def perform (p : Parser) (call : Call) : Option Result × Parser :=
  p.parse call.name call.text call.trace

/-- What is left of a parser after these calls. -/
def afterCalls (p : Parser) (calls : List Call) : Parser :=
  calls.foldl (fun p call => (p.perform call).2) p

/-- The texts of the calls that name a rule. The texts of the others are not read. -/
def textsRead (d : Definition) (calls : List Call) : List String :=
  (calls.filter (·.name ∈ d.ruleNames)).map Call.text

variable {d : Definition} {p : Parser}

/-- A call reads its text if it names a rule. -/
theorem ComesFrom.tokenizer_perform (h : ComesFrom d p) (call : Call) :
    (p.perform call).2.tokenizer = if call.name ∈ d.ruleNames
      then (p.tokenizer.tokenize call.text).2 else p.tokenizer := by
  unfold perform
  cases hentry : p.entry? call.name with
  | none => rw [parse_of_unknown hentry, if_neg (h.isMadeOf.entry?_eq_none_iff.mp hentry)]
  | some entry =>
    have hname : call.name ∈ d.ruleNames := by
      by_contra hnot
      rw [h.isMadeOf.entry?_eq_none_iff.mpr hnot] at hentry
      cases hentry
    obtain ⟨entries, hparse⟩ := parse_of_entry hentry call.text call.trace
    rw [hparse, if_pos hname]

theorem textsRead_concat (d : Definition) (calls : List Call) (call : Call) :
    textsRead d (calls ++ [call])
      = textsRead d calls ++ if call.name ∈ d.ruleNames then [call.text] else [] := by
  simp only [textsRead, List.filter_append, List.map_append, List.filter_singleton]
  split <;> simp_all

/-- What becomes of a parser with the calls: it stays one of its definition, and remembers what
it read. -/
structure HasRead (d : Definition) (calls : List Call) (p : Parser) : Prop where
  comesFrom : ComesFrom d p
  remembered : p.tokenizer.Remembered d.cacheLimit (textsRead d calls)

theorem HasRead.perform {calls : List Call} (h : HasRead d calls p) (call : Call) :
    HasRead d (calls ++ [call]) (p.perform call).2 := by
  refine ⟨.parsed _ _ _ h.comesFrom, ?_⟩
  rw [h.comesFrom.tokenizer_perform call, textsRead_concat]
  split
  · exact h.remembered.tokenize call.text
  · rw [List.append_nil]
    exact h.remembered

theorem hasRead_afterCalls (h : d.build = .ok p) (calls : List Call) :
    HasRead d calls (p.afterCalls calls) := by
  induction calls using List.reverseRecOn with
  | nil =>
    obtain ⟨_, t, ht, hp⟩ := Definition.build_eq_ok_iff.mp h
    have hmemory := Tokenizer.ofTokens_remembered ht
    exact ⟨.built h, by subst hp; exact hmemory⟩
  | append_singleton calls call ih =>
    rw [afterCalls, List.foldl_append]
    exact ih.perform call

/-- **What a parser remembers is not observed.** After any calls, a call gives what it gives on
a parser of the same definition that is new and remembers no text, and the chunks of a text are
those that it is split into. As many texts are remembered as the limit allows at most, without
a limit each text that was read, and the last one always unless none is to be remembered. -/
theorem memory_is_not_observed (h : d.build = .ok p) :
    ∃ q, Definition.build { d with cacheLimit := some 0 } = .ok q ∧ ∀ calls : List Call,
      (∀ call, ((p.afterCalls calls).perform call).1 = (q.perform call).1) ∧
      (∀ text, ((p.afterCalls calls).tokenizer.tokenize text).1 = q.tokenizer.split text) ∧
      (∀ n, d.cacheLimit = some n → (p.afterCalls calls).tokenizer.cached ≤ n) ∧
      (d.cacheLimit = none →
        (p.afterCalls calls).tokenizer.cached = (textsRead d calls).dedup.length) ∧
      (d.cacheLimit ≠ some 0 → ∀ text, (textsRead d calls).getLast? = some text →
        (p.afterCalls calls).tokenizer.remembers text = true) := by
  obtain ⟨hclosed, t, ht, hp⟩ := Definition.build_eq_ok_iff.mp h
  let e : Definition := { d with cacheLimit := some 0 }
  have hq : e.build = .ok (e.parserWith { t with cacheLimit := some 0 }) :=
    Definition.build_eq_ok_iff.mpr
      ⟨⟨hclosed.nodup, hclosed.defined⟩, _, Tokenizer.ofTokens_withLimit ht _, rfl⟩
  refine ⟨_, hq, fun calls => ?_⟩
  have hread := hasRead_afterCalls h calls
  have hchunks : ∀ text, ((p.afterCalls calls).tokenizer.tokenize text).1 = t.split text := by
    obtain ⟨t', ht', hsplit⟩ := hread.comesFrom.isMadeOf.tokenize_eq
    cases ht.symm.trans ht'
    exact hsplit
  refine ⟨fun call => ?_, hchunks, hread.remembered.bounded, fun hnone => ?_,
    fun hlimit text hlast => ?_⟩
  · have hsymbols : (p.afterCalls calls).symbols = e.symbols := hread.comesFrom.symbols
    obtain ⟨_, _, hrules, hskip, hlimit, _, _⟩ := hread.comesFrom.isMadeOf
    rw [hsymbols] at hrules hskip
    refine fst_parse_congr hsymbols hrules hskip hlimit ?_ _ _
    rw [hchunks, (Tokenizer.tokenize_spec (ComesFrom.built hq).isTruthful _).1]
    rfl
  · have hremembered := hread.remembered
    rw [hnone] at hremembered
    exact hremembered.cached_eq
  · exact Tokenizer.remembers_iff.mpr (hread.remembered.latest hlimit text hlast)

/-- A memory for one text, which was full before the last text that was read; the rule `B` is
not there, so its text is not read. -/
theorem memory_is_not_observed_full :
    let d : Definition :=
      { tokens := [.literal 0 ","]
        rules := [("A", .sequence [.consume (.literal 1 "x"), .consume (.literal 0 ",")])]
        cacheLimit := some 1 }
    let calls : List Call := [⟨"A", "x,", none⟩, ⟨"A", "y,x", none⟩, ⟨"B", "z", none⟩]
    ∃ p q, d.build = .ok p ∧ Definition.build { d with cacheLimit := some 0 } = .ok q ∧
      ((p.afterCalls calls).perform ⟨"A", "x,", none⟩).1 = (q.perform ⟨"A", "x,", none⟩).1 ∧
      ((p.afterCalls calls).tokenizer.tokenize "y,x").1 = q.tokenizer.split "y,x" ∧
      (p.afterCalls calls).tokenizer.cached ≤ 1 ∧
      (p.afterCalls calls).tokenizer.remembers "y,x" = true := by
  intro d calls
  obtain ⟨t, ht⟩ : ∃ t, Tokenizer.ofTokens [.literal 0 ","] (some 1) = .ok t :=
    ⟨_, by with_unfolding_all rfl⟩
  have hp : d.build = .ok (d.parserWith t) :=
    Definition.build_eq_ok_iff.mpr ⟨⟨by decide, by decide⟩, t, ht, rfl⟩
  obtain ⟨q, hq, hcalls⟩ := memory_is_not_observed hp
  obtain ⟨hresult, hchunks, hbound, _, hlast⟩ := hcalls calls
  have hread : (textsRead d calls).getLast? = some "y,x" := by decide
  exact ⟨_, q, hp, hq, hresult _, hchunks _, hbound 1 rfl, hlast (by decide) _ hread⟩

end Parser

end Chunkwise
