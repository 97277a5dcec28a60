import Mathlib.Data.Finset.Card
import Mathlib.Data.List.Dedup
import Aventuria.Formula.Cache
import Aventuria.Proofs.Formula.Value

/-!
# The cache of formulas

Calls that go through the cache are answered as if every formula were read anew, and the cache holds
the texts that were used last, each once and the last used first. Both hold along every run of calls
because of one invariant (`Cache.Remembers`): the texts held are the first of those last used
(`lastUsed`), and what is held for a text is what reading the text gives. The main result is
`Cache.evaluateAll_remembers_lastUsed`.
-/

set_option autoImplicit false
set_option relaxedAutoImplicit false

namespace Aventuria.Formula

/-! ### The texts used last -/

/-- The texts of a history, each once, the last used first. -/
def lastUsed (history : List (Option String)) : List (Option String) :=
  history.dedup.reverse

section
variable {α : Type} [DecidableEq α]

/-- With one more use, what was used moves to the end. -/
theorem dedup_concat (history : List α) (a : α) :
    (history ++ [a]).dedup = history.dedup.filter (· ≠ a) ++ [a] := by
  induction history with
  | nil => simp
  | cons b history ih =>
    by_cases hb : b ∈ history
    · rw [List.cons_append, List.dedup_cons_of_mem (List.mem_append_left _ hb),
        List.dedup_cons_of_mem hb, ih]
    · by_cases hba : b = a
      · have hmem : b ∈ history ++ [a] := by simp [hba]
        rw [List.cons_append, List.dedup_cons_of_mem hmem, List.dedup_cons_of_notMem hb, ih]
        simp [hba]
      · have hmem : b ∉ history ++ [a] := by simp [hb, hba]
        rw [List.cons_append, List.dedup_cons_of_notMem hmem, List.dedup_cons_of_notMem hb, ih]
        simp [hba]

/-- Whether something is taken away from the front of a list or from the whole list makes no
difference to the front, if the front had room for one more. -/
theorem take_filter_take {l : List α} (hl : l.Nodup) (a : α) (n : Nat) :
    ((l.take (n + 1)).filter (· ≠ a)).take n = (l.filter (· ≠ a)).take n := by
  induction l generalizing n with
  | nil => rfl
  | cons b l ih =>
    obtain ⟨hb, hl⟩ := List.nodup_cons.mp hl
    rw [List.take_succ_cons]
    by_cases hba : b = a
    · subst hba
      have hrest : l.filter (· ≠ b) = l :=
        List.filter_eq_self.mpr fun c hc ↦ decide_eq_true (ne_of_mem_of_not_mem hc hb)
      have hfront : (l.take n).filter (· ≠ b) = l.take n :=
        List.filter_eq_self.mpr fun c hc ↦
          decide_eq_true (ne_of_mem_of_not_mem (List.mem_of_mem_take hc) hb)
      rw [List.filter_cons_of_neg (by simp), List.filter_cons_of_neg (by simp), hrest, hfront,
        List.take_take, Nat.min_self]
    · rw [List.filter_cons_of_pos (by simpa using hba),
        List.filter_cons_of_pos (by simpa using hba)]
      cases n with
      | zero => rfl
      | succ n => rw [List.take_succ_cons, List.take_succ_cons, ih hl n]

end

theorem lastUsed_concat (history : List (Option String)) (text : Option String) :
    lastUsed (history ++ [text]) = text :: (lastUsed history).filter (· ≠ text) := by
  rw [lastUsed, dedup_concat, List.reverse_append, List.reverse_singleton, List.singleton_append,
    ← List.filter_reverse, lastUsed]

theorem nodup_lastUsed (history : List (Option String)) : (lastUsed history).Nodup :=
  List.nodup_reverse.mpr (List.nodup_dedup history)

theorem length_lastUsed (history : List (Option String)) :
    (lastUsed history).length = history.toFinset.card := by
  rw [lastUsed, List.length_reverse, List.card_toFinset]

namespace Cache

/-! ### One call -/

/-- The texts that a cache holds, in its order. -/
def texts (cache : Cache) : List (Option String) :=
  cache.entries.map Prod.fst

theorem length_texts (cache : Cache) : cache.texts.length = cache.size :=
  List.length_map _

theorem contains_iff (cache : Cache) (text : Option String) :
    cache.contains text = true ↔ text ∈ cache.texts := by
  rw [contains, find?, texts]
  induction cache.entries with
  | nil => simp
  | cons entry entries ih =>
    rw [List.lookup_cons]
    by_cases h : text = entry.1
    · simp [h]
    · rw [beq_eq_false_iff_ne.mpr h]
      simp only [List.map_cons, List.mem_cons, h, false_or]
      exact ih

theorem texts_insert (cache : Cache) (text : Option String) (formula : Option Formula) :
    (cache.insert text formula).texts =
      (text :: cache.texts.filter (· ≠ text)).take capacity := by
  rw [texts, insert, List.map_take, List.map_cons, texts, List.filter_map]
  rfl

/-- After a history of uses, the cache holds the texts used last, as many as it has room for, and
for each of them what reading it gives. -/
structure Remembers (cache : Cache) (history : List (Option String)) : Prop where
  texts_eq : cache.texts = (lastUsed history).take capacity
  compile_eq : ∀ entry ∈ cache.entries, Formula.compile entry.1 = .ok entry.2

theorem remembers_empty : empty.Remembers [] :=
  ⟨rfl, nofun⟩

namespace Remembers
variable {cache : Cache} {history : List (Option String)}

/-- What is found in the cache is what reading would give. -/
theorem compile_of_find? (h : cache.Remembers history) {text : Option String}
    {formula : Option Formula} (hfind : cache.find? text = some formula) :
    Formula.compile text = .ok formula := by
  obtain ⟨before, after, hentries, -⟩ := List.lookup_eq_some_iff.mp hfind
  refine h.compile_eq (text, formula) ?_
  rw [hentries]
  exact List.mem_append_right _ List.mem_cons_self

/-- A use of a text puts it in front. -/
theorem insert (h : cache.Remembers history) {text : Option String} {formula : Option Formula}
    (hcompile : Formula.compile text = .ok formula) :
    (cache.insert text formula).Remembers (history ++ [text]) where
  texts_eq := by
    obtain ⟨room, hroom⟩ : ∃ room, capacity = room + 1 := ⟨255, rfl⟩
    rw [texts_insert, h.texts_eq, lastUsed_concat, hroom, List.take_succ_cons, List.take_succ_cons,
      take_filter_take (nodup_lastUsed history)]
  compile_eq := by
    intro entry hentry
    rcases List.mem_cons.mp (List.mem_of_mem_take hentry) with rfl | hentry
    · exact hcompile
    · exact h.compile_eq entry (List.mem_of_mem_filter hentry)

/-- Found or not, a formula comes out as reading gives it, and its text counts as used. -/
theorem compile (h : cache.Remembers history) (text : Option String) :
    (cache.compile text).1 = Formula.compile text ∧
      (cache.compile text).2.Remembers (history ++ [text]) := by
  rw [Cache.compile]
  cases hfind : cache.find? text with
  | some formula =>
    have hcompile := h.compile_of_find? hfind
    exact ⟨hcompile.symm, h.insert hcompile⟩
  | none =>
    -- Reading never fails, so there is no text that the cache could not take in.
    obtain ⟨formula, hcompile⟩ := exists_compile_eq_ok text
    rw [hcompile]
    exact ⟨rfl, h.insert hcompile⟩

theorem evaluate (h : cache.Remembers history) (text : Option String) (points : Int) :
    (cache.evaluate text points).1 = Formula.evaluate text points ∧
      (cache.evaluate text points).2.Remembers (history ++ [text]) := by
  obtain ⟨hread, hnext⟩ := h.compile text
  rw [Cache.evaluate, Formula.evaluate, ← hread]
  rcases hcall : cache.compile text with ⟨fault | _ | formula, next⟩ <;>
    · rw [hcall] at hnext
      exact ⟨rfl, hnext⟩

end Remembers

/-! ### Runs of calls -/

/-- Calls with a text and a number of points, one after the other: their answers, and the cache that
they leave. -/
def evaluateAll : Cache → List (Option String × Int) → List (Except Fault (Option Int)) × Cache
  | cache, [] => ([], cache)
  | cache, call :: calls =>
    let (answer, next) := cache.evaluate call.1 call.2
    let (answers, last) := next.evaluateAll calls
    (answer :: answers, last)

theorem Remembers.evaluateAll {cache : Cache} {history : List (Option String)}
    (h : cache.Remembers history) (calls : List (Option String × Int)) :
    (cache.evaluateAll calls).1 = calls.map (fun call ↦ Formula.evaluate call.1 call.2) ∧
      (cache.evaluateAll calls).2.Remembers (history ++ calls.map Prod.fst) := by
  induction calls generalizing cache history with
  | nil =>
    rw [List.map_nil, List.map_nil, List.append_nil]
    exact ⟨rfl, h⟩
  | cons call calls ih =>
    obtain ⟨hanswer, hnext⟩ := h.evaluate call.1 call.2
    obtain ⟨hanswers, hlast⟩ := ih hnext
    rw [List.append_assoc, List.singleton_append] at hlast
    exact ⟨congrArg₂ List.cons hanswer hanswers, hlast⟩

/-- Through a cache that was empty at first, every call is answered as without one. Whatever the
calls were, the cache then holds just the texts used last, those of no formula among them: 256 of
them, or all if they are fewer. A further text is found exactly if it is one of these. -/
theorem evaluateAll_remembers_lastUsed (calls : List (Option String × Int)) :
    (empty.evaluateAll calls).1 = calls.map (fun call ↦ Formula.evaluate call.1 call.2) ∧
    (empty.evaluateAll calls).2.texts = (lastUsed (calls.map Prod.fst)).take 256 ∧
    (empty.evaluateAll calls).2.size = min 256 (calls.map Prod.fst).toFinset.card ∧
    ∀ text, (empty.evaluateAll calls).2.contains text = true ↔
      text ∈ (lastUsed (calls.map Prod.fst)).take 256 := by
  obtain ⟨hanswers, hlast⟩ := remembers_empty.evaluateAll calls
  rw [List.nil_append] at hlast
  refine ⟨hanswers, hlast.texts_eq, ?_, fun text ↦ ?_⟩
  · rw [← length_texts, hlast.texts_eq, List.length_take, length_lastUsed]
    rfl
  · rw [contains_iff, hlast.texts_eq]
    exact Iff.rfl

end Cache

end Aventuria.Formula
