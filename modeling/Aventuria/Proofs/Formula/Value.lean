import Mathlib.Data.Rat.Floor
import Aventuria.Proofs.Formula.Compilation

/-!
# The value of a formula

`Evaluates` gives a formula its value by exact arithmetic: a quotient is the least whole number that
is not below it, and a divisor is not zero. Evaluation computes this value (`value_eq_ok_iff`), and
it fails exactly where some division in the tree divides by zero (`value_eq_error_iff`), so that
the evaluation of a text always comes to an answer (`evaluate_eq_ok_iff_evaluates`).
-/

set_option autoImplicit false
set_option relaxedAutoImplicit false

namespace Aventuria

/-! ### Division -/

/-- Rounding the negated quotient down and negating it again bounds the quotient from above. -/
theorem neg_fdiv_neg_le_iff {n d q : Int} (hd : d ≠ 0) :
    -((-n).fdiv d) ≤ q ↔ (n / d : ℚ) ≤ q := by
  rcases lt_or_gt_of_ne hd with hneg | hpos
  · have hd' : (d : ℚ) < 0 := by exact_mod_cast hneg
    rw [div_le_iff_of_neg hd', ← Int.cast_mul, Int.cast_le, ← Int.neg_fdiv_neg, neg_neg,
      Int.fdiv_eq_ediv_of_nonneg _ (by omega), neg_le, Int.le_ediv_iff_mul_le (by omega),
      neg_mul_neg]
  · have hd' : (0 : ℚ) < d := by exact_mod_cast hpos
    rw [div_le_iff₀ hd', ← Int.cast_mul, Int.cast_le, Int.fdiv_eq_ediv_of_nonneg _ hpos.le, neg_le,
      Int.le_ediv_iff_mul_le hpos, neg_mul, neg_le_neg_iff]

/-- The quotient rounded up exists unless the divisor is zero, and it is the least whole number that
is not below the quotient. -/
theorem ceilDiv_eq_ok_iff {n d q : Int} :
    ceilDiv n d = .ok q ↔ d ≠ 0 ∧ IsLeast {m : ℤ | (n / d : ℚ) ≤ m} q := by
  unfold ceilDiv
  by_cases hd : d = 0
  · simp [hd]
  · have hset : {m : ℤ | (n / d : ℚ) ≤ m} = Set.Ici (-((-n).fdiv d)) := by
      ext m
      exact (neg_fdiv_neg_le_iff hd).symm
    rw [if_neg hd, hset, Except.ok.injEq]
    constructor
    · rintro rfl
      exact ⟨hd, isLeast_Ici⟩
    · rintro ⟨-, hq⟩
      exact isLeast_Ici.unique hq

namespace Formula

variable {points : Int}

/-! ### Evaluation -/

/-- The value of a formula for the given points, where it has one. -/
inductive Evaluates (points : Int) : Formula → Int → Prop
  | number (n : Nat) : Evaluates points (.number n) n
  | points : Evaluates points .points points
  | negate {operand : Formula} {v : Int} (h : Evaluates points operand v) :
      Evaluates points (.negate operand) (-v)
  | add {left right : Formula} {l r : Int} (hleft : Evaluates points left l)
      (hright : Evaluates points right r) : Evaluates points (.binary .add left right) (l + r)
  | subtract {left right : Formula} {l r : Int} (hleft : Evaluates points left l)
      (hright : Evaluates points right r) : Evaluates points (.binary .subtract left right) (l - r)
  | multiply {left right : Formula} {l r : Int} (hleft : Evaluates points left l)
      (hright : Evaluates points right r) : Evaluates points (.binary .multiply left right) (l * r)
  | divide {left right : Formula} {n d q : Int} (hleft : Evaluates points left n)
      (hright : Evaluates points right d) (hd : d ≠ 0) (hq : IsLeast {m : ℤ | (n / d : ℚ) ≤ m} q) :
      Evaluates points (.binary .divide left right) q

/-- The nodes of a formula, each with all that stands below it. -/
def nodes : Formula → List Formula
  | number n => [number n]
  | .points => [.points]
  | negate operand => negate operand :: operand.nodes
  | binary operator left right => binary operator left right :: (left.nodes ++ right.nodes)

/-- Somewhere in a formula a divisor has the value zero. -/
def DividesByZero (points : Int) (formula : Formula) : Prop :=
  ∃ left right, binary .divide left right ∈ formula.nodes ∧ Evaluates points right 0

theorem value_of_evaluates {formula : Formula} {v : Int} (h : Evaluates points formula v) :
    formula.value points = .ok v := by
  induction h with
  | number n => rfl
  | points => rfl
  | negate _ ih => rw [value, ih, ok_bind]
  | add _ _ ihleft ihright | subtract _ _ ihleft ihright | multiply _ _ ihleft ihright =>
    rw [value, ihleft, ok_bind, ihright, ok_bind]
    rfl
  | divide _ _ hd hq ihleft ihright =>
    rw [value, ihleft, ok_bind, ihright, ok_bind]
    exact ceilDiv_eq_ok_iff.mpr ⟨hd, hq⟩

theorem evaluates_binary {left right : Formula} {l r v : Int} {operator : Operator}
    (hleft : Evaluates points left l) (hright : Evaluates points right r)
    (h : operator.apply l r = .ok v) : Evaluates points (.binary operator left right) v := by
  cases operator with
  | add =>
    cases h
    exact .add hleft hright
  | subtract =>
    cases h
    exact .subtract hleft hright
  | multiply =>
    cases h
    exact .multiply hleft hright
  | divide =>
    obtain ⟨hd, hq⟩ := ceilDiv_eq_ok_iff.mp h
    exact .divide hleft hright hd hq

theorem evaluates_of_value {formula : Formula} {v : Int} (h : formula.value points = .ok v) :
    Evaluates points formula v := by
  induction formula generalizing v with
  | number n =>
    cases h
    exact .number n
  | points =>
    cases h
    exact .points
  | negate operand ih =>
    rw [value, bind_eq_ok_iff] at h
    obtain ⟨w, hw, h⟩ := h
    cases h
    exact .negate (ih hw)
  | binary operator left right ihleft ihright =>
    simp only [value, bind_eq_ok_iff] at h
    obtain ⟨l, hl, r, hr, h⟩ := h
    exact evaluates_binary (ihleft hl) (ihright hr) h

theorem value_eq_ok_iff {formula : Formula} {v : Int} :
    formula.value points = .ok v ↔ Evaluates points formula v :=
  ⟨evaluates_of_value, value_of_evaluates⟩

/-! ### Division by zero -/

theorem DividesByZero.mono {formula whole : Formula} (h : DividesByZero points formula)
    (hnodes : formula.nodes ⊆ whole.nodes) : DividesByZero points whole := by
  obtain ⟨left, right, hmem, hzero⟩ := h
  exact ⟨left, right, hnodes hmem, hzero⟩

theorem apply_eq_error {left right : Int} {operator : Operator} {fault : Fault}
    (h : operator.apply left right = .error fault) :
    operator = .divide ∧ right = 0 ∧ fault = .divisionByZero := by
  cases operator with
  | add | subtract | multiply => cases h
  | divide =>
    by_cases hzero : right = 0
    · rw [Operator.apply, ceilDiv, if_pos hzero] at h
      cases h
      exact ⟨rfl, hzero, rfl⟩
    · rw [Operator.apply, ceilDiv, if_neg hzero] at h
      cases h

/-- Evaluation fails at a divisor of value zero and nowhere else. -/
theorem dividesByZero_of_value {formula : Formula} {fault : Fault}
    (h : formula.value points = .error fault) :
    fault = .divisionByZero ∧ DividesByZero points formula := by
  induction formula generalizing fault with
  | number n => cases h
  | points => cases h
  | negate operand ih =>
    rw [value] at h
    cases hoperand : operand.value points with
    | ok v =>
      rw [hoperand] at h
      cases h
    | error other =>
      rw [hoperand] at h
      cases h
      exact (ih hoperand).imp_right fun hzero ↦ hzero.mono (List.subset_cons_self _ _)
  | binary operator left right ihleft ihright =>
    rw [value] at h
    cases hleft : left.value points with
    | error other =>
      rw [hleft] at h
      cases h
      exact (ihleft hleft).imp_right fun hzero ↦
        hzero.mono (List.subset_cons_of_subset _ (List.subset_append_left _ _))
    | ok l =>
      cases hright : right.value points with
      | error other =>
        rw [hleft, hright] at h
        cases h
        exact (ihright hright).imp_right fun hzero ↦
          hzero.mono (List.subset_cons_of_subset _ (List.subset_append_right _ _))
      | ok r =>
        rw [hleft, ok_bind, hright, ok_bind] at h
        obtain ⟨rfl, rfl, rfl⟩ := apply_eq_error h
        exact ⟨rfl, left, right, List.mem_cons_self, evaluates_of_value hright⟩

theorem exists_evaluates_operands {operator : Operator} {left right : Formula} {v : Int}
    (h : Evaluates points (.binary operator left right) v) :
    (∃ l, Evaluates points left l) ∧ ∃ r, Evaluates points right r := by
  cases h with
  | add hleft hright | subtract hleft hright | multiply hleft hright | divide hleft hright =>
    exact ⟨⟨_, hleft⟩, _, hright⟩

/-- Where a formula has a value, so has every node of it. -/
theorem exists_evaluates_of_mem_nodes {formula node : Formula} {v : Int}
    (h : Evaluates points formula v) (hnode : node ∈ formula.nodes) :
    ∃ w, Evaluates points node w := by
  induction formula generalizing v with
  | number n => exact ⟨v, List.mem_singleton.mp hnode ▸ h⟩
  | points => exact ⟨v, List.mem_singleton.mp hnode ▸ h⟩
  | negate operand ih =>
    rcases List.mem_cons.mp hnode with rfl | hnode
    · exact ⟨v, h⟩
    · cases h with
      | negate hoperand => exact ih hoperand hnode
  | binary operator left right ihleft ihright =>
    rcases List.mem_cons.mp hnode with rfl | hnode
    · exact ⟨v, h⟩
    · obtain ⟨⟨l, hleft⟩, r, hright⟩ := exists_evaluates_operands h
      rcases List.mem_append.mp hnode with hnode | hnode
      · exact ihleft hleft hnode
      · exact ihright hright hnode

theorem not_dividesByZero_of_evaluates {formula : Formula} {v : Int}
    (h : Evaluates points formula v) : ¬ DividesByZero points formula := by
  rintro ⟨left, right, hmem, hzero⟩
  obtain ⟨w, hw⟩ := exists_evaluates_of_mem_nodes h hmem
  cases hw with
  | divide _ hright hd _ =>
    have hvalue := value_of_evaluates hright
    rw [value_of_evaluates hzero] at hvalue
    cases hvalue
    exact hd rfl

theorem value_eq_error_iff {formula : Formula} {fault : Fault} :
    formula.value points = .error fault ↔
      fault = .divisionByZero ∧ DividesByZero points formula := by
  constructor
  · exact dividesByZero_of_value
  · rintro ⟨rfl, hzero⟩
    cases hvalue : formula.value points with
    | ok v => exact (not_dividesByZero_of_evaluates (evaluates_of_value hvalue) hzero).elim
    | error fault => rw [(dividesByZero_of_value hvalue).1]

/-! ### Texts -/

/-- The value that a formula has, if any, is what evaluation settles on. -/
theorem definedValue_eq (formula : Formula) :
    formula.definedValue points = .ok (formula.value points).toOption := by
  unfold definedValue
  cases hvalue : formula.value points with
  | ok v => rfl
  | error fault =>
    obtain ⟨rfl, -⟩ := value_eq_error_iff.mp hvalue
    rfl

theorem toOption_value_eq_some_iff {formula : Formula} {v : Int} :
    (formula.value points).toOption = some v ↔ Evaluates points formula v := by
  rw [← value_eq_ok_iff]
  cases formula.value points <;> simp [Except.toOption]

theorem toOption_value_eq_none_iff {formula : Formula} :
    (formula.value points).toOption = none ↔ DividesByZero points formula := by
  constructor
  · intro h
    cases hvalue : formula.value points with
    | ok v => simp [hvalue, Except.toOption] at h
    | error fault => exact (value_eq_error_iff.mp hvalue).2
  · intro h
    rw [value_eq_error_iff.mpr ⟨rfl, h⟩]
    rfl

theorem exists_compile_eq_ok (text : Option String) : ∃ outcome, compile text = .ok outcome := by
  cases text with
  | none => exact ⟨none, rfl⟩
  | some text => exact ⟨_, compile_some text⟩

theorem exists_evaluate_eq_ok (text : Option String) (points : Int) :
    ∃ value, evaluate text points = .ok value := by
  obtain ⟨outcome, hcompile⟩ := exists_compile_eq_ok text
  rw [evaluate, hcompile, ok_bind]
  cases outcome with
  | none => exact ⟨none, rfl⟩
  | some formula => exact ⟨_, definedValue_eq formula⟩

/-- Evaluation always comes to an answer. There is none exactly when the text is no formula or some
divisor in its tree is zero, multiplied by zero or not; else it is the value of the tree, with each
quotient rounded up to a whole number. -/
theorem evaluate_eq_ok_iff_evaluates (text : Option String) (points : Int) :
    (∃ outcome, evaluate text points = .ok outcome) ∧
    (evaluate text points = .ok none ↔ compile text = .ok none ∨
      ∃ formula, compile text = .ok (some formula) ∧ DividesByZero points formula) ∧
    ∀ v, evaluate text points = .ok (some v) ↔
      ∃ formula, compile text = .ok (some formula) ∧ Evaluates points formula v := by
  obtain ⟨outcome, hcompile⟩ := exists_compile_eq_ok text
  rw [evaluate, hcompile, ok_bind]
  cases outcome with
  | none => simp
  | some formula =>
    simp only [definedValue_eq, Except.ok.injEq, Option.some.injEq, reduceCtorEq, false_or,
      exists_eq_left', exists_eq', toOption_value_eq_some_iff, toOption_value_eq_none_iff,
      implies_true, and_self]

end Formula

end Aventuria
