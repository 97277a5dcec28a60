import Mathlib.Data.List.Count
import Aventuria.Proofs.Text.Trim
import Aventuria.Proofs.Text.Words

/-!
# Parentheses

Where every parenthesis of a text has its counterpart, the outermost parts in parentheses can be
taken away, with the blanks in front of them (`exists_sheds`). There is only one way to do so
(`Sheds.unique`), since only one closing parenthesis belongs to an opening one
(`Balanced.closing_unique`).
-/

set_option autoImplicit false
set_option relaxedAutoImplicit false

namespace Aventuria.Text

/-! ### Balanced texts -/

/-- A text without parentheses. -/
def Plain (text : List Char) : Prop := '(' ∉ text ∧ ')' ∉ text

/-- Whether a text closes so many open parentheses and each one that it opens itself, and no
other. -/
def closes : Nat → List Char → Bool
  | depth, [] => depth == 0
  | depth, c :: text =>
    if c = '(' then closes (depth + 1) text
    else if c = ')' then 0 < depth && closes (depth - 1) text
    else closes depth text

/-- Every parenthesis of a text has its counterpart. -/
def Balanced (text : List Char) : Prop := closes 0 text = true

instance (text : List Char) : Decidable (Plain text) :=
  inferInstanceAs (Decidable (_ ∧ _))

instance (text : List Char) : Decidable (Balanced text) :=
  inferInstanceAs (Decidable (_ = _))

theorem closes_opening (depth : Nat) (text : List Char) :
    closes depth ('(' :: text) = closes (depth + 1) text := rfl

theorem closes_closing (depth : Nat) (text : List Char) :
    closes (depth + 1) (')' :: text) = closes depth text := rfl

theorem closes_other {c : Char} (hopen : c ≠ '(') (hclose : c ≠ ')') (depth : Nat)
    (text : List Char) : closes depth (c :: text) = closes depth text := by
  rw [closes, if_neg hopen, if_neg hclose]

/-- Behind the front of a text, as many parentheses are open as the front has left open. -/
theorem closes_append {depth : Nat} {front back : List Char}
    (h : closes depth (front ++ back) = true) :
    ∃ left, left + front.count ')' = depth + front.count '(' ∧ closes left back = true := by
  induction front generalizing depth with
  | nil => exact ⟨depth, rfl, h⟩
  | cons c front ih =>
    rw [List.cons_append] at h
    by_cases hopen : c = '('
    · subst hopen
      obtain ⟨left, hleft, hback⟩ := ih (h : closes (depth + 1) _ = true)
      refine ⟨left, ?_, hback⟩
      rw [List.count_cons_self, List.count_cons_of_ne (by decide)]
      omega
    · by_cases hclose : c = ')'
      · subst hclose
        cases depth with
        | zero => cases h
        | succ depth =>
          obtain ⟨left, hleft, hback⟩ := ih (h : closes depth _ = true)
          refine ⟨left, ?_, hback⟩
          rw [List.count_cons_self, List.count_cons_of_ne (by decide)]
          omega
      · rw [closes_other hopen hclose] at h
        obtain ⟨left, hleft, hback⟩ := ih h
        exact ⟨left, by rwa [List.count_cons_of_ne hopen, List.count_cons_of_ne hclose], hback⟩

theorem count_of_closes {depth : Nat} {text : List Char} (h : closes depth text = true) :
    text.count ')' = depth + text.count '(' := by
  rw [← List.append_nil text] at h
  obtain ⟨left, hleft, hnil⟩ := closes_append h
  obtain rfl : left = 0 := by simpa [closes] using hnil
  rwa [Nat.zero_add] at hleft

/-- The parenthesis that closes an open one stands behind a balanced text. -/
theorem exists_closing {depth inside : Nat} {text : List Char}
    (h : closes (depth + 1 + inside) text = true) :
    ∃ inner rest, inner ++ ')' :: rest = text ∧ closes inside inner = true ∧
      closes depth rest = true := by
  induction text generalizing inside with
  | nil => simp [closes] at h
  | cons c text ih =>
    by_cases hopen : c = '('
    · subst hopen
      obtain ⟨inner, rest, rfl, hinner, hrest⟩ := @ih (inside + 1) h
      exact ⟨'(' :: inner, rest, rfl, hinner, hrest⟩
    · by_cases hclose : c = ')'
      · subst hclose
        cases inside with
        | zero => exact ⟨[], text, rfl, rfl, h⟩
        | succ inside =>
          obtain ⟨inner, rest, rfl, hinner, hrest⟩ := @ih inside h
          exact ⟨')' :: inner, rest, rfl, hinner, hrest⟩
      · rw [closes_other hopen hclose] at h
        obtain ⟨inner, rest, rfl, hinner, hrest⟩ := ih h
        exact ⟨c :: inner, rest, rfl, by rwa [closes_other hopen hclose], hrest⟩

/-- There is only one such parenthesis. -/
theorem Balanced.closing_unique {inner inner' rest rest' : List Char} (h : Balanced inner)
    (h' : Balanced inner') (heq : inner ++ ')' :: rest = inner' ++ ')' :: rest') :
    inner = inner' ∧ rest = rest' := by
  have hnone : ∀ {first second more : List Char}, Balanced first → Balanced second →
      second ≠ first ++ ')' :: more := by
    rintro first _ more hfirst hsecond rfl
    obtain ⟨left, hleft, hmore⟩ := closes_append hsecond
    have hcount := count_of_closes hfirst
    obtain rfl : left = 0 := by omega
    cases hmore
  rcases List.append_eq_append_iff.mp heq with ⟨between, hinner, hrest⟩ | ⟨between, hinner, hrest⟩
  · cases between with
    | nil =>
      rw [List.append_nil] at hinner
      exact ⟨hinner.symm, (List.cons.inj hrest).2⟩
    | cons c between =>
      obtain ⟨rfl, -⟩ := List.cons.inj hrest
      exact absurd hinner (hnone h h')
  · cases between with
    | nil =>
      rw [List.append_nil] at hinner
      exact ⟨hinner, (List.cons.inj hrest).2.symm⟩
    | cons c between =>
      obtain ⟨rfl, -⟩ := List.cons.inj hrest
      exact absurd hinner (hnone h' h)

/-! ### Texts without their parts in parentheses -/

/-- A text whose outermost parts in parentheses are all of some form, and what is left of it without
them and the blanks in front of each. -/
inductive Sheds (Inside : List Char → Prop) : List Char → List Char → Prop
  | plain {text : List Char} (hplain : Plain text) : Sheds Inside text text
  | enclosed {front inner rest kept : List Char} (hfront : Plain front) (hinner : Inside inner)
      (hrest : Sheds Inside rest kept) :
      Sheds Inside (front ++ '(' :: (inner ++ ')' :: rest)) (trimRight front ++ kept)

/-- A text whose outermost parts in parentheses have no parentheses inside. -/
def Flat (text : List Char) : Prop := ∃ kept, Sheds Plain text kept

theorem plain_of_closes {text : List Char} (h : Balanced text) (hopen : '(' ∉ text) :
    Plain text := by
  refine ⟨hopen, ?_⟩
  have hcount := count_of_closes h
  rw [List.count_eq_zero.mpr hopen] at hcount
  exact List.count_eq_zero.mp hcount

theorem exists_sheds (text : List Char) (h : Balanced text) : ∃ kept, Sheds Balanced text kept := by
  by_cases hopen : '(' ∈ text
  · obtain ⟨front, more, rfl, hfront⟩ := List.eq_append_cons_of_mem hopen
    obtain ⟨left, hleft, hmore⟩ := closes_append h
    have hplain : Plain front := by
      refine ⟨hfront, List.count_eq_zero.mp ?_⟩
      rw [List.count_eq_zero.mpr hfront] at hleft
      omega
    obtain rfl : left = 0 := by
      rw [List.count_eq_zero.mpr hplain.1] at hleft
      omega
    obtain ⟨inner, rest, rfl, hinner, hrest⟩ := @exists_closing 0 0 more hmore
    have : rest.length < (front ++ '(' :: (inner ++ ')' :: rest)).length := by
      simp only [List.length_append, List.length_cons]
      omega
    obtain ⟨kept, hkept⟩ := exists_sheds rest hrest
    exact ⟨_, .enclosed hplain hinner hkept⟩
  · exact ⟨text, .plain (plain_of_closes h hopen)⟩
termination_by text.length

/-- The first opening parenthesis of a text is where its front ends. -/
theorem opening_unique {front front' more more' : List Char} (h : '(' ∉ front) (h' : '(' ∉ front')
    (heq : front ++ '(' :: more = front' ++ '(' :: more') : front = front' ∧ more = more' := by
  obtain ⟨hfront, hmore⟩ := run_append_stop h more
  obtain ⟨hfront', hmore'⟩ := run_append_stop h' more'
  rw [heq, hfront'] at hfront
  rw [heq, hmore'] at hmore
  exact ⟨hfront.symm, (List.cons.inj hmore).2.symm⟩

theorem Sheds.unique {text kept other : List Char} (h : Sheds Balanced text kept)
    (hother : Sheds Balanced text other) : kept = other := by
  induction h generalizing other with
  | plain hplain =>
    cases hother with
    | plain => rfl
    | enclosed => exact absurd (by simp) hplain.1
  | @enclosed front inner rest kept hfront hinner _ ih =>
    generalize htext : front ++ '(' :: (inner ++ ')' :: rest) = text at hother
    cases hother with
    | plain hplain => exact absurd (by simp [← htext]) hplain.1
    | enclosed hfront' hinner' hrest' =>
      obtain ⟨rfl, hmore⟩ := opening_unique hfront.1 hfront'.1 htext
      obtain ⟨rfl, rfl⟩ := hinner.closing_unique hinner' hmore
      rw [ih hrest']

theorem Plain.balanced {text : List Char} (h : Plain text) : Balanced text := by
  induction text with
  | nil => rfl
  | cons c text ih =>
    obtain ⟨hopen, hclose⟩ := h
    rw [List.mem_cons, not_or] at hopen hclose
    rw [Balanced, closes_other (Ne.symm hopen.1) (Ne.symm hclose.1)]
    exact ih ⟨hopen.2, hclose.2⟩

theorem Sheds.mono {Inside Within : List Char → Prop} (himp : ∀ inner, Inside inner → Within inner)
    {text kept : List Char} (h : Sheds Inside text kept) : Sheds Within text kept := by
  induction h with
  | plain hplain => exact .plain hplain
  | enclosed hfront hinner _ ih => exact .enclosed hfront (himp _ hinner) ih

/-- What is left has no parentheses. -/
theorem Sheds.plain_kept {Inside : List Char → Prop} {text kept : List Char}
    (h : Sheds Inside text kept) : Plain kept := by
  induction h with
  | plain hplain => exact hplain
  | enclosed hfront _ _ ih =>
    simp only [Plain, List.mem_append, not_or]
    exact ⟨⟨fun hc ↦ hfront.1 (trimRight_subset _ hc), ih.1⟩,
      fun hc ↦ hfront.2 (trimRight_subset _ hc), ih.2⟩

end Aventuria.Text
