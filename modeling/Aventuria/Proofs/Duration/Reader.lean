import Aventuria.Proofs.Dice.Notation
import Aventuria.Proofs.Duration.Grammar

/-!
# The readers of effect lengths

The readers return their rest with a bound on its length, which makes them terminate. Here they
appear without the bounds, and each has one equation for every first character that the text may
have behind its blanks (`factorOf_plus`, `factorsOf_more`, `termsOf_stop` and so on). Numbers and
dice are characterised by what they accept and by the fault that they raise.
-/

set_option autoImplicit false
set_option relaxedAutoImplicit false

namespace Aventuria.Duration.Expression

/-! ### The readers without their bounds -/

/-- What a reader answers: an expression and the text that it has not used. -/
abbrev Reading := Except Flaw (Expression × List Char)

private def plain {p : List Char → Prop}
    (answer : Except Flaw (Expression × { rest : List Char // p rest })) : Reading :=
  answer.map fun result ↦ (result.1, result.2.val)

def factorOf (text : List Char) : Reading := plain (readFactor text)

def factorsOf (left : Expression) (text : List Char) : Reading := plain (readFactors left text)

def productOf (text : List Char) : Reading := plain (readProduct text)

def termsOf (left : Expression) (text : List Char) : Reading := plain (readTerms left text)

def sumOf (text : List Char) : Reading := plain (readSum text)

/-- The points or an atom at the start of a text. -/
def singleOf (text : List Char) : Reading :=
  match Text.afterWord? ['z', 'f', 'p', '*'] text with
  | some rest => .ok (.points, rest)
  | none => readAtom text

/-- A reading behind an expression that was read. -/
def Reading.behind (left : Expression) (reading : Reading) : Reading :=
  reading.mapError (Flaw.behind left)

section
variable {text tail : List Char} {c : Char} {operation : Operation} (left : Expression)

theorem factorOf_plus (h : Text.trimLeft text = '+' :: tail) : factorOf text = factorOf tail := by
  rw [factorOf, readFactor.eq_def]
  split
  · next other hother =>
    rw [h] at hother
    cases hother
    rw [factorOf]
    rcases readFactor tail with flaw | ⟨operand, rest, shorter⟩ <;> rfl
  · next other hother =>
    rw [h] at hother
    cases hother
  · next hplus _ => exact (hplus tail h).elim

theorem factorOf_minus (h : Text.trimLeft text = '-' :: tail) :
    factorOf text = factorOf tail >>= fun answer ↦ .ok (.negate answer.1, answer.2) := by
  rw [factorOf, readFactor.eq_def]
  split
  · next other hother =>
    rw [h] at hother
    cases hother
  · next other hother =>
    rw [h] at hother
    cases hother
    rw [factorOf]
    rcases readFactor tail with flaw | ⟨operand, rest, shorter⟩ <;> rfl
  · next hminus => exact (hminus tail h).elim

theorem factorOf_single (hplus : ∀ tail, Text.trimLeft text ≠ '+' :: tail)
    (hminus : ∀ tail, Text.trimLeft text ≠ '-' :: tail) :
    factorOf text = singleOf (Text.trimLeft text) := by
  rw [factorOf, readFactor.eq_def]
  split
  · next other hother => exact (hplus other hother).elim
  · next other hother => exact (hminus other hother).elim
  · next =>
    split
    · next rest hword =>
      have hsingle : singleOf (Text.trimLeft text) = .ok (.points, rest) := by
        rw [singleOf, hword]
      rw [hsingle]
      rfl
    · next hword =>
      have hsingle : singleOf (Text.trimLeft text) = readAtom (Text.trimLeft text) := by
        rw [singleOf, hword]
      rw [hsingle]
      split
      · next flaw hatom => exact hatom.symm
      · next e rest hatom => exact hatom.symm

theorem factorsOf_nil (h : Text.trimLeft text = []) : factorsOf left text = .ok (left, []) := by
  rw [factorsOf, readFactors.eq_def]
  split
  · rfl
  · next other hother => rw [h] at hother; cases hother

theorem factorsOf_stop (h : Text.trimLeft text = c :: tail) (hstop : multiplicative? c = none) :
    factorsOf left text = .ok (left, c :: tail) := by
  rw [factorsOf, readFactors.eq_def]
  split
  · next other => rw [h] at other; cases other
  · next other hother =>
    rw [h] at hother
    cases hother
    rw [hstop]
    rfl

theorem factorsOf_more (h : Text.trimLeft text = c :: tail)
    (hmore : multiplicative? c = some operation) :
    factorsOf left text = (factorOf tail).behind left >>= fun answer ↦
      factorsOf (.binary operation left answer.1) answer.2 := by
  rw [factorsOf, readFactors.eq_def]
  split
  · next other => rw [h] at other; cases other
  · next other hother =>
    rw [h] at hother
    cases hother
    simp only [hmore]
    rw [factorOf]
    rcases readFactor tail with flaw | ⟨right, rest, shorter⟩
    · rfl
    · simp only [plain, Except.map, Reading.behind, Except.mapError, ok_bind, factorsOf]
      rcases readFactors (.binary operation left right) rest with flaw | ⟨product, rest, fewer⟩ <;>
        rfl

theorem productOf_eq (text : List Char) :
    productOf text = factorOf text >>= fun answer ↦ factorsOf answer.1 answer.2 := by
  rw [productOf, readProduct, factorOf]
  rcases readFactor text with flaw | ⟨left, rest, shorter⟩
  · rfl
  · simp only [plain, Except.map, ok_bind, factorsOf]
    rcases readFactors left rest with flaw | ⟨product, rest, fewer⟩ <;> rfl

theorem termsOf_nil (h : Text.trimLeft text = []) : termsOf left text = .ok (left, []) := by
  rw [termsOf, readTerms.eq_def]
  split
  · rfl
  · next other hother => rw [h] at hother; cases hother

theorem termsOf_stop (h : Text.trimLeft text = c :: tail) (hstop : additive? c = none) :
    termsOf left text = .ok (left, c :: tail) := by
  rw [termsOf, readTerms.eq_def]
  split
  · next other => rw [h] at other; cases other
  · next other hother =>
    rw [h] at hother
    cases hother
    rw [hstop]
    rfl

theorem termsOf_more (h : Text.trimLeft text = c :: tail) (hmore : additive? c = some operation) :
    termsOf left text = (productOf tail).behind left >>= fun answer ↦
      termsOf (.binary operation left answer.1) answer.2 := by
  rw [termsOf, readTerms.eq_def]
  split
  · next other => rw [h] at other; cases other
  · next other hother =>
    rw [h] at hother
    cases hother
    simp only [hmore]
    rw [productOf]
    rcases readProduct tail with flaw | ⟨right, rest, shorter⟩
    · rfl
    · simp only [plain, Except.map, Reading.behind, Except.mapError, ok_bind, termsOf]
      rcases readTerms (.binary operation left right) rest with flaw | ⟨sum, rest, fewer⟩ <;> rfl

theorem sumOf_eq (text : List Char) :
    sumOf text = productOf text >>= fun answer ↦ termsOf answer.1 answer.2 := by
  rw [sumOf, readSum, productOf]
  rcases readProduct text with flaw | ⟨left, rest, shorter⟩
  · rfl
  · simp only [plain, Except.map, ok_bind, termsOf]
    rcases readTerms left rest with flaw | ⟨sum, rest, fewer⟩ <;> rfl

theorem ofChars_eq (text : List Char) :
    ofChars text = sumOf text >>= fun answer ↦
      if (Text.trimLeft answer.2).isEmpty then .ok answer.1
      else .error (Flaw.here.behind answer.1) := by
  rw [ofChars, sumOf]
  rcases readSum text with flaw | ⟨e, rest, shorter⟩ <;> rfl

end

theorem additive?_eq_some {c : Char} {operation : Operation} (h : additive? c = some operation) :
    c = '+' ∧ operation = .add ∨ c = '-' ∧ operation = .subtract := by
  rw [additive?.eq_def] at h
  split at h
  · exact .inl ⟨rfl, (Option.some.inj h).symm⟩
  · exact .inr ⟨rfl, (Option.some.inj h).symm⟩
  · cases h

theorem multiplicative?_eq_some {c : Char} {operation : Operation}
    (h : multiplicative? c = some operation) : c = '*' ∧ operation = .multiply := by
  rw [multiplicative?.eq_def] at h
  split at h
  · exact ⟨rfl, (Option.some.inj h).symm⟩
  · cases h

/-! ### Numbers and dice -/

theorem readNumber_eq_ok_iff {digits : List Char} {n : Nat} :
    readNumber digits = .ok n ↔ Text.decimal? digits = some n := by
  rw [readNumber]
  cases Text.decimal? digits with
  | none => simp
  | some m => simp

theorem readNumber_eq_error_iff {digits : List Char} {flaw : Flaw} :
    readNumber digits = .error flaw ↔
      Text.decimal? digits = none ∧ flaw = ⟨[], some (.notANumber (String.ofList digits))⟩ := by
  rw [readNumber]
  cases Text.decimal? digits with
  | none => simp [eq_comm]
  | some n => simp

theorem readCount_eq_ok_iff {digits : List Char} {n : Nat} :
    readCount digits = .ok n ↔ Counts digits n := by
  unfold readCount Counts
  cases digits with
  | nil => simp [Text.decimal?, eq_comm]
  | cons c digits => simp [readNumber_eq_ok_iff]

theorem readCount_eq_error_iff {digits : List Char} {flaw : Flaw} :
    readCount digits = .error flaw ↔ digits ≠ [] ∧ readNumber digits = .error flaw := by
  unfold readCount
  cases digits with
  | nil => simp
  | cons c digits => simp

theorem readDice_eq_ok_iff {n : Nat} {digits : List Char} {e : Expression} :
    readDice n digits = .ok e ↔
      ∃ sides hpos hmost hsize, Text.decimal? digits = some sides ∧
        e = .dice ⟨n, sides, 0, "", hpos, hmost, hsize⟩ := by
  constructor
  · intro h
    rw [readDice] at h
    split at h
    · cases h
    · cases hnumber : readNumber digits with
      | error flaw =>
        rw [hnumber] at h
        cases h
      | ok sides =>
        cases hbuild : Dice.Spec.build n sides 0 "" with
        | error fault =>
          simp only [hnumber, hbuild] at h
          cases h
        | ok spec =>
          simp only [hnumber, hbuild] at h
          cases h
          obtain ⟨hpos, hmost, hsize, rfl⟩ := Dice.Spec.build_eq_ok_iff.mp hbuild
          exact ⟨sides, hpos, hmost, hsize, readNumber_eq_ok_iff.mp hnumber, rfl⟩
  · rintro ⟨sides, hpos, hmost, hsize, hsides, rfl⟩
    have hgood : ¬ (n = 0 ∨ digits.isEmpty = true) := by
      rintro (rfl | hempty)
      · exact absurd hpos (Nat.lt_irrefl 0)
      · exact (isDigitLike_of_decimal? hsides).1 (List.isEmpty_iff.mp hempty)
    rw [readDice, if_neg hgood, readNumber_eq_ok_iff.mpr hsides]
    simp only [Dice.Spec.build_eq_ok_iff.mpr ⟨hpos, hmost, hsize, rfl⟩]

theorem readDice_eq_fault_iff {n : Nat} {digits : List Char} {thrown : List Dice.Spec}
    {fault : Fault} :
    readDice n digits = .error ⟨thrown, some fault⟩ ↔
      (0 < n ∧ digits ≠ [] ∧ Text.decimal? digits = none) ∧ thrown = [] ∧
        fault = .notANumber (String.ofList digits) := by
  rw [readDice]
  constructor
  · intro h
    split at h
    · cases h
    · next hgood =>
      rw [not_or, List.isEmpty_iff] at hgood
      cases hsides : Text.decimal? digits with
      | none =>
        rw [readNumber_eq_error_iff.mpr ⟨hsides, rfl⟩] at h
        cases h
        exact ⟨⟨Nat.pos_of_ne_zero hgood.1, hgood.2, rfl⟩, rfl, rfl⟩
      | some sides =>
        rw [readNumber_eq_ok_iff.mpr hsides] at h
        cases hbuild : Dice.Spec.build n sides 0 "" <;> simp only [hbuild] at h <;> cases h
  · rintro ⟨⟨hpos, hne, hnone⟩, rfl, rfl⟩
    rw [if_neg (by simp [hne, Nat.pos_iff_ne_zero.mp hpos]),
      readNumber_eq_error_iff.mpr ⟨hnone, rfl⟩]

theorem eq_mark_of_afterDiceMark? {text rest : List Char} (h : afterDiceMark? text = some rest) :
    ∃ mark, (mark = 'W' ∨ mark = 'w') ∧ text = mark :: rest := by
  rw [afterDiceMark?.eq_def] at h
  split at h
  · cases h
    exact ⟨'W', .inl rfl, rfl⟩
  · cases h
    exact ⟨'w', .inr rfl, rfl⟩
  · cases h

end Aventuria.Duration.Expression
