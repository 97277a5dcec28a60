import Aventuria.Text.Blank
import Aventuria.Text.Decimal
import Aventuria.Text.Letter

/-!
# Classes of characters

How blanks, digits and letters lie to each other: no digit is blank (`not_isBlank_of_isDigitLike`).
Inside a pattern a digit stands for itself (`patternLetter_of_isDigitLike`), and a character stands
for a plain letter other than i, k and s exactly when it is that letter or its capital
(`patternLetter_eq_iff`). A fixed word is recognised letter by letter (`afterWord?_eq_some_iff`).
-/

set_option autoImplicit false
set_option relaxedAutoImplicit false

namespace Aventuria.Text

/-- What can be checked for the code points of ASCII holds of its characters. -/
theorem of_ascii {p : Char → Prop} (h : ∀ n < 128, p (Char.ofNat n)) {c : Char}
    (hc : c.toNat < 128) : p c := by
  have hp := h c.toNat hc
  rwa [Char.ofNat_toNat] at hp

theorem toNat_lt_of_isAlpha {c : Char} (h : c.isAlpha = true) : c.toNat < 128 := by
  rcases Bool.or_eq_true_iff.mp h with hupper | hlower
  · have hends : 'A' ≤ c ∧ c ≤ 'Z' := of_decide_eq_true hupper
    have hz : c.toNat ≤ 'Z'.toNat := hends.2
    exact Nat.lt_of_le_of_lt hz (by decide)
  · have hends : (decide ('a' ≤ c) && decide (c ≤ 'z')) = true := hlower
    have hz : c.toNat ≤ 'z'.toNat := of_decide_eq_true (Bool.and_eq_true_iff.mp hends).2
    exact Nat.lt_of_le_of_lt hz (by decide)

/-! ### Digits -/

theorem isDecimal_iff {c : Char} :
    isDecimal c = true ↔ ∃ start ∈ zeros, start ≤ c.toNat ∧ c.toNat < start + 10 := by
  unfold isDecimal digitValue?
  rw [List.findSome?_isSome_iff]
  constructor
  · rintro ⟨start, hstart, h⟩
    by_cases hc : start ≤ c.toNat ∧ c.toNat < start + 10
    · exact ⟨start, hstart, hc⟩
    · simp [hc] at h
  · rintro ⟨start, hstart, hc⟩
    exact ⟨start, hstart, by simp [hc]⟩

/-- Whether there are no blanks from one code point to another. -/
def clearOfBlanks (low high : Nat) : Bool :=
  (32 < low && high < 0x85) ||
    (0xA0 < low && (high < 0x1680 || 0x1680 < low) && (high < 0x2000 || 0x205F < low) &&
      (high < 0x3000 || 0x3000 < low))

theorem not_isBlank_of_clearOfBlanks {low high : Nat} (h : clearOfBlanks low high = true) {c : Char}
    (hlow : low ≤ c.toNat) (hhigh : c.toNat ≤ high) : isBlank c = false := by
  rw [← Bool.not_eq_true]
  simp only [clearOfBlanks, isBlank, Bool.or_eq_true, Bool.and_eq_true, decide_eq_true_eq,
    beq_iff_eq] at h ⊢
  omega

theorem not_isBlank_of_isDecimal {c : Char} (h : isDecimal c = true) : isBlank c = false := by
  have hclear : ∀ start ∈ zeros, clearOfBlanks start (start + 9) = true := by decide
  obtain ⟨start, hstart, hlow, hhigh⟩ := isDecimal_iff.mp h
  exact not_isBlank_of_clearOfBlanks (hclear start hstart) hlow (by omega)

/-- No digit is blank, decimal or not. -/
theorem not_isBlank_of_isDigitLike {c : Char} (h : isDigitLike c = true) : isBlank c = false := by
  have hclear : ∀ run ∈ digitLikeRuns, clearOfBlanks run.1 run.2 = true := by decide
  rcases Bool.or_eq_true_iff.mp h with hdecimal | hrun
  · exact not_isBlank_of_isDecimal hdecimal
  · obtain ⟨run, hmem, hc⟩ := List.any_eq_true.mp hrun
    simp only [Bool.and_eq_true, decide_eq_true_eq] at hc
    exact not_isBlank_of_clearOfBlanks (hclear run hmem) hc.1 hc.2

/-- Among the characters of ASCII just the plain digits are decimal. -/
theorem isDigit_of_isDecimal {c : Char} (h : isDecimal c = true) (hc : c.toNat < 128) :
    c.isDigit = true := by
  have hzeros : ∀ start ∈ zeros, start = 48 ∨ 128 ≤ start := by decide
  obtain ⟨start, hstart, hlow, hhigh⟩ := isDecimal_iff.mp h
  rcases hzeros start hstart with rfl | hhigh'
  · simp only [Char.isDigit, Bool.and_eq_true, decide_eq_true_eq]
    exact ⟨hlow, Nat.le_of_lt_succ hhigh⟩
  · omega
theorem not_isDecimal_of_isBlank {c : Char} (h : isBlank c = true) : isDecimal c = false := by
  rw [← Bool.not_eq_true]
  intro hc
  rw [not_isBlank_of_isDecimal hc] at h
  cases h

theorem decimal?_eq_some_iff {digits : List Char} {n : Nat} :
    decimal? digits = some n ↔
      (digits ≠ [] ∧ ∀ c ∈ digits, isDecimal c = true) ∧ value digits = n := by
  unfold decimal?
  split
  · next h => simpa using fun _ ↦ by simpa using h
  · next h => simpa using fun hne hall ↦ absurd (by simpa using ⟨hne, hall⟩) h

/-! ### Letters -/

theorem patternLetter_of_ascii {c : Char} (h : c.toNat < 128) : patternLetter c = c.toLower :=
  of_ascii (p := fun c ↦ patternLetter c = c.toLower) (by decide) h

/-- The letters that a character outside ASCII can stand for, if not for itself. -/
def foreignLetters : List Char := ['s', 'i', 'k', 'ä', 'ö', 'ü', 'ß']

theorem patternLetter_of_not_ascii {c : Char} (h : 128 ≤ c.toNat) :
    patternLetter c = c ∨ patternLetter c ∈ foreignLetters := by
  have hcapital : ¬ ('A' ≤ c ∧ c ≤ 'Z') := by
    rintro ⟨-, hz⟩
    have hz : c.toNat ≤ 'Z'.toNat := hz
    exact absurd (Nat.le_trans h hz) (by decide)
  unfold patternLetter lower foreignLetters
  rw [if_neg hcapital]
  repeat' split
  all_goals simp

theorem toLower_of_not_ascii {c : Char} (h : 128 ≤ c.toNat) : c.toLower = c := by
  refine dif_neg ?_
  rintro ⟨-, hz⟩
  have hz : c.toNat ≤ 'Z'.toNat := hz
  exact absurd (Nat.le_trans h hz) (by decide)

theorem toNat_lt_of_toLower {c : Char} (h : c.toLower.toNat < 128) : c.toNat < 128 := by
  refine Nat.lt_of_not_le fun hc ↦ ?_
  rw [toLower_of_not_ascii hc] at h
  omega

/-- A plain letter inside a pattern stands for itself and its capital, i, k and s apart. -/
theorem patternLetter_eq_iff {c w : Char} (hw : w.toNat < 128) (hplain : w ∉ foreignLetters) :
    patternLetter c = w ↔ c.toLower = w := by
  by_cases hc : c.toNat < 128
  · rw [patternLetter_of_ascii hc]
  · have hc : 128 ≤ c.toNat := Nat.le_of_not_lt hc
    have hne : c ≠ w := by
      rintro rfl
      omega
    rw [toLower_of_not_ascii hc]
    constructor
    · intro h
      rcases patternLetter_of_not_ascii hc with hself | hforeign
      · exact (hne (hself ▸ h)).elim
      · exact (hplain (h ▸ hforeign)).elim
    · intro h
      exact (hne h).elim

theorem map_patternLetter_eq_iff {word letters : List Char}
    (h : word.all fun w ↦ w.toNat < 128 ∧ w ∉ foreignLetters) :
    letters.map patternLetter = word ↔ letters.map Char.toLower = word := by
  induction word generalizing letters with
  | nil => simp only [List.map_eq_nil_iff]
  | cons w word ih =>
    rw [List.all_cons, Bool.and_eq_true, decide_eq_true_eq] at h
    simp only [List.map_eq_cons_iff, patternLetter_eq_iff h.1.1 h.1.2, ih h.2]

/-- The characters outside ASCII that stand for a letter other than themselves. -/
def changedLetters : List Char := ['ſ', 'ı', 'İ', 'Ä', 'Ö', 'Ü', 'ẞ', '\u212A']

/-- The members of a class without letters stand for themselves inside a pattern. -/
theorem patternLetter_of_letterless {p : Char → Bool} {c : Char}
    (hcapitals : ∀ n < 128, 'A' ≤ Char.ofNat n ∧ Char.ofNat n ≤ 'Z' → p (Char.ofNat n) = false)
    (hchanged : changedLetters.any p = false) (h : p c = true) : patternLetter c = c := by
  have hcapital : ¬ ('A' ≤ c ∧ c ≤ 'Z') := by
    intro hc
    have hz : c.toNat ≤ 'Z'.toNat := hc.2
    have hfalse := of_ascii (p := fun c ↦ 'A' ≤ c ∧ c ≤ 'Z' → p c = false) hcapitals
      (Nat.lt_of_le_of_lt hz (by decide)) hc
    rw [h] at hfalse
    cases hfalse
  have hother : c ∉ changedLetters := by
    intro hc
    rw [List.any_eq_true.mpr ⟨c, hc, h⟩] at hchanged
    cases hchanged
  simp only [changedLetters, List.mem_cons, not_or] at hother
  simp [patternLetter, lower, hcapital, hother]

/-- A digit is no letter: inside a pattern it stands for itself. -/
theorem patternLetter_of_isDigitLike {c : Char} (h : isDigitLike c = true) :
    patternLetter c = c :=
  patternLetter_of_letterless (by decide) (by decide) h

theorem lower_of_isDecimal {c : Char} (h : isDecimal c = true) : lower c = c := by
  have hself := patternLetter_of_isDigitLike (isDigitLike_of_isDecimal h)
  unfold patternLetter at hself
  split at hself
  · next hs =>
    subst hs
    cases hself
  · split at hself
    · next hi => rcases hi with rfl | rfl <;> cases hself
    · exact hself

theorem patternLetter_of_isBlank {c : Char} (h : isBlank c = true) : patternLetter c = c :=
  patternLetter_of_letterless (by decide) (by decide) h

theorem not_isBlank_of_isLatin {c : Char} (h : isLatin c = true) : isBlank c = false := by
  rw [← Bool.not_eq_true]
  intro hblank
  simp only [isLatin, patternLetter_of_isBlank hblank, Bool.and_eq_true, decide_eq_true_eq] at h
  have hz : c.toNat ≤ 'z'.toNat := h.2
  have hfalse := of_ascii (p := fun c ↦ 'a' ≤ c ∧ c ≤ 'z' → isBlank c = false)
    (by decide) (Nat.lt_of_le_of_lt hz (by decide)) h
  rw [hblank] at hfalse
  cases hfalse

/-! ### Words -/

theorem lowerAll_append (first second : List Char) :
    lowerAll (first ++ second) = lowerAll first ++ lowerAll second :=
  List.map_append

theorem lowerAll_cons (c : Char) (text : List Char) :
    lowerAll (c :: text) = lower c :: lowerAll text :=
  rfl

/-- Digits are the same in small letters. -/
theorem lowerAll_of_isDecimal {digits : List Char} (h : ∀ c ∈ digits, isDecimal c = true) :
    lowerAll digits = digits :=
  (List.map_congr_left fun c hc ↦ lower_of_isDecimal (h c hc)).trans (List.map_id digits)

/-- The characters that stand for a small letter of ASCII inside a pattern only. -/
def patternOnlyLetters : List Char := ['ſ', 'ı', 'İ']

/-- Inside a pattern and in a name a character stands for the same small letter, but for the long s
and two forms of i. -/
theorem patternLetter_eq_lower {c : Char} (h : lower c ∉ patternOnlyLetters) :
    patternLetter c = lower c := by
  unfold patternLetter
  split
  · next hs =>
    subst hs
    exact absurd (by decide) h
  · split
    · next hi => rcases hi with rfl | rfl <;> exact absurd (by decide) h
    · rfl

/-- A name matches its small letters as a pattern, too. -/
theorem map_patternLetter_of_lowerAll {name word : List Char}
    (hplain : ∀ w ∈ word, w ∉ patternOnlyLetters) (h : lowerAll name = word) :
    name.map patternLetter = word := by
  subst h
  exact List.map_congr_left fun c hc ↦
    patternLetter_eq_lower (hplain (lower c) (List.mem_map_of_mem hc))

theorem afterWord?_eq_some_iff {word text rest : List Char} :
    afterWord? word text = some rest ↔
      ∃ letters, letters ++ rest = text ∧ letters.map patternLetter = word := by
  induction word generalizing text with
  | nil => simp [afterWord?, eq_comm]
  | cons w word ih =>
    cases text with
    | nil => simp [afterWord?]
    | cons c text =>
      rw [afterWord?]
      constructor
      · intro h
        split at h
        · next hc =>
          obtain ⟨letters, rfl, hletters⟩ := ih.mp h
          exact ⟨c :: letters, rfl, by rw [List.map_cons, hc, hletters]⟩
        · cases h
      · rintro ⟨letters, happend, hletters⟩
        cases letters with
        | nil => cases hletters
        | cons d letters =>
          obtain ⟨rfl, rfl⟩ := List.cons.inj happend
          obtain ⟨hc, hletters⟩ := List.cons.inj hletters
          rw [if_pos hc]
          exact ih.mpr ⟨letters, rfl, hletters⟩

end Aventuria.Text
