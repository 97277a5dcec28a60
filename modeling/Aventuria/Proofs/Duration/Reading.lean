import Aventuria.Proofs.Duration.Reader

/-!
# Reading effect lengths

The readers answer by the grammar. What they return is derived from the text they have used, and
where digits that are no number stop them, the grammar awaits digits there (`answers_sum`). The
other way round, what is derived is read (`reads_of_derives`), and wherever the grammar awaits
digits the readers stop at a run that is no number (`stopsAt_of_awaits`). For whole texts that is
`ofChars_eq_ok_iff` and `exists_fault_iff`.
-/

set_option autoImplicit false
set_option relaxedAutoImplicit false

namespace Aventuria.Duration.Expression

open Text (Blanks isDigitLike)

/-! ### What is read is derived -/

/-- The grammar of a level awaits digits where a text has these, and they are no number. -/
structure Stumbles (level : Level) (text digits : List Char) : Prop where
  exists_split : ∃ before after,
    before ++ (digits ++ after) = text ∧ Awaits level before ∧ BadRun digits after

theorem Stumbles.append {inner outer : Level} {lead text digits : List Char}
    (h : Stumbles inner text digits)
    (hawaits : ∀ before, Awaits inner before → Awaits outer (lead ++ before)) :
    Stumbles outer (lead ++ text) digits := by
  obtain ⟨before, after, rfl, hbefore, hbad⟩ := h
  exact ⟨lead ++ before, after, List.append_assoc _ _ _, hawaits before hbefore, hbad⟩

theorem Stumbles.trimRight {level : Level} {text digits : List Char}
    (h : Stumbles level text digits) : Stumbles level (Text.trimRight text) digits := by
  obtain ⟨before, after, rfl, hbefore, hbad⟩ := h
  have hsolid : Text.Solid digits :=
    fun c hc ↦ Text.not_isBlank_of_isDigitLike (hbad.isDigitLike c hc)
  have hdigits := Text.trimRight_solid_append hsolid after
  have hne : Text.trimRight (digits ++ after) ≠ [] := by
    rw [hdigits]
    exact List.append_ne_nil_of_left_ne_nil hbad.ne_nil _
  refine ⟨before, Text.trimRight after, ?_, hbefore, hbad.ne_nil, hbad.isDigitLike,
    hbad.decimal?_eq_none, fun c hc ↦ hbad.ends c (Text.head?_trimRight hc)⟩
  rw [Text.trimRight_append_of_ne_nil hne, hdigits]

/-- The answers that the grammar of a level allows. -/
inductive Answers (level : Level) (text : List Char) : Reading → Prop
  | read {used rest : List Char} {e : Expression} (htext : used ++ rest = text)
      (h : Derives level used e) : Answers level text (.ok (e, rest))
  | refused {thrown : List Dice.Spec} : Answers level text (.error ⟨thrown, none⟩)
  | stopped {thrown : List Dice.Spec} {digits : List Char} (h : Stumbles level text digits) :
      Answers level text (.error ⟨thrown, some (.notANumber (String.ofList digits))⟩)

namespace Answers

theorem behind {level : Level} {text : List Char} {reading : Reading} (left : Expression)
    (h : Answers level text reading) : Answers level text (reading.behind left) := by
  cases h with
  | read htext h => exact .read htext h
  | refused => exact .refused
  | stopped h => exact .stopped h

/-- A reading that goes on behind a lead answers by the grammar of its own level, if the grammar
goes on there like that of the reading before. -/
theorem bind {inner outer : Level} {lead text : List Char} {reading : Reading}
    {next : Expression × List Char → Reading} (h : Answers inner text reading)
    (hread : ∀ used rest e, used ++ rest = text → Derives inner used e →
      Answers outer (lead ++ text) (next (e, rest)))
    (hawaits : ∀ before, Awaits inner before → Awaits outer (lead ++ before)) :
    Answers outer (lead ++ text) (reading >>= next) := by
  cases h with
  | read htext h => exact hread _ _ _ htext h
  | refused => exact .refused
  | stopped h => exact .stopped (h.append hawaits)

/-- A reading behind a lead that leaves no trace in what is read. -/
theorem extend {inner outer : Level} {lead text : List Char} {reading : Reading}
    (h : Answers inner text reading)
    (hread : ∀ used e, Derives inner used e → Derives outer (lead ++ used) e)
    (hawaits : ∀ before, Awaits inner before → Awaits outer (lead ++ before)) :
    Answers outer (lead ++ text) reading := by
  cases h with
  | read htext h => exact .read (by rw [List.append_assoc, htext]) (hread _ _ h)
  | refused => exact .refused
  | stopped h => exact .stopped (h.append hawaits)

end Answers

/-- A run of digits that is no number, somewhere in a text. -/
theorem stumbles_takeWhile {level : Level} {before text : List Char}
    (hawaits : Awaits level before) (hne : text.takeWhile isDigitLike ≠ [])
    (hnone : Text.decimal? (text.takeWhile isDigitLike) = none) :
    Stumbles level (before ++ text) (text.takeWhile isDigitLike) :=
  ⟨before, text.dropWhile isDigitLike, by rw [List.takeWhile_append_dropWhile], hawaits, hne,
    fun _ ↦ List.mem_takeWhile_imp, hnone, fun _ ↦ Text.head?_dropWhile⟩

/-- Behind the number of dice and their mark their size is read. -/
theorem answers_sides {digits sides : List Char} {mark : Char} {n : Nat} (hcount : Counts digits n)
    (hmark : mark = 'W' ∨ mark = 'w') :
    Answers .factor (digits ++ mark :: sides)
      ((readDice n (sides.takeWhile isDigitLike)).map (·, sides.dropWhile isDigitLike)) := by
  cases hterm : readDice n (sides.takeWhile isDigitLike) with
  | error flaw =>
    rcases flaw with ⟨thrown, _ | fault⟩
    · exact .refused
    · obtain ⟨⟨hpos, hne, hnone⟩, rfl, rfl⟩ := readDice_eq_fault_iff.mp hterm
      have hsides := stumbles_takeWhile (.sides Text.blanks_nil hcount hmark hpos) hne hnone
      rw [List.nil_append, ← List.append_cons] at hsides
      exact .stopped hsides
  | ok e =>
    obtain ⟨size, hpos, hmost, hsize, hsides, rfl⟩ := readDice_eq_ok_iff.mp hterm
    refine .read ?_ (Written.dice hcount hmark hsides hpos hmost hsize).derives
    rw [List.append_assoc, List.cons_append, List.takeWhile_append_dropWhile]

theorem answers_atom (text : List Char) : Answers .factor text (readAtom text) := by
  have htext := List.takeWhile_append_dropWhile (p := isDigitLike) (l := text)
  have hstumbles (hne : text.takeWhile isDigitLike ≠ [])
      (hnone : Text.decimal? (text.takeWhile isDigitLike) = none) :
      Stumbles .factor text (text.takeWhile isDigitLike) :=
    stumbles_takeWhile (.number Text.blanks_nil) hne hnone
  rw [readAtom]
  dsimp only
  generalize text.takeWhile isDigitLike = digits at *
  generalize text.dropWhile isDigitLike = rest at *
  split
  · next sides hrest =>
    obtain ⟨mark, hmark, rfl⟩ := eq_mark_of_afterDiceMark? hrest
    cases hread : readCount digits with
    | error flaw =>
      obtain ⟨hne, hnumber⟩ := readCount_eq_error_iff.mp hread
      obtain ⟨hnone, rfl⟩ := readNumber_eq_error_iff.mp hnumber
      exact .stopped (hstumbles hne hnone)
    | ok n =>
      rw [← htext]
      exact answers_sides (readCount_eq_ok_iff.mp hread) hmark
  · split
    · exact .refused
    · next hempty =>
      cases hread : readNumber digits with
      | error flaw =>
        obtain ⟨hnone, rfl⟩ := readNumber_eq_error_iff.mp hread
        exact .stopped (hstumbles (mt List.isEmpty_iff.mpr hempty) hnone)
      | ok n => exact .read htext (Written.number (readNumber_eq_ok_iff.mp hread)).derives

theorem answers_single (text : List Char) : Answers .factor text (singleOf text) := by
  rw [singleOf]
  split
  · next rest hword =>
    obtain ⟨letters, htext, hletters⟩ := Text.afterWord?_eq_some_iff.mp hword
    have hpoints := (Text.map_patternLetter_eq_iff (by decide)).mp hletters
    exact .read htext (Written.points hpoints).derives
  · exact answers_atom text

theorem answers_factor (text : List Char) : Answers .factor text (factorOf text) := by
  obtain ⟨blanks, hblanks, htext⟩ := Text.exists_blanks_trimLeft text
  have hinner : Answers .factor (Text.trimLeft text) (factorOf text) := by
    by_cases hplus : ∃ tail, Text.trimLeft text = '+' :: tail
    · obtain ⟨tail, h⟩ := hplus
      have shorter := Text.length_lt_of_trimLeft h
      rw [factorOf_plus h, h]
      show Answers .factor (['+'] ++ tail) (factorOf tail)
      exact (answers_factor tail).extend (fun _ _ ↦ .unsigned Text.blanks_nil)
        fun _ ↦ .signed Text.blanks_nil (.inl rfl)
    · by_cases hminus : ∃ tail, Text.trimLeft text = '-' :: tail
      · obtain ⟨tail, h⟩ := hminus
        have shorter := Text.length_lt_of_trimLeft h
        rw [factorOf_minus h, h]
        show Answers .factor (['-'] ++ tail) (factorOf tail >>= _)
        refine (answers_factor tail).bind ?_ fun _ ↦ .signed Text.blanks_nil (.inr rfl)
        rintro used rest operand rfl hoperand
        exact .read rfl (.negated Text.blanks_nil hoperand)
      · rw [factorOf_single (fun tail h ↦ hplus ⟨tail, h⟩) fun tail h ↦ hminus ⟨tail, h⟩]
        exact answers_single _
  have hspaced := hinner.extend (fun _ _ ↦ .blanks_append hblanks) fun _ ↦ .blanks_append hblanks
  rwa [htext] at hspaced
termination_by text.length

/-- A product goes on with the factors that are read behind it. -/
theorem answers_factors {used text : List Char} {left : Expression}
    (hleft : Derives .product used left) :
    Answers .product (used ++ text) (factorsOf left text) := by
  obtain ⟨blanks, hblanks, htext⟩ := Text.exists_blanks_trimLeft text
  have hspaced := hleft.append_blanks hblanks
  suffices h : Answers .product (used ++ blanks ++ Text.trimLeft text) (factorsOf left text) by
    rwa [List.append_assoc, htext] at h
  match h : Text.trimLeft text with
  | [] =>
    rw [factorsOf_nil left h]
    exact .read rfl hspaced
  | c :: tail =>
    have shorter := Text.length_lt_of_trimLeft h
    cases hmore : multiplicative? c with
    | none =>
      rw [factorsOf_stop left h hmore]
      exact .read rfl hspaced
    | some operation =>
      obtain ⟨rfl, rfl⟩ := multiplicative?_eq_some hmore
      rw [factorsOf_more left h hmore, List.append_cons]
      refine ((answers_factor tail).behind left).bind ?_ ?_
      · rintro after rest right rfl hright
        rw [← List.append_assoc, ← List.append_cons]
        exact answers_factors (hspaced.multiply hright)
      · intro before hbefore
        rw [← List.append_cons]
        exact .multiplied hspaced hbefore
termination_by text.length
decreasing_by
  rw [List.length_append] at shorter
  omega

theorem answers_product (text : List Char) : Answers .product text (productOf text) := by
  rw [productOf_eq]
  show Answers .product ([] ++ text) _
  refine (answers_factor text).bind ?_ fun _ ↦ .factor
  rintro used rest left rfl hleft
  exact answers_factors (.factor hleft)

/-- A sum goes on with the products that are read behind it. -/
theorem answers_terms {used text : List Char} {left : Expression} (hleft : Derives .sum used left) :
    Answers .sum (used ++ text) (termsOf left text) := by
  obtain ⟨blanks, hblanks, htext⟩ := Text.exists_blanks_trimLeft text
  have hspaced := hleft.append_blanks hblanks
  suffices h : Answers .sum (used ++ blanks ++ Text.trimLeft text) (termsOf left text) by
    rwa [List.append_assoc, htext] at h
  match h : Text.trimLeft text with
  | [] =>
    rw [termsOf_nil left h]
    exact .read rfl hspaced
  | c :: tail =>
    have shorter := Text.length_lt_of_trimLeft h
    cases hmore : additive? c with
    | none =>
      rw [termsOf_stop left h hmore]
      exact .read rfl hspaced
    | some operation =>
      have hsign := additive?_eq_some hmore
      rw [termsOf_more left h hmore, List.append_cons]
      refine ((answers_product tail).behind left).bind ?_ ?_
      · rintro after rest right rfl hright
        rw [← List.append_assoc, ← List.append_cons]
        refine answers_terms ?_
        rcases hsign with ⟨rfl, rfl⟩ | ⟨rfl, rfl⟩
        · exact hspaced.add hright
        · exact hspaced.subtract hright
      · intro before hbefore
        rw [← List.append_cons]
        exact .added hspaced (hsign.imp And.left And.left) hbefore
termination_by text.length
decreasing_by
  rw [List.length_append] at shorter
  omega

theorem answers_sum (text : List Char) : Answers .sum text (sumOf text) := by
  rw [sumOf_eq]
  show Answers .sum ([] ++ text) _
  refine (answers_product text).bind ?_ fun _ ↦ .product
  rintro used rest left rfl hleft
  exact answers_terms (.product hleft)

/-! ### What is derived is read -/

theorem factorsOf_congr (left : Expression) {text other : List Char}
    (h : Text.trimLeft text = Text.trimLeft other) :
    factorsOf left text = factorsOf left other := by
  cases htext : Text.trimLeft text with
  | nil => rw [factorsOf_nil left htext, factorsOf_nil left (h ▸ htext)]
  | cons c tail =>
    cases hmore : multiplicative? c with
    | none => rw [factorsOf_stop left htext hmore, factorsOf_stop left (h ▸ htext) hmore]
    | some operation => rw [factorsOf_more left htext hmore, factorsOf_more left (h ▸ htext) hmore]

/-- A text that starts with nothing that could go on with a number or a dice term. -/
def Ends (text : List Char) : Prop :=
  ∀ c ∈ text.head?, isDigitLike c = false ∧ c ≠ 'W' ∧ c ≠ 'w'

theorem Ends.blanks_append {blanks text : List Char} (hblanks : Blanks blanks) (h : Ends text) :
    Ends (blanks ++ text) := by
  cases blanks with
  | nil => exact h
  | cons c blanks =>
    rintro _ ⟨⟩
    have hc := (Text.blanks_cons.mp hblanks).1
    refine ⟨?_, ?_, ?_⟩
    · rw [← Bool.not_eq_true]
      intro hdigit
      rw [Text.not_isBlank_of_isDigitLike hdigit] at hc
      cases hc
    · rintro rfl
      cases hc
    · rintro rfl
      cases hc

theorem ends_cons {c : Char} (h : c = '+' ∨ c = '-' ∨ c = '*') (text : List Char) :
    Ends (c :: text) := by
  rintro _ ⟨⟩
  rcases h with rfl | rfl | rfl <;> decide

theorem afterDiceMark?_eq_none {text : List Char} (h : Ends text) : afterDiceMark? text = none := by
  rw [afterDiceMark?.eq_def]
  split
  · exact absurd rfl (h 'W' rfl).2.1
  · exact absurd rfl (h 'w' rfl).2.2
  · rfl

theorem afterDiceMark?_mark {mark : Char} (hmark : mark = 'W' ∨ mark = 'w') (text : List Char) :
    afterDiceMark? (mark :: text) = some text := by
  rcases hmark with rfl | rfl <;> rfl

section
variable {digits size rest : List Char} {mark : Char}

theorem readAtom_number (hdigits : ∀ c ∈ digits, isDigitLike c = true) (hne : digits ≠ [])
    (hrest : Ends rest) :
    readAtom (digits ++ rest) = ((readNumber digits).map number).map (·, rest) := by
  obtain ⟨htake, hdrop⟩ := Text.run_append hdigits fun c hc ↦ (hrest c hc).1
  rw [readAtom]
  simp only [htake, hdrop, afterDiceMark?_eq_none hrest]
  exact if_neg (mt List.isEmpty_iff.mp hne)

theorem readAtom_dice (hdigits : ∀ c ∈ digits, isDigitLike c = true)
    (hmark : mark = 'W' ∨ mark = 'w') (hsize : ∀ c ∈ size, isDigitLike c = true)
    (hrest : ∀ c ∈ rest.head?, isDigitLike c = false) :
    readAtom (digits ++ mark :: (size ++ rest)) =
      ((readCount digits).bind (readDice · size)).map (·, rest) := by
  have hstop : ∀ c ∈ (mark :: (size ++ rest)).head?, isDigitLike c = false := by
    rintro _ ⟨⟩
    rcases hmark with rfl | rfl <;> decide
  obtain ⟨htake, hdrop⟩ := Text.run_append hdigits hstop
  obtain ⟨htake', hdrop'⟩ := Text.run_append hsize hrest
  rw [readAtom]
  simp only [htake, hdrop, afterDiceMark?_mark hmark, htake', hdrop']

theorem trimLeft_blanks_cons {blanks : List Char} {c : Char} (hblanks : Blanks blanks)
    (hc : Text.isBlank c = false) (text : List Char) :
    Text.trimLeft (blanks ++ c :: text) = c :: text := by
  rw [Text.trimLeft_append hblanks, Text.trimLeft_cons hc]

theorem factorOf_opened {blanks tail : List Char} {c : Char} (hblanks : Blanks blanks)
    (hblank : Text.isBlank c = false) (hplus : c ≠ '+') (hminus : c ≠ '-') :
    factorOf (blanks ++ c :: tail) = singleOf (c :: tail) := by
  have htrim := trimLeft_blanks_cons hblanks hblank tail
  rw [factorOf_single, htrim]
  · rintro tail h
    exact hplus (List.cons.inj (htrim.symm.trans h)).1
  · rintro tail h
    exact hminus (List.cons.inj (htrim.symm.trans h)).1

/-- Digits and dice are neither signed nor written like the points. -/
theorem factorOf_digits {blanks : List Char} (hblanks : Blanks blanks)
    (hdigits : ∀ c ∈ digits, isDigitLike c = true)
    (h : digits ≠ [] ∨ ∃ mark ∈ rest.head?, mark = 'W' ∨ mark = 'w') :
    factorOf (blanks ++ (digits ++ rest)) = readAtom (digits ++ rest) := by
  have hhead : ∃ c tail, digits ++ rest = c :: tail ∧ Text.isBlank c = false ∧ c ≠ '+' ∧ c ≠ '-' ∧
      Text.patternLetter c ≠ 'z' := by
    cases digits with
    | cons c digits =>
      have hc := hdigits c List.mem_cons_self
      refine ⟨c, digits ++ rest, rfl, Text.not_isBlank_of_isDigitLike hc, ?_, ?_, ?_⟩
      · rintro rfl
        cases hc
      · rintro rfl
        cases hc
      · rw [Text.patternLetter_of_isDigitLike hc]
        rintro rfl
        cases hc
    | nil =>
      obtain ⟨mark, hhead, hmark⟩ := h.resolve_left fun hne ↦ hne rfl
      obtain ⟨tail, rfl⟩ := List.head?_eq_some_iff.mp hhead
      exact ⟨mark, tail, rfl, by rcases hmark with rfl | rfl <;> decide⟩
  obtain ⟨c, tail, htext, hblank, hplus, hminus, hz⟩ := hhead
  rw [htext, factorOf_opened hblanks hblank hplus hminus, singleOf, Text.afterWord?, if_neg hz]

end

theorem factorOf_points {blanks letters rest : List Char} (hblanks : Blanks blanks)
    (hletters : letters.map Char.toLower = ['z', 'f', 'p', '*']) :
    factorOf (blanks ++ (letters ++ rest)) = .ok (.points, rest) := by
  have hpoints := (Text.map_patternLetter_eq_iff (by decide)).mpr hletters
  have hsingle : singleOf (letters ++ rest) = .ok (.points, rest) := by
    rw [singleOf, Text.afterWord?_eq_some_iff.mpr ⟨letters, rfl, hpoints⟩]
  obtain ⟨c, tail, rfl, hc, -⟩ := List.map_eq_cons_iff.mp hletters
  have hmem : c.toLower ∈ ['z', 'f', 'p', '*'] := by
    rw [hc]
    decide
  obtain ⟨hblank, hplus, hminus⟩ := letter_facts hmem
  rw [List.cons_append, factorOf_opened hblanks hblank hplus hminus]
  exact hsingle

theorem factorOf_of_written {blanks lexeme rest : List Char} {e : Expression}
    (hblanks : Blanks blanks) (h : Written lexeme e) (hrest : Ends rest) :
    factorOf (blanks ++ (lexeme ++ rest)) = .ok (e, rest) := by
  cases h with
  | points hletters => exact factorOf_points hblanks hletters
  | number hnumber =>
    obtain ⟨hne, hdigits⟩ := isDigitLike_of_decimal? hnumber
    rw [factorOf_digits hblanks hdigits (.inl hne), readAtom_number hdigits hne hrest,
      readNumber_eq_ok_iff.mpr hnumber]
    rfl
  | @dice count digits mark n sides hcount hmark hsides hpos hmost hsize =>
    have hdigits (c : Char) (hc : c ∈ count) : isDigitLike c = true :=
      Text.isDigitLike_of_isDecimal (hcount.isDecimal c hc)
    rw [List.append_assoc count, List.cons_append,
      factorOf_digits hblanks hdigits (.inr ⟨mark, rfl, hmark⟩),
      readAtom_dice hdigits hmark (isDigitLike_of_decimal? hsides).2 fun c hc ↦ (hrest c hc).1,
      readCount_eq_ok_iff.mpr hcount]
    show (readDice n digits).map _ = _
    rw [readDice_eq_ok_iff.mpr ⟨sides, hpos, hmost, hsize, hsides, rfl⟩]
    rfl

/-- A text that goes on with a sum, or ends. -/
def Continues (text : List Char) : Prop :=
  ∀ c ∈ text.head?, c = '+' ∨ c = '-'

theorem continues_cons {c : Char} (h : c = '+' ∨ c = '-') (text : List Char) :
    Continues (c :: text) := by
  rintro _ ⟨⟩
  exact h

theorem Continues.ends {text : List Char} (h : Continues text) : Ends text := by
  intro c hc
  rcases h c hc with rfl | rfl <;> decide

theorem factorsOf_of_continues {text : List Char} (left : Expression) (h : Continues text) :
    factorsOf left text = .ok (left, text) := by
  cases text with
  | nil => exact factorsOf_nil left rfl
  | cons c text => rcases h c rfl with rfl | rfl <;> exact factorsOf_stop left rfl rfl

/-- How the readers of a level read a text in front of any other that may follow it there. -/
def Reads : Level → List Char → Expression → Prop
  | .factor, used, e => ∀ rest, Ends rest →
      ∃ back, Blanks back ∧ factorOf (used ++ rest) = .ok (e, back ++ rest)
  | .product, used, e => ∀ rest, Ends rest → productOf (used ++ rest) = factorsOf e rest
  | .sum, used, e => ∀ rest, Continues rest → sumOf (used ++ rest) = termsOf e rest

theorem reads_of_derives {level : Level} {used : List Char} {e : Expression}
    (h : Derives level used e) : Reads level used e := by
  induction h with
  | @product _ e _ ih =>
    intro rest hrest
    rw [sumOf_eq, ih rest hrest.ends, factorsOf_of_continues e hrest]
    rfl
  | @add before after left right _ _ ihleft ihright =>
    intro rest hrest
    rw [List.append_assoc, List.cons_append, ihleft _ (continues_cons (.inl rfl) _),
      termsOf_more left rfl rfl, ihright rest hrest.ends, factorsOf_of_continues right hrest]
    rfl
  | @subtract before after left right _ _ ihleft ihright =>
    intro rest hrest
    rw [List.append_assoc, List.cons_append, ihleft _ (continues_cons (.inr rfl) _),
      termsOf_more left rfl rfl, ihright rest hrest.ends, factorsOf_of_continues right hrest]
    rfl
  | @factor _ e _ ih =>
    intro rest hrest
    obtain ⟨back, hback, hread⟩ := ih rest hrest
    rw [productOf_eq, hread]
    exact factorsOf_congr e (Text.trimLeft_append hback rest)
  | @multiply before after left right _ _ ihleft ihright =>
    intro rest hrest
    obtain ⟨back, hback, hread⟩ := ihright rest hrest
    rw [List.append_assoc, List.cons_append, ihleft _ (ends_cons (.inr (.inr rfl)) _),
      factorsOf_more left rfl rfl, hread]
    exact factorsOf_congr _ (Text.trimLeft_append hback rest)
  | unsigned hblanks _ ih =>
    intro rest hrest
    rw [List.append_assoc, List.cons_append, factorOf_plus (trimLeft_blanks_cons hblanks rfl _)]
    exact ih rest hrest
  | negated hblanks _ ih =>
    intro rest hrest
    obtain ⟨back, hback, hread⟩ := ih rest hrest
    rw [List.append_assoc, List.cons_append, factorOf_minus (trimLeft_blanks_cons hblanks rfl _),
      hread]
    exact ⟨back, hback, rfl⟩
  | @single front lexeme back e hfront hwritten hback =>
    intro rest hrest
    refine ⟨back, hback, ?_⟩
    rw [List.append_assoc, List.append_assoc]
    exact factorOf_of_written hfront hwritten (hrest.blanks_append hback)

/-! ### Digits that are no number -/

/-- A reading that these digits stop, with whatever dice before them. -/
def StopsAt (digits : List Char) (reading : Reading) : Prop :=
  ∃ thrown, reading = .error ⟨thrown, some (.notANumber (String.ofList digits))⟩

namespace StopsAt

theorem bind {digits : List Char} {reading : Reading} (h : StopsAt digits reading)
    (next : Expression × List Char → Reading) : StopsAt digits (reading >>= next) := by
  obtain ⟨thrown, rfl⟩ := h
  exact ⟨thrown, rfl⟩

theorem behind {digits : List Char} {reading : Reading} (h : StopsAt digits reading)
    (left : Expression) : StopsAt digits (reading.behind left) := by
  obtain ⟨thrown, rfl⟩ := h
  exact ⟨left.specs ++ thrown, rfl⟩

end StopsAt

/-- The reader of a level. -/
def readingOf : Level → List Char → Reading
  | .factor => factorOf
  | .product => productOf
  | .sum => sumOf

theorem readNumber_of_badRun {digits after : List Char} (h : BadRun digits after) :
    readNumber digits = .error ⟨[], some (.notANumber (String.ofList digits))⟩ :=
  readNumber_eq_error_iff.mpr ⟨h.decimal?_eq_none, rfl⟩

/-- Digits that are no number stop a factor, whether as a number or as a number of dice. -/
theorem stopsAt_number {blanks digits after : List Char} (hblanks : Blanks blanks)
    (hbad : BadRun digits after) : StopsAt digits (factorOf (blanks ++ (digits ++ after))) := by
  have hnumber := readNumber_of_badRun hbad
  have hcount := readCount_eq_error_iff.mpr ⟨hbad.ne_nil, hnumber⟩
  obtain ⟨htake, hdrop⟩ := Text.run_append hbad.isDigitLike hbad.ends
  refine ⟨[], ?_⟩
  rw [factorOf_digits hblanks hbad.isDigitLike (.inl hbad.ne_nil), readAtom]
  simp only [htake, hdrop, hcount, hnumber, List.isEmpty_eq_false_iff.mpr hbad.ne_nil]
  split <;> rfl

theorem stopsAt_sides {blanks count digits after : List Char} {mark : Char} {n : Nat}
    (hblanks : Blanks blanks) (hcount : Counts count n) (hmark : mark = 'W' ∨ mark = 'w')
    (hpos : 0 < n) (hbad : BadRun digits after) :
    StopsAt digits (factorOf (blanks ++ (count ++ mark :: (digits ++ after)))) := by
  have hdigits (c : Char) (hc : c ∈ count) : isDigitLike c = true :=
    Text.isDigitLike_of_isDecimal (hcount.isDecimal c hc)
  refine ⟨[], ?_⟩
  rw [factorOf_digits hblanks hdigits (.inr ⟨mark, rfl, hmark⟩),
    readAtom_dice hdigits hmark hbad.isDigitLike hbad.ends, readCount_eq_ok_iff.mpr hcount]
  show (readDice n digits).map _ = _
  rw [readDice_eq_fault_iff.mpr ⟨⟨hpos, hbad.ne_nil, hbad.decimal?_eq_none⟩, rfl, rfl⟩]
  rfl

theorem exists_additive? {sign : Char} (h : sign = '+' ∨ sign = '-') :
    ∃ operation, additive? sign = some operation := by
  rcases h with rfl | rfl
  · exact ⟨.add, rfl⟩
  · exact ⟨.subtract, rfl⟩

theorem stopsAt_of_awaits {level : Level} {before digits after : List Char}
    (h : Awaits level before) (hbad : BadRun digits after) :
    StopsAt digits (readingOf level (before ++ (digits ++ after))) := by
  induction h with
  | number hblanks => exact stopsAt_number hblanks hbad
  | sides hblanks hcount hmark hpos =>
    rw [readingOf, ← List.append_cons, List.append_assoc]
    exact stopsAt_sides hblanks hcount hmark hpos hbad
  | signed hblanks hsign _ ih =>
    rw [readingOf, List.append_assoc, List.cons_append]
    rcases hsign with rfl | rfl
    · rw [factorOf_plus (trimLeft_blanks_cons hblanks rfl _)]
      exact ih
    · rw [factorOf_minus (trimLeft_blanks_cons hblanks rfl _)]
      exact ih.bind _
  | factor _ ih =>
    rw [readingOf, productOf_eq]
    exact ih.bind _
  | multiplied hleft _ ih =>
    rw [readingOf, List.append_assoc, List.cons_append,
      reads_of_derives hleft _ (ends_cons (.inr (.inr rfl)) _), factorsOf_more _ rfl rfl]
    exact (ih.behind _).bind _
  | product _ ih =>
    rw [readingOf, sumOf_eq]
    exact ih.bind _
  | @added _ _ sign left hleft hsign _ ih =>
    obtain ⟨operation, hmore⟩ := exists_additive? hsign
    have hblank : Text.isBlank sign = false := by rcases hsign with rfl | rfl <;> rfl
    rw [readingOf, List.append_assoc, List.cons_append,
      reads_of_derives hleft _ (continues_cons hsign _),
      termsOf_more left (Text.trimLeft_cons hblank _) hmore]
    exact (ih.behind left).bind _

/-! ### Whole texts -/

/-- A text is read as an expression when it is derived as a sum, and as that expression only. -/
theorem ofChars_eq_ok_iff {text : List Char} {e : Expression} :
    ofChars text = .ok e ↔ Derives .sum text e := by
  rw [ofChars_eq]
  constructor
  · intro h
    have hanswers := answers_sum text
    generalize sumOf text = reading at h hanswers
    cases hanswers with
    | refused => cases h
    | stopped => cases h
    | @read used rest e hused hderives =>
      rw [ok_bind] at h
      split at h
      · next hrest =>
        cases h
        obtain ⟨blanks, hblanks, htext⟩ := Text.exists_blanks_trimLeft rest
        rw [List.isEmpty_iff.mp hrest, List.append_nil] at htext
        exact hused ▸ hderives.append_blanks (htext ▸ hblanks)
      · cases h
  · intro h
    have hread := reads_of_derives h [] fun c hc ↦ nomatch hc
    rw [List.append_nil, termsOf_nil e rfl] at hread
    rw [hread]
    rfl

/-- The only fault of a text is that its grammar awaits digits where others stand. -/
theorem exists_fault_iff {text : List Char} {fault : Fault} :
    (∃ thrown, ofChars text = .error ⟨thrown, some fault⟩) ↔
      ∃ digits, Stumbles .sum text digits ∧ fault = .notANumber (String.ofList digits) := by
  rw [ofChars_eq]
  constructor
  · rintro ⟨thrown, h⟩
    have hanswers := answers_sum text
    generalize sumOf text = reading at h hanswers
    cases hanswers with
    | refused => cases h
    | @stopped _ digits hstumbles =>
      cases h
      exact ⟨digits, hstumbles, rfl⟩
    | read =>
      rw [ok_bind] at h
      split at h <;> cases h
  · rintro ⟨digits, ⟨before, after, rfl, hawaits, hbad⟩, rfl⟩
    obtain ⟨thrown, hstops⟩ := stopsAt_of_awaits hawaits hbad
    rw [readingOf] at hstops
    rw [hstops]
    exact ⟨thrown, rfl⟩

end Aventuria.Duration.Expression
