import Aventuria.Formula.Reader

/-!
# The grammar of cost formulas

`Derives` is the grammar on tokens: sums of products, products of factors, both leaning to the
left, and factors with their signs and parentheses. The readers answer by this grammar. A tree that
they return is derived from the tokens they have used (`answers`), and what is derived is
read: `reads_of_derives` says where the readers stand after the tokens of a derivation.
`ofTokens_eq_ok_iff` puts the two together for a whole list of tokens.

The faults of the readers are those of a text that is no formula, as long as all digits among the
tokens are decimal (`isIllFormed_of_ofTokens`).
-/

set_option autoImplicit false
set_option relaxedAutoImplicit false

namespace Aventuria.Formula

/-! ### The grammar -/

inductive Level where
  | sum | product | factor
  deriving DecidableEq

/-- The trees that tokens derive on each level. A sum goes on with a product and a product with a
factor, so both associate to the left. A plus sign in front of a factor leaves no node. -/
inductive Derives : Level → List Token → Formula → Prop
  | product {tokens : List Token} {tree : Formula} (h : Derives .product tokens tree) :
      Derives .sum tokens tree
  | add {before after : List Token} {left right : Formula} (hleft : Derives .sum before left)
      (hright : Derives .product after right) :
      Derives .sum (before ++ .sign .plus :: after) (.binary .add left right)
  | subtract {before after : List Token} {left right : Formula} (hleft : Derives .sum before left)
      (hright : Derives .product after right) :
      Derives .sum (before ++ .sign .minus :: after) (.binary .subtract left right)
  | factor {tokens : List Token} {tree : Formula} (h : Derives .factor tokens tree) :
      Derives .product tokens tree
  | multiply {before after : List Token} {left right : Formula}
      (hleft : Derives .product before left) (hright : Derives .factor after right) :
      Derives .product (before ++ .sign .star :: after) (.binary .multiply left right)
  | divide {before after : List Token} {left right : Formula}
      (hleft : Derives .product before left) (hright : Derives .factor after right) :
      Derives .product (before ++ .sign .slash :: after) (.binary .divide left right)
  | negated {tokens : List Token} {operand : Formula} (h : Derives .factor tokens operand) :
      Derives .factor (.sign .minus :: tokens) (.negate operand)
  | unsigned {tokens : List Token} {operand : Formula} (h : Derives .factor tokens operand) :
      Derives .factor (.sign .plus :: tokens) operand
  | enclosed {tokens : List Token} {inner : Formula} (h : Derives .sum tokens inner) :
      Derives .factor (.sign .opening :: tokens ++ [.sign .closing]) inner
  | points : Derives .factor [.points] .points
  | number {digits : List Char} {n : Nat} (h : Text.decimal? digits = some n) :
      Derives .factor [.number digits] (.number n)

/-! ### The readers without their bounds -/

/-- What a reader answers: a tree and the tokens that it has not used. -/
abbrev Reading := Except Fault (Formula × List Token)

private def plain {p : List Token → Prop}
    (answer : Except Fault (Formula × { rest : List Token // p rest })) : Reading :=
  answer.map fun result ↦ (result.1, result.2.val)

def sumOf (tokens : List Token) : Reading := plain (readSum tokens)

def termsOf (left : Formula) (tokens : List Token) : Reading := plain (readTerms left tokens)

def productOf (tokens : List Token) : Reading := plain (readProduct tokens)

def factorsOf (left : Formula) (tokens : List Token) : Reading := plain (readFactors left tokens)

def factorOf (tokens : List Token) : Reading := plain (readFactor tokens)

/-- Two readers in a row, whatever is known of the lengths of what they leave. -/
private theorem plain_bind {p r : List Token → Prop} {q : List Token → List Token → Prop}
    (first : Except Fault (Formula × { rest : List Token // p rest }))
    (next : Formula → (rest : List Token) → Except Fault (Formula × { more // q rest more }))
    (bound : ∀ rest more, p rest → q rest more → r more) :
    plain (p := r) (first >>= fun answer ↦ next answer.1 answer.2.val >>= fun further ↦
      .ok (further.1, ⟨further.2.val, bound _ _ answer.2.property further.2.property⟩)) =
        plain first >>= fun answer ↦ plain (next answer.1 answer.2) := by
  rcases first with fault | ⟨tree, rest, hrest⟩
  · rfl
  · simp only [ok_bind, plain, Except.map]
    rcases next tree rest with fault | ⟨whole, more, hmore⟩ <;> rfl

private theorem lt_of_plain {p : List Token → Prop} {bound : Nat}
    {answer : Except Fault (Formula × { rest : List Token // p rest })} {tree : Formula}
    {rest : List Token} (hp : ∀ rest, p rest → rest.length < bound)
    (h : plain answer = .ok (tree, rest)) : rest.length < bound := by
  cases answer with
  | error fault => simp [plain, Except.map] at h
  | ok result =>
    simp only [plain, Except.map, Except.ok.injEq, Prod.mk.injEq] at h
    exact h.2 ▸ hp _ result.2.property

theorem length_of_productOf {tokens rest : List Token} {tree : Formula}
    (h : productOf tokens = .ok (tree, rest)) : rest.length < tokens.length :=
  lt_of_plain (fun _ ↦ id) h

theorem length_of_factorOf {tokens rest : List Token} {tree : Formula}
    (h : factorOf tokens = .ok (tree, rest)) : rest.length < tokens.length :=
  lt_of_plain (fun _ ↦ id) h

theorem sumOf_eq (tokens : List Token) :
    sumOf tokens = productOf tokens >>= fun answer ↦ termsOf answer.1 answer.2 := by
  rw [sumOf, readSum]
  exact plain_bind (readProduct tokens) readTerms fun _ _ shorter fewer ↦
    Nat.lt_of_le_of_lt fewer shorter

theorem termsOf_nil (left : Formula) : termsOf left [] = .ok (left, []) := by
  rw [termsOf, readTerms]
  rfl

theorem termsOf_stop {token : Token} (h : token.additive? = none) (left : Formula)
    (tail : List Token) : termsOf left (token :: tail) = .ok (left, token :: tail) := by
  rw [termsOf, readTerms, h]
  rfl

theorem termsOf_more {token : Token} {operator : Operator} (h : token.additive? = some operator)
    (left : Formula) (tail : List Token) :
    termsOf left (token :: tail) =
      productOf tail >>= fun answer ↦ termsOf (.binary operator left answer.1) answer.2 := by
  rw [termsOf, readTerms, h]
  exact plain_bind (readProduct tail) (fun right ↦ readTerms (.binary operator left right))
    fun _ _ shorter fewer ↦ Nat.le_trans fewer (Nat.le_succ_of_le (Nat.le_of_lt shorter))

theorem productOf_eq (tokens : List Token) :
    productOf tokens = factorOf tokens >>= fun answer ↦ factorsOf answer.1 answer.2 := by
  rw [productOf, readProduct]
  exact plain_bind (readFactor tokens) readFactors fun _ _ shorter fewer ↦
    Nat.lt_of_le_of_lt fewer shorter

theorem factorsOf_nil (left : Formula) : factorsOf left [] = .ok (left, []) := by
  rw [factorsOf, readFactors]
  rfl

theorem factorsOf_stop {token : Token} (h : token.multiplicative? = none) (left : Formula)
    (tail : List Token) : factorsOf left (token :: tail) = .ok (left, token :: tail) := by
  rw [factorsOf, readFactors, h]
  rfl

theorem factorsOf_more {token : Token} {operator : Operator}
    (h : token.multiplicative? = some operator) (left : Formula) (tail : List Token) :
    factorsOf left (token :: tail) =
      factorOf tail >>= fun answer ↦ factorsOf (.binary operator left answer.1) answer.2 := by
  rw [factorsOf, readFactors, h]
  exact plain_bind (readFactor tail) (fun right ↦ readFactors (.binary operator left right))
    fun _ _ shorter fewer ↦ Nat.le_trans fewer (Nat.le_succ_of_le (Nat.le_of_lt shorter))

theorem factorOf_nil : factorOf [] = .error .formulaEnded := by
  rw [factorOf, readFactor]
  rfl

theorem factorOf_minus (tail : List Token) :
    factorOf (.sign .minus :: tail) =
      factorOf tail >>= fun answer ↦ .ok (.negate answer.1, answer.2) := by
  rw [factorOf, readFactor, factorOf]
  rcases readFactor tail with fault | ⟨operand, rest, shorter⟩ <;> rfl

theorem factorOf_plus (tail : List Token) : factorOf (.sign .plus :: tail) = factorOf tail := by
  rw [factorOf, readFactor, factorOf]
  rcases readFactor tail with fault | ⟨operand, rest, shorter⟩ <;> rfl

/-- What is read of a sum in parentheses once the sum is read. -/
def closeAfter (inner : Formula) : List Token → Reading
  | [] => .error .formulaEnded
  | token :: rest =>
    if token = .sign .closing then .ok (inner, rest) else .error .unclosedParenthesis

theorem factorOf_opening (tail : List Token) :
    factorOf (.sign .opening :: tail) =
      sumOf tail >>= fun answer ↦ closeAfter answer.1 answer.2 := by
  rw [factorOf, readFactor, sumOf]
  rcases readSum tail with fault | ⟨inner, rest, shorter⟩
  · rfl
  · cases rest with
    | nil => rfl
    | cons token rest =>
      by_cases h : token = .sign .closing <;> simp [plain, Except.map, closeAfter, h]

theorem factorOf_points (rest : List Token) : factorOf (.points :: rest) = .ok (.points, rest) := by
  rw [factorOf, readFactor]
  rfl

theorem factorOf_number (digits : List Char) (rest : List Token) :
    factorOf (.number digits :: rest) =
      numberOfDigits digits >>= fun n ↦ .ok (.number n, rest) := by
  rw [factorOf, readFactor]
  rcases numberOfDigits digits with fault | n <;> rfl

/-- No factor starts with an operation of a product or with a closing parenthesis. -/
theorem factorOf_sign {sign : Sign} (hminus : sign ≠ .minus) (hplus : sign ≠ .plus)
    (hopening : sign ≠ .opening) (tail : List Token) :
    factorOf (.sign sign :: tail) = .error (.unexpectedToken (Token.sign sign).text) := by
  rw [factorOf]
  cases sign with
  | minus => exact absurd rfl hminus
  | plus => exact absurd rfl hplus
  | opening => exact absurd rfl hopening
  | star | slash | closing =>
    rw [readFactor.eq_def]
    rfl

/-! ### What is read is derived -/

/-- Some digits among the tokens are not decimal. -/
def Misnumbered (tokens : List Token) : Prop :=
  ∃ digits, Token.number digits ∈ tokens ∧ Text.decimal? digits = none

/-- A reader answers with a tree that belongs to the tokens it has used, or with the fault of a
text that is no formula, unless digits are to blame. -/
def Answers (Tree : List Token → Formula → Prop) (tokens : List Token) : Reading → Prop
  | .ok (tree, rest) => ∃ used, used ++ rest = tokens ∧ Tree used tree
  | .error fault => isIllFormed fault = true ∨ Misnumbered tokens

/-- The trees that a tree derived already becomes when it goes on over further tokens. -/
def Extends (level : Level) (left : Formula) (used : List Token) (tree : Formula) : Prop :=
  ∀ before, Derives level before left → Derives level (before ++ used) tree

section
variable {First Whole : List Token → Formula → Prop} {tokens : List Token} {reading : Reading}

theorem Misnumbered.append_left {rest : List Token} (h : Misnumbered rest) (used : List Token) :
    Misnumbered (used ++ rest) := by
  obtain ⟨digits, hmem, hnone⟩ := h
  exact ⟨digits, List.mem_append_right used hmem, hnone⟩

theorem Answers.bind {Next : Formula → List Token → Formula → Prop}
    {next : Formula × List Token → Reading} (hfirst : Answers First tokens reading)
    (hnext : ∀ tree rest, reading = .ok (tree, rest) → Answers (Next tree) rest (next (tree, rest)))
    (hjoin : ∀ used tree more whole, First used tree → Next tree more whole →
      Whole (used ++ more) whole) : Answers Whole tokens (reading >>= next) := by
  cases reading with
  | error fault => exact hfirst
  | ok answer =>
    obtain ⟨tree, rest⟩ := answer
    obtain ⟨used, rfl, htree⟩ := hfirst
    have hafter := hnext tree rest rfl
    rw [ok_bind]
    cases hread : next (tree, rest) with
    | error fault =>
      rw [hread] at hafter
      exact hafter.imp_right fun h ↦ h.append_left used
    | ok answer =>
      obtain ⟨whole, left⟩ := answer
      rw [hread] at hafter
      obtain ⟨more, rfl, hmore⟩ := hafter
      exact ⟨used ++ more, List.append_assoc _ _ _, hjoin used tree more whole htree hmore⟩

theorem Answers.cons (h : Answers First tokens reading) (token : Token)
    (hlift : ∀ used tree, First used tree → Whole (token :: used) tree) :
    Answers Whole (token :: tokens) reading := by
  cases reading with
  | error fault => exact h.imp_right fun h ↦ h.append_left [token]
  | ok answer =>
    obtain ⟨tree, rest⟩ := answer
    obtain ⟨used, rfl, htree⟩ := h
    exact ⟨token :: used, rfl, hlift used tree htree⟩

end

theorem derives_of_additive {token : Token} {operator : Operator}
    (h : token.additive? = some operator) {before after : List Token} {left right : Formula}
    (hleft : Derives .sum before left) (hright : Derives .product after right) :
    Derives .sum (before ++ token :: after) (.binary operator left right) := by
  unfold Token.additive? at h
  split at h
  · cases h
    exact .add hleft hright
  · cases h
    exact .subtract hleft hright
  · cases h

theorem derives_of_multiplicative {token : Token} {operator : Operator}
    (h : token.multiplicative? = some operator) {before after : List Token} {left right : Formula}
    (hleft : Derives .product before left) (hright : Derives .factor after right) :
    Derives .product (before ++ token :: after) (.binary operator left right) := by
  unfold Token.multiplicative? at h
  split at h
  · cases h
    exact .multiply hleft hright
  · cases h
    exact .divide hleft hright
  · cases h

/-- Stopping at once keeps a tree as it is. -/
theorem answers_stop (level : Level) (left : Formula) (tokens : List Token) :
    Answers (Extends level left) tokens (.ok (left, tokens)) := by
  refine ⟨[], rfl, fun before hbefore ↦ ?_⟩
  rw [List.append_nil]
  exact hbefore

/-- A tree of the lower level starts a tree of the upper one, which goes on from there. -/
theorem answers_first {lower upper : Level} {tokens : List Token} {first : Reading}
    {next : Formula × List Token → Reading}
    (hlift : ∀ used tree, Derives lower used tree → Derives upper used tree)
    (hfirst : Answers (Derives lower) tokens first)
    (hnext : ∀ tree rest, first = .ok (tree, rest) →
      Answers (Extends upper tree) rest (next (tree, rest))) :
    Answers (Derives upper) tokens (first >>= next) :=
  hfirst.bind hnext fun used tree _ _ htree hextends ↦ hextends used (hlift used tree htree)

/-- A tree goes on with an operation and a tree of the lower level. -/
theorem answers_more {lower upper : Level} {token : Token} {operator : Operator}
    {tail : List Token} {first : Reading} {next : Formula × List Token → Reading} (left : Formula)
    (hjoin : ∀ before after right, Derives upper before left → Derives lower after right →
      Derives upper (before ++ token :: after) (.binary operator left right))
    (hfirst : Answers (Derives lower) tail first)
    (hnext : ∀ right rest, first = .ok (right, rest) →
      Answers (Extends upper (.binary operator left right)) rest (next (right, rest))) :
    Answers (Extends upper left) (token :: tail) (first >>= next) := by
  refine Answers.cons (hfirst.bind hnext ?_) token fun used tree h ↦ h
  intro used right more tree hused hextends before hbefore
  have hextended := hextends _ (hjoin before used right hbefore hused)
  simpa only [List.append_assoc, List.cons_append] using hextended

theorem answers_negated {tail : List Token} (h : Answers (Derives .factor) tail (factorOf tail)) :
    Answers (Derives .factor) (.sign .minus :: tail) (factorOf (.sign .minus :: tail)) := by
  have hbuild (operand : Formula) (rest : List Token) :
      Answers (fun used tree ↦ used = [] ∧ tree = .negate operand) rest
        (.ok (.negate operand, rest)) :=
    ⟨[], rfl, rfl, rfl⟩
  rw [factorOf_minus]
  refine Answers.cons (h.bind (fun operand rest _ ↦ hbuild operand rest) ?_) _ fun used tree h ↦ h
  rintro used operand more tree hused ⟨rfl, rfl⟩
  rw [List.append_nil]
  exact .negated hused

/-- A closing parenthesis is used up, and every other continuation is a fault. -/
theorem answers_closeAfter (inner : Formula) (rest : List Token) :
    Answers (fun used tree ↦ used = [.sign .closing] ∧ tree = inner) rest
      (closeAfter inner rest) := by
  cases rest with
  | nil => exact Or.inl rfl
  | cons token rest =>
    by_cases h : token = .sign .closing
    · rw [closeAfter, if_pos h]
      exact ⟨[token], rfl, by rw [h], rfl⟩
    · rw [closeAfter, if_neg h]
      exact Or.inl rfl

theorem answers_enclosed {tail : List Token} (h : Answers (Derives .sum) tail (sumOf tail)) :
    Answers (Derives .factor) (.sign .opening :: tail) (factorOf (.sign .opening :: tail)) := by
  rw [factorOf_opening]
  refine Answers.cons (h.bind (fun inner rest _ ↦ answers_closeAfter inner rest) ?_) _
    fun used tree h ↦ h
  rintro used inner more tree hused ⟨rfl, rfl⟩
  exact .enclosed hused

theorem answers_number (digits : List Char) (rest : List Token) :
    Answers (Derives .factor) (.number digits :: rest) (factorOf (.number digits :: rest)) := by
  rw [factorOf_number]
  unfold numberOfDigits
  cases hdecimal : Text.decimal? digits with
  | none => exact Or.inr ⟨digits, List.mem_cons_self, hdecimal⟩
  | some n => exact ⟨[.number digits], rfl, .number hdecimal⟩

/-- All readers answer by the grammar. The induction follows the readers, one case for each of
their branches; those of further terms and factors extend whatever derivation stands before
them. -/
theorem answers :
    (∀ tokens, Answers (Derives .sum) tokens (sumOf tokens)) ∧
    (∀ left tokens, Answers (Extends .sum left) tokens (termsOf left tokens)) ∧
    (∀ tokens, Answers (Derives .product) tokens (productOf tokens)) ∧
    (∀ left tokens, Answers (Extends .product left) tokens (factorsOf left tokens)) ∧
    (∀ tokens, Answers (Derives .factor) tokens (factorOf tokens)) := by
  apply readSum.mutual_induct
    (fun tokens ↦ Answers (Derives .sum) tokens (sumOf tokens))
    (fun left tokens ↦ Answers (Extends .sum left) tokens (termsOf left tokens))
    (fun tokens ↦ Answers (Derives .product) tokens (productOf tokens))
    (fun left tokens ↦ Answers (Extends .product left) tokens (factorsOf left tokens))
    (fun tokens ↦ Answers (Derives .factor) tokens (factorOf tokens))
  · intro tokens hproduct hterms
    rw [sumOf_eq]
    exact answers_first (fun _ _ ↦ .product) hproduct fun left rest hread ↦
      hterms left rest (length_of_productOf hread)
  · intro left
    rw [termsOf_nil]
    exact answers_stop .sum left []
  · intro left token tail hstop
    rw [termsOf_stop hstop]
    exact answers_stop .sum left (token :: tail)
  · intro left token tail operator hmore hproduct hterms
    rw [termsOf_more hmore]
    exact answers_more left (fun _ _ _ ↦ derives_of_additive hmore) hproduct
      fun right rest hread ↦ hterms right rest (length_of_productOf hread)
  · intro tokens hfactor hfactors
    rw [productOf_eq]
    exact answers_first (fun _ _ ↦ .factor) hfactor fun left rest hread ↦
      hfactors left rest (length_of_factorOf hread)
  · intro left
    rw [factorsOf_nil]
    exact answers_stop .product left []
  · intro left token tail hstop
    rw [factorsOf_stop hstop]
    exact answers_stop .product left (token :: tail)
  · intro left token tail operator hmore hfactor hfactors
    rw [factorsOf_more hmore]
    exact answers_more left (fun _ _ _ ↦ derives_of_multiplicative hmore) hfactor
      fun right rest hread ↦ hfactors right rest (length_of_factorOf hread)
  · rw [factorOf_nil]
    exact Or.inl rfl
  · intro tail hfactor
    exact answers_negated hfactor
  · intro tail hfactor
    rw [factorOf_plus]
    exact hfactor.cons _ fun used tree ↦ .unsigned
  · intro tail hsum
    exact answers_enclosed hsum
  · intro rest
    rw [factorOf_points]
    exact ⟨[.points], rfl, .points⟩
  · exact answers_number
  · -- No factor starts with what is left: a further operation or a closing parenthesis.
    intro token tail hminus hplus hopening hpoints hnumber
    cases token with
    | number digits => exact (hnumber digits rfl).elim
    | points => exact (hpoints rfl).elim
    | sign s =>
      rw [factorOf_sign (fun h ↦ hminus (h ▸ rfl)) (fun h ↦ hplus (h ▸ rfl))
        (fun h ↦ hopening (h ▸ rfl))]
      exact Or.inl rfl

/-! ### What is derived is read -/

/-- No factor follows at the start of these tokens. -/
def EndsProduct (rest : List Token) : Prop :=
  ∀ token ∈ rest.head?, token.multiplicative? = none

theorem factorsOf_of_endsProduct {rest : List Token} (h : EndsProduct rest) (left : Formula) :
    factorsOf left rest = .ok (left, rest) := by
  cases rest with
  | nil => exact factorsOf_nil left
  | cons token tail => exact factorsOf_stop (h token rfl) left tail

/-- Where the reader of a level stands once it has used the given tokens. A factor is read whole;
the reader of products is left with the further factors and the reader of sums with the further
products, so nothing need be known of what follows but that the last product ends. -/
def Reads : Level → List Token → Formula → Prop
  | .factor, used, tree => ∀ rest, factorOf (used ++ rest) = .ok (tree, rest)
  | .product, used, tree => ∀ rest, productOf (used ++ rest) = factorsOf tree rest
  | .sum, used, tree => ∀ rest, EndsProduct rest → sumOf (used ++ rest) = termsOf tree rest

theorem productOf_append {used rest : List Token} {tree : Formula} (h : Reads .product used tree)
    (hend : EndsProduct rest) : productOf (used ++ rest) = .ok (tree, rest) := by
  rw [h rest, factorsOf_of_endsProduct hend]

theorem reads_sum_more {token : Token} {operator : Operator}
    (hadditive : token.additive? = some operator) (hmultiplicative : token.multiplicative? = none)
    {before after : List Token} {left right : Formula} (hleft : Reads .sum before left)
    (hright : Reads .product after right) :
    Reads .sum (before ++ token :: after) (.binary operator left right) := by
  intro rest hend
  have hstop : EndsProduct (token :: (after ++ rest)) := by
    intro other hother
    cases hother
    exact hmultiplicative
  rw [List.append_assoc, List.cons_append, hleft _ hstop, termsOf_more hadditive,
    productOf_append hright hend, ok_bind]

theorem reads_product_more {token : Token} {operator : Operator}
    (h : token.multiplicative? = some operator) {before after : List Token} {left right : Formula}
    (hleft : Reads .product before left) (hright : Reads .factor after right) :
    Reads .product (before ++ token :: after) (.binary operator left right) := by
  intro rest
  rw [List.append_assoc, List.cons_append, hleft, factorsOf_more h, hright, ok_bind]

theorem endsProduct_closing (rest : List Token) : EndsProduct (.sign .closing :: rest) := by
  intro token htoken
  cases htoken
  rfl

theorem reads_of_derives {level : Level} {used : List Token} {tree : Formula}
    (h : Derives level used tree) : Reads level used tree := by
  induction h with
  | product _ ih =>
    intro rest hend
    rw [sumOf_eq, productOf_append ih hend, ok_bind]
  | add _ _ ihleft ihright => exact reads_sum_more rfl rfl ihleft ihright
  | subtract _ _ ihleft ihright => exact reads_sum_more rfl rfl ihleft ihright
  | factor _ ih =>
    intro rest
    rw [productOf_eq, ih, ok_bind]
  | multiply _ _ ihleft ihright => exact reads_product_more rfl ihleft ihright
  | divide _ _ ihleft ihright => exact reads_product_more rfl ihleft ihright
  | negated _ ih =>
    intro rest
    rw [List.cons_append, factorOf_minus, ih, ok_bind]
  | unsigned _ ih =>
    intro rest
    rw [List.cons_append, factorOf_plus, ih]
  | @enclosed tokens inner _ ih =>
    intro rest
    rw [List.cons_append, List.cons_append, factorOf_opening, List.append_assoc,
      List.singleton_append, ih _ (endsProduct_closing rest), termsOf_stop rfl, ok_bind]
    rfl
  | points =>
    intro rest
    exact factorOf_points rest
  | @number digits n hdecimal =>
    intro rest
    rw [List.singleton_append, factorOf_number, numberOfDigits, hdecimal]
    rfl

/-! ### Whole lists of tokens -/

theorem ofTokens_eq (tokens : List Token) :
    ofTokens tokens = sumOf tokens >>= fun answer ↦
      match answer.2 with
      | [] => .ok answer.1
      | token :: _ => .error (.unexpectedToken token.text) := by
  rw [ofTokens, sumOf]
  rcases readSum tokens with fault | ⟨tree, rest, shorter⟩
  · rfl
  · cases rest <;> rfl

/-- A tree is read of some tokens exactly when all of them together derive it. -/
theorem ofTokens_eq_ok_iff {tokens : List Token} {tree : Formula} :
    ofTokens tokens = .ok tree ↔ Derives .sum tokens tree := by
  constructor
  · intro h
    rw [ofTokens_eq, bind_eq_ok_iff] at h
    obtain ⟨⟨found, rest⟩, hread, h⟩ := h
    cases rest with
    | cons token rest => cases h
    | nil =>
      cases h
      have hanswer := answers.1 tokens
      rw [hread] at hanswer
      obtain ⟨used, hused, hderives⟩ := hanswer
      rw [List.append_nil] at hused
      exact hused ▸ hderives
  · intro h
    have hread := reads_of_derives h [] (fun _ h ↦ absurd h (Option.not_mem_none _))
    rw [List.append_nil, termsOf_nil] at hread
    rw [ofTokens_eq, hread, ok_bind]

/-- Tokens with decimal digits are a formula or at fault for not being one. -/
theorem isIllFormed_of_ofTokens {tokens : List Token} {fault : Fault}
    (hdecimal : ¬ Misnumbered tokens) (h : ofTokens tokens = .error fault) :
    isIllFormed fault = true := by
  have hanswer := answers.1 tokens
  rw [ofTokens_eq] at h
  cases hread : sumOf tokens with
  | error other =>
    rw [hread] at h hanswer
    cases h
    exact hanswer.resolve_right hdecimal
  | ok answer =>
    obtain ⟨tree, rest⟩ := answer
    rw [hread, ok_bind] at h
    cases rest with
    | nil => cases h
    | cons token rest =>
      cases h
      rfl

end Aventuria.Formula
