import Aventuria.CommandLine.Request

/-!
# What flags are given

Only flags of the form are recognised, and each use of a flag gets as many values as the flag takes,
but for a divider joined to a flag with one value, which leaves that flag with none
(`assign?_fits`). The values are read one by one (`mapM_eq_some_iff`).
-/

set_option autoImplicit false
set_option relaxedAutoImplicit false

namespace Aventuria.CommandLine

/-! ### Flags of a form -/

section
variable {flags : List Flag}

theorem mem_of_mem_named {name : List Char} {flag : Flag} (h : (name, flag) ∈ Flag.named flags) :
    flag ∈ flags := by
  obtain ⟨other, hother, hname⟩ := List.mem_flatMap.mp h
  obtain ⟨_, -, hpair⟩ := List.mem_map.mp hname
  rwa [← (Prod.mk.inj hpair).2]

theorem mem_of_find? {name : List Char} {flag : Flag} (h : Flag.find? flags name = some flag) :
    flag ∈ flags := by
  obtain ⟨before, after, hnamed, -⟩ := List.lookup_eq_some_iff.mp h
  exact mem_of_mem_named (hnamed ▸ List.mem_append_right _ List.mem_cons_self)

/-- What an argument is recognised as is a flag of the form. -/
def Role.Known (flags : List Flag) : Role → Prop
  | .flag member _ _ => member ∈ flags
  | .operand | .unknown => True

theorem known_of_spelledOut? {text : List Char} {role : Role}
    (h : Flag.spelledOut? flags text = some role) : role.Known flags := by
  rw [Flag.spelledOut?] at h
  split at h
  · next flag hfind =>
    obtain rfl := Option.some.inj h
    exact mem_of_find? hfind
  · split at h
    · cases h
    · obtain ⟨flag, hfind, rfl⟩ := Option.map_eq_some_iff.mp h
      exact mem_of_find? hfind

theorem known_of_candidates {text : List Char} {role : Role}
    (h : role ∈ Flag.candidates flags text) : role.Known flags := by
  rw [Flag.candidates] at h
  split at h
  · obtain ⟨⟨name, flag⟩, hnamed, hrole⟩ := List.mem_filterMap.mp h
    obtain ⟨-, hrole⟩ := Option.ite_none_right_eq_some.mp hrole
    obtain rfl := Option.some.inj hrole
    exact mem_of_mem_named hnamed
  · obtain ⟨⟨name, flag⟩, hnamed, hrole⟩ := List.mem_filterMap.mp h
    dsimp only at hrole
    split at hrole
    · obtain rfl := Option.some.inj hrole
      exact mem_of_mem_named hnamed
    · obtain ⟨-, hrole⟩ := Option.ite_none_right_eq_some.mp hrole
      obtain rfl := Option.some.inj hrole
      exact mem_of_mem_named hnamed

theorem known_of_role? {text : List Char} {role : Role} (h : role? flags text = some role) :
    role.Known flags := by
  rw [role?] at h
  split at h
  · obtain rfl := Option.some.inj h
    trivial
  · split at h
    · next hspelled =>
      obtain rfl := Option.some.inj h
      exact known_of_spelledOut? hspelled
    · split at h
      · next hone =>
        obtain rfl := Option.some.inj h
        exact known_of_candidates (hone ▸ List.mem_cons_self)
      · cases h
      · split at h <;> obtain rfl := Option.some.inj h <;> trivial

/-- The flags among the arguments are flags of the form. -/
def Argument.Known (flags : List Flag) : Argument → Prop
  | .divider => True
  | .text role _ => role.Known flags

theorem known_of_readArguments? {args : List String} {arguments : List Argument}
    (h : readArguments? flags args = some arguments) : ∀ a ∈ arguments, a.Known flags := by
  induction args generalizing arguments with
  | nil =>
    obtain rfl := Option.some.inj h
    exact fun _ ha ↦ absurd ha List.not_mem_nil
  | cons arg args ih =>
    rw [readArguments?] at h
    split at h
    · obtain rfl := Option.some.inj h
      refine List.forall_mem_cons.mpr ⟨trivial, fun a ha ↦ ?_⟩
      obtain ⟨_, -, rfl⟩ := List.mem_map.mp ha
      trivial
    · simp only [Option.bind_eq_bind, Option.bind_eq_some_iff, Option.some.injEq] at h
      obtain ⟨role, hrole, rest, hrest, rfl⟩ := h
      exact List.forall_mem_cons.mpr ⟨known_of_role? hrole, ih hrest⟩

/-! ### Uses of flags -/

/-- A use of a flag of the form with as many values as the flag takes. Only where a flag takes one
value may it have been left with none. -/
structure Use.Fits (flags : List Flag) (use : Use) : Prop where
  known : use.flag ∈ flags
  values : use.values.length = use.flag.arity ∨ use.flag.arity = 1 ∧ use.values = []

/-- Letters joined to a flag are flags without values, up to the last one. -/
theorem known_of_unjoin? {text name : List Char} {flag last : Flag} {bare : List Flag}
    {value : Option String} (hflag : flag ∈ flags)
    (h : unjoin? flags flag name text = some (bare, last, value)) :
    (∀ f ∈ bare, f ∈ flags ∧ f.arity = 0) ∧ last ∈ flags ∧ (value ≠ none → last.arity = 1) := by
  induction text generalizing flag name bare with
  | nil =>
    rw [unjoin?] at h
    obtain ⟨harity, h⟩ := Option.ite_none_right_eq_some.mp h
    cases h
    exact ⟨fun _ hf ↦ absurd hf List.not_mem_nil, hflag, fun _ ↦ harity⟩
  | cons c rest ih =>
    rw [unjoin?] at h
    split at h
    · next harity =>
      cases h
      exact ⟨fun _ hf ↦ absurd hf List.not_mem_nil, hflag, fun _ ↦ harity⟩
    · split at h
      · cases h
      · next hbare =>
        have hflag' : flag ∈ flags ∧ flag.arity = 0 := by
          simp only [Bool.or_eq_true, not_or, decide_eq_true_eq, Decidable.not_not] at hbare
          exact ⟨hflag, hbare.1⟩
        simp only [Option.bind_eq_bind, Option.bind_eq_some_iff] at h
        obtain ⟨next, hnext, h⟩ := h
        have hnext := mem_of_find? hnext
        split at h
        · cases h
          exact ⟨List.forall_mem_singleton.mpr hflag', hnext, fun hnone ↦ absurd rfl hnone⟩
        · obtain ⟨⟨bare, last, value⟩, hrest, h⟩ := Option.bind_eq_some_iff.mp h
          cases h
          obtain ⟨hbare, hlast⟩ := ih hnext hrest
          exact ⟨List.forall_mem_cons.mpr ⟨hflag', hbare⟩, hlast⟩

theorem takeValues_spec {n : Nat} {arguments rest : List Argument} {values : List String}
    (h : takeValues n arguments = some (values, rest)) :
    values.length = n ∧ rest <:+ arguments := by
  fun_induction takeValues n arguments generalizing values with
  | case1 arguments =>
    cases h
    exact ⟨rfl, List.suffix_rfl⟩
  | case2 n value arguments ih =>
    simp only [Option.bind_eq_bind, Option.bind_eq_some_iff, Option.some.injEq,
      Prod.mk.injEq] at h
    obtain ⟨⟨taken, later⟩, htaken, rfl, rfl⟩ := h
    obtain ⟨hlength, hsuffix⟩ := ih htaken
    exact ⟨congrArg (· + 1) hlength, hsuffix.trans (List.suffix_cons _ _)⟩
  | case3 => cases h

theorem suffix_of_takeGroup {n : Nat} {arguments rest : List Argument} {values : List String}
    (h : takeGroup n arguments = some (values, rest)) : rest <:+ arguments := by
  fun_induction takeGroup n arguments generalizing values with
  | case1 n arguments ih | case3 n value arguments ih =>
    simp only [Option.bind_eq_bind, Option.bind_eq_some_iff, Option.some.injEq,
      Prod.mk.injEq] at h
    obtain ⟨⟨taken, later⟩, htaken, -, rfl⟩ := h
    exact (ih htaken).trans (List.suffix_cons _ _)
  | case2 arguments =>
    cases h
    exact List.suffix_rfl
  | case4 => cases h

theorem valuesOf?_spec {flag : Flag} {arguments rest : List Argument} {value : Option String}
    {values : List String} (harity : value ≠ none → flag.arity = 1)
    (h : valuesOf? flag arguments value = some (values, rest)) :
    (values.length = flag.arity ∨ flag.arity = 1 ∧ values = []) ∧ rest <:+ arguments := by
  cases value with
  | none =>
    obtain ⟨hlength, hsuffix⟩ := takeValues_spec h
    exact ⟨.inl hlength, hsuffix⟩
  | some value =>
    obtain ⟨rfl, rfl⟩ := Prod.mk.inj (Option.some.inj h)
    have harity := harity (Option.some_ne_none value)
    refine ⟨?_, List.suffix_rfl⟩
    by_cases hdivider : value = dividerText
    · exact .inr ⟨harity, by rw [hdivider, List.erase_cons_head]⟩
    · rw [List.erase_of_not_mem (by simpa [eq_comm] using hdivider), harity]
      exact .inl rfl

/-- One argument with flags gives rise to uses that fit. -/
theorem useFlag?_spec {flag : Flag} {name : List Char} {joined : Option (List Char)}
    {arguments rest : List Argument} {uses : List Use} (hflag : flag ∈ flags)
    (h : useFlag? flags flag name joined arguments = some (uses, rest)) :
    (∀ use ∈ uses, use.Fits flags) ∧ rest <:+ arguments := by
  simp only [useFlag?, Option.bind_eq_bind, Option.bind_eq_some_iff, Option.some.injEq,
    Prod.mk.injEq] at h
  obtain ⟨⟨bare, last, value⟩, hjoined, ⟨values, later⟩, hvalues, rfl, rfl⟩ := h
  obtain ⟨hbare, hlast, harity⟩ : (∀ f ∈ bare, f ∈ flags ∧ f.arity = 0) ∧ last ∈ flags ∧
      (value ≠ none → last.arity = 1) := by
    cases joined with
    | some text => exact known_of_unjoin? hflag hjoined
    | none =>
      cases hjoined
      exact ⟨fun _ hf ↦ absurd hf List.not_mem_nil, hflag, fun hnone ↦ absurd rfl hnone⟩
  obtain ⟨hfit, hsuffix⟩ := valuesOf?_spec harity hvalues
  refine ⟨List.forall_mem_append.mpr ⟨fun use huse ↦ ?_, List.forall_mem_singleton.mpr
    ⟨hlast, hfit⟩⟩, hsuffix⟩
  obtain ⟨f, hf, rfl⟩ := List.mem_map.mp huse
  exact ⟨(hbare f hf).1, .inl (hbare f hf).2.symm⟩

/-- All uses of flags fit. -/
theorem assign?_fits {sizes : List Nat} {arguments : List Argument} {assignment : Assignment}
    (hknown : ∀ a ∈ arguments, a.Known flags)
    (h : assign? flags sizes arguments = some assignment) :
    ∀ use ∈ assignment.uses, use.Fits flags := by
  fun_induction assign? flags sizes arguments generalizing assignment
  case case1 =>
    cases h
    exact fun _ huse ↦ absurd huse List.not_mem_nil
  case case4 hgroup _ ih | case8 hgroup _ ih =>
    obtain ⟨later, hlater, rfl⟩ := Option.map_eq_some_iff.mp h
    have hrest := (List.forall_mem_cons.mp hknown).2
    have hfits := ih (fun a ha ↦ hrest a ((suffix_of_takeGroup hgroup).subset ha)) hlater
    exact hfits
  case case10 huses _ ih =>
    obtain ⟨hflag, hrest⟩ := List.forall_mem_cons.mp hknown
    obtain ⟨later, hlater, rfl⟩ := Option.map_eq_some_iff.mp h
    obtain ⟨hfits, hsuffix⟩ := useFlag?_spec hflag huses
    exact List.forall_mem_append.mpr
      ⟨hfits, ih (fun a ha ↦ hrest a (hsuffix.subset ha)) hlater⟩
  all_goals cases h

end

/-! ### What is read from the values of a flag -/

section
variable {α : Type} {read? : String → Option α} {assignment : Assignment} {name : String}

/-- A list is read member by member. -/
theorem of_mapM_eq_some {β γ : Type} {read? : β → Option γ} {bs : List β} {cs : List γ}
    (h : bs.mapM read? = some cs) :
    cs.length = bs.length ∧ ∀ c ∈ cs, ∃ b ∈ bs, read? b = some c := by
  induction bs generalizing cs with
  | nil =>
    obtain rfl := Option.some.inj h
    exact ⟨rfl, fun _ hc ↦ absurd hc List.not_mem_nil⟩
  | cons b bs ih =>
    rw [List.mapM_cons] at h
    simp only [Option.bind_eq_bind, Option.bind_eq_some_iff] at h
    obtain ⟨c, hc, rest, hrest, h⟩ := h
    obtain rfl := Option.some.inj h
    obtain ⟨hlength, hmem⟩ := ih hrest
    refine ⟨congrArg (· + 1) hlength, List.forall_mem_cons.mpr
      ⟨⟨b, List.mem_cons_self, hc⟩, fun d hd ↦ ?_⟩⟩
    obtain ⟨e, he, hread⟩ := hmem d hd
    exact ⟨e, List.mem_cons_of_mem _ he, hread⟩

/-- What is read for a flag was given in one of its uses, value by value. -/
theorem exists_use_of_mem_readings {readings : List (List α)} {reading : List α}
    (h : assignment.readings? read? name = some readings) (hmem : reading ∈ readings) :
    ∃ use ∈ assignment.uses, name ∈ use.flag.names ∧ reading.length = use.values.length ∧
      ∀ a ∈ reading, ∃ text ∈ use.values, read? text = some a := by
  obtain ⟨values, hvalues, hreading⟩ := (of_mapM_eq_some h).2 reading hmem
  obtain ⟨use, huse, rfl⟩ := List.mem_map.mp hvalues
  obtain ⟨huse, hname⟩ := List.mem_filter.mp huse
  exact ⟨use, huse, List.contains_iff_mem.mp hname, of_mapM_eq_some hreading⟩

theorem exists_text_of_entry? {a : α}
    (h : assignment.entry? read? name = some (some (.value a))) : ∃ text, read? text = some a := by
  obtain ⟨readings, hreadings, hlast⟩ := Option.map_eq_some_iff.mp h
  obtain ⟨reading, hreading, hentry⟩ := Option.map_eq_some_iff.mp hlast
  cases reading with
  | nil => cases hentry
  | cons b rest =>
    cases hentry
    obtain ⟨use, -, -, -, hvalues⟩ :=
      exists_use_of_mem_readings hreadings (List.mem_of_getLast? hreading)
    obtain ⟨text, -, htext⟩ := hvalues a List.mem_cons_self
    exact ⟨text, htext⟩

end

/-! ### What every request has -/

/-- A command is the help or is built from uses that fit its form. -/
theorem Command.exists_assignment_of_read? {flags : List Flag} {sizes : List Nat}
    {build? : Assignment → Option Command} {args : List String} {command : Command}
    (h : Command.read? flags sizes build? args = some command) :
    command = .help ∨ ∃ assignment, build? assignment = some command ∧
      ∀ use ∈ assignment.uses, use.Fits flags := by
  simp only [Command.read?, Option.bind_eq_bind, Option.bind_eq_some_iff] at h
  obtain ⟨arguments, harguments, assignment, hassignment, h⟩ := h
  split at h
  · exact .inl (Option.some.inj h).symm
  · exact .inr ⟨assignment, h, assign?_fits (known_of_readArguments? harguments) hassignment⟩

/-- The traits of a request are read from their flag, its command from what follows the flags. -/
theorem Request.exists_of_ofArguments? {args : List String} {request : Request}
    (h : Request.ofArguments? args = some request) :
    ∃ session rest traits, Assignment.entry? session traits? "--traits" = some traits ∧
      request.traits = traits.getD (.value 0) ∧
      (request.command = .help ∨ Command.ofArguments? rest = some request.command) := by
  simp only [Request.ofArguments?, Request.read?, Option.bind_eq_bind,
    Option.bind_eq_some_iff] at h
  obtain ⟨_, -, ⟨uses, rest⟩, -, _, -, _, -, _, -, traits, htraits, h⟩ := h
  refine ⟨⟨uses, []⟩, rest, traits, htraits, ?_⟩
  split at h
  · cases h
    exact ⟨rfl, .inl rfl⟩
  · obtain ⟨command, hcommand, h⟩ := Option.bind_eq_some_iff.mp h
    cases h
    exact ⟨rfl, .inr hcommand⟩

/-- The number of traits is one that a caster can have. -/
theorem Request.traits_range {args : List String} {request : Request}
    (h : Request.ofArguments? args = some request) {traits : Int}
    (htraits : request.traits = .value traits) : 0 ≤ traits ∧ traits ≤ 2 := by
  obtain ⟨session, rest, given, hgiven, heq, -⟩ := Request.exists_of_ofArguments? h
  rw [heq] at htraits
  cases given with
  | none =>
    cases htraits
    decide
  | some entry =>
    obtain rfl : entry = .value traits := htraits
    obtain ⟨text, htext⟩ := exists_text_of_entry? hgiven
    obtain ⟨-, hrange⟩ := Option.filter_eq_some_iff.mp htext
    rwa [Bool.and_eq_true, decide_eq_true_eq, decide_eq_true_eq] at hrange

theorem length_of_readCheck? {assignment : Assignment}
    (hfits : ∀ use ∈ assignment.uses, use.Fits Command.checkForm) {rating : Int}
    {difficulty exchange : Entry Int} {attributes rolls : List Int} {pointsName : Entry String}
    (h : Command.readCheck? assignment =
      some (.check rating difficulty attributes exchange (some rolls) pointsName)) :
    rolls.length = 3 := by
  rw [Command.readCheck?] at h
  split at h
  · simp only [Option.bind_eq_bind, Option.bind_eq_some_iff, Option.some.injEq,
      Command.check.injEq] at h
    obtain ⟨_, -, _, -, _, -, _, -, readings, hreadings, _, -, -, -, -, -, hlast, -⟩ := h
    obtain ⟨use, huse, hname, hlength, -⟩ :=
      exists_use_of_mem_readings hreadings (List.mem_of_getLast? hlast)
    have harity : ∀ flag ∈ Command.checkForm, "--rolls" ∈ flag.names → flag.arity = 3 := by decide
    have hthree := harity use.flag (hfits use huse).known hname
    rw [hlength]
    rcases (hfits use huse).values with hvalues | ⟨hone, -⟩
    · rw [hvalues, hthree]
    · rw [hthree] at hone
      cases hone
  · cases h

/-- The given rolls of a check are three. -/
theorem Request.length_of_rolls {args : List String} {request : Request}
    (h : Request.ofArguments? args = some request) {rating : Int} {difficulty exchange : Entry Int}
    {attributes rolls : List Int} {pointsName : Entry String}
    (hcommand : request.command =
      .check rating difficulty attributes exchange (some rolls) pointsName) :
    rolls.length = 3 := by
  obtain ⟨_, rest, _, -, -, hhelp | hread⟩ := Request.exists_of_ofArguments? h
  · rw [hcommand] at hhelp
    cases hhelp
  · rw [hcommand, Command.ofArguments?.eq_def] at hread
    split at hread
    case h_7 => cases hread
    all_goals
      obtain hhelp | ⟨assignment, hbuild, hfits⟩ := Command.exists_assignment_of_read? hread
      · cases hhelp
    case h_5 => exact length_of_readCheck? hfits hbuild
    -- The other commands have no rolls.
    all_goals
      simp only [Command.readRoll?, Command.readFormula?, Command.readHarvest?,
        Command.readExpiry?, Command.readCost?] at hbuild
      split at hbuild <;> simp [Option.bind_eq_some_iff] at hbuild

end Aventuria.CommandLine
