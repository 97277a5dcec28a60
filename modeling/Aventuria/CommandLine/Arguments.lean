import Aventuria.CommandLine.Flag

/-!
Assigning the arguments of a command line to flags and operands. A flag takes the values that
follow it; operands are taken in groups between the flags, and a group is never interrupted by a
flag. Behind a divider every argument is an operand. Each group and each flag then loses the first
divider among its values, even one that was meant as a value. There is no assignment when an
argument is missing, left over or unknown.
-/

set_option autoImplicit false
set_option relaxedAutoImplicit false

namespace Aventuria.CommandLine

def dividerText : String := "--"

inductive Argument where
  | divider
  | text (role : Role) (text : String)
  deriving DecidableEq, Repr

namespace Argument

def raw : Argument → String
  | divider => dividerText
  | text _ t => t

end Argument

/-- All arguments with their roles, unless one of them is ambiguous. -/
def readArguments? (flags : List Flag) : List String → Option (List Argument)
  | [] => some []
  | arg :: args =>
    if arg = dividerText then some (.divider :: args.map (.text .operand))
    else do
      let role ← role? flags arg.toList
      let arguments ← readArguments? flags args
      some (.text role arg :: arguments)

/-- A flag and the values it was given. -/
structure Use where
  flag : Flag
  values : List String
  deriving DecidableEq, Repr

/-- The flags that an argument with joined letters stands for: some without values, and a last
one, perhaps with the value joined to it. -/
def unjoin? (flags : List Flag) (flag : Flag) (name : List Char) :
    List Char → Option (List Flag × Flag × Option String)
  | [] => if flag.arity = 1 then some ([], flag, some "") else none
  | c :: rest =>
    if flag.arity = 1 then some ([], flag, some (String.ofList (c :: rest)))
    else if flag.arity ≠ 0 || Flag.isLong name then none
    else do
      let next ← Flag.find? flags ['-', c]
      if rest.isEmpty then some ([flag], next, none)
      else
        let (bare, last, value) ← unjoin? flags next ['-', c] rest
        some (flag :: bare, last, value)

/-- So many operands from the front. -/
def takeValues : Nat → List Argument → Option (List String × List Argument)
  | 0, arguments => some ([], arguments)
  | n + 1, .text .operand value :: arguments => do
    let (values, rest) ← takeValues n arguments
    some (value :: values, rest)
  | _ + 1, _ => none

/-- So many operands from the front, and the dividers around them. -/
def takeGroup : Nat → List Argument → Option (List String × List Argument)
  | n, .divider :: arguments => do
    let (values, rest) ← takeGroup n arguments
    some (dividerText :: values, rest)
  | 0, arguments => some ([], arguments)
  | n + 1, .text .operand value :: arguments => do
    let (values, rest) ← takeGroup n arguments
    some (value :: values, rest)
  | _ + 1, _ => none

theorem length_of_takeValues {n : Nat} {arguments rest : List Argument} {values : List String}
    (h : takeValues n arguments = some (values, rest)) : rest.length ≤ arguments.length := by
  fun_induction takeValues n arguments generalizing values with
  | case1 arguments => simp_all
  | case2 n value arguments ih =>
    simp only [Option.bind_eq_bind, Option.bind_eq_some_iff, Option.some.injEq,
      Prod.mk.injEq] at h
    obtain ⟨⟨v, r⟩, hr, -, rfl⟩ := h
    exact Nat.le_succ_of_le (ih hr)
  | case3 => simp at h

theorem length_of_takeGroup {n : Nat} {arguments rest : List Argument} {values : List String}
    (h : takeGroup n arguments = some (values, rest)) : rest.length ≤ arguments.length := by
  fun_induction takeGroup n arguments generalizing values with
  | case1 n arguments ih =>
    simp only [Option.bind_eq_bind, Option.bind_eq_some_iff, Option.some.injEq,
      Prod.mk.injEq] at h
    obtain ⟨⟨v, r⟩, hr, -, rfl⟩ := h
    exact Nat.le_succ_of_le (ih hr)
  | case2 arguments => simp_all
  | case3 n value arguments ih =>
    simp only [Option.bind_eq_bind, Option.bind_eq_some_iff, Option.some.injEq,
      Prod.mk.injEq] at h
    obtain ⟨⟨v, r⟩, hr, -, rfl⟩ := h
    exact Nat.le_succ_of_le (ih hr)
  | case4 => simp at h

/-- The flags that an argument stands for, as far as it goes. -/
def joined? (flags : List Flag) (flag : Flag) (name : List Char) :
    Option (List Char) → Option (List Flag × Flag × Option String)
  | some text => unjoin? flags flag name text
  | none => some ([], flag, none)

/-- The values of a flag: the one joined to it, or those behind it. A divider is no value. -/
def valuesOf? (flag : Flag) (arguments : List Argument) :
    Option String → Option (List String × List Argument)
  | some value => some ([value].erase dividerText, arguments)
  | none => takeValues flag.arity arguments

theorem length_of_valuesOf? {flag : Flag} {arguments rest : List Argument}
    {value : Option String} {values : List String}
    (h : valuesOf? flag arguments value = some (values, rest)) :
    rest.length ≤ arguments.length := by
  cases value with
  | some value =>
    simp only [valuesOf?, Option.some.injEq, Prod.mk.injEq] at h
    simp [h.2]
  | none => exact length_of_takeValues h

/-- The flags of one argument with their values, some of which may be taken from the arguments
behind it. -/
def useFlag? (flags : List Flag) (flag : Flag) (name : List Char) (joined : Option (List Char))
    (arguments : List Argument) : Option (List Use × List Argument) := do
  let (bare, last, value) ← joined? flags flag name joined
  let (values, rest) ← valuesOf? last arguments value
  some (bare.map (Use.mk · []) ++ [⟨last, values⟩], rest)

theorem length_of_useFlag? {flags : List Flag} {flag : Flag} {name : List Char}
    {joined : Option (List Char)} {arguments rest : List Argument} {uses : List Use}
    (h : useFlag? flags flag name joined arguments = some (uses, rest)) :
    rest.length ≤ arguments.length := by
  simp only [useFlag?, Option.bind_eq_bind, Option.bind_eq_some_iff, Option.some.injEq,
    Prod.mk.injEq] at h
  obtain ⟨⟨bare, last, value⟩, -, ⟨values, r⟩, hr, -, rfl⟩ := h
  exact length_of_valuesOf? hr

structure Assignment where
  uses : List Use
  operands : List (List String)
  deriving DecidableEq, Repr

namespace Assignment

def empty : Assignment := ⟨[], []⟩

def withUses (assignment : Assignment) (uses : List Use) : Assignment :=
  { assignment with uses := uses ++ assignment.uses }

def withOperand (assignment : Assignment) (values : List String) : Assignment :=
  { assignment with operands := values :: assignment.operands }

/-- The values given to the flag of a name, one list for each of its uses. -/
def valuesOf (assignment : Assignment) (name : String) : List (List String) :=
  (assignment.uses.filter (·.flag.names.contains name)).map Use.values

def has (assignment : Assignment) (name : String) : Bool :=
  !(assignment.valuesOf name).isEmpty

end Assignment

/-- Assigns all arguments to the flags and to operands of the given sizes, each at least one. -/
def assign? (flags : List Flag) (sizes : List Nat) (arguments : List Argument) :
    Option Assignment :=
  match arguments with
  | [] => if sizes.isEmpty then some .empty else none
  | .divider :: rest =>
    match sizes with
    | [] => none
    | size :: sizes =>
      match h : takeGroup size rest with
      | some (values, rest') =>
        have : rest'.length ≤ rest.length := length_of_takeGroup h
        (assign? flags sizes rest').map (·.withOperand values)
      | none => none
  | .text .unknown _ :: _ => none
  | .text .operand value :: rest =>
    match sizes with
    | [] => none
    | size :: sizes =>
      match h : takeGroup (size - 1) rest with
      | some (values, rest') =>
        have : rest'.length ≤ rest.length := length_of_takeGroup h
        (assign? flags sizes rest').map (·.withOperand ((value :: values).erase dividerText))
      | none => none
  | .text (.flag flag name joined) _ :: rest =>
    match h : useFlag? flags flag name joined rest with
    | some (uses, rest') =>
      have : rest'.length ≤ rest.length := length_of_useFlag? h
      (assign? flags sizes rest').map (·.withUses uses)
    | none => none
termination_by arguments.length
decreasing_by all_goals simp only [List.length_cons]; omega

/-- The flags in front of the first operand, and all arguments from it on as they were typed. -/
def assignCommand? (flags : List Flag) (arguments : List Argument) :
    Option (List Use × List String) :=
  match arguments with
  | [] => some ([], [])
  | .text .operand command :: rest => some ([], command :: rest.map Argument.raw)
  | .text (.flag flag name joined) _ :: rest =>
    match h : useFlag? flags flag name joined rest with
    | some (uses, rest') =>
      have : rest'.length ≤ rest.length := length_of_useFlag? h
      (assignCommand? flags rest').map fun (more, command) ↦ (uses ++ more, command)
    | none => none
  | _ => none
termination_by arguments.length
decreasing_by simp only [List.length_cons]; omega

end Aventuria.CommandLine
