import QueryMix.Command.Grammar

/-!
# `QueryMix.Command.Arguments`: reading a command line

Arguments are read from left to right, one at a time, and each is judged when it is read: the
first that does not fit is what the command line is refused for, and the version is given as
soon as it is asked for. Only what is missing shows at the end.

`--` ends the options. An option with a value takes it from its own argument, after a `=` or
directly after its letter, or from the next argument, unless that looks like an option. No
option may be given twice in a scope, unless it is a counted one. In a scope that leads on
to others, an argument that is no option must be the name of one of them.
-/

set_option autoImplicit false

namespace QueryMix.Command

/-- The value of an operand. -/
inductive Operand where
  | text (t : Text)
  | mode (mode : Mode)
  | index (n : Nat)
  | switch (on : Bool)
deriving DecidableEq, Repr

/-- The bound of an index. -/
def indexBound : Nat := Nat.pow 2 64

/-- The number of a text of decimal digits, with one `+` before them or none. -/
def readIndex? (t : Text) : Option Nat :=
  let digits := match t with
    | '+' :: rest => rest
    | _ => t
  if !digits.isEmpty && digits.all Char.isDigit then
    let n := digits.foldl (fun value c => value * 10 + (c.toNat - '0'.toNat)) 0
    if n < indexBound then some n else none
  else none

/-- The operand of a kind that an argument stands for. -/
def Operand.read? (kind : OperandKind) (arg : Text) : Option Operand :=
  match kind with
  | .text => some (.text arg)
  | .mode => (Mode.ofName? arg).map .mode
  | .index => (readIndex? arg).map .index
  | .switch =>
    if arg = "on".toList then some (.switch true)
    else if arg = "off".toList then some (.switch false)
    else none

/-- What has been given in one scope. An option without a value has the empty value. -/
structure Given where
  scope : Scope
  options : List (OptionKey × Text)
  operands : List Operand
deriving DecidableEq, Repr

namespace Given

/-- Has the option been given? -/
def has (given : Given) (key : OptionKey) : Bool := given.options.any fun o => o.1 == key

/-- How often the option has been given. -/
def count (given : Given) (key : OptionKey) : Nat :=
  (given.options.filter fun o => o.1 == key).length

/-- The value that the option has been given. -/
def value? (given : Given) (key : OptionKey) : Option Text := given.options.lookup key

end Given

/-- Why the reading of a command line stops. -/
inductive Stop where
  /-- The version of the scope is asked for. -/
  | version (scope : Scope)
  /-- An argument does not fit, or something is missing. -/
  | refused
deriving DecidableEq, Repr

/-- How far a command line has been read. -/
structure Progress where
  /-- The scopes that have led here, the last one first. -/
  outer : List Given
  here : Given
  /-- The option that waits for its value. -/
  awaiting : Option OptionSpec
  /-- Has `--` been read? -/
  optionsEnded : Bool
deriving DecidableEq, Repr

namespace Progress

/-- Nothing has been read. -/
def start : Progress := ⟨[], ⟨.program, [], []⟩, none, false⟩

/-- One option more. -/
def give (p : Progress) (spec : OptionSpec) (value : Text) : Except Stop Progress :=
  if spec.kind != .counted && p.here.has spec.key then .error .refused
  else if spec.kind == .filled && value.isEmpty then .error .refused
  else
    .ok { p with
      here := { p.here with options := p.here.options ++ [(spec.key, value)] }
      awaiting := none }

/-- One operand more. -/
def operand (p : Progress) (arg : Text) : Except Stop Progress :=
  match p.here.scope.operandKind? p.here.operands.length with
  | none => .error .refused
  | some kind =>
    match Operand.read? kind arg with
    | none => .error .refused
    | some value =>
      .ok { p with here := { p.here with operands := p.here.operands ++ [value] } }

/-- An argument that is no option: the name of a scope, or an operand. -/
def plain (p : Progress) (arg : Text) : Except Stop Progress :=
  match p.here.scope.entries.lookup arg with
  | some scope => .ok { p with outer := p.here :: p.outer, here := ⟨scope, [], []⟩ }
  | none => p.operand arg

/-- An argument `--name` or `--name=value`, without its dashes. -/
def long (p : Progress) (arg : Text) : Except Stop Progress :=
  let name := arg.takeWhile (· != '=')
  match p.here.scope.options.find? fun spec => spec.long == name with
  | none => .error .refused
  | some spec =>
    match arg.dropWhile (· != '=') with
    | _ :: value => if spec.kind.takesValue then p.give spec value else .error .refused
    | [] =>
      if spec.kind == .final then .error (.version p.here.scope)
      else if spec.kind.takesValue then .ok { p with awaiting := some spec }
      else p.give spec []

/-- An argument of letters after one dash. -/
def short (p : Progress) : List Char → Except Stop Progress
  | [] => .ok p
  | c :: rest =>
    match p.here.scope.options.find? fun spec => spec.short == some c with
    | none => .error .refused
    | some spec =>
      if spec.kind == .final then .error (.version p.here.scope)
      else if spec.kind.takesValue then
        match rest with
        | [] => .ok { p with awaiting := some spec }
        | '=' :: value => p.give spec value
        | value => p.give spec value
      else
        match p.give spec [] with
        | .ok next => next.short rest
        | .error stop => .error stop

/-- Does the argument look like an option? A dash alone does not. -/
def looksLikeOption : Text → Bool
  | '-' :: _ :: _ => true
  | _ => false

/-- One argument further. -/
def step (p : Progress) (arg : Text) : Except Stop Progress :=
  if p.optionsEnded then p.operand arg
  else
    match p.awaiting with
    | some spec => if looksLikeOption arg then .error .refused else p.give spec arg
    | none =>
      match arg with
      | ['-', '-'] => .ok { p with optionsEnded := true }
      | '-' :: '-' :: rest => p.long rest
      | '-' :: c :: rest => p.short (c :: rest)
      | _ => p.plain arg

/-- Is something missing at the end of the command line? -/
def isComplete (p : Progress) : Bool :=
  p.awaiting.isNone && p.here.scope.entries.isEmpty
    && p.here.scope.operandsNeeded ≤ p.here.operands.length

end Progress

/-- What has been given in the scopes of a command line, the innermost scope first. -/
def readArguments (args : List Text) : Except Stop (Given × List Given) := do
  let p ← args.foldlM Progress.step Progress.start
  if p.isComplete then return (p.here, p.outer) else throw .refused

end QueryMix.Command
