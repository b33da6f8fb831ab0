/-
Command-line arguments.

Arguments are read from left to right. One that starts with a dash holds one
long switch or any number of short ones; a switch with a value takes it from
the same argument or from the next. Whatever does not start with a dash, or
comes after two dashes alone, is positional. The first thing that is wrong ends
the reading, and so do the switches that ask for help or for the version: what
stands after them is not looked at.

Both commands derive their reader of arguments from a record `Args`; this is what is derived.
-/
set_option autoImplicit false

namespace StackMachine.Command

/-- A switch of a command. -/
structure Switch where
  short : Char
  long : String
  takesValue : Bool
  deriving DecidableEq, Repr

/-- The switches that every command has. -/
def commonSwitches : List Switch :=
  [⟨'h', "help", false⟩, ⟨'V', "version", false⟩]

/-- An argument that was read. -/
inductive Argument where
  | flag (long : String)
  | valued (long : String) (value : String)
  | positional (text : String)
  deriving DecidableEq, Repr

/-- Why reading ended early. -/
inductive Stop where
  | help
  | version
  /-- An argument that the command does not accept. -/
  | usage
  deriving DecidableEq, Repr

/-- What a command accepts: its switches, and how an argument changes what is
known so far. An argument it refuses is a usage error. -/
structure Grammar (α : Type) where
  switches : List Switch
  accept : α → Argument → Option α

namespace Grammar

variable {α : Type}

/-- Takes an argument in. -/
def take (grammar : Grammar α) (known : α) (argument : Argument) : Except Stop α :=
  match argument with
  | .flag "help" => .error .help
  | .flag "version" => .error .version
  | argument =>
    match grammar.accept known argument with
    | some known => .ok known
    | none => .error .usage

/-- The switch that satisfies a condition. -/
def switch? (grammar : Grammar α) (p : Switch → Bool) : Option Switch :=
  (commonSwitches ++ grammar.switches).find? p

/-- Reads a long switch, after its dashes. A switch that still needs its value is
returned. -/
def readLong (grammar : Grammar α) (known : α) (body : List Char) :
    Except Stop (α × Option Switch) :=
  let (name, rest) := body.span (· != '=')
  match grammar.switch? fun switch => switch.long.toList == name, rest with
  | none, _ => .error .usage
  | some switch, '=' :: value =>
    if switch.takesValue then do
      return (← grammar.take known (.valued switch.long (String.ofList value)), none)
    else .error .usage
  | some switch, _ =>
    if switch.takesValue then .ok (known, some switch)
    else do
      return (← grammar.take known (.flag switch.long), none)

/-- Reads short switches, after their dash. What follows one that takes a value
is that value; an equals sign before it is dropped. A switch that still needs
its value is returned. -/
def readShort (grammar : Grammar α) (known : α) : List Char → Except Stop (α × Option Switch)
  | [] => .ok (known, none)
  | c :: rest =>
    match grammar.switch? fun switch => switch.short == c with
    | none => .error .usage
    | some switch =>
      if switch.takesValue then
        match rest with
        | [] => .ok (known, some switch)
        | '=' :: value => do
          return (← grammar.take known (.valued switch.long (String.ofList value)), none)
        | value => do
          return (← grammar.take known (.valued switch.long (String.ofList value)), none)
      else do
        readShort grammar (← grammar.take known (.flag switch.long)) rest

/-- Whether an argument is for switches. A dash alone is not. -/
def isSwitch (argument : String) : Bool :=
  match argument.toList with
  | '-' :: _ :: _ => true
  | _ => false

/-- Reads arguments; `pending` is a switch that takes the next one as its
value. -/
def readFrom (grammar : Grammar α) (known : α) (pending : Option Switch) :
    List String → Except Stop α
  | [] => if pending.isSome then .error .usage else .ok known
  | argument :: rest =>
    match pending with
    | some switch =>
      if isSwitch argument then .error .usage
      else do
        readFrom grammar (← grammar.take known (.valued switch.long argument)) none rest
    | none =>
      match argument.toList with
      | ['-', '-'] => rest.foldlM (fun known text => grammar.take known (.positional text)) known
      | '-' :: '-' :: body => do
        let (known, pending) ← grammar.readLong known body
        readFrom grammar known pending rest
      | '-' :: c :: body => do
        let (known, pending) ← grammar.readShort known (c :: body)
        readFrom grammar known pending rest
      | _ => do
        readFrom grammar (← grammar.take known (.positional argument)) none rest

/-- Reads all arguments, starting from what is known without them. -/
def read (grammar : Grammar α) (defaults : α) (arguments : List String) : Except Stop α :=
  grammar.readFrom defaults none arguments

end Grammar

end StackMachine.Command
