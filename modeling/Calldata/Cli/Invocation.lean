import Calldata.Text.Split

/-!
# Invocations

Reading the arguments of a run: flags, one command, and the operands of that command. Flags that
every command has may also stand in front of it. The value of a flag follows it or is attached with
an equals sign, and behind `--` there are operands only. What is wrong first decides.
-/

namespace Calldata.Cli

/-! ## Flags -/

inductive Flag where
  | json
  | abi
  | logLevel
  | view
  | setAbi
  | setLogLevel
  deriving DecidableEq, Repr

inductive Wanted where
  | nothing
  | text
  /-- A text that is not empty. -/
  | path
  deriving DecidableEq, Repr

namespace Flag

def all : List Flag := [json, abi, logLevel, view, setAbi, setLogLevel]

def common : List Flag := [json, abi, logLevel]

/-- The name of a flag, without the dashes in front. -/
def name : Flag → String
  | json => "json"
  | abi => "abi"
  | logLevel => "log-level"
  | view => "show"
  | setAbi => "set-abi"
  | setLogLevel => "set-log-level"

def wanted : Flag → Wanted
  | json | view => .nothing
  | abi | setAbi => .path
  | logLevel | setLogLevel => .text

def named? (n : String) : Option Flag := all.find? (·.name = n)

def accepts (f : Flag) (value : String) : Bool :=
  match f.wanted with
  | .nothing => false
  | .text => true
  | .path => value ≠ ""

end Flag

/-! ## Tokens -/

/-- An argument, with its value when it is a flag that wants one. -/
inductive Token where
  | flag (f : Flag) (value : String)
  | operand (s : String)
  /-- The `--` that turns all that follows into operands. -/
  | escape
  /-- An operand behind `--`. -/
  | plain (s : String)
  | help
  | version
  | unreadable
  deriving DecidableEq, Repr

/-- Whether an argument is an operand by its looks. -/
def isOperand (arg : String) : Bool :=
  match arg.toList with
  | '-' :: _ :: _ => false
  | _ => true

/-- The tokens of arguments, up to the first that cannot be read. -/
def tokens : List String → List Token
  | [] => []
  | arg :: rest =>
    match arg.toList with
    | ['-', '-'] => .escape :: rest.map .plain
    | '-' :: '-' :: body =>
      match Text.cut? '=' body with
      | some (name, value) =>
        match Flag.named? (String.ofList name) with
        | some f =>
          if f.accepts (String.ofList value) then .flag f (String.ofList value) :: tokens rest
          else [.unreadable]
        | none => [.unreadable]
      | none =>
        match Flag.named? (String.ofList body) with
        | some f =>
          if f.wanted = .nothing then .flag f "" :: tokens rest
          else
            match rest with
            | value :: rest =>
              if isOperand value && f.accepts value then .flag f value :: tokens rest
              else [.unreadable]
            | [] => [.unreadable]
        | none =>
          if String.ofList body = "help" then .help :: tokens rest
          else if String.ofList body = "version" then .version :: tokens rest
          else [.unreadable]
    | '-' :: 'h' :: _ => .help :: tokens rest
    | '-' :: 'V' :: _ => .version :: tokens rest
    | '-' :: _ :: _ => [.unreadable]
    | _ => .operand arg :: tokens rest

/-! ## Commands -/

inductive Verb where
  | selector
  | type
  | functions
  | encode
  | decode
  | config
  deriving DecidableEq, Repr

namespace Verb

def all : List Verb := [selector, type, functions, encode, decode, config]

def name : Verb → String
  | selector => "selector"
  | type => "type"
  | functions => "functions"
  | encode => "encode"
  | decode => "decode"
  | config => "config"

def named? (n : String) : Option Verb := all.find? (·.name = n)

def flags : Verb → List Flag
  | config => Flag.common ++ [.view, .setAbi, .setLogLevel]
  | _ => Flag.common

def maxOperands : Verb → Nat
  | functions | config => 0
  | encode => 2
  | _ => 1

end Verb

inductive Command where
  | selector (signature : String)
  | type (name : String)
  | functions
  | encode (function arguments : String)
  | decode (data : String)
  | config (view : Bool) (interface logLevel : Option String)
  deriving DecidableEq, Repr

abbrev Given := List (Flag × String)

/-- The command that is meant; none when an operand is missing. -/
def Command.of? (given : Given) : Verb → (operands : List String) → Option Command
  | .selector, [signature] => some (selector signature)
  | .type, [name] => some (type name)
  | .functions, [] => some functions
  | .encode, [function] => some (encode function "[]")
  | .encode, [function, arguments] => some (encode function arguments)
  | .decode, [data] => some (decode data)
  | .config, [] =>
    some (config (given.lookup .view).isSome (given.lookup .setAbi) (given.lookup .setLogLevel))
  | _, _ => none

/-! ## Invocations -/

/-- What arguments ask for. The log level has no bearing on reports. -/
structure Invocation where
  json : Bool
  interface : Option String
  command : Command
  deriving DecidableEq, Repr

inductive Stop where
  | misuse
  | help
  | version
  deriving DecidableEq, Repr

/-- Adds a flag. It has to be one of those allowed, and not given before. -/
def Given.add (allowed : List Flag) (given : Given) (f : Flag) (value : String) :
    Except Stop Given :=
  if f ∈ allowed ∧ given.lookup f = none then .ok ((f, value) :: given) else .error .misuse

def Verb.arguments (v : Verb) : (given : Given) → (operands : List String) → List Token →
    Except Stop (Given × List String)
  | given, operands, [] => .ok (given, operands)
  | given, operands, .flag f value :: ts => do
    v.arguments (← given.add v.flags f value) operands ts
  | given, operands, .operand s :: ts | given, operands, .plain s :: ts =>
    if operands.length < v.maxOperands then v.arguments given (operands ++ [s]) ts
    else .error .misuse
  | given, operands, .escape :: ts => v.arguments given operands ts
  | _, _, .help :: _ => .error .help
  | _, _, .version :: _ | _, _, .unreadable :: _ => .error .misuse

/-- The word that asks for help in the place of a command. -/
def helpWord : String := "help"

/-- Whether tokens behind the word for help are in order: nothing, or the name of a command. -/
def isTopic : List Token → Bool
  | [] => true
  | [.operand name] => name = helpWord || (Verb.named? name).isSome
  | _ => false

namespace Invocation

/-- Reads flags up to the command, and the command. A value given with the command comes before
one given in front of it. -/
def ofTokens : (given : Given) → List Token → Except Stop Invocation
  | given, .flag f value :: ts => do ofTokens (← given.add Flag.common f value) ts
  | given, .operand name :: ts =>
    match Verb.named? name with
    | some v => do
      let (inner, operands) ← v.arguments [] [] ts
      match Command.of? inner v operands with
      | some command =>
        pure {
          json := (given.lookup .json).isSome || (inner.lookup .json).isSome
          interface := (inner.lookup .abi).or (given.lookup .abi)
          command := command }
      | none => .error .misuse
    | none => .error (if name = helpWord && isTopic ts then .help else .misuse)
  | _, .help :: _ => .error .help
  | _, .version :: _ => .error .version
  | _, _ => .error .misuse

def ofArguments (args : List String) : Except Stop Invocation := ofTokens [] (tokens args)

end Invocation

end Calldata.Cli
