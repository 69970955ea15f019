/-
TreebankGrammar/Command/Arguments.lean

Reading the arguments of the command.

Arguments are read from left to right.  Options may stand anywhere among the
two paths; short ones may be clustered, and `--` ends them.  Asking for the
help or the version takes effect at once, whatever follows; a fault before
it comes first.

The number of option `-o` follows it in the same argument, with or without an
equals sign, or is the next argument, which then must not start with a
hyphen.  Every option may be given once.
-/
import TreebankGrammar.Number.Numeral

namespace TreebankGrammar.Command

/-! ### Requests -/

/-- What a run of the command is to do. -/
structure Job where
  input : Text
  output : Text
  /-- A number without effect. -/
  number : Int
  debug : Bool
  verify : Bool
  deriving DecidableEq

/-- What the arguments ask for. -/
inductive Request where
  | showVersion
  | showHelp
  | convert (job : Job)
  deriving DecidableEq

/-! ### Numbers -/

/-- One past the largest number of 64 bits with a sign. -/
def numberLimit : Int := 9223372036854775808

/-- Reads a number of 64 bits with a sign. -/
def number? (t : Text) : Option Int :=
  (Numeral.integer? t).filter fun n =>
    -numberLimit ≤ n && n < numberLimit

/-! ### Arguments read so far -/

/-- What the arguments read so far gave. -/
structure Given where
  number : Option Int
  debug : Bool
  verify : Bool
  paths : List Text
  deriving DecidableEq

namespace Given

/-- What no argument gives. -/
def nothing : Given := ⟨none, false, false, []⟩

/-- Adds the number of `-o`. -/
def addNumber (g : Given) (value : Text) : Option Given :=
  match g.number, number? value with
  | none, some n => some { g with number := some n }
  | _, _ => none

/-- Adds `--debug`. -/
def addDebug (g : Given) : Option Given :=
  if g.debug then none else some { g with debug := true }

/-- Adds `--verify`. -/
def addVerify (g : Given) : Option Given :=
  if g.verify then none else some { g with verify := true }

/-- Adds a path, which must not be empty.  There are two of them. -/
def addPath (g : Given) (path : Text) : Option Given :=
  if path.isEmpty || g.paths.length == 2 then none
  else some { g with paths := g.paths ++ [path] }

/-- The job that is given once there are no more arguments. -/
def job? (g : Given) : Option Job :=
  match g.paths with
  | [input, output] =>
    some ⟨input, output, g.number.getD 0, g.debug, g.verify⟩
  | _ => none

end Given

/-! ### Switches -/

/-- The options of the command, by what they do. -/
inductive Switch where
  | number
  | debug
  | verify
  | version
  | help
  deriving DecidableEq

namespace Switch

/-- The option with a short name. -/
def ofShort? : Char → Option Switch
  | 'o' => some number
  | 'd' => some debug
  | 'v' => some version
  | 'h' => some help
  | _ => none

/-- The long names of the options.  They may not be abbreviated. -/
def longNames : List (Text × Switch) :=
  [("option".toList, number), ("debug".toList, debug),
    ("verify".toList, verify), ("version".toList, version),
    ("help".toList, help)]

/-- The option with a long name. -/
def ofLong? (name : Text) : Option Switch := longNames.lookup name

end Switch

/-! ### Single arguments -/

/-- What an argument comes to. -/
inductive Effect where
  /-- The arguments gave something more. -/
  | given (g : Given)
  /-- The next argument is the number of `-o`. -/
  | numberNext (g : Given)
  /-- The request is settled. -/
  | settled (r : Request)
  /-- The argument is not allowed. -/
  | refused
  deriving DecidableEq

/-- The effect of an addition that may be refused. -/
def Effect.ofOption : Option Given → Effect
  | some g => given g
  | none => refused

/-- The effect of an option without a value in the same argument. -/
def Given.apply (g : Given) : Switch → Effect
  | .number => .numberNext g
  | .debug => .ofOption g.addDebug
  | .verify => .ofOption g.addVerify
  | .version => .settled .showVersion
  | .help => .settled .showHelp

/-- The value that stands after a short option in the same argument, an
equals sign in front of it dropped. -/
def attachedValue : Text → Text
  | '=' :: value => value
  | value => value

/-- Reads the short options of an argument.  What follows `-o` is its
number. -/
def shortOptions (g : Given) : Text → Effect
  | [] => .given g
  | c :: rest =>
    match Switch.ofShort? c with
    | none => .refused
    | some switch =>
      if switch = .number ∧ rest ≠ [] then
        .ofOption (g.addNumber (attachedValue rest))
      else
        match g.apply switch with
        | .given g => shortOptions g rest
        | effect => effect

/-- Reads a long option, which may have its value after an equals sign. -/
def longOption (g : Given) (text : Text) : Effect :=
  match Text.breakOn ['='] text with
  | none =>
    match Switch.ofLong? text with
    | none => .refused
    | some switch => g.apply switch
  | some (name, value) =>
    if Switch.ofLong? name = some .number then .ofOption (g.addNumber value)
    else .refused

/-- Reads an argument before the end of the options.  A hyphen alone is a
path. -/
def readArgument (g : Given) : Text → Effect
  | '-' :: '-' :: option => longOption g option
  | '-' :: c :: options => shortOptions g (c :: options)
  | path => .ofOption (g.addPath path)

/-! ### Argument lists -/

/-- Reads the arguments after the end of the options: all of them are
paths. -/
def readPaths (g : Given) : List Text → Option Request
  | [] => g.job?.map .convert
  | path :: paths =>
    match g.addPath path with
    | some g => readPaths g paths
    | none => none

/-- Whether an argument starts with a hyphen. -/
def startsWithHyphen (t : Text) : Bool := t.head? == some '-'

/-- Reads arguments one after the other. -/
def readArguments (g : Given) : List Text → Option Request
  | [] => g.job?.map .convert
  | argument :: rest =>
    if argument = ['-', '-'] then readPaths g rest
    else
      match readArgument g argument with
      | .given g => readArguments g rest
      | .settled request => some request
      | .refused => none
      | .numberNext g =>
        match rest with
        | [] => none
        | value :: rest =>
          if startsWithHyphen value then none
          else
            match g.addNumber value with
            | some g => readArguments g rest
            | none => none

/-- What the arguments of the command ask for, or `none` if they are not
allowed. -/
def request? (arguments : List Text) : Option Request :=
  readArguments .nothing arguments

end TreebankGrammar.Command
