/-!
# Command lines

A program is a tree of commands. Each has options, which may be given anywhere behind its name and
before the next command's, each of them once. A value stands behind its option, or is attached to
it. `scan` walks through the words of a command line and gives the commands that were named and the
options that were given to each.

A value is looked at only when the next option comes, or at the end, so a word that fits nowhere is
reported before a value that is no good, and so is whatever is wrong in a command below.
-/

namespace FlowTally.CommandLine

/-- Why a command line is not carried out. -/
inductive UsageError where
  | helpWanted
  | versionWanted
  | nothingGiven
  | noSubcommand
  | unknownSubcommand
  | unknownArgument
  | badValue
  | repeated
  | valueForFlag
  deriving DecidableEq, Repr

/-- Asking for help is no failure. -/
def UsageError.exitCode : UsageError → Nat
  | helpWanted | versionWanted => 0
  | _ => 2

/-- What an option does. -/
inductive Role where
  /-- takes a value of a certain form -/
  | value (accepts : String → Bool)
  | flag
  | help
  | version

structure Switch where
  long : String
  short : Option Char := none
  role : Role

/-- Any text will do for a value. -/
def Role.text : Role := .value fun _ => true

/-- A path is not empty. -/
def Role.path : Role := .value fun s => !s.isEmpty

def Role.oneOf (names : List String) : Role := .value fun s => names.contains s

def Switch.help : Switch := ⟨"help", some 'h', .help⟩

def Switch.version : Switch := ⟨"version", some 'V', .version⟩

def Switch.wantsValue (s : Switch) : Bool :=
  match s.role with
  | .value _ => true
  | _ => false

/-- A command with its options and the commands below it. -/
inductive Command where
  | mk (name : String) (switches : List Switch) (subcommands : List Command)

namespace Command

def name : Command → String
  | mk name _ _ => name

def switches : Command → List Switch
  | mk _ switches _ => switches

def subcommands : Command → List Command
  | mk _ _ subcommands => subcommands

def isLeaf (c : Command) : Bool := c.subcommands.isEmpty

/-- Every command that has others below it also has one that asks for help. -/
def names (c : Command) : List String :=
  if c.isLeaf then [] else c.subcommands.map name ++ ["help"]

def find? (c : Command) (word : String) : Option Command :=
  c.subcommands.find? (·.name = word)

end Command

/-! ## One command's options -/

/-- The options of one command so far. -/
structure Progress where
  /-- options with their values, a flag with an empty one -/
  given : List (String × String) := []
  /-- an option whose value has not been looked at, or has not come yet -/
  pending : Option (Switch × Option String) := none
  /-- no option comes any more -/
  trailing : Bool := false

namespace Progress

/-- Whether the next word is a value, unless it looks like an option. -/
def isWaiting (p : Progress) : Bool := p.pending.any fun (_, value) => value.isNone

def has (p : Progress) (s : Switch) : Bool := p.given.any fun (name, _) => name == s.long

/-- Takes an option with its value. -/
def take (s : Switch) (value : String) (p : Progress) : Except UsageError Progress :=
  let p := { p with given := p.given ++ [(s.long, value)], pending := none }
  match s.role with
  | .value accepts => if accepts value then .ok p else .error .badValue
  | .flag => .ok p
  | .help => .error .helpWanted
  | .version => .error .versionWanted

/-- Takes an option that may be there already. -/
def takeOnce (s : Switch) (value : String) (p : Progress) : Except UsageError Progress :=
  if p.has s then .error .repeated else p.take s value

/-- Looks at the value that is pending. -/
def settle (p : Progress) : Except UsageError Progress :=
  match p.pending with
  | none => .ok p
  | some (_, none) => .error .badValue
  | some (s, some value) => p.takeOnce s value

/-- Takes an option with the value that is attached to it, if there is one. -/
def option (s : Switch) (attached : Option String) (p : Progress) : Except UsageError Progress :=
  if s.wantsValue then do
    let p ← p.settle
    match attached with
    | some value => p.takeOnce s value
    | none => .ok { p with pending := some (s, none) }
  else if attached.isSome then .error .valueForFlag
  else do (← p.settle).takeOnce s ""

/-- Takes the options of one letter in a word. Behind a letter that wants a value the rest is the
value, perhaps behind an equals sign. -/
def letters (switches : List Switch) : List Char → Progress → Except UsageError Progress
  | [], p => .ok p
  | c :: rest, p =>
    match switches.find? (·.short == some c) with
    | none => .error .unknownArgument
    | some s =>
      if s.wantsValue then
        p.option s <|
          match rest with
          | [] => none
          | '=' :: value => some (String.ofList value)
          | value => some (String.ofList value)
      else do letters switches rest (← p.option s none)

/-- The name before the first equals sign, and the value behind it. -/
def splitValue (cs : List Char) : String × Option String :=
  let name := cs.takeWhile (· != '=')
  match cs.drop name.length with
  | [] => (String.ofList name, none)
  | _ :: value => (String.ofList name, some (String.ofList value))

/-- Takes a word that looks like an option. -/
def word (switches : List Switch) (cs : List Char) (p : Progress) :
    Option (Except UsageError Progress) :=
  match cs with
  | '-' :: '-' :: cs =>
    let (name, attached) := splitValue cs
    match switches.find? (·.long == name) with
    | none => some (.error .unknownArgument)
    | some s => some (p.option s attached)
  | '-' :: c :: cs => some (letters switches (c :: cs) p)
  | _ => none

end Progress

/-! ## All of a command line -/

/-- The commands that were named below the program, and the options given on the way, those of the
last command first. -/
structure Selection where
  path : List String
  options : List (String × String)
  deriving DecidableEq, Repr

namespace Selection

/-- The value of an option, given at any command. What is given at a later one counts. -/
def get? (s : Selection) (option : String) : Option String := s.options.lookup option

def has (s : Selection) (option : String) : Bool := (s.get? option).isSome

end Selection

namespace Command

/-- What a word is that fits nowhere. -/
def misplaced (c : Command) (trailing : Bool) (word : String) : UsageError :=
  if trailing && c.names.contains word then .unknownArgument
  else if c.isLeaf then .unknownArgument
  else .unknownSubcommand

/-- Asks for help about the command that words name. -/
def explain (c : Command) : List String → UsageError
  | [] => .helpWanted
  | word :: rest =>
    match c.find? word with
    | some c => c.explain rest
    | none => if c.names.contains word && rest.isEmpty then .helpWanted else .unknownSubcommand

/-- The end of a command line, which has to name a command that has none below it. -/
def finish (c : Command) (p : Progress) : Except UsageError Selection := do
  let p ← p.settle
  if c.isLeaf then .ok ⟨[], p.given⟩
  else if p.given.isEmpty then .error .nothingGiven
  else .error .noSubcommand

def scan (c : Command) (p : Progress) : List String → Except UsageError Selection
  | [] => c.finish p
  | word :: rest =>
    if p.trailing then .error (c.misplaced true word)
    else if !p.isWaiting && c.names.contains word then
      match c.find? word with
      | none => .error (c.explain rest)
      | some sub => do
        let below ← scan sub {} rest
        let p ← p.settle
        return ⟨word :: below.path, below.options ++ p.given⟩
    else if word = "--" then scan c { p with trailing := true } rest
    else
      match p.word c.switches word.toList with
      | some (.ok p) => scan c p rest
      | some (.error e) => .error e
      | none =>
        match p.pending with
        | some (s, none) => scan c { p with pending := some (s, some word) } rest
        | _ => .error (c.misplaced false word)

def parse (c : Command) (words : List String) : Except UsageError Selection := c.scan {} words

end Command

end FlowTally.CommandLine
