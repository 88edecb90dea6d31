import FlowTally.Config.Environment
import FlowTally.Config.Read
import FlowTally.Config.Validate
import FlowTally.Errno
import FlowTally.Toml.Document
/-!
# Loading configurations

A configuration is read from a file, checked, changed by variables and checked again. The file has
to be right by itself: a variable cannot mend it.
-/

namespace FlowTally

/-- Why there is no configuration. -/
inductive LoadError where
  | notFound (path : String)
  /-- the file is there but cannot be read -/
  | unreadable (code : Int)
  | notUnicode
  /-- no file can have this name -/
  | badPath
  | malformed
  | invalid (cause : Invalid)
  deriving DecidableEq, Repr

namespace LoadError

/-- Whether the file is at fault, and not what it says. -/
def isFileFault : LoadError → Bool
  | unreadable _ | notUnicode | badPath => true
  | notFound _ | malformed | invalid _ => false

def message : LoadError → String
  | notFound path => s!"config error: config file not found: {path}"
  | unreadable code => s!"io error: {Errno.text code}"
  | notUnicode => "io error: stream did not contain valid UTF-8"
  | badPath => "io error: file name contained an unexpected NUL byte"
  | malformed => "config error: failed to parse config"
  | invalid cause => s!"config error: {cause.message}"

end LoadError

/-- What reading a file gives: its bytes, or an error number. -/
abbrev FileContent := Except Int Bytes

/-- A step on the way to a configuration. -/
abbrev Loading := ExceptT LoadError Logged

namespace Config

/-- What a configuration text says, whether or not its values make sense. -/
def parse (text : String) : Except LoadError Config :=
  match (Toml.parse? text).bind (ofData? .toml) with
  | some c => .ok c
  | none => .error .malformed

def check (c : Config) : Loading Unit :=
  .mk <| (Except.mapError LoadError.invalid) <$> c.validate

/-- The text of a file. -/
def decode (path : String) (content : FileContent) : Except LoadError String :=
  if '\x00' ∈ path.toList then .error .badPath
  else
    match content with
    | .error code => .error (if code = Errno.noEntry then .notFound path else .unreadable code)
    | .ok bytes =>
      match Bytes.toString? bytes with
      | some text => .ok text
      | none => .error .notUnicode

/-- The configuration in a file, as the file gives it. -/
def ofFile (path : String) (content : FileContent) : Loading Config := do
  let c ← ExceptT.mk (pure (decode path content >>= parse))
  c.check
  return c

def load (path : String) (content : FileContent) (env : Environment) : Loading Config := do
  let c ← ofFile path content
  let c ← ExceptT.lift (c.overriddenBy env)
  c.check
  return c

end Config

end FlowTally
