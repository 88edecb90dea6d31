import FlowTally.Config.Load
import FlowTally.Proofs.Acceptance
import FlowTally.Proofs.Attributes
import Mathlib.Tactic.MkIffOfInductiveProp
/-!
# Settings from variables

What a variable gives wins over what the file says, setting by setting (`Config.Overridden`), and a
variable that gives nothing leaves the file's value. `load_eq_ok_iff` says when a file and variables
make a configuration: the file has to pass the checks by itself, and what the variables make of it
has to pass them again. So no variable makes up for a setting of the file that does not fit.
-/

namespace FlowTally

/-! ## One setting -/

namespace Environment

variable {α : Type} (env : Environment) (name : String) (read : String → Option α)

/-- The variable is set to a text that is read as the value. -/
def Gives (a : α) : Prop :=
  ∃ bytes text, env.lookup name = some bytes ∧ Bytes.toString? bytes = some text ∧
    read text = some a

/-- The value that the variable gives, or the file's value if it gives none. -/
def Settles (file a : α) : Prop :=
  env.Gives name read a ∨ (∀ b, ¬ env.Gives name read b) ∧ a = file

variable {env name read} {file a : α}

theorem gives_iff : env.Gives name read a ↔ (env.get? name).bind read = some a := by
  simp only [Gives, get?, Option.bind_eq_some_iff]
  constructor
  · rintro ⟨bytes, text, hb, ht, ha⟩
    exact ⟨text, ⟨bytes, hb, ht⟩, ha⟩
  · rintro ⟨text, ⟨bytes, hb, ht⟩, ha⟩
    exact ⟨bytes, text, hb, ht, ha⟩

theorem settles_iff : env.Settles name read file a ↔ a = ((env.get? name).bind read).getD file := by
  simp only [Settles, gives_iff]
  cases (env.get? name).bind read with
  | none => simp
  | some b => simp [eq_comm]

theorem overrideText_eq (env : Environment) (name current : String) :
    env.overrideText name current = ((env.get? name).bind some).getD current := by
  rw [overrideText, Option.bind_fun_some]

theorem value_override (env : Environment) (name : String) (read : String → Option α)
    (current : α) : (env.override name read current).value =
      ((env.get? name).bind read).getD current := by
  unfold override
  cases env.get? name with
  | none => rfl
  | some text => cases h : read text <;> simp [h]

end Environment

/-! ## All settings -/

namespace Config

def readPriority (s : String) : Option Int32 := (Text.int? s).bind Text.int32?

def readInterval (s : String) : Option UInt64 := (Text.nat? s).bind fun n => Text.uint64? n

def readPort (s : String) : Option UInt16 := (Text.nat? s).bind fun n => Text.uint16? n

/-- The configuration has each setting from its variable or from the file, and the file's
counters. -/
@[mk_iff]
structure Overridden (env : Environment) (file c : Config) : Prop where
  logLevel : env.Settles "FLOWMON_GENERAL_LOG_LEVEL" some file.general.logLevel c.general.logLevel
  logFormat :
    env.Settles "FLOWMON_GENERAL_LOG_FORMAT" some file.general.logFormat c.general.logFormat
  family : env.Settles "FLOWMON_NFTABLES_FAMILY" Family.ofName? file.layout.family c.layout.family
  tableName :
    env.Settles "FLOWMON_NFTABLES_TABLE_NAME" some file.layout.tableName c.layout.tableName
  inputChain :
    env.Settles "FLOWMON_NFTABLES_INPUT_CHAIN" some file.layout.inputChain c.layout.inputChain
  outputChain :
    env.Settles "FLOWMON_NFTABLES_OUTPUT_CHAIN" some file.layout.outputChain c.layout.outputChain
  priority :
    env.Settles "FLOWMON_NFTABLES_CHAIN_PRIORITY" readPriority file.layout.priority c.layout.priority
  interval : env.Settles "FLOWMON_EXPORTER_INTERVAL_SECS" readInterval file.exporter.interval
    c.exporter.interval
  address :
    env.Settles "FLOWMON_EXPORTER_LISTEN_ADDR" some file.exporter.address c.exporter.address
  port : env.Settles "FLOWMON_EXPORTER_PORT" readPort file.exporter.port c.exporter.port
  endpoint : env.Settles "FLOWMON_EXPORTER_ENDPOINT" some file.exporter.endpoint c.exporter.endpoint
  counters : c.counters = file.counters

/-- There is exactly one such configuration. -/
theorem overridden_iff_eq {env : Environment} {file c : Config} :
    Overridden env file c ↔ c = (file.overriddenBy env).value := by
  obtain ⟨⟨_, _⟩, ⟨_, _, _, _, _⟩, ⟨_, _, _, _⟩, _⟩ := c
  simp only [overridden_iff, Environment.settles_iff, overriddenBy, Environment.general,
    Environment.layout, Environment.exporter, Logged.value_bind, Logged.value_pure,
    Environment.value_override, Environment.overrideText_eq, mk.injEq, General.mk.injEq,
    Layout.mk.injEq, Exporter.mk.injEq, and_assoc]
  rfl

/-! ## Loading -/

section Steps
variable {α β : Type} {m : Loading α} {f : α → Loading β} {b : β}

/-- A step is taken only if those before it have succeeded. -/
theorem bind_eq_ok_iff : (m >>= f).run.value = .ok b ↔
    ∃ a, m.run.value = .ok a ∧ (f a).run.value = .ok b := by
  rw [ExceptT.run_bind, Logged.value_bind]
  cases m.run.value with
  | error e => simp
  | ok a => simp

end Steps

theorem check_eq_ok_iff {c : Config} :
    c.check.run.value = .ok () ↔ c.validate.value = .ok () := by
  have h : c.check.run.value = c.validate.value.mapError LoadError.invalid := rfl
  rw [h]
  cases c.validate.value <;> simp [Except.mapError]

variable {path : String} {content : FileContent} {env : Environment} {file c : Config}

theorem ofFile_eq_ok_iff : (ofFile path content).run.value = .ok c ↔
    ∃ text, decode path content = .ok text ∧ parse text = .ok c ∧ c.validate.value = .ok () := by
  have hparse : (ExceptT.mk (pure (decode path content >>= parse)) : Loading Config).run.value =
      decode path content >>= parse := rfl
  simp only [ofFile, bind_eq_ok_iff, hparse, Wire.bind_eq_ok_iff]
  constructor
  · rintro ⟨file, ⟨text, htext, hfile⟩, ⟨⟩, hcheck, hc⟩
    cases hc
    exact ⟨text, htext, hfile, check_eq_ok_iff.1 hcheck⟩
  · rintro ⟨text, htext, hfile, hvalid⟩
    exact ⟨c, ⟨text, htext, hfile⟩, (), check_eq_ok_iff.2 hvalid, rfl⟩

/-- Loading gives a configuration exactly if there is a text in the file that says one, which passes
the checks, and so does what the variables make of it. That is then what it gives. -/
theorem load_eq_ok_iff : (load path content env).run.value = .ok c ↔
    ∃ text file, decode path content = .ok text ∧ parse text = .ok file ∧
      file.validate.value = .ok () ∧ Overridden env file c ∧ c.validate.value = .ok () := by
  have hlift (file : Config) : (ExceptT.lift (file.overriddenBy env) : Loading Config).run.value =
      .ok (file.overriddenBy env).value := rfl
  simp only [load, bind_eq_ok_iff, ofFile_eq_ok_iff, hlift, overridden_iff_eq]
  constructor
  · rintro ⟨file, ⟨text, htext, hfile, hvalid⟩, settled, hsettled, ⟨⟩, hcheck, hc⟩
    cases hsettled
    cases hc
    exact ⟨text, file, htext, hfile, hvalid, rfl, check_eq_ok_iff.1 hcheck⟩
  · rintro ⟨text, file, htext, hfile, hvalid, rfl, hcheck⟩
    exact ⟨file, ⟨text, htext, hfile, hvalid⟩, _, rfl, (), check_eq_ok_iff.2 hcheck, rfl⟩

/-- Never reads counters. -/
def idleText : String := "[exporter]\ninterval_secs = 0\n"

/-- Reads them every five seconds. -/
def everyFive : Environment := [("FLOWMON_EXPORTER_INTERVAL_SECS", Bytes.ofString "5")]

/-- The variable gives the setting a value that fits, but the file is refused before. -/
theorem idle_refused : ∃ file c, parse idleText = .ok file ∧ Overridden everyFive file c ∧
    c.exporter.interval = 5 ∧ c.validate.value = .ok () ∧
    (load defaultPath (.ok (Bytes.ofString idleText)) everyFive).run.value =
      .error (.invalid .zeroInterval) := by
  refine ⟨{ exporter := { interval := 0 } }, { exporter := { interval := 5 } }, ?_,
    overridden_iff_eq.2 ?_, rfl, ?_, ?_⟩ <;> decide +kernel

end Config

end FlowTally
