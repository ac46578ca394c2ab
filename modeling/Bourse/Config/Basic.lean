import Bourse.Engine.Config
import Bourse.Text.Blank
import Bourse.Text.Quoted

/-!
# Settings of an exchange

`ExchangeConfig` collects the settings of one exchange process. They are valid when the engine can
take in an order, depth keeps a trade and the log filter says something; `ExchangeConfig.validate`
reports the first of these that fails.

An `Environment` is a named preset. It is read from its name or its short name, whatever the case
and the blanks around it (`Environment.ofText`).
-/

namespace Bourse

/-- The settings of an exchange process. -/
structure ExchangeConfig where
  engine : EngineConfig
  /-- The number of latest trades that each market depth keeps. -/
  depthTradeHistory : UInt64
  /-- Which events the journal shows. -/
  logFilter : String
deriving DecidableEq

/-- Settings that do not go. -/
inductive ConfigError where
  | invalidEngine (reason : String)
  | invalidDepth (reason : String)
  | invalidLogging (reason : String)
  /-- The value of a setting does not spell a count. -/
  | invalidValue (key value : String)
  /-- There is no environment of this name. -/
  | unknownEnvironment (name : String)
deriving DecidableEq

/-- The error in words. -/
def ConfigError.text : ConfigError → String
  | invalidEngine reason => "Invalid engine config: " ++ reason
  | invalidDepth reason => "Invalid depth config: " ++ reason
  | invalidLogging reason => "Invalid logging config: " ++ reason
  | invalidValue key value => "Invalid value " ++ Text.quoted value ++ " for " ++ key
  | unknownEnvironment name => "Unknown environment " ++ Text.quoted name

namespace ExchangeConfig

/-- Ten trades of depth history, and events from info up. -/
def default : ExchangeConfig where
  engine := .default
  depthTradeHistory := 10
  logFilter := "info"

/-- Checks that an exchange can run with the settings. -/
def validate (c : ExchangeConfig) : Except ConfigError Unit :=
  if c.engine.submissionBuffer = 0 then
    .error (.invalidEngine "submission buffer must hold at least one order")
  else if c.depthTradeHistory = 0 then
    .error (.invalidDepth "depth must keep at least one trade")
  else if (Text.trimBlank c.logFilter).isEmpty then
    .error (.invalidLogging "log filter is empty")
  else
    .ok ()

end ExchangeConfig

/-- A named preset of settings. -/
inductive Environment where
  | development
  | test
  | production
deriving DecidableEq

namespace Environment

/-- The settings of the preset. -/
def config : Environment → ExchangeConfig
  | development => { ExchangeConfig.default with logFilter := "debug" }
  | test =>
    { engine := { EngineConfig.default with recentTradeCount := 5 }
      depthTradeHistory := 5
      logFilter := "warn" }
  | production => { ExchangeConfig.default with depthTradeHistory := 20 }

/-- The name of the preset. -/
def text : Environment → String
  | development => "Development"
  | test => "Test"
  | production => "Production"

/-- The preset of a name. Case counts for nothing in ASCII letters. -/
def ofText (s : String) : Except ConfigError Environment :=
  match String.ofList ((Text.trimChars s.toList).map Char.toLower) with
  | "development" | "dev" => .ok development
  | "test" => .ok test
  | "production" | "prod" => .ok production
  | _ => .error (.unknownEnvironment s)

end Environment

end Bourse
