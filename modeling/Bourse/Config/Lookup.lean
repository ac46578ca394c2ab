import Bourse.Config.Basic
import Bourse.Text.Count

/-!
# Settings from variables

`ExchangeConfig.ofLookup` reads the settings from named variables: the preset first, then what
overrides it, and in the end the whole is validated. The first variable that cannot be read decides
the error.
-/

namespace Bourse

/-- The names of the variables that hold settings. -/
inductive Variable where
  | environment
  | recentTrades
  | depthHistory
  | log
deriving DecidableEq

/-- The name of a variable. -/
def Variable.key : Variable → String
  | environment => "EXCHANGE_ENV"
  | recentTrades => "EXCHANGE_RECENT_TRADES"
  | depthHistory => "EXCHANGE_DEPTH_HISTORY"
  | log => "EXCHANGE_LOG"

/-- The count that a variable holds; blanks around it do not matter. -/
def Variable.count (v : Variable) (value : String) : Except ConfigError UInt64 :=
  match Text.readCount? (Text.trimBlank value) with
  | some n => .ok n
  | none => .error (.invalidValue v.key value)

namespace ExchangeConfig

/-- The count that overrides a setting, or the setting. -/
def countOr (lookup : String → Option String) (v : Variable) (preset : UInt64) :
    Except ConfigError UInt64 :=
  match lookup v.key with
  | some value => v.count value
  | none => .ok preset

/-- The settings that the variables hold. Without a preset it is that of development. -/
def ofLookup (lookup : String → Option String) : Except ConfigError ExchangeConfig := do
  let environment ←
    match lookup Variable.environment.key with
    | some value => Environment.ofText value
    | none => .ok .development
  let preset := environment.config
  let recentTradeCount ← countOr lookup .recentTrades preset.engine.recentTradeCount
  let depthTradeHistory ← countOr lookup .depthHistory preset.depthTradeHistory
  let config : ExchangeConfig :=
    { engine := { preset.engine with recentTradeCount }
      depthTradeHistory
      logFilter := (lookup Variable.log.key).getD preset.logFilter }
  config.validate
  return config

end ExchangeConfig

end Bourse
