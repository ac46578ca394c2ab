/-!
# Engine settings

`EngineConfig` says how many recent trades each book replays at bootstrap and how many submissions
it takes in while it waits for its start.
-/

namespace Bourse

/-- The settings of the matching engine. -/
structure EngineConfig where
  /-- The number of trades that bootstrap replays for each instrument. -/
  recentTradeCount : UInt64
  /-- The number of submissions a book takes in before it has matched the first. -/
  submissionBuffer : UInt64
deriving DecidableEq

/-- Twenty trades, and one submission at a time. -/
def EngineConfig.default : EngineConfig where
  recentTradeCount := 20
  submissionBuffer := 1

end Bourse
