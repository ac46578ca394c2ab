import Bourse.Depth.Market

/-!
# The registry of market depths

`DepthRegistry` holds the market depth of each instrument. It is made on first use, with the number
of trades to keep that the registry was set up with (`DepthRegistry.getOrCreate`).
-/

namespace Bourse

/-- The market depths by instrument. -/
structure DepthRegistry where
  /-- How many of the latest trades each depth keeps. -/
  history : Nat
  depths : List MarketDepth

namespace DepthRegistry

/-- A registry without depths. -/
def empty (history : Nat) : DepthRegistry := ⟨history, []⟩

/-- The depth of an instrument, if it has been used. -/
def get? (r : DepthRegistry) (i : InstrumentId) : Option MarketDepth :=
  r.depths.find? fun d => d.instrument = i

/-- Puts a depth in the place of the one of its instrument. -/
def put (r : DepthRegistry) (d : MarketDepth) : DepthRegistry :=
  if (r.get? d.instrument).isSome then
    { r with depths := r.depths.map fun e => if e.instrument = d.instrument then d else e }
  else
    { r with depths := r.depths ++ [d] }

/-- The depth of an instrument, made if there is none. -/
def getOrCreate (r : DepthRegistry) (i : InstrumentId) : MarketDepth × DepthRegistry :=
  match r.get? i with
  | some d => (d, r)
  | none =>
    let d := MarketDepth.empty i r.history
    (d, r.put d)

/-- Runs an action on the depth of an instrument, made if there is none. -/
def onDepth (i : InstrumentId) (act : Action MarketDepth α) : Action DepthRegistry α :=
  act.within (fun r => (r.getOrCreate i).1) (fun d r => r.put d)

end DepthRegistry

end Bourse
