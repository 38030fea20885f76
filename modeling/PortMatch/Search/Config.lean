import PortMatch.Text.Detail

/-!
# Search settings

What a caller can set about a search: the number of rounds after which it gives up.
-/

namespace PortMatch

open Text

/-- The settings of a search. -/
structure Config where
  /-- The number of pins that the search may make before it gives up. -/
  maxRounds : UInt64 := 10000
  deriving DecidableEq

namespace Config

/-- The settings with another number of rounds. -/
def withMaxRounds (c : Config) (maxRounds : UInt64) : Config := { c with maxRounds }

/-- The number of pins that the search may make. -/
def budget (c : Config) : Nat := c.maxRounds.toNat

/-- The detailed form of the settings. -/
def detail (c : Config) : String :=
  Detail.record "SolverConfig" [("max_rounds", toString c.budget)]

end Config

end PortMatch
