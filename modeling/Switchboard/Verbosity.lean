/-!
# Verbosity

The level of logging that a number of requests for more of it leads to.
-/

namespace Switchboard

/-- The level for a count of verbosity flags: each raises it, up to the most detailed. -/
def verbosityLevel : Nat → String
  | 0 => "warn"
  | 1 => "info"
  | 2 => "debug"
  | _ + 3 => "trace"

end Switchboard
