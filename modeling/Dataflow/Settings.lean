import Dataflow.Json.Reader
import Dataflow.Optimize

/-!
# Optimizer settings as JSON
-/

namespace Dataflow.OptimizeSettings

def ofJson? (j : Json) : Option OptimizeSettings := do
  let [rounds, nullCheckOnly] ← j.record? ["rounds", "null_check_only"] | none
  return {
    rounds := ← Json.fieldOr default.rounds Json.count? rounds
    nullCheckOnly := ← Json.fieldOr default.nullCheckOnly Json.bool? nullCheckOnly }

/-- Reads the settings from a JSON text. -/
def ofText (text : String) : Except FlowError OptimizeSettings :=
  match (Json.parse? text).bind ofJson? with
  | some c => .ok c
  | none => .error (.config "not an optimizer configuration")

end Dataflow.OptimizeSettings
