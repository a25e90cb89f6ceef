import CheckedScript.Main
import CheckedScript.Proofs.Agreement.Types
import CheckedScript.Proofs.Session.Sequence
import CheckedScript.Proofs.Execution.Outcome
import CheckedScript.Proofs.Execution.Tandem
import CheckedScript.Proofs.Execution.Isolation
import CheckedScript.Proofs.Execution.Registers
import CheckedScript.Proofs.Session.Discipline
import CheckedScript.Proofs.Check.Signatures
import CheckedScript.Proofs.Execution.Recovery
import CheckedScript.Proofs.Session.Feeding
import CheckedScript.Proofs.Session.Places
import CheckedScript.Proofs.Repl.Lines
import CheckedScript.Proofs.Agreement.Nulls
import CheckedScript.Proofs.Parsing.Layout
import CheckedScript.Proofs.Parsing.Alike
import CheckedScript.Proofs.Execution.Limits
import CheckedScript.Proofs.Execution.Valve
import CheckedScript.Proofs.Execution.Depth
import CheckedScript.Proofs.Execution.Arithmetic
import CheckedScript.Proofs.Session.Messages
import CheckedScript.Proofs.Listing.Injective
import CheckedScript.Proofs.Store.History
import CheckedScript.Proofs.Store.Update
import CheckedScript.Proofs.Check.Contexts
import CheckedScript.Proofs.Check.HasType
import CheckedScript.Proofs.Agreement.Answers
import CheckedScript.Proofs.Value.Order
import CheckedScript.Proofs.Parsing.Quoting
import CheckedScript.Proofs.Parsing.Numerals
import CheckedScript.Proofs.Parsing.Shapes
import CheckedScript.Proofs.Check.BelowGlobal
import CheckedScript.Proofs.Session.Labels
import CheckedScript.Proofs.Parsing.Words
import CheckedScript.Proofs.Repl.Complete
import CheckedScript.Proofs.Value.Printing
import CheckedScript.Proofs.Check.Unknown
import CheckedScript.Proofs.Check.Surroundings
