import TypedLua.Editor
import TypedLua.Files.Folder
import TypedLua.Main
import TypedLua.Proofs.Parsing.RoundTrip
import TypedLua.Proofs.Scoping.Refinement
import TypedLua.Syntax.Outline.Reader
import TypedLua.Proofs.Types.Meaning
import TypedLua.Proofs.Checking.Idempotence
import TypedLua.Proofs.Checking.Hygiene
import TypedLua.Proofs.Compilation.Outcomes
import TypedLua.Proofs.Passes.Reuse
import TypedLua.Proofs.Parsing.TypePosition
import TypedLua.Proofs.Checking.Entry
import TypedLua.Proofs.Library.Selection
import TypedLua.Proofs.Tables.Next
import TypedLua.Proofs.Types.Constraints
import TypedLua.Proofs.Library.Quotation
import TypedLua.Proofs.Tables.Shifting
import TypedLua.Proofs.Tables.Sorting
import TypedLua.Proofs.Tables.Chain
import TypedLua.Proofs.Reading.LongBrackets
import TypedLua.Proofs.Compilation.QuotedLines
import TypedLua.Proofs.Library.Remainders
import TypedLua.Proofs.Target.Constants
import TypedLua.Proofs.Runtime.Counting
import TypedLua.Proofs.Parsing.Progress
import TypedLua.Proofs.Library.WrittenNumbers
