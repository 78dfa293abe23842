import Formula.Main
import Formula.Proofs.Aggregate.Leaves
import Formula.Proofs.Arguments.Shapes
import Formula.Proofs.Arguments.Spread
import Formula.Proofs.CommandLine.Runs
import Formula.Proofs.Context.Chain
import Formula.Proofs.Context.LetterCase
import Formula.Proofs.Context.Refusal
import Formula.Proofs.Filter.Counting
import Formula.Proofs.Filter.Numbers
import Formula.Proofs.Filter.Rendering
import Formula.Proofs.Filter.Texts
import Formula.Proofs.Glob.Backtracking
import Formula.Proofs.Glob.Folding
import Formula.Proofs.Grammar.Offence
import Formula.Proofs.Json.Reading
import Formula.Proofs.Let.Idle
import Formula.Proofs.Let.Unneeded
import Formula.Proofs.Let.Usable
import Formula.Proofs.Memo.Kept
import Formula.Proofs.Memo.Transparent
import Formula.Proofs.Number.Leading
import Formula.Proofs.Purity.Criteria
import Formula.Proofs.Purity.Ending
import Formula.Proofs.Registry.Runs
import Formula.Proofs.Scanner.Walk
import Formula.Proofs.Termination.Criteria
import Formula.Proofs.Variables.Reading
