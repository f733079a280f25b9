import Solvency.Command.Tree
import Solvency.Main
import Solvency.Proofs.Checked
import Solvency.Proofs.Schedule.FaceValue
import Solvency.Proofs.Verdict.Rules
import Solvency.Proofs.Text.Lowercase
import Solvency.Proofs.Verdict.FaceSolvency
import Solvency.Proofs.Market.Loaded
import Solvency.Proofs.Market.Units
import Solvency.Proofs.Amount.RoundTrip
import Solvency.Proofs.Sheet.Encoded
import Solvency.Proofs.Sheet.RoundTrip
import Solvency.Proofs.Text.Numeral
import Solvency.Proofs.Layout.Columns
import Solvency.Proofs.Audit.RoundTrip
import Solvency.Proofs.Draws
import Solvency.Proofs.Verdict.Standing
import Solvency.Proofs.Account.Drawn
import Solvency.Proofs.Account.Judged
import Solvency.Proofs.Shard.Drawn
import Solvency.Proofs.Audit.Drawn
import Solvency.Proofs.Schedule.Order
import Solvency.Proofs.Verdict.Policy
import Solvency.Proofs.Verdict.Rearranged
import Solvency.Proofs.Verdict.Improved
import Solvency.Proofs.Amount.Plain
import Solvency.Proofs.Market.Rescaled
import Solvency.Proofs.Verdict.Rescaled
import Solvency.Proofs.Audit.Rescaled
import Solvency.Proofs.Audit.Appended
import Solvency.Proofs.Audit.Unread
import Solvency.Proofs.Account.Outcome
import Solvency.Proofs.Shard.Complete
import Solvency.Proofs.Shard.Renumbered
import Solvency.Proofs.Shard.Numbers
import Solvency.Proofs.Verdict.Ruling
import Solvency.Proofs.Audit.Numbers
import Solvency.Proofs.Account.Owed
import Solvency.Proofs.Account.Overcommitted
import Solvency.Proofs.Schedule.Growth
import Solvency.Proofs.Schedule.Closed
import Solvency.Proofs.Text.Split
import Solvency.Proofs.Decimal.Whole
import Solvency.Proofs.Decimal.Value
import Solvency.Proofs.Schedule.Entry
import Solvency.Proofs.Schedule.Written
import Solvency.Proofs.Decimal.Reading
import Solvency.Proofs.Decimal.Denoted
import Solvency.Proofs.Amount.Truncated
import Solvency.Proofs.Decimal.Numeral
import Solvency.Proofs.Amount.Numeral
import Solvency.Proofs.Amount.Canonical
import Solvency.Proofs.Layout.Exact
import Solvency.Proofs.Schedule.Bounded
import Solvency.Proofs.Market.Bounded
import Solvency.Proofs.Sheet.Rows
import Solvency.Proofs.Market.Record
import Solvency.Proofs.Market.Reordered
import Solvency.Proofs.Market.Offence
import Solvency.Proofs.Decimal.Rounded
import Solvency.Proofs.Schedule.Refined
import Solvency.Proofs.Schedule.Wording
import Solvency.Proofs.Schedule.Tiled
import Solvency.Proofs.Ratio.Adjoint
import Solvency.Proofs.Market.Offered
import Solvency.Proofs.Pledge.Shares
import Solvency.Proofs.Audit.Indexed
