import ReplyTree.Decimal
import ReplyTree.Fault
import ReplyTree.Indentation
import ReplyTree.Issue
import ReplyTree.Layout
import ReplyTree.Layout.Acceptance
import ReplyTree.Listing
import ReplyTree.Numeral
import ReplyTree.Outcome
import ReplyTree.Position
import ReplyTree.Position.Acceptance
import ReplyTree.Position.Reading
import ReplyTree.Position.Written
import ReplyTree.Sorting
import ReplyTree.Text
import ReplyTree.Value
import ReplyTree.Value.Access
import ReplyTree.Value.Order
import ReplyTree.Value.Printed
import ReplyTree.Value.Relations
import ReplyTree.Proofs.Texts
import ReplyTree.Proofs.Ancestry
import ReplyTree.Proofs.Precedence
import ReplyTree.Proofs.RoundTrip
import ReplyTree.Proofs.Traversal
import ReplyTree.Proofs.Lines
import ReplyTree.Proofs.Nesting
import ReplyTree.Proofs.Issuing
import ReplyTree.Proofs.Store
import ReplyTree.Proofs.Growth
import ReplyTree.Proofs.Identity
import ReplyTree.Proofs.TextOrder
import ReplyTree.Proofs.Ranges
import ReplyTree.Proofs.Interchange
import ReplyTree.Proofs.Admission
import ReplyTree.Proofs.Descent
import ReplyTree.Proofs.Levels
import ReplyTree.Proofs.StableSorting
import ReplyTree.Proofs.Comparing
import ReplyTree.Proofs.Batches
import ReplyTree.Proofs.Rearranging
import ReplyTree.Proofs.Siblings
import ReplyTree.Proofs.Forest
import ReplyTree.Proofs.Columns
import ReplyTree.Proofs.Stopping
import ReplyTree.Proofs.Building
import ReplyTree.Proofs.Ceilings
import ReplyTree.Proofs.Settings
import ReplyTree.Proofs.Fields
import ReplyTree.Proofs.Records
