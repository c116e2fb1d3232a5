import SortingOffice.Office
import SortingOffice.Stored
import SortingOffice.Proofs.Samples
import SortingOffice.Proofs.Text.Search
import SortingOffice.Proofs.Text.Places
import SortingOffice.Proofs.Text.Value
import SortingOffice.Proofs.Text.FirstLine
import SortingOffice.Proofs.Text.Words
import SortingOffice.Proofs.Text.Line
import SortingOffice.Proofs.Time.MinuteText
import SortingOffice.Proofs.Time.FullText
import SortingOffice.Proofs.Json.Scalars
import SortingOffice.Proofs.Json.RoundTrip
import SortingOffice.Proofs.Json.Records
import SortingOffice.Proofs.Json.Settings
import SortingOffice.Proofs.Header.RoundTrip
import SortingOffice.Proofs.Path.Grammar
import SortingOffice.Proofs.Path.Ancestry
import SortingOffice.Proofs.Path.Climb
import SortingOffice.Proofs.Folders.Holding
import SortingOffice.Proofs.Folders.Links
import SortingOffice.Proofs.Folders.Exchange
import SortingOffice.Proofs.Folders.Creating
import SortingOffice.Proofs.Folders.Moving
import SortingOffice.Proofs.Rule.Fits
import SortingOffice.Proofs.Rule.Draft
import SortingOffice.Proofs.Rule.OwnLine
import SortingOffice.Proofs.Rule.Repeated
import SortingOffice.Proofs.Rulebook.StableSort
import SortingOffice.Proofs.Mailbox.Run
import SortingOffice.Proofs.Mailbox.History
import SortingOffice.Proofs.Mailbox.Inbox
import SortingOffice.Proofs.Mailbox.Filing
import SortingOffice.Proofs.Mailbox.Exchange
import SortingOffice.Proofs.Mailbox.Routing
import SortingOffice.Proofs.Mailbox.Interleave
import SortingOffice.Proofs.Folders.Replay
import SortingOffice.Proofs.Mailbox.Replay
import SortingOffice.Proofs.Roster.Run
import SortingOffice.Proofs.Roster.Accounts
import SortingOffice.Proofs.Roster.Admission
import SortingOffice.Proofs.Office.Needs
import SortingOffice.Proofs.Office.Checks
import SortingOffice.Proofs.Office.Run
import SortingOffice.Proofs.Office.Invariant
import SortingOffice.Proofs.Office.Delivery
import SortingOffice.Proofs.Office.Atomic
import SortingOffice.Proofs.Office.Copies
import SortingOffice.Proofs.Office.Effect
import SortingOffice.Proofs.Office.Interrupted
import SortingOffice.Proofs.Office.Writes
import SortingOffice.Proofs.Office.Isolation
import SortingOffice.Proofs.Office.Traffic
import SortingOffice.Proofs.Office.NewRule
import SortingOffice.Proofs.Header.LineOrder
import SortingOffice.Proofs.Office.Redelivery
