import Keylens.Connection.Gone
import Keylens.BullMq.Histogram
import Keylens.BullMq.JobPages
import Keylens.Events.GapFree
import Keylens.Ui.KeySet
import Keylens.Backend.TypeFilter
import Keylens.Tui.Fetching
import Keylens.Tui.JobList
import Keylens.Tui.JobPane
import Keylens.Tui.Scanning
import Keylens.Tui.Loading
import Keylens.Tui.Cursors
import Keylens.Tui.Blame
import Keylens.Library.Listing
import Keylens.Ui.RowListing
import Keylens.Ui.Counts
import Keylens.Tui.RowBound
import Keylens.Tui.Parent
import Keylens.Tui.Following
import Keylens.Tui.ScanFlag
import Keylens.Tui.Filter
import Keylens.Connection.Info
import Keylens.Backend.Info
import Keylens.Connection.Paging
import Keylens.Ui.Ways
import Keylens.Ui.Shown
import Keylens.Ui.StillOpen
import Keylens.Ui.ExpandAll
import Keylens.Tui.QueueTable
import Keylens.Connection.HitRate
import Keylens.Tui.BatchCursor
import Keylens.BullMq.Scores
import Keylens.Connection.Clipping
import Keylens.Events.Parsing
import Keylens.Library.Json
import Keylens.BullMq.Fields
import Keylens.BullMq.Traces
import Keylens.Tui.Search
import Keylens.BullMq.Detection
import Keylens.Connection.Stream
import Keylens.Tui.StreamPane
import Keylens.Tui.SentNumbers
import Keylens.Connection.Cluster
import Keylens.Library.Lines
import Keylens.Ui.SiblingOrder
import Keylens.Connection.Session
import Keylens.Connection.Conduct
import Keylens.Connection.Introspection
import Keylens.Connection.Unchanged
import Keylens.BullMq.Session
import Keylens.Library.Rest
import Keylens.Backend.Answered
import Keylens.Tui.AtRest
import Keylens.Tui.Attached
import Keylens.Tui.Pacing
import Keylens.Backend.Costs
import Keylens.Backend.Trips
import Keylens.Tui.Hosted
import Keylens.Tui.Listed
import Keylens.Tui.Truth
import Keylens.Connection.Connecting
import Keylens.Events.Retrying
