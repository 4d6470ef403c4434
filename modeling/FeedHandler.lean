import FeedHandler.Book.WellFormed
import FeedHandler.Book.Gaps
import FeedHandler.Venue.SnapshotMoment
import FeedHandler.Venue.Lossless
import FeedHandler.Python.Port
import FeedHandler.Handler.Orphans
import FeedHandler.Handler.Episodes
import FeedHandler.Handler.SoleSync
import FeedHandler.Handler.Disconnect
import FeedHandler.Python.Disconnect
import FeedHandler.Book.Unproven
import FeedHandler.Venue.Acceptance
import FeedHandler.Handler.Earned
import FeedHandler.Pacer.Rate
import FeedHandler.Pacer.Order
import FeedHandler.Handler.Decode
import FeedHandler.Publisher.Filter
import FeedHandler.Publisher.Protocol
import FeedHandler.Publisher.Hub
import FeedHandler.Publisher.Pipeline
import FeedHandler.Publisher.Delivery
import FeedHandler.Publisher.Sessions
import FeedHandler.Publisher.Mirror
import FeedHandler.Lib.Window
import FeedHandler.Lib.Ranking
import FeedHandler.Book.Counters
import FeedHandler.Book.Drops
import FeedHandler.Book.Window
import FeedHandler.Book.Divergence
import FeedHandler.Handler.Sweep
import FeedHandler.Universe.Selection
import FeedHandler.Universe.Port
import FeedHandler.Python.Shedding
import FeedHandler.Venue.Truncated
import FeedHandler.Handler.Locks
import FeedHandler.Handler.Streams
import FeedHandler.Handler.Recovery
import FeedHandler.Metrics.Page
import FeedHandler.Metrics.Port
import FeedHandler.Metrics.Runs
import FeedHandler.Python.Pacer
import FeedHandler.Python.Orphans
import FeedHandler.Python.Fuzz
import FeedHandler.Book.Sources
import FeedHandler.Handler.Liveness
import FeedHandler.Python.Pipeline
import FeedHandler.Python.Liveness
