import Switchboard.Delivery.House
import Switchboard.Delivery.Run
import Switchboard.Handler.Functions
import Switchboard.Handler.Group
import Switchboard.Handler.Router
import Switchboard.Proofs.Body.Agreement
import Switchboard.Proofs.Connection.Collecting
import Switchboard.Proofs.Delivery.Calls
import Switchboard.Proofs.Handler.Awaited
import Switchboard.Proofs.Handler.Hearing
import Switchboard.Proofs.Handler.Isolation
import Switchboard.Proofs.Handler.Logging
import Switchboard.Proofs.Handler.Nests
import Switchboard.Proofs.Handler.Stranded
import Switchboard.Proofs.Handler.Trees
import Switchboard.Proofs.Handler.Unwinding
import Switchboard.Proofs.Http.RequestLine
import Switchboard.Proofs.Race.Account
import Switchboard.Proofs.Race.Refusal
import Switchboard.Proofs.Routing.Evaluation
import Switchboard.Proofs.Routing.HeaderFilters
import Switchboard.Proofs.Routing.Prefixes
import Switchboard.Proofs.Segment.Consistency
import Switchboard.Proofs.Segment.Failing
import Switchboard.Proofs.Segment.Renewal
import Switchboard.Proofs.Segment.Serving
import Switchboard.Proofs.Segment.Waking
import Switchboard.Race.Board
import Switchboard.Segment.Distribution
import Switchboard.Segment.Leftmost
