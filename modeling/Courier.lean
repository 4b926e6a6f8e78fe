import Courier.Main
import Courier.Queue.Receivers
import Courier.Retry.Execution
import Courier.Proofs.Retry.Classifier
import Courier.Proofs.Retry.Execution
import Courier.Proofs.Delivery.Flight
import Courier.Proofs.Queue.Broker
import Courier.Proofs.Relay.Draining
import Courier.Proofs.Base64
import Courier.Proofs.Decimal.Digits
import Courier.Proofs.Moment
import Courier.Proofs.Json.Canonical
import Courier.Proofs.Json.Codec
import Courier.Proofs.OrderedMap
import Courier.Proofs.Record.RoundTrip
import Courier.Proofs.Pattern.Closing
import Courier.Proofs.Pattern.Readers
import Courier.Proofs.Pattern.Classes
import Courier.Proofs.Pattern.Branches
import Courier.Proofs.Pattern.Anchoring
import Courier.Proofs.Settings.SuccessPattern
import Courier.Proofs.Queue.History
import Courier.Proofs.Queue.Turns
import Courier.Proofs.Pattern.Matching
import Courier.Proofs.Pattern.Repetitions
import Courier.Proofs.Retry.WholeStatus
import Courier.Proofs.Delivery.Ids
import Courier.Proofs.Delivery.Landing
import Courier.Proofs.Delivery.Alone
import Courier.Proofs.Delivery.Schedule
import Courier.Proofs.Delivery.Timeline
import Courier.Proofs.Delivery.Put
import Courier.Delivery.Schedule
import Courier.Proofs.Relay.Conservation
import Courier.Proofs.Runner.Batching
import Courier.Proofs.Runner.Lines
import Courier.Proofs.Double.Rounding
import Courier.Proofs.Double.Whole
import Courier.Proofs.Retry.Backoff
import Courier.Proofs.Double.Order
import Courier.Proofs.Double.Words
import Courier.Proofs.Retry.Jitter
import Courier.Proofs.Delivery.Building
import Courier.Proofs.Wire.OwnHeaders
import Courier.Proofs.Http.Drafting
import Courier.Proofs.Record.Acceptance
import Courier.Proofs.Record.NormalForm
import Courier.Proofs.Http.Reordering
import Courier.Proofs.Record.Observations
import Courier.Proofs.Delivery.Identified
import Courier.Proofs.Relay.Acknowledging
import Courier.Proofs.Retry.Questions
import Courier.Proofs.Settings.Overrides
import Courier.Proofs.Settings.Usability
import Courier.Proofs.Http.Flattening
import Courier.Proofs.Http.Rendering
import Courier.Proofs.Json.Numerals
import Courier.Proofs.Json.Scanning
import Courier.Proofs.Json.Parsing
import Courier.Proofs.Json.Readable
import Courier.Proofs.Record.Outbound
import Courier.Proofs.Relay.Framing
