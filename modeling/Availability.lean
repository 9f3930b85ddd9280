import Availability.Main
import Availability.Rehearsal.Batcher
import Availability.Rehearsal.Router
import Availability.Rehearsal.Worker
import Availability.Settings.FromJson
import Availability.Proofs.Results
import Availability.Proofs.Batcher.Run
import Availability.Proofs.Batcher.Safety
import Availability.Proofs.Batcher.Timing
import Availability.Proofs.Pipeline.Steps
import Availability.Proofs.Pipeline.Wiring
import Availability.Proofs.Pipeline.History
import Availability.Proofs.Pipeline.Line
import Availability.Proofs.Pipeline.Delivery
import Availability.Proofs.Pipeline.Ending
import Availability.Proofs.Pipeline.Closing
import Availability.Proofs.Pipeline.Shutdown
import Availability.Proofs.Pipeline.Draining
import Availability.Proofs.Credentials
import Availability.Proofs.Retry.Attempts
import Availability.Proofs.Retry.Waits
import Availability.Proofs.Lookup
import Availability.Proofs.Pipeline.Callers
import Availability.Proofs.Pipeline.Conservation
import Availability.Proofs.Pipeline.Order
import Availability.Proofs.Pipeline.Handover
import Availability.Proofs.Pipeline.Containment
import Availability.Proofs.Pipeline.Capacity
import Availability.Proofs.Pipeline.Isolation
import Availability.Proofs.Pipeline.Counters
import Availability.Proofs.Pipeline.Corroboration
import Availability.Proofs.Pipeline.Masking
import Availability.Proofs.Pipeline.Discretion
import Availability.Proofs.Pipeline.Rehearsal
import Availability.Proofs.Router.Run
import Availability.Proofs.Worker.Run
import Availability.Proofs.Worker.Timing
import Availability.Proofs.Url.Percent
import Availability.Proofs.Url.Path
import Availability.Proofs.Url.Address
import Availability.Proofs.Addressing
import Availability.Proofs.Text.Utf8
import Availability.Proofs.Json.Text
import Availability.Proofs.Number.Digits
import Availability.Proofs.Json.Number
import Availability.Proofs.Json.RoundTrip
import Availability.Proofs.Json.Grammar
import Availability.Proofs.Json.Strings
import Availability.Proofs.Json.Skipping
import Availability.Proofs.Outbound.Line
import Availability.Proofs.Outbound.Sink
import Availability.Proofs.Inbound.Stream
import Availability.Proofs.Inbound.Decoding
import Availability.Proofs.Inbound.Reading
import Availability.Proofs.Pipeline.Lookups
import Availability.Proofs.Settings.Reading
import Availability.Proofs.Settings.Form
import Availability.Proofs.Settings.Layers
import Availability.Proofs.Settings.Layering
import Availability.Proofs.Startup
import Availability.Proofs.Settings.Variables
import Availability.Proofs.Intake.Run
import Availability.Proofs.Batch
import Availability.Proofs.Json.Document
import Availability.Proofs.Json.Normal
import Availability.Proofs.Outbound.Refusal
import Availability.Proofs.Outbound.Rewriting
