import EventPayload.Catalog
import EventPayload.CommandLine.Run
import EventPayload.Main
import EventPayload.Proofs.ByteOrder
import EventPayload.Proofs.Register
import EventPayload.Proofs.Soundness
import EventPayload.Proofs.Writes
import EventPayload.Proofs.Payload
import EventPayload.Proofs.Shapes
import EventPayload.Proofs.KeyOrder
import EventPayload.Proofs.Reordering
import EventPayload.Proofs.Paths
import EventPayload.Proofs.Finishing
import EventPayload.Proofs.Sources
import EventPayload.Proofs.Profile
import EventPayload.Proofs.Identity
import EventPayload.Proofs.Footprint
import EventPayload.Proofs.LookUps
import EventPayload.Proofs.Failures
import EventPayload.Proofs.Forwarding
import EventPayload.Proofs.EventOrder
import EventPayload.Proofs.IntegerRange
import EventPayload.Proofs.Coherence
import EventPayload.Proofs.RoundTrip
import EventPayload.Proofs.WholeParts
import EventPayload.Proofs.Dates
import EventPayload.Proofs.Elements
import EventPayload.Proofs.Isolation
import EventPayload.Proofs.PayloadOrder
import EventPayload.Proofs.DeclarationOrder
import EventPayload.Proofs.Resolution
import EventPayload.Proofs.Stages
import EventPayload.Proofs.LastWrites
import EventPayload.Proofs.Hoisting
import EventPayload.Proofs.DisplayNames
import EventPayload.Proofs.Outcomes
