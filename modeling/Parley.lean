import Parley.Backend.Client
import Parley.Config
import Parley.Document
import Parley.Main
import Parley.Proofs.Backend.Outcome
import Parley.Proofs.Backend.Unwrapping
import Parley.Proofs.Backend.Verbatim
import Parley.Proofs.Document.Destination
import Parley.Proofs.Document.Escaping
import Parley.Proofs.Document.Lines
import Parley.Proofs.Document.Mention
import Parley.Proofs.Document.Pattern
import Parley.Proofs.Document.Reassembly
import Parley.Proofs.Document.Renumbering
import Parley.Proofs.Document.Sectioning
import Parley.Proofs.Frame.Identity
import Parley.Proofs.Frame.Routing
import Parley.Proofs.Http.Preference
import Parley.Proofs.Http.Reception
import Parley.Proofs.Relay.Apart
import Parley.Proofs.Relay.Delivery
import Parley.Proofs.Relay.Echo
import Parley.Proofs.Relay.Loss
import Parley.Proofs.Relay.Publishing
import Parley.Proofs.Relay.Revelation
import Parley.Proofs.Translation.AllOrNothing
import Parley.Proofs.Translation.Dropped
import Parley.Proofs.Translation.Maps
import Parley.Proofs.Translation.Provenance
import Parley.Proofs.Translation.ScheduledJob
import Parley.Proofs.Translation.Timetable
import Parley.Proofs.Translation.TurnedAway
import Parley.Proofs.Translation.WholeEntries
import Parley.Proofs.Translation.Wire
import Parley.Relay.Line
import Parley.Server
import Parley.Startup
import Parley.Translation.Schedule
import Parley.Translation.Status
