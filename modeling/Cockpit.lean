import Cockpit.Main
import Cockpit.Session.Program
import Cockpit.Proofs.Blocks.Runs
import Cockpit.Proofs.Blocks.Trimming
import Cockpit.Proofs.Bridge.Answers
import Cockpit.Proofs.Wire.Faithful
import Cockpit.Proofs.Bridge.Ledger
import Cockpit.Proofs.Session.OneQuery
import Cockpit.Proofs.Builder.Inlining
import Cockpit.Proofs.Builder.AllOrNothing
import Cockpit.Proofs.Json.Endings
import Cockpit.Proofs.Telemetry.Verdicts
import Cockpit.Proofs.Files.Extending
import Cockpit.Proofs.Settings.Offers
import Cockpit.Proofs.Settings.Taking
import Cockpit.Proofs.Files.Texts
import Cockpit.Proofs.Settings.Loading
import Cockpit.Proofs.Settings.Histories
import Cockpit.Proofs.Settings.ReadBack
import Cockpit.Proofs.Settings.Reapplying
import Cockpit.Proofs.Settings.Validating
import Cockpit.Proofs.Settings.Saving
import Cockpit.Proofs.Builder.Strictness
import Cockpit.Proofs.Session.Uploads
import Cockpit.Proofs.Builder.Delegation
import Cockpit.Proofs.Session.Submissions
import Cockpit.Proofs.Bridge.Consumed
import Cockpit.Proofs.Session.Hearing
import Cockpit.Proofs.Devices.Hangar
import Cockpit.Proofs.Devices.Catalogs
import Cockpit.Proofs.Session.Doings
import Cockpit.Proofs.Session.Counters
import Cockpit.Proofs.Session.Deliveries
import Cockpit.Proofs.Session.Stopping
import Cockpit.Proofs.Builder.Forgetting
import Cockpit.Proofs.Keypad.Entries
import Cockpit.Proofs.Keypad.Figures
import Cockpit.Proofs.Builder.Pressing
import Cockpit.Proofs.Builder.Entering
import Cockpit.Proofs.Devices.Reading
import Cockpit.Proofs.Telemetry.Fields
import Cockpit.Proofs.Settings.Creating
import Cockpit.Proofs.Builder.Pacing
