import Amity.Command
import Amity.Url
import Amity.Database
import Amity.Session
import Amity.Presence
import Amity.Engine.System
import Amity.Gateway.Sockets
import Amity.Settings.Usage
import Amity.Main
import Amity.Proofs.Records
import Amity.Proofs.Graph.Simulation
import Amity.Proofs.System.OwnName
import Amity.Proofs.System.Convergence
import Amity.Proofs.System.Renaming
import Amity.Proofs.System.Overtaking
import Amity.Proofs.System.Meeting
import Amity.Proofs.System.Strangers
import Amity.Proofs.System.Deletion
import Amity.Proofs.System.Befriending
import Amity.Proofs.System.Showing
import Amity.Proofs.Engine.Failures
import Amity.Proofs.Database.Transactions
import Amity.Proofs.System.Bystanders
import Amity.Proofs.Gateway.Snapshots
import Amity.Proofs.Presence.Calls
import Amity.Proofs.System.Statuses
import Amity.Proofs.System.Resting
import Amity.Proofs.System.Following
import Amity.Proofs.Wire
import Amity.Proofs.Gateway.Pages
import Amity.Proofs.Json.Forms
import Amity.Proofs.Storage
import Amity.Proofs.Presence.Holdings
import Amity.Proofs.Presence.Outboxes
import Amity.Proofs.Presence.Unregistering
import Amity.Proofs.System.Draining
import Amity.Proofs.System.Leaving
import Amity.Proofs.Database.Reversal
