import SharedWorld.Client.Basic
import SharedWorld.Server.Basic
import SharedWorld.Proofs.Ledger
import SharedWorld.Proofs.Mirror
import SharedWorld.Proofs.Replies
import SharedWorld.Proofs.Resolutions
import SharedWorld.Proofs.SessionEvents
import SharedWorld.Proofs.Listeners
import SharedWorld.Proofs.Wakeups
import SharedWorld.Proofs.Ticks
import SharedWorld.Proofs.Scenes
import SharedWorld.Proofs.Occupancies
import SharedWorld.Proofs.Provenance
import SharedWorld.Proofs.Arrivals
import SharedWorld.Proofs.Endings
import SharedWorld.Proofs.Evictions
import SharedWorld.Proofs.Followers
import SharedWorld.Proofs.Transparency
import SharedWorld.Proofs.Verdicts
import SharedWorld.Proofs.Logs
import SharedWorld.Proofs.Turns
import SharedWorld.Proofs.Responses
import SharedWorld.Proofs.Tenures
import SharedWorld.Proofs.AnyOrder
import SharedWorld.Proofs.Memberships
import SharedWorld.Proofs.Subscriptions
import SharedWorld.Proofs.Rounds
import SharedWorld.Proofs.Recoveries
import SharedWorld.Proofs.Routes
import SharedWorld.Proofs.Destinations
