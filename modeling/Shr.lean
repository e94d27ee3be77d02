import Shr.Transfer.Containment
import Shr.Transfer.Completion
import Shr.Transfer.Identity
import Shr.Transfer.Finality
import Shr.Transfer.Interference
import Shr.Transfer.ChunkOrder
import Shr.Transfer.Prefix
import Shr.Transfer.Agreement
import Shr.Transfer.Resumption
import Shr.Network.Framing
import Shr.Transfer.Retry
import Shr.Transfer.Progress
import Shr.Network.Authentication
import Shr.Messaging.StoredOnce
import Shr.Messaging.Delivery
import Shr.Library.Contracts
import Shr.Peers.Operations
import Shr.Peers.Addresses
import Shr.Peers.Updates
import Shr.Peers.Invariant
import Shr.Peers.Spelling
import Shr.Distinct
import Shr.Malformed
import Shr.Transfer.Exits
import Shr.Transfer.Slots
import Shr.Transfer.Acceptance
import Shr.Transfer.Acknowledged
import Shr.Transfer.ChunkOutcome
import Shr.Messaging.Inbox
import Shr.Library.Paging
import Shr.Messaging.Confirmation
import Shr.Messaging.Pages
import Shr.Messaging.CmdInbox
import Shr.Library.Requests
import Shr.Network.Lengths
import Shr.Library.Decimal
import Shr.Library.JsonText
import Shr.Atoi
import Shr.Config.Loading
import Shr.Config.Saving
import Shr.Ports
import Shr.Crypto
import Shr.Install
import Shr.Config.Overrides
import Shr.Library.Attempts
import Shr.Limits
import Shr.FreePort
import Shr.HexCoding
import Shr.Identifiers
import Shr.Library.LexicalPath
import Shr.Paths
import Shr.PathSafety
import Shr.Transfer.Partition
import Shr.Fleet.Letters
import Shr.Fleet.Records
import Shr.Fleet.Wire
import Shr.Transfer.Concurrent
import Shr.Lifetime
import Shr.Fleet.Post
import Shr.Transfer.Bounds
import Shr.Messaging.Convergence
import Shr.Transfer.Status
import Shr.Fleet.Presence
