import Soros.AccessManager.Exclusion
import Soros.AccessManager.Fairness
import Soros.AccessManager.Holders
import Soros.AccessManager.Waiting
import Soros.AccessManager.Independence
import Soros.AccessManager.Batches
import Soros.AccessManager.Failures
import Soros.AccessManager.Outstanding
import Soros.RegistryServer.Clients
import Soros.RegistryServer.Mirror
import Soros.RegistryServer.Refused
import Soros.RegistryServer.Tokens
import Soros.RegistryServer.Delivery
import Soros.RegistryServer.Framing
import Soros.RegistryServer.Tracking
import Soros.RegistryServer.Bind
import Soros.RegistryServer.Formats
import Soros.RegistryServer.Addresses
import Soros.P2PServer.Settling
import Soros.P2PServer.Panics
import Soros.P2PServer.Runs
import Soros.ProtocolClient.Framing
import Soros.ProtocolClient.Termination
import Soros.ProtocolClient.PeerRead
import Soros.ProtocolClient.Stream
import Soros.Session.Exclusion
import Soros.Session.Fidelity
import Soros.Session.Atomicity
import Soros.Peers.Coherence
import Soros.Exchange.OwnGrant
import Soros.Cluster.Delivery
import Soros.Cluster.Copies
