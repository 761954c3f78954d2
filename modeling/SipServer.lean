import SipServer.Proofs.LimiterOrder
import SipServer.Proofs.ChangelogReap
import SipServer.Proofs.CatchUpNoop
import SipServer.Proofs.HoldApplied
import SipServer.Proofs.BootstrapComplete
import SipServer.Proofs.LimiterReleased
import SipServer.Proofs.StoreAgrees
import SipServer.Proofs.DispatcherServes
import SipServer.Proofs.CallOverflow
import SipServer.Proofs.OutboxNode
import SipServer.Proofs.HeldAcks
import SipServer.Proofs.CriticalEvents
import SipServer.Proofs.CallMapsCut
import SipServer.Proofs.Unbacked
import SipServer.Proofs.ApplyGate
import SipServer.Proofs.NewestStatement
import SipServer.Proofs.HeldMeetings
import SipServer.Proofs.Ladder
import SipServer.Proofs.Refusals
import SipServer.Proofs.Reanchor
import SipServer.Proofs.IndexKey
import SipServer.Proofs.LatePrack
import SipServer.Proofs.SubLogs
import SipServer.Proofs.RefusedReplicas
import SipServer.Proofs.Handover
