import ProtocolEnforcer.Fsm.Crash
import ProtocolEnforcer.Fsm.FailClosed
import ProtocolEnforcer.Fsm.FailedStarts
import ProtocolEnforcer.Fsm.FailedSteps
import ProtocolEnforcer.Fsm.Finished
import ProtocolEnforcer.Fsm.Gate
import ProtocolEnforcer.Fsm.HonestClient
import ProtocolEnforcer.Fsm.ManySessions
import ProtocolEnforcer.Fsm.NeverStuck
import ProtocolEnforcer.Fsm.Order
import ProtocolEnforcer.Fsm.Retries
import ProtocolEnforcer.Fsm.SignedOff
import ProtocolEnforcer.Fsm.StepBound
import ProtocolEnforcer.Fsm.StepIds
import ProtocolEnforcer.Fsm.Strikes
import ProtocolEnforcer.Fsm.Timeout
import ProtocolEnforcer.Gateway.AppendOnly
import ProtocolEnforcer.Gateway.ClientView
import ProtocolEnforcer.Gateway.Deliverable
import ProtocolEnforcer.Gateway.DestinationGates
import ProtocolEnforcer.Gateway.Isolation
import ProtocolEnforcer.Gateway.Linearized
import ProtocolEnforcer.Gateway.Preflight
import ProtocolEnforcer.Gateway.Processes
import ProtocolEnforcer.Gateway.ProfileInForce
import ProtocolEnforcer.Gateway.ProfileNames
import ProtocolEnforcer.Gateway.RacingStarts
import ProtocolEnforcer.Gateway.SessionIds
import ProtocolEnforcer.Gateway.SessionReport
import ProtocolEnforcer.Gateway.SignedMessages
import ProtocolEnforcer.Gateway.StoredArtifacts
import ProtocolEnforcer.Ledger.AnyByte
import ProtocolEnforcer.Ledger.CriteriaBuckets
import ProtocolEnforcer.Ledger.Leaves
import ProtocolEnforcer.Ledger.Merkle
import ProtocolEnforcer.Ledger.Metrics
import ProtocolEnforcer.Ledger.Peaks
import ProtocolEnforcer.Manifest.AllOrNothing
import ProtocolEnforcer.Manifest.AuthoringWarnings
import ProtocolEnforcer.Manifest.HookedVerbs
import ProtocolEnforcer.Manifest.LostUpdate
import ProtocolEnforcer.Manifest.Protected
import ProtocolEnforcer.Manifest.ProtectedTogether
import ProtocolEnforcer.Manifest.Scaffolds
import ProtocolEnforcer.Notary.Hex
import ProtocolEnforcer.Notary.Seal
