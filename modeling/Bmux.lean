import Bmux.L2Control.Outcomes
import Bmux.L2Control.Fencing
import Bmux.L2Control.Revisions
import Bmux.L2Control.Lifecycle
import Bmux.L2Control.ConsensusStorage
import Bmux.L1Encoding.SchemaEvolution
import Bmux.L1Encoding.BoundedDecode
import Bmux.L3Transport.StreamPair
import Bmux.L4Terminal.LogicalLines
import Bmux.L4Terminal.Delta
import Bmux.L4Terminal.ProtocolTracker
import Bmux.L4Terminal.HistoryTransfer
import Bmux.L5Interface.EditHistory
import Bmux.L5Runtime.InputReceipts
import Bmux.L5Runtime.LaunchPhases
import Bmux.L2Config.Provenance
import Bmux.L5Runtime.StateChannel
import Bmux.L4Terminal.ImageDelta
import Bmux.L5Runtime.HumanEpochs
import Bmux.L5Runtime.NodeBudget
import Bmux.L5Runtime.EscapeTracker
import Bmux.L5Runtime.LivePresentation
import Bmux.L5Runtime.SafeResume
import Bmux.L5Runtime.DurableCapture
import Bmux.L2Control.WorkerFence
import Bmux.L5Interface.Substitution
import Bmux.L5Interface.DamageRegions
import Bmux.L5Interface.Layout
import Bmux.L2Control.MembershipCommands
