import Coire.ElectionReclaim
import Coire.LeasePublication
import Coire.ElectionSafety
import Coire.EngineAccounting
import Coire.ReservationReplay
import Coire.NodeBudget
import Coire.AdmissionReplay
import Coire.EvictionSafety
import Coire.CapacityBound
import Coire.ReadyPlacement
import Coire.FailedLaunch
import Coire.RunKill
import Coire.RunQueue
import Coire.RunSpend
import Coire.TrainingMetrics
import Coire.TrainingFences
import Coire.TrainingRelease
import Coire.AcquisitionCancel
import Coire.AcquisitionMemory
import Coire.MixtureReplay
import Coire.MixtureQuotas
import Coire.ReasoningChunks
import Coire.PrivatePath
import Coire.OptimizerTree
import Coire.ToolOutput
import Coire.NodeMaintenance
import Coire.ExecutorEffects
import Coire.ChatEvents
import Coire.ChatObserver
import Coire.HistoryAgreement
import Coire.PeerDamping
import Coire.MixtureEpoch
import Coire.TextCompletions
import Coire.DatasetSplits
import Coire.SandboxLedger
import Coire.ShardStops
import Coire.EventStream
