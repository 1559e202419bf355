import MinesApp.MlsSnapshotStore
import MinesApp.CommitCatchUp
import MinesApp.HistoryReconciliation
import MinesApp.RefreshRotation
import MinesApp.PendingPull
import MinesApp.CommunityGovernance
import MinesApp.CommunityAdmission
import MinesApp.OutboxDurability
import MinesApp.OutboxCancellation
import MinesApp.OutboxWakeup
import MinesApp.SalonDeparture
import MinesApp.CatchUpGate
import MinesApp.ClientSwap
import MinesApp.RosterRotation
import MinesApp.HistoryFloors
import MinesApp.MessageDeletion
import MinesApp.MessageEdits
import MinesApp.ReactionConvergence
import MinesApp.DroppedGroup
import MinesApp.ExternalJoin
import MinesApp.SchedulerOrder
import MinesApp.DeliveryAdmission
import MinesApp.ArchiveCursor
import MinesApp.BundleJoin
import MinesApp.GroupResidue
import MinesApp.BucketOrder
import MinesApp.CotisationTags
import MinesApp.MessageOrder
import MinesApp.CallRooms
import MinesApp.HistoryKeyCache
import MinesApp.GatewayRegistry
import MinesApp.GatewayPresence
import MinesApp.CheckpointFlush
import MinesApp.HistoryAsks
import MinesApp.PinRegister
