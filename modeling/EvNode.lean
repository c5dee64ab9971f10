import EvNode.Properties.CatchUp
import EvNode.Properties.EpochRetry
import EvNode.Properties.CursorOrder
import EvNode.Properties.ForcedLoss
import EvNode.Properties.ExactlyOnce
import EvNode.Properties.BlockTimes
import EvNode.Properties.FalseAccusation
import EvNode.Properties.Censorship
import EvNode.Properties.Escape
import EvNode.Properties.PendingLimit
import EvNode.Properties.QueueRecovery
import EvNode.Properties.AckLoss
import EvNode.Properties.SyncedChain
import EvNode.Properties.Leak
import EvNode.Properties.Inclusion
import EvNode.Properties.Foreign
import EvNode.Properties.RaftAgreement
import EvNode.Properties.RaftTakeover
import EvNode.Properties.AsyncMetadata
import EvNode.Properties.Rollback
import EvNode.Properties.Pruning
import EvNode.Properties.LookupByHash
import EvNode.Properties.Cursors
import EvNode.Properties.Forkchoice
import EvNode.Properties.Restart
import EvNode.Properties.Bookkeeping
import EvNode.Properties.EpochTiling
import EvNode.Properties.Replay
import EvNode.Properties.PendingItems
import EvNode.Properties.Solo
