import PttaiCore.Theorems.Consistency
import PttaiCore.Theorems.Crash
import PttaiCore.Theorems.Serialisation
import PttaiCore.Theorems.Secrecy
import PttaiCore.Theorems.Relay
import PttaiCore.Theorems.Times
import PttaiCore.Theorems.Repair
import PttaiCore.Theorems.IndexStore
import PttaiCore.Theorems.RoundTrip
import PttaiCore.Theorems.RaftRestart
import PttaiCore.Theorems.NodeRestart
import PttaiCore.Theorems.LockMaps
import PttaiCore.Theorems.OpKeyCache
import PttaiCore.Theorems.PeerSet
import PttaiCore.Theorems.PendingWinner
import PttaiCore.Theorems.PersonConvergence
import PttaiCore.Theorems.PersonFinal
import PttaiCore.Theorems.Quorum
import PttaiCore.Theorems.SignInfos
import PttaiCore.Theorems.EntityEnd
import PttaiCore.Theorems.UserNodes
import PttaiCore.Theorems.FriendList
import PttaiCore.Theorems.OpKeyIntegrity
import PttaiCore.Theorems.SyncedUpdates
import PttaiCore.Theorems.AckNodes
import PttaiCore.Theorems.MerkleMerge
import PttaiCore.Theorems.RaftEntries
import PttaiCore.Theorems.Admission
import PttaiCore.Theorems.BlockAcks
import PttaiCore.Theorems.BlockMessages
import PttaiCore.Theorems.ContentRoundTrip
import PttaiCore.Theorems.PutFaults
import PttaiCore.Theorems.BitVector
import PttaiCore.Theorems.TimeBuckets
import PttaiCore.Theorems.PeerLimits
import PttaiCore.Theorems.ForceSync
import PttaiCore.Theorems.IDSessions
import PttaiCore.Theorems.Reconstruct
import PttaiCore.Theorems.Messages
import PttaiCore.Theorems.Chan
