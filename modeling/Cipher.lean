import Cipher.EscrowDispute
import Cipher.ChannelUnlock
import Cipher.StakeAccounts
import Cipher.BrokerRefinement
import Cipher.BrokerAccounts
import Cipher.Integrity
import Cipher.PushBatches
import Cipher.Failover
import Cipher.ChunkDecoder
import Cipher.Servable
import Cipher.PutChunk
import Cipher.Download
import Cipher.HonestHolder
import Cipher.ContractMoney
import Cipher.ContractEpochs
import Cipher.ContractRounds
import Cipher.ChallengeBinding
import Cipher.VoucherExpiry
import Cipher.CoordinatorBridge
import Cipher.RequestLinearity
import Cipher.ProofOfWork
import Cipher.RoundExposure
import Cipher.BatchSettlement
import Cipher.ProtocolConfig
import Cipher.TicketIntake
import Cipher.SchedulerProgress
import Cipher.Announcements
