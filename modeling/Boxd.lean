import Boxd.Bpos.Candidates
import Boxd.Locator
import Boxd.Proofs.ContractOutputs
import Boxd.Proofs.GasAccounts
import Boxd.Proofs.LockTime
import Boxd.Proofs.LogSearch
import Boxd.Proofs.OrphanOffers
import Boxd.Proofs.PackingGraph
import Boxd.Proofs.PayToScriptHash
import Boxd.Proofs.PoolPanics
import Boxd.Proofs.Reconnect
import Boxd.Proofs.Reopening
import Boxd.Proofs.ScriptWorkers
import Boxd.Proofs.SealedResults
import Boxd.Proofs.SplitShares
import Boxd.Proofs.SyncGuarantees
import Boxd.Proofs.SyncServer
import Boxd.Proofs.TransferPages
import Boxd.Proofs.TrieMap
import Boxd.Proofs.TxsRoot
import Boxd.Proofs.WalletFees
