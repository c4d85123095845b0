import Elastos.Blockchain.BudgetProperties
import Elastos.Blockchain.ChainChoice
import Elastos.Blockchain.ChainConsistency
import Elastos.Blockchain.ChainReject
import Elastos.Blockchain.CoinbaseProperties
import Elastos.Blockchain.Difficulty
import Elastos.Blockchain.ElectionProperties
import Elastos.Blockchain.FeeProperties
import Elastos.Blockchain.IllegalBlockProperties
import Elastos.Blockchain.IndexProperties
import Elastos.Blockchain.ProposalProperties
import Elastos.Blockchain.RefundProperties
import Elastos.Blockchain.ReplayProperties
import Elastos.Blockchain.SignerProperties
import Elastos.Blockchain.TallyProperties
import Elastos.Manager.ConfirmProperties
import Elastos.Manager.FlagProperties
import Elastos.Manager.ViewProperties
import Elastos.Mempool.Checkpoint
import Elastos.SideChain.SideAuxPow
import Elastos.SideChain.Stack
import Elastos.SideChain.Validator
import Elastos.Spv.Filter
import Elastos.Spv.Queue
import Elastos.Utils.HistoryTemp
