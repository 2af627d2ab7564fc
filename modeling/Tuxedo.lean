import Tuxedo.Runtime.Parachain
import Tuxedo.Executive.Validation
import Tuxedo.Executive.Transition
import Tuxedo.Lib.Ledger
import Tuxedo.Executive.Inputs
import Tuxedo.Executive.Runs
import Tuxedo.Runtime.Pieces
import Tuxedo.Runtime.Authorisation
import Tuxedo.Runtime.Supply
import Tuxedo.Runtime.Replay
import Tuxedo.Executive.Authoring
import Tuxedo.Executive.Typed
import Tuxedo.Runtime.ParachainInfo
import Tuxedo.Runtime.ValidateBlock
import Tuxedo.Executive.Chains
import Tuxedo.Executive.Inherents
import Tuxedo.Runtime.Clock
import Tuxedo.Runtime.TimestampInherent
import Tuxedo.Runtime.InfoInherent
import Tuxedo.Runtime.InfoHistory
import Tuxedo.Runtime.Pipeline
import Tuxedo.Core.Opaque
import Tuxedo.Executive.Effects
import Tuxedo.Executive.Independence
import Tuxedo.Executive.Opaque
import Tuxedo.Lib.Lineage
import Tuxedo.Parachain.Collation
import Tuxedo.Runtime.Collation
import Tuxedo.Runtime.Effects
import Tuxedo.Runtime.Opaque
import Tuxedo.Wallet.Database
import Tuxedo.Wallet.Recorded
import Tuxedo.Wallet.Reorgs
import Tuxedo.Core.MultiSignature
import Tuxedo.Executive.Genesis
import Tuxedo.Core.VerifierTree
import Tuxedo.Runtime.Verifiers
import Tuxedo.Runtime.FirstClaim
import Tuxedo.Lib.Rollback
import Tuxedo.Wallet.Rollback
import Tuxedo.Lib.Pedigree
import Tuxedo.Runtime.KittyPedigree
import Tuxedo.Lib.Descent
import Tuxedo.Runtime.AmoebaLineage
import Tuxedo.Runtime.Priority
import Tuxedo.Executive.Padding
import Tuxedo.Lib.Script
import Tuxedo.Wallet.Writes
import Tuxedo.Wallet.LastTime
import Tuxedo.Wallet.Peers
import Tuxedo.Lib.Prefix
import Tuxedo.Wallet.Selection
import Tuxedo.Lib.Traces
import Tuxedo.Executive.Schedules
import Tuxedo.Executive.Custody
import Tuxedo.Executive.Contracts
import Tuxedo.Runtime.Custody
import Tuxedo.Parachain.Line
import Tuxedo.Runtime.Line
import Tuxedo.Runtime.Upgrades
import Tuxedo.Runtime.Schedules
import Tuxedo.Wallet.Convergence
import Tuxedo.Wallet.Spend
import Tuxedo.Wallet.Payment
import Tuxedo.Wallet.Neighbours
import Tuxedo.Wallet.Requests
import Tuxedo.Wallet.Balances
import Tuxedo.Wallet.References
import Tuxedo.Runtime.Census
