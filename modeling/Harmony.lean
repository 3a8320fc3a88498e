import Harmony.Lib.GoBytes
import Harmony.Lib.ByteBitmap
import Harmony.Crypto.Mask
import Harmony.Core.Types
import Harmony.Consensus.Pbft
import Harmony.Consensus.State
import Harmony.Consensus.Service
import Harmony.Consensus.Messages
import Harmony.Consensus.Normal
import Harmony.Consensus.ViewChange
import Harmony.Lib.Transition
import Harmony.Consensus.Machine
import Harmony.Crypto.Linear
import Harmony.Proofs.Consensus.Certificates
import Harmony.Proofs.Consensus.Views
import Harmony.Core.Signing
import Harmony.Proofs.Core.Signing
import Harmony.Node.Handler
import Harmony.Proofs.Node.Handler
import Harmony.Core.Validation
import Harmony.Proofs.Core.Validation
import Harmony.Sync.StateSync
import Harmony.Proofs.Sync.StateSync
import Harmony.Lib.Hoare
import Harmony.Vm.GasTable
import Harmony.Proofs.Vm.GasTable
import Harmony.Core.StateTransition
import Harmony.Proofs.Core.StateTransition
import Harmony.Consensus.Reward
import Harmony.Proofs.Consensus.Rewards
import Harmony.Lib.GoRand
import Harmony.Lib.Containers
import Harmony.Core.ShardState
import Harmony.Core.Resharding
import Harmony.Node.Resharding
import Harmony.Proofs.Core.Resharding
import Harmony.Lib.GoSort
import Harmony.Lib.Journal
import Harmony.Core.State.StateDB
import Harmony.Proofs.Core.State.Journal
import Harmony.Proofs.Core.State.Snapshot
import Harmony.Lib.GoHeap
import Harmony.Core.TxList
import Harmony.Core.TxPool
import Harmony.Proofs.Core.TxPool
import Harmony.Lib.Compare
import Harmony.Proofs.Core.ShardState
import Harmony.Proofs.Node.Resharding
import Harmony.Proofs.Consensus.Committee
import Harmony.Node.Worker
import Harmony.Proofs.Node.Worker
import Harmony.Proofs.Crypto.Mask
import Harmony.Lib.RoundRobin
import Harmony.Proofs.Core.Cuckoo
import Harmony.Proofs.Sync.Consensus
import Harmony.Node.Staking
import Harmony.Proofs.Node.Staking
import Harmony.Proofs.Core.TxList
import Harmony.Vm.Analysis
import Harmony.Proofs.Vm.Analysis
import Harmony.Explorer.Storage
import Harmony.Proofs.Explorer.Storage
import Harmony.Drand.Leader
import Harmony.Proofs.Drand.Leader
import Harmony.Lib.GoHeapLaws
import Harmony.Core.TxSortedMap
import Harmony.Proofs.Core.TxSortedMap
import Harmony.Lib.Loop
import Harmony.Vm.Machine
import Harmony.Vm.Instructions
import Harmony.Vm.JumpTable
import Harmony.Vm.Interpreter
import Harmony.Proofs.Vm.Machine
import Harmony.Proofs.Vm.Operations
import Harmony.Proofs.Vm.Interpreter
import Harmony.Proofs.Vm.JumpTable
import Harmony.Proofs.Vm.Run
