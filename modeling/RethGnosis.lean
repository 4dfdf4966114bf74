import RethGnosis.Library.SuffixTrim
import RethGnosis.Library.Histogram
import RethGnosis.Library.Run
import RethGnosis.Primitives
import RethGnosis.Aura.Validators
import RethGnosis.Aura.Finality
import RethGnosis.Aura.FinalityWindow
import RethGnosis.Aura.Live
import RethGnosis.Aura.LiveStep
import RethGnosis.Aura.Orphan
import RethGnosis.Aura.Delivery
import RethGnosis.Aura.Recovery
import RethGnosis.Aura.WindowSimulation
import RethGnosis.Aura.RecoveredState
import RethGnosis.Aura.Restart
import RethGnosis.Evm.State
import RethGnosis.Evm.SystemCall
import RethGnosis.Evm.Cfg
import RethGnosis.Evm.Handler
import RethGnosis.Evm.Fees
import RethGnosis.Block.Context
import RethGnosis.Block.AddressArray
import RethGnosis.Block.State
import RethGnosis.Block.SystemCalls
import RethGnosis.Library.Fallible
import RethGnosis.Block.Executor
import RethGnosis.Block.TrackerFrame
import RethGnosis.Block.TrackerProgress
import RethGnosis.Block.FailedImport
import RethGnosis.Block.StateHook
import RethGnosis.Block.SilentChanges
import RethGnosis.Aura.Seal
import RethGnosis.Aura.TrackerCalls
import RethGnosis.Aura.Consensus
import RethGnosis.Aura.ChainWeight
import RethGnosis.Block.Signer
import RethGnosis.Aura.SealBinding
import RethGnosis.Aura.SealPreimage
import RethGnosis.Evm.ForkAgreement
import RethGnosis.Library.Activations
import RethGnosis.Spec.ForkId
import RethGnosis.Aura.ActiveSet
import RethGnosis.Block.TraceReplay
import RethGnosis.Library.Floor
import RethGnosis.Aura.BoundaryCalls
import RethGnosis.Block.CheckedDecode
import RethGnosis.Block.ArrayRoundTrip
import RethGnosis.Block.RewardCredits
import RethGnosis.Aura.FinalityBatches
import RethGnosis.Library.NetMetering
import RethGnosis.Evm.Sstore
import RethGnosis.Library.Overlay
import RethGnosis.Block.Rewrites
import RethGnosis.Block.UnreadAccounts
import RethGnosis.Block.GasRun
import RethGnosis.Block.HeaderLookups
import RethGnosis.Block.Build
import RethGnosis.Spec.GenesisHeader
import RethGnosis.Spec.LatestForkId
import RethGnosis.Cli.Era
import RethGnosis.Cli.EraBounds
import RethGnosis.Cli.StoredBlocks
import RethGnosis.Cli.EraReceipts
import RethGnosis.Cli.EraImport
import RethGnosis.Block.Payload
import RethGnosis.Block.PayloadLimits
import RethGnosis.Library.CrashLogic
import RethGnosis.Init.StateFiles
import RethGnosis.Init.EnsureState
import RethGnosis.Init.Recovery
import RethGnosis.Init.ImportFlag
import RethGnosis.Init.ImportRuns
import RethGnosis.Aura.FinalitySafety
import RethGnosis.Aura.Phases
import RethGnosis.Block.ChainImport
import RethGnosis.Cli.EraResume
import RethGnosis.Block.BuiltPayload
import RethGnosis.Library.Entries
import RethGnosis.Spec.Json
import RethGnosis.Aura.Config
import RethGnosis.Block.LoadedSpec
import RethGnosis.Block.EnginePayload
