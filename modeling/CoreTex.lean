import CoreTex.Lib.BinaryTree
import CoreTex.Lib.Bytes
import CoreTex.Lib.Overwrite
import CoreTex.Lib.Sort
import CoreTex.State.Merkle
import CoreTex.State.Validate
import CoreTex.Lib.Except
import CoreTex.State.Patch
import CoreTex.State.PatchCodec
import CoreTex.State.PatchApply
import CoreTex.Eval.SeedDerivation
import CoreTex.Reducer.AcceptCore
import CoreTex.Reducer.Reducer
import CoreTex.Reducer.OrderIndependence
import CoreTex.Reducer.Selection
import CoreTex.State.Codec
import CoreTex.VerifyEpoch.VerifyEpoch
import CoreTex.VerifyEpoch.Replay
import CoreTex.Rewards.WorkUnits
import CoreTex.Reducer.LiveChain
import CoreTex.Lib.Json
import CoreTex.Frontier.Manifest
import CoreTex.Lib.JsonParse
import CoreTex.Frontier.ManifestRoot
import CoreTex.Frontier.Transition
import CoreTex.Dispatch.Descriptor
import CoreTex.Dispatch.TransitionArtifact
import CoreTex.Dispatch.Replay
import CoreTex.Dispatch.Determinism
import CoreTex.Dispatch.Engines
import CoreTex.Crypto.Ecrecover
import CoreTex.Eval.Artifact
import CoreTex.Eval.ValidateArtifact
import CoreTex.Join.Accounting
import CoreTex.Lib.JsNumber
import CoreTex.Lib.Trade
import CoreTex.Replay.CoretexRegistry
import CoreTex.Replay.RegistryHistory
import CoreTex.Replay.ReplayExact
import CoreTex.State.PatchRun
import CoreTex.Coordinator.Boot
import CoreTex.Coordinator.WatcherInvariant
import CoreTex.Coordinator.WatcherRuns
import CoreTex.Coordinator.Recovery
import CoreTex.Coordinator.AnsweredRuns
import CoreTex.Join.Story
import CoreTex.Corpus.RootCache
import CoreTex.Hash.KeccakPy
import CoreTex.Scan.Continuity
import CoreTex.EpochFrontier.Core
import CoreTex.EpochFrontier.Rotation
import CoreTex.EpochFrontier.Invariant
import CoreTex.EpochFrontier.Restart
import CoreTex.Frontier.Codec
import CoreTex.Substrate.Region
import CoreTex.Substrate.Slots
import CoreTex.Substrate.RoundTrip
import CoreTex.Lib.HexText
import CoreTex.Replay.RigAgreement
import CoreTex.Scan.EpochLaw
import CoreTex.Reducer.Soundness
import CoreTex.EvalReport.Artifact
import CoreTex.EvalReport.PostReveal
import CoreTex.EvalReport.RemoteScorer
import CoreTex.Coordinator.FinalityScan
import CoreTex.Evaluator.AntiGrinding
import CoreTex.Eval.IrMetrics
import CoreTex.Join.ReceiptChain
import CoreTex.Replay.AdvanceEncoding
import CoreTex.Dispatch.ByteLength
import CoreTex.EpochFrontier.Pruning
import CoreTex.Lib.Portion
import CoreTex.Rewards.Qualification
import CoreTex.Upgrade.Translation
import CoreTex.EvalReport.SeedIdentity
import CoreTex.Lib.CarryTree
import CoreTex.Reducer.FundingTx
import CoreTex.Eval.CounterResourceLaw
import CoreTex.Lib.Runs
import CoreTex.Lib.Slices
import CoreTex.Reranker.LengthBucketing
import CoreTex.Scan.CoordinatorSigner
import CoreTex.State.MerkleStore
import CoreTex.Workers.Invariant
import CoreTex.Workers.Scheduling
import CoreTex.Eval.HiddenQueryPack
import CoreTex.Eval.QueryPackOverlay
import CoreTex.Eval.QueryPackVerification
import CoreTex.Publication.HashRules
import CoreTex.Publication.Store
import CoreTex.Snapshot.Chain
import CoreTex.Corpus.LiveUpdates
import CoreTex.Eval.Dominance
import CoreTex.Eval.Lineage
import CoreTex.Eval.QueryPackSelection
import CoreTex.Corpus.AutoResolve
import CoreTex.Lib.Links
import CoreTex.Scan.LineageWalk
import CoreTex.Sync.EvalBacklog
import CoreTex.Lib.Firsts
import CoreTex.Reducer.Eligibility
