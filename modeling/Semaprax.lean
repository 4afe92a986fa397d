import Semaprax.ModelChecking.Verdicts
import Semaprax.SessionProtocol.Authority
import Semaprax.ResumableEffects.Interruption
import Semaprax.PackageResolver.Completeness
import Semaprax.PackageResolver.Ranges
import Semaprax.SessionProtocol.Duality
import Semaprax.SessionProtocol.Checkpoints
import Semaprax.ScopedTasks.Progress
import Semaprax.ScopedTasks.Closing
import Semaprax.NativeSettlement.Refinement
import Semaprax.CallableWire.Exact
import Semaprax.DurableJobs.Attempts
import Semaprax.CarrierCall.Runs
import Semaprax.SessionTokens.Sessions
import Semaprax.ArcZones.Exactness
import Semaprax.CallableWire.Evidence
import Semaprax.DurableJobs.Canonical
import Semaprax.DurableJobs.Durability
import Semaprax.DurableJobs.Policy
import Semaprax.ExpressionParser.Chains
import Semaprax.HostOwnership.Plans
import Semaprax.InteractionSchema.Bounds
import Semaprax.InteractionSchema.Canonical
import Semaprax.LiveInvocation.Handoffs
import Semaprax.ModelPolicy.Routing
import Semaprax.PatchText.RoundTrip
import Semaprax.StreamingProposal.Chunking
import Semaprax.CarrierFrames.Codecs
import Semaprax.CleanupJoins.Agreement
import Semaprax.EconomicAgent.Bech32
import Semaprax.EconomicAgent.RlpLists
import Semaprax.ModelPolicy.Failovers
import Semaprax.MonetaryPricing.Runs
import Semaprax.SourceJournals.Exposure
import Semaprax.SourceOwnership.Agreement
import Semaprax.PatchText.Consumers
import Semaprax.Standard.Auth
import Semaprax.Standard.Base64View
import Semaprax.Standard.Csv
import Semaprax.Standard.IoLines
import Semaprax.Standard.Numbers
import Semaprax.Standard.Random
import Semaprax.Standard.Toml
import Semaprax.Standard.Utf8
import Semaprax.WasmStrings.Literals
