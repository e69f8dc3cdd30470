import AccessLog.CommandLine.Program
import AccessLog.Enrich.Worker
import AccessLog.Geo.Database
import AccessLog.Http.Routes
import AccessLog.Log.Event
import AccessLog.Main
import AccessLog.Service.Backends
import AccessLog.Settings.Variables
import AccessLog.Simulation.Requests
import AccessLog.Stats.Aggregator
import AccessLog.Store.Table
import AccessLog.Service.Interleaving
import AccessLog.Proofs.BatchAccounting
import AccessLog.Proofs.FreshIdentity
import AccessLog.Proofs.PendingPartition
import AccessLog.Proofs.QueuedOnce
import AccessLog.Proofs.SingleLookup
import AccessLog.Proofs.StoredResults
import AccessLog.Proofs.Uninterrupted
import AccessLog.Proofs.WakeUps
import AccessLog.Proofs.StoreAgreement
import AccessLog.Service.Dialogue
import AccessLog.Proofs.UnseenLookups
import AccessLog.Proofs.OwnInfos
import AccessLog.Proofs.FailedCalls
import AccessLog.Proofs.CacheRoom
import AccessLog.Proofs.DialogueTurns
import AccessLog.Proofs.KeptResults
import AccessLog.Proofs.QueueDrain
import AccessLog.Proofs.Shutdown
import AccessLog.Proofs.SoleClient
import AccessLog.Proofs.WaitedAnswer
import AccessLog.Proofs.EncodedLines
import AccessLog.Proofs.LineNumbers
import AccessLog.Proofs.QuotedRows
import AccessLog.Proofs.SeparatingCommas
import AccessLog.Proofs.Envelopes
import AccessLog.Proofs.RowChecks
import AccessLog.Proofs.WrittenTimestamps
import AccessLog.Proofs.TimestampLayout
import AccessLog.Proofs.Rankings
import AccessLog.Proofs.ClassTotals
import AccessLog.Proofs.Snapshots
import AccessLog.Proofs.LookupRuns
import AccessLog.Proofs.ExactDelays
import AccessLog.Proofs.CacheBounds
import AccessLog.Proofs.ReadPath
import AccessLog.Proofs.ResultAssembly
import AccessLog.Proofs.IngestEffects
import AccessLog.Proofs.Processing
import AccessLog.Proofs.Recency
import AccessLog.Proofs.UsableSettings
import AccessLog.Proofs.LookupRequests
import AccessLog.Proofs.HiddenTexts
