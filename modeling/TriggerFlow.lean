import TriggerFlow.Builder.History
import TriggerFlow.Engine.Schedule
import TriggerFlow.Main
import TriggerFlow.Presentation.Shared
import TriggerFlow.Proofs.Engine.Cancellation
import TriggerFlow.Proofs.Engine.Flag
import TriggerFlow.Proofs.Engine.Refusals
import TriggerFlow.Proofs.Json.Reads
import TriggerFlow.Proofs.Run.Interpretation
import TriggerFlow.Proofs.Run.Orders
import TriggerFlow.Proofs.Storage.Codec
import TriggerFlow.Proofs.FileTree.Leads
import TriggerFlow.Proofs.FileTree.Saving
import TriggerFlow.Proofs.Storage.FileStore
import TriggerFlow.Proofs.Builder.Tokens
import TriggerFlow.Proofs.Builder.Session
import TriggerFlow.Proofs.Document.Codec
import TriggerFlow.Proofs.FileTree.Named
import TriggerFlow.Proofs.CommandLine.Written
import TriggerFlow.Proofs.CommandLine.Editing
import TriggerFlow.Proofs.Run.Modes
import TriggerFlow.Proofs.Run.LastWrite
import TriggerFlow.Proofs.Presentation.Loading
import TriggerFlow.Proofs.Run.Meaning
import TriggerFlow.Proofs.Engine.Timing
import TriggerFlow.Proofs.Document.Keeping
import TriggerFlow.Proofs.CommandLine.Input
import TriggerFlow.Proofs.Builder.Failing
import TriggerFlow.Proofs.Config.Layers
import TriggerFlow.Proofs.Run.Forward
import TriggerFlow.Proofs.Presentation.Shared
import TriggerFlow.Proofs.CommandLine.Reporting
import TriggerFlow.Proofs.Document.Moving
import TriggerFlow.Proofs.Builder.Search
import TriggerFlow.Proofs.Builder.Numbering
import TriggerFlow.Proofs.CommandLine.Settings
import TriggerFlow.Proofs.Config.Template
import TriggerFlow.Proofs.Config.Codec
import TriggerFlow.Proofs.Document.Renderings
