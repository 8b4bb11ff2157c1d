import NodeTelemetry.Main
import NodeTelemetry.Proofs.Registry.JailedStatus
import NodeTelemetry.Proofs.Tail.Consumption
import NodeTelemetry.Proofs.Tail.Framing
import NodeTelemetry.Proofs.Tail.Settling
import NodeTelemetry.Tail.Session
import NodeTelemetry.Proofs.Tail.Places
import NodeTelemetry.Proofs.Tail.FailedOpens
import NodeTelemetry.Proofs.Tail.FailedReads
import NodeTelemetry.Proofs.Tail.Truncation
import NodeTelemetry.Proofs.Tail.FirstFile
import NodeTelemetry.Proofs.Tail.Reopening
import NodeTelemetry.Proofs.Tail.WholeLines
import NodeTelemetry.Proofs.Text.ByteOrder
import NodeTelemetry.Proofs.Line.Meaning
import NodeTelemetry.Proofs.Registry.Interleaving
import NodeTelemetry.Proofs.Binary64.Whole
import NodeTelemetry.Proofs.Registry.ProposerCount
import NodeTelemetry.Proofs.Validator.Table
import NodeTelemetry.Proofs.Validator.Refreshing
import NodeTelemetry.Proofs.Line.Replacement
import NodeTelemetry.Proofs.Line.Layouts
import NodeTelemetry.Proofs.Binary64.Numerals
import NodeTelemetry.Proofs.Registry.Acceptance
import NodeTelemetry.Proofs.Registry.SampleLines
import NodeTelemetry.Proofs.Registry.PublishedText
import NodeTelemetry.Proofs.Pause
import NodeTelemetry.Proofs.Supervision.Chronicle
import NodeTelemetry.Proofs.Json.Lookahead
import NodeTelemetry.Proofs.Json.Brackets
import NodeTelemetry.Proofs.Text.Decoding
import NodeTelemetry.Proofs.Line.Torn
import NodeTelemetry.Proofs.Tail.Recency
import NodeTelemetry.Proofs.Files.Enumeration
import NodeTelemetry.Proofs.Registry.BlockHeight
import NodeTelemetry.Proofs.Line.ProposerName
import NodeTelemetry.Proofs.Registry.BlockGauges
import NodeTelemetry.Proofs.Line.HeightLiteral
import NodeTelemetry.Proofs.ListenAddress
import NodeTelemetry.Proofs.Pause.Slices
import NodeTelemetry.Proofs.Startup
import NodeTelemetry.Proofs.Tail.Handle
