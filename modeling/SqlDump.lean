import SqlDump.Main
import SqlDump.Proofs.CommandLine
import SqlDump.Proofs.CompressedDump
import SqlDump.Proofs.Compression
import SqlDump.Proofs.DataOnly.Again
import SqlDump.Proofs.DataOnly.Independence
import SqlDump.Proofs.DataOnly.Lines
import SqlDump.Proofs.DataOnly.NormalForm
import SqlDump.Proofs.DataOnly.Order
import SqlDump.Proofs.DryRun
import SqlDump.Proofs.InsertTarget
import SqlDump.Proofs.Output
import SqlDump.Proofs.Rule.BlankRuns
import SqlDump.Proofs.Rule.Directive
import SqlDump.Proofs.Rule.FirstName
import SqlDump.Proofs.Rule.KeywordOrder
import SqlDump.Proofs.Rule.QuotePairs
import SqlDump.Proofs.Run
import SqlDump.Proofs.Schema.NormalForm
import SqlDump.Proofs.Schema.Reference
import SqlDump.Proofs.Settled
import SqlDump.Proofs.Time.Millis
import SqlDump.Proofs.Time.Reading
