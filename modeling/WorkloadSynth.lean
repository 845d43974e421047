import WorkloadSynth.AppTable
import WorkloadSynth.Arguments
import WorkloadSynth.AuditIndex.Basic
import WorkloadSynth.AuditIndex.Merge
import WorkloadSynth.AuditIndex.Row
import WorkloadSynth.Column
import WorkloadSynth.Command
import WorkloadSynth.Config.Basic
import WorkloadSynth.Config.File
import WorkloadSynth.Csv.Reader
import WorkloadSynth.Csv.Record
import WorkloadSynth.Csv.Row
import WorkloadSynth.Csv.Writer
import WorkloadSynth.Day
import WorkloadSynth.Ecdf
import WorkloadSynth.Error
import WorkloadSynth.FileSystem.Action
import WorkloadSynth.FileSystem.Basic
import WorkloadSynth.FileSystem.Error
import WorkloadSynth.Generate
import WorkloadSynth.Lognormal.Fit
import WorkloadSynth.Lognormal.Quantile
import WorkloadSynth.Main
import WorkloadSynth.Manual
import WorkloadSynth.Number.Decimal
import WorkloadSynth.Number.Double
import WorkloadSynth.Number.Literal
import WorkloadSynth.Number.Shortest
import WorkloadSynth.Number.Style
import WorkloadSynth.Observation.Basic
import WorkloadSynth.Observation.Row
import WorkloadSynth.Path
import WorkloadSynth.Pool
import WorkloadSynth.Random.Normal
import WorkloadSynth.Random.Normal.Layers
import WorkloadSynth.Random.Pcg
import WorkloadSynth.Random.Source
import WorkloadSynth.Report
import WorkloadSynth.Request
import WorkloadSynth.Shard
import WorkloadSynth.Stitch
import WorkloadSynth.Text.Blank
import WorkloadSynth.Text.CodePointRanges
import WorkloadSynth.Text.Invisible
import WorkloadSynth.Text.Quoted
import WorkloadSynth.Text.Unassigned
import WorkloadSynth.Text.Utf8
import WorkloadSynth.Trace.Basic
import WorkloadSynth.Trace.File
import WorkloadSynth.TraceUnit
import WorkloadSynth.Yaml.Cursor
import WorkloadSynth.Yaml.Document
import WorkloadSynth.Yaml.Node
import WorkloadSynth.Yaml.Scalar
import WorkloadSynth.Yaml.Token
import WorkloadSynth.Proofs.Accounting
import WorkloadSynth.Proofs.AppTable
import WorkloadSynth.Proofs.AuditListing
import WorkloadSynth.Proofs.Day
import WorkloadSynth.Proofs.Double
import WorkloadSynth.Proofs.Generate
import WorkloadSynth.Proofs.IndexMerge
import WorkloadSynth.Proofs.OutputShape
import WorkloadSynth.Proofs.TwoRuns
import WorkloadSynth.Proofs.Files
import WorkloadSynth.Proofs.Collection
import WorkloadSynth.Proofs.Schedule
import WorkloadSynth.Proofs.ShardCourse
import WorkloadSynth.Proofs.ShardSchedules
import WorkloadSynth.Proofs.Concatenation
import WorkloadSynth.Proofs.DailyRuns
import WorkloadSynth.Proofs.MemoryShares
import WorkloadSynth.Proofs.TimerCounts
import WorkloadSynth.Proofs.ShardRefusals
import WorkloadSynth.Proofs.TraceFiles
import WorkloadSynth.Proofs.InnerJoin
import WorkloadSynth.Proofs.Filing
import WorkloadSynth.Proofs.UnitApplications
import WorkloadSynth.Proofs.RowFormat
import WorkloadSynth.Proofs.FitGuards
import WorkloadSynth.Proofs.Fallback
import WorkloadSynth.Proofs.NearestDouble
import WorkloadSynth.Proofs.Distribution
import WorkloadSynth.Proofs.Inverse
import WorkloadSynth.Proofs.Resampling
import WorkloadSynth.Proofs.SimulationEnd
import WorkloadSynth.Proofs.Assembly
import WorkloadSynth.Proofs.MergeEffects
import WorkloadSynth.Proofs.StitchBuffers
import WorkloadSynth.Proofs.Counters
