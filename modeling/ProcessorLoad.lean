import ProcessorLoad.Main
import ProcessorLoad.Number.Bits
import ProcessorLoad.Proofs.Meter.LoadRange
import ProcessorLoad.Proofs.Meter.OwnLoad
import ProcessorLoad.Proofs.StatFile.Listed
import ProcessorLoad.Proofs.Watch.Ledger
import ProcessorLoad.Proofs.Number.Difference
import ProcessorLoad.Proofs.Watch.Refreshing
import ProcessorLoad.Proofs.Watch.Unready
import ProcessorLoad.Proofs.Meter.Refreshing
import ProcessorLoad.Proofs.Meter.Failure
import ProcessorLoad.Proofs.Clock
import ProcessorLoad.Proofs.Meter.Spacing
import ProcessorLoad.Proofs.Meter.Shape
import ProcessorLoad.Proofs.Recorder.Runs
import ProcessorLoad.Proofs.Recorder.Shape
import ProcessorLoad.Proofs.Environment
import ProcessorLoad.Proofs.Recorder.Bookkeeping
import ProcessorLoad.Proofs.Launch
import ProcessorLoad.Proofs.Meter.Footprint
import ProcessorLoad.Proofs.Meter.Streams
import ProcessorLoad.Proofs.StatFile.Reading
import ProcessorLoad.Proofs.StatFile.Rendering
import ProcessorLoad.Proofs.CpuTimes
import ProcessorLoad.Proofs.Meter.Percentages
import ProcessorLoad.Proofs.Identification.Reading
import ProcessorLoad.Proofs.Number.Limits
import ProcessorLoad.Proofs.Ticks.Rollback
import ProcessorLoad.Proofs.Dashboard.CatchingUp
import ProcessorLoad.Proofs.Recorder.FailedPolls
import ProcessorLoad.Proofs.Number.Quotient
import ProcessorLoad.Proofs.Ticks.Share
import ProcessorLoad.Proofs.Number.Whole
import ProcessorLoad.Proofs.CpuTimes.Fields
import ProcessorLoad.Proofs.Meter.NotANumber
import ProcessorLoad.Proofs.Recorder.Agreement
import ProcessorLoad.Proofs.Lookup
import ProcessorLoad.Proofs.Text.Trim
import ProcessorLoad.Proofs.KeyValue
import ProcessorLoad.Proofs.Identification.Block
import ProcessorLoad.Proofs.Identification.RoundTrip
import ProcessorLoad.Proofs.Text.Search
import ProcessorLoad.Proofs.Number.Decimal
import ProcessorLoad.Proofs.Frequency.Spelling
import ProcessorLoad.Proofs.Frequency.Reading
import ProcessorLoad.Proofs.Identification.RatedFrequency
import ProcessorLoad.Proofs.File
import ProcessorLoad.Proofs.Screen.Latest
import ProcessorLoad.Proofs.Screen.LoadTable
import ProcessorLoad.Proofs.Screen.Series
import ProcessorLoad.Proofs.Screen.Sparklines
import ProcessorLoad.Proofs.Number.Accuracy
import ProcessorLoad.Proofs.Frequency.Exactness
import ProcessorLoad.Proofs.Number.WholePart
import ProcessorLoad.Proofs.Screen.Gauge
