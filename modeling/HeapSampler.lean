import HeapSampler.Collector.Drive
import HeapSampler.Config.Environment
import HeapSampler.Config.FromJson
import HeapSampler.Pprof.Canonical
import HeapSampler.Pprof.Decode
import HeapSampler.Pprof.Resolved
import HeapSampler.Text.Hex
import HeapSampler.Proofs.Store.Events
import HeapSampler.Proofs.Collector.Runs
import HeapSampler.Proofs.Collector.Ledger
import HeapSampler.Proofs.Collector.Drops
import HeapSampler.Proofs.Collector.Releases
import HeapSampler.Proofs.Wire.Fields
import HeapSampler.Proofs.Pprof.Messages
import HeapSampler.Proofs.Gzip.Member
import HeapSampler.Proofs.Export.Numbering
import HeapSampler.Proofs.Export.Draft
import HeapSampler.Proofs.Export.Resolve
import HeapSampler.Proofs.Pprof.Sorted
import HeapSampler.Proofs.Export.Encode
import HeapSampler.Proofs.Collector.Scene
import HeapSampler.Proofs.Collector.Mirror
import HeapSampler.Proofs.Collector.Quiet
import HeapSampler.Proofs.Collector.Exports
import HeapSampler.Proofs.Collector.EndToEnd
import HeapSampler.Proofs.Intern.Exhaustion
import HeapSampler.Proofs.Export.Success
import HeapSampler.Proofs.Export.RoundTrip
import HeapSampler.Proofs.Export.Content
import HeapSampler.Proofs.Collector.Exhaustion
import HeapSampler.Proofs.Collector.Frame
import HeapSampler.Proofs.Collector.Standing
import HeapSampler.Proofs.Collector.Tally
import HeapSampler.Proofs.Collector.Walk
import HeapSampler.Proofs.Collector.Alike
import HeapSampler.Proofs.Collector.Failed
import HeapSampler.Proofs.Store.Custody
import HeapSampler.Proofs.Export.SelfContained
import HeapSampler.Proofs.Collector.Partition
import HeapSampler.Proofs.Collector.Captures
import HeapSampler.Proofs.Pprof.Records
import HeapSampler.Proofs.Intern.Lifetimes
import HeapSampler.Proofs.Collector.Nested
import HeapSampler.Proofs.Collector.Asked
import HeapSampler.Proofs.Export.Canonical
import HeapSampler.Proofs.Export.Limit
import HeapSampler.Proofs.Export.Missing
import HeapSampler.Proofs.Intern.Holdings
import HeapSampler.Proofs.Store.Handles
import HeapSampler.Proofs.Collector.Lifecycle
import HeapSampler.Proofs.Intern.Failures
import HeapSampler.Proofs.Collector.EarlyDrop
import HeapSampler.Proofs.Text.ByteOrder
import HeapSampler.Proofs.Config.Override
import HeapSampler.Proofs.Collector.Merge
import HeapSampler.Proofs.Collector.Reconfigure
import HeapSampler.Proofs.Wire.Announced
import HeapSampler.Proofs.Pprof.Announced
import HeapSampler.Proofs.Pprof.Directory
import HeapSampler.Proofs.Pprof.Rearranged
import HeapSampler.Proofs.Wire.Shortest
import HeapSampler.Proofs.Pprof.Numbers
import HeapSampler.Proofs.Intern.Dense
