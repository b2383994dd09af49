import RustProfile.AllocatorSound
import RustProfile.AtomicWrite
import RustProfile.AtomicWriteSound
import RustProfile.Callers
import RustProfile.CallersSound
import RustProfile.Cgroup
import RustProfile.CgroupFlushes
import RustProfile.CgroupSound
import RustProfile.CpuWindow
import RustProfile.CpuWindowSound
import RustProfile.DockerApi
import RustProfile.DockerApiSound
import RustProfile.DockerBody
import RustProfile.DockerBodySound
import RustProfile.Event
import RustProfile.EventSound
import RustProfile.ExecutableIndex
import RustProfile.FileNames
import RustProfile.Firefox
import RustProfile.Gallery
import RustProfile.GallerySound
import RustProfile.HeapBpf
import RustProfile.HeapCollector
import RustProfile.HeapCollectorSound
import RustProfile.HeapRaw
import RustProfile.HeapRawSound
import RustProfile.HeapState
import RustProfile.HeapStateSound
import RustProfile.HeapTotals
import RustProfile.HeapWindowSound
import RustProfile.HexDigits
import RustProfile.Import
import RustProfile.ImportFrames
import RustProfile.ImportRun
import RustProfile.ImportRunSound
import RustProfile.Ints
import RustProfile.JitSymbols
import RustProfile.JitSymbolsSound
import RustProfile.Json
import RustProfile.KernelVersion
import RustProfile.KernelVersionSound
import RustProfile.LabelKeys
import RustProfile.LabelKinds
import RustProfile.Launch
import RustProfile.LaunchSound
import RustProfile.Lib.Bytes
import RustProfile.Lib.Capped
import RustProfile.Lib.Channel
import RustProfile.Lib.Durable
import RustProfile.Lib.Fallible
import RustProfile.Lib.Frames
import RustProfile.Lib.Grouping
import RustProfile.Lib.Interning
import RustProfile.Lib.Meter
import RustProfile.Lib.PowersOfTwo
import RustProfile.Lib.Queues
import RustProfile.Lib.Rendering
import RustProfile.Lib.Reservations
import RustProfile.Lib.Run
import RustProfile.Lib.Sat
import RustProfile.Lib.Semaphore
import RustProfile.Lib.Spans
import RustProfile.Lib.Table
import RustProfile.Lib.Trie
import RustProfile.Lib.Triple
import RustProfile.Lib.Words
import RustProfile.Lib.Xml
import RustProfile.Lifecycle
import RustProfile.LifecycleSound
import RustProfile.LoadBias
import RustProfile.LoadBiasSound
import RustProfile.MapLines
import RustProfile.MapLinesSound
import RustProfile.MapsRefresh
import RustProfile.OffCpu
import RustProfile.OffCpuAccounts
import RustProfile.OffCpuBalance
import RustProfile.OffCpuLemmas
import RustProfile.OffCpuRaw
import RustProfile.OffCpuRawSound
import RustProfile.OffCpuSound
import RustProfile.OffCpuTime
import RustProfile.Otlp
import RustProfile.OtlpClient
import RustProfile.OtlpClientSound
import RustProfile.OtlpConfig
import RustProfile.OtlpDecode
import RustProfile.OtlpEncode
import RustProfile.OtlpExporterSound
import RustProfile.OtlpFlags
import RustProfile.OtlpHash
import RustProfile.OtlpResource
import RustProfile.OtlpResourceSound
import RustProfile.OtlpSound
import RustProfile.OtlpTimeline
import RustProfile.Output
import RustProfile.OutputWriter
import RustProfile.OutputWriterSound
import RustProfile.PairingSound
import RustProfile.PerfCollector
import RustProfile.PerfCollectorSound
import RustProfile.PerfRecord
import RustProfile.PerfRecordSound
import RustProfile.PerfRing
import RustProfile.PerfRingSound
import RustProfile.Pprof
import RustProfile.PprofDecode
import RustProfile.PprofSound
import RustProfile.Profile
import RustProfile.PublicationSound
import RustProfile.Record
import RustProfile.RecordSound
import RustProfile.Recorder
import RustProfile.RecorderRuns
import RustProfile.RecorderSound
import RustProfile.Retention
import RustProfile.RetentionSound
import RustProfile.SamplingSound
import RustProfile.Serve
import RustProfile.ServeGallery
import RustProfile.ServeGallerySound
import RustProfile.ServeSound
import RustProfile.SlabLimits
import RustProfile.Slabs
import RustProfile.SlabsSound
import RustProfile.Stored
import RustProfile.Svg
import RustProfile.SvgMarkup
import RustProfile.SvgMarkupSound
import RustProfile.SvgSound
import RustProfile.Symbol
import RustProfile.SymbolTables
import RustProfile.SymbolTablesSound
import RustProfile.Target
import RustProfile.TargetSound
import RustProfile.Unwind
import RustProfile.UsableStacks
import RustProfile.Viewer
import RustProfile.ViewerHotspots
import RustProfile.ViewerZoom
import RustProfile.WindowProfiles
import RustProfile.WindowProfilesSound
