import Gzscript.Abi.Adapter
import Gzscript.Abi.AdapterLoad
import Gzscript.Abi.CodecOutcomes
import Gzscript.Abi.Descriptor
import Gzscript.Abi.DynamicCalls
import Gzscript.Abi.EngineCall
import Gzscript.Abi.FieldCodec
import Gzscript.Abi.Inspector
import Gzscript.Abi.InstanceProperties
import Gzscript.Abi.Load
import Gzscript.Abi.MethodBinds
import Gzscript.Abi.MethodDispatch
import Gzscript.Abi.OwnedStrings
import Gzscript.Abi.PropertyAccess
import Gzscript.Abi.PropertyRevert
import Gzscript.Abi.PropertyTable
import Gzscript.Abi.RawDescriptor
import Gzscript.Abi.ScriptCalls
import Gzscript.Abi.Value
import Gzscript.Abi.ValueCodec
import Gzscript.Bindings.Api
import Gzscript.Bindings.Components
import Gzscript.Bindings.EnumRendering
import Gzscript.Bindings.ImportPaths
import Gzscript.Bindings.ManagedPaths
import Gzscript.Bindings.MethodResolution
import Gzscript.Bindings.NameClosure
import Gzscript.Bindings.OfferedMethods
import Gzscript.Bindings.Renderable
import Gzscript.Bindings.Rendering
import Gzscript.Bindings.Resolve
import Gzscript.Bindings.RootStructs
import Gzscript.Bindings.Selection
import Gzscript.Bindings.StrongComponents
import Gzscript.Bindings.SyncContract
import Gzscript.Bindings.Tree
import Gzscript.Bindings.TreeContents
import Gzscript.Bindings.TreeSync
import Gzscript.Build.CacheIntegrity
import Gzscript.Build.CacheKey
import Gzscript.Build.CompilerOutput
import Gzscript.Build.Dependencies
import Gzscript.Build.Descendants
import Gzscript.Build.ElfPatcher
import Gzscript.Build.Fingerprint
import Gzscript.Build.LatestSave
import Gzscript.Build.Manager
import Gzscript.Build.ModuleCache
import Gzscript.Build.NoRequestLost
import Gzscript.Build.PairedQuotes
import Gzscript.Build.PlannedModules
import Gzscript.Build.ProcessTable
import Gzscript.Build.Publication
import Gzscript.Build.ScanCompleteness
import Gzscript.Build.SoleScript
import Gzscript.Build.SourceScan
import Gzscript.Build.WorkingFiles
import Gzscript.Build.ZigTokens
import Gzscript.Diagnostics.BatchOrder
import Gzscript.Diagnostics.CanonicalPath
import Gzscript.Diagnostics.ChangeQueue
import Gzscript.Diagnostics.Diagnostic
import Gzscript.Diagnostics.Effect
import Gzscript.Diagnostics.FileUri
import Gzscript.Diagnostics.Generations
import Gzscript.Diagnostics.GodotAdapter
import Gzscript.Diagnostics.Path
import Gzscript.Diagnostics.Producers
import Gzscript.Diagnostics.Representation
import Gzscript.Diagnostics.SnapshotMerge
import Gzscript.Diagnostics.Store
import Gzscript.Diagnostics.WriteLog
import Gzscript.Editor.Highlighter
import Gzscript.Library.AdjacentDuplicates
import Gzscript.Library.Blocks
import Gzscript.Library.BoundedBuffer
import Gzscript.Library.Bytes
import Gzscript.Library.CheckedArithmetic
import Gzscript.Library.Decimal
import Gzscript.Library.Descent
import Gzscript.Library.Fallible
import Gzscript.Library.Files
import Gzscript.Library.FramedStream
import Gzscript.Library.Interleaving
import Gzscript.Library.Lines
import Gzscript.Library.LittleEndian
import Gzscript.Library.Painting
import Gzscript.Library.Processes
import Gzscript.Library.Reachability
import Gzscript.Library.Records
import Gzscript.Library.ReferenceCounts
import Gzscript.Library.Segments
import Gzscript.Library.SharedPointers
import Gzscript.Library.Sorting
import Gzscript.Library.StreamDecoder
import Gzscript.Library.TemporaryFiles
import Gzscript.Library.Transition
import Gzscript.Library.Utf8
import Gzscript.Library.Worklist
import Gzscript.Lsp.BufferBounds
import Gzscript.Lsp.CaretPosition
import Gzscript.Lsp.Client
import Gzscript.Lsp.ContentLength
import Gzscript.Lsp.Deadlines
import Gzscript.Lsp.DocumentUri
import Gzscript.Lsp.Frames
import Gzscript.Lsp.Framing
import Gzscript.Lsp.LengthArithmetic
import Gzscript.Lsp.Moves
import Gzscript.Lsp.PendingQueries
import Gzscript.Lsp.Protocol
import Gzscript.Lsp.PumpSchedule
import Gzscript.Lsp.RestartBound
import Gzscript.Lsp.ServerRequests
import Gzscript.Lsp.Session
import Gzscript.Lsp.SessionFraming
import Gzscript.Lsp.Settling
import Gzscript.Lsp.SingleFlight
import Gzscript.Lsp.Synchronisation
import Gzscript.Script.CheckedFields
import Gzscript.Script.Instances
import Gzscript.Script.Migration
import Gzscript.Script.ModuleLifetimes
import Gzscript.Script.ModuleLog
import Gzscript.Script.ModuleOwners
import Gzscript.Script.ModulePointers
import Gzscript.Script.ObjectFields
import Gzscript.Script.Placeholders
import Gzscript.Script.Refresh
import Gzscript.Script.RefreshCoverage
import Gzscript.Script.Reload
import Gzscript.Script.ResourceSave
import Gzscript.Script.Retention
import Gzscript.Script.SceneSteps
import Gzscript.Script.SilentMigration
