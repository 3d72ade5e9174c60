import Msopcom.Words
import Msopcom.OrderedSet
import Msopcom.Protocol
import Msopcom.Runs
import Msopcom.KeyedList
import Msopcom.FuelLoop
import Msopcom.MemoryManage
import Msopcom.MemoryManageCount
import Msopcom.MemoryManageCoverage
import Msopcom.MemoryManageFrame
import Msopcom.OpMemInfo
import Msopcom.ReportOp
import Msopcom.ReportOpAgreement
import Msopcom.ReportOpUndo
import Msopcom.SanitizerLaunch
import Msopcom.SanitizerLaunchScope
import Msopcom.Layout
import Msopcom.RecordLayout
import Msopcom.RecordLayoutBounds
import Msopcom.BitFields
import Msopcom.BlockReport
import Msopcom.BlockReportFraming
import Msopcom.BlockReportLeftovers
import Msopcom.Bytes
import Msopcom.Splice
import Msopcom.LaunchArgs
import Msopcom.LaunchArgsView
import Msopcom.RunLength
import Msopcom.ShadowMemory
import Msopcom.StatusWord
import Msopcom.ShadowMemoryDecoding
import Msopcom.ShadowMemoryReport
import Msopcom.ShadowMemoryBody
import Msopcom.ArgsHandleContext
import Msopcom.ArgsHandleRelaunch
import Msopcom.ArgsHandleCache
import Msopcom.KernelMetaDataParser
import Msopcom.MetaRecord
import Msopcom.MetaWalk
import Msopcom.MetaRecordView
import Msopcom.MetaFraming
import Msopcom.MetaSection
import Msopcom.MetaEncode
import Msopcom.MetaSecondPtr
import Msopcom.InteractHelper
import Msopcom.DomainSocket
import Msopcom.MsTxRange
import Msopcom.MsTxHandles
import Msopcom.MsTxConsistency
import Msopcom.BindSanitizer
import Msopcom.MstxLedger
import Msopcom.MstxReports
import Msopcom.MstxMatching
import Msopcom.MemoryContext
import Msopcom.MemorySnapshots
import Msopcom.ElfLoader
import Msopcom.ElfLoaderBounds
import Msopcom.IPCMemManager
import Msopcom.IPCMemHistory
import Msopcom.SectionsUndo
import Msopcom.LocalProcess
import Msopcom.SimtLayout
import Msopcom.SimtLayoutBounds
import Msopcom.Checkpoint
import Msopcom.KernelReplay
import Msopcom.ReplayMemory
import Msopcom.ReplayTransparency
import Msopcom.ProgramStart
import Msopcom.ProgramStartRuns
import Msopcom.InstrumentedLaunch
import Msopcom.InstrumentedArgs
import Msopcom.DBITask
import Msopcom.TaskReuse
import Msopcom.LaunchHistory
import Msopcom.Decoder
import Msopcom.MSBit
import Msopcom.MSBitRoundTrip
import Msopcom.ShadowMemoryReads
import Msopcom.ArgsImageReads
import Msopcom.ArgsImageBounds
import Msopcom.HookPassThrough
import Msopcom.Inbox
import Msopcom.ConfigHandshake
import Msopcom.PatternScan
import Msopcom.ProfConfigReplies
import Msopcom.LayeredRecords
import Msopcom.Ustring
import Msopcom.DumperContext
import Msopcom.KernelConfigParser
import Msopcom.FlatJson
import Msopcom.KernelConfigRoundTrip
import Msopcom.Slots
import Msopcom.KernelRunner
import Msopcom.KernelConfigParams
import Msopcom.LaunchedArgs
import Msopcom.ArgsRawExpand
import Msopcom.GreatestKey
import Msopcom.ArgsRawView
import Msopcom.ArgsRawAtomic
import Msopcom.ArgsRawTiling
import Msopcom.TilingSize
import Msopcom.AdumpScan
import Msopcom.ArgsHandleAddrs
import Msopcom.SecondPtrDecoding
import Msopcom.Intervals
import Msopcom.MergedMems
import Msopcom.ReportedSize
import Msopcom.ElfLoaderReuse
import Msopcom.NotifySent
import Msopcom.ServerAccept
import Msopcom.KernelNameLookup
import Msopcom.Environment
import Msopcom.KernelReplacement
import Msopcom.DevMemManager
import Msopcom.ProfTask
import Msopcom.PmuSchedule
import Msopcom.PmuScheduleRuns
import Msopcom.PmuScheduleChips
import Msopcom.InstrProfFile
import Msopcom.BBCountDumper
import Msopcom.Ledger
import Msopcom.L2CacheBuffers
import Msopcom.StdSort
import Msopcom.KernelConfigOrder
import Msopcom.KernelRunnerRelease
import Msopcom.KernelFilter
import Msopcom.FunctionStart
import Msopcom.StringToNum
import Msopcom.PipeCall
import Msopcom.CamodelHelper
import Msopcom.StackFold
import Msopcom.Path
import Msopcom.PathRoundTrip
import Msopcom.PathFiles
import Msopcom.RangeReplay
import Msopcom.RangeReplayRuns
import Msopcom.RangeReplayCapture
import Msopcom.SocketServer
import Msopcom.SocketServerHooks
import Msopcom.KernelObject
import Msopcom.SymbolTable
import Msopcom.MakeDirs
import Msopcom.MakeDirsRuns
import Msopcom.Interleaving
import Msopcom.HijackedLayers
import Msopcom.Custody
import Msopcom.DFXKernelLauncher
import Msopcom.KernelRegistry
import Msopcom.AclLaunches
