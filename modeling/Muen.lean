import Muen.Lib.CursorList
import Muen.Tools.Intervals
import Muen.Tools.AllocMap
import Muen.Components.Muchannel
import Muen.Tools.Paging.Layouts
import Muen.Lib.Bytes
import Muen.Tools.Paging.Ept
import Muen.Tools.Paging.References
import Muen.Tools.Paging.Image
import Muen.Tools.Ptwalk
import Muen.Kernel.Policy
import Muen.Kernel.State
import Muen.Lib.Atomic
import Muen.Lib.Links
import Muen.Kernel.Scheduler
import Muen.Kernel.SchedulerSpec
import Muen.Kernel.TimerListRuns
import Muen.Kernel.Handlers
import Muen.Kernel.HandlerSpec
import Muen.Kernel.Barriers
import Muen.Kernel.Frames
import Muen.Kernel.FrameBarriers
import Muen.Kernel.PlanBarriers
import Muen.Components.Ahci.Device
import Muen.Components.Ahci.Server
import Muen.Components.MuenblockClient
import Muen.Components.Controller.Init
import Muen.Components.Controller.Lifecycle
import Muen.Components.Controller.Erase
import Muen.Components.Dm.Addrspace
import Muen.Components.Dm.Pciconf
import Muen.Components.Dm.PciconfSpec
import Muen.Tools.AllocMapFree
import Muen.Tools.AllocMapInsert
import Muen.Tools.Mucfgalloc.Allocator
import Muen.Tools.Mucfgalloc.FixedMap
import Muen.Tools.Mucfgalloc.Requests
import Muen.Tools.Mucfgalloc.AllocatorSpec
import Muen.Tools.AllocMapAddresses
import Muen.Tools.Expanders.Utils
import Muen.Kernel.Interrupts
import Muen.Kernel.Xcr0
import Muen.Kernel.FindGroup
import Muen.Components.Ahci.Mbr
import Muen.Kernel.TargetEvents
import Muen.Kernel.MinorFrameRuns
import Muen.Tools.Mucfgcheck.Scheduling
import Muen.Tools.Mucfgcheck.SchedulingRuns
import Muen.Tools.Paging.SmallPages
import Muen.Tools.Paging.Traversal
import Muen.Tools.Expanders.XmlUtils
import Muen.Tools.Mugentau0cmds.Roots
import Muen.Tools.Mugentau0cmds.PageTables
import Muen.Kernel.TimedEvents
import Muen.Kernel.WakeUps
import Muen.Kernel.Exits
import Muen.Components.Vt.ConsoleVga
import Muen.Components.Vt.TerminalScreen
import Muen.Components.Vt.CsiParams
import Muen.Components.Vt.TerminalRuns
import Muen.Components.Dm.MsiRules
import Muen.Components.Ahci.Bookkeeping
import Muen.Tools.Paging.PageSizes
import Muen.Tools.Paging.Conflicts
import Muen.Tools.Paging.LargePages
import Muen.Tools.Paging.Codecs
import Muen.Tools.Mugentau0cmds.Memory
import Muen.Tools.Mugentau0cmds.RegionTables
import Muen.Tools.Mugentau0cmds.RegionContent
import Muen.Components.Init.Memory
import Muen.Components.Init.Passes
import Muen.Components.Init.Content
import Muen.Components.Init.Run
import Muen.Tools.VresAlloc.Available
import Muen.Tools.VresAlloc.Resources
import Muen.Tools.VresAlloc.Components
import Muen.Tools.VresAlloc.Subjects
import Muen.Tools.VresAlloc.Disjoint
import Muen.Components.Mutime
import Muen.Lib.Strings
import Muen.Tools.Expressions.References
import Muen.Tools.Expanders.FreeToMap
import Muen.Tools.Expanders.RegionAddress
import Muen.Lib.PathSearch
import Muen.Tools.SchedulingGroups
import Muen.Lib.HeaviestPath
import Muen.Tools.Stackcheck.Types
import Muen.Tools.Stackcheck.Run
import Muen.Lib.Dom
import Muen.Tools.Conditionals.Evaluate
import Muen.Tools.Conditionals.Expansion
import Muen.Tools.Conditionals.Run
import Muen.Lib.OrderedMap
import Muen.Lib.Query
import Muen.Lib.Memo
import Muen.Tools.GrammarTools.OrderInformation
import Muen.Tools.GrammarTools.Types
import Muen.Tools.GrammarTools.Closure
import Muen.Tools.GrammarTools.InsertIndex
import Muen.Tools.GrammarTools.Filter
import Muen.Tools.NextNode
import Muen.Tools.Paging.SparseTables
import Muen.Kernel.CrashAudit
import Muen.Components.Dbgserver.ByteQueue
import Muen.Components.Dbgserver.Buffers
import Muen.Components.Dbgserver.LogServer
import Muen.Components.Dbgserver.LogServerSpec
import Muen.Lib.Hedge
import Muen.Tools.XmlTemplates.Document
import Muen.Tools.XmlTemplates.PrefixVariables
import Muen.Tools.XmlTemplates.Expand
import Muen.Tools.XmlTemplates.Renaming
import Muen.Tools.XmlTemplates.CompileTemplate
import Muen.Tools.XmlTemplates.Calls
import Muen.Tools.XmlTemplates.Instances
import Muen.Tools.XmlTemplates.Rounds
import Muen.Tools.XmlTemplates.Unfolding
import Muen.Tools.XmlTemplates.Hygiene
import Muen.Tools.Expressions.Expand
import Muen.Tools.Mucfgmerge
import Muen.Kernel.Isolation
import Muen.Lib.Aggregates
import Muen.Tools.SystemPolicy
import Muen.Tools.Mucfgcheck.Checks
import Muen.Tools.Mucfgcheck.Events
import Muen.Tools.Mucfgcheck.Subjects
import Muen.Tools.Mucfgcheck.Devices
import Muen.Tools.Mugenspec.Events
import Muen.Tools.Mugenspec.TargetEvents
import Muen.Tools.Mugenspec.Interrupts
import Muen.Tools.Mugenspec.Policies
