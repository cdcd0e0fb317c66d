import PiousOS.Core.CInt
import PiousOS.Core.RadixTree
import PiousOS.Core.ByteMem
import PiousOS.Core.Strided
import PiousOS.Core.Terminal
import PiousOS.Core.TextLayout
import PiousOS.Core.Numeral
import PiousOS.Core.BinaryFloat
import PiousOS.Core.EarlyReturn
import PiousOS.Core.SearchLoop
import PiousOS.Core.Holdings
import PiousOS.Core.WordStack
import PiousOS.Core.Enumeration
import PiousOS.Core.RadixWords
import PiousOS.Core.Terminated
import PiousOS.Core.TokenCode
import PiousOS.L1Encoding.Elf
import PiousOS.L2Machine.Paging
import PiousOS.L2Machine.X86
import PiousOS.L2Machine.StackCode
import PiousOS.L2Machine.CpuTables
import PiousOS.L2Machine.Descriptors
import PiousOS.L3Loader.MapVirtualPages
import PiousOS.L3Loader.MapTables
import PiousOS.L3Loader.MapFrame
import PiousOS.L3Loader.FreeAddress
import PiousOS.L3Loader.LoadSegments
import PiousOS.L3Loader.AllocateImage
import PiousOS.L3Loader.ExitServices
import PiousOS.L3Loader.BootKernel
import PiousOS.L3Loader.ElfImage
import PiousOS.L3Loader.MapHandover
import PiousOS.L3Loader.KernelEntry
import PiousOS.L3Loader.ZeroedImage
import PiousOS.L3Loader.MapSearch
import PiousOS.L3Loader.SearchEnds
import PiousOS.L3Loader.SearchStuck
import PiousOS.L3Loader.PageCandidates
import PiousOS.L3Loader.RegionOrder
import PiousOS.L3Loader.MapOnce
import PiousOS.L3Loader.MapFailure
import PiousOS.L3Loader.MapWalk
import PiousOS.L3Loader.SharedTables
import PiousOS.L3Loader.HeaderStride
import PiousOS.L3Loader.ShortReads
import PiousOS.L3Loader.ImageSpan
import PiousOS.L3Loader.WallOfShame
import PiousOS.L3Loader.GraphicsMode
import PiousOS.L3Loader.ModeSelection
import PiousOS.L3Loader.GraphicsFilled
import PiousOS.L3Loader.DeviceNames
import PiousOS.L3Loader.NamedDevices
import PiousOS.L3Loader.NamingSearch
import PiousOS.L3Loader.EfiMain
import PiousOS.L3Loader.ModeSource
import PiousOS.L4Kernel.System
import PiousOS.L4Kernel.PrintInteger
import PiousOS.L4Kernel.PrintFloat
import PiousOS.L4Kernel.PrintString
import PiousOS.L4Kernel.PrintedNumbers
import PiousOS.L4Kernel.FormatScan
import PiousOS.L4Kernel.FormatLanguage
import PiousOS.L4Kernel.Scroll
import PiousOS.L4Kernel.InterruptStub
import PiousOS.L4Kernel.Console
import PiousOS.L4Kernel.ConsoleText
import PiousOS.L4Kernel.KernelMain
import PiousOS.L4Kernel.MaxAddress
import PiousOS.L4Kernel.CompareMemory
import PiousOS.L4Kernel.CopyMemory
import PiousOS.L4Kernel.GateTable
import PiousOS.L4Kernel.Dispatch
import PiousOS.L4Kernel.Nesting
import PiousOS.L4Kernel.ScreenMemory
import PiousOS.L4Kernel.RunningKernel
import PiousOS.L4Kernel.SharedStack
import PiousOS.L4Kernel.RamTotals
import PiousOS.L5System.PowerOn
