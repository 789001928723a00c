import NullOS.Ipc.PipeBlocking
import NullOS.Kernel.ClaimRace
import NullOS.Kernel.PipeRefs
import NullOS.Process.ReturnPid
import NullOS.Process.ReadyFormed
import NullOS.Process.Waiting
import NullOS.Kernel.DiskGate
import NullOS.Boot.Protocol
import NullOS.Fat16.AnyDiskRun
import NullOS.Fat16.Crash
import NullOS.Fat16.ShortNames
import NullOS.Memory.HeapWhole
import NullOS.Fat16.Failures
import NullOS.Memory.Reserve
import NullOS.Memory.ElfBounds
import NullOS.Memory.ForkCopy
import NullOS.Kernel.Exec
import NullOS.Kernel.ReadPipe
import NullOS.Kernel.WriteFile
import NullOS.Boot.AnyText
import NullOS.User.Sinks
import NullOS.User.Integers
import NullOS.Vfs.RamImage
import NullOS.Fat16.FreeChain
import NullOS.Process.Sleep
import NullOS.Input.Keyboard
import NullOS.Process.RoundRobin
import NullOS.Console.Vga
import NullOS.Console.SafeCat
