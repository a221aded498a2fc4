import Akaris.Physmem.Watermarks
import Akaris.Slab.Runs
import Akaris.AddressSpace.Regions
import Akaris.Boot.MemoryMap
import Akaris.Lib.BitField
import Akaris.Virtmem.Machine
import Akaris.Virtmem.Defs
import Akaris.Virtmem.Tables
import Akaris.Scheduler.Defs
import Akaris.Scheduler.Runs
import Akaris.AddressSpace.Flags
import Akaris.Physmem.DoubleFree
import Akaris.Physmem.Transparency
import Akaris.Physmem.Chain
import Akaris.Boot.Prune
import Akaris.Virtmem.Windows
import Akaris.AddressSpace.Lookup
import Akaris.Slab.Geometry
import Akaris.Virtmem.KernelPages
import Akaris.AddressSpace.Mapping
import Akaris.AddressSpace.Retries
import Akaris.Virtmem.Brk
import Akaris.Virtmem.Failures
import Akaris.Virtmem.Setup
import Akaris.Virtmem.Objects
import Akaris.Virtmem.Allocations
import Akaris.Virtmem.Copy
import Akaris.Virtmem.CopyExact
import Akaris.Buddy
import Akaris.Text.Defs
import Akaris.Text.Itoa
import Akaris.Text.Search
import Akaris.Text.Format
import Akaris.Text.Printf
import Akaris.Text.Console
import Akaris.Slab.Sizes
import Akaris.Virtmem.Localmem
import Akaris.Virtmem.Traces
import Akaris.Virtmem.PageWalks
import Akaris.Virtmem.Balance
import Akaris.Virtmem.KernelHalf
import Akaris.Virtmem.Loader
import Akaris.Virtmem.PageHistory
import Akaris.Boot.Count
import Akaris.Boot.Kernel
import Akaris.Interrupt.Defs
import Akaris.Interrupt.Tables
import Akaris.Interrupt.Context
