import GpibUtils.Blocks
import GpibUtils.CSem.Number
import GpibUtils.Ini.Parse
import GpibUtils.Ini.Written
import GpibUtils.Inst.Block4882
import GpibUtils.Inst.Commands
import GpibUtils.Inst.ConfigFile
import GpibUtils.Inst.ConfigTable
import GpibUtils.Inst.ConfigText
import GpibUtils.Inst.Exits
import GpibUtils.Inst.GenericRead
import GpibUtils.Inst.LooseAddress
import GpibUtils.Inst.Poll
import GpibUtils.Inst.SerialMode
import GpibUtils.Inst.Session
import GpibUtils.Inst.Setup
import GpibUtils.Inst.Strings
import GpibUtils.Inst.Timeouts
import GpibUtils.Inst.VxiName
import GpibUtils.Lsd.Hash
import GpibUtils.Lsd.Hostlist
import GpibUtils.Lsd.HostlistCreate
import GpibUtils.Lsd.HostlistIterator
import GpibUtils.Lsd.HostlistReckless
import GpibUtils.Lsd.HostlistSort
import GpibUtils.Lsd.HostlistString
import GpibUtils.Tools.Hp3488
import GpibUtils.Tools.Hp3488Config
import GpibUtils.Tools.Hp3488Disambiguate
import GpibUtils.Tools.Hp3488Probe
import GpibUtils.Tools.Hp3488Session
import GpibUtils.Tools.Hp3488Targets
import GpibUtils.Tools.IbqueryShell
import GpibUtils.Tools.Ics8064Relays
import GpibUtils.Tools.Ics8064Status
import GpibUtils.Tools.Ics8064Targets
import GpibUtils.Tools.IcsconfigErrlog
import GpibUtils.Tools.IcsconfigGet
import GpibUtils.Tools.IcsconfigList
import GpibUtils.Util.Argv
import GpibUtils.Util.Hpcrc
import GpibUtils.Util.Strcpyprint
import GpibUtils.Util.Transfer
import GpibUtils.Vxi11.Errors
import GpibUtils.Vxi11.Links
import GpibUtils.Vxi11.Locking
import GpibUtils.Vxi11.Progress
import GpibUtils.Vxi11.Timeout
