import Raspberries.Lib.Transition
import Raspberries.Lib.Window
import Raspberries.IrAlarm.Trigger
import Raspberries.IrAlarm.Escalation
import Raspberries.IrAlarm.Resume
import Raspberries.IrAlarm.Stop
import Raspberries.IrAlarm.RaisedAlarm
import Raspberries.IrAlarm.GpioPaths
import Raspberries.IrAlarm.PinModeField
import Raspberries.IrAlarm.IrAlarmCtl
import Raspberries.IrAlarm.Trusted
import Raspberries.IrAlarm.Dispatch
import Raspberries.IrAlarm.HelpText
import Raspberries.IrAlarm.SemMutex
import Raspberries.IrAlarm.LostUpdate
import Raspberries.IrAlarm.ConfigSnapshot
import Raspberries.IrAlarm.Shell
import Raspberries.IrAlarm.CounterWrap
import Raspberries.IrAlarm.FlankCount
import Raspberries.IrAlarm.StatusReports
import Raspberries.IrAlarm.SuspendedWorker
import Raspberries.IrAlarm.Siren
import Raspberries.IrAlarm.CtlMain
import Raspberries.IrAlarm.Startup
import Raspberries.IrAlarm.CpuInfo
import Raspberries.IrAlarm.PoolFailures
import Raspberries.IrAlarm.CtlKilled
import Raspberries.IrAlarm.DataOrder
import Raspberries.IrAlarm.XmppStop
import Raspberries.IrAlarm.PwmFrame
import Raspberries.IrAlarm.ShellGrammar
import Raspberries.IrAlarm.Deadlock
import Raspberries.IrAlarm.PinOrder
import Raspberries.IrAlarm.Shutdown
import Raspberries.NetLed.CapturedBytes
import Raspberries.NetLed.Main
import Raspberries.NetLed.BlinkCount
import Raspberries.PortExpander.TestOut
import Raspberries.PortExpander.Writers
import Raspberries.PortExpander.FailedTransfers
import Raspberries.PortExpander.PortexInit
