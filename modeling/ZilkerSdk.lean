import ZilkerSdk.Automation.Restart
import ZilkerSdk.Comm.MessageQueue.Lifecycle
import ZilkerSdk.Concurrent.BlockingQueue
import ZilkerSdk.Concurrent.DelayedTask.Forced
import ZilkerSdk.Concurrent.DelayedTask.Handles
import ZilkerSdk.Concurrent.RepeatingTask
import ZilkerSdk.Concurrent.ThreadPool.Service
import ZilkerSdk.Concurrent.WaitingForRoom
import ZilkerSdk.Config.ProtectConfig
import ZilkerSdk.Config.Sessions
import ZilkerSdk.Config.SimpleProtect
import ZilkerSdk.Descriptors.Firmware
import ZilkerSdk.Descriptors.VersionComparison
import ZilkerSdk.Descriptors.VersionRange
import ZilkerSdk.Device.CommWatchdog
import ZilkerSdk.Device.Database.WriteBack
import ZilkerSdk.Device.Discovery
import ZilkerSdk.Device.DoorLock.PinUpdate
import ZilkerSdk.Device.LegacySecurity.Godparent
import ZilkerSdk.Device.LegacySecurity.Latch
import ZilkerSdk.Device.PatternWrite.Delivery
import ZilkerSdk.Device.Reconfiguration.Survival
import ZilkerSdk.Device.RemovalMarks
import ZilkerSdk.Device.ResourceUpdates
import ZilkerSdk.Device.Serialization.RoundTrip
import ZilkerSdk.Device.Zigbee.ChannelScan
import ZilkerSdk.Device.ZigbeeDiscovery
import ZilkerSdk.Ipc.EventConsumer
import ZilkerSdk.Ipc.FrameIntegrity
import ZilkerSdk.Props.Restore
import ZilkerSdk.Props.Restrictions
import ZilkerSdk.Props.SourcePriority
import ZilkerSdk.Rule.ConstraintCompiler
import ZilkerSdk.Rule.Schedule
import ZilkerSdk.Rule.TimeWindow
import ZilkerSdk.Time.TimeUtils
import ZilkerSdk.Types.FifoBuffer
import ZilkerSdk.Types.HashMap.ListModel
import ZilkerSdk.Types.SortedLinkedList
import ZilkerSdk.Url.Dispatch
import ZilkerSdk.Util.StringEdit
import ZilkerSdk.Util.Version
import ZilkerSdk.Watchdog.RestartCall
import ZilkerSdk.Watchdog.Startup
import ZilkerSdk.Zhal.Release
