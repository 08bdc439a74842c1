import RmMicroControllers.App.Transmission
import RmMicroControllers.App.Buses
import RmMicroControllers.App.Preemption
import RmMicroControllers.App.FailSafe
import RmMicroControllers.App.CurrentLimit
import RmMicroControllers.App.DeviceDict
import RmMicroControllers.App.GimbalOrigin
import RmMicroControllers.Tool.Dbus
import RmMicroControllers.Tool.DoubleBuffer
import RmMicroControllers.Freertos.Allocators
import RmMicroControllers.Freertos.ZeroAllocation
import RmMicroControllers.App.AngleError
import RmMicroControllers.App.RemoteCommand
import RmMicroControllers.Tool.UsbCdc
import RmMicroControllers.Tool.UsbTransfer
import RmMicroControllers.Tool.UsbStream
import RmMicroControllers.Tool.UsbSerial
import RmMicroControllers.Tool.UsbControl
import RmMicroControllers.Tool.CacheTermination
import RmMicroControllers.Tool.UsbReceive
import RmMicroControllers.Tool.PidForms
import RmMicroControllers.Tool.PidLimits
import RmMicroControllers.Devices.Bmi088Init
import RmMicroControllers.App.SensorUnit
import RmMicroControllers.Override
import RmMicroControllers.Tool.CacheBounds
import RmMicroControllers.App.FeedbackWindow
import RmMicroControllers.Freertos.HeapStats
import RmMicroControllers.Freertos.HeapShape
import RmMicroControllers.App.CommandBus
import RmMicroControllers.App.RemoteReceiver
import RmMicroControllers.App.MotorIsolation
import RmMicroControllers.App.Progress
import RmMicroControllers.App.EchoControl
import RmMicroControllers.App.SensorTasks
