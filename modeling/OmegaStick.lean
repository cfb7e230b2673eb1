import OmegaStick.Library.Transition
import OmegaStick.Library.MachineFloat
import OmegaStick.Store.PowerCut
import OmegaStick.Service.Hold
import OmegaStick.Firmware.SimOta
import OmegaStick.Firmware.HealthCheck
import OmegaStick.Device.SharedHold
import OmegaStick.Device.Neutral
import OmegaStick.Device.Handoff
import OmegaStick.Library.Interleaving
import OmegaStick.Device.Tasks
import OmegaStick.Device.StoreOrder
import OmegaStick.Device.Saves
import OmegaStick.Device.LiveJoystick
import OmegaStick.Firmware.ResetLog
import OmegaStick.Firmware.Handover
import OmegaStick.Firmware.CrashLoop
import OmegaStick.Console.Framing
import OmegaStick.Console.Exchange
import OmegaStick.Console.Diagnostics
import OmegaStick.Service.Deferred
import OmegaStick.Firmware.ResetLogPowerCut
import OmegaStick.Firmware.ResetLogLines
import OmegaStick.Firmware.ResetLogFaults
import OmegaStick.Device.Backstop
import OmegaStick.Service.AllOrNothing
import OmegaStick.Device.UploadIntegrity
import OmegaStick.Console.OwnAnswer
import OmegaStick.Console.Confirm
import OmegaStick.Console.SensorWait
import OmegaStick.Console.FirmwareImage
import OmegaStick.Console.QuietFlush
import OmegaStick.Library.History
import OmegaStick.Calibration.MonitorHistory
import OmegaStick.Control.TickCases
import OmegaStick.Device.SensorStatus
import OmegaStick.Device.PublishedStatus
import OmegaStick.Library.FloatOrder
import OmegaStick.Calibration.Bracketing
import OmegaStick.Device.Limits
import OmegaStick.Device.TickHistory
import OmegaStick.Device.IdleDwell
import OmegaStick.Device.DriftBounds
import OmegaStick.Device.FreshPush
import OmegaStick.Calibration.SingleSpike
import OmegaStick.Calibration.Deadzones
import OmegaStick.Device.CounterRange
import OmegaStick.Library.Digits
import OmegaStick.Library.ByteView
import OmegaStick.Library.SixDigits
import OmegaStick.Library.DecimalRead
import OmegaStick.Calibration.FileRoundTrip
import OmegaStick.Calibration.SaveCycles
import OmegaStick.Library.DecimalFloat
import OmegaStick.Device.SettingsRoundTrip
import OmegaStick.Library.Unicode
import OmegaStick.Library.JsonText
import OmegaStick.Library.Stringify
import OmegaStick.Simulator.Json
import OmegaStick.Simulator.ReadString
import OmegaStick.Simulator.ReadNumber
import OmegaStick.Simulator.ReadBack
import OmegaStick.Simulator.Script
import OmegaStick.Simulator.Validate
import OmegaStick.Simulator.Meaning
import OmegaStick.Simulator.SameExpect
import OmegaStick.Simulator.SameKinds
import OmegaStick.Simulator.SameActions
import OmegaStick.Simulator.SameSteps
import OmegaStick.Simulator.SameScripts
import OmegaStick.Console.Reconnect
import OmegaStick.Library.Utf8Boundary
import OmegaStick.Service.ReplyText
import OmegaStick.Library.BitField
import OmegaStick.Sensor.Tmag5273
import OmegaStick.Sensor.FieldsIndependent
import OmegaStick.Library.JsonGrammar
import OmegaStick.Simulator.Grammar
import OmegaStick.Simulator.Dump
import OmegaStick.Firmware.FlashRuns
import OmegaStick.Library.KeyValueText
import OmegaStick.Firmware.FlashFile
import OmegaStick.Firmware.FlashRestart
import OmegaStick.Library.Incremental
import OmegaStick.Simulator.WebSocket
import OmegaStick.Simulator.WebSocketStreams
import OmegaStick.Library.StopAndWait
import OmegaStick.Device.UploadEndToEnd
import OmegaStick.Device.SimUpload
import OmegaStick.Simulator.Handshake
import OmegaStick.Simulator.WsServer
import OmegaStick.Console.Controls
