import CoapsClient.Machine.Buffer
import CoapsClient.Machine.CString
import CoapsClient.Machine.Chunks
import CoapsClient.Machine.Crc
import CoapsClient.Machine.Episode
import CoapsClient.Machine.Hexadecimal
import CoapsClient.Machine.Integer
import CoapsClient.Machine.Lines
import CoapsClient.Machine.Linked
import CoapsClient.Machine.Memory
import CoapsClient.Machine.Mutex
import CoapsClient.Machine.Notices
import CoapsClient.Machine.Numeral
import CoapsClient.Machine.Packing
import CoapsClient.Machine.Path
import CoapsClient.Machine.Placing
import CoapsClient.Machine.Print
import CoapsClient.Machine.Region
import CoapsClient.Machine.RingLog
import CoapsClient.Machine.Separated
import CoapsClient.Machine.SlidingWindow
import CoapsClient.Machine.Spans
import CoapsClient.Machine.Threads
import CoapsClient.Machine.WorkQueue
import CoapsClient.Machine.Writer
import CoapsClient.Math.BigEndian
import CoapsClient.Math.Interpolation
import CoapsClient.Math.Rounding
import CoapsClient.Math.Spread
import CoapsClient.Math.Units
import CoapsClient.Model.Coap.Client
import CoapsClient.Model.Coap.Descriptions
import CoapsClient.Model.Coap.EnvInfo
import CoapsClient.Model.Coap.Payload
import CoapsClient.Model.Coap.Query
import CoapsClient.Model.Coap.Report
import CoapsClient.Model.Coap.Time
import CoapsClient.Model.Diagnose.Diagnose
import CoapsClient.Model.Dtls.Appl
import CoapsClient.Model.Dtls.Client
import CoapsClient.Model.Dtls.Flight
import CoapsClient.Model.Dtls.Loop
import CoapsClient.Model.Dtls.RetryAndFailures
import CoapsClient.Model.Dtls.Steps
import CoapsClient.Model.Environment.History
import CoapsClient.Model.Environment.Sht21
import CoapsClient.Model.Location.Gnss
import CoapsClient.Model.Modem.AtCommands
import CoapsClient.Model.Modem.Bands
import CoapsClient.Model.Modem.Cells
import CoapsClient.Model.Modem.Coverage
import CoapsClient.Model.Modem.ModemAt
import CoapsClient.Model.Modem.Monitor
import CoapsClient.Model.Modem.Psm
import CoapsClient.Model.Modem.Ready
import CoapsClient.Model.Modem.Sim
import CoapsClient.Model.Modem.Statistic
import CoapsClient.Model.Modem.Status
import CoapsClient.Model.Power.Forecast
import CoapsClient.Model.Power.Suspend
import CoapsClient.Model.Power.Voltage
import CoapsClient.Model.Scale.Calibration
import CoapsClient.Model.Scale.Channel
import CoapsClient.Model.Scale.Saving
import CoapsClient.Model.Settings.Commands
import CoapsClient.Model.Settings.KeyDecoding
import CoapsClient.Model.Settings.Provisioning
import CoapsClient.Model.Settings.Reboots
import CoapsClient.Model.Settings.Reset
import CoapsClient.Model.Settings.Settings
import CoapsClient.Model.Shell.Dispatch
import CoapsClient.Model.Shell.Editor
import CoapsClient.Model.Shell.Holders
import CoapsClient.Model.Shell.Lookup
import CoapsClient.Model.Shell.Machine
import CoapsClient.Model.Shell.Parameters
import CoapsClient.Model.Shell.Steps
import CoapsClient.Model.Shell.Text
import CoapsClient.Model.Shell.UartOutput
import CoapsClient.Model.Storage.Walks
import CoapsClient.Model.Storage.Device
import CoapsClient.Model.Storage.Eeprom
import CoapsClient.Model.Storage.Faults
import CoapsClient.Model.Storage.Flash
import CoapsClient.Model.Storage.Geometry
import CoapsClient.Model.Storage.Layout
import CoapsClient.Model.Storage.Pages
import CoapsClient.Model.Storage.Recycle
import CoapsClient.Model.Storage.ApplStorage
import CoapsClient.Model.Storage.Store
import CoapsClient.Model.Storage.Stored
import CoapsClient.Model.Storage.Write
import CoapsClient.Model.Ui.Button
import CoapsClient.Model.Ui.LedTasks
import CoapsClient.Model.Update.Client
import CoapsClient.Model.Update.Command
import CoapsClient.Model.Update.ApplUpdate
import CoapsClient.Model.Update.Steps
import CoapsClient.Model.Update.Uart
import CoapsClient.Model.Update.UartSteps
import CoapsClient.Model.Update.Xmodem
import CoapsClient.Soundness.ApplyCommand
import CoapsClient.Soundness.AtCommands
import CoapsClient.Soundness.AtLockScope
import CoapsClient.Soundness.BackOff
import CoapsClient.Soundness.BandList
import CoapsClient.Soundness.BatteryForecast
import CoapsClient.Soundness.BufferOwnership
import CoapsClient.Soundness.ButtonPresses
import CoapsClient.Soundness.CalibrationStored
import CoapsClient.Soundness.CellRanking
import CoapsClient.Soundness.CellScan
import CoapsClient.Soundness.FotaCommand
import CoapsClient.Soundness.CommandLookup
import CoapsClient.Soundness.CommandsOnce
import CoapsClient.Soundness.CountryPlmn
import CoapsClient.Soundness.CoverageScale
import CoapsClient.Soundness.CurveTransform
import CoapsClient.Soundness.DeviceSection
import CoapsClient.Soundness.DownloadComplete
import CoapsClient.Soundness.DownloadIntegrity
import CoapsClient.Soundness.DownloadIndependent
import CoapsClient.Soundness.DownloadRepresentation
import CoapsClient.Soundness.DownloadSize
import CoapsClient.Soundness.EepromLog
import CoapsClient.Soundness.EnvironmentReport
import CoapsClient.Soundness.EnvironmentSection
import CoapsClient.Soundness.FailureEscalation
import CoapsClient.Soundness.FlashLog
import CoapsClient.Soundness.FlightRecords
import CoapsClient.Soundness.ForecastDays
import CoapsClient.Soundness.GnssScanning
import CoapsClient.Soundness.ImeiExpansion
import CoapsClient.Soundness.InvalidValues
import CoapsClient.Soundness.KeyBuffers
import CoapsClient.Soundness.LedTasks
import CoapsClient.Soundness.LineEditing
import CoapsClient.Soundness.LocationCommands
import CoapsClient.Soundness.MessageAssembly
import CoapsClient.Soundness.ModemPending
import CoapsClient.Soundness.ModemStatistic
import CoapsClient.Soundness.MonitorCut
import CoapsClient.Soundness.MonitorNames
import CoapsClient.Soundness.MonitorParameters
import CoapsClient.Soundness.MonitorRecord
import CoapsClient.Soundness.MonitorTimers
import CoapsClient.Soundness.NestedOff
import CoapsClient.Soundness.NetworkMonitor
import CoapsClient.Soundness.NetworkSections
import CoapsClient.Soundness.NetworkStates
import CoapsClient.Soundness.NumericParameters
import CoapsClient.Soundness.OpenTransfer
import CoapsClient.Soundness.PayloadCommands
import CoapsClient.Soundness.PeriodicSending
import CoapsClient.Soundness.PlmnDecoding
import CoapsClient.Soundness.PlmnEncoding
import CoapsClient.Soundness.PlmnFormat
import CoapsClient.Soundness.PowerLoss
import CoapsClient.Soundness.PowerSuspend
import CoapsClient.Soundness.PriorityRecord
import CoapsClient.Soundness.ProvisioningText
import CoapsClient.Soundness.PsmRequests
import CoapsClient.Soundness.QueryRewriting
import CoapsClient.Soundness.QueueProgress
import CoapsClient.Soundness.QuoteStripping
import CoapsClient.Soundness.ReadErrors
import CoapsClient.Soundness.ReadPaths
import CoapsClient.Soundness.ReadyJobs
import CoapsClient.Soundness.RebootHistory
import CoapsClient.Soundness.RebootThread
import CoapsClient.Soundness.ReportDescriptions
import CoapsClient.Soundness.RequestCompletion
import CoapsClient.Soundness.RequestLife
import CoapsClient.Soundness.RequestRun
import CoapsClient.Soundness.ResponseMatching
import CoapsClient.Soundness.RestartCause
import CoapsClient.Soundness.ScaleCalibration
import CoapsClient.Soundness.ScaleConfiguration
import CoapsClient.Soundness.ScaleChannel
import CoapsClient.Soundness.ScaleTare
import CoapsClient.Soundness.SendInterval
import CoapsClient.Soundness.SendTrigger
import CoapsClient.Soundness.SensorSections
import CoapsClient.Soundness.ServiceTable
import CoapsClient.Soundness.SettingsGet
import CoapsClient.Soundness.SettingsReboot
import CoapsClient.Soundness.Sht21Reading
import CoapsClient.Soundness.SlotGrid
import CoapsClient.Soundness.TimeOption
import CoapsClient.Soundness.UartOutput
import CoapsClient.Soundness.UnlockWindow
import CoapsClient.Soundness.VoltageRegression
import CoapsClient.Soundness.WatchdogChain
import CoapsClient.Soundness.WriteResult
import CoapsClient.Soundness.XmodemBursts
import CoapsClient.Soundness.XmodemResync
import CoapsClient.Soundness.XmodemSequence
import CoapsClient.Soundness.XmodemTimers
