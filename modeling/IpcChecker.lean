import IpcChecker.RingGuarantees
import IpcChecker.RingSafety
import IpcChecker.StartupSafety
import IpcChecker.ConnectorRelease
import IpcChecker.MeasurerConnections
import IpcChecker.ReceivingLoop
import IpcChecker.Pipe
import IpcChecker.NetworkFormat
import IpcChecker.Decoding
import IpcChecker.GeneratedStream
import IpcChecker.MeasurementResult
import IpcChecker.Quantiles
import IpcChecker.ReverseOrder
import IpcChecker.ConnectionOptions
import IpcChecker.RunTestMeasurement
import IpcChecker.Meeting
import IpcChecker.MeasurementOutcome
