import ClockCalibration.Bus.Scripted
import ClockCalibration.Node.Operation
import ClockCalibration.Radio.Scripted
import ClockCalibration.Transceiver.Radio
import ClockCalibration.Proofs.Acknowledgement
import ClockCalibration.Proofs.Admission
import ClockCalibration.Proofs.Airing
import ClockCalibration.Proofs.Cadence
import ClockCalibration.Proofs.Clock
import ClockCalibration.Proofs.Creation
import ClockCalibration.Proofs.Cycle
import ClockCalibration.Proofs.Delivery
import ClockCalibration.Proofs.Deltas
import ClockCalibration.Proofs.EventLog
import ClockCalibration.Proofs.FailedReception
import ClockCalibration.Proofs.Intervals
import ClockCalibration.Proofs.Listening
import ClockCalibration.Proofs.Numbering
import ClockCalibration.Proofs.Payload
import ClockCalibration.Proofs.Polling
import ClockCalibration.Proofs.Postprocessing
import ClockCalibration.Proofs.Records
import ClockCalibration.Proofs.Release
import ClockCalibration.Proofs.Restart
import ClockCalibration.Proofs.Roles
import ClockCalibration.Proofs.Stop
import ClockCalibration.Proofs.Timer
import ClockCalibration.Proofs.Timetable
import ClockCalibration.Proofs.Tracking
import ClockCalibration.Proofs.Transceiver.Blink
import ClockCalibration.Proofs.Transceiver.FrameControl
import ClockCalibration.Proofs.Transceiver.Handshake
import ClockCalibration.Proofs.Transceiver.Header
import ClockCalibration.Proofs.Transceiver.Value
import ClockCalibration.Proofs.Validity
import ClockCalibration.Proofs.Wire.Buffer
import ClockCalibration.Proofs.Wire.RoundTrip
import ClockCalibration.Proofs.Provenance
