import PiVccu.FakeHmrf
import PiVccu.RawUartRx
import PiVccu.Eq3LoopFifo
import PiVccu.Eq3LoopLifetime
import PiVccu.Eq3LoopSession
import PiVccu.HbRfEthLed
import PiVccu.HbRfEthDatagram
import PiVccu.HbRfEthPump
import PiVccu.RawUartLifetime
import PiVccu.RadioModuleOutcome
import PiVccu.DevKeyReturns
import PiVccu.FrameChecksum
import PiVccu.FakeHmrfWrite
import PiVccu.Eq3LoopWaits
import PiVccu.RawUartReferences
import PiVccu.RawUartDevices
import PiVccu.RawUartChars
import PiVccu.RadioModuleBound
import PiVccu.HbRfUsb2Config
import PiVccu.HbRfUsb2Items
import PiVccu.HbRfUsbUrb
import PiVccu.HmFrameRoom
import PiVccu.StreamParserFraming
import PiVccu.Eq3LoopEvents
import PiVccu.BigintFastMemory
import PiVccu.PatientDetection
import PiVccu.HbRfEthReceive
import PiVccu.Eq3LoopWakeUps
import PiVccu.HbRfUsbTx
import PiVccu.RawUartWakeUps
import PiVccu.HbRfEthFaults
