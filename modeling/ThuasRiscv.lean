import ThuasRiscv.Transition
import ThuasRiscv.Signals
import ThuasRiscv.Waveform
import ThuasRiscv.Periods
import ThuasRiscv.ByteStore
import ThuasRiscv.LongDivision
import ThuasRiscv.ShiftRegister
import ThuasRiscv.Isa.Encoding
import ThuasRiscv.Isa.Semantics
import ThuasRiscv.Isa.Hart
import ThuasRiscv.ProcessorCommon
import ThuasRiscv.Core.State
import ThuasRiscv.Core.Decode
import ThuasRiscv.Core.DecodeShape
import ThuasRiscv.Core.Alu
import ThuasRiscv.Core.Shifter
import ThuasRiscv.Core.BitManipulation
import ThuasRiscv.Core.BitCounts
import ThuasRiscv.Core.MulDiv
import ThuasRiscv.Core.Csr
import ThuasRiscv.Core.CsrFrame
import ThuasRiscv.Core.Control
import ThuasRiscv.Core.Step
import ThuasRiscv.Core.Program
import ThuasRiscv.Core.Transitions
import ThuasRiscv.Core.Observer
import ThuasRiscv.Core.TrapEntry
import ThuasRiscv.Core.MdConfinement
import ThuasRiscv.Core.RegisterFile
import ThuasRiscv.Core.Forwarding
import ThuasRiscv.Core.PipelineInvariant
import ThuasRiscv.Core.PreciseResume
import ThuasRiscv.Core.TrapReturn
import ThuasRiscv.Core.SleepIsolation
import ThuasRiscv.Core.CsrWarl
import ThuasRiscv.Core.CsrFile
import ThuasRiscv.Core.NmiLockout
import ThuasRiscv.Core.InstructionsRetired
import ThuasRiscv.Core.HardwareBreakpoint
import ThuasRiscv.Core.IsaDecode
import ThuasRiscv.Core.IsaExecute
import ThuasRiscv.Core.Divider
import ThuasRiscv.Core.Multiply
import ThuasRiscv.Core.CsrInstructions
import ThuasRiscv.Core.CsrReads
import ThuasRiscv.Core.WaitingSlot
import ThuasRiscv.Bus.AddressDecode
import ThuasRiscv.Bus.Mem
import ThuasRiscv.Bus.MemRefinement
import ThuasRiscv.Core.Retirement
import ThuasRiscv.Core.IsaRefinement
import ThuasRiscv.Bus.IoBusSwitch
import ThuasRiscv.Bus.DataBus
import ThuasRiscv.Bus.BusProtocol
import ThuasRiscv.Bus.ErrorData
import ThuasRiscv.Bus.System
import ThuasRiscv.Bus.BusTermination
import ThuasRiscv.Bus.TrapIsolation
import ThuasRiscv.Bus.MtvalLaw
import ThuasRiscv.Isa.Computer
import ThuasRiscv.Bus.InstrRouter
import ThuasRiscv.Bus.Contents
import ThuasRiscv.Bus.SystemMemory
import ThuasRiscv.Bus.StoredProgram
import ThuasRiscv.Io.Watchdog
import ThuasRiscv.Io.WatchdogNmi
import ThuasRiscv.Io.WatchdogTimeout
import ThuasRiscv.Io.UartLink
import ThuasRiscv.Io.Spi
import ThuasRiscv.Io.SpiTransfer
import ThuasRiscv.Io.I2c
import ThuasRiscv.Io.I2cStart
import ThuasRiscv.Io.I2cBits
import ThuasRiscv.Io.TimerB
import ThuasRiscv.Io.TimerPreload
import ThuasRiscv.Io.TimerPwm
import ThuasRiscv.ModuloCounter
import ThuasRiscv.Io.TimerA
import ThuasRiscv.Io.TimerWrites
import ThuasRiscv.Io.Mtime
import ThuasRiscv.Io.Crc
import ThuasRiscv.Io.CrcDivision
import ThuasRiscv.Io.SerialCounters
import ThuasRiscv.Io.UartReceive
import ThuasRiscv.Debug.DebugModule
import ThuasRiscv.Debug.CommandInterlock
import ThuasRiscv.Debug.MemoryCommand
import ThuasRiscv.Debug.DebugSystem
import ThuasRiscv.Debug.RunControl
import ThuasRiscv.Debug.HaltedHart
import ThuasRiscv.Debug.RegisterCommand
import ThuasRiscv.Debug.AccessRegister
import ThuasRiscv.Debug.SingleStep
import ThuasRiscv.Debug.DebugBus
import ThuasRiscv.Debug.FailedAccess
import ThuasRiscv.Debug.Dtm
import ThuasRiscv.Debug.DebugLink
import ThuasRiscv.Debug.LinkRefinement
import ThuasRiscv.Debug.DmiDelivery
import ThuasRiscv.Debug.JtagScan
import ThuasRiscv.Debug.JtagAccess
import ThuasRiscv.Sw.SRecord
import ThuasRiscv.Sw.Srec2vhdl
import ThuasRiscv.Sw.Bootloader
import ThuasRiscv.Sw.ImageAgreement
import ThuasRiscv.Sw.CsrGetTime
import ThuasRiscv.Sw.LineEdit
import ThuasRiscv.BreakHeap
import ThuasRiscv.Sw.Sbrk
import ThuasRiscv.Assignments
import ThuasRiscv.Sw.SrecImage
import ThuasRiscv.Sw.SrecTables
import ThuasRiscv.Sw.LineUpload
import ThuasRiscv.Numerals
import ThuasRiscv.Sw.NumberText
