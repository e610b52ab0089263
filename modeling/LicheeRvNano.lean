import LicheeRvNano.Machine
import LicheeRvNano.Ledger
import LicheeRvNano.BitField
import LicheeRvNano.BitPacking
import LicheeRvNano.BumpArena
import LicheeRvNano.CrcRegister
import LicheeRvNano.Kernel
import LicheeRvNano.TpuBuffer
import LicheeRvNano.TpuQueue
import LicheeRvNano.TpuQueueSteps
import LicheeRvNano.TpuThrottle
import LicheeRvNano.TpuUsage
import LicheeRvNano.TpuLifetime
import LicheeRvNano.TpuBalance
import LicheeRvNano.TpuDelivery
import LicheeRvNano.TpuIoctl
import LicheeRvNano.TpuRegs
import LicheeRvNano.TpuPlatform
import LicheeRvNano.TpuSuspend
import LicheeRvNano.TpuClock
import LicheeRvNano.TpuRun
import LicheeRvNano.TpuIrq
import LicheeRvNano.TpuPio
import LicheeRvNano.TdmaPacking
import LicheeRvNano.TpuCmdBuf
import LicheeRvNano.RtcCalib
import LicheeRvNano.RtcSearch
import LicheeRvNano.Thermal
import LicheeRvNano.SdClock
import LicheeRvNano.SdSource
import LicheeRvNano.Selection
import LicheeRvNano.ClkPll
import LicheeRvNano.Footprint
import LicheeRvNano.ClkIp
import LicheeRvNano.ClkTable
import LicheeRvNano.ClkOps
import LicheeRvNano.RefForest
import LicheeRvNano.ClkTree
import LicheeRvNano.ClkUse
import LicheeRvNano.ForestCache
import LicheeRvNano.ClkCache
import LicheeRvNano.ClkHandle
import LicheeRvNano.I2s
import LicheeRvNano.I2sClock
import LicheeRvNano.I2sParams
import LicheeRvNano.I2sRollback
import LicheeRvNano.Capture
import LicheeRvNano.ByteImage
import LicheeRvNano.FipFormat
import LicheeRvNano.FipTool
import LicheeRvNano.Bl2
import LicheeRvNano.FipBoot
import LicheeRvNano.CoreRelease
import LicheeRvNano.CoreSimulation
import LicheeRvNano.DramPlacement
import LicheeRvNano.LoaderArena
import LicheeRvNano.EthAddr
import LicheeRvNano.RangeCoder
import LicheeRvNano.LzmaDec
import LicheeRvNano.LzmaSymbol
import LicheeRvNano.LzmaInput
