import Vpx3.Lib.Exec
import Vpx3.Lib.Slots
import Vpx3.Lib.Bits
import Vpx3.I2c.Unit
import Vpx3.Bmc.Access
import Vpx3.Bmc.Ibmc
import Vpx3.Bmc.Publish
import Vpx3.Dma.Words
import Vpx3.Rio.Atmu
import Vpx3.Rio.MsgRx
import Vpx3.Rio.MsgTx
import Vpx3.Rio.TxQueue
import Vpx3.Dma.RioDma
import Vpx3.Dma.Tracked
import Vpx3.Dma.Starts
import Vpx3.Dma.Exact
import Vpx3.Cmd.FormatSpace
import Vpx3.Cmd.Spacing
import Vpx3.Cmd.Handlers
import Vpx3.Cmd.WanWrite
import Vpx3.Cmd.Spelling
import Vpx3.Cmd.Regular
import Vpx3.Cmd.NormalForm
import Vpx3.Cmd.Bounds
import Vpx3.Cmd.Hex
import Vpx3.Cmd.Positional
import Vpx3.Cmd.Incomplete
import Vpx3.Lib.Cells
import Vpx3.Rio.Windows
import Vpx3.Rio.Request
import Vpx3.Rio.Mailbox
import Vpx3.Dma.Handles
import Vpx3.Dma.Queues
import Vpx3.I2c.Client
import Vpx3.Dma.Exits
import Vpx3.Dma.Failures
import Vpx3.I2c.Polling
import Vpx3.I2c.Converters
import Vpx3.Bmc.Reports
import Vpx3.Bmc.Ioctl
import Vpx3.Bmc.Separation
import Vpx3.I2c.BitUpdate
import Vpx3.Rio.Doorbell
import Vpx3.Rio.Sends
import Vpx3.Rio.Residue
import Vpx3.I2c.WordData
import Vpx3.Dma.AddressWords
import Vpx3.Cmd.HexLaw
import Vpx3.Cmd.ScanBounds
import Vpx3.Rio.RingUse
import Vpx3.Rio.Rate
import Vpx3.Bmc.IpSet
import Vpx3.Eth.Fabric
import Vpx3.Eth.Agree
import Vpx3.Eth.Wake
import Vpx3.Dma.PrepSg
import Vpx3.Dma.LinkDescs
import Vpx3.Lib.Fifo
import Vpx3.Lib.Flags
import Vpx3.Rio.PortWrite
import Vpx3.Eth.Receive
import Vpx3.Rio.DbellRx
import Vpx3.Rio.ConfigAccess
import Vpx3.Dma.Irqs
import Vpx3.Dma.SlaveConfig
import Vpx3.Bmc.SlotAddress
