import VirtualSfc.Base.BitField
import VirtualSfc.Base.Changes
import VirtualSfc.Base.Checksum
import VirtualSfc.Base.Dyadic
import VirtualSfc.Base.Endian
import VirtualSfc.Base.Inheritance
import VirtualSfc.Base.Json
import VirtualSfc.Base.Memory
import VirtualSfc.Base.Optimistic
import VirtualSfc.Base.Poll
import VirtualSfc.Base.Ring
import VirtualSfc.Base.Run
import VirtualSfc.Base.Sha1
import VirtualSfc.Base.Text
import VirtualSfc.Base.Window
import VirtualSfc.Cni.Calls
import VirtualSfc.Cni.CmdAdd
import VirtualSfc.Cni.CmdCheck
import VirtualSfc.Cni.CmdDel
import VirtualSfc.Cni.Netlink
import VirtualSfc.Cni.Parent
import VirtualSfc.Cni.Report
import VirtualSfc.Cni.Rollback
import VirtualSfc.Driver.Buddy
import VirtualSfc.Driver.CharDriver
import VirtualSfc.Driver.EfchManager
import VirtualSfc.Driver.Prime
import VirtualSfc.Driver.ViAllocator
import VirtualSfc.Efvi.Allocator
import VirtualSfc.Efvi.Citools
import VirtualSfc.Efvi.Connect
import VirtualSfc.Efvi.Ctpio
import VirtualSfc.Efvi.Datagram
import VirtualSfc.Efvi.Ef10Event
import VirtualSfc.Efvi.EventOverflow
import VirtualSfc.Efvi.EventPoll
import VirtualSfc.Efvi.EventRing
import VirtualSfc.Efvi.Layout
import VirtualSfc.Efvi.LoopRecv
import VirtualSfc.Efvi.PostBuf
import VirtualSfc.Efvi.Reconnect
import VirtualSfc.Efvi.RxDelivery
import VirtualSfc.Efvi.RxPath
import VirtualSfc.Efvi.RxRing
import VirtualSfc.Efvi.RxWait
import VirtualSfc.Efvi.Rxq
import VirtualSfc.Efvi.Send
import VirtualSfc.Efvi.TxDescriptor
import VirtualSfc.Efvi.TxPipeline
import VirtualSfc.Efvi.Txq
import VirtualSfc.Efvi.WaitEvent
import VirtualSfc.Plugin.Allocate
import VirtualSfc.Plugin.Client
import VirtualSfc.Plugin.ConfigWatch
import VirtualSfc.Plugin.Handshake
import VirtualSfc.Plugin.Inheritance
import VirtualSfc.Plugin.Lifecycle
import VirtualSfc.Plugin.LifecycleEnd
import VirtualSfc.Plugin.ListAndWatch
import VirtualSfc.Plugin.NetAttachDefWatch
import VirtualSfc.Plugin.Publish
import VirtualSfc.Plugin.Refresh
import VirtualSfc.Plugin.Registry
import VirtualSfc.Plugin.Server
import VirtualSfc.Plugin.Shutdown
import VirtualSfc.Plugin.Storage
import VirtualSfc.Plugin.Types
import VirtualSfc.Plugin.VsfcPlugin
import VirtualSfc.Plugin.VsfcServer
