import RmtDos.Server.HandleLedger
import RmtDos.Server.CurrentProcess
import RmtDos.Server.Retransmit
import RmtDos.Server.Dispatch
import RmtDos.Server.Interference
import RmtDos.Server.OpenHandle
import RmtDos.Server.Preemption
import RmtDos.Server.BufferPool
import RmtDos.Server.SessionTable
import RmtDos.Client.FromReceived
import RmtDos.Server.Leftover
import RmtDos.Server.TextSweep
import RmtDos.Client.CgaPicture
import RmtDos.Server.ReceivedBytes
import RmtDos.Client.Paging
import RmtDos.Server.Released
import RmtDos.Server.Suppression
import RmtDos.Server.Checksum
import RmtDos.Client.SessionWindow
import RmtDos.Server.SessionClock
import RmtDos.Client.RemoteEdit
import RmtDos.Client.Timeout
import RmtDos.Server.CopyExact
import RmtDos.Server.ShortWrite
import RmtDos.Server.Interrupted
import RmtDos.Client.CopySelected
import RmtDos.Client.UploadSafety
import RmtDos.Client.DownloadSafety
import RmtDos.Server.SearchPattern
import RmtDos.Server.FarString
import RmtDos.Client.HostRegistry
import RmtDos.Client.PanelFetch
import RmtDos.Client.Typing
import RmtDos.Client.FreshPages
import RmtDos.Client.Heartbeat
import RmtDos.Server.Isr
import RmtDos.Server.Pktrecv
