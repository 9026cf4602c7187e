import LocalDesk.Transfers.Schedule
import LocalDesk.Transfers.Capacity
import LocalDesk.Transfers.Recovery
import LocalDesk.Transfers.Public
import LocalDesk.Transfers.Integrity
import LocalDesk.Transfers.Retry
import LocalDesk.Transfers.Mirror
import LocalDesk.Transfers.References
import LocalDesk.Transfers.Command
import LocalDesk.Transfers.Ownership
import LocalDesk.Remote.ProfileRun
import LocalDesk.Usage.Retention
import LocalDesk.Notes.Reading
import LocalDesk.Network.Traffic
import LocalDesk.Telemetry.Helper
import LocalDesk.Usage.Query
import LocalDesk.Telemetry.Adoption
import LocalDesk.Telemetry.SnapshotValid
import LocalDesk.Telemetry.Issues
import LocalDesk.Telemetry.Store
import LocalDesk.Ftp.Negotiation
import LocalDesk.Ftp.Path
import LocalDesk.Smb.Closing
import LocalDesk.SpeedTest.Measurements
import LocalDesk.Appd.Socket
import LocalDesk.Appd.Sessions
import LocalDesk.Appd.SpeedTestHandle
import LocalDesk.Journal.Hiding
import LocalDesk.SpeedTest.Purity
import LocalDesk.SpeedTest.Deep
import LocalDesk.SpeedTest.DeepValidity
import LocalDesk.SpeedTest.Stream
import LocalDesk.SpeedTest.Delivery
import LocalDesk.Transfers.Progress
import LocalDesk.Data.OffsetPaging
import LocalDesk.Transfers.Page
import LocalDesk.Telemetry.MinimalReply
import LocalDesk.Telemetry.ReplyText
import LocalDesk.Notes.Checklist
import LocalDesk.Usage.Niri
import LocalDesk.Usage.Minutes
import LocalDesk.Notes.ExportRead
import LocalDesk.Notes.Listing
import LocalDesk.Telemetry.DesktopName
import LocalDesk.Telemetry.KernelText
import LocalDesk.Remote.Listing
import LocalDesk.Remote.Secrets
import LocalDesk.Appd.HelperFrames
import LocalDesk.Network.NetlinkDump
import LocalDesk.Ftp.MlsdListing
import LocalDesk.Ssh.Stat
import LocalDesk.Appd.Iperf3Pipes
import LocalDesk.SpeedTest.Terse
import LocalDesk.SystemInfo.Disk
import LocalDesk.Journal.TokenSection
import LocalDesk.Remote.RangedReads
import LocalDesk.Ssh.Terminal
import LocalDesk.Journal.Limits
import LocalDesk.Ipc.PageStream
