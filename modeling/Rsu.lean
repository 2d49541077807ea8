import Rsu.Semantics.ActionSystem
import Rsu.Common.ListHead
import Rsu.Data.DeltaQueue
import Rsu.Mda.Deadlines
import Rsu.Mda.Hops
import Rsu.Mda.Insertion
import Rsu.Mda.History
import Rsu.Mda.Duplicates
import Rsu.Rcp.Encode
import Rsu.Vam.Position
import Rsu.Mda.Unknown
import Rsu.Vam.Residue
import Rsu.Vam.LocalAlert
import Rsu.Vam.Pause
import Rsu.Semantics.Erasure
import Rsu.Vam.Forgery
import Rsu.Vsa.Warning
import Rsu.Vsa.WarningRun
import Rsu.Vsa.Alarm
import Rsu.Vsa.AlertRun
import Rsu.Vsa.Attribution
import Rsu.Semantics.Checked
import Rsu.Wnet.Receive
import Rsu.Wnet.Bounds
import Rsu.Wnet.Reads
import Rsu.Drv.Deframing
import Rsu.Wnet.RoundTrip
import Rsu.Vam.Rtcm
import Rsu.Vam.Itiscode
import Rsu.Data.Pool
import Rsu.Mda.LifeCycle
import Rsu.Oam.Frame
import Rsu.Oam.Stream
import Rsu.Oam.Sdk
import Rsu.Oam.Server
import Rsu.Oam.Validation
import Rsu.Oam.Clients
import Rsu.Oam.Routing
import Rsu.Oam.Requests
import Rsu.Oam.Matching
import Rsu.Oam.Translation
import Rsu.Drv.Gps
import Rsu.Drv.GpsPipe
import Rsu.Cli.LoopBuf
import Rsu.Cli.Users
import Rsu.Cli.Wakeup
import Rsu.Cli.Sessions
import Rsu.Cli.Vty
import Rsu.Cli.Login
import Rsu.Osal.TimerNode
import Rsu.Osal.TimerSound
import Rsu.Osal.TimerThreads
import Rsu.Osal.TimerDelete
import Rsu.Vam.Frames
import Rsu.Vam.RoundTrip
import Rsu.Vam.AlertTail
import Rsu.Vam.Period
import Rsu.Vsa.Preprocess
import Rsu.Vsa.Positions
import Rsu.Vsa.LaneTest
import Rsu.Vsa.Sector
import Rsu.Vsa.Report
import Rsu.Vam.Lip
import Rsu.Vam.Rearm
import Rsu.Wnet.Secured
import Rsu.Semantics.CString
import Rsu.Vam.Nmea
import Rsu.Vam.NmeaBounds
import Rsu.Vam.NmeaFix
import Rsu.Data.Calendar
import Rsu.Drv.Rtc
import Rsu.Oam.ConfigMask
import Rsu.Oam.ConfigClient
import Rsu.Data.RunningSums
import Rsu.Drv.Ublox
import Rsu.Semantics.CNumeral
import Rsu.Cli.Mac
import Rsu.Cli.Passwords
import Rsu.Data.Chain
import Rsu.Cli.DosList
import Rsu.Data.Store
import Rsu.Sys.Param
import Rsu.Sys.ParamSet
import Rsu.Cli.Words
import Rsu.Cli.Templates
import Rsu.Cli.Matchers
import Rsu.Cli.Filter
import Rsu.Cli.Execute
import Rsu.Cli.Spelling
import Rsu.Cli.Order
import Rsu.Cli.Vectors
import Rsu.Cli.Commands
import Rsu.Cli.Nodes
import Rsu.Data.CommonPrefix
import Rsu.Cli.Completion
import Rsu.Semantics.Memory
import Rsu.Data.Row
import Rsu.Data.Zipper
import Rsu.Cli.LineBuf
import Rsu.Cli.LineEdit
import Rsu.Cli.Lines
import Rsu.Cli.History
import Rsu.Net.Genuine
import Rsu.Cli.Pager
import Rsu.Cli.Telnet
import Rsu.Drv.Credentials
import Rsu.Drv.Chunked
