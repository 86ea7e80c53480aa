import NutBluetti.Lib.StepMachine
import NutBluetti.Lib.Stopwatch
import NutBluetti.Pve.SendGates
import NutBluetti.Pve.WorkerStart
import NutBluetti.Pve.ApiCalls
import NutBluetti.Pve.Trust
import NutBluetti.Ble.Crypto
import NutBluetti.Ble.Session
import NutBluetti.Ble.Handshake
import NutBluetti.Lib.Reassembly
import NutBluetti.Ble.SessionStream
import NutBluetti.Ble.SessionGate
import NutBluetti.Ble.SessionWrap
import NutBluetti.Ble.SessionReset
import NutBluetti.Ble.Link
import NutBluetti.Ble.LinkLive
import NutBluetti.Ble.Regs
import NutBluetti.Ble.Poll
import NutBluetti.Ble.PollSpec
import NutBluetti.Ble.PollLabels
import NutBluetti.Ble.RegsSpec
import NutBluetti.Ble.PollSweep
import NutBluetti.Config.Types
import NutBluetti.Config.Load
import NutBluetti.Config.Upgrade
import NutBluetti.Config.Secrets
import NutBluetti.Config.PveBlock
import NutBluetti.Web.Forms
import NutBluetti.Web.Sessions
import NutBluetti.Web.Handlers
import NutBluetti.Web.Routes
import NutBluetti.Lib.Slots
import NutBluetti.Nut.Vars
import NutBluetti.Nut.Publish
import NutBluetti.Nut.LowBattery
import NutBluetti.Lib.Quoting
import NutBluetti.Lib.LineStream
import NutBluetti.Lib.Circular
import NutBluetti.Pve.FiringReports
import NutBluetti.Pve.EngineOff
import NutBluetti.Nut.Commands
import NutBluetti.Nut.Replies
import NutBluetti.Nut.Client
import NutBluetti.Notify.Alerts
import NutBluetti.Notify.RepeatGuard
import NutBluetti.Log.Ring
import NutBluetti.Wifi.Station
import NutBluetti.Web.Portal
import NutBluetti.Web.Credentials
import NutBluetti.Web.FailedSave
import NutBluetti.Ble.WriteGate
import NutBluetti.Pve.Countdown
import NutBluetti.Pve.HostsApart
import NutBluetti.Pve.GuestOrder
import NutBluetti.Lib.Checksum
import NutBluetti.Ble.CrcBurst
import NutBluetti.Ble.KexFrames
import NutBluetti.Ble.KexSplit
import NutBluetti.Ble.KexReplies
import NutBluetti.Lib.Checked
import NutBluetti.Ble.FeedBounds
import NutBluetti.Lib.Confluence
import NutBluetti.Ble.RegsOrder
import NutBluetti.Ble.RegsTables
import NutBluetti.Lib.LatestQueue
import NutBluetti.Ble.WriteQueue
import NutBluetti.Nut.WholeLines
import NutBluetti.Lib.BoundedMap
import NutBluetti.Nut.VarsMap
import NutBluetti.Nut.Tokens
import NutBluetti.Nut.Login
import NutBluetti.Notify.Reminders
import NutBluetti.Pve.Transient
import NutBluetti.Web.FormCodec
import NutBluetti.Web.FormNumbers
import NutBluetti.Web.Fingerprint
import NutBluetti.Web.GuestRules
import NutBluetti.Web.SectionFrames
import NutBluetti.Web.NumericFields
import NutBluetti.Wifi.StaticAddress
import NutBluetti.Lib.JsonText
import NutBluetti.Pve.GuestListing
import NutBluetti.Lib.Leases
import NutBluetti.Web.SessionLeases
import NutBluetti.Web.SessionRuns
import NutBluetti.Web.ScanReplies
import NutBluetti.Web.ConfigReply
import NutBluetti.Lib.Comparison
import NutBluetti.Ota.Versions
import NutBluetti.Lib.JsonMembers
import NutBluetti.Ota.ReleaseScan
import NutBluetti.Ble.RegsText
import NutBluetti.Lib.DnsMessage
import NutBluetti.Web.CaptiveDns
import NutBluetti.Web.Cookies
import NutBluetti.Lib.RetryQueue
import NutBluetti.Notify.Delivery
import NutBluetti.Notify.DeliveryRuns
import NutBluetti.Wifi.Fallback
import NutBluetti.Ble.Readings
import NutBluetti.App.Bridge
import NutBluetti.App.Shutdowns
import NutBluetti.App.Freshness
import NutBluetti.Nut.Accept
import NutBluetti.Lib.Crew
import NutBluetti.Ota.Install
import NutBluetti.Ota.Partition
import NutBluetti.Ble.Pursuit
import NutBluetti.Web.UnitAddress
import NutBluetti.Ble.ControlValues
import NutBluetti.Web.ControlsPage
import NutBluetti.Web.Setup
import NutBluetti.Web.StaysSetUp
import NutBluetti.Web.Secrecy
