import RRoadVpn.Proofs.UserPause
import RRoadVpn.Proofs.OpenRecords
import RRoadVpn.Proofs.StopResult
import RRoadVpn.Proofs.StoredLogins
import RRoadVpn.Proofs.StuckHold
import RRoadVpn.Proofs.EscapeRoundTrip
import RRoadVpn.Proofs.Tokenizers
import RRoadVpn.Proofs.LogOrder
import RRoadVpn.Proofs.TornLog
import RRoadVpn.Library.LongestPrefix
import RRoadVpn.Proofs.NetworkBlocks
import RRoadVpn.Proofs.NetworkInvariant
import RRoadVpn.Proofs.NetworkSteps
import RRoadVpn.Proofs.NetworkLoop
import RRoadVpn.Proofs.NetworkRouting
import RRoadVpn.ConnectionRecord
import RRoadVpn.Proofs.ConnectionClosed
import RRoadVpn.StatusService
import RRoadVpn.Proofs.StatusClient
import RRoadVpn.Proofs.StatusDelivery
import RRoadVpn.LogCache
import RRoadVpn.Proofs.LogCacheSteps
import RRoadVpn.Proofs.LogCacheAgrees
import RRoadVpn.Library.Utf8
import RRoadVpn.ManagementInput
import RRoadVpn.Proofs.ManagementCuts
import RRoadVpn.Proofs.TunRounds
import RRoadVpn.ConnectionConfig
import RRoadVpn.Proofs.ProxyQueries
import RRoadVpn.ConfigParser
import RRoadVpn.OptionsFile
import RRoadVpn.Library.Lines
import RRoadVpn.Proofs.InlineReading
import RRoadVpn.Proofs.InlineImport
import RRoadVpn.Proofs.TunTexts
import RRoadVpn.Proofs.TunDecision
import RRoadVpn.JavaText
import RRoadVpn.VpnProfile
import RRoadVpn.ConvertProfile
import RRoadVpn.Proofs.ImportSteps
import RRoadVpn.Proofs.ImportErrors
import RRoadVpn.Proofs.ImportDeclared
import RRoadVpn.Library.Attempts
import RRoadVpn.NeedOk
import RRoadVpn.Proofs.NeedOkAnswers
import RRoadVpn.LogSnapshot
import RRoadVpn.Proofs.LogSnapshotDelivery
import RRoadVpn.Uuid
import RRoadVpn.AppRestrictions
import RRoadVpn.Proofs.ImportFrames
import RRoadVpn.Proofs.UuidTexts
import RRoadVpn.Proofs.ManagedProfiles
import RRoadVpn.OpenVPNSessions
import RRoadVpn.Proofs.SessionEnds
import RRoadVpn.Library.Fields
import RRoadVpn.Proofs.RouteTexts
import RRoadVpn.Proofs.NetworkPartition
import RRoadVpn.Proofs.PushedRoutes
import RRoadVpn.Library.Retention
import RRoadVpn.Proofs.ScreenWindow
import RRoadVpn.Proofs.TrafficLevels
import RRoadVpn.Library.Noting
import RRoadVpn.LogItemArrays
import RRoadVpn.Proofs.ArrayRequests
import RRoadVpn.Proofs.LogRecords
import RRoadVpn.Proofs.LogResync
import RRoadVpn.Proofs.MaskLengths
import RRoadVpn.Library.Pattern
import RRoadVpn.ProcessLog
import RRoadVpn.Proofs.LogFlags
import RRoadVpn.ByteCount
import RRoadVpn.Proofs.LateListener
import RRoadVpn.Library.Traversal
import RRoadVpn.AllowedApps
import RRoadVpn.Proofs.UninstalledApps
import RRoadVpn.DeviceCheck
import RRoadVpn.StateReport
import RRoadVpn.Library.Split
import RRoadVpn.Proofs.DeviceStatus
import RRoadVpn.Proofs.VirtualAddress
import RRoadVpn.Proofs.LogBuffer
import RRoadVpn.Library.AddressText
import RRoadVpn.Proofs.RouteAddresses
import RRoadVpn.CheckProfile
import RRoadVpn.ConfigParts
import RRoadVpn.Proofs.AcceptedProfiles
import RRoadVpn.Proofs.NameServers
import RRoadVpn.Proofs.ImportedRoutes
import RRoadVpn.ManRead
import RRoadVpn.Library.LineStream
import RRoadVpn.Proofs.CommandFraming
import RRoadVpn.Manage
import RRoadVpn.ManageQueries
import RRoadVpn.PasswordCache
import RRoadVpn.ManagementReplies
import RRoadVpn.ManagementChannel
import RRoadVpn.Proofs.CachedPasswords
import RRoadVpn.Proofs.ReplyTexts
import RRoadVpn.Proofs.ToldPasswords
import RRoadVpn.Proofs.WrittenLines
import RRoadVpn.Proofs.ChannelWrites
import RRoadVpn.Proofs.ChannelSafety
import RRoadVpn.Proofs.LoopCompletes
import RRoadVpn.Proofs.QueriesComplete
import RRoadVpn.Proofs.ServedSessions
import RRoadVpn.Proofs.AppliedRestrictions
