import StoreService.Core.ByteMem
import StoreService.Core.Runs
import StoreService.Core.Simulation
import StoreService.Core.FileSys
import StoreService.Core.Keyed
import StoreService.Core.Numeral
import StoreService.Core.Calendar
import StoreService.Core.Fields
import StoreService.Core.Find
import StoreService.Core.Checked
import StoreService.Core.Quoting
import StoreService.Core.Words
import StoreService.Core.Decimal
import StoreService.Common.KeyFrame
import StoreService.Common.Json
import StoreService.Common.Schedule
import StoreService.Common.Format
import StoreService.Store.Device
import StoreService.Store.Layout
import StoreService.Store.Rotation
import StoreService.Store.Decode
import StoreService.Store.Terminated
import StoreService.Store.Image
import StoreService.Store.HandOff
import StoreService.Store.FileWrite
import StoreService.Store.FileRead
import StoreService.Store.Camera
import StoreService.Store.Catalogue
import StoreService.Store.Monitor
import StoreService.Store.Round
import StoreService.Store.Names
import StoreService.Store.Order
import StoreService.Store.Query
import StoreService.Store.Lists
import StoreService.Store.Events
import StoreService.Store.EventEnd
import StoreService.Store.Remove
import StoreService.Store.Flush
import StoreService.Store.Split
import StoreService.Store.Recorder
import StoreService.Store.Lossless
import StoreService.Common.Dates
import StoreService.Common.DateParsers
import StoreService.Common.Config
import StoreService.Backup.Transfer
import StoreService.Backup.Repeat
import StoreService.Backup.Respond
import StoreService.Backup.Replies
import StoreService.Backup.Receive
import StoreService.Backup.Streams
import StoreService.Backup.InUse
import StoreService.Playback.Nalu
import StoreService.Playback.StoreFile
import StoreService.Playback.AnyImage
import StoreService.Playback.Packet
import StoreService.Playback.PlayPath
import StoreService.Playback.VideoParam
import StoreService.Playback.Show
import StoreService.Stream.Threads
import StoreService.Stream.Tombstones
import StoreService.Stream.Alive
import StoreService.Stream.Capture
import StoreService.Stream.Exclusion
import StoreService.Stream.Release
import StoreService.Http.Sql
import StoreService.Http.Registry
import StoreService.Http.Outcomes
import StoreService.Http.Agreement
import StoreService.Http.Rollback
import StoreService.Http.Reserve
import StoreService.Http.Update
import StoreService.Http.Request
import StoreService.Http.Receive
import StoreService.Http.Body
import StoreService.Http.Handlers
import StoreService.Http.Commands
import StoreService.Http.PlaybackUrl
import StoreService.Json.Print
import StoreService.Json.Parse
import StoreService.Json.RoundTrip
import StoreService.Json.Unicode
import StoreService.Json.Codec
import StoreService.Http.Answers
import StoreService.Daemon.Watchdog
