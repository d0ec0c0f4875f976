import AzsServer.Core.Bytes
import AzsServer.Core.ParseCookie
import AzsServer.Core.CookieBuffer
import AzsServer.Core.Time
import AzsServer.Core.Number
import AzsServer.Crow.Json
import AzsServer.Nlohmann.Json
import AzsServer.Library.Calendar
import AzsServer.Library.Runs
import AzsServer.Library.RowTable
import AzsServer.Library.SqlText
import AzsServer.Library.Program
import AzsServer.Local.Sqlite
import AzsServer.Local.LocalData
import AzsServer.Local.SavedConnection
import AzsServer.Mysql.Tables
import AzsServer.Mysql.Statement
import AzsServer.Server.World
import AzsServer.Server.Token
import AzsServer.Server.SessionKey
import AzsServer.Server.Connect
import AzsServer.Server.RejectedConnection
import AzsServer.Server.ConnectThreads
import AzsServer.Server.Shifts
import AzsServer.Server.Controller
import AzsServer.Server.Settings
import AzsServer.Server.Clients
import AzsServer.Server.Routes
import AzsServer.Mysql.Ledger
import AzsServer.Server.ShiftOrder
import AzsServer.Server.Calls
import AzsServer.Server.NullConnection
import AzsServer.Server.Secrets
import AzsServer.Server.SessionDatabase
import AzsServer.Server.Payload
import AzsServer.Server.SettingsGuard
import AzsServer.Server.ShiftFaults
import AzsServer.Server.ClosedShifts
import AzsServer.Server.PostedSettings
import AzsServer.Server.Loading
import AzsServer.Server.NozzleLinks
import AzsServer.Server.Storing
import AzsServer.Server.SettingsAnswers
import AzsServer.Library.References
import AzsServer.Server.References
import AzsServer.Server.EndpointsAgree
import AzsServer.Server.GetThenSet
import AzsServer.Server.Completion
import AzsServer.Library.Updates
import AzsServer.Server.StoredRows
import AzsServer.Server.SetThenGet
import AzsServer.Server.PasswordKept
import AzsServer.Core.CookieText
import AzsServer.Crow.StringObjects
import AzsServer.Crow.CookieJson
import AzsServer.Server.SessionRoundTrip
import AzsServer.Server.Grouping
import AzsServer.Server.PagesDefined
import AzsServer.Server.StoredNozzles
import AzsServer.Server.ShownPrice
import AzsServer.Local.ReadBack
import AzsServer.Server.DecodedSettings
import AzsServer.Server.PublishedState
import AzsServer.Library.MysqlText
import AzsServer.Mysql.TovarText
import AzsServer.Server.PastedNames
import AzsServer.Core.OffsetChanges
import AzsServer.Core.TimeOrder
import AzsServer.Server.SessionAge
import AzsServer.Server.StationUsers
import AzsServer.Library.Traces
import AzsServer.Library.Histories
import AzsServer.Server.IssuedLines
import AzsServer.Server.IssuedIds
import AzsServer.Server.Requests
import AzsServer.Server.ShiftBook
import AzsServer.Server.ShiftHistory
import AzsServer.Server.LastingData
import AzsServer.Server.NozzlesApart
import AzsServer.Server.Writers
import AzsServer.Server.LoginPage
import AzsServer.Server.NoRevocation
import AzsServer.Library.Pools
import AzsServer.Server.ConnectMutex
import AzsServer.Server.AttemptsEnd
import AzsServer.Jwt.Base
import AzsServer.Jwt.Picojson
import AzsServer.Jwt.SignedToken
import AzsServer.Server.SessionTokens
import AzsServer.Library.Paths
import AzsServer.Crow.SanitizeFilename
import AzsServer.Server.StaticFiles
import AzsServer.Server.DeleteThenGet
import AzsServer.Crow.Router
import AzsServer.Crow.RouterRules
import AzsServer.Server.Dispatch
