import EchoAndAura.Table
import EchoAndAura.Stepwise
import EchoAndAura.Transaction
import EchoAndAura.Text
import EchoAndAura.Shop
import EchoAndAura.Rules
import EchoAndAura.Repositories
import EchoAndAura.GateRepositories
import EchoAndAura.Orders
import EchoAndAura.Fulfilment
import EchoAndAura.Door
import EchoAndAura.Tickets
import EchoAndAura.System
import EchoAndAura.Effects
import EchoAndAura.Conduct
import EchoAndAura.Proofs.Interference
import EchoAndAura.Proofs.History
import EchoAndAura.Proofs.Commits
import EchoAndAura.Proofs.Rows
import EchoAndAura.Proofs.Conduct
import EchoAndAura.Proofs.Services
import EchoAndAura.Proofs.Expiry
import EchoAndAura.Proofs.Sales
import EchoAndAura.Proofs.Scans
import EchoAndAura.Proofs.Undos
import EchoAndAura.Proofs.Runs
import EchoAndAura.Proofs.Inventory
import EchoAndAura.Proofs.Admissions
import EchoAndAura.Proofs.Exactness
import EchoAndAura.Proofs.Windows
import EchoAndAura.Room
import EchoAndAura.EventRoom
import EchoAndAura.Announcements
import EchoAndAura.Lookup
import EchoAndAura.Keyset
import EchoAndAura.Proofs.Typed
import EchoAndAura.Proofs.ScanToken
import EchoAndAura.Proofs.Lookup
import EchoAndAura.Lines
import EchoAndAura.Calendar
import EchoAndAura.Dates
import EchoAndAura.Ics
import EchoAndAura.Proofs.Ics
import EchoAndAura.Records
import EchoAndAura.Csv
import EchoAndAura.Proofs.Csv
import EchoAndAura.SalesReport
import EchoAndAura.Proofs.Days
import EchoAndAura.Proofs.SalesReport
import EchoAndAura.Drain
import EchoAndAura.Proofs.Room
import EchoAndAura.Proofs.Authority
import EchoAndAura.Proofs.Replicas
import EchoAndAura.Proofs.Backlog
import EchoAndAura.Proofs.Revocation
import EchoAndAura.Proofs.Convergence
import EchoAndAura.Alone
import EchoAndAura.Proofs.Alone
import EchoAndAura.Proofs.Scanning
import EchoAndAura.Proofs.Batch
import EchoAndAura.Joins
import EchoAndAura.DoubleEntries
import EchoAndAura.Proofs.Replay
import EchoAndAura.Proofs.DoubleEntries
import EchoAndAura.OfflineRules
import EchoAndAura.Phone
import EchoAndAura.Proofs.Outbox
import EchoAndAura.Scanner
import EchoAndAura.Proofs.Marks
import EchoAndAura.Proofs.Race
import EchoAndAura.Proofs.Remembers
import EchoAndAura.Proofs.Acknowledged
import EchoAndAura.Trail
import EchoAndAura.Proofs.OrderLog
import EchoAndAura.Proofs.Ledger
import EchoAndAura.Proofs.Payments
import EchoAndAura.Proofs.TicketSets
import EchoAndAura.Proofs.BuyerCap
import EchoAndAura.Tasks
import EchoAndAura.EventAdmin
import EchoAndAura.Proofs.Publishing
import EchoAndAura.Cover
import EchoAndAura.Proofs.Cover
import EchoAndAura.TwoFactor
import EchoAndAura.Proofs.TwoFactor
import EchoAndAura.Register
import EchoAndAura.Proofs.Pricing
import EchoAndAura.Proofs.Promo
import EchoAndAura.Places
import EchoAndAura.Sponsors
import EchoAndAura.Proofs.Sponsors
import EchoAndAura.SponsorLogos
import EchoAndAura.Proofs.SponsorLogos
import EchoAndAura.CacheApi
import EchoAndAura.SavedPage
import EchoAndAura.Proofs.SavedPage
import EchoAndAura.Proofs.Saves
import EchoAndAura.HomeEvents
import EchoAndAura.Json
import EchoAndAura.EventOffer
import EchoAndAura.EventPages
import EchoAndAura.Proofs.HomeEvents
import EchoAndAura.Proofs.HiddenCounts
import EchoAndAura.SignIn
import EchoAndAura.Proofs.SignIn
import EchoAndAura.RestoreDrill
import EchoAndAura.Proofs.RestoreDrill
import EchoAndAura.IpText
import EchoAndAura.ClientIp
import EchoAndAura.Proofs.ClientIp
import EchoAndAura.ErrorPrivacy
import EchoAndAura.Proofs.ErrorPrivacy
import EchoAndAura.Base64
import EchoAndAura.Unicode
import EchoAndAura.JsonText
import EchoAndAura.RelayPass
import EchoAndAura.Proofs.RelayPass
import EchoAndAura.RelayLink
import EchoAndAura.Proofs.RelayLink
import EchoAndAura.LinkedPhone
import EchoAndAura.Proofs.LinkedPhone
import EchoAndAura.OfflineDoor
import EchoAndAura.Proofs.OfflineDoor
import EchoAndAura.Loop
import EchoAndAura.Nested
import EchoAndAura.Search
import EchoAndAura.SvgScreen
import EchoAndAura.SvgDocument
import EchoAndAura.Proofs.SvgTags
import EchoAndAura.Proofs.SvgWalk
import EchoAndAura.Proofs.SvgScreen
import EchoAndAura.FixedWindow
import EchoAndAura.Proofs.RoomBounds
import EchoAndAura.Proofs.RateLimits
import EchoAndAura.Cursor
import EchoAndAura.GateStatus
import EchoAndAura.Proofs.GateStatus
import EchoAndAura.Proofs.UndoOffers
import EchoAndAura.Tellings
import EchoAndAura.Moves
import EchoAndAura.Proofs.Settling
import EchoAndAura.Proofs.Mails
import EchoAndAura.Proofs.Admitted
import EchoAndAura.Proofs.Announced
import EchoAndAura.Proofs.Told
