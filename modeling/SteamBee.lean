import SteamBee.Inventory.BatchSafety
import SteamBee.Inventory.MarketStep
import SteamBee.Farming.Orphan
import SteamBee.Farming.Final
import SteamBee.Inventory.MarketRows
import SteamBee.Inventory.Serial
import SteamBee.Data.History
import SteamBee.Inventory.Sources
import SteamBee.Inventory.SubmitOnce
import SteamBee.Inventory.Stock
import SteamBee.Inventory.KeepOne
import SteamBee.Farming.Tracks
import SteamBee.Auth.Service
import SteamBee.Auth.Sessions
import SteamBee.Restore.Backup
import SteamBee.Schedule.TickLoop
import SteamBee.Restore.Atomic
import SteamBee.Restore.Fence
import SteamBee.Schedule.Preview
import SteamBee.Schedule.Agreement
import SteamBee.Schedule.Winner
import SteamBee.Schedule.Coordinator
import SteamBee.Schedule.Rows
import SteamBee.Schedule.Transitions
import SteamBee.Schedule.Markers
import SteamBee.Schedule.Steps
import SteamBee.Schedule.Starts
import SteamBee.Schedule.Closes
import SteamBee.Inventory.SettingsStep
import SteamBee.Inventory.PriceSettings
import SteamBee.Steam.AccountOperationState
import SteamBee.Steam.Serialised
import SteamBee.Inventory.PriceScheduler
import SteamBee.Inventory.PriceSlots
import SteamBee.Inventory.PriceScheduled
import SteamBee.Text.Base64
import SteamBee.Text.Json
import SteamBee.Text.JsonRoundTrip
import SteamBee.Backup.Accepted
import SteamBee.Backup.Format
import SteamBee.Backup.Length
import SteamBee.Backup.RoundTrip
import SteamBee.Steam.BoostSessionTracker
import SteamBee.Data.Intervals
import SteamBee.Steam.BoostSessions
import SteamBee.Steam.SessionCap
import SteamBee.Data.Keyed
import SteamBee.Inventory.Snapshot
import SteamBee.Inventory.SnapshotCounts
import SteamBee.Web.InventoryModel
import SteamBee.Web.SaleAllocation
import SteamBee.Notifications.Dispatcher
import SteamBee.Notifications.DeliveryRecord
import SteamBee.Notifications.DeliverySteps
import SteamBee.Notifications.Deliveries
import SteamBee.Notifications.DeliveryLaws
import SteamBee.Steam.Credentials
import SteamBee.Steam.RenewalChain
import SteamBee.Steam.CredentialRenewal
import SteamBee.Inventory.BatchSpacing
import SteamBee.Steam.Selection
import SteamBee.Text.Display
import SteamBee.Inventory.SteamData
import SteamBee.Steam.Community
import SteamBee.Data.Bisection
import SteamBee.Data.Outcome
import SteamBee.Inventory.Money
import SteamBee.Inventory.SaleRequest
import SteamBee.Inventory.QuoteLaws
import SteamBee.Inventory.InventoryPages
import SteamBee.Inventory.CompleteInventory
import SteamBee.Inventory.ListingPages
import SteamBee.Inventory.CompleteListings
import SteamBee.Inventory.OrderBook
import SteamBee.Inventory.EstimateLaws
import SteamBee.Schedule.LocalTime
import SteamBee.Schedule.WindowStart
import SteamBee.ReadModels.Analytics
import SteamBee.ReadModels.AnalyticsDays
import SteamBee.Steam.Worker
import SteamBee.Steam.WorkerSystem
import SteamBee.Steam.WorkerRule
import SteamBee.Steam.WorkerFrames
import SteamBee.Web.BasketLimit
import SteamBee.Inventory.EmbeddedJson
import SteamBee.Data.Recency
import SteamBee.Web.OfferNotifications
import SteamBee.Web.FreeGamesWatcher
import SteamBee.Web.AnnouncedOnce
import SteamBee.Data.Absorption
import SteamBee.Web.BatchMarket
import SteamBee.Web.MergedSnapshots
import SteamBee.Farming.Turns
import SteamBee.Data.Sorting
import SteamBee.Farming.Order
import SteamBee.Farming.Badges
import SteamBee.Farming.Legality
import SteamBee.Farming.Playtime
import SteamBee.Steam.Library
import SteamBee.Steam.LibraryImport
import SteamBee.Inventory.ObservationAge
import SteamBee.Schedule.Elsewhere
import SteamBee.Steam.SafetyHold
import SteamBee.Steam.TimedResume
import SteamBee.Steam.LogOns
import SteamBee.Text.Decimal
import SteamBee.Web.MoneyText
import SteamBee.Web.PriceExample
import SteamBee.Web.InventoryPrices
import SteamBee.Text.Quoting
import SteamBee.Web.PricePolling
import SteamBee.Inventory.EmbeddedBook
import SteamBee.Inventory.PriceContexts
import SteamBee.Web.FarmingBoard
import SteamBee.Steam.PausedGames
import SteamBee.Notifications.QueueLaws
import SteamBee.Steam.Retries
import SteamBee.Auth.Setup
import SteamBee.Auth.SetupGate
import SteamBee.Steam.Login
import SteamBee.Steam.LoginLaws
import SteamBee.Steam.WebSessionLaws
import SteamBee.Secrets.Encryption
import SteamBee.Secrets.Instance
import SteamBee.Startup.Runtime
import SteamBee.Startup.Shutdown
import SteamBee.Startup.SingleRuntime
