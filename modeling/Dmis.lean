import Dmis.Lib.Table
import Dmis.Lib.Lists
import Dmis.Lib.Outcome
import Dmis.Lib.Numeric
import Dmis.Lib.Run
import Dmis.Schema
import Dmis.Session
import Dmis.ItemStatus
import Dmis.Reservation
import Dmis.Allocation
import Dmis.Packaging
import Dmis.Dispatch
import Dmis.Requests
import Dmis.Operations
import Dmis.Lifecycle
import Dmis.Frames
import Dmis.Queues
import Dmis.Eligibility
import Dmis.Staleness
import Dmis.Submitted
import Dmis.DispatchOnce
import Dmis.Ledger
import Dmis.TwoDispatches
import Dmis.RequestItems
import Dmis.IssueChecks
import Dmis.Dashboard
import Dmis.Cancellation
import Dmis.PendingCancel
import Dmis.ClaimedGoods
import Dmis.Releases
import Dmis.PlannedStock
import Dmis.PlanWrites
import Dmis.IssuedTwice
import Dmis.OnePlan
import Dmis.ItemAgreement
import Dmis.SavedPlans
import Dmis.OneStepDispatch
import Dmis.Lib.Sessions
import Dmis.Events
import Dmis.RequestRaces
import Dmis.Donations
import Dmis.DonationRaces
import Dmis.Users
import Dmis.Staging
import Dmis.StagingReruns
import Dmis.StagingModes
import Dmis.Lib.Locks
import Dmis.LedgerRaces
import Dmis.DonationIntake
import Dmis.IntakeOnce
import Dmis.Availability
import Dmis.Lib.Binary64
import Dmis.Lib.DecimalContext
import Dmis.Lib.Greedy
import Dmis.BatchAllocation
import Dmis.Drawer
import Dmis.PriorityGroups
import Dmis.IntakePosting
import Dmis.IntakeDates
import Dmis.Notifications
import Dmis.Handover
import Dmis.Autoclose
import Dmis.ItemForms
import Dmis.ExecutiveAccess
import Dmis.PickOrder
import Dmis.Lib.PythonText
import Dmis.ParamValidation
import Dmis.DonationForms
import Dmis.VerifiedIntake
import Dmis.Lib.Directory
import Dmis.Documents
import Dmis.ItemMaintenance
import Dmis.StatusDropdown
import Dmis.Lib.Fields
import Dmis.AuditLog
import Dmis.Lib.PosixPath
import Dmis.UploadPaths
import Dmis.Lib.Nested
import Dmis.ExternalData
import Dmis.PhoneNumbers
import Dmis.Lib.Urls
import Dmis.Redirects
import Dmis.ExternalCalls
import Dmis.Redaction
import Dmis.Timezone
import Dmis.Lib.AsOf
import Dmis.CurrencyRates
import Dmis.Lib.Query
import Dmis.PackageAnalytics
import Dmis.AidMovement
import Dmis.ItemCodes
import Dmis.Lib.Pages
import Dmis.Paging
import Dmis.UpcInventory
import Dmis.UpcStock
import Dmis.Lib.Holdings
import Dmis.Conservation
import Dmis.Honoured
import Dmis.RowVersions
import Dmis.AllPosts
import Dmis.Whereabouts
import Dmis.Lib.Blocks
import Dmis.Lib.CopyText
import Dmis.PurgeDatabase
import Dmis.Mailboxes
import Dmis.DrawerSave
import Dmis.StockFlow
import Dmis.Lib.JsNumber
import Dmis.MoneyInput
import Dmis.VerifyPage
