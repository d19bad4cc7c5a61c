import DataBridge.Framework.Paging
import DataBridge.Providers.SqliteProvider
import DataBridge.Migration.FaithfulCopy
import DataBridge.Migration.PagedRead
import DataBridge.Migration.Restart
import DataBridge.Migration.NotNull
import DataBridge.Migration.RowCounts
import DataBridge.Migration.CompletedContent
import DataBridge.Migration.RestartKeyed
import DataBridge.Migration.ExcludedColumns
import DataBridge.Migration.MovingSource
import DataBridge.Migration.IsolatedTables
import DataBridge.Migration.Truncated
import DataBridge.Migration.BoundedRetries
import DataBridge.Migration.RepeatedTables
import DataBridge.Migration.SqliteRestart
import DataBridge.Migration.Compatibility
import DataBridge.Migration.TypeFamilies
import DataBridge.Migration.KeptValues
import DataBridge.Providers.CrossDatabase
import DataBridge.Providers.PostgresDsn
import DataBridge.Providers.MysqlUrl
import DataBridge.Providers.MysqlCopy
import DataBridge.Providers.RepeatedCreate
import DataBridge.Providers.QuotedNames
import DataBridge.Workers.CompletedAccounts
import DataBridge.Workers.SoftTimeLimit
import DataBridge.Workers.TerminalEvents
import DataBridge.Workers.StoredCredentials
import DataBridge.Workers.FinalRecord
import DataBridge.Workers.HonestProgress
import DataBridge.Websockets.Registry
import DataBridge.System.Cancellation
import DataBridge.System.LiveTasks
import DataBridge.System.Outcome
import DataBridge.System.SoloRun
import DataBridge.System.Restarted
import DataBridge.System.LiveEvents
import DataBridge.System.ProgressChannels
import DataBridge.Migration.SkippedColumns
import DataBridge.Migration.FreshCopy
import DataBridge.Migration.IsolatedPlans
import DataBridge.Migration.StreamTable
import DataBridge.Services.AllOrNothing
import DataBridge.Services.LogPages
import DataBridge.Workers.EventLoops
import DataBridge.Core.AsyncUrl
import DataBridge.Websockets.Payloads
import DataBridge.Services.Subscribers
import DataBridge.System.StoredRequest
import DataBridge.Workers.Isolation
import DataBridge.System.ManyMigrations
import DataBridge.System.RecordLifecycle
import DataBridge.System.CompletedRun
import DataBridge.System.SqliteMigration
import DataBridge.Workers.LoggedRuns
import DataBridge.System.HandleBalance
import DataBridge.System.ResumedMigration
import DataBridge.Framework.Joins
import DataBridge.Providers.PgCatalogue
