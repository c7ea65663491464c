import Sreda.Workers.QueueThreads
import Sreda.Planner.RecoveryScan
import Sreda.Planner.RecoveryRuns
import Sreda.React.Pauses
import Sreda.Housewife.Reads
import Sreda.Planner.Billing
import Sreda.React.UnifiedPolicy
import Sreda.Services.IdempotentOps
import Sreda.Services.Renewals
import Sreda.Services.UsageLedger
import Sreda.Workers.ReminderLife
import Sreda.Services.TaskReminders
import Sreda.Services.TaskRange
import Sreda.Services.ChecklistTitles
import Sreda.Workers.TelegramLongPoll
import Sreda.Services.AdminLogin
import Sreda.Services.Menus
import Sreda.Services.TenantLifecycle
import Sreda.React.TurnPolicy
import Sreda.Services.ChannelLinking
import Sreda.Services.GuardedCall
import Sreda.Planner.ChatReply
import Sreda.Planner.ReplySecrecy
import Sreda.Planner.HumanizeContract
import Sreda.Services.Encryption
import Sreda.Services.AccountCalls
import Sreda.Services.ProvisioningRuns
import Sreda.Housewife.ProfileUpdates
import Sreda.Workers.TelegramGate
import Sreda.React.Summaries
import Sreda.Services.MemoryCategories
import Sreda.Services.WebSearchUsage
import Sreda.React.CheckpointSaver
import Sreda.Workers.JobExecutor
import Sreda.Workers.ProducerScans
import Sreda.Workers.ProactivePolicy
import Sreda.Services.RecentEvents
import Sreda.Services.SsrfGuard
import Sreda.Services.ToolOkCodec
import Sreda.React.InputSize
import Sreda.Planner.PathStatus
import Sreda.Planner.PlanLibrary
import Sreda.Planner.Orchestrator
import Sreda.Planner.Substitution
import Sreda.Services.ReplyScrub
import Sreda.Housewife.ShoppingAdds
import Sreda.React.ResultReport
import Sreda.React.SgrAgreement
import Sreda.Services.RateLimiter
import Sreda.Services.Recall
import Sreda.Services.RecipeBatch
