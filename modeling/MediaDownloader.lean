import MediaDownloader.Lib.Program
import MediaDownloader.Lib.Interleaving
import MediaDownloader.Lib.Pipe
import MediaDownloader.Lib.Schedules
import MediaDownloader.Lib.Utf8
import MediaDownloader.Lib.Preference
import MediaDownloader.Domain.Exceptions
import MediaDownloader.Domain.Text
import MediaDownloader.Domain.Json
import MediaDownloader.Domain.Numbers
import MediaDownloader.Domain.DeliveryFilename
import MediaDownloader.Domain.UrlValidation
import MediaDownloader.Domain.Values
import MediaDownloader.Application.FormatPolicy
import MediaDownloader.Application.Ports
import MediaDownloader.Application.RequestDownload
import MediaDownloader.Application.ProcessDownload
import MediaDownloader.Application.ProcessStory
import MediaDownloader.Application.ReapStaleRequests
import MediaDownloader.Application.PhaseOrder
import MediaDownloader.Infrastructure.FormatSelection
import MediaDownloader.Infrastructure.YtDlpDownloader
import MediaDownloader.Infrastructure.ProgressBridge
import MediaDownloader.Infrastructure.StopMarker
import MediaDownloader.Infrastructure.DownloadRunner
import MediaDownloader.Infrastructure.DownloadRequestRepository
import MediaDownloader.Infrastructure.StoredRequests
import MediaDownloader.Infrastructure.PreviewContextStore
import MediaDownloader.Infrastructure.TelegramNotifier
import MediaDownloader.Infrastructure.LocalFileStorage
import MediaDownloader.Infrastructure.UserRepository
import MediaDownloader.Worker.CosmeticProgress
import MediaDownloader.Worker.RequestSystem
import MediaDownloader.Worker.TerminalStatuses
import MediaDownloader.Worker.Reaping
import MediaDownloader.Worker.StaleNotices
import MediaDownloader.Worker.ClosedRequests
import MediaDownloader.Worker.StorageSweep
import MediaDownloader.Telegram.Formatting
import MediaDownloader.Telegram.Keyboards
import MediaDownloader.Telegram.Handlers
import MediaDownloader.Telegram.CardButtons
import MediaDownloader.Telegram.HandlerCalls
import MediaDownloader.Telegram.BotSystem
import MediaDownloader.Telegram.Gates
import MediaDownloader.Telegram.PreviewTokens
import MediaDownloader.Telegram.ProgressListener
import MediaDownloader.Telegram.FinalCard
import MediaDownloader.Telegram.UserStores
import MediaDownloader.Telegram.Registration
import MediaDownloader.Telegram.LanguageStores
import MediaDownloader.Domain.DomainMatching
import MediaDownloader.Infrastructure.RequestColumns
import MediaDownloader.Telegram.UrlRefusals
import MediaDownloader.Infrastructure.PreviewFacts
import MediaDownloader.Telegram.PreviewDuration
import MediaDownloader.Domain.SafeNames
import MediaDownloader.Infrastructure.MediaFacts
import MediaDownloader.Lib.Fragments
import MediaDownloader.Infrastructure.Classification
import MediaDownloader.Infrastructure.RateLimiter
import MediaDownloader.Lib.SlidingWindow
import MediaDownloader.Telegram.RateWindow
import MediaDownloader.Infrastructure.RateRace
import MediaDownloader.Infrastructure.PreviewRunner
import MediaDownloader.Infrastructure.PreviewCollected
import MediaDownloader.Infrastructure.QualityButtons
import MediaDownloader.Infrastructure.VideoTierMigration
import MediaDownloader.Application.KillSwitch
import MediaDownloader.Lib.OrderedQuery
import MediaDownloader.Infrastructure.Listing
import MediaDownloader.Infrastructure.StaleDrain
import MediaDownloader.Telegram.UnreadableEntries
import MediaDownloader.Telegram.ThrottledStream
import MediaDownloader.Lib.FileTree
import MediaDownloader.Infrastructure.IdleSweep
import MediaDownloader.Lib.Hosted
import MediaDownloader.Infrastructure.DownloadWorker
import MediaDownloader.Domain.Decimal
import MediaDownloader.Infrastructure.DownloadPipeline
import MediaDownloader.Lib.Safety
import MediaDownloader.Telegram.Authority
import MediaDownloader.Telegram.ButtonRouting
import MediaDownloader.Application.RequestStory
import MediaDownloader.Worker.ServiceSystem
import MediaDownloader.Worker.Duties
import MediaDownloader.Worker.ServedOrders
import MediaDownloader.Infrastructure.SweptEntries
