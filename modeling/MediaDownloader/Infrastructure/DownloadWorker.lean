import MediaDownloader.Infrastructure.FormatSelection
import MediaDownloader.Infrastructure.MediaFacts
import MediaDownloader.Lib.Hosted

/-!
# The child of a download

`_download_worker_entrypoint` with the helpers it calls, as a program over
yt-dlp, the file system and the two queues.  yt-dlp runs the hooks it was given;
a call that extracts is answered by the hooks it ran and how it ended.

* `worker_story`: whatever yt-dlp and the file system do, every complete run
  tells one story (`WorkerStory`).
-/

namespace MediaDownloader

open Interaction

/-! ## What yt-dlp hands over -/

/-- The dict of a progress hook. -/
structure HookStatus where
  status : Option Str
  downloadedBytes : Option Rat
  totalBytes : Option Rat
  totalBytesEstimate : Option Rat
  speed : Option Rat
  eta : Option Rat

inductive Hook where
  | progress (status : HookStatus)
  | post (filename : Str)

/-- An entry of `requested_downloads`. -/
structure RequestedDownload where
  filesize : Option Int
  filesizeApprox : Option Int
  filepath : Option Str

/-- An info dict, as far as the child reads it; `fields` is what only the
diagnostic prints. -/
structure DownloadInfo where
  requestedDownloads : List RequestedDownload
  filesize : Option Int
  filesizeApprox : Option Int
  media : FinalInfo
  fields : Json

/-- What is raised in the child. -/
inductive WorkerExc where
  /-- `_FileTooLargeError`. -/
  | fileTooLarge (estimatedMb limitMb : Int)
  /-- `yt_dlp.utils.DownloadError`. -/
  | ytDlp (message : Str)
  /-- Any other `Exception`, with its text. -/
  | exception (message : Str)
  /-- A `BaseException` that is no `Exception`. -/
  | base
  deriving DecidableEq

/-- An item of `result_queue`; an `ok` payload is JSON text. -/
inductive ChildItem where
  | ok (payload : Json)
  | tooLarge (payload : Str)
  | extractError (message : Str)
  | error (message : Str)

/-! ## The child's calls -/

inductive WorkerCall where
  | openYdl (opts : YdlOpts)
  | closeYdl
  | extractInfo (url : Str) (download : Bool)
  | prepareFilename (info : DownloadInfo)
  | isFile (path : Str)
  | listDir (path : Str)
  | ffprobe (path : Str)
  | putProgress (raw : RawProgress)
  | putResult (item : ChildItem)

@[reducible] def WorkerResp : WorkerCall → Type
  | .extractInfo _ _ => List Hook × Except WorkerExc (Option DownloadInfo)
  | .prepareFilename _ => Str
  | .isFile _ => Bool
  -- the names, or the text of an `OSError`
  | .listDir _ => Except Str (List Str)
  | .ffprobe _ => ProbeRun
  | _ => Unit

abbrev WorkerAct := Act WorkerCall WorkerResp WorkerExc
abbrev WorkerEvent := Event WorkerCall WorkerResp WorkerExc
abbrev WorkerTrace := List WorkerEvent

abbrev workerPort (c : WorkerCall) : WorkerAct (WorkerResp c) := Act.port c

/-- The texts the interpreter makes. -/
structure WorkerTexts where
  /-- `str(exc)` of what `FormatKind(..)`, `VideoTier(..)` or `spec_from_parts` raises. -/
  badSpec : Str
  /-- `str(exc)` of an `OverflowError` or a `ValueError` of a number. -/
  number : Exc → Str
  reprNames : List Str → Str
  reprInfo : Option Json → Str
  parse : Str → Option PyFloat

/-! ## The source -/

/-- `x or y`. -/
def ratOr (x y : Option Rat) : Option Rat :=
  match x with
  | none => y
  | some q => if q = 0 then y else some q

/-- `_translate_progress_status`. -/
def translateProgressStatus (status : HookStatus) (formatKind : FormatKind) :
    Option RawProgress :=
  if status.status = some (str "finished") then
    if formatKind = .audio then some .converting else none
  else if status.status ≠ some (str "downloading") then none
  else
    some (.stats status.downloadedBytes (ratOr status.totalBytes status.totalBytesEstimate)
      status.speed status.eta)

/-- `_estimate_total_filesize`. -/
def estimateTotalFilesize : Option DownloadInfo → Option Int
  | none => none
  | some info =>
    if info.requestedDownloads.isEmpty then pyOr info.filesize info.filesizeApprox
    else
      let sizes := info.requestedDownloads.map fun r => pyOr r.filesize r.filesizeApprox
      if sizes.all Option.isSome then some (sizes.map fun s => s.getD 0).sum else none

def mebibyteBytes : Nat := 1024 * 1024

/-- `round(estimated_size / (1024 * 1024))`. -/
def estimatedMegabytes (estimatedSize : Int) : Except Exc Int :=
  match (PyNumber.int estimatedSize).scaleDown mebibyteBytes with
  | some (.finite q) => .ok (roundHalfEven q)
  | _ => .error (.other (str "OverflowError"))

/-- An exception of the shared helpers, raised in the child. -/
def WorkerTexts.exc (texts : WorkerTexts) (e : Exc) : WorkerExc := .exception (texts.number e)

def WorkerTexts.lift {α : Type} (texts : WorkerTexts) : Except Exc α → WorkerAct α
  | .ok a => pure a
  | .error e => Act.raise (texts.exc e)

/-- `with contextlib.suppress(Exception)`. -/
def suppressed (p : WorkerAct Unit) : WorkerAct Unit := do
  match ← Act.attempt p with
  | .error .base => Act.raise .base
  | _ => pure ()

/-- `_record_progress`. -/
def recordProgress (formatKind : FormatKind) (status : HookStatus) : WorkerAct Unit :=
  match translateProgressStatus status formatKind with
  | none => pure ()
  | some raw => suppressed (workerPort (.putProgress raw))

/-- One hook; the names of `post_hooks` are collected by `postNames`. -/
def runHook (formatKind : FormatKind) : Hook → WorkerAct Unit
  | .progress status => recordProgress formatKind status
  | .post _ => pure ()

/-- What the post hooks append to `final_filenames`. -/
def postNames (hooks : List Hook) : List Str :=
  hooks.filterMap fun
    | .post filename => some filename
    | .progress _ => none

/-- `ydl.extract_info` with the hooks it runs, and the names they recorded. -/
def extractInfo (url : Str) (download : Bool) (formatKind : FormatKind) :
    WorkerAct (Option DownloadInfo × List Str) := do
  let (hooks, outcome) ← workerPort (.extractInfo url download)
  Act.each (runHook formatKind) hooks
  let info ← Act.lift outcome
  pure (info, postNames hooks)

/-- The check before any byte is transferred. -/
def checkSize (texts : WorkerTexts) (maxFilesizeBytes : Int) (previewInfo : Option DownloadInfo) :
    WorkerAct Unit :=
  match estimateTotalFilesize previewInfo with
  | none => pure ()
  | some estimatedSize =>
    if maxFilesizeBytes < estimatedSize then do
      let estimatedMb ← texts.lift (estimatedMegabytes estimatedSize)
      Act.raise (.fileTooLarge estimatedMb (maxFilesizeBytes / mebibyteBytes))
    else pure ()

/-- `_resolve_downloaded_filepath`. -/
def resolveDownloadedFilepath : Option DownloadInfo → WorkerAct Str
  | none => Act.raise (.exception (str "yt-dlp returned no info after download"))
  | some info =>
    match info.requestedDownloads with
    | { filepath := some (c :: path), .. } :: _ => pure (c :: path)
    | _ => workerPort (.prepareFilename info)

/-- The text of `_build_missing_file_diagnostic`, after `os.listdir`. -/
def missingFileText (texts : WorkerTexts) (filename : Str) (usedPostHookFilename : Bool)
    (postHookFilenames : List Str) (info : Option DownloadInfo) (listing : Except Str (List Str)) :
    Str :=
  let actualFiles :=
    match listing with
    | .ok names => names
    | .error message => [str "<could not list directory: " ++ message ++ str ">"]
  str "yt-dlp reported success but the output file is missing: " ++ filename ++ str ". " ++
    str "used_post_hook_filename=" ++ (if usedPostHookFilename then str "True" else str "False") ++
    str " " ++ str "post_hook_filenames=" ++ texts.reprNames postHookFilenames ++ str " " ++
    str "dir_contents=" ++ texts.reprNames actualFiles ++ str " " ++
    str "info_summary=" ++ texts.reprInfo (info.map DownloadInfo.fields)

/-- `_build_missing_file_diagnostic`. -/
def buildMissingFileDiagnostic (texts : WorkerTexts) (filename outputDir : Str)
    (usedPostHookFilename : Bool) (postHookFilenames : List Str) (info : Option DownloadInfo) :
    WorkerAct Str := do
  let listing ← workerPort (.listDir outputDir)
  pure (missingFileText texts filename usedPostHookFilename postHookFilenames info listing)

/-- The arguments of the child process. -/
structure WorkerArgs where
  url : Str
  outputDir : Str
  maxFilesizeBytes : Option Int
  formatKindValue : Str
  videoTierValue : Option Str

/-- `if max_filesize_bytes`. -/
def WorkerArgs.sizeLimit (args : WorkerArgs) : Option Int :=
  args.maxFilesizeBytes.filter fun bytes => bytes ≠ 0

/-- The proactive check, when there is a limit; the names its hooks recorded. -/
def checkFirst (texts : WorkerTexts) (args : WorkerArgs) (formatKind : FormatKind) :
    WorkerAct (List Str) :=
  match args.sizeLimit with
  | none => pure []
  | some limit => do
    let (previewInfo, names) ← extractInfo args.url false formatKind
    checkSize texts limit previewInfo
    pure names

/-- The body of the `with`: the size check, then the download; the names that
the post hooks recorded in both. -/
def fetchMedia (texts : WorkerTexts) (args : WorkerArgs) (formatKind : FormatKind) :
    WorkerAct (Option DownloadInfo × List Str) := do
  let early ← checkFirst texts args formatKind
  let (info, names) ← extractInfo args.url true formatKind
  pure (info, early ++ names)

/-- `_media_facts`, whose one call is `ffprobe`. -/
def workerMediaFacts (texts : WorkerTexts) (info : Option DownloadInfo) (filename : Str)
    (formatKind : FormatKind) : WorkerAct MediaFacts := do
  let facts ← hosted (fun probe => WorkerCall.ffprobe probe.filename) (fun _ run => run)
    (mediaFacts texts.parse (info.map DownloadInfo.media) filename formatKind)
  texts.lift facts

/-- The last name of the post hooks; without one, yt-dlp's word. -/
def finalFilename (info : Option DownloadInfo) (finalFilenames : List Str) : WorkerAct Str :=
  match finalFilenames.getLast? with
  | some name => pure name
  | none => resolveDownloadedFilepath info

/-- After the `with`: the file that is there, and its facts. -/
def reportMedia (texts : WorkerTexts) (args : WorkerArgs) (formatKind : FormatKind)
    (info : Option DownloadInfo) (finalFilenames : List Str) : WorkerAct Unit := do
  let filename ← finalFilename info finalFilenames
  let there ← workerPort (.isFile filename)
  if there then do
    let facts ← workerMediaFacts texts info filename formatKind
    workerPort (.putResult (.ok facts.payload))
  else do
    let diagnostic ← buildMissingFileDiagnostic texts filename args.outputDir
      (!finalFilenames.isEmpty) finalFilenames info
    Act.raise (.exception diagnostic)

/-- The `try` of `_download_worker_entrypoint`. -/
def workerBody (texts : WorkerTexts) (args : WorkerArgs) : WorkerAct Unit :=
  match specFromParts args.formatKindValue args.videoTierValue with
  | none => Act.raise (.exception texts.badSpec)
  | some spec => do
    let opts := buildDownloadYdlOpts args.outputDir args.maxFilesizeBytes spec true
    let _ ← workerPort (.openYdl opts)
    let (info, names) ← Act.ensure (fetchMedia texts args (specKind spec)) (workerPort .closeYdl)
    reportMedia texts args (specKind spec) info names

/-- `_download_worker_entrypoint`. -/
def downloadWorkerEntrypoint (texts : WorkerTexts) (args : WorkerArgs) : WorkerAct Unit := do
  match ← Act.attempt (workerBody texts args) with
  | .ok _ => pure ()
  | .error (.fileTooLarge estimatedMb limitMb) =>
    workerPort (.putResult (.tooLarge (intStr estimatedMb ++ str ":" ++ intStr limitMb)))
  | .error (.ytDlp message) => workerPort (.putResult (.extractError message))
  | .error (.exception message) => workerPort (.putResult (.error message))
  | .error .base => Act.raise .base

/-- What `download()` passes to the child for a URL and its options. -/
def workerArgs (url : Str) (options : DownloadOptions) : WorkerArgs :=
  { url := url
    outputDir := options.outputDir
    maxFilesizeBytes := options.maxFilesizeBytes
    formatKindValue := (specKind options.spec).value
    videoTierValue := (specVideoTier options.spec).map VideoTier.value }

/-! ## Reading a trace -/

/-- What an answer raised; an extraction may run hooks first. -/
def raisedBy : WorkerEvent → Option WorkerExc
  | ⟨.extractInfo _ _, .ok (_, .error e)⟩ => some e
  | ⟨_, .error e⟩ => some e
  | _ => none

def RaisedIn (t : WorkerTrace) (e : WorkerExc) : Prop := ∃ d ∈ t, raisedBy d = some e

/-- What it raised in the `try`: of putting progress only a `BaseException` gets there. -/
def escaped : WorkerEvent → Option WorkerExc
  | ⟨.putProgress _, .error .base⟩ => some .base
  | ⟨.putProgress _, _⟩ => none
  | d => raisedBy d

/-- Progress, put or suppressed, and the end of the `with` decide nothing. -/
def isQuiet : WorkerEvent → Bool
  | ⟨.putProgress _, .error .base⟩ => false
  | ⟨.putProgress _, _⟩ => true
  | ⟨.closeYdl, .ok _⟩ => true
  | _ => false

/-- The last of `t` that is not quiet is `d`, after `u`. -/
def LastLoud (t u : WorkerTrace) (d : WorkerEvent) : Prop :=
  ∃ v, t = u ++ d :: v ∧ ∀ e ∈ v, isQuiet e = true

/-- The items that reached `result_queue`. -/
def resultItems (t : WorkerTrace) : List ChildItem :=
  t.filterMap fun
    | ⟨.putResult item, .ok _⟩ => some item
    | _ => none

/-- What was put on `progress_queue`, whether or not it arrived. -/
def progressItems (t : WorkerTrace) : List RawProgress :=
  t.filterMap fun e =>
    match e.call with
    | .putProgress raw => some raw
    | _ => none

/-- The hooks that yt-dlp ran. -/
def hooksRun (t : WorkerTrace) : List Hook :=
  t.flatMap fun
    | ⟨.extractInfo _ _, .ok (hooks, _)⟩ => hooks
    | _ => []

def isRealDownload (e : WorkerEvent) : Bool :=
  match e.call with
  | .extractInfo _ download => download
  | _ => false

/-- The item a hook is worth. -/
def Hook.item (formatKind : FormatKind) : Hook → Option RawProgress
  | .progress status => translateProgressStatus status formatKind
  | .post _ => none

/-- Every hook so far has its item on the progress queue, in order. -/
def CaughtUp (formatKind : FormatKind) (t : WorkerTrace) : Prop :=
  progressItems t = (hooksRun t).filterMap (Hook.item formatKind)

/-- Unless a `BaseException` came in between. -/
def Reached (formatKind : FormatKind) (t : WorkerTrace) : Prop :=
  CaughtUp formatKind t ∨ RaisedIn t .base

/-! ## The story -/

section Story

variable (texts : WorkerTexts) (url : Str) (options : DownloadOptions)

/-- `max_filesize_bytes` when it is set. -/
abbrev sizeLimit : Option Int := (workerArgs url options).sizeLimit

/-- The extraction without a download, and what it returned. -/
def Previewed (t : WorkerTrace) (info : Option DownloadInfo) : Prop :=
  ∃ hooks, (⟨.extractInfo url false, .ok (hooks, .ok info)⟩ : WorkerEvent) ∈ t

def Downloaded (t : WorkerTrace) (info : Option DownloadInfo) : Prop :=
  ∃ hooks, (⟨.extractInfo url true, .ok (hooks, .ok info)⟩ : WorkerEvent) ∈ t

/-- No limit, or the estimate is unknown or within it. -/
def SizeAccepted (t : WorkerTrace) : Prop :=
  ∀ limit, sizeLimit url options = some limit →
    ∃ info, Previewed url t info ∧ ∀ size, estimateTotalFilesize info = some size → size ≤ limit

/-- The truthy `filepath` of the first requested download. -/
def DownloadInfo.reportedPath (info : DownloadInfo) : Option Str :=
  (info.requestedDownloads.head?.bind RequestedDownload.filepath).filter fun path => !path.isEmpty

/-- `path` is the last name a post hook reported; without one, what the info dict
reports; without that, what yt-dlp prepares. -/
def FinalName (t : WorkerTrace) (info : Option DownloadInfo) (path : Str) : Prop :=
  (postNames (hooksRun t)).getLast? = some path ∨
    (postNames (hooksRun t) = [] ∧ ∃ final : DownloadInfo, info = some final ∧
      (final.reportedPath = some path ∨
        (final.reportedPath = none ∧ ⟨.prepareFilename final, .ok path⟩ ∈ t)))

/-- What `_media_facts` makes of what yt-dlp finally said and of a probe. -/
abbrev factsAfter (info : Option DownloadInfo) (path : Str) (run : ProbeRun) :
    Except Exc MediaFacts :=
  ((mediaFacts texts.parse (info.map DownloadInfo.media) path (specKind options.spec)).handle
    (probing run) []).2

/-- Facts, or the exception raised for them in the child. -/
def WorkerTexts.outcome (texts : WorkerTexts) : Except Exc MediaFacts → Except WorkerExc MediaFacts
  | .ok facts => .ok facts
  | .error e => .error (texts.exc e)

/-- The `try` ends with the call `d` after `u`: with the facts of the file, or with
this exception. -/
inductive Decides (u : WorkerTrace) : WorkerEvent → Except WorkerExc MediaFacts → Prop
  | raised {d : WorkerEvent} {e : WorkerExc} : escaped d = some e →
      (∀ estimatedMb limitMb, e ≠ .fileTooLarge estimatedMb limitMb) → Decides u d (.error e)
  | tooLarge {hooks : List Hook} {info : Option DownloadInfo} {limit size mb : Int} :
      sizeLimit url options = some limit → estimateTotalFilesize info = some size →
      limit < size → estimatedMegabytes size = .ok mb → (∀ e ∈ u, isRealDownload e = false) →
      Decides u ⟨.extractInfo url false, .ok (hooks, .ok info)⟩
        (.error (.fileTooLarge mb (limit / mebibyteBytes)))
  | unroundable {hooks : List Hook} {info : Option DownloadInfo} {limit size : Int} {e : Exc} :
      sizeLimit url options = some limit → estimateTotalFilesize info = some size →
      limit < size → estimatedMegabytes size = .error e →
      Decides u ⟨.extractInfo url false, .ok (hooks, .ok info)⟩ (.error (texts.exc e))
  | noInfo {hooks : List Hook} : postNames (hooksRun u) ++ postNames hooks = [] →
      Decides u ⟨.extractInfo url true, .ok (hooks, .ok none)⟩
        (.error (.exception (str "yt-dlp returned no info after download")))
  | missing {info : Option DownloadInfo} {path : Str} {listing : Except Str (List Str)} :
      Downloaded url u info → FinalName u info path → ⟨.isFile path, .ok false⟩ ∈ u →
      Decides u ⟨.listDir options.outputDir, .ok listing⟩
        (.error (.exception (missingFileText texts path (!(postNames (hooksRun u)).isEmpty)
          (postNames (hooksRun u)) info listing)))
  -- what yt-dlp said is enough, whatever a probe would say
  | described {info : Option DownloadInfo} {path : Str} {facts : Except Exc MediaFacts} :
      Downloaded url u info → FinalName u info path →
      (∀ run, factsAfter texts options info path run = facts) →
      Decides u ⟨.isFile path, .ok true⟩ (texts.outcome facts)
  | probed {info : Option DownloadInfo} {path : Str} {run : ProbeRun} :
      Downloaded url u info → FinalName u info path → ⟨.isFile path, .ok true⟩ ∈ u →
      Decides u ⟨.ffprobe path, .ok run⟩
        (texts.outcome (factsAfter texts options info path run))

/-- How the `try` ended: its last call that is not quiet decides. -/
def Outcome (t : WorkerTrace) (x : Except WorkerExc MediaFacts) : Prop :=
  ∃ u d, LastLoud t u d ∧ Decides texts url options u d x

/-- The result item that reports an end of the `try`. -/
def reportOf : Except WorkerExc MediaFacts → Option ChildItem
  | .ok facts => some (.ok facts.payload)
  | .error (.fileTooLarge estimatedMb limitMb) =>
    some (.tooLarge (intStr estimatedMb ++ str ":" ++ intStr limitMb))
  | .error (.ytDlp message) => some (.extractError message)
  | .error (.exception message) => some (.error message)
  | .error .base => none

/-- What must have happened before a call of the child. -/
def WorkerWarranted (t : WorkerTrace) : WorkerCall → Prop
  | .openYdl opts =>
    opts = buildDownloadYdlOpts options.outputDir options.maxFilesizeBytes options.spec true
  | .extractInfo url' download =>
    url' = url ∧ if download then SizeAccepted url options t else sizeLimit url options ≠ none
  | .putProgress raw =>
    progressItems t ++ [raw] <+: (hooksRun t).filterMap (Hook.item (specKind options.spec))
  | .putResult item =>
    resultItems t = [] ∧ Reached (specKind options.spec) t ∧
      ∃ x, reportOf x = some item ∧ Outcome texts url options t x
  | _ => True

/-- A result item ended the run. -/
def EndedByItem (t : WorkerTrace) : Prop := ∃ u item, t = u ++ [⟨.putResult item, .ok ()⟩]

/-- It ended with a `BaseException`, or could not put its result. -/
def Died (t : WorkerTrace) (e : WorkerExc) : Prop :=
  (e = .base ∧ Outcome texts url options t (.error .base)) ∨
    ∃ u item, t = u ++ [⟨.putResult item, .error e⟩]

/-- A complete run of the child: every call had its reason; one result item ended
the run, or a `BaseException` or an unusable result queue. -/
structure WorkerStory (t : WorkerTrace) (a : Except WorkerExc Unit) : Prop where
  warranted : ∀ u e v, t = u ++ e :: v → WorkerWarranted texts url options u e.call
  reported : a = .ok () → EndedByItem t
  silent : ∀ e, a = .error e → resultItems t = [] ∧ Died texts url options t e

end Story

/-! ## Traces that grow -/

section Growing

variable {t u : WorkerTrace} {e : WorkerExc}

@[simp] theorem resultItems_append (t u : WorkerTrace) :
    resultItems (t ++ u) = resultItems t ++ resultItems u := List.filterMap_append

@[simp] theorem progressItems_append (t u : WorkerTrace) :
    progressItems (t ++ u) = progressItems t ++ progressItems u := List.filterMap_append

@[simp] theorem hooksRun_append (t u : WorkerTrace) :
    hooksRun (t ++ u) = hooksRun t ++ hooksRun u := List.flatMap_append

theorem RaisedIn.append (h : RaisedIn t e) (u : WorkerTrace) : RaisedIn (t ++ u) e := by
  obtain ⟨d, hd, he⟩ := h
  exact ⟨d, List.mem_append_left _ hd, he⟩

theorem RaisedIn.last {d : WorkerEvent} (h : raisedBy d = some e) : RaisedIn (t ++ [d]) e :=
  ⟨d, by simp, h⟩

/-- Only progress was put. -/
def OnlyProgress (u : WorkerTrace) : Prop := ∀ e ∈ u, ∃ raw, e.call = .putProgress raw

theorem OnlyProgress.results (h : OnlyProgress u) : resultItems u = [] := by
  refine List.filterMap_eq_nil_iff.mpr fun d hd => ?_
  obtain ⟨raw, hraw⟩ := h d hd
  obtain ⟨c, r⟩ := d
  obtain rfl : c = .putProgress raw := hraw
  rfl

theorem OnlyProgress.hooks (h : OnlyProgress u) : hooksRun u = [] := by
  refine List.flatMap_eq_nil_iff.mpr fun d hd => ?_
  obtain ⟨raw, hraw⟩ := h d hd
  obtain ⟨c, r⟩ := d
  obtain rfl : c = .putProgress raw := hraw
  rfl

theorem OnlyProgress.nil : OnlyProgress [] := fun _ h => absurd h List.not_mem_nil

theorem OnlyProgress.cons {d : WorkerEvent} {raw : RawProgress} (hd : d.call = .putProgress raw)
    (h : OnlyProgress u) : OnlyProgress (d :: u) := by
  intro d' hd'
  rcases List.mem_cons.mp hd' with rfl | hmem
  · exact ⟨raw, hd⟩
  · exact h d' hmem

end Growing

/-! ## How the `try` ends -/

section Outcomes

variable {texts : WorkerTexts} {url : Str} {options : DownloadOptions} {t u v : WorkerTrace}
  {d : WorkerEvent} {x : Except WorkerExc MediaFacts}

theorem LastLoud.last (u : WorkerTrace) (d : WorkerEvent) : LastLoud (u ++ [d]) u d :=
  ⟨[], rfl, fun _ h => by cases h⟩

theorem LastLoud.quiet (h : LastLoud t u d) (hv : ∀ e ∈ v, isQuiet e = true) :
    LastLoud (t ++ v) u d := by
  obtain ⟨w, rfl, hw⟩ := h
  refine ⟨w ++ v, by simp, fun e he => ?_⟩
  exact (List.mem_append.mp he).elim (hw e) (hv e)

theorem Outcome.quiet (h : Outcome texts url options t x) (hv : ∀ e ∈ v, isQuiet e = true) :
    Outcome texts url options (t ++ v) x := by
  obtain ⟨u, d, hlast, hdecides⟩ := h
  exact ⟨u, d, hlast.quiet hv, hdecides⟩

/-- The last call raised. -/
theorem Outcome.raised {e : WorkerExc} (h : escaped d = some e)
    (hf : ∀ estimatedMb limitMb, e ≠ .fileTooLarge estimatedMb limitMb) (u : WorkerTrace) :
    Outcome texts url options (u ++ [d]) (.error e) :=
  ⟨u, d, .last u d, .raised h hf⟩

end Outcomes

/-! ## Hooks -/

section Stages

variable {texts : WorkerTexts} {url : Str} {options : DownloadOptions} {g : WorkerTrace}

/-- `_FileTooLargeError` is the module's own: nothing it calls raises it. -/
def Foreign (d : WorkerEvent) : Prop :=
  ∀ estimatedMb limitMb, raisedBy d ≠ some (.fileTooLarge estimatedMb limitMb)

/-- What a proof about the child watches: its history. -/
abbrev workerMonitor (texts : WorkerTexts) (url : Str) (options : DownloadOptions) :
    Monitor WorkerCall WorkerResp WorkerExc WorkerTrace :=
  historyMonitor Foreign (WorkerWarranted texts url options)

theorem wp_suppressed_put {raw : RawProgress} {Q : WorkerTrace → Except WorkerExc Unit → Prop}
    (hw : WorkerWarranted texts url options g (.putProgress raw))
    (hok : ∀ r, isQuiet ⟨.putProgress raw, r⟩ = true → Q (g ++ [⟨.putProgress raw, r⟩]) (.ok ()))
    (hbase : Q (g ++ [⟨.putProgress raw, .error .base⟩]) (.error .base)) :
    wp (workerMonitor texts url options) (suppressed (workerPort (.putProgress raw))) g Q := by
  unfold suppressed workerPort
  rw [wp_act_bind, wp_attempt, wp_port]
  refine ⟨hw, fun r _ => ?_⟩
  cases r with
  | ok _ => exact hok _ rfl
  | error e =>
    cases e with
    | base => exact hbase
    | fileTooLarge _ _ => exact hok _ rfl
    | ytDlp _ => exact hok _ rfl
    | exception _ => exact hok _ rfl

/-- The hooks of an extraction put their items, in order; only a `BaseException`
stops them. -/
theorem wp_runHooks (hooks : List Hook)
    (h : progressItems g ++ hooks.filterMap (Hook.item (specKind options.spec)) =
      (hooksRun g).filterMap (Hook.item (specKind options.spec))) :
    wp (workerMonitor texts url options) (Act.each (runHook (specKind options.spec)) hooks) g
      fun g' r => ∃ u, g' = g ++ u ∧ OnlyProgress u ∧
        match r with
        | .ok _ => CaughtUp (specKind options.spec) g' ∧ ∀ d ∈ u, isQuiet d = true
        | .error e => e = .base ∧ RaisedIn g' .base ∧
          Outcome texts url options g' (.error .base) := by
  induction hooks generalizing g with
  | nil =>
    refine ⟨[], (List.append_nil g).symm, .nil, ?_, fun _ hd => by cases hd⟩
    simpa [CaughtUp] using h
  | cons hook hooks ih =>
    have hskip : hook.item (specKind options.spec) = none →
        wp (workerMonitor texts url options)
          (Act.each (runHook (specKind options.spec)) hooks) g _ :=
      fun hn => ih (by rwa [List.filterMap_cons_none hn] at h)
    unfold Act.each
    rw [wp_act_bind]
    cases hook with
    | post filename => exact hskip rfl
    | progress status =>
      show wp _ (recordProgress (specKind options.spec) status) g _
      unfold recordProgress
      cases hraw : translateProgressStatus status (specKind options.spec) with
      | none => exact hskip hraw
      | some raw =>
        have hitem : (Hook.progress status).item (specKind options.spec) = some raw := hraw
        rw [List.filterMap_cons_some hitem] at h
        refine wp_suppressed_put ⟨_, by rw [List.append_assoc]; exact h⟩ (fun r hquiet => ?_) ?_
        · refine wp_mono _ (ih (g := g ++ [⟨.putProgress raw, r⟩]) ?_) ?_
          · simpa [progressItems, hooksRun] using h
          · rintro g' r' ⟨u, rfl, hu, hr'⟩
            refine ⟨⟨.putProgress raw, r⟩ :: u, by simp, hu.cons rfl, ?_⟩
            cases r' with
            | error e => exact hr'
            | ok _ =>
              refine ⟨hr'.1, fun d hd => ?_⟩
              rcases List.mem_cons.mp hd with rfl | hd
              · exact hquiet
              · exact hr'.2 d hd
        · refine ⟨[⟨.putProgress raw, .error .base⟩], rfl, OnlyProgress.nil.cons rfl, rfl,
            .last rfl, .raised rfl ?_ g⟩
          rintro _ _ ⟨⟩

/-- Nothing is reported yet, and the hooks are on the progress queue. -/
structure Ready (formatKind : FormatKind) (t : WorkerTrace) : Prop where
  results : resultItems t = []
  caughtUp : CaughtUp formatKind t

/-- An exception on its way to the `except` clauses. -/
structure Unreported (texts : WorkerTexts) (url : Str) (options : DownloadOptions)
    (t : WorkerTrace) (e : WorkerExc) : Prop where
  results : resultItems t = []
  reached : Reached (specKind options.spec) t
  outcome : Outcome texts url options t (.error e)

/-- Calls that touch neither queue and run no hook. -/
def isPlain : WorkerCall → Bool
  | .extractInfo _ _ => false
  | .putProgress _ => false
  | .putResult _ => false
  | _ => true

section Plain

variable {c : WorkerCall} {r : Except WorkerExc (WorkerResp c)} {formatKind : FormatKind}

theorem plain_silent (hc : isPlain c = true) :
    resultItems [⟨c, r⟩] = [] ∧ progressItems [⟨c, r⟩] = [] ∧ hooksRun [⟨c, r⟩] = [] ∧
      isRealDownload ⟨c, r⟩ = false := by
  cases c with
  | extractInfo _ _ => cases hc
  | putProgress _ => cases hc
  | putResult _ => cases hc
  | _ => exact ⟨rfl, rfl, rfl, rfl⟩

theorem plain_raised {e : WorkerExc} (hc : isPlain c = true) :
    raisedBy ⟨c, .error e⟩ = some e ∧ escaped ⟨c, .error e⟩ = some e := by
  cases c with
  | extractInfo _ _ => cases hc
  | putProgress _ => cases hc
  | _ => exact ⟨rfl, rfl⟩

theorem CaughtUp.snoc {d : WorkerEvent} (h : CaughtUp formatKind g)
    (hprogress : progressItems [d] = []) (hhooks : hooksRun [d] = []) :
    CaughtUp formatKind (g ++ [d]) := by
  unfold CaughtUp
  rw [progressItems_append, hooksRun_append, hprogress, hhooks, List.append_nil, List.append_nil]
  exact h

theorem CaughtUp.plain (hc : isPlain c = true) (h : CaughtUp formatKind g) :
    CaughtUp formatKind (g ++ [⟨c, r⟩]) :=
  h.snoc (plain_silent hc).2.1 (plain_silent hc).2.2.1

theorem Reached.plain (hc : isPlain c = true) (h : Reached formatKind g) :
    Reached formatKind (g ++ [⟨c, r⟩]) :=
  h.imp (CaughtUp.plain hc) fun hb => hb.append _

theorem results_plain (hc : isPlain c = true) (h : resultItems g = []) :
    resultItems (g ++ [⟨c, r⟩]) = [] := by
  rw [resultItems_append, h, (plain_silent hc).1]
  rfl

/-- A plain call leaves all ready, or raises. -/
theorem wp_plain (hc : isPlain c = true) (hw : WorkerWarranted texts url options g c)
    (h : Ready (specKind options.spec) g) :
    wp (workerMonitor texts url options) (workerPort c) g fun g' r =>
      g' = g ++ [⟨c, r⟩] ∧
        match r with
        | .ok _ => Ready (specKind options.spec) g'
        | .error e => Unreported texts url options g' e := by
  refine (wp_port _ c g _).mpr ⟨hw, fun r hr => ⟨rfl, ?_⟩⟩
  cases r with
  | ok _ => exact ⟨results_plain hc h.results, h.caughtUp.plain hc⟩
  | error e =>
    obtain ⟨hraised, hescaped⟩ := plain_raised (e := e) hc
    exact ⟨results_plain hc h.results, .inl (h.caughtUp.plain hc),
      .raised hescaped (fun a b he => hr a b (he ▸ hraised)) g⟩

end Plain

/-- An extraction runs its hooks and returns, or raises. -/
theorem wp_extractInfo {download : Bool}
    (hw : WorkerWarranted texts url options g (.extractInfo url download))
    (h : Ready (specKind options.spec) g) :
    wp (workerMonitor texts url options) (extractInfo url download (specKind options.spec)) g
      fun g' r =>
        match r with
        | .ok (info, names) => Ready (specKind options.spec) g' ∧ ∃ hooks u,
          g' = g ++ ⟨.extractInfo url download, .ok (hooks, .ok info)⟩ :: u ∧ OnlyProgress u ∧
            (∀ d ∈ u, isQuiet d = true) ∧ names = postNames hooks
        | .error e => Unreported texts url options g' e := by
  unfold extractInfo workerPort
  rw [wp_port_bind]
  refine ⟨hw, fun r hr => ?_⟩
  cases r with
  | error e =>
    refine ⟨?_, .inl ?_, .raised rfl (fun a b he => hr a b (he ▸ rfl)) g⟩
    · rw [historyMonitor_next, resultItems_append, h.results]
      rfl
    · exact h.caughtUp.snoc rfl rfl
  | ok answer =>
    obtain ⟨hooks, outcome⟩ := answer
    refine (wp_act_bind _ _ _ _ _).mpr (wp_mono _ (wp_runHooks hooks ?_) ?_)
    · have hcaught : progressItems g = _ := h.caughtUp
      rw [historyMonitor_next, progressItems_append, hooksRun_append, List.filterMap_append,
        ← hcaught, List.append_assoc]
      simp [progressItems, hooksRun]
    · rintro g' r' ⟨u, rfl, hu, hr'⟩
      have hresults : resultItems (g ++ [⟨.extractInfo url download, .ok (hooks, outcome)⟩] ++ u)
          = [] := by
        rw [resultItems_append, resultItems_append, h.results, hu.results]
        rfl
      cases r' with
      | error e =>
        obtain ⟨rfl, hbase, hended⟩ := hr'
        exact ⟨hresults, .inr hbase, hended⟩
      | ok _ =>
        obtain ⟨hcaught, hquiet⟩ := hr'
        cases outcome with
        | error e =>
          refine ⟨hresults, .inl hcaught, Outcome.quiet (.raised rfl (fun a b he => ?_) g) hquiet⟩
          exact hr a b (he ▸ rfl)
        | ok info => exact ⟨⟨hresults, hcaught⟩, hooks, u, by simp, hu, hquiet, rfl⟩

/-! ## The stages of the child -/

theorem wp_lift_texts {α : Type} (x : Except Exc α)
    {Q : WorkerTrace → Except WorkerExc α → Prop} (hok : ∀ a, x = .ok a → Q g (.ok a))
    (herror : ∀ e, x = .error e → Q g (.error (.exception (texts.number e)))) :
    wp (workerMonitor texts url options) (texts.lift x) g Q := by
  cases x with
  | ok a => exact hok a rfl
  | error e => exact herror e rfl

/-- The size check lets an unknown or small enough estimate through. -/
theorem wp_checkSize {limit : Int} {hooks : List Hook} {info : Option DownloadInfo}
    {u : WorkerTrace} (hlimit : sizeLimit url options = some limit)
    (h : Ready (specKind options.spec) g)
    (hlast : LastLoud g u ⟨.extractInfo url false, .ok (hooks, .ok info)⟩)
    (hnone : ∀ e ∈ u, isRealDownload e = false) :
    wp (workerMonitor texts url options) (checkSize texts limit info) g fun g' r =>
      g' = g ∧
        match r with
        | .ok _ => SizeAccepted url options g
        | .error e => Unreported texts url options g e := by
  have haccept : (∀ size, estimateTotalFilesize info = some size → size ≤ limit) →
      SizeAccepted url options g := by
    intro hsize limit' hlimit'
    obtain rfl : limit = limit' := Option.some.inj (hlimit.symm.trans hlimit')
    obtain ⟨v, rfl, -⟩ := hlast
    exact ⟨info, ⟨hooks, by simp⟩, hsize⟩
  unfold checkSize
  cases hsize : estimateTotalFilesize info with
  | none => exact ⟨rfl, haccept fun size hs => by rw [hsize] at hs; cases hs⟩
  | some size =>
    dsimp only
    split
    · next hlt =>
      refine (wp_act_bind _ _ _ _ _).mpr (wp_lift_texts _ (fun mb hmb => ?_) fun e he => ?_)
      · exact ⟨rfl, h.results, .inl h.caughtUp, _, _, hlast,
          .tooLarge hlimit hsize hlt hmb hnone⟩
      · exact ⟨rfl, h.results, .inl h.caughtUp, _, _, hlast, .unroundable hlimit hsize hlt he⟩
    · next hle =>
      refine ⟨rfl, haccept fun size' hs => ?_⟩
      obtain rfl : size = size' := Option.some.inj (hsize.symm.trans hs)
      omega

/-- The download was the last that decided anything. -/
def LastFetched (url : Str) (t : WorkerTrace) (info : Option DownloadInfo) : Prop :=
  ∃ u hooks, LastLoud t u ⟨.extractInfo url true, .ok (hooks, .ok info)⟩ ∧
    postNames (hooksRun t) = postNames (hooksRun u) ++ postNames hooks

theorem LastFetched.downloaded {info : Option DownloadInfo} (h : LastFetched url g info) :
    Downloaded url g info := by
  obtain ⟨u, hooks, ⟨v, rfl, -⟩, -⟩ := h
  exact ⟨hooks, by simp⟩

/-- The hooks' names, after an extraction. -/
theorem postNames_extraction {download : Bool} {hooks : List Hook} {info : Option DownloadInfo}
    {u : WorkerTrace} (hu : OnlyProgress u) :
    postNames (hooksRun (g ++ ⟨.extractInfo url download, .ok (hooks, .ok info)⟩ :: u)) =
      postNames (hooksRun g) ++ postNames hooks := by
  rw [List.append_cons, hooksRun_append, hooksRun_append, hu.hooks]
  simp [hooksRun, postNames]

/-- The proactive check, from the start. -/
theorem wp_checkFirst (h : Ready (specKind options.spec) g) (hhooks : hooksRun g = [])
    (hnone : ∀ e ∈ g, isRealDownload e = false) :
    wp (workerMonitor texts url options)
      (checkFirst texts (workerArgs url options) (specKind options.spec)) g fun g' r =>
      match r with
      | .ok names => Ready (specKind options.spec) g' ∧ SizeAccepted url options g' ∧
        names = postNames (hooksRun g')
      | .error e => Unreported texts url options g' e := by
  unfold checkFirst
  cases hlimit : (workerArgs url options).sizeLimit with
  | none =>
    refine ⟨h, fun limit hl => ?_, by rw [hhooks]; rfl⟩
    cases hlimit.symm.trans hl
  | some limit =>
    have hw : WorkerWarranted texts url options g (.extractInfo url false) := by
      refine ⟨rfl, fun hn => ?_⟩
      cases hlimit.symm.trans hn
    refine (wp_act_bind _ _ _ _ _).mpr (wp_mono _ (wp_extractInfo hw h) ?_)
    intro g' r hr
    cases r with
    | error e => exact hr
    | ok answer =>
      obtain ⟨info, names⟩ := answer
      obtain ⟨hready, hooks, u, rfl, hu, hquiet, rfl⟩ := hr
      refine (wp_act_bind _ _ _ _ _).mpr
        (wp_mono _ (wp_checkSize hlimit hready ⟨u, rfl, hquiet⟩ hnone) ?_)
      rintro g' r ⟨rfl, hr⟩
      cases r with
      | error e => exact hr
      | ok _ =>
        refine ⟨hready, hr, ?_⟩
        rw [postNames_extraction hu, hhooks]
        rfl

/-- Inside the `with`: the size check, if any, and the download. -/
theorem wp_fetchMedia (h : Ready (specKind options.spec) g) (hhooks : hooksRun g = [])
    (hnone : ∀ e ∈ g, isRealDownload e = false) :
    wp (workerMonitor texts url options)
      (fetchMedia texts (workerArgs url options) (specKind options.spec)) g fun g' r =>
      match r with
      | .ok (info, names) => Ready (specKind options.spec) g' ∧ LastFetched url g' info ∧
        names = postNames (hooksRun g')
      | .error e => Unreported texts url options g' e := by
  refine (wp_act_bind _ _ _ _ _).mpr (wp_mono _ (wp_checkFirst h hhooks hnone) ?_)
  intro g' r hr
  cases r with
  | error e => exact hr
  | ok early =>
    obtain ⟨hready, haccepted, rfl⟩ := hr
    have hw : WorkerWarranted texts url options g' (.extractInfo url true) := ⟨rfl, haccepted⟩
    refine (wp_act_bind _ _ _ _ _).mpr (wp_mono _ (wp_extractInfo hw hready) ?_)
    intro g'' r hr
    cases r with
    | error e => exact hr
    | ok answer =>
      obtain ⟨info, names⟩ := answer
      obtain ⟨hready', hooks, u, rfl, hu, hquiet, rfl⟩ := hr
      have hnames : postNames (hooksRun
          (g' ++ ⟨.extractInfo url true, .ok (hooks, .ok info)⟩ :: u)) =
          postNames (hooksRun g') ++ postNames hooks := postNames_extraction hu
      exact ⟨hready', ⟨g', hooks, ⟨u, rfl, hquiet⟩, hnames⟩, hnames.symm⟩

/-- Facts, if any, of this file. -/
def FactsOf (filename : Str) (r : Except Exc MediaFacts) : Prop :=
  ∀ facts, r = .ok facts → facts.path = filename

theorem FactsOf.error {filename : Str} (e : Exc) : FactsOf filename (.error e) :=
  fun _ h => by cases h

theorem FactsOf.describe (info : FinalInfo) (filename : Str) (width height duration : Option Int) :
    FactsOf filename (.ok (describeMedia info filename width height duration)) :=
  fun _ h => by cases h; rfl

/-- `_media_facts` returns at once, or after its one probe. -/
theorem mediaFacts_cases (parse : Str → Option PyFloat) (info : Option FinalInfo)
    (filename : Str) (kind : FormatKind) :
    (∃ a, mediaFacts parse info filename kind = .ret a ∧ FactsOf filename a) ∨
      ∃ k, mediaFacts parse info filename kind = .call ⟨filename⟩ k ∧
        ∀ r, ∃ a, k r = .ret a ∧ FactsOf filename a := by
  unfold mediaFacts
  dsimp only
  generalize (if kind = .video then positiveInt (info.getD .empty).width else .ok none) = width
  generalize (if kind = .video then positiveInt (info.getD .empty).height else .ok none) = height
  generalize positiveInt (info.getD .empty).duration = duration
  cases width with
  | error e => exact .inl ⟨_, rfl, .error e⟩
  | ok w =>
    cases height with
    | error e => exact .inl ⟨_, rfl, .error e⟩
    | ok h =>
      cases duration with
      | error e => exact .inl ⟨_, rfl, .error e⟩
      | ok d =>
        by_cases hlack : d = none ∨ (kind = .video ∧ (w = none ∨ h = none))
        · refine .inr ⟨_, if_pos hlack, fun r => ?_⟩
          cases r with
          | error e => exact ⟨_, rfl, .error e⟩
          | ok run =>
            show ∃ a, Prog.bind (Prog.ret (readProbe parse run)) _ = _ ∧ _
            cases readProbe parse run with
            | error e => exact ⟨_, rfl, .error e⟩
            | ok probed => exact ⟨_, rfl, .describe _ _ _ _ _⟩
        · exact .inl ⟨_, if_neg hlack, .describe _ _ _ _ _⟩

/-- The guest's side of the probe: one `ffprobe` on the file, and what it said. -/
def probeMonitor (filename : Str) : Monitor Ffprobe (fun _ => ProbeRun) Exc (Option ProbeRun) where
  next _ _ r := r.toOption
  allow said probe := said = none ∧ probe.filename = filename
  assume _ _ r := ∃ run, r = .ok run

/-- The facts are those for what the probe said; without a probe, for whatever it
would have said. -/
theorem wp_mediaFacts (parse : Str → Option PyFloat) (info : Option FinalInfo) (filename : Str)
    (kind : FormatKind) :
    wp (probeMonitor filename) (mediaFacts parse info filename kind) none fun said facts =>
      FactsOf filename facts ∧ ∀ run, said = none ∨ said = some run →
        ((mediaFacts parse info filename kind).handle (probing run) []).2 = facts := by
  rcases mediaFacts_cases parse info filename kind with ⟨a, ha, hpath⟩ | ⟨k, hk, hret⟩
  · rw [ha]
    exact ⟨hpath, fun _ _ => rfl⟩
  · rw [hk]
    refine ⟨⟨rfl, rfl⟩, ?_⟩
    rintro r ⟨run, rfl⟩
    obtain ⟨a, ha, hpath⟩ := hret (.ok run)
    rw [ha]
    refine ⟨hpath, ?_⟩
    rintro run' (h | h)
    · cases h
    · obtain rfl : run = run' := Option.some.inj h
      show ((k (.ok run)).handle (probing run) _).2 = a
      rw [ha]
      rfl

/-- `t` went on from `g` without another hook. -/
structure WentOn (formatKind : FormatKind) (g t : WorkerTrace) : Prop where
  ready : Ready formatKind t
  before : g <+: t
  hooks : hooksRun t = hooksRun g

theorem WentOn.refl {formatKind : FormatKind} (h : Ready formatKind g) : WentOn formatKind g g :=
  ⟨h, List.prefix_refl g, rfl⟩

theorem WentOn.plain {formatKind : FormatKind} {t : WorkerTrace} {c : WorkerCall}
    {r : Except WorkerExc (WorkerResp c)} (hc : isPlain c = true) (h : WentOn formatKind g t) :
    WentOn formatKind g (t ++ [⟨c, r⟩]) := by
  refine ⟨⟨results_plain hc h.ready.results, h.ready.caughtUp.plain hc⟩,
    h.before.trans (List.prefix_append _ _), ?_⟩
  rw [hooksRun_append, (plain_silent hc).2.2.1, List.append_nil, h.hooks]

/-- `wp_plain`, from a trace that went on from `g`. -/
theorem wp_plain_kept {t : WorkerTrace} {c : WorkerCall} (hc : isPlain c = true)
    (hw : WorkerWarranted texts url options t c) (h : WentOn (specKind options.spec) g t) :
    wp (workerMonitor texts url options) (workerPort c) t fun t' r =>
      match r with
      | .ok a => WentOn (specKind options.spec) g t' ∧ ⟨c, .ok a⟩ ∈ t'
      | .error e => Unreported texts url options t' e := by
  refine wp_mono _ (wp_plain hc hw h.ready) ?_
  rintro t' r ⟨rfl, hr⟩
  cases r with
  | ok a => exact ⟨h.plain hc, by simp⟩
  | error e => exact hr

theorem Downloaded.mono {t : WorkerTrace} {info : Option DownloadInfo} (h : Downloaded url g info)
    (ht : g <+: t) : Downloaded url t info := by
  obtain ⟨hooks, hmem⟩ := h
  exact ⟨hooks, ht.subset hmem⟩

theorem FinalName.mono {t : WorkerTrace} {info : Option DownloadInfo} {path : Str}
    (h : FinalName g info path) (ht : g <+: t) (hhooks : hooksRun t = hooksRun g) :
    FinalName t info path := by
  unfold FinalName
  rw [hhooks]
  refine h.imp_right fun ⟨hnames, final, hinfo, hpath⟩ => ⟨hnames, final, hinfo, ?_⟩
  exact hpath.imp_right fun ⟨hreported, hmem⟩ => ⟨hreported, ht.subset hmem⟩

/-- The calls of a probe that has said this much. -/
def probeCalls (filename : Str) : Option ProbeRun → WorkerTrace
  | none => []
  | some run => [⟨.ffprobe filename, .ok run⟩]

theorem hosting_ffprobe {t : WorkerTrace} (filename : Str) :
    Hosting (fun probe => WorkerCall.ffprobe probe.filename) (fun _ run => run)
      (probeMonitor filename) (workerMonitor texts url options)
      (fun said t' => WentOn (specKind options.spec) g t' ∧ t' = t ++ probeCalls filename said)
      (Unreported texts url options) where
  allow _ _ := trivial
  assume {_ _ _ r} _ _ := ⟨r, rfl⟩
  next {_ _ _ r} h hallow := by
    obtain ⟨hkept, rfl⟩ := h
    obtain ⟨rfl, rfl⟩ := hallow
    exact ⟨hkept.plain rfl, by simp [probeCalls, Except.toOption, probeMonitor]⟩
  abandon h hf :=
    ⟨results_plain rfl h.1.ready.results, .inl (h.1.ready.caughtUp.plain rfl),
      .raised rfl (fun a b he => hf a b (he ▸ rfl)) _⟩

/-- The facts of the file, for what yt-dlp finally said. -/
theorem wp_workerMediaFacts {t : WorkerTrace} {info : Option DownloadInfo} {filename : Str}
    (h : WentOn (specKind options.spec) g (t ++ [⟨.isFile filename, .ok true⟩]))
    (hinfo : Downloaded url t info) (hname : FinalName t info filename) :
    wp (workerMonitor texts url options)
      (workerMediaFacts texts info filename (specKind options.spec))
      (t ++ [⟨.isFile filename, .ok true⟩]) fun t' r =>
      match r with
      | .ok facts => WentOn (specKind options.spec) g t' ∧
        Outcome texts url options t' (.ok facts)
      | .error e => Unreported texts url options t' e := by
  refine (wp_act_bind _ _ _ _ _).mpr (wp_mono _ (wp_hosted (hosting_ffprobe filename)
    ⟨h, (List.append_nil _).symm⟩ (wp_mediaFacts texts.parse _ filename _)) ?_)
  intro t' r hr
  cases r with
  | error e => exact hr
  | ok facts =>
    obtain ⟨said, ⟨hkept, rfl⟩, -, hfacts⟩ := hr
    have houtcome : Outcome texts url options
        (t ++ [⟨.isFile filename, .ok true⟩] ++ probeCalls filename said) (texts.outcome facts) := by
      cases said with
      | none =>
        rw [probeCalls, List.append_nil]
        exact ⟨t, _, .last t _, .described hinfo hname fun run => hfacts run (.inl rfl)⟩
      | some run =>
        refine ⟨_, _, .last _ _, ?_⟩
        rw [← hfacts run (.inr rfl)]
        refine .probed (hinfo.mono (List.prefix_append _ _)) (hname.mono (List.prefix_append _ _) ?_)
          (by simp)
        rw [hooksRun_append]
        exact List.append_nil _
    refine wp_lift_texts facts (fun a ha => ⟨hkept, ?_⟩) fun e he => ?_
    · rw [ha] at houtcome
      exact houtcome
    · rw [he] at houtcome
      exact ⟨hkept.ready.results, .inl hkept.ready.caughtUp, houtcome⟩

/-- What the info dict reports, or else what yt-dlp prepares. -/
theorem resolve_cases (final : DownloadInfo) :
    (∃ path, final.reportedPath = some path ∧
      resolveDownloadedFilepath (some final) = pure path) ∨
    (final.reportedPath = none ∧
      resolveDownloadedFilepath (some final) = workerPort (.prepareFilename final)) := by
  obtain ⟨requested, filesize, approx, media, fields⟩ := final
  cases requested with
  | nil => exact .inr ⟨rfl, rfl⟩
  | cons first rest =>
    obtain ⟨filesize, approx, filepath⟩ := first
    cases filepath with
    | none => exact .inr ⟨rfl, rfl⟩
    | some path =>
      cases path with
      | nil => exact .inr ⟨rfl, rfl⟩
      | cons c path => exact .inl ⟨c :: path, rfl, rfl⟩

/-- The name of the file, from the hooks or from yt-dlp's word. -/
theorem wp_resolve {info : Option DownloadInfo} (h : Ready (specKind options.spec) g)
    (hinfo : LastFetched url g info) (hnames : postNames (hooksRun g) = []) :
    wp (workerMonitor texts url options) (resolveDownloadedFilepath info) g fun g' r =>
      match r with
      | .ok path => WentOn (specKind options.spec) g g' ∧ FinalName g' info path
      | .error e => Unreported texts url options g' e := by
  have hgo : WentOn (specKind options.spec) g g := .refl h
  cases info with
  | none =>
    obtain ⟨u, hooks, hlast, hnone⟩ := hinfo
    exact ⟨h.results, .inl h.caughtUp, _, _, hlast, .noInfo (hnone.symm.trans hnames)⟩
  | some final =>
    rcases resolve_cases final with ⟨path, hreported, hresolve⟩ | ⟨hreported, hresolve⟩
    · rw [hresolve]
      exact ⟨hgo, .inr ⟨hnames, final, rfl, .inl hreported⟩⟩
    · rw [hresolve]
      refine wp_mono _ (wp_plain_kept rfl trivial hgo) ?_
      intro g' r hr
      cases r with
      | error e => exact hr
      | ok path =>
        exact ⟨hr.1, .inr ⟨by rw [hr.1.hooks, hnames], final, rfl, .inr ⟨hreported, hr.2⟩⟩⟩

theorem wp_finalFilename {info : Option DownloadInfo} (h : Ready (specKind options.spec) g)
    (hinfo : LastFetched url g info) :
    wp (workerMonitor texts url options) (finalFilename info (postNames (hooksRun g))) g
      fun g' r =>
      match r with
      | .ok path => WentOn (specKind options.spec) g g' ∧ FinalName g' info path
      | .error e => Unreported texts url options g' e := by
  unfold finalFilename
  cases hlast : (postNames (hooksRun g)).getLast? with
  | some name => exact ⟨.refl h, .inl hlast⟩
  | none =>
    refine wp_mono _ (wp_resolve h hinfo (List.getLast?_eq_none_iff.mp hlast)) ?_
    exact fun g' r hr => by cases r <;> exact hr

/-- A file that is not there ends the `try` with the diagnostic. -/
theorem wp_missing {t : WorkerTrace} {filename : Str} {info : Option DownloadInfo}
    (h : WentOn (specKind options.spec) g t) (hinfo : Downloaded url t info)
    (hname : FinalName t info filename) (hfile : ⟨.isFile filename, .ok false⟩ ∈ t) :
    wp (workerMonitor texts url options)
      (buildMissingFileDiagnostic texts filename options.outputDir
          (!(postNames (hooksRun g)).isEmpty) (postNames (hooksRun g)) info >>= fun diagnostic =>
        Act.raise (.exception diagnostic) : WorkerAct Unit) t fun t' r =>
      match r with
      | .ok _ => False
      | .error e => Unreported texts url options t' e := by
  unfold buildMissingFileDiagnostic
  rw [wp_act_bind, wp_act_bind]
  refine wp_mono _ (wp_plain rfl trivial h.ready) ?_
  rintro t' r ⟨rfl, hr⟩
  cases r with
  | error e => exact hr
  | ok listing =>
    refine ⟨hr.results, .inl hr.caughtUp, t, _, .last t _, ?_⟩
    rw [← h.hooks]
    exact .missing hinfo hname hfile

/-- Putting the result ends the run, or raises. -/
theorem wp_report {item : ChildItem} {t : WorkerTrace}
    (hw : WorkerWarranted texts url options t (.putResult item)) :
    wp (workerMonitor texts url options) (workerPort (.putResult item)) t fun t' r =>
      match r with
      | .ok _ => EndedByItem t'
      | .error e => Unreported texts url options t' e ∧
        t' = t ++ [⟨.putResult item, .error e⟩] := by
  refine (wp_port _ _ t _).mpr ⟨hw, fun r hr => ?_⟩
  cases r with
  | ok _ => exact ⟨t, item, rfl⟩
  | error e =>
    refine ⟨⟨?_, ?_, .raised rfl (fun a b he => hr a b (he ▸ rfl)) t⟩, rfl⟩
    · rw [historyMonitor_next, resultItems_append, hw.1]
      rfl
    · exact hw.2.1.imp (fun h => h.snoc rfl rfl) fun h => h.append _

/-- After the `with`: the facts are reported, or the `try` is left. -/
theorem wp_reportMedia {info : Option DownloadInfo} (h : Ready (specKind options.spec) g)
    (hinfo : LastFetched url g info) :
    wp (workerMonitor texts url options)
      (reportMedia texts (workerArgs url options) (specKind options.spec) info
        (postNames (hooksRun g))) g fun g' r =>
      match r with
      | .ok _ => EndedByItem g'
      | .error e => Unreported texts url options g' e := by
  refine (wp_act_bind _ _ _ _ _).mpr (wp_mono _ (wp_finalFilename h hinfo) ?_)
  intro g₁ r hr
  cases r with
  | error e => exact hr
  | ok path =>
    obtain ⟨hgo, hpath⟩ := hr
    have hdownloaded : Downloaded url g₁ info := hinfo.downloaded.mono hgo.before
    refine (wp_act_bind _ _ _ _ _).mpr (wp_mono _ (wp_plain rfl trivial hgo.ready) ?_)
    rintro g₂ r ⟨rfl, hr⟩
    cases r with
    | error e => exact hr
    | ok there =>
      have hgo₂ : WentOn (specKind options.spec) g (g₁ ++ [⟨.isFile path, .ok there⟩]) :=
        hgo.plain rfl
      cases there with
      | false =>
        have hname := hpath.mono (List.prefix_append _ _) (hgo₂.hooks.trans hgo.hooks.symm)
        have hinfo₂ := hdownloaded.mono (List.prefix_append _ [⟨.isFile path, .ok false⟩])
        refine wp_mono _ (wp_missing hgo₂ hinfo₂ hname (by simp)) ?_
        intro g₃ r hr
        cases r with
        | ok _ => exact hr.elim
        | error e => exact hr
      | true =>
        refine (wp_act_bind _ _ _ _ _).mpr
          (wp_mono _ (wp_workerMediaFacts hgo₂ hdownloaded hpath) ?_)
        intro g₃ r hr
        cases r with
        | error e => exact hr
        | ok facts =>
          obtain ⟨hgo₃, houtcome⟩ := hr
          refine wp_mono _ (wp_report ⟨hgo₃.ready.results, .inl hgo₃.ready.caughtUp,
            .ok facts, rfl, houtcome⟩) ?_
          intro g₄ r hr
          cases r with
          | ok _ => exact hr
          | error e => exact hr.1

/-- The end of the `with` decides nothing. -/
theorem quiet_close : ∀ d ∈ [(⟨.closeYdl, .ok ()⟩ : WorkerEvent)], isQuiet d = true := by
  simp [isQuiet]

theorem LastFetched.close {info : Option DownloadInfo} (h : LastFetched url g info) :
    LastFetched url (g ++ [⟨.closeYdl, .ok ()⟩]) info := by
  obtain ⟨u, hooks, hlast, hnames⟩ := h
  refine ⟨u, hooks, hlast.quiet quiet_close, ?_⟩
  rw [hooksRun_append, ← hnames]
  exact congrArg postNames (List.append_nil _)

/-- `__exit__`: an exception of its own replaces the one on its way. -/
theorem wp_close {r : Except WorkerExc (Option DownloadInfo × List Str)}
    (h : match r with
      | .ok (info, names) => Ready (specKind options.spec) g ∧ LastFetched url g info ∧
        names = postNames (hooksRun g)
      | .error e => Unreported texts url options g e) :
    wp (workerMonitor texts url options) (workerPort .closeYdl) g fun g' r' =>
      match r' with
      | .ok _ =>
        match r with
        | .ok (info, names) => Ready (specKind options.spec) g' ∧ LastFetched url g' info ∧
          names = postNames (hooksRun g')
        | .error e => Unreported texts url options g' e
      | .error e => Unreported texts url options g' e := by
  have hc : isPlain .closeYdl = true := rfl
  refine (wp_port _ WorkerCall.closeYdl g _).mpr ⟨trivial, fun r' hr' => ?_⟩
  have hresults : resultItems g = [] := by cases r with
    | ok x => exact h.1.results
    | error e => exact h.results
  have hreached : Reached (specKind options.spec) g := by cases r with
    | ok x => exact .inl h.1.caughtUp
    | error e => exact h.reached
  cases r' with
  | error e =>
    exact ⟨results_plain hc hresults, hreached.plain hc,
      .raised rfl (fun a b he => hr' a b (he ▸ rfl)) g⟩
  | ok _ =>
    cases r with
    | error e =>
      exact ⟨results_plain hc hresults, hreached.plain hc, h.outcome.quiet quiet_close⟩
    | ok x =>
      have hgo := (WentOn.refl h.1).plain (r := .ok ()) hc
      exact ⟨hgo.ready, h.2.1.close, by rw [h.2.2, ← hgo.hooks]; rfl⟩

/-- The whole `try`. -/
theorem wp_workerBody :
    wp (workerMonitor texts url options) (workerBody texts (workerArgs url options)) []
      fun g r =>
      match r with
      | .ok _ => EndedByItem g
      | .error e => Unreported texts url options g e := by
  have hready : Ready (specKind options.spec) [] := ⟨rfl, rfl⟩
  have hspec : specFromParts (workerArgs url options).formatKindValue
      (workerArgs url options).videoTierValue = some options.spec := specFromParts_parts _
  unfold workerBody
  rw [hspec]
  refine (wp_act_bind _ _ _ _ _).mpr (wp_mono _ (wp_plain rfl rfl hready) ?_)
  rintro g₁ r ⟨rfl, hr⟩
  cases r with
  | error e => exact hr
  | ok _ =>
    rw [wp_act_bind, wp_ensure]
    refine wp_mono _ (wp_fetchMedia hr rfl ?_) ?_
    · simp [isRealDownload]
    · intro g₂ r hr
      refine wp_mono _ (wp_close hr) ?_
      intro g₃ r' hr'
      cases r' with
      | error e => exact hr'
      | ok _ =>
        cases r with
        | error e => exact hr'
        | ok x =>
          obtain ⟨info, names⟩ := x
          obtain ⟨hready₃, hinfo, rfl⟩ := hr'
          exact wp_reportMedia hready₃ hinfo

/-- What the end of a run says. -/
structure Ended (texts : WorkerTexts) (url : Str) (options : DownloadOptions) (t : WorkerTrace)
    (a : Except WorkerExc Unit) : Prop where
  reported : a = .ok () → EndedByItem t
  silent : ∀ e, a = .error e → resultItems t = [] ∧ Died texts url options t e

/-- An `except` clause that reports. -/
theorem wp_reportOf {e : WorkerExc} {item : ChildItem} (hitem : reportOf (.error e) = some item)
    (h : Unreported texts url options g e) :
    wp (workerMonitor texts url options) (workerPort (.putResult item)) g
      (Ended texts url options) := by
  refine wp_mono _ (wp_report ⟨h.results, h.reached, .error e, hitem, h.outcome⟩) ?_
  intro g' r hr
  cases r with
  | ok _ => exact ⟨fun _ => hr, fun e he => (by cases he)⟩
  | error x =>
    obtain ⟨hun, rfl⟩ := hr
    refine ⟨fun h => (by cases h), fun e he => ⟨hun.results, .inr ⟨g, item, ?_⟩⟩⟩
    cases he
    rfl

theorem wp_entrypoint :
    wp (workerMonitor texts url options) (downloadWorkerEntrypoint texts (workerArgs url options))
      [] (Ended texts url options) := by
  unfold downloadWorkerEntrypoint
  rw [wp_act_bind, wp_attempt]
  refine wp_mono _ wp_workerBody ?_
  intro g r hr
  cases r with
  | ok _ => exact ⟨fun _ => hr, fun e he => (by cases he)⟩
  | error e =>
    cases e with
    | fileTooLarge mb limitMb => exact wp_reportOf rfl hr
    | ytDlp message => exact wp_reportOf rfl hr
    | exception message => exact wp_reportOf rfl hr
    | base =>
      refine ⟨fun h => (by cases h), fun e he => ⟨hr.results, .inl ⟨?_, hr.outcome⟩⟩⟩
      cases he
      rfl

end Stages

/-- Whatever yt-dlp and the file system do, the child tells one story. -/
theorem worker_story (texts : WorkerTexts) (url : Str) (options : DownloadOptions)
    {t : WorkerTrace} {a : Except WorkerExc Unit}
    (hr : Runs (downloadWorkerEntrypoint texts (workerArgs url options)) t a)
    (hf : ∀ d ∈ t, Foreign d) : WorkerStory texts url options t a := by
  have hend := historyMonitor_post wp_entrypoint hr hf
  exact ⟨fun u e v ht => historyMonitor_made wp_entrypoint hr hf ht, hend.reported, hend.silent⟩

/-- What yt-dlp says of a track of five seconds. -/
def trackInfo : DownloadInfo :=
  { requestedDownloads := []
    filesize := none
    filesizeApprox := none
    media := { FinalInfo.empty with duration := .int 5 }
    fields := .null }

def trackOptions : DownloadOptions := ⟨str "d", none, 60, .audio⟩

def trackTexts : WorkerTexts := ⟨[], fun _ => [], fun _ => [], fun _ => [], fun _ => none⟩

/-- Its facts, once it is an mp3. -/
def trackFacts : MediaFacts := ⟨str "d/a.mp3", none, none, some 5, none, none⟩

/-- The run of the child: no size check, the end of the download, the name. -/
def trackTrace : WorkerTrace :=
  [⟨.openYdl (buildDownloadYdlOpts (str "d") none .audio true), .ok ()⟩,
    ⟨.extractInfo (str "u") true,
      .ok ([.progress ⟨some (str "finished"), none, none, none, none, none⟩,
        .post (str "d/a.mp3")], .ok (some trackInfo))⟩,
    ⟨.putProgress .converting, .ok ()⟩, ⟨.closeYdl, .ok ()⟩,
    ⟨.isFile (str "d/a.mp3"), .ok true⟩, ⟨.putResult (.ok trackFacts.payload), .ok ()⟩]

theorem track_runs :
    Runs (downloadWorkerEntrypoint trackTexts (workerArgs (str "u") trackOptions)) trackTrace
      (.ok ()) :=
  .call (.call (.call (.call (.call (.call (.done _))))))

theorem track_foreign : ∀ d ∈ trackTrace, Foreign d := by
  intro d hd mb limitMb
  simp only [trackTrace, List.mem_cons, List.not_mem_nil, or_false] at hd
  rcases hd with rfl | rfl | rfl | rfl | rfl | rfl <;> simp [raisedBy]

/-- An audio download without a limit, whose post hook names the file. -/
theorem worker_story_track : WorkerStory trackTexts (str "u") trackOptions trackTrace (.ok ()) :=
  worker_story trackTexts (str "u") trackOptions track_runs track_foreign

end MediaDownloader
