import MediaDownloader.Lib.Safety
import MediaDownloader.Application.RequestDownload

/-!
# For whom a request is filed

`RequestDownloadUseCase.execute`, call by call, with all that it knows at each.

* `RequestDownload.wp_files`: the request is filed under the sender's row and
  enqueued for the sender's message.
-/

namespace MediaDownloader

open Interaction

/-- The row of the sender, as found or as just created. -/
def SendersRow (sender : Int) (g : Trace) (user : User) : Prop :=
  ⟨.userGetByTelegramId sender, .ok (some user)⟩ ∈ g ∨
    (user.telegramId = some sender ∧ ⟨.userCreate user, .ok ()⟩ ∈ g)

theorem SendersRow.mono {g g' : Trace} {sender : Int} {user : User} (h : SendersRow sender g user)
    (hg : g ⊆ g') : SendersRow sender g' user :=
  h.imp (fun h => hg h) fun h => ⟨h.1, hg h.2⟩

/-- A request that this handler has created. -/
def OwnRequest (g : Trace) (id : UUID) : Prop :=
  ∃ request : DownloadRequest, ⟨.create request, .ok ()⟩ ∈ g ∧ request.id = id

namespace RequestDownload

/-- What must have happened before a call of `execute`, and what it is for. -/
def Files (u : Unicode) (telegramId : Int) (url : Str) (spec : DownloadSpec)
    (chatId messageId : Int) (g : Trace) : Call → Prop
  | .uuid4 => True
  | .utcnow => True
  | .userGetByTelegramId sender => sender = telegramId
  | .userCreate user => user.telegramId = some telegramId
  | .create request => validateUrl u url = .ok request.sourceUrl ∧ request.spec = spec ∧
      request.status = .pending ∧ ∃ user, SendersRow telegramId g user ∧ request.userId = user.id
  | .enqueueDownload id chat message => chat = chatId ∧ message = messageId ∧ OwnRequest g id
  | .markFailedById id => OwnRequest g id
  | _ => False

variable {u : Unicode} {telegramId : Int} {url : Str} {spec : DownloadSpec}
  {chatId messageId : Int}

abbrev FilesGiven (u : Unicode) (telegramId : Int) (url : Str) (spec : DownloadSpec)
    (chatId messageId : Int) {α : Type} (K : Trace) (p : Program α) : Prop :=
  SafeGiven (fun _ => True) (Files u telegramId url spec chatId messageId) K p

theorem files_createAndEnqueue {K : Trace} {user : User} {validatedUrl : Str}
    (hurl : validateUrl u url = .ok validatedUrl) (hrow : SendersRow telegramId K user) :
    FilesGiven u telegramId url spec chatId messageId K
      (createAndEnqueue user validatedUrl spec chatId messageId) := by
  unfold createAndEnqueue
  refine safeGiven_port_bind (fun _ _ => trivial) fun id _ => ?_
  refine safeGiven_port_bind (fun _ _ => trivial) fun now _ => ?_
  refine safeGiven_port_bind (fun g hg => ⟨hurl, rfl, rfl, user, ?_, rfl⟩) fun _ _ => ?_
  · exact hrow.mono fun e he => hg (List.mem_cons_of_mem _ (List.mem_cons_of_mem _ he))
  -- from here on the request is the handler's own
  have hown {K' g : Trace} (hsub : K' ⊆ g) (hmem : ⟨.create (DownloadRequest.create id now user.id
      validatedUrl spec), .ok ()⟩ ∈ K') : OwnRequest g id := ⟨_, hsub hmem, rfl⟩
  refine safeGiven_attempt_port_bind (fun g hg => ⟨rfl, rfl, hown hg List.mem_cons_self⟩)
    fun r _ => ?_
  cases r with
  | ok _ => exact safeGiven_pure _
  | error e =>
    dsimp only
    split
    · refine safeGiven_port_bind (fun g hg => hown hg ?_) fun _ _ => safeGiven_raise _
      exact List.mem_cons_of_mem _ List.mem_cons_self
    · exact safeGiven_raise _

theorem wp_files (u : Unicode) (policy : FormatPolicy) (telegramId : Int) (url : Str)
    (spec : DownloadSpec) (extractorKey : Str) (chatId messageId : Int) :
    wp (historyMonitor (fun _ => True) (Files u telegramId url spec chatId messageId))
      (execute u policy telegramId url spec extractorKey chatId messageId) []
      fun _ _ => True := by
  refine SafeGiven.wp_nil ?_
  unfold execute
  refine safeGiven_lift_bind fun validatedUrl hurl => ?_
  split
  · exact safeGiven_raise _
  · refine safeGiven_port_bind (fun _ _ => rfl) fun found _ => ?_
    cases found with
    | some user => exact files_createAndEnqueue hurl (.inl List.mem_cons_self)
    | none =>
      refine safeGiven_port_bind (fun _ _ => trivial) fun id _ => ?_
      refine safeGiven_port_bind (fun _ _ => trivial) fun now _ => ?_
      refine safeGiven_port_bind (fun _ _ => rfl) fun _ _ => ?_
      exact files_createAndEnqueue hurl (.inr ⟨rfl, List.mem_cons_self⟩)

end RequestDownload

end MediaDownloader
