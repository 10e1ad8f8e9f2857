import WebSyncPlay.RoomState

/-! What a participant reports of its own player: the per-connection reports and
their aggregate (`services/local-playback-presence.ts`), and the reading of a
`participant:update` patch (`handlers/participant.ts`). -/
namespace WebSyncPlay

open Library

structure LocalPlaybackReport where
  sessionKind : SessionKind
  paused : Bool
  currentTimeMs : ℚ
  loading : Bool
  error : Option String := none
  updatedAt : ℕ
  deriving DecidableEq

def localPlaybackReportStaleMs : ℕ := 15000

def sessionPriority : SessionKind → ℕ
  | .player => 3
  | .room => 2
  | .embed => 2
  | .control => 1

def pruneLocalPlaybackReports (reports : Record String LocalPlaybackReport) (now : ℕ) :
    Record String LocalPlaybackReport :=
  reports.filter fun _ report => decide (now ≤ report.updatedAt+localPlaybackReportStaleMs)

/-- Ready before loading, then the higher session priority, then the later report. -/
def reportRanksBefore (a b : LocalPlaybackReport) : Bool :=
  if a.loading ≠ b.loading then b.loading
  else if sessionPriority a.sessionKind ≠ sessionPriority b.sessionKind then
    decide (sessionPriority b.sessionKind < sessionPriority a.sessionKind)
  else decide (b.updatedAt ≤ a.updatedAt)

/-- Collapse per-connection reports into one; `none` when all of them are stale. -/
def aggregateLocalPlaybackReports (reports : Record String LocalPlaybackReport) (now : ℕ) :
    Option ParticipantLocalPlayback :=
  let fresh := (pruneLocalPlaybackReports reports now).values
  match fresh.mergeSort reportRanksBefore with
  | [] => none
  | primary::_ =>
    some {
      paused := primary.paused
      currentTimeMs := primary.currentTimeMs
      loading := fresh.all (·.loading)
      updatedAt := (fresh.map (·.updatedAt)).foldl max 0
      error := primary.error }

def upsertLocalPlaybackReport (reports : Record String LocalPlaybackReport) (connectionId : String)
    (sessionKind : SessionKind) (snapshot : ParticipantLocalPlayback) :
    Record String LocalPlaybackReport :=
  pruneLocalPlaybackReports
    (reports.set connectionId {
      sessionKind := sessionKind
      paused := snapshot.paused
      currentTimeMs := snapshot.currentTimeMs
      loading := snapshot.loading
      error := snapshot.error
      updatedAt := snapshot.updatedAt })
    snapshot.updatedAt

def defaultAvatarStyle : String := "adventurer"

def avatarStyles : List String := ["adventurer","avataaars","lorelei"]

/-- An unknown style falls back to the default one. -/
def resolveStyle (style : String) : String :=
  if style ∈ avatarStyles then style else defaultAvatarStyle

/-- A parsed patch; `error` is absent, null or a message. -/
structure ParticipantUpdateInput where
  username : Option String := none
  avatarStyle : Option String := none
  paused : Option Bool := none
  currentTimeMs : Option ℚ := none
  loading : Option Bool := none
  error : Option (Option String) := none
  deriving DecidableEq

def playbackTimeDirtyMs : ℚ := 750

/-- An explicit null clears; an absent error keeps the previous one. -/
def resolveLocalPlaybackError (nextError : Option (Option String)) (previousError : Option String) :
    Option String :=
  match nextError with
  | some none => none
  | some (some error) => if trim error = "" then none else some (trim error)
  | none => previousError

structure ParticipantUpdate where
  previousUsername : String
  previousError : Option String
  nextUsername : String
  nextAvatarStyle : String
  localPlayback : ParticipantLocalPlayback
  identityDirty : Bool
  playbackDirty : Bool
  deriving DecidableEq

def resolveParticipantUpdate (participant : ParticipantState) (patch : ParticipantUpdateInput)
    (now : ℕ) : ParticipantUpdate :=
  let previousPlayback := participant.localPlayback
  let nextUsername := patch.username.getD participant.username
  let nextAvatarStyle := resolveStyle (patch.avatarStyle.getD participant.avatarStyle)
  let nextPaused := patch.paused.getD previousPlayback.paused
  let nextCurrentTimeMs := patch.currentTimeMs.getD previousPlayback.currentTimeMs
  let nextLoading := patch.loading.getD previousPlayback.loading
  let nextError := resolveLocalPlaybackError patch.error previousPlayback.error
  let timeDirty := decide (playbackTimeDirtyMs ≤ |nextCurrentTimeMs-previousPlayback.currentTimeMs|)
  { previousUsername := participant.username
    previousError := previousPlayback.error
    nextUsername := nextUsername
    nextAvatarStyle := nextAvatarStyle
    localPlayback :=
      { paused := nextPaused, currentTimeMs := nextCurrentTimeMs, loading := nextLoading,
        error := nextError, updatedAt := now }
    identityDirty := nextUsername != participant.username ||
      nextAvatarStyle != participant.avatarStyle
    playbackDirty := nextPaused != previousPlayback.paused || nextLoading != previousPlayback.loading ||
      nextError != previousPlayback.error || timeDirty }

end WebSyncPlay
