import WebSyncPlay.Timeline
import WebSyncPlay.ActionLog
import WebSyncPlay.RoomSecurity

/-! Repair of a stored room (`server/repair.ts`), on states of the stored type:
what it does to a document that is no room at all is not modelled here. Each part
returns the repaired value and the findings it reports. -/
namespace WebSyncPlay

open Library

def repairPlaylistItemFields (item : PlaylistItem) : PlaylistItem × List String :=
  -- Local files are same-origin, never "relay".
  let localRelay := item.sourceKind == .localFile && item.playbackMode == .relay
  let noStatus := item.ingestStatus == none
  ({ item with
      playbackMode := if localRelay then .direct else item.playbackMode
      ingestStatus := if noStatus then some .ready else item.ingestStatus },
    (if localRelay then ["playlist-item-local-playback-mode-repaired"] else []) ++
      (if noStatus then ["playlist-item-ingest-status-repaired"] else []))

/-- Clamp the current index, then trim the playlist to its newest entries. -/
def repairPlaylistState (env : Env) (state : RoomState) : RoomState × List String :=
  let playlist := state.playlist.map fun item => (repairPlaylistItemFields item).1
  let length : ℤ := playlist.length
  let clamped := if length ≤ state.currentIndex then max 0 (length-1) else state.currentIndex
  let index := if clamped < 0 then 0 else clamped
  let overflow := playlist.length-env.roomPlaylistLimit
  let trims := env.roomPlaylistLimit < playlist.length
  ({ state with
      playlist := if trims then playlist.drop overflow else playlist
      currentIndex :=
        if trims then max 0 (min (index-overflow) (env.roomPlaylistLimit-1)) else index },
    (state.playlist.flatMap fun item => (repairPlaylistItemFields item).2) ++
      (if length ≤ state.currentIndex then ["playlist-index-clamped"] else []) ++
      (if clamped < 0 then ["playlist-index-repaired"] else []) ++
      (if trims then ["playlist-trimmed"] else []))

/-- Numbers outside their range are clamped without a finding. -/
def sanitizePlayback (playback : PlaybackState) : PlaybackState :=
  { playback with
    playbackRate := min 3 (max (1/4) playback.playbackRate)
    timelineAnchorMs := max 0 playback.timelineAnchorMs
    serverNowMs := max 0 playback.serverNowMs }

def positiveStamp : Option ℕ → Option ℕ
  | some (n+1) => some (n+1)
  | _ => none

def repairJoinedAt (now : ℕ) (participant : ParticipantState) : ParticipantState :=
  { participant with
    joinedAt := some <| (positiveStamp participant.joinedAt).getD <|
      (positiveStamp participant.connectedAt).getD <|
        (positiveStamp participant.lastSeenAt).getD now }

def repairParticipants (env : Env) (now : ℕ) (participants : Record UserId ParticipantState) :
    Record UserId ParticipantState × List String :=
  let kept := participants.filter fun userId _ => userId != ""
  let taken := kept.take env.roomParticipantsLimit
  (taken.mapValues (repairJoinedAt now),
    (if kept.size ≠ participants.size then ["participants-cleaned"] else []) ++
      (taken.values.flatMap fun participant =>
        if positiveStamp participant.joinedAt = none then ["participant-joined-at-repaired"]
        else []) ++
      (if env.roomParticipantsLimit < kept.size then ["participants-trimmed"] else []))

def repairActionLog (env : Env) (now : ℕ) (actionLog : List ActionLogEntry) :
    List ActionLogEntry × List String :=
  let valid := actionLog.filter fun entry =>
    decide (now ≤ entry.at_+roomActionLogMaxAgeMs) && decide (entry.action ∈ trackedActionTypes)
  let pruned := pruneActionLog env valid now
  (pruned,
    (if valid.length ≠ actionLog.length then ["action-log-filtered"] else []) ++
      (if pruned.length < valid.length then ["action-log-trimmed"] else []))

/-- `newOwnerId` is the random id that stands in for a missing owner. -/
def repairCleanupAndCheckRoomState (env : Env) (now : ℕ) (newOwnerId : UserId) (state : RoomState) :
    RoomState × List String :=
  let playlistRepair := repairPlaylistState env state
  let participantRepair := repairParticipants env now state.participants
  let actionLogRepair := repairActionLog env now state.actionLog
  ({ state with
      ownerId := if state.ownerId = "" then newOwnerId else state.ownerId
      roomSecurity := normalizeRoomSecurity state.roomSecurity
      playlist := playlistRepair.1.playlist
      currentIndex := playlistRepair.1.currentIndex
      participants := participantRepair.1
      actionLog := actionLogRepair.1
      playback := sanitizePlayback state.playback
      updatedAt := if state.updatedAt = 0 then now else state.updatedAt },
    (if state.roomId = "" then ["room-id-invalid"] else []) ++
      (if state.ownerId = "" then ["owner-repaired"] else []) ++
      (if state.roomSecurity.joinPasswordEnabled &&
          (isBlank state.roomSecurity.joinPasswordHash ||
            isBlank state.roomSecurity.joinPasswordSalt) then
        ["room-security-disabled-missing-secret"] else []) ++
      playlistRepair.2 ++ participantRepair.2 ++ actionLogRepair.2 ++
      (if state.updatedAt = 0 then ["updated-at-repaired"] else []))

def applyRoomStateRepair (env : Env) (now : ℕ) (newOwnerId : UserId) (state : RoomState) : RoomState :=
  (repairCleanupAndCheckRoomState env now newOwnerId state).1

end WebSyncPlay
