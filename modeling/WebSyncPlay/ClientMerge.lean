import WebSyncPlay.Playhead
import WebSyncPlay.Library.LatestWins

/-! The client's copy of a room (`client/realtime/room-state-merge.ts`) and the
broadcasts that it merges (`broadcast/room-broadcast-bus.ts`,
`broadcast/snapshot-build.ts`). -/
namespace WebSyncPlay

open Library

structure PublicRoomSecurityState where
  joinPasswordEnabled : Bool
  joinPasswordUpdatedAt : Option ℕ
  admissionVersion : ℕ
  defaultJoinRole : DefaultJoinRole
  deriving DecidableEq

structure PresencePatch where
  connected : Option Bool := none
  lastSeenAt : Option ℕ := none
  disconnectedAt : Option ℕ := none
  username : Option String := none
  avatarStyle : Option String := none
  localPlayback : Option ParticipantLocalPlayback := none
  deriving DecidableEq

structure RoomControlPayload where
  generation : ℕ
  playback : PlaybackState
  currentIndex : ℤ
  updatedAt : ℕ
  deriving DecidableEq

structure PresenceBatchPayload where
  presenceRevision : ℕ
  participants : Record UserId PresencePatch
  deriving DecidableEq

structure RoomSnapshotPayload where
  roomId : String
  ownerId : UserId
  roomSecurity : PublicRoomSecurityState
  playback : PlaybackState
  playlist : List PlaylistItem
  currentIndex : ℤ
  participants : Record UserId ParticipantState
  actionLog : List ActionLogEntry
  updatedAt : ℕ
  generation : ℕ
  structuralRevision : ℕ
  presenceRevision : Option ℕ
  deriving DecidableEq

abbrev ClientRoomState := RoomSnapshotPayload

section Server

/-- Hash and salt stay on the server. -/
def publicRoomSecurity (security : RoomSecurityState) : PublicRoomSecurityState where
  joinPasswordEnabled := security.joinPasswordEnabled
  joinPasswordUpdatedAt := security.joinPasswordUpdatedAt
  admissionVersion := security.admissionVersion
  defaultJoinRole := security.defaultJoinRole

/-- The defined fields of a patch over a participant. -/
def mergePresencePatch (patch : PresencePatch) (existing : ParticipantState) : ParticipantState :=
  { existing with
    connected := patch.connected.getD existing.connected
    lastSeenAt := patch.lastSeenAt <|> existing.lastSeenAt
    disconnectedAt := patch.disconnectedAt <|> existing.disconnectedAt
    username := patch.username.getD existing.username
    avatarStyle := patch.avatarStyle.getD existing.avatarStyle
    localPlayback := patch.localPlayback.getD existing.localPlayback }

/-- Patches of users that are not in the roster are skipped. -/
def mergeParticipantPresence (prev : Record UserId ParticipantState)
    (patches : Record UserId PresencePatch) : Record UserId ParticipantState :=
  patches.entries.foldl (fun next e => next.modify e.1 (mergePresencePatch e.2)) prev

def applyPresenceOverlay (state : RoomState) (overlay : Record UserId PresencePatch) : RoomState :=
  { state with participants := mergeParticipantPresence state.participants overlay }

def controlPayloadFromState (state : RoomState) : RoomControlPayload where
  generation := state.generation
  playback := state.playback
  currentIndex := state.currentIndex
  updatedAt := state.updatedAt

/-- The snapshot of a stored room, given the presence data and the presence counter
that are read with it. -/
def buildSanitizedSnapshot (state : RoomState) (overlay : Record UserId PresencePatch)
    (presenceRevision : ℕ) : RoomSnapshotPayload where
  roomId := state.roomId
  ownerId := state.ownerId
  roomSecurity := publicRoomSecurity (normalizeRoomSecurity state.roomSecurity)
  playback := { state.playback with seekPreview := none }
  playlist := state.playlist
  currentIndex := state.currentIndex
  participants := (applyPresenceOverlay state overlay).participants
  actionLog := state.actionLog
  updatedAt := state.updatedAt
  generation := state.generation
  structuralRevision := state.structuralRevision
  presenceRevision := some presenceRevision

end Server

section Client

/-- The index of a control patch, led by the media id when the playlist is stale. -/
def reconcileControlCurrentIndex (prev : ClientRoomState) (payload : RoomControlPayload) : ℤ :=
  match payload.playback.mediaId with
  | none => payload.currentIndex
  | some mediaId =>
    if mediaId = "" then payload.currentIndex
    else if (indexGet? prev.playlist payload.currentIndex).map (·.id) = some mediaId then
      payload.currentIndex
    else
      match prev.playlist.findIdx? fun item => item.id == mediaId with
      | some index => index
      | none => prev.currentIndex

/-- Older generations are ignored. -/
def applyRoomControl (prev : Option ClientRoomState) (payload : RoomControlPayload) :
    Option ClientRoomState :=
  prev.map fun prev =>
    if payload.generation < prev.generation then prev
    else
      { prev with
        playback := payload.playback
        currentIndex := reconcileControlCurrentIndex prev payload
        updatedAt := payload.updatedAt
        generation := payload.generation }

def presenceWatermark (state : ClientRoomState) : ℕ := state.presenceRevision.getD 0

/-- Older and equal presence revisions are ignored. -/
def applyPresenceBatch (prev : Option ClientRoomState) (payload : PresenceBatchPayload) :
    Option ClientRoomState :=
  prev.map fun prev =>
    if payload.presenceRevision ≤ presenceWatermark prev then prev
    else
      { prev with
        participants := mergeParticipantPresence prev.participants payload.participants
        presenceRevision := some payload.presenceRevision }

def applyPresenceBatches (prev : Option ClientRoomState) (payloads : List PresenceBatchPayload) :
    Option ClientRoomState :=
  payloads.foldl applyPresenceBatch prev

def previewActive (playback : PlaybackState) : Bool := playback.seekPreview.any (·.active)

/-- Playback and index are taken unless the snapshot is of an older generation; all
the rest is taken from any snapshot. -/
def applyRoomSnapshot (prev : Option ClientRoomState) (payload : RoomSnapshotPayload) :
    ClientRoomState :=
  match prev with
  | none => payload
  | some prev =>
    let applyPlayback := decide (prev.generation ≤ payload.generation)
    let playback := if applyPlayback then payload.playback else prev.playback
    let keepsPreview := applyPlayback && previewActive prev.playback &&
      !previewActive payload.playback && decide (payload.generation ≤ prev.generation)
    { payload with
      playback :=
        if keepsPreview then { playback with seekPreview := prev.playback.seekPreview }
        else playback
      currentIndex := if applyPlayback then payload.currentIndex else prev.currentIndex
      generation := max prev.generation payload.generation
      structuralRevision := max prev.structuralRevision payload.structuralRevision
      presenceRevision := some (max (presenceWatermark prev) (presenceWatermark payload)) }

inductive ServerMessage
  | control (payload : RoomControlPayload)
  | snapshot (payload : RoomSnapshotPayload)
  | presence (payload : PresenceBatchPayload)

def applyMessage (prev : Option ClientRoomState) : ServerMessage → Option ClientRoomState
  | .control payload => applyRoomControl prev payload
  | .snapshot payload => some (applyRoomSnapshot prev payload)
  | .presence payload => applyPresenceBatch prev payload

end Client

section Dispatch

/-- A room socket: its copy, and the presence batches that wait for the next frame. -/
structure RoomSocketClient where
  roomState : Option ClientRoomState := none
  hasReceivedState : Bool := false
  pending : List PresenceBatchPayload := []

/-- A control envelope does not admit the client; presence waits to be flushed. -/
def dispatchRoomSocketEnvelope (client : RoomSocketClient) : ServerMessage → RoomSocketClient
  | .snapshot payload =>
    { client with
      roomState := some (applyRoomSnapshot client.roomState payload)
      hasReceivedState := true }
  | .control payload =>
    if client.hasReceivedState then
      { client with roomState := applyRoomControl client.roomState payload }
    else client
  | .presence payload => { client with pending := client.pending ++ [payload] }

def flushPresence (client : RoomSocketClient) : RoomSocketClient :=
  { client with
    roomState := applyPresenceBatches client.roomState client.pending
    pending := [] }

end Dispatch

end WebSyncPlay
