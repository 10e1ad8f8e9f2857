import WebSyncPlay.MutateRoom
import WebSyncPlay.PlaylistOps
import WebSyncPlay.LocalPlayback

/-! The room message handlers (`handlers/index.ts` and the modules it lists). A
handler reads what it needs outside the room and ends in at most one room write. -/
namespace WebSyncPlay

open Library

structure LocalMediaEntry where
  id : String
  roomId : String
  ownerUserId : UserId
  abrParentId : Option String := none
  deriving DecidableEq

structure MessageInputs where
  now : ℕ
  activeConnections : Finset UserId
  newId : ItemId := ""
  newOwnerId : UserId := ""
  salt : String := ""
  resolveAllowed : Bool := true
  seen : Option RoomState := none
  localPlaybackReports : Record String LocalPlaybackReport := Record.empty
  localMediaEntry : Option LocalMediaEntry := none
  localMediaEntryLater : Bool := false
  localMediaSaved : Bool := true

inductive RoomWrite
  | skip
  | mutate (mutation : RoomMutation)
  | update (f : RoomState → Option RoomState)

def logRoomAction (env : Env) (ctx : RoomMessageContext) (now : ℕ) (participant : ParticipantState)
    (action : String) (error : Option String) (state : RoomState) : RoomState :=
  appendActionLog env state
    { at_ := now, roomId := ctx.roomId, actorUserId := ctx.userId,
      actorUsername := some participant.username, action := action, error := error }

section Playback

variable (env : Env) (ctx : RoomMessageContext) (inp : MessageInputs)

def handlePlaybackSeek (targetMs : ℚ) : RoomWrite :=
  .mutate <| mutateControlledRoomMessage ctx .control fun state participant =>
    some (logRoomAction env ctx inp.now participant "playback:seek" none
      (commitPlaybackSeek state targetMs inp.now))

/-- Re-anchor at the server's own projection, then set the flag. -/
def setPlaybackPausedState (paused : Bool) : RoomWrite :=
  .mutate <| mutateControlledRoomMessage ctx .control fun state participant =>
    some (logRoomAction env ctx inp.now participant
      (if paused then "playback:pause" else "playback:unpause") none
      { state with
        playback := { state.playback with
          timelineAnchorMs := max 0 (resolveCurrentTimelineMs state inp.now)
          paused := paused
          serverNowMs := nextMonotonicMs state.playback.serverNowMs inp.now } })

def handlePlaybackPlay : RoomWrite := setPlaybackPausedState env ctx inp false

def handlePlaybackPause : RoomWrite := setPlaybackPausedState env ctx inp true

def handlePlaybackRate (playbackRate : ℚ) : RoomWrite :=
  .mutate <| mutateControlledRoomMessage ctx .control fun state participant =>
    let reanchored := reanchorPlaybackAtNow state inp.now
    some (logRoomAction env ctx inp.now participant "playback:rate" none
      { reanchored with playback := { reanchored.playback with playbackRate := playbackRate } })

inductive LoopScope
  | video | playlist
  deriving DecidableEq

def PlaybackState.loopMode (playback : PlaybackState) : LoopScope → LoopMode
  | .video => playback.videoLoop
  | .playlist => playback.playlistLoop

def PlaybackState.setLoopMode (playback : PlaybackState) (mode : LoopMode) :
    LoopScope → PlaybackState
  | .video => { playback with videoLoop := mode }
  | .playlist => { playback with playlistLoop := mode }

def setPlaybackLoopMode (mode : LoopMode) (scope : LoopScope) : RoomWrite :=
  .mutate <| mutateControlledRoomMessage ctx .control fun state participant =>
    let next := { state with playback := state.playback.setLoopMode mode scope }
    if state.playback.loopMode scope = mode then some next
    else some (logRoomAction env ctx inp.now participant "playback:loop" none next)

def handlePlaybackLoopVideo (mode : LoopMode) : RoomWrite :=
  setPlaybackLoopMode env ctx inp mode .video

def handlePlaybackLoopPlaylist (mode : LoopMode) : RoomWrite :=
  setPlaybackLoopMode env ctx inp mode .playlist

end Playback

section Playlist

variable (env : Env) (ctx : RoomMessageContext) (inp : MessageInputs)

def handlePlaylistSelect (index : ℕ) : RoomWrite :=
  .mutate <| mutateControlledRoomMessage ctx .control fun state participant =>
    (applyPlaylistSelect state index inp.now).map
      (logRoomAction env ctx inp.now participant "media:played" none)

/-- Nothing is re-anchored here, the playlist may have been empty. -/
def handlePlaylistAddUrl (url : String) : RoomWrite :=
  if !inp.resolveAllowed then .skip
  else
    .mutate <| mutateControlledRoomMessage ctx .snapshot fun state participant =>
      if isPlaylistAtLimit state env.roomPlaylistLimit then none
      else
        some (logRoomAction env ctx inp.now participant "playlist:add" none
          { state with
            playlist := state.playlist ++
              [buildRemoteUrlPlaylistItem inp.newId url ctx.userId inp.now] })

/-- The mime types that a browser plays as one progressive file. -/
def isProgressiveMediaMime (mime : String) : Bool :=
  let lower := mime.toList.map Char.toLower
  "video/".toList.isPrefixOf lower || "audio/".toList.isPrefixOf lower

structure AddLocalInput where
  localMediaId : String
  name : String
  mimeType : String
  sizeBytes : ℕ
  durationSeconds : Option ℚ := none
  deriving DecidableEq

/-- A file added to an empty playlist starts to play. -/
def handlePlaylistAddLocal (parsed : AddLocalInput) : RoomWrite :=
  if !isProgressiveMediaMime parsed.mimeType || !inp.localMediaSaved then .skip
  else
    .mutate <| mutateControlledRoomMessage ctx .controlSnapshot fun state participant =>
      if isPlaylistAtLimit state env.roomPlaylistLimit then none
      else
        let wasEmpty := state.playlist.length = 0
        some (logRoomAction env ctx inp.now participant "playlist:add" none
          { state with
            playlist := state.playlist ++
              [buildLocalFilePlaylistItem inp.newId parsed.name parsed.localMediaId parsed.mimeType
                parsed.sizeBytes ctx.userId inp.now parsed.durationSeconds]
            currentIndex := if wasEmpty then 0 else state.currentIndex
            playback := if wasEmpty then { state.playback with paused := false }
              else state.playback })

/-- Authority and item are judged on an earlier read, not on the room written. -/
def handlePlaylistRetry (itemId : ItemId) : RoomWrite :=
  match inp.resolveAllowed, inp.seen with
  | true, some seen =>
    if !canControlFromConnectionContext seen ctx.userId ctx.auth then .skip
    else
      match findItem seen itemId with
      | none => .skip
      | some item =>
        if canRetryRemotePlaylistItem item then
          .update (reresolveRemotePlaylistItem itemId inp.now)
        else .skip
  | _, _ => .skip

def handlePlaylistItemError (itemId : ItemId) (error : Option String) : RoomWrite :=
  .mutate <| mutateControlledRoomMessage ctx .controlSnapshot fun state participant =>
    match applyPlaylistItemError state itemId error inp.now with
    | none => none
    | some (next,cleared) =>
      if cleared then some next
      else some (logRoomAction env ctx inp.now participant "participant:error" error next)

/-- Any connected player may fill a missing duration: no control gate. -/
def handlePlaylistItemDuration (itemId : ItemId) (durationSeconds : ℚ) : RoomWrite :=
  .mutate
    { hint := .snapshot
      body := fun state _ => applyPlaylistItemDuration state itemId durationSeconds }

/-- Any connected player may fill a placeholder title: no control gate. -/
def handlePlaylistItemTitle (itemId : ItemId) (name : String) : RoomWrite :=
  .mutate
    { hint := .snapshot
      body := fun state _ => applyPlaylistItemTitle state itemId name }

def handlePlaylistReorder (from_ to_ : ℕ) : RoomWrite :=
  .mutate <| mutateControlledRoomMessage ctx .snapshot fun state participant =>
    (applyPlaylistReorder state from_ to_).map
      (logRoomAction env ctx inp.now participant "playlist:reorder" none)

def handlePlaylistRename (itemId : ItemId) (name : String) : RoomWrite :=
  .mutate <| mutateControlledRoomMessage ctx .snapshot fun state participant =>
    (applyPlaylistRename state itemId name).map
      (logRoomAction env ctx inp.now participant "playlist:rename" none)

def handlePlaylistRemove (itemId : ItemId) : RoomWrite :=
  .mutate <| mutateControlledRoomMessage ctx .snapshot fun state participant =>
    (applyPlaylistRemove state itemId inp.now).map
      (logRoomAction env ctx inp.now participant "playlist:remove" none)

end Playlist

section LocalMedia

variable (ctx : RoomMessageContext) (inp : MessageInputs)

/-- The sender's own file, now that it is announced again. -/
def awaitsReady (userId : UserId) (localMediaId : String) (item : PlaylistItem) : Bool :=
  item.localMediaId == some localMediaId && item.localOriginUserId == some userId &&
    (item.blockedReason == some .localOwnerOffline || item.ingestStatus == some .error)

def readyLocalItem (userId : UserId) (localMediaId : String) (item : PlaylistItem) : PlaylistItem :=
  if awaitsReady userId localMediaId item then
    { item with blockedReason := none, ingestError := none, ingestStatus := some .ready }
  else item

def handleLocalMediaReady (localMediaId : String) (ready : Bool) : RoomWrite :=
  if ready && (inp.localMediaEntry.isSome || inp.localMediaEntryLater) then
    .mutate
      { hint := .snapshot
        body := fun state _ =>
          if state.playlist.any (awaitsReady ctx.userId localMediaId) then
            some { state with playlist := state.playlist.map (readyLocalItem ctx.userId localMediaId) }
          else none }
  else .skip

structure AbrVariant where
  localMediaId : String
  height : ℕ
  bandwidth : ℕ
  label : String
  mimeType : String
  deriving DecidableEq

/-- The progressive rungs, tallest first; the first one is the default. -/
def progressiveStreams (variants : List AbrVariant) : List PlaylistMediaStream :=
  (variants.mergeSort fun a b => decide (b.height ≤ a.height)).mapIdx fun index v =>
    { id := "local-" ++ toString v.height, src := localMediaPath v.localMediaId,
      type := some v.mimeType, height := some v.height, bitrate := some v.bandwidth,
      label := some v.label, kind := some .combined, isDefault := index == 0 }

def autoStream (parentId : String) : PlaylistMediaStream where
  id := "local-auto"
  src := localMediaPath parentId ++ "/hls"
  type := some "application/vnd.apple.mpegurl"
  protocol := some "m3u8"
  isDefault := false
  label := some "Auto"
  kind := some .adaptive

def publishAbr (userId : UserId) (parentId : String) (durationSec : ℚ)
    (streams : List PlaylistMediaStream) (defaultProgressive : PlaylistMediaStream)
    (state : RoomState) : Option RoomState :=
  let ofParent : PlaylistItem → Bool := fun item => item.localMediaId == some parentId
  match state.playlist.find? ofParent with
  | none => none
  | some item =>
    if item.localOriginUserId ≠ some userId then none
    else
      some { state with
        playlist := modifyFirst ofParent (fun item =>
          { item with
            playableUrl := defaultProgressive.src
            sourceUrl := defaultProgressive.src
            durationSeconds := some durationSec
            mediaStreams := some (streams ++ [autoStream parentId])
            defaultStreamId := some defaultProgressive.id
            ingestStatus := some .ready }) state.playlist }

/-- The provider has packaged its file: the item becomes a ladder of streams. -/
def handleLocalMediaAbrPublish (durationSec : ℚ) (variants : List AbrVariant) : RoomWrite :=
  match inp.localMediaEntry with
  | none => .skip
  | some parent =>
    if parent.ownerUserId ≠ ctx.userId ∨ parent.roomId ≠ ctx.roomId ∨
        ¬isBlank parent.abrParentId ∨ ¬(variants.any fun v => v.localMediaId == parent.id) ∨
        inp.localMediaSaved = false then .skip
    else
      match progressiveStreams variants with
      | [] => .skip
      | defaultProgressive::rest =>
        .mutate
          { hint := .snapshot
            body := fun state _ => publishAbr ctx.userId parent.id durationSec
              (defaultProgressive::rest) defaultProgressive state }

end LocalMedia

section ViewerMedia

def viewerMediaByItemLimit : ℕ := 32

structure ViewerMediaPreferencesInput where
  itemId : ItemId
  streamId : Option (Option String) := none
  textTrackId : Option (Option String) := none
  audioLanguage : Option String := none
  deriving DecidableEq

def capViewerMediaByItemId (byItemId : Record ItemId ViewerMediaItemPreference) (limit : ℕ) :
    Record ItemId ViewerMediaItemPreference :=
  if byItemId.size ≤ limit then byItemId else byItemId.drop (byItemId.size-limit)

/-- `none` when a stream or a text track is not in the item's catalog. -/
def mergeViewerMediaItemPreference (item : PlaylistItem)
    (previous : Option ViewerMediaItemPreference) (patch : ViewerMediaPreferencesInput) :
    Option ViewerMediaItemPreference :=
  let next := previous.getD {}
  let streamKnown :=
    match patch.streamId with
    | some (some id) => (item.mediaStreams.getD []).any fun entry => entry.id == id
    | _ => true
  let textTrackKnown :=
    match patch.textTrackId with
    | some (some id) => (item.textTracks.getD []).any fun entry => entry.id == id
    | _ => true
  if streamKnown && textTrackKnown then
    some {
      streamId := patch.streamId.getD next.streamId
      textTrackId :=
        match patch.textTrackId with
        | some textTrackId => some textTrackId
        | none => next.textTrackId
      audioLanguage :=
        match patch.audioLanguage with
        | some audioLanguage => if audioLanguage = "" then none else some audioLanguage
        | none => next.audioLanguage }
  else none

def applyViewerMediaPreferences (participant : ParticipantState) (item : PlaylistItem)
    (patch : ViewerMediaPreferencesInput) : Option ParticipantState :=
  let byItemId := (participant.viewerMedia.map (·.byItemId)).getD Record.empty
  (mergeViewerMediaItemPreference item (byItemId.get? patch.itemId) patch).map fun next =>
    { participant with
      viewerMedia := some
        ⟨capViewerMediaByItemId (byItemId.set patch.itemId next) viewerMediaByItemLimit⟩ }

def handleViewerMediaPreferences (ctx : RoomMessageContext) (inp : MessageInputs)
    (parsed : ViewerMediaPreferencesInput) : RoomWrite :=
  .mutate
    { hint := .snapshot
      body := fun state participant =>
        match findItem state parsed.itemId with
        | none => none
        | some item =>
          (applyViewerMediaPreferences participant item parsed).map fun next =>
            { state with
              participants := state.participants.modify ctx.userId fun _ => next
              updatedAt := inp.now } }

end ViewerMedia

section Participant

variable (env : Env) (ctx : RoomMessageContext) (inp : MessageInputs)

/-- This connection's last report, or what the room has for the participant. -/
def previousForConnection (participant : ParticipantState) : ParticipantLocalPlayback :=
  match inp.localPlaybackReports.get? ctx.connectionId with
  | some report =>
    { paused := report.paused, currentTimeMs := report.currentTimeMs, loading := report.loading,
      error := report.error, updatedAt := report.updatedAt }
  | none => participant.localPlayback

def aggregatedPlayback (update : ParticipantUpdate) : ParticipantLocalPlayback :=
  let isHeartbeat := !update.identityDirty && !update.playbackDirty
  if update.playbackDirty || isHeartbeat then
    (aggregateLocalPlaybackReports
      (upsertLocalPlaybackReport inp.localPlaybackReports ctx.connectionId ctx.auth.sessionKind
        update.localPlayback) inp.now).getD update.localPlayback
  else update.localPlayback

def ParticipantUpdate.apply (update : ParticipantUpdate) (playback : ParticipantLocalPlayback)
    (p : ParticipantState) : ParticipantState :=
  { p with
    username := if update.identityDirty then update.nextUsername else p.username
    avatarStyle := if update.identityDirty then update.nextAvatarStyle else p.avatarStyle
    localPlayback := playback }

def persistParticipantUpdate (patch : ParticipantUpdateInput) (update : ParticipantUpdate)
    (room : RoomState) (p : ParticipantState) : RoomState :=
  let next := update.apply (aggregatedPlayback ctx inp update) p
  let written := { room with participants := room.participants.modify ctx.userId fun _ => next }
  let renamed :=
    if update.identityDirty ∧ next.username ≠ update.previousUsername then
      logRoomAction env ctx inp.now next "participant:username" none written
    else written
  match patch.error with
  | some (some error) =>
    if update.previousError ≠ some error then
      logRoomAction env ctx inp.now next "participant:error" (some error) renamed
    else renamed
  | _ => renamed

/-- Presence ticks write no room; a new identity or a new error does. The patch is
resolved against an earlier read of the room and of this connection's report. -/
def handleParticipantUpdate (patch : ParticipantUpdateInput) : RoomWrite :=
  match inp.seen.bind fun seen => seen.participants.get? ctx.userId with
  | none => .skip
  | some participant =>
    let update := resolveParticipantUpdate
      { participant with localPlayback := previousForConnection ctx inp participant } patch inp.now
    if update.identityDirty ||
        (update.playbackDirty && update.localPlayback.error != update.previousError) then
      .mutate
        { hint := .snapshot
          body := fun room p => some (persistParticipantUpdate env ctx inp patch update room p) }
    else .skip

/-- The owner's own role is out of reach; an unchanged role is written all the same. -/
def handleParticipantRoleUpdate (targetUserId : UserId) (role : DefaultJoinRole) : RoomWrite :=
  .mutate <| mutateOwnerRoomMessage ctx fun state participant =>
    match state.participants.get? targetUserId with
    | none => none
    | some target =>
      if target.userId = state.ownerId then none
      else if target.role = role.toRoomRole then some state
      else
        some (logRoomAction env ctx inp.now participant "participant:role:changed" none
          { state with
            participants := state.participants.modify targetUserId fun p =>
              { p with role := role.toRoomRole } })

end Participant

section Security

variable (env : Env) (ctx : RoomMessageContext) (inp : MessageInputs)

def handleRoomPasswordSet (password : String) : RoomWrite :=
  .mutate <| mutateOwnerRoomMessage ctx fun state participant =>
    some (logRoomAction env ctx inp.now participant "room:password:set" none
      (setJoinPassword env state password inp.salt inp.now))

def handleRoomPasswordClear : RoomWrite :=
  .mutate <| mutateOwnerRoomMessage ctx fun state participant =>
    (clearJoinPassword state inp.now).map
      (logRoomAction env ctx inp.now participant "room:password:cleared" none)

def handleRoomDefaultRoleSet (role : DefaultJoinRole) : RoomWrite :=
  .mutate <| mutateOwnerRoomMessage ctx fun state participant =>
    (setDefaultJoinRole state role).map
      (logRoomAction env ctx inp.now participant "room:default-role:set" none)

end Security

/-- The client events of the handler table, with their parsed payloads. -/
inductive RoomMessage
  | playbackSeek (targetMs : ℚ)
  | playbackPlay
  | playbackPause
  | playbackRate (playbackRate : ℚ)
  | playbackLoopVideo (mode : LoopMode)
  | playbackLoopPlaylist (mode : LoopMode)
  | playlistAddUrl (url : String)
  | playlistAddLocal (parsed : AddLocalInput)
  | playlistSelect (index : ℕ)
  | playlistReorder (from_ to_ : ℕ)
  | playlistRename (itemId : ItemId) (name : String)
  | playlistRemove (itemId : ItemId)
  | playlistRetry (itemId : ItemId)
  | playlistItemError (itemId : ItemId) (error : Option String)
  | playlistItemDuration (itemId : ItemId) (durationSeconds : ℚ)
  | playlistItemTitle (itemId : ItemId) (name : String)
  | localMediaChunk
  | localMediaReady (localMediaId : String) (ready : Bool)
  | localMediaAbrPublish (durationSec : ℚ) (variants : List AbrVariant)
  | localMediaWebrtcSignal
  | localMediaSfuCapabilities
  | localMediaSfuCreateTransport
  | localMediaSfuConnectTransport
  | localMediaSfuProduceData
  | localMediaSfuConsumeData
  | viewerMediaPreferences (parsed : ViewerMediaPreferencesInput)
  | seekPreview
  | participantUpdate (patch : ParticipantUpdateInput)
  | participantRoleUpdate (targetUserId : UserId) (role : DefaultJoinRole)
  | roomPasswordSet (password : String)
  | roomPasswordClear
  | roomDefaultRoleSet (role : DefaultJoinRole)
  deriving DecidableEq

/-- The handler table. Relayed chunks and signals, the media router's messages and
seek previews write no room. -/
def roomMessageHandlers (env : Env) (ctx : RoomMessageContext) (inp : MessageInputs) :
    RoomMessage → RoomWrite
  | .playbackSeek targetMs => handlePlaybackSeek env ctx inp targetMs
  | .playbackPlay => handlePlaybackPlay env ctx inp
  | .playbackPause => handlePlaybackPause env ctx inp
  | .playbackRate playbackRate => handlePlaybackRate env ctx inp playbackRate
  | .playbackLoopVideo mode => handlePlaybackLoopVideo env ctx inp mode
  | .playbackLoopPlaylist mode => handlePlaybackLoopPlaylist env ctx inp mode
  | .playlistAddUrl url => handlePlaylistAddUrl env ctx inp url
  | .playlistAddLocal parsed => handlePlaylistAddLocal env ctx inp parsed
  | .playlistSelect index => handlePlaylistSelect env ctx inp index
  | .playlistReorder from_ to_ => handlePlaylistReorder env ctx inp from_ to_
  | .playlistRename itemId name => handlePlaylistRename env ctx inp itemId name
  | .playlistRemove itemId => handlePlaylistRemove env ctx inp itemId
  | .playlistRetry itemId => handlePlaylistRetry ctx inp itemId
  | .playlistItemError itemId error => handlePlaylistItemError env ctx inp itemId error
  | .playlistItemDuration itemId durationSeconds =>
    handlePlaylistItemDuration itemId durationSeconds
  | .playlistItemTitle itemId name => handlePlaylistItemTitle itemId name
  | .localMediaChunk => .skip
  | .localMediaReady localMediaId ready => handleLocalMediaReady ctx inp localMediaId ready
  | .localMediaAbrPublish durationSec variants =>
    handleLocalMediaAbrPublish ctx inp durationSec variants
  | .localMediaWebrtcSignal => .skip
  | .localMediaSfuCapabilities => .skip
  | .localMediaSfuCreateTransport => .skip
  | .localMediaSfuConnectTransport => .skip
  | .localMediaSfuProduceData => .skip
  | .localMediaSfuConsumeData => .skip
  | .viewerMediaPreferences parsed => handleViewerMediaPreferences ctx inp parsed
  | .seekPreview => .skip
  | .participantUpdate patch => handleParticipantUpdate env ctx inp patch
  | .participantRoleUpdate targetUserId role =>
    handleParticipantRoleUpdate env ctx inp targetUserId role
  | .roomPasswordSet password => handleRoomPasswordSet env ctx inp password
  | .roomPasswordClear => handleRoomPasswordClear env ctx inp
  | .roomDefaultRoleSet role => handleRoomDefaultRoleSet env ctx inp role

/-- The room that a message leaves; `none` when it writes nothing. -/
def processRoomMessage (env : Env) (ctx : RoomMessageContext) (inp : MessageInputs)
    (message : RoomMessage) (state : RoomState) : Option RoomState :=
  match roomMessageHandlers env ctx inp message with
  | .skip => none
  | .mutate mutation =>
    mutateRoomMessage env ctx.userId inp.newOwnerId inp.activeConnections inp.now mutation state
  | .update f => f state

end WebSyncPlay
