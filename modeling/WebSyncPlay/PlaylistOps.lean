import WebSyncPlay.Timeline

/-! Playlist operations (`services/playlist-ops.ts`) and the item updates of the
resolver (`services/playlist-resolve.ts`). `none` is the operation's refusal. -/
namespace WebSyncPlay

open Library

def canRetryRemotePlaylistItem (item : PlaylistItem) : Bool :=
  item.blockedReason != some .localOwnerOffline && item.sourceKind == .remoteUrl

def findItem (state : RoomState) (itemId : ItemId) : Option PlaylistItem :=
  state.playlist.find? fun item => item.id == itemId

@[simps] def updateItem (state : RoomState) (itemId : ItemId) (f : PlaylistItem → PlaylistItem) :
    RoomState :=
  { state with playlist := modifyFirst (fun item => item.id == itemId) f state.playlist }

def applyPlaylistSelect (state : RoomState) (index : ℕ) (now : ℕ) : Option RoomState :=
  if state.playlist.length ≤ index then none
  else some (resetPlaybackTimeline { state with currentIndex := index } now false)

def followCurrentMedia (state : RoomState) (playlist : List PlaylistItem) : ℤ :=
  match getCurrentMediaId state with
  | none => state.currentIndex
  | some currentMediaId =>
    if currentMediaId = "" then state.currentIndex
    else
      match playlist.findIdx? fun item => item.id == currentMediaId with
      | none => state.currentIndex
      | some nextCurrentIndex => nextCurrentIndex

def applyPlaylistReorder (state : RoomState) (from_ to_ : ℕ) : Option RoomState :=
  match state.playlist[from_]? with
  | none => none
  | some entry =>
    if state.playlist.length ≤ to_ then none
    else
      let playlist := (state.playlist.eraseIdx from_).insertIdx to_ entry
      some { state with
        playlist := playlist
        currentIndex := followCurrentMedia state playlist }

def applyPlaylistRename (state : RoomState) (itemId : ItemId) (rawName : String) : Option RoomState :=
  match findItem state itemId with
  | none => none
  | some item =>
    let nextName := trim rawName
    if nextName = "" ∨ nextName = item.name then none
    else some (updateItem state itemId fun item => { item with name := nextName })

def pruneViewerMedia (itemId : ItemId) (participant : ParticipantState) : ParticipantState :=
  match participant.viewerMedia with
  | none => participant
  | some prefs =>
    match prefs.byItemId.get? itemId with
    | none => participant
    | some _ =>
      let byItemId := prefs.byItemId.erase itemId
      if byItemId.size = 0 then { participant with viewerMedia := none }
      else { participant with viewerMedia := some ⟨byItemId⟩ }

@[simps] def pruneViewerMediaItemId (state : RoomState) (itemId : ItemId) : RoomState :=
  { state with participants := state.participants.mapValues (pruneViewerMedia itemId) }

/-- Remove an item; the timeline is reset when the current item goes. -/
def applyPlaylistRemove (state : RoomState) (itemId : ItemId) (now : ℕ) : Option RoomState :=
  match state.playlist.findIdx? fun item => item.id == itemId with
  | none => none
  | some index =>
    let state := { state with playlist := state.playlist.eraseIdx index }
    let adjusted :=
      if state.playlist.length = 0 then
        resetPlaybackTimeline { state with currentIndex := 0 } now true
      else if (index : ℤ) < state.currentIndex then
        { state with currentIndex := state.currentIndex-1 }
      else if (index : ℤ) = state.currentIndex then
        resetPlaybackTimeline
          { state with currentIndex := min (index : ℤ) (state.playlist.length-1) } now false
      else state
    some (pruneViewerMediaItemId adjusted itemId)

/-- A client-reported ingest error (`some`) or its clearing (`none`). A new error on
the current item advances to the next one; an item that failed already is left
as it is. The flag says that the report cleared the item. -/
def applyPlaylistItemError (state : RoomState) (itemId : ItemId) (error : Option String) (now : ℕ) :
    Option (RoomState × Bool) :=
  match state.playlist.findIdx? fun item => item.id == itemId with
  | none => none
  | some index =>
    match state.playlist[index]? with
    | none => none
    | some item =>
      let hasError := item.ingestError ≠ none ∧ item.ingestError ≠ some ""
      match error with
      | none =>
        if item.ingestStatus ≠ some .error ∧ ¬hasError then none
        else
          some (updateItem state itemId fun item =>
            { item with ingestStatus := some .ready, ingestError := none },true)
      | some error =>
        if item.ingestStatus = some .error ∧ hasError then some (state,false)
        else
          let failed := updateItem state itemId fun item =>
            { item with ingestStatus := some .error, ingestError := some error }
          if state.currentIndex = (index : ℤ) ∧ 1 < state.playlist.length ∧
              min (state.playlist.length-1) (index+1) ≠ index then
            some (resetPlaybackTimeline
              { failed with currentIndex := (min (state.playlist.length-1) (index+1) : ℕ) } now false,
              false)
          else some (failed,false)

def roundHalfUp (q : ℚ) : ℚ := ⌊q+1/2⌋

def applyPlaylistItemDuration (state : RoomState) (itemId : ItemId) (durationSeconds : ℚ) :
    Option RoomState :=
  match findItem state itemId with
  | none => none
  | some item =>
    if item.isLive = some true ∨ durationSeconds ≤ 0 then none
    else if 0 < item.durationSeconds.getD 0 then none
    else
      some (updateItem state itemId fun item =>
        { item with durationSeconds := some (roundHalfUp durationSeconds) })

def isPlaylistItemNamePlaceholder (item : PlaylistItem) : Bool :=
  trim item.name == trim item.sourceUrl

def applyPlaylistItemTitle (state : RoomState) (itemId : ItemId) (rawName : String) :
    Option RoomState :=
  match findItem state itemId with
  | none => none
  | some item =>
    let nextName := trim rawName
    if ¬isPlaylistItemNamePlaceholder item ∨ nextName = "" ∨ nextName = trim item.name ∨
        nextName = trim item.sourceUrl then none
    else some (updateItem state itemId fun item => { item with name := nextName })

def isPlaylistAtLimit (state : RoomState) (limit : ℕ) : Bool := limit ≤ state.playlist.length

def buildRemoteUrlPlaylistItem (id : ItemId) (sourceUrl : String) (createdBy : UserId)
    (createdAt : ℕ) : PlaylistItem where
  id := id
  name := sourceUrl
  sourceKind := .remoteUrl
  playbackMode := .direct
  sourceUrl := sourceUrl
  playableUrl := sourceUrl
  ingestStatus := some .resolving
  createdBy := createdBy
  createdAt := createdAt

/-- The path of a local file. Its id is a UUID, which URL encoding leaves alone. -/
def localMediaPath (localMediaId : String) : String := "/api/media/local/" ++ localMediaId

def localDefaultStream (localMediaId mimeType : String) : PlaylistMediaStream where
  id := "local-default"
  src := localMediaPath localMediaId
  type := some mimeType
  isDefault := true
  label := some "Local"
  kind := some .combined

def buildLocalFilePlaylistItem (id : ItemId) (name localMediaId mimeType : String) (sizeBytes : ℕ)
    (createdBy : UserId) (createdAt : ℕ) (durationSeconds : Option ℚ) : PlaylistItem where
  id := id
  name := name
  sourceKind := .localFile
  playbackMode := .direct
  sourceUrl := localMediaPath localMediaId
  playableUrl := localMediaPath localMediaId
  ingestStatus := some .ready
  durationSeconds := (durationSeconds.filter fun d => decide (0 < d)).map roundHalfUp
  mediaStreams := some [localDefaultStream localMediaId mimeType]
  defaultStreamId := some "local-default"
  localMediaId := some localMediaId
  localOriginUserId := some createdBy
  localMimeType := some mimeType
  localSizeBytes := some sizeBytes
  createdBy := createdBy
  createdAt := createdAt

structure ResolvedMedia where
  playableUrl : String
  title : String
  durationSeconds : Option ℚ
  playbackMode : PlaybackMode
  mediaStreams : List PlaylistMediaStream
  defaultStreamId : Option String
  textTracks : List PlaylistTextTrack
  defaultTextTrackId : Option String
  isLive : Option Bool
  deriving DecidableEq

def firstNonEmpty (candidates : List (Option String)) (last : String) : String :=
  ((candidates.filterMap id).find? fun s => s != "").getD last

def resolveDisplayName (env : Env) (item : PlaylistItem) (resolved : ResolvedMedia)
    (preferredTitle : Option String) : String :=
  let preferred := trim (preferredTitle.getD "")
  let safeTitle := if resolved.title = "" then none else env.sanitizeMediaTitle resolved.title
  if preferred ≠ "" ∧ trim item.name = preferred then
    firstNonEmpty [safeTitle,env.sanitizeMediaTitle preferred] preferred
  else if trim item.name = trim item.sourceUrl then
    firstNonEmpty [safeTitle,env.sanitizeMediaTitle item.sourceUrl] item.sourceUrl
  else item.name

@[simps] def applyResolvedMediaToItem (env : Env) (resolved : ResolvedMedia) (preferredTitle : Option String)
    (item : PlaylistItem) : PlaylistItem :=
  { item with
    playableUrl := resolved.playableUrl
    playbackMode := resolved.playbackMode
    mediaStreams := some resolved.mediaStreams
    defaultStreamId := resolved.defaultStreamId
    textTracks := some resolved.textTracks
    defaultTextTrackId := resolved.defaultTextTrackId
    durationSeconds := resolved.durationSeconds
    isLive := resolved.isLive
    ingestStatus := some .ready
    ingestError := none
    name := resolveDisplayName env item resolved preferredTitle }

inductive ResolveOutcome
  | resolved (media : ResolvedMedia) (preferredTitle : Option String)
  | failed (message : String)
  deriving DecidableEq

def ResolveOutcome.mutateItem (env : Env) : ResolveOutcome → PlaylistItem → PlaylistItem
  | .resolved media preferredTitle, item => applyResolvedMediaToItem env media preferredTitle item
  | .failed message, item => { item with ingestStatus := some .error, ingestError := some message }

theorem ResolveOutcome.mutateItem_frame (env : Env) (outcome : ResolveOutcome)
    (item : PlaylistItem) :
    (outcome.mutateItem env item).id = item.id ∧
      (outcome.mutateItem env item).sourceKind = item.sourceKind ∧
      (outcome.mutateItem env item).localOriginUserId = item.localOriginUserId ∧
      (outcome.mutateItem env item).blockedReason = item.blockedReason := by
  cases outcome <;> simp [ResolveOutcome.mutateItem]

theorem ResolveOutcome.mutateItem_status (env : Env) (outcome : ResolveOutcome)
    (item : PlaylistItem) : (outcome.mutateItem env item).ingestStatus ≠ none := by
  cases outcome <;> simp [ResolveOutcome.mutateItem]

@[simps!] def touchRoomStructural (state : RoomState) (now : ℕ) : RoomState :=
  bumpRoomRevisions { state with updatedAt := now }

/-- One attempt of `commitResolvingItem`: only an item still waiting is settled;
a retrying caller writes the state back unchanged otherwise. -/
def commitResolvingItem (env : Env) (itemId : ItemId) (outcome : ResolveOutcome)
    (retryUntilPresent : Bool) (now : ℕ) (state : RoomState) : Option RoomState :=
  match findItem state itemId with
  | some item =>
    if item.ingestStatus = some .resolving then
      some (touchRoomStructural (updateItem state itemId (outcome.mutateItem env)) now)
    else if retryUntilPresent then some state else none
  | none => if retryUntilPresent then some state else none

def reresolveRemotePlaylistItem (itemId : ItemId) (now : ℕ) (state : RoomState) : Option RoomState :=
  match findItem state itemId with
  | none => none
  | some item =>
    if item.sourceKind ≠ .remoteUrl ∨ item.blockedReason = some .localOwnerOffline ∨
        item.ingestStatus = some .resolving then none
    else
      some (touchRoomStructural (updateItem state itemId fun item =>
        { item with ingestStatus := some .resolving, ingestError := none }) now)

end WebSyncPlay
