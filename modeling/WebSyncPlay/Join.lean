import WebSyncPlay.MutateRoom
import WebSyncPlay.LocalPlayback

/-! Room creation (`services/room.ts`) and the membership commit of a join
(`handlers/join/commit-membership.ts`). -/
namespace WebSyncPlay

open Library

def playlistItemFromUrl (id : ItemId) (url name : String) (ownerId : UserId) (now : ℕ) :
    PlaylistItem where
  id := id
  name := name
  sourceKind := .remoteUrl
  playbackMode := .direct
  sourceUrl := url
  playableUrl := url
  ingestStatus := some .resolving
  createdBy := ownerId
  createdAt := now

structure DailyDefault where
  url : String
  title : String
  deriving DecidableEq

/-- What one join reads from outside the room; `newIds` are the random ids of the
items that a new room starts with. -/
structure JoinInput where
  now : ℕ
  roomId : String
  userId : UserId
  username : String
  avatarStyle : String
  activeConnections : Finset UserId
  joinPassword : Option String := none
  seedUrl : Option String := none
  skipDefaultMedia : Bool := false
  isPresenceAlreadyTracked : Bool := false
  overlayPlayback : Option ParticipantLocalPlayback := none
  dailyDefaults : List DailyDefault := []
  newIds : List ItemId := []
  newOwnerId : UserId := ""
  deriving DecidableEq

/-- The items that a new room starts with: the seed, nothing, or the daily defaults. -/
def initialPlaylist (env : Env) (input : JoinInput) : List PlaylistItem :=
  let seededUrl := trim (input.seedUrl.getD "")
  if seededUrl ≠ "" ∧ env.isPublicHttpUrl seededUrl then
    (input.newIds.take 1).map fun id =>
      playlistItemFromUrl id seededUrl seededUrl input.userId input.now
  else if input.skipDefaultMedia then []
  else
    List.zipWith (fun id entry => playlistItemFromUrl id entry.url entry.title input.userId input.now)
      input.newIds input.dailyDefaults

theorem mem_initialPlaylist {env : Env} {input : JoinInput} {item : PlaylistItem}
    (h : item ∈ initialPlaylist env input) :
    ∃ id url name, item = playlistItemFromUrl id url name input.userId input.now := by
  simp only [initialPlaylist] at h
  split at h
  · obtain ⟨id,-,rfl⟩ := List.mem_map.mp h
    exact ⟨id,_,_,rfl⟩
  · split at h
    · cases h
    · rw [List.mem_iff_getElem?] at h
      obtain ⟨n,hn⟩ := h
      obtain ⟨id,entry,-,-,rfl⟩ := List.getElem?_zipWith_eq_some.mp hn
      exact ⟨id,entry.url,entry.title,rfl⟩

/-- An empty room stays paused until the first item is added. -/
def createInitialRoomState (env : Env) (input : JoinInput) : RoomState where
  roomId := input.roomId
  ownerId := input.userId
  roomSecurity := createDefaultRoomSecurity
  currentIndex := 0
  playlist := initialPlaylist env input
  updatedAt := input.now
  actionLog := []
  participants := Record.empty
  generation := 0
  structuralRevision := 0
  playback := {
    paused := (initialPlaylist env input).isEmpty
    playbackRate := 1
    timelineAnchorMs := 0
    serverNowMs := input.now
    videoLoop := .off
    playlistLoop := .off }

@[simp] theorem createInitialRoomState_playlist (env : Env) (input : JoinInput) :
    (createInitialRoomState env input).playlist = initialPlaylist env input := rfl

@[simp] theorem createInitialRoomState_participants (env : Env) (input : JoinInput) :
    (createInitialRoomState env input).participants = Record.empty := rfl

def shouldAppendParticipantJoinedLog (isPresenceAlreadyTracked : Bool) (wasConnected : Bool) : Bool :=
  !isPresenceAlreadyTracked || !wasConnected

/-- A participant keeps the role they had; the room's owner gets theirs back. -/
def joinRole (state : RoomState) (userId : UserId) : Option ParticipantState → RoomRole
  | some existing => existing.role
  | none =>
    if state.ownerId = userId then .owner
    else (normalizeRoomSecurity state.roomSecurity).defaultJoinRole.toRoomRole

/-- The joiner's entry. Profile and tenure of a known participant stay. -/
def joinParticipant (input : JoinInput) (role : RoomRole) (existing : Option ParticipantState) :
    ParticipantState where
  userId := input.userId
  username := (existing.map (·.username)).getD
    (if input.username = "" then "guest" else input.username)
  avatarStyle := (existing.map (·.avatarStyle)).getD (resolveStyle input.avatarStyle)
  role := role
  connected := true
  joinedAt := some (((existing.map (·.joinedAt)).getD none).getD input.now)
  connectedAt := some input.now
  disconnectedAt := none
  lastSeenAt := some input.now
  localPlayback :=
    let known := input.overlayPlayback <|> existing.map (·.localPlayback)
    { paused := (known.map (·.paused)).getD true
      currentTimeMs := (known.map (·.currentTimeMs)).getD 0
      loading := (known.map (·.loading)).getD false
      error := (input.overlayPlayback.bind (·.error)) <|>
        existing.bind (·.localPlayback.error)
      updatedAt := input.now }
  viewerMedia := existing.bind (·.viewerMedia)

/-- The room before the joiner is entered: the stored or a new one, repaired and
reconciled with presence. -/
def joinBase (env : Env) (input : JoinInput) (existing : Option RoomState) : RoomState :=
  reconcileParticipantsConnectivity input.activeConnections input.now
    (applyRoomStateRepair env input.now input.newOwnerId
      (existing.getD (createInitialRoomState env input)))

def seatJoiner (input : JoinInput) (base : RoomState) : RoomState :=
  let secured := ensureRoomSecurity base
  let existing := base.participants.get? input.userId
  { secured with
    participants := secured.participants.set input.userId
      (joinParticipant input (joinRole secured input.userId existing) existing) }

def enterParticipant (env : Env) (input : JoinInput) (base : RoomState) : RoomState × Bool :=
  transferOwnershipIfNeeded env input.now (seatJoiner input base) .join

/-- The log entry, the media mark and the revisions of a join. -/
def finishJoin (env : Env) (input : JoinInput) (existingParticipant : Option ParticipantState)
    (priorOwnerId : UserId) (entered : RoomState × Bool) : RoomState :=
  let appendJoinedLog := shouldAppendParticipantJoinedLog input.isPresenceAlreadyTracked
    ((existingParticipant.map (·.connected)).getD false)
  let logged :=
    if appendJoinedLog then
      appendActionLog env entered.1
        { at_ := input.now, roomId := input.roomId, actorUserId := input.userId,
          actorUsername := some (joinParticipant input .guest existingParticipant).username,
          action := "participant:joined" }
    else entered.1
  let marked := { markCurrentMedia logged with updatedAt := input.now }
  -- A rejoin that changes nothing keeps the revisions, and so the caches, as they are.
  let pureReconnect := existingParticipant.isSome && !appendJoinedLog && !entered.2 &&
    marked.ownerId == priorOwnerId
  if pureReconnect then marked else bumpRoomRevisions marked

def commitJoinMembership (env : Env) (input : JoinInput) (existing : Option RoomState) :
    Option RoomState :=
  let state := existing.getD (createInitialRoomState env input)
  if evaluateJoinAdmission env (some state) input.joinPassword ≠ .allowed then none
  else
    let base := joinBase env input existing
    some (finishJoin env input (base.participants.get? input.userId) base.ownerId
      (enterParticipant env input base))

end WebSyncPlay
