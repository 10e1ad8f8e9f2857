import WebSyncPlay.Library.Record
import WebSyncPlay.Library.Lists
import WebSyncPlay.Library.Text
import WebSyncPlay.Library.TransitionSystem

/-! The persisted room and the data it is made of (`contracts/s2c.ts`,
`contracts/types.ts`), with the limits of `env.ts`. Wall-clock stamps are whole
milliseconds; positions and rates of the playback timeline are exact rationals. -/
namespace WebSyncPlay

open Library

abbrev UserId := String

abbrev ItemId := String

/-- The array indices of a string key: canonical decimals below `2^32 - 1`. -/
instance : PropertyKey String where
  arrayIndex? k :=
    let cs := k.toList
    if cs.isEmpty || !cs.all Char.isDigit || (cs.head? == some '0' && decide (1 < cs.length)) then
      none
    else
      let n := cs.foldl (fun n c => 10*n+(c.toNat-48)) 0
      if n < 4294967295 then some n else none

inductive RoomRole
  | owner | moderator | guest
  deriving DecidableEq

inductive DefaultJoinRole
  | moderator | guest
  deriving DecidableEq

def DefaultJoinRole.toRoomRole : DefaultJoinRole → RoomRole
  | .moderator => .moderator
  | .guest => .guest

inductive LoopMode
  | off | once | always
  deriving DecidableEq

inductive SessionKind
  | room | player | control | embed
  deriving DecidableEq

inductive PlaylistSourceKind
  | remoteUrl | localFile
  deriving DecidableEq

inductive PlaybackMode
  | direct | relay
  deriving DecidableEq

inductive IngestStatus
  | ready | resolving | error
  deriving DecidableEq

inductive PlaylistBlockedReason
  | localOwnerOffline
  deriving DecidableEq

inductive PlaylistMediaStreamKind
  | adaptive | combined
  deriving DecidableEq

structure PlaylistMediaStream where
  id : String
  src : String
  type : Option String := none
  protocol : Option String := none
  height : Option ℕ := none
  bitrate : Option ℕ := none
  label : Option String := none
  isDefault : Bool := false
  kind : Option PlaylistMediaStreamKind := none
  deriving DecidableEq

structure PlaylistTextTrack where
  id : String
  src : String
  label : String
  deriving DecidableEq

structure PlaylistItem where
  id : ItemId
  name : String
  sourceKind : PlaylistSourceKind
  playbackMode : PlaybackMode
  sourceUrl : String
  playableUrl : String
  durationSeconds : Option ℚ := none
  ingestStatus : Option IngestStatus
  ingestError : Option String := none
  blockedReason : Option PlaylistBlockedReason := none
  mediaStreams : Option (List PlaylistMediaStream) := none
  textTracks : Option (List PlaylistTextTrack) := none
  defaultStreamId : Option String := none
  defaultTextTrackId : Option String := none
  isLive : Option Bool := none
  localMediaId : Option String := none
  localOriginUserId : Option UserId := none
  localMimeType : Option String := none
  localSizeBytes : Option ℕ := none
  createdBy : UserId
  createdAt : ℕ
  deriving DecidableEq

structure ViewerMediaItemPreference where
  streamId : Option String := none
  textTrackId : Option (Option String) := none
  audioLanguage : Option String := none
  deriving DecidableEq

structure ViewerMediaPreferences where
  byItemId : Record ItemId ViewerMediaItemPreference
  deriving DecidableEq

structure ParticipantLocalPlayback where
  paused : Bool
  currentTimeMs : ℚ
  loading : Bool
  error : Option String := none
  updatedAt : ℕ
  deriving DecidableEq

structure ParticipantState where
  userId : UserId
  username : String
  avatarStyle : String
  role : RoomRole
  connected : Bool
  joinedAt : Option ℕ := none
  connectedAt : Option ℕ := none
  disconnectedAt : Option ℕ := none
  lastSeenAt : Option ℕ := none
  localPlayback : ParticipantLocalPlayback
  viewerMedia : Option ViewerMediaPreferences := none
  deriving DecidableEq

structure SeekPreview where
  userId : UserId
  targetMs : ℚ
  active : Bool
  updatedAt : ℕ
  deriving DecidableEq

structure PlaybackState where
  mediaId : Option ItemId := none
  paused : Bool
  playbackRate : ℚ
  timelineAnchorMs : ℚ
  serverNowMs : ℚ
  videoLoop : LoopMode
  playlistLoop : LoopMode
  seekPreview : Option SeekPreview := none
  deriving DecidableEq

/-- Persisted security: hash and salt never leave the server. -/
structure RoomSecurityState where
  joinPasswordEnabled : Bool
  joinPasswordUpdatedAt : Option ℕ
  admissionVersion : ℕ
  defaultJoinRole : DefaultJoinRole
  joinPasswordHash : Option String := none
  joinPasswordSalt : Option String := none
  deriving DecidableEq

structure ActionLogEntry where
  at_ : ℕ
  roomId : String
  actorUserId : UserId
  actorUsername : Option String
  action : String
  error : Option String := none
  deriving DecidableEq

structure RoomState where
  roomId : String
  ownerId : UserId
  roomSecurity : RoomSecurityState
  playback : PlaybackState
  playlist : List PlaylistItem
  currentIndex : ℤ
  participants : Record UserId ParticipantState
  actionLog : List ActionLogEntry
  updatedAt : ℕ
  generation : ℕ
  structuralRevision : ℕ
  deriving DecidableEq

/-- The limits of the environment schema, and the functions that the room code
takes from outside it: password hashing, URL safety and display sanitising. -/
structure Env where
  roomParticipantsLimit : ℕ
  roomActionLogLimit : ℕ
  roomPlaylistLimit : ℕ
  participants_pos : 1 ≤ roomParticipantsLimit
  participants_le : roomParticipantsLimit ≤ 100
  playlist_pos : 1 ≤ roomPlaylistLimit
  playlist_le : roomPlaylistLimit ≤ 200
  actionLog_pos : 1 ≤ roomActionLogLimit
  actionLog_le : roomActionLogLimit ≤ 1000
  hashJoinPassword : String → String → String
  isPublicHttpUrl : String → Bool
  sanitizeMediaTitle : String → Option String

@[simps] def defaultEnv (hashJoinPassword : String → String → String)
    (isPublicHttpUrl : String → Bool) (sanitizeMediaTitle : String → Option String) : Env where
  roomParticipantsLimit := 100
  roomActionLogLimit := 500
  roomPlaylistLimit := 50
  participants_pos := by decide
  participants_le := by decide
  playlist_pos := by decide
  playlist_le := by decide
  actionLog_pos := by decide
  actionLog_le := by decide
  hashJoinPassword := hashJoinPassword
  isPublicHttpUrl := isPublicHttpUrl
  sanitizeMediaTitle := sanitizeMediaTitle

end WebSyncPlay
