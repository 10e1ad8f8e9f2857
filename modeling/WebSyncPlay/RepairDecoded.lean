import WebSyncPlay.Library.ScriptValue
import WebSyncPlay.ActionLog

/-! Repair of a decoded document (`server/repair.ts`): what is taken as a room may be any JSON
object. Each part returns the object it leaves and the findings it reports; a comparison with a value
that has no number throws. -/
namespace WebSyncPlay.Decoded

open Library ScriptValue

section Item

def isText (v : Option ScriptValue) : Bool := (string? v).isSome

def isOneOf (v : Option ScriptValue) (names : List String) : Bool :=
  (string? v).any fun s => decide (s ∈ names)

def propOf (v : ScriptValue) (k : String) : Option ScriptValue := v.props?.bind fun o => getProp o k

/-- Change the properties of a value, if it can have any. -/
def mapProps (v : ScriptValue) (f : ScriptObject → ScriptObject) : ScriptValue :=
  match v.props? with
  | none => v
  | some props => v.withProps (f props)

/-- One assignment of a repair: the property, what it is set to if anything, and what is reported. -/
structure RepairRule where
  key : String
  value : ScriptObject → Option ScriptValue
  finding : String

def RepairRule.apply (rule : RepairRule) (o : ScriptObject) : ScriptObject × List String :=
  (assignProp o rule.key (rule.value o), if (rule.value o).isSome then [rule.finding] else [])

def applyRules : List RepairRule → ScriptObject → ScriptObject × List String
  | [],o => (o,[])
  | rule :: rules,o =>
    let first := rule.apply o
    let rest := applyRules rules first.1
    (rest.1,first.2 ++ rest.2)

def sourceKinds : List String := ["remote_url","local_file"]
def playbackModes : List String := ["direct","relay"]
def ingestStatuses : List String := ["ready","resolving","error"]

def sourceKindRule : RepairRule where
  key := "sourceKind"
  value item :=
    if isOneOf (getProp item "sourceKind") sourceKinds then none
    else some (.string (if truthy (getProp item "localMediaId") then "local_file" else "remote_url"))
  finding := "playlist-item-source-kind-repaired"

def playbackModeRule : RepairRule where
  key := "playbackMode"
  value item :=
    if isOneOf (getProp item "playbackMode") playbackModes then none else some (.string "direct")
  finding := "playlist-item-playback-mode-repaired"

/-- Local files are same-origin, never "relay". -/
def localPlaybackModeRule : RepairRule where
  key := "playbackMode"
  value item :=
    if string? (getProp item "sourceKind") = some "local_file" ∧
        string? (getProp item "playbackMode") = some "relay" then some (.string "direct")
    else none
  finding := "playlist-item-local-playback-mode-repaired"

def ingestStatusRule : RepairRule where
  key := "ingestStatus"
  value item :=
    if isOneOf (getProp item "ingestStatus") ingestStatuses then none
    else some (.string (if truthy (getProp item "isResolving") then "resolving"
      else if truthy (getProp item "resolutionError") then "error" else "ready"))
  finding := "playlist-item-ingest-status-repaired"

/-- A legacy text moves to a field that holds nothing. -/
def migrationRule (key legacyKey finding : String) : RepairRule where
  key := key
  value item :=
    if truthy (getProp item key) then none else (string? (getProp item legacyKey)).map .string
  finding := finding

def ingestErrorRule : RepairRule :=
  migrationRule "ingestError" "resolutionError" "playlist-item-ingest-error-migrated"

def defaultStreamRule : RepairRule :=
  migrationRule "defaultStreamId" "selectedStreamId" "playlist-item-default-stream-migrated"

def defaultTextTrackRule : RepairRule :=
  migrationRule "defaultTextTrackId" "selectedTextTrackId"
    "playlist-item-default-text-track-migrated"

def itemRules : List RepairRule :=
  [sourceKindRule,playbackModeRule,localPlaybackModeRule,ingestStatusRule,ingestErrorRule,
    defaultStreamRule,defaultTextTrackRule]

/-- The fields of an item that are no longer written. -/
def legacyKeys : List String :=
  ["isResolving","resolutionError","originalUrl","selectedStreamId","selectedTextTrackId"]

def repairPlaylistItemFields (item : ScriptObject) : ScriptObject × List String :=
  let repaired := applyRules itemRules item
  (legacyKeys.foldl deleteProp repaired.1,repaired.2)

def isPlaylistItem (item : ScriptValue) : Bool :=
  isText (propOf item "id") && isText (propOf item "name") && isText (propOf item "sourceUrl") &&
    isText (propOf item "playableUrl")

def repairPlaylistItem (item : ScriptValue) : ScriptValue :=
  mapProps item fun props => (repairPlaylistItemFields props).1

end Item

section Playlist

/-- The index within the playlist: too high ones go to the end, all other bad ones to the start. -/
def clampIndex (raw : Option ScriptValue) (number : ScriptNumber) (length : ℕ) : ℤ × List String :=
  let tooHigh := ScriptNumber.le (.finite length) number
  let clamped := if tooHigh then some (rat (max 0 ((length : ℤ)-1) : ℤ)) else raw
  let index := (integer? clamped).filter fun i => decide (0 ≤ i)
  (index.getD 0,
    (if tooHigh then ["playlist-index-clamped"] else []) ++
      (if index.isNone then ["playlist-index-repaired"] else []))

/-- The items, of whatever shape; what is no array is taken as an empty one. -/
def storedPlaylist (state : ScriptObject) : List ScriptValue × List String :=
  match getProp state "playlist" with
  | some (.array items _) => (items,[])
  | _ => ([],["playlist-repaired"])

/-- Malformed items go, the index is clamped, then all but the newest items go. -/
def repairPlaylistState (env : Env) (conv : NumberText) (state : ScriptObject) :
    Option (ScriptObject × List String) :=
  let raw := storedPlaylist state
  let kept := raw.1.filter isPlaylistItem
  let playlist := kept.map repairPlaylistItem
  let itemFindings := kept.flatMap fun item =>
    (item.props?.elim [] fun props => (repairPlaylistItemFields props).2)
  (toNumber? conv (getProp state "currentIndex")).map fun number =>
    let index := clampIndex (getProp state "currentIndex") number playlist.length
    let overflow := playlist.length-env.roomPlaylistLimit
    let trims := env.roomPlaylistLimit < playlist.length
    let trimmed := if trims then playlist.drop overflow else playlist
    let trimmedIndex : ℤ :=
      if trims then max 0 (min (index.1-overflow) ((trimmed.length : ℤ)-1)) else index.1
    (setProp (setProp state "playlist" (.array trimmed [])) "currentIndex" (rat trimmedIndex),
      raw.2 ++ itemFindings ++ index.2 ++ (if trims then ["playlist-trimmed"] else []))

end Playlist

section Parts

/-- `newOwnerId` is the random id that stands in for a missing owner. -/
def repairOwner (newOwnerId : String) (state : ScriptObject) : ScriptObject × List String :=
  if (string? (getProp state "ownerId")).any (· ≠ "") then (state,[])
  else (setProp state "ownerId" (.string newOwnerId),["owner-repaired"])

def createDefaultRoomSecurity : ScriptObject :=
  [("joinPasswordEnabled",.bool false),("joinPasswordUpdatedAt",.null),("admissionVersion",rat 0),
    ("defaultJoinRole",.string "guest")]

def asNonNegativeInt (v : Option ScriptValue) : ℤ :=
  ((integer? v).filter fun i => decide (0 ≤ i)).getD 0

def asFiniteNumberOrNull (v : Option ScriptValue) : ScriptValue := (finite? v).elim .null rat

def normalizeDefaultJoinRole (v : Option ScriptValue) : String :=
  if string? v = some "guest" then "guest" else "moderator"

def isEnabled (v : Option ScriptValue) : Bool :=
  match v with
  | some (.bool b) => b
  | _ => false

/-- A field set to undefined is an absent one. -/
def optionalField (k : String) (s : Option String) : ScriptObject :=
  s.toList.map fun s => (k,.string s)

def roomSecurity (enabled : Bool) (updatedAt : ScriptValue) (version : ℤ) (role : String)
    (hash salt : Option String) : ScriptObject :=
  [("joinPasswordEnabled",.bool enabled),("joinPasswordUpdatedAt",updatedAt),
    ("admissionVersion",rat version),("defaultJoinRole",.string role)] ++
      optionalField "joinPasswordHash" hash ++ optionalField "joinPasswordSalt" salt

def lacks (s : Option String) : Bool := s.all (· = "")

/-- An enabled password without a hash or a salt is turned off. -/
def normalizeRoomSecurity (current : ScriptObject) : ScriptObject :=
  let enabled := isEnabled (getProp current "joinPasswordEnabled")
  let hash := string? (getProp current "joinPasswordHash")
  let salt := string? (getProp current "joinPasswordSalt")
  let updatedAt := asFiniteNumberOrNull (getProp current "joinPasswordUpdatedAt")
  let version := asNonNegativeInt (getProp current "admissionVersion")
  let role := normalizeDefaultJoinRole (getProp current "defaultJoinRole")
  if enabled && (lacks hash || lacks salt) then roomSecurity false updatedAt version role none none
  else roomSecurity enabled updatedAt version role hash salt

def repairSecurity (state : ScriptObject) : ScriptObject × List String :=
  match (getProp state "roomSecurity").bind props? with
  | none =>
    (setProp state "roomSecurity" (.object createDefaultRoomSecurity),["room-security-repaired"])
  | some current =>
    (setProp state "roomSecurity" (.object (normalizeRoomSecurity current)),
      if isEnabled (getProp current "joinPasswordEnabled") &&
          (!truthy (getProp current "joinPasswordHash") ||
            !truthy (getProp current "joinPasswordSalt")) then
        ["room-security-disabled-missing-secret"] else [])

def isParticipant (e : String × ScriptValue) : Bool := e.1 ≠ "" && isText (propOf e.2 "userId")

def positiveNumber (v : Option ScriptValue) : Option ScriptNumber :=
  (number? v).filter (ScriptNumber.lt (.finite 0))

/-- A stamp that is no positive number, or is infinite, is replaced; what replaces it may be
infinite. -/
def joinedAtRule (now : ℤ) : RepairRule where
  key := "joinedAt"
  value participant :=
    if (finite? (getProp participant "joinedAt")).any (0 < ·) then none
    else some (.number (((positiveNumber (getProp participant "connectedAt")).or
      (positiveNumber (getProp participant "lastSeenAt"))).getD (.finite now)))
  finding := "participant-joined-at-repaired"

def repairJoinedAt (now : ℤ) (participant : ScriptValue) : ScriptValue :=
  mapProps participant fun props => ((joinedAtRule now).apply props).1

def repairParticipants (env : Env) (now : ℤ) (state : ScriptObject) :
    ScriptObject × List String :=
  let value := (getProp state "participants").filter fun v => v.props?.isSome
  let entries := value.elim [] ScriptValue.entries
  let kept := entries.filter isParticipant
  let taken := kept.take env.roomParticipantsLimit
  (setProp state "participants" (.object (taken.map fun e => (e.1,repairJoinedAt now e.2))),
    (if value.isNone then ["participants-repaired"] else []) ++
      (if kept.length ≠ entries.length then ["participants-cleaned"] else []) ++
      (taken.flatMap fun e => e.2.props?.elim [] fun props => ((joinedAtRule now).apply props).2) ++
      (if env.roomParticipantsLimit < kept.length then ["participants-trimmed"] else []))

def isRecent (now : ℤ) (entry : ScriptValue) : Bool :=
  (number? (propOf entry "at")).any
    (ScriptNumber.le (.finite ((now : ℚ)-(roomActionLogMaxAgeMs : ℚ))))

def isLogEntry (now : ℤ) (entry : ScriptValue) : Bool :=
  (string? (propOf entry "action")).any (fun action => decide (action ∈ trackedActionTypes)) &&
    isText (propOf entry "actorUserId") && isRecent now entry

def pruneActionLog (env : Env) (actionLog : List ScriptValue) (now : ℤ) : List ScriptValue :=
  let next := actionLog.filter (isRecent now)
  if env.roomActionLogLimit < next.length then next.drop (next.length-env.roomActionLogLimit)
  else next

def repairActionLog (env : Env) (now : ℤ) (state : ScriptObject) : ScriptObject × List String :=
  match getProp state "actionLog" with
  | some (.array actionLog _) =>
    let valid := actionLog.filter (isLogEntry now)
    let pruned := pruneActionLog env valid now
    (setProp state "actionLog" (.array pruned []),
      (if valid.length ≠ actionLog.length then ["action-log-filtered"] else []) ++
        (if pruned.length < valid.length then ["action-log-trimmed"] else []))
  | _ => (setProp state "actionLog" (.array [] []),["action-log-repaired"])

def createDefaultPlayback (now : ℤ) : ScriptObject :=
  [("paused",.bool true),("playbackRate",rat 1),("timelineAnchorMs",rat 0),("serverNowMs",rat now),
    ("videoLoop",.string "off"),("playlistLoop",.string "off")]

def normalizeFiniteNumber (v : Option ScriptValue) (fallback : ℚ) : ℚ := (finite? v).getD fallback

def loopModes : List String := ["off","once","always"]

def loopRule (key : String) : RepairRule where
  key := key
  value playback :=
    if isOneOf (getProp playback key) loopModes then none else some (.string "off")
  finding := "playback-repaired"

def setNumber (o : ScriptObject) (k : String) (f : Option ScriptValue → ℚ) : ScriptObject :=
  setProp o k (rat (f (getProp o k)))

def sanitizePlayback (now : ℤ) (playback : ScriptObject) : ScriptObject × List String :=
  let paused := setProp playback "paused" (.bool (truthy (getProp playback "paused")))
  let rated := setNumber paused "playbackRate" fun v =>
    min 3 (max (1/4) (normalizeFiniteNumber v 1))
  let anchored := setNumber rated "timelineAnchorMs" fun v => max 0 (normalizeFiniteNumber v 0)
  let stamped := setNumber anchored "serverNowMs" fun v => max 0 (normalizeFiniteNumber v now)
  applyRules [loopRule "videoLoop",loopRule "playlistLoop"] stamped

def repairPlayback (now : ℤ) (state : ScriptObject) : ScriptObject × List String :=
  let value := (getProp state "playback").filter fun v => v.props?.isSome
  let playback := value.getD (.object (createDefaultPlayback now))
  (setProp state "playback" (mapProps playback fun props => (sanitizePlayback now props).1),
    (if value.isNone then ["playback-object-repaired"] else []) ++
      playback.props?.elim [] fun props => (sanitizePlayback now props).2)

/-- Fields that the schema has no more. -/
def stripLegacy (state : ScriptObject) : ScriptObject × List String :=
  let stripped := deleteProp state "history"
  let playback := getProp stripped "playback"
  (assignProp stripped "playback" (playback.map fun v => mapProps v (deleteProp · "shuffle")),
    (if (getProp state "history").isSome then ["legacy-history-stripped"] else []) ++
      (if (playback.bind fun v => propOf v "shuffle").isSome then ["legacy-shuffle-stripped"]
        else []))

def repairUpdatedAt (conv : NumberText) (now : ℤ) (state : ScriptObject) :
    Option (ScriptObject × List String) :=
  (toNumber? conv (getProp state "updatedAt")).map fun number =>
    if ScriptNumber.le number (.finite 0) || (finite? (getProp state "updatedAt")).isNone then
      (setProp state "updatedAt" (rat now),["updated-at-repaired"])
    else (state,[])

/-- A counter that is no finite number or negative starts again. -/
def countRule (key finding : String) : RepairRule where
  key := key
  value state := if (finite? (getProp state key)).any (0 ≤ ·) then none else some (rat 0)
  finding := finding

def countRules : List RepairRule :=
  [countRule "generation" "generation-repaired",
    countRule "structuralRevision" "structural-revision-repaired"]

end Parts

/-- `none` when a comparison throws. -/
def repairCleanupAndCheckRoomState (env : Env) (conv : NumberText) (now : ℤ) (newOwnerId : String)
    (state : ScriptObject) : Option (ScriptObject × List String) :=
  let roomId := if (string? (getProp state "roomId")).any (· ≠ "") then [] else ["room-id-invalid"]
  let owner := repairOwner newOwnerId state
  let security := repairSecurity owner.1
  (repairPlaylistState env conv security.1).bind fun playlist =>
    let participants := repairParticipants env now playlist.1
    let actionLog := repairActionLog env now participants.1
    let playback := repairPlayback now actionLog.1
    let legacy := stripLegacy playback.1
    (repairUpdatedAt conv now legacy.1).map fun updatedAt =>
      let counts := applyRules countRules updatedAt.1
      (counts.1,roomId ++ owner.2 ++ security.2 ++ playlist.2 ++ participants.2 ++ actionLog.2 ++
        playback.2 ++ legacy.2 ++ updatedAt.2 ++ counts.2)

end WebSyncPlay.Decoded
