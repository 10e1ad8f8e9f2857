import WebSyncPlay.Ownership

/-! A user going offline (`services/disconnect.ts`, `handlers/join/abort.ts`) and the
background sweep (`services/cleanup.ts`): the room writes they make. -/
namespace WebSyncPlay

open Library

def localOwnerOfflineMessage : String :=
  "The person sharing this file went offline. Ask them to re-share it from the same tab."

def sharesUnblocked (userId : UserId) (item : PlaylistItem) : Bool :=
  item.sourceKind == .localFile && userId != "" && item.localOriginUserId == some userId &&
    item.blockedReason != some .localOwnerOffline

def blockLocalItem (userId : UserId) (item : PlaylistItem) : PlaylistItem :=
  if sharesUnblocked userId item then
    { item with
      ingestStatus := some .error
      ingestError := some localOwnerOfflineMessage
      blockedReason := some .localOwnerOffline }
  else item

def invalidatesCurrent (state : RoomState) (userId : UserId) : Bool :=
  state.playlist.any fun item =>
    sharesUnblocked userId item && getCurrentMediaId state == some item.id

/-- Block the user's local files; playback pauses when the current item is one. -/
def invalidateLocalMediaForOwner (state : RoomState) (userId : UserId) (nowMs : ℕ) :
    RoomState × Bool :=
  let pauses := invalidatesCurrent state userId && !state.playback.paused
  ({ state with
      playlist := state.playlist.map (blockLocalItem userId)
      playback :=
        if pauses then
          { state.playback with
            paused := true
            serverNowMs := nextMonotonicMs state.playback.serverNowMs nowMs }
        else state.playback },
    pauses || state.playlist.any (sharesUnblocked userId))

def markOffline (nowMs : ℕ) (participant : ParticipantState) : ParticipantState :=
  { participant with
    connected := false
    disconnectedAt := some nowMs
    lastSeenAt := some nowMs
    localPlayback := { participant.localPlayback with updatedAt := nowMs } }

def applyUserWentOffline (env : Env) (state : RoomState) (roomId : String) (userId : UserId)
    (nowMs : ℕ) : RoomState × Bool :=
  let participant := state.participants.get? userId
  let offline := { state with participants := state.participants.modify userId (markOffline nowMs) }
  let invalidated := invalidateLocalMediaForOwner offline userId nowMs
  let didMutate := participant.isSome || invalidated.2
  let logged :=
    match participant with
    | none => invalidated.1
    | some participant =>
      appendActionLog env invalidated.1
        { at_ := nowMs, roomId := roomId, actorUserId := userId,
          actorUsername := some participant.username, action := "participant:disconnected" }
  (if didMutate then { logged with updatedAt := nowMs } else logged,didMutate)

/-- The write of a closed socket, given the users that presence still shows. -/
def handleSocketDisconnect (env : Env) (roomId : String) (userId : UserId)
    (activeUsers : Finset UserId) (nowMs : ℕ) (state : RoomState) : Option RoomState :=
  if activeUsers = ∅ then
    some (bumpRoomRevisions (applyUserWentOffline env state roomId userId nowMs).1)
  else if userId ∈ activeUsers then none
  else some (bumpRoomRevisions (applyUserWentOffline env state roomId userId nowMs).1)

/-- The write that makes up for a join whose socket died after its commit. -/
def abortJoinAfterCommit (env : Env) (roomId : String) (userId : UserId) (nowMs : ℕ)
    (state : RoomState) : Option RoomState :=
  let offline := applyUserWentOffline env state roomId userId nowMs
  if offline.2 then some (bumpRoomRevisions offline.1) else none

/-- The sweep's write to one room: repair, reconcile, transfer; none when all three
left the room as it was. -/
def cleanupInactiveRoom (env : Env) (activeConnections : Finset UserId) (newOwnerId : UserId)
    (now : ℕ) (current : RoomState) : Option RoomState :=
  let repair := repairCleanupAndCheckRoomState env now newOwnerId current
  let transfer := transferOwnershipIfNeeded env now
    (reconcileParticipantsConnectivity activeConnections now repair.1) .cleanup
  let didMutate := repair.2 ≠ [] ∨ disconnectingUsers activeConnections repair.1 ≠ [] ∨
    reconnectingUsers activeConnections repair.1 ≠ [] ∨ transfer.2
  if didMutate then some (bumpRoomRevisions { transfer.1 with updatedAt := now }) else none

end WebSyncPlay
