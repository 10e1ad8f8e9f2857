import WebSyncPlay.RoomState

/-! The bounded action log of a room (`server/log.ts`). -/
namespace WebSyncPlay

def roomActionLogMaxAgeMs : ℕ := 3600*1000

def visibleActionTypes : List String :=
  ["participant:joined","participant:disconnected","participant:username",
   "participant:role:changed","participant:owner:transferred","participant:error",
   "playback:pause","playback:unpause","playback:rate","playback:seek","playback:loop",
   "playlist:add","playlist:remove","playlist:reorder","media:played"]

def serverOnlyActionTypes : List String :=
  ["room:password:set","room:password:cleared","room:default-role:set"]

def trackedActionTypes : List String := visibleActionTypes ++ serverOnlyActionTypes

/-- Drop entries older than the room TTL, then all but the newest. -/
def pruneActionLog (env : Env) (actionLog : List ActionLogEntry) (now : ℕ) : List ActionLogEntry :=
  let next := actionLog.filter fun entry => decide (now ≤ entry.at_+roomActionLogMaxAgeMs)
  if env.roomActionLogLimit < next.length then next.drop (next.length-env.roomActionLogLimit)
  else next

/-- Actions outside the tracked set leave no entry. -/
@[simps] def appendActionLog (env : Env) (state : RoomState) (entry : ActionLogEntry) : RoomState :=
  { state with
    actionLog :=
      if entry.action ∈ trackedActionTypes then
        pruneActionLog env (state.actionLog ++ [entry]) entry.at_
      else state.actionLog }

end WebSyncPlay
