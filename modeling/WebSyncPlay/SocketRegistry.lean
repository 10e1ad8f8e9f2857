import WebSyncPlay.RoomState
import WebSyncPlay.Library.TransitionSystem

/-! The sockets of one process (`server/ws/registry.ts`): by room, and each with what is known of
it. -/
namespace WebSyncPlay

open Library

/-- `SocketMeta`, with all that the registry keeps. -/
structure RegisteredMeta where
  roomId : String
  userId : UserId
  connectionId : String
  presenceTracked : Bool
  joinCommitted : Bool
  controlAuthorized : Bool
  isControlSession : Bool
  sessionKind : SessionKind
  canControlPlayback : Bool
  clientIp : Option String
  deriving DecidableEq

structure AddSocketInput where
  roomId : String
  userId : UserId
  joinCommitted : Option Bool := none
  controlAuthorized : Bool
  isControlSession : Bool
  sessionKind : SessionKind
  canControlPlayback : Option Bool := none
  clientIp : Option String := none
  deriving DecidableEq

/-- What `patchSocketMeta` can change. -/
structure SocketMetaPatch where
  presenceTracked : Option Bool := none
  controlAuthorized : Option Bool := none
  clientIp : Option String := none
  joinCommitted : Option Bool := none
  canControlPlayback : Option Bool := none
  deriving DecidableEq

def SocketMetaPatch.apply (patch : SocketMetaPatch) (known : RegisteredMeta) : RegisteredMeta :=
  { known with
    presenceTracked := patch.presenceTracked.getD known.presenceTracked
    controlAuthorized := patch.controlAuthorized.getD known.controlAuthorized
    clientIp := patch.clientIp <|> known.clientIp
    joinCommitted := patch.joinCommitted.getD known.joinCommitted
    canControlPlayback := patch.canControlPlayback.getD known.canControlPlayback }

structure SocketRegistry (W : Type*) where
  rooms : String → Option (List W) := fun _ => none
  sockets : W → Option RegisteredMeta := fun _ => none
  earlyClientIps : W → Option String := fun _ => none

namespace SocketRegistry

variable {W : Type*} [DecidableEq W]

def detachFromRoom (r : SocketRegistry W) (roomId : String) (ws : W) : SocketRegistry W :=
  match r.rooms roomId with
  | none => r
  | some roomSet =>
    let rest := roomSet.filter (· ≠ ws)
    { r with rooms := Function.update r.rooms roomId (if rest = [] then none else some rest) }

/-- `Set.add`. -/
def attachToRoom (r : SocketRegistry W) (roomId : String) (ws : W) : SocketRegistry W :=
  let roomSet := (r.rooms roomId).getD []
  { r with
    rooms := Function.update r.rooms roomId
      (some (if ws ∈ roomSet then roomSet else roomSet ++ [ws])) }

def setMeta (r : SocketRegistry W) (ws : W) (known : Option RegisteredMeta) : SocketRegistry W :=
  { r with sockets := Function.update r.sockets ws known }

def patchSocketMeta (r : SocketRegistry W) (ws : W) (patch : SocketMetaPatch) : SocketRegistry W :=
  match r.sockets ws with
  | none => r
  | some known => r.setMeta ws (some (patch.apply known))

def setSocketClientIp (r : SocketRegistry W) (ws : W) (clientIp : String) : SocketRegistry W :=
  { r with earlyClientIps := Function.update r.earlyClientIps ws (some clientIp) }.patchSocketMeta ws
    { clientIp := some clientIp }

def getSocketClientIp (r : SocketRegistry W) (ws : W) : String :=
  (((r.sockets ws).bind (·.clientIp)) <|> r.earlyClientIps ws).getD "unknown"

/-- The entry of a socket that is added, or added again. -/
def addedMeta (r : SocketRegistry W) (ws : W) (input : AddSocketInput) (uuid : String) :
    RegisteredMeta :=
  let previousMeta := r.sockets ws
  { roomId := input.roomId
    userId := input.userId
    connectionId := (previousMeta.map (·.connectionId)).getD uuid
    presenceTracked := (previousMeta.map (·.presenceTracked)).getD false
    joinCommitted := input.joinCommitted.getD false
    controlAuthorized := input.controlAuthorized
    isControlSession := input.isControlSession
    sessionKind := input.sessionKind
    canControlPlayback := input.canControlPlayback.getD
      ((previousMeta.map (·.canControlPlayback)).getD false)
    clientIp := input.clientIp <|> (previousMeta.bind (·.clientIp)) <|> r.earlyClientIps ws }

def addSocket (r : SocketRegistry W) (ws : W) (input : AddSocketInput) (uuid : String) :
    SocketRegistry W :=
  let detached := match r.sockets ws with
    | none => r
    | some previousMeta => r.detachFromRoom previousMeta.roomId ws
  (detached.attachToRoom input.roomId ws).setMeta ws (some (r.addedMeta ws input uuid))

def removeSocket (r : SocketRegistry W) (ws : W) : SocketRegistry W :=
  match r.sockets ws with
  | none => r
  | some known => (r.setMeta ws none).detachFromRoom known.roomId ws

def getSocketsForRoom (r : SocketRegistry W) (roomId : String) : List W :=
  (r.rooms roomId).getD []

def getSocketsForUser (r : SocketRegistry W) (roomId : String) (userId : UserId) : List W :=
  (r.getSocketsForRoom roomId).filter fun ws =>
    decide ((r.sockets ws).map (·.userId) = some userId)

def hasAnySocketInRoom (r : SocketRegistry W) (roomId : String) : Bool :=
  decide (0 < (r.getSocketsForRoom roomId).length)

def setUserCanControlPlayback (r : SocketRegistry W) (roomId : String) (userId : UserId)
    (canControlPlayback : Bool) : SocketRegistry W :=
  (r.getSocketsForUser roomId userId).foldl
    (fun r ws => r.patchSocketMeta ws { canControlPlayback := some canControlPlayback }) r

structure Consistent (r : SocketRegistry W) : Prop where
  nonempty : ∀ roomId, r.rooms roomId ≠ some []
  nodup : ∀ roomId, (r.getSocketsForRoom roomId).Nodup
  indexed : ∀ roomId ws, ws ∈ r.getSocketsForRoom roomId ↔
    (r.sockets ws).map (·.roomId) = some roomId

section Rooms

variable {r : SocketRegistry W} {roomId : String} {ws : W}

theorem rooms_detachFromRoom (other : String) :
    ((r.detachFromRoom roomId ws).getSocketsForRoom other) =
      if other = roomId then (r.getSocketsForRoom other).filter (· ≠ ws)
      else r.getSocketsForRoom other := by
  unfold detachFromRoom getSocketsForRoom
  by_cases heq : other = roomId
  · subst heq
    cases hroom : r.rooms other with
    | none => simp [hroom]
    | some roomSet =>
      have hrest : ∀ rest : List W, (if rest = [] then none else some rest).getD [] = rest := by
        intro rest
        by_cases hnil : rest = [] <;> simp [hnil]
      simp only [Function.update_self,hrest,Option.getD_some,if_true]
  · cases hroom : r.rooms roomId with
    | none => simp [heq]
    | some roomSet => simp [heq]

theorem nonempty_detachFromRoom (h : ∀ other, r.rooms other ≠ some []) (other : String) :
    (r.detachFromRoom roomId ws).rooms other ≠ some [] := by
  unfold detachFromRoom
  cases hroom : r.rooms roomId with
  | none => exact h other
  | some roomSet =>
    by_cases heq : other = roomId
    · subst heq
      by_cases hrest : roomSet.filter (· ≠ ws) = []
      · simp only [Function.update_self,if_pos hrest]
        simp
      · simp only [Function.update_self,if_neg hrest]
        exact fun hnil => hrest (Option.some.inj hnil)
    · simpa [heq] using h other

theorem rooms_attachToRoom (other : String) :
    ((r.attachToRoom roomId ws).getSocketsForRoom other) =
      if other = roomId ∧ ws ∉ r.getSocketsForRoom other then r.getSocketsForRoom other ++ [ws]
      else r.getSocketsForRoom other := by
  unfold attachToRoom getSocketsForRoom
  by_cases heq : other = roomId
  · subst heq
    by_cases hmem : ws ∈ (r.rooms other).getD []
    · simp [hmem]
    · simp [hmem]
  · simp [heq]

theorem nonempty_attachToRoom (h : ∀ other, r.rooms other ≠ some []) (other : String) :
    (r.attachToRoom roomId ws).rooms other ≠ some [] := by
  unfold attachToRoom
  by_cases heq : other = roomId
  · subst heq
    by_cases hmem : ws ∈ (r.rooms other).getD []
    · have hne : (r.rooms other).getD [] ≠ [] := List.ne_nil_of_mem hmem
      simpa [hmem] using hne
    · simp [hmem]
  · simpa [heq] using h other

@[simp] theorem sockets_detachFromRoom : (r.detachFromRoom roomId ws).sockets = r.sockets := by
  unfold detachFromRoom
  cases r.rooms roomId <;> rfl

@[simp] theorem sockets_attachToRoom : (r.attachToRoom roomId ws).sockets = r.sockets := rfl

@[simp] theorem getSocketsForRoom_setMeta (known : Option RegisteredMeta) :
    (r.setMeta ws known).getSocketsForRoom = r.getSocketsForRoom := rfl

theorem sockets_setMeta (known : Option RegisteredMeta) (other : W) :
    (r.setMeta ws known).sockets other = if other = ws then known else r.sockets other := by
  simp [setMeta,Function.update_apply]

end Rooms

namespace Consistent

variable {r : SocketRegistry W}

omit [DecidableEq W] in
theorem start : ({} : SocketRegistry W).Consistent where
  nonempty roomId := by simp
  nodup roomId := by simp [getSocketsForRoom]
  indexed roomId ws := by simp [getSocketsForRoom]

omit [DecidableEq W] in
theorem sameRooms (h : r.Consistent) {r' : SocketRegistry W} (hrooms : r'.rooms = r.rooms)
    (hmeta : ∀ ws, (r'.sockets ws).map (·.roomId) = (r.sockets ws).map (·.roomId)) :
    r'.Consistent where
  nonempty roomId := by
    rw [hrooms]
    exact h.nonempty roomId
  nodup roomId := by
    unfold getSocketsForRoom
    rw [hrooms]
    exact h.nodup roomId
  indexed roomId ws := by
    unfold getSocketsForRoom
    rw [hrooms,hmeta]
    exact h.indexed roomId ws

theorem patchSocketMeta (h : r.Consistent) (ws : W) (patch : SocketMetaPatch) :
    (r.patchSocketMeta ws patch).Consistent := by
  unfold SocketRegistry.patchSocketMeta
  cases hknown : r.sockets ws with
  | none => exact h
  | some known =>
    refine h.sameRooms rfl fun other => ?_
    rw [sockets_setMeta]
    by_cases heq : other = ws
    · subst heq
      rw [if_pos rfl,hknown]
      rfl
    · rw [if_neg heq]

theorem setUserCanControlPlayback (h : r.Consistent) (roomId : String) (userId : UserId)
    (canControlPlayback : Bool) :
    (r.setUserCanControlPlayback roomId userId canControlPlayback).Consistent := by
  unfold SocketRegistry.setUserCanControlPlayback
  generalize r.getSocketsForUser roomId userId = found
  induction found generalizing r with
  | nil => exact h
  | cons ws found ih => exact ih (h.patchSocketMeta ws _)

theorem removeSocket (h : r.Consistent) (ws : W) : (r.removeSocket ws).Consistent := by
  unfold SocketRegistry.removeSocket
  cases hknown : r.sockets ws with
  | none => exact h
  | some known =>
    constructor
    · exact nonempty_detachFromRoom h.nonempty
    · intro roomId
      rw [rooms_detachFromRoom]
      split
      · exact (h.nodup roomId).filter _
      · exact h.nodup roomId
    · intro roomId other
      rw [rooms_detachFromRoom,sockets_detachFromRoom,sockets_setMeta,getSocketsForRoom_setMeta]
      have hold := h.indexed roomId other
      by_cases heq : other = ws
      · subst heq
        rw [hknown] at hold
        by_cases hroom : roomId = known.roomId
        · simp [hroom]
        · have hnot : other ∉ r.getSocketsForRoom roomId := by
            intro hmem
            have hsame := hold.mp hmem
            simp only [Option.map_some,Option.some.injEq] at hsame
            exact hroom hsame.symm
          simpa [hroom] using hnot
      · by_cases hroom : roomId = known.roomId
        · rw [if_pos hroom,if_neg heq,List.mem_filter]
          simpa [heq] using hold
        · rw [if_neg hroom,if_neg heq]
          exact hold

theorem attach (h : r.Consistent) {ws : W} (hnone : r.sockets ws = none) (known : RegisteredMeta) :
    ((r.attachToRoom known.roomId ws).setMeta ws (some known)).Consistent where
  nonempty := nonempty_attachToRoom h.nonempty
  nodup roomId := by
    rw [getSocketsForRoom_setMeta,rooms_attachToRoom]
    split
    · rename_i hnew
      rw [List.nodup_append]
      refine ⟨h.nodup roomId,by simp,?_⟩
      intro a ha b hb hab
      rw [List.mem_singleton.mp hb] at hab
      exact hnew.2 (hab ▸ ha)
    · exact h.nodup roomId
  indexed roomId other := by
    rw [getSocketsForRoom_setMeta,rooms_attachToRoom,sockets_setMeta]
    have hold := h.indexed roomId other
    have hunknown : ws ∉ r.getSocketsForRoom roomId := by
      intro hmem
      have hsame := (h.indexed roomId ws).mp hmem
      simp [hnone] at hsame
    by_cases heq : other = ws
    · subst heq
      by_cases hroom : roomId = known.roomId
      · subst hroom
        simp [hunknown]
      · simpa [hroom,Ne.symm hroom] using hunknown
    · rw [if_neg heq,sockets_attachToRoom,← hold]
      split
      · simp [heq]
      · rfl

theorem addSocket (h : r.Consistent) (ws : W) (input : AddSocketInput) (uuid : String) :
    (r.addSocket ws input uuid).Consistent := by
  have hremoved := h.removeSocket ws
  have hnone : (r.removeSocket ws).sockets ws = none := by
    unfold SocketRegistry.removeSocket
    cases hknown : r.sockets ws with
    | none => exact hknown
    | some known => simp [sockets_setMeta]
  refine (hremoved.attach hnone (r.addedMeta ws input uuid)).sameRooms ?_ ?_
  · unfold SocketRegistry.addSocket SocketRegistry.removeSocket
    cases hknown : r.sockets ws with
    | none => rfl
    | some known =>
      unfold SocketRegistry.detachFromRoom
      show (SocketRegistry.attachToRoom _ _ _).rooms = (SocketRegistry.attachToRoom _ _ _).rooms
      cases hroom : r.rooms known.roomId <;> simp [SocketRegistry.attachToRoom,setMeta,hroom] <;> rfl
  · intro other
    unfold SocketRegistry.addSocket SocketRegistry.removeSocket
    rw [sockets_setMeta,sockets_setMeta]
    by_cases heq : other = ws
    · rw [if_pos heq,if_pos heq]
    · rw [if_neg heq,if_neg heq]
      cases hknown : r.sockets ws <;> simp [sockets_setMeta,heq]

end Consistent

end SocketRegistry

end WebSyncPlay
