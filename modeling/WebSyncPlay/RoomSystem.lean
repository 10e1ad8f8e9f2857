import WebSyncPlay.RoomMessages
import WebSyncPlay.Join
import WebSyncPlay.Library.TransitionSystem

/-! The stored room under every operation that writes it. An operation carries what
it reads from outside the room; no order between their clocks is assumed. -/
namespace WebSyncPlay

open Library

inductive RoomOp
  | message (ctx : RoomMessageContext) (inp : MessageInputs) (msg : RoomMessage)
  | join (input : JoinInput)
  | disconnect (roomId : String) (userId : UserId) (activeUsers : Finset UserId) (now : ℕ)
  | abortJoin (roomId : String) (userId : UserId) (now : ℕ)
  | cleanup (activeConnections : Finset UserId) (newOwnerId : UserId) (now : ℕ)
  | prune (userId : UserId) (now : ℕ)
  | pruneFallback (now : ℕ)
  | reresolve (itemId : ItemId) (now : ℕ)
  | settleResolve (itemId : ItemId) (outcome : ResolveOutcome) (retryUntilPresent : Bool) (now : ℕ)

def RoomOp.now : RoomOp → ℕ
  | .message _ inp _ => inp.now
  | .join input => input.now
  | .disconnect _ _ _ now => now
  | .abortJoin _ _ now => now
  | .cleanup _ _ now => now
  | .prune _ now => now
  | .pruneFallback now => now
  | .reresolve _ now => now
  | .settleResolve _ _ _ now => now

def RoomOp.isJoin : RoomOp → Bool
  | .join _ => true
  | _ => false

def RoomOp.commit (env : Env) : RoomOp → Option RoomState → Option RoomState
  | .join input, existing => commitJoinMembership env input existing
  | _, none => none
  | .message ctx inp msg, some state => processRoomMessage env ctx inp msg state
  | .disconnect roomId userId activeUsers now, some state =>
    handleSocketDisconnect env roomId userId activeUsers now state
  | .abortJoin roomId userId now, some state => abortJoinAfterCommit env roomId userId now state
  | .cleanup activeConnections newOwnerId now, some state =>
    cleanupInactiveRoom env activeConnections newOwnerId now state
  | .prune userId now, some state => removeDisconnectedParticipant env userId now state
  | .pruneFallback now, some state => pruneByDisconnectedAtFallback env now state
  | .reresolve itemId now, some state => reresolveRemotePlaylistItem itemId now state
  | .settleResolve itemId outcome retryUntilPresent now, some state =>
    commitResolvingItem env itemId outcome retryUntilPresent now state

def itemIds (state : RoomState) : List ItemId := state.playlist.map (·.id)

/-- Random ids are new: none is empty, and none is one the room has already. A join
brings one for each item that it may create, and user ids are never empty. -/
def RoomOp.Fresh : RoomOp → Option RoomState → Prop
  | .message _ inp _, state => inp.newId ≠ "" ∧ inp.newId ∉ (state.map itemIds).getD []
  | .join input, _ =>
    input.userId ≠ "" ∧ input.newIds.Nodup ∧ "" ∉ input.newIds ∧ input.newIds ≠ [] ∧
      input.dailyDefaults.length ≤ input.newIds.length
  | _, _ => True

instance (op : RoomOp) (state : Option RoomState) : Decidable (op.Fresh state) := by
  cases op <;> unfold RoomOp.Fresh <;> infer_instance

/-- A room: absent at first, written by the operations, deleted when it stays empty. -/
inductive RoomAction
  | write (op : RoomOp)
  | destroy

def roomSystem (env : Env) : TransitionSystem (Option RoomState) RoomAction where
  init s := s = none
  step s a s' :=
    match a with
    | .write op => op.Fresh s ∧ ∃ next, op.commit env s = some next ∧ s' = some next
    | .destroy => s' = none

/-- The states that a stored room can have. -/
def Stored (env : Env) (state : RoomState) : Prop := (roomSystem env).Reachable (some state)

/-- The runs whose writes to a stored room all pass a test on the operation and the
room it finds. -/
def guardedRoomSystem (env : Env) (guard : RoomOp → RoomState → Bool) :
    TransitionSystem (Option RoomState) RoomAction :=
  (roomSystem env).restrict fun room action =>
    match room, action with
    | some state, .write op => guard op state = true
    | _, _ => True

theorem Stored.of_guarded {env : Env} {guard : RoomOp → RoomState → Bool} {state : RoomState}
    (h : (guardedRoomSystem env guard).Reachable (some state)) : Stored env state :=
  TransitionSystem.Reachable.of_restrict h

theorem guarded_invariant {env : Env} {guard : RoomOp → RoomState → Bool} (I : RoomState → Prop)
    (hjoin : ∀ (input : JoinInput) (next : RoomState), (RoomOp.join input).Fresh none →
      commitJoinMembership env input none = some next → I next)
    (hstep : ∀ (state : RoomState) (op : RoomOp) (next : RoomState),
      (guardedRoomSystem env guard).Reachable (some state) → I state → guard op state = true →
      op.Fresh (some state) → op.commit env (some state) = some next → I next)
    {state : RoomState} (h : (guardedRoomSystem env guard).Reachable (some state)) : I state := by
  have hall : ∀ o : Option RoomState, (guardedRoomSystem env guard).Reachable o →
      ∀ s, o = some s → I s := by
    intro o ho
    apply TransitionSystem.Reachable.invariant (T := guardedRoomSystem env guard) _ _ _ ho
    · rintro o ho s rfl
      cases ho
    · rintro o (op | _) o' hr ih hs s rfl
      · obtain ⟨hg,hf,next,hc,hn⟩ := hs
        cases hn
        cases o with
        | none =>
          cases op with
          | join input => exact hjoin input s hf hc
          | _ => cases hc
        | some state => exact hstep state op s hr (ih state rfl) hg hf hc
      · obtain ⟨-,hs⟩ := hs
        cases hs
  exact hall _ h state rfl

theorem Stored.invariant {env : Env} (I : RoomState → Prop)
    (hjoin : ∀ (input : JoinInput) (next : RoomState), (RoomOp.join input).Fresh none →
      commitJoinMembership env input none = some next → I next)
    (hstep : ∀ (state : RoomState) (op : RoomOp) (next : RoomState), Stored env state → I state →
      op.Fresh (some state) → op.commit env (some state) = some next → I next)
    {state : RoomState} (h : Stored env state) : I state := by
  have hguarded : (guardedRoomSystem env fun _ _ => true).Reachable (some state) :=
    h.to_restrict fun room action => by cases room <;> cases action <;> trivial
  apply guarded_invariant I hjoin _ hguarded
  intro state op next hr hi _ hf hc
  exact hstep state op next (.of_guarded hr) hi hf hc

/-- Carry out operations one after another; `none` as soon as one of them brings a
stale id, fails the test or writes nothing. -/
def runRoom (env : Env) (guard : RoomOp → RoomState → Bool) :
    List RoomOp → Option RoomState → Option RoomState
  | [], room => room
  | op::ops, room =>
    if op.Fresh room ∧ room.all (guard op) then
      match op.commit env room with
      | none => none
      | some next => runRoom env guard ops (some next)
    else none

theorem reachable_of_runRoom {env : Env} {guard : RoomOp → RoomState → Bool} (ops : List RoomOp)
    {room : Option RoomState} {state : RoomState}
    (hr : (guardedRoomSystem env guard).Reachable room)
    (h : runRoom env guard ops room = some state) :
    (guardedRoomSystem env guard).Reachable (some state) := by
  induction ops generalizing room with
  | nil =>
    cases h
    exact hr
  | cons op ops ih =>
    unfold runRoom at h
    split at h
    · rename_i hf
      split at h
      · cases h
      · rename_i next hc
        refine ih (.step (a := .write op) hr ⟨?_,hf.1,next,hc,rfl⟩) h
        cases room with
        | none => trivial
        | some found => exact hf.2
    · cases h

theorem exists_guarded_of_runRoom (env : Env) (guard : RoomOp → RoomState → Bool)
    (ops : List RoomOp) (P : RoomState → Prop) [DecidablePred P]
    (h : ((runRoom env guard ops none).any fun state => decide (P state)) = true) :
    ∃ state, (guardedRoomSystem env guard).Reachable (some state) ∧ P state := by
  cases hr : runRoom env guard ops none with
  | none =>
    rw [hr] at h
    cases h
  | some state =>
    rw [hr] at h
    exact ⟨state,reachable_of_runRoom ops (.init rfl) hr,by simpa using h⟩

theorem exists_stored_of_runRoom (env : Env) (ops : List RoomOp) (P : RoomState → Prop)
    [DecidablePred P]
    (h : ((runRoom env (fun _ _ => true) ops none).any fun state => decide (P state)) = true) :
    ∃ state, Stored env state ∧ P state := by
  obtain ⟨state,hr,hp⟩ := exists_guarded_of_runRoom env _ ops P h
  exact ⟨state,.of_guarded hr,hp⟩

section Scenario

/-- Default limits, every URL public, titles kept; passwords are salted in front. -/
def scenarioEnv : Env := defaultEnv (fun password salt => salt ++ password) (fun _ => true) some

def joinAs (userId : UserId) (now : ℕ) (active : Finset UserId) : RoomOp :=
  .join {
    now := now, roomId := "room", userId := userId, username := userId,
    avatarStyle := defaultAvatarStyle, activeConnections := active, skipDefaultMedia := true,
    newIds := ["seed"] }

def roomPage (userId : UserId) : RoomMessageContext where
  roomId := "room"
  userId := userId
  connectionId := userId
  auth := { isControlSession := false, controlAuthorized := false, sessionKind := .room }

def messageFrom (userId : UserId) (now : ℕ) (active : Finset UserId) (newId : ItemId)
    (msg : RoomMessage) : RoomOp :=
  .message (roomPage userId) { now := now, activeConnections := active, newId := newId } msg

def videoFile (localMediaId : String) (durationSeconds : Option ℚ) : AddLocalInput where
  localMediaId := localMediaId
  name := localMediaId
  mimeType := "video/mp4"
  sizeBytes := 1000
  durationSeconds := durationSeconds

end Scenario

end WebSyncPlay
