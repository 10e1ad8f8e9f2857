import WebSyncPlay.Disconnect

/-! One user message as one room write (`handlers/mutate-room.ts`), and the control
and owner gates over it (`handlers/mutate-controlled.ts`). -/
namespace WebSyncPlay

open Library

inductive RoomPublishHint
  | control | controlSnapshot | snapshot | actionLog | presence | controlEphemeral
  deriving DecidableEq

def bumpsStructuralRevision : RoomPublishHint → Bool
  | .snapshot => true
  | .controlSnapshot => true
  | .actionLog => true
  | _ => false

structure RoomMessageContext where
  roomId : String
  userId : UserId
  connectionId : String
  auth : ConnectionAuthContext
  deriving DecidableEq

/-- A message body and the hint under which its write is published. The body sees
the room and the sender's participant; `none` aborts without a write. -/
structure RoomMutation where
  hint : RoomPublishHint
  body : RoomState → ParticipantState → Option RoomState

/-- The body runs only when the connection may control the room. -/
def mutateControlledRoomMessage (ctx : RoomMessageContext) (hint : RoomPublishHint)
    (body : RoomState → ParticipantState → Option RoomState) : RoomMutation where
  hint := hint
  body state participant :=
    if canControlFromConnectionContext state ctx.userId ctx.auth then body state participant
    else none

def mutateOwnerRoomMessage (ctx : RoomMessageContext)
    (body : RoomState → ParticipantState → Option RoomState) : RoomMutation where
  hint := .snapshot
  body state participant :=
    if canManageRoomSecurityFromConnectionContext state ctx.userId ctx.auth then
      body state participant
    else none

def markSeen (now : ℕ) (participant : ParticipantState) : ParticipantState :=
  { participant with
    connected := true
    lastSeenAt := some now
    disconnectedAt := none }

/-- What follows a body: repair, activity of the sender, current media, revisions. -/
def finishRoomMessage (env : Env) (userId newOwnerId : UserId) (now : ℕ) (hint : RoomPublishHint)
    (mutated : RoomState) : RoomState :=
  let repaired := applyRoomStateRepair env now newOwnerId mutated
  let marked := markCurrentMedia
    { repaired with participants := repaired.participants.modify userId (markSeen now) }
  { marked with
    updatedAt := now
    generation := marked.generation+1
    structuralRevision :=
      if bumpsStructuralRevision hint then marked.structuralRevision+1
      else marked.structuralRevision }

def mutateRoomMessage (env : Env) (userId newOwnerId : UserId) (activeConnections : Finset UserId)
    (now : ℕ) (mutation : RoomMutation) (state : RoomState) : Option RoomState :=
  let reconciled := reconcileParticipantsConnectivity activeConnections now state
  match reconciled.participants.get? userId with
  | none => none
  | some participant =>
    (mutation.body reconciled participant).map
      (finishRoomMessage env userId newOwnerId now mutation.hint)

/-- A committed message is its body on the reconciled room, followed by the finish. -/
theorem mutateRoomMessage_eq_some {env : Env} {userId newOwnerId : UserId}
    {activeConnections : Finset UserId} {now : ℕ} {mutation : RoomMutation} {state next : RoomState}
    (h : mutateRoomMessage env userId newOwnerId activeConnections now mutation state = some next) :
    ∃ participant mutated,
      (reconcileParticipantsConnectivity activeConnections now state).participants.get? userId =
        some participant ∧
      mutation.body (reconcileParticipantsConnectivity activeConnections now state) participant =
        some mutated ∧
      next = finishRoomMessage env userId newOwnerId now mutation.hint mutated := by
  unfold mutateRoomMessage at h
  dsimp only at h
  split at h
  · cases h
  · rename_i participant hp
    obtain ⟨mutated,hm,rfl⟩ := Option.map_eq_some_iff.mp h
    exact ⟨participant,mutated,hp,hm,rfl⟩

end WebSyncPlay
