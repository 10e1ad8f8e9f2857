import WebSyncPlay.Repair

/-! Ownership (`services/ownership.ts`), and the prunes and the connectivity of the
roster (`services/participants.ts`). -/
namespace WebSyncPlay

open Library

def participantPruneMs : ℕ := 60000

inductive TransferReason
  | disconnect | cleanup | join | prune
  deriving DecidableEq

def participantSortKey (participant : ParticipantState) : ℕ :=
  (participant.joinedAt <|> participant.connectedAt <|> participant.lastSeenAt).getD
    9007199254740991

/-- The longest-tenured participant of a role; earlier properties win ties. -/
def pickNextOwner (role : RoomRole) : List (UserId × ParticipantState) →
    Option (UserId × ParticipantState)
  | [] => none
  | e::es =>
    if e.2.role = role then
      match pickNextOwner role es with
      | none => some e
      | some best =>
        if participantSortKey best.2 < participantSortKey e.2 then some best else some e
    else pickNextOwner role es

/-- The candidates of a transfer: connected peers, on prune any participant. -/
def transferCandidates (participants : Record UserId ParticipantState) (reason : TransferReason) :
    List (UserId × ParticipantState) :=
  let connected := participants.entries.filter fun e => e.2.connected
  if connected = [] then (if reason = .prune then participants.entries else []) else connected

def nextOwnerEntry (participants : Record UserId ParticipantState) (reason : TransferReason) :
    Option (UserId × ParticipantState) :=
  let candidates := transferCandidates participants reason
  pickNextOwner .moderator candidates <|> pickNextOwner .guest candidates <|>
    (if reason = .prune then pickNextOwner .owner candidates else none)

def keepsOwner (owner : Option ParticipantState) : TransferReason → Bool
  | .disconnect => true
  | .join => owner.isSome
  | _ => (owner.map (·.connected)).getD false

def transferOwnershipIfNeeded (env : Env) (now : ℕ) (state : RoomState) (reason : TransferReason) :
    RoomState × Bool :=
  if keepsOwner (state.participants.get? state.ownerId) reason then (state,false)
  else
    match nextOwnerEntry state.participants reason with
    | none => (state,false)
    | some (key,nextOwner) =>
      let promoted := state.participants.modify key fun p => { p with role := .owner }
      let participants :=
        match promoted.get? state.ownerId with
        | some previousOwner =>
          if previousOwner.userId ≠ nextOwner.userId then
            promoted.modify state.ownerId fun p => { p with role := .guest }
          else promoted
        | none => promoted
      (appendActionLog env { state with ownerId := nextOwner.userId, participants := participants }
        { at_ := now, roomId := state.roomId, actorUserId := nextOwner.userId,
          actorUsername := some nextOwner.username, action := "participant:owner:transferred" },
        true)

/-- Disconnected participants whose in-memory grace has elapsed. -/
def listParticipantsPastPruneGrace (state : RoomState) (nowMs : ℕ) : List UserId :=
  (state.participants.entries.filter fun e =>
    !e.2.connected &&
      match (e.2.disconnectedAt <|> e.2.lastSeenAt).getD 0 with
      | 0 => false
      | disconnectedAt+1 => decide (participantPruneMs ≤ nowMs-(disconnectedAt+1))).map Prod.fst

/-- In-memory prune, for when the prune index is unavailable. -/
def pruneOfflineParticipants (state : RoomState) (nowMs : ℕ) : RoomState :=
  { state with
    participants := (listParticipantsPastPruneGrace state nowMs).foldl Record.erase
      state.participants }

def removeDisconnectedParticipant (env : Env) (userId : UserId) (now : ℕ) (state : RoomState) :
    Option RoomState :=
  match state.participants.get? userId with
  | none => none
  | some participant =>
    if participant.connected then none
    else
      let removed := { state with participants := state.participants.erase userId }
      some { bumpRoomRevisions (transferOwnershipIfNeeded env now removed .prune).1 with
        updatedAt := now }

def pruneByDisconnectedAtFallback (env : Env) (nowMs : ℕ) (state : RoomState) : Option RoomState :=
  if listParticipantsPastPruneGrace state nowMs = [] then none
  else
    let removed := pruneOfflineParticipants state nowMs
    some { bumpRoomRevisions (transferOwnershipIfNeeded env nowMs removed .prune).1 with
      updatedAt := nowMs }

def reconcileParticipant (activeUserIds : Finset UserId) (now : ℕ) (participant : ParticipantState) :
    ParticipantState :=
  let joinedAt :=
    if (participant.joinedAt.getD 0) = 0 then
      some ((participant.connectedAt <|> participant.lastSeenAt).getD now)
    else participant.joinedAt
  let isActive := decide (participant.userId ∈ activeUserIds)
  if participant.connected && !isActive then
    { participant with
      joinedAt := joinedAt
      connected := false
      disconnectedAt := some now
      lastSeenAt := some now }
  else if !participant.connected && isActive then
    { participant with
      joinedAt := joinedAt
      connected := true
      disconnectedAt := none
      lastSeenAt := some now }
  else { participant with joinedAt := joinedAt }

@[simps] def reconcileParticipantsConnectivity (activeUserIds : Finset UserId) (now : ℕ)
    (state : RoomState) : RoomState :=
  { state with participants := state.participants.mapValues (reconcileParticipant activeUserIds now) }

def disconnectingUsers (activeUserIds : Finset UserId) (state : RoomState) : List UserId :=
  (state.participants.values.filter fun p => p.connected && !decide (p.userId ∈ activeUserIds)).map
    (·.userId)

def reconnectingUsers (activeUserIds : Finset UserId) (state : RoomState) : List UserId :=
  (state.participants.values.filter fun p => !p.connected && decide (p.userId ∈ activeUserIds)).map
    (·.userId)

end WebSyncPlay
