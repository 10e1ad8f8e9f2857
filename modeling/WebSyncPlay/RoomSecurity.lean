import WebSyncPlay.RoomState

/-! Room security (`services/room-security.ts`) and the permission gates of a
connection (`services/permissions.ts`). -/
namespace WebSyncPlay

open Library

/-- A missing or empty string. -/
def isBlank : Option String → Bool
  | none => true
  | some s => s == ""

def createDefaultRoomSecurity : RoomSecurityState where
  joinPasswordEnabled := false
  joinPasswordUpdatedAt := none
  admissionVersion := 0
  defaultJoinRole := .guest

/-- A join password without its hash or salt is turned off. -/
def normalizeRoomSecurity (current : RoomSecurityState) : RoomSecurityState :=
  if current.joinPasswordEnabled &&
      (isBlank current.joinPasswordHash || isBlank current.joinPasswordSalt) then
    { current with
      joinPasswordEnabled := false
      joinPasswordHash := none
      joinPasswordSalt := none }
  else current

theorem normalizeRoomSecurity_idem (current : RoomSecurityState) :
    normalizeRoomSecurity (normalizeRoomSecurity current) = normalizeRoomSecurity current := by
  by_cases h : (current.joinPasswordEnabled &&
      (isBlank current.joinPasswordHash || isBlank current.joinPasswordSalt)) = true
  · simp [normalizeRoomSecurity,h]
  · simp [normalizeRoomSecurity,h]

@[simps] def ensureRoomSecurity (state : RoomState) : RoomState :=
  { state with roomSecurity := normalizeRoomSecurity state.roomSecurity }

/-- `none` when the role is set already. -/
def setDefaultJoinRole (state : RoomState) (role : DefaultJoinRole) : Option RoomState :=
  let security := normalizeRoomSecurity state.roomSecurity
  if security.defaultJoinRole = role then none
  else some { state with roomSecurity := { security with defaultJoinRole := role } }

def setJoinPassword (env : Env) (state : RoomState) (password salt : String) (now : ℕ) : RoomState :=
  let security := normalizeRoomSecurity state.roomSecurity
  { state with
    roomSecurity := { security with
      joinPasswordEnabled := true
      joinPasswordSalt := some salt
      joinPasswordHash := some (env.hashJoinPassword (trim password) salt)
      joinPasswordUpdatedAt := some now
      admissionVersion := security.admissionVersion+1 } }

/-- `none` when there was no password to clear. -/
def clearJoinPassword (state : RoomState) (now : ℕ) : Option RoomState :=
  let security := normalizeRoomSecurity state.roomSecurity
  let changed := security.joinPasswordEnabled || !isBlank security.joinPasswordHash ||
    !isBlank security.joinPasswordSalt
  if changed then
    some { state with
      roomSecurity := { security with
        joinPasswordEnabled := false
        joinPasswordHash := none
        joinPasswordSalt := none
        joinPasswordUpdatedAt := some now
        admissionVersion := security.admissionVersion+1 } }
  else none

inductive JoinAdmissionResult
  | allowed | passwordRequired | invalidPassword
  deriving DecidableEq

def verifyJoinPassword (env : Env) (security : RoomSecurityState) (suppliedPassword : String) : Bool :=
  match security.joinPasswordHash, security.joinPasswordSalt with
  | some hash, some salt =>
    if !security.joinPasswordEnabled || hash == "" || salt == "" then true
    else hash == env.hashJoinPassword (trim suppliedPassword) salt
  | _, _ => true

def evaluateJoinAdmission (env : Env) (state : Option RoomState)
    (suppliedPassword : Option String) : JoinAdmissionResult :=
  match state with
  | none => .allowed
  | some state =>
    let security := normalizeRoomSecurity state.roomSecurity
    if !security.joinPasswordEnabled then .allowed
    else
      match suppliedPassword with
      | none => .passwordRequired
      | some password =>
        if trim password == "" then .passwordRequired
        else if verifyJoinPassword env security password then .allowed else .invalidPassword

/-- What the server knows of a connection when it judges a mutation. -/
structure ConnectionAuthContext where
  isControlSession : Bool
  controlAuthorized : Bool
  sessionKind : SessionKind
  deriving DecidableEq

def canMutateByRole (role : RoomRole) : Bool := role == .owner || role == .moderator

def hasPlaybackAndPlaylistControl (state : RoomState) (userId : UserId) : Bool :=
  match state.participants.get? userId with
  | none => false
  | some participant => canMutateByRole participant.role

/-- A display player never mutates; a control session needs its token. -/
def passesSessionGate (context : ConnectionAuthContext) : Bool :=
  if context.sessionKind = .player then false
  else if !context.isControlSession then true
  else context.controlAuthorized

def canControlFromConnectionContext (state : RoomState) (userId : UserId)
    (context : ConnectionAuthContext) : Bool :=
  passesSessionGate context && hasPlaybackAndPlaylistControl state userId

def canManageRoomSecurityFromConnectionContext (state : RoomState) (userId : UserId)
    (context : ConnectionAuthContext) : Bool :=
  passesSessionGate context && state.ownerId == userId

end WebSyncPlay
