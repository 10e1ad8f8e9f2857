import WebSyncPlay.PresenceAccounting
import WebSyncPlay.OwnershipInvariant

/-! The processes of a cluster over one store: joins with their identity claim
(`services/identity-store.ts`), close handlers and background sweeps with the destruction of
empty rooms (`services/empty-room.ts`, `cleanup.ts`, `disconnect.ts`), and the eviction after
a change of the password (`broadcast/bus-fanout.ts`). One command at a time; everything else
interleaves. All nodes are alive, and no key expires but the marker of an empty room. -/
namespace WebSyncPlay

open Library TransitionSystem

def emptyRoomDestroyGraceMs : ℕ := 15000

def emptyAtTtlMs : ℕ := emptyRoomDestroyGraceMs*4

structure EmptyMarker where
  emptyAt : ℕ
  expiresAt : ℕ
  deriving DecidableEq

/-- What a sweep or a close handler does next about a room: the presence read, the close
handler's room write, mark, check of the grace, and the same two checks again before the
deletion. A time is the clock as its caller read it. -/
inductive DestroyStage
  | idle
  | reading (roomId : String)
  | writing (roomId : String)
  | noting (roomId : String)
  | marking (roomId : String) (nowMs : ℕ)
  | checking (roomId : String) (nowMs : ℕ)
  | confirming (roomId : String)
  | rereading (roomId : String) (nowMs : ℕ)
  | rechecking (roomId : String) (nowMs : ℕ)
  | clearing (roomId : String)
  | deleting (roomId : String)
  deriving DecidableEq

/-- What a join that is past admission does next. -/
inductive JoinPhase
  | claiming | verifying | migrating | writing | written
  deriving DecidableEq

/-- A socket with the secret that its join presents, the admission versions that let in its
join and the one that it is registered for, and the room whose marker its join has still to
clear. -/
structure ClusterSocket where
  base : PresenceSocket := {}
  secret : String := ""
  phase : JoinPhase := .claiming
  admittedVersion : ℕ := 0
  registeredVersion : ℕ := 0
  clearing : Option String := none

structure AdmissionChanged where
  roomId : String
  admissionVersion : ℕ
  ownerId : UserId
  deriving DecidableEq

/-- The store: rooms, identity hashes, one entry of `refs` for each counted reference of a
node, and markers; then sockets, handlers (`inl` the close handler of a socket, `inr` a
sweep) and the evictions that each node has still to carry out. `joinedWith` keeps, for
comparison, the secret with which each user was last seated. -/
structure Cluster (N S W : Type*) where
  rooms : Record String RoomState
  identities : String → UserId → Option String
  refs : List (N × Membership)
  emptyAt : String → Option EmptyMarker
  now : ℕ
  sockets : S → ClusterSocket
  destroyers : S ⊕ W → DestroyStage
  evictions : N → List AdmissionChanged
  joinedWith : Membership → Option String

section Store

variable {N S W : Type*} [DecidableEq N]

def bumpRefs (n : N) (refs : List (N × Membership)) : RefChange → List (N × Membership)
  | .keep => refs
  | .add target => (n,target) :: refs
  | .remove target => refs.erase (n,target)

omit [DecidableEq N] in
def hasPresence (c : Cluster N S W) (roomId : String) : Bool :=
  c.refs.any fun ref => ref.2.1 == roomId

def emptyMarker (c : Cluster N S W) (roomId : String) : Option EmptyMarker :=
  (c.emptyAt roomId).filter fun marker => decide (c.now < marker.expiresAt)

/-- First writer wins. -/
def markRoomEmptyIfAbsent (c : Cluster N S W) (roomId : String) (nowMs : ℕ) : Cluster N S W :=
  if (emptyMarker c roomId).isSome then c
  else { c with
    emptyAt := Function.update c.emptyAt roomId (some ⟨nowMs,c.now+emptyAtTtlMs⟩) }

def clearRoomEmptyMarker (c : Cluster N S W) (roomId : String) : Cluster N S W :=
  { c with emptyAt := Function.update c.emptyAt roomId none }

def isEmptyRoomGraceElapsed (c : Cluster N S W) (roomId : String) (nowMs : ℕ) : Bool :=
  (emptyMarker c roomId).any fun marker => decide (marker.emptyAt+emptyRoomDestroyGraceMs ≤ nowMs)

def deleteRoom (c : Cluster N S W) (roomId : String) : Cluster N S W :=
  { c with
    rooms := c.rooms.erase roomId
    identities := Function.update c.identities roomId fun _ => none
    refs := c.refs.filter fun ref => ref.2.1 != roomId
    emptyAt := Function.update c.emptyAt roomId none
    joinedWith := fun target => if target.1 = roomId then none else c.joinedWith target }

def stepDestroy (sweep draining : Bool) (c : Cluster N S W) :
    DestroyStage → Option (Cluster N S W × DestroyStage)
  | .idle => none
  | .reading roomId =>
    if hasPresence c roomId then some (c,if sweep then .clearing roomId else .idle)
    else some (c,if sweep then .noting roomId else .writing roomId)
  | .writing roomId => some (c,if (c.rooms.get? roomId).isSome then .noting roomId else .idle)
  | .noting roomId => some (c,.marking roomId c.now)
  | .marking roomId nowMs =>
    some (markRoomEmptyIfAbsent c roomId nowMs,if draining then .idle else .checking roomId nowMs)
  | .checking roomId nowMs =>
    some (c,if isEmptyRoomGraceElapsed c roomId nowMs then .confirming roomId else .idle)
  | .confirming roomId => some (c,if draining then .idle else .rereading roomId c.now)
  | .rereading roomId nowMs =>
    some (c,if hasPresence c roomId then .clearing roomId else .rechecking roomId nowMs)
  | .rechecking roomId nowMs =>
    some (c,if isEmptyRoomGraceElapsed c roomId nowMs then .deleting roomId else .idle)
  | .clearing roomId => some (clearRoomEmptyMarker c roomId,.idle)
  | .deleting roomId => some (deleteRoom c roomId,.idle)

end Store

section Sockets

variable (sha256 : String → String)

def hashIdentitySecret (userSecret : String) : String := "h1:" ++ sha256 userSecret

def isHashedIdentitySecret (value : String) : Bool := "h1:".toList.isPrefixOf value.toList

/-- Entries of an older version hold the secret itself. -/
def secretsMatch (stored userSecret : String) : Bool :=
  if isHashedIdentitySecret stored then stored == hashIdentitySecret sha256 userSecret
  else stored == userSecret

/-- The join of a socket is rejected after its admission. -/
def ClusterSocket.reject (k : ClusterSocket) : ClusterSocket :=
  { k with base := { k.base with stage := .idle } }

/-- The room and user of a join that is past admission. -/
def ClusterSocket.joining? (k : ClusterSocket) : Option Membership :=
  match k.base.stage with
  | .committing target _ => some target
  | _ => none

/-- A step of the registry and of the presence references. A join that has just become
committed has the marker of its room to clear. -/
def stepClusterSocket (k : ClusterSocket) (event : SocketEvent) :
    Option (ClusterSocket × RefChange) :=
  (stepSocket k.base event).map fun result =>
    ({ k with
        base := result.1
        registeredVersion :=
          match event with
          | .commit true => k.admittedVersion
          | _ => k.registeredVersion
        clearing :=
          match event, result.1.stage, result.1.meta_ with
          | .commit _, .idle, some entry => some entry.roomId
          | .reply, .idle, some entry => some entry.roomId
          | _, _, _ => k.clearing },result.2)

def ClusterSocket.evict (k : ClusterSocket) : ClusterSocket :=
  if k.base.link = .opened then { k with base := { k.base with link := .closing } } else k

def isPlainEvent (k : ClusterSocket) : SocketEvent → Bool
  | .join _ => false
  | .commit ok => ok && k.phase == .written
  | _ => true

end Sockets

inductive ClusterEvent (N S W : Type*)
  | join (s : S) (target : Membership) (secret : String)
  | socket (s : S) (event : SocketEvent)
  | claim (s : S)
  | verify (s : S)
  | migrate (s : S)
  | write (s : S) (input : JoinInput)
  | clearMarker (s : S)
  | startSweep (w : W) (roomId : String)
  | destroy (d : S ⊕ W) (draining : Bool)
  | op (roomId : String) (op : RoomOp)
  | evict (n : N) (k : ℕ)
  | tick (now : ℕ)

section Step

variable {N S W : Type*} [DecidableEq N] [DecidableEq S] [DecidableEq W]
variable (env : Env) (sha256 : String → String) (home : S → N)

def Cluster.setSocket (c : Cluster N S W) (s : S) (k : ClusterSocket) : Cluster N S W :=
  { c with sockets := Function.update c.sockets s k }

def Cluster.setIdentity (c : Cluster N S W) (target : Membership) (value : String) :
    Cluster N S W :=
  { c with
    identities := Function.update c.identities target.1
      (Function.update (c.identities target.1) target.2 (some value)) }

/-- A change of the password is announced to every node. -/
def admissionChanged? (roomId : String) (next : RoomState) : RoomOp → Option AdmissionChanged
  | .message _ _ (.roomPasswordSet _) =>
    some ⟨roomId,next.roomSecurity.admissionVersion,next.ownerId⟩
  | .message _ _ .roomPasswordClear =>
    some ⟨roomId,next.roomSecurity.admissionVersion,next.ownerId⟩
  | _ => none

/-- The sockets that the registry files under the room, the owner's apart. -/
def isEvicted (e : AdmissionChanged) (k : ClusterSocket) : Bool :=
  k.base.meta_.any fun entry => entry.roomId == e.roomId && entry.userId != e.ownerId

def stepCluster (c : Cluster N S W) : ClusterEvent N S W → Option (Cluster N S W)
  | .join s target secret =>
    -- A socket handles one message at a time.
    if (c.sockets s).clearing = none then
      (stepSocket (c.sockets s).base (.join target)).map fun result =>
        c.setSocket s { c.sockets s with
          base := result.1, secret := secret, phase := .claiming }
    else none
  | .socket s event =>
    if isPlainEvent (c.sockets s) event then
      (stepClusterSocket (c.sockets s) event).map fun result =>
        { c.setSocket s result.1 with
          refs := bumpRefs (home s) c.refs result.2
          destroyers :=
            match event, (c.sockets s).base.meta_ with
            | .close, some entry => Function.update c.destroyers (.inl s) (.reading entry.roomId)
            | _, _ => c.destroyers }
    else none
  | .claim s =>
    match (c.sockets s).joining?, (c.sockets s).phase with
    | some target, .claiming =>
      match c.identities target.1 target.2 with
      | none => some ((c.setIdentity target (hashIdentitySecret sha256 (c.sockets s).secret)).setSocket
          s { c.sockets s with phase := .writing })
      | some _ => some (c.setSocket s { c.sockets s with phase := .verifying })
    | _, _ => none
  | .verify s =>
    match (c.sockets s).joining?, (c.sockets s).phase with
    | some target, .verifying =>
      match c.identities target.1 target.2 with
      | none => some (c.setSocket s (c.sockets s).reject)
      | some stored =>
        if secretsMatch sha256 stored (c.sockets s).secret then
          some (c.setSocket s { c.sockets s with
            phase := if isHashedIdentitySecret stored then .writing else .migrating })
        else some (c.setSocket s (c.sockets s).reject)
    | _, _ => none
  | .migrate s =>
    match (c.sockets s).joining?, (c.sockets s).phase with
    | some target, .migrating =>
      some ((c.setIdentity target (hashIdentitySecret sha256 (c.sockets s).secret)).setSocket s
        { c.sockets s with phase := .writing })
    | _, _ => none
  | .write s input =>
    match (c.sockets s).joining?, (c.sockets s).phase with
    | some target, .writing =>
      let existing := c.rooms.get? target.1
      if input.roomId = target.1 ∧ input.userId = target.2 ∧ (RoomOp.join input).Fresh existing then
        match commitJoinMembership env input existing with
        | none => some (c.setSocket s (c.sockets s).reject)
        | some next => some { c.setSocket s { c.sockets s with
              phase := .written
              admittedVersion :=
                (existing.getD (createInitialRoomState env input)).roomSecurity.admissionVersion } with
            rooms := c.rooms.set target.1 next
            joinedWith := Function.update c.joinedWith target (some (c.sockets s).secret) }
      else none
    | _, _ => none
  | .clearMarker s =>
    match (c.sockets s).clearing with
    | none => none
    | some roomId =>
      some ((clearRoomEmptyMarker c roomId).setSocket s { c.sockets s with clearing := none })
  | .startSweep w roomId =>
    if c.destroyers (.inr w) = .idle ∧ (c.rooms.get? roomId).isSome then
      some { c with destroyers := Function.update c.destroyers (.inr w) (.reading roomId) }
    else none
  | .destroy d draining =>
    -- A close handler removes its reference first.
    if d.elim (fun s => (c.sockets s).base.leaving.isNone) (fun _ => true) then
      (stepDestroy d.isRight draining c (c.destroyers d)).map fun result =>
        { result.1 with destroyers := Function.update c.destroyers d result.2 }
    else none
  | .op roomId op =>
    let existing := c.rooms.get? roomId
    if op.isJoin = false ∧ op.Fresh existing then
      (op.commit env existing).map fun next =>
        { c with
          rooms := c.rooms.set roomId next
          evictions := fun n => c.evictions n ++ (admissionChanged? roomId next op).toList }
    else none
  | .evict n k =>
    match (c.evictions n)[k]? with
    | none => none
    | some e => some { c with
        sockets := fun s =>
          if home s = n ∧ isEvicted e (c.sockets s) then (c.sockets s).evict else c.sockets s
        evictions := Function.update c.evictions n ((c.evictions n).eraseIdx k) }
  | .tick now => if c.now ≤ now then some { c with now := now } else none

def clusterStart (now : ℕ) : Cluster N S W where
  rooms := .empty
  identities _ _ := none
  refs := []
  emptyAt _ := none
  now := now
  sockets _ := {}
  destroyers _ := .idle
  evictions _ := []
  joinedWith _ := none

def clusterSystem : TransitionSystem (Cluster N S W) (ClusterEvent N S W) where
  init c := ∃ now, c = clusterStart now
  step c event c' := stepCluster env sha256 home c event = some c'

end Step

section Cases

variable {N S W : Type*} [DecidableEq N] [DecidableEq S] [DecidableEq W]
variable {env : Env} {sha256 : String → String} {home : S → N} {c c' : Cluster N S W} {s : S}

theorem ClusterSocket.joining?_eq_some {k : ClusterSocket} {target : Membership} :
    k.joining? = some target ↔ ∃ tracked, k.base.stage = .committing target tracked := by
  unfold joining?
  cases k.base.stage <;> simp

/-- A join that is not yet past its presence clean-up has claimed nothing. -/
def PhaseOk (k : ClusterSocket) : Prop :=
  match k.base.stage with
  | .admitting _ _ => k.phase = .claiming
  | .detaching _ _ => k.phase = .claiming
  | .detached _ => k.phase = .claiming
  | _ => True

/-- What the registry does to a socket brings no join past its claim. -/
theorem plain_phase {k k' : ClusterSocket} {event : SocketEvent} {change : RefChange}
    (hphase : PhaseOk k) (h : stepClusterSocket k event = some (k',change))
    (hplain : isPlainEvent k event = true) :
    PhaseOk k' ∧ k'.phase = k.phase ∧ k'.secret = k.secret ∧
      k'.admittedVersion = k.admittedVersion ∧
      ∀ target, k'.joining? = some target → k'.phase = .claiming ∨ k.joining? = some target := by
  obtain ⟨⟨base,_⟩,hstep,he⟩ := Option.map_eq_some_iff.mp h
  have hbase : k'.base = base := by
    cases he
    rfl
  have hsame : k'.phase = k.phase ∧ k'.secret = k.secret ∧
      k'.admittedVersion = k.admittedVersion := by
    cases he
    exact ⟨rfl,rfl,rfl⟩
  suffices hstage : (base.stage = k.base.stage ∨ base.stage = .idle ∨
      (∃ t tracked, base.stage = .committing t tracked ∧ k.phase = .claiming) ∨
      (∃ t previous, base.stage = .detaching t previous ∧ k.phase = .claiming) ∨
      (∃ t, base.stage = .detached t ∧ k.phase = .claiming) ∨
      ∃ t, base.stage = .adding t ∨ base.stage = .added t ∨ base.stage = .aborting t ∨
        base.stage = .aborted t) by
    refine ⟨?_,hsame.1,hsame.2.1,hsame.2.2,fun target htarget => ?_⟩
    · rcases hstage with hs | hs | ⟨t,tracked,hs,hp⟩ | ⟨t,previous,hs,hp⟩ | ⟨t,hs,hp⟩ |
        ⟨t,hs | hs | hs | hs⟩
      · rw [PhaseOk,hbase,hs,hsame.1]
        exact hphase
      all_goals simp [PhaseOk,hbase,hs,hsame.1]
      all_goals exact hp
    · rw [ClusterSocket.joining?_eq_some,hbase] at htarget
      obtain ⟨tracked,htarget⟩ := htarget
      rcases hstage with hs | hs | ⟨t,tracked,hs,hp⟩ | ⟨t,previous,hs,hp⟩ | ⟨t,hs,hp⟩ |
        ⟨t,hs | hs | hs | hs⟩
      · exact Or.inr (ClusterSocket.joining?_eq_some.mpr ⟨tracked,hs.symm.trans htarget⟩)
      · rw [hs] at htarget
        cases htarget
      · exact Or.inl (hsame.1.trans hp)
      all_goals
        rw [hs] at htarget
        cases htarget
  clear he h
  have hclaiming : (∃ t previous, k.base.stage = .admitting t previous) ∨
      (∃ t previous, k.base.stage = .detaching t previous) ∨
      (∃ t, k.base.stage = .detached t) → k.phase = .claiming := by
    rintro (⟨t,previous,hs⟩ | ⟨t,previous,hs⟩ | ⟨t,hs⟩) <;> simpa only [PhaseOk,hs] using hphase
  cases stepSocket_cases hstep with
  | join => cases hplain
  | hangUp | leave | close => exact Or.inl rfl
  | refuse | added | aborted | fail | drop | reenter => exact Or.inr (Or.inl rfl)
  | admitFirst hs | admitAgain hs =>
    exact Or.inr (Or.inr (Or.inl ⟨_,_,rfl,hclaiming (Or.inl ⟨_,_,hs⟩)⟩))
  | admitElsewhere hs =>
    exact Or.inr (Or.inr (Or.inr (Or.inl ⟨_,_,rfl,hclaiming (Or.inl ⟨_,_,hs⟩)⟩)))
  | detach hs =>
    exact Or.inr (Or.inr (Or.inr (Or.inr (Or.inl
      ⟨_,rfl,hclaiming (Or.inr (Or.inl ⟨_,_,hs⟩))⟩))))
  | detached hs => exact Or.inr (Or.inr (Or.inl ⟨_,_,rfl,hclaiming (Or.inr (Or.inr ⟨_,hs⟩))⟩))
  | add | abort | addedLate | enter => simp

theorem join_cases {target : Membership} {secret : String}
    (h : stepCluster env sha256 home c (.join s target secret) = some c') :
    (c.sockets s).base.stage = .idle ∧
      c' = c.setSocket s { c.sockets s with
        base := { (c.sockets s).base with stage := .admitting target (c.sockets s).base.meta_ }
        secret := secret
        phase := .claiming } := by
  simp only [stepCluster] at h
  split at h
  · obtain ⟨⟨base,change⟩,hresult,rfl⟩ := Option.map_eq_some_iff.mp h
    cases stepSocket_cases hresult with
    | join hidle => exact ⟨hidle,rfl⟩
  · cases h

theorem socket_cases {event : SocketEvent}
    (h : stepCluster env sha256 home c (.socket s event) = some c') :
    isPlainEvent (c.sockets s) event = true ∧ ∃ k' change destroyers,
      stepClusterSocket (c.sockets s) event = some (k',change) ∧
      c' = { c.setSocket s k' with
        refs := bumpRefs (home s) c.refs change, destroyers := destroyers } := by
  simp only [stepCluster] at h
  split at h
  · rename_i hplain
    obtain ⟨⟨k',change⟩,hresult,rfl⟩ := Option.map_eq_some_iff.mp h
    exact ⟨hplain,k',change,_,hresult,rfl⟩
  · cases h

theorem claim_cases (h : stepCluster env sha256 home c (.claim s) = some c') :
    ∃ target, (c.sockets s).joining? = some target ∧ (c.sockets s).phase = .claiming ∧
      (c.identities target.1 target.2 = none ∧
        c' = (c.setIdentity target (hashIdentitySecret sha256 (c.sockets s).secret)).setSocket s
          { c.sockets s with phase := .writing } ∨
      c' = c.setSocket s { c.sockets s with phase := .verifying }) := by
  simp only [stepCluster] at h
  split at h
  · rename_i target htarget hphase
    split at h
    · rename_i hnone
      cases h
      exact ⟨target,htarget,hphase,Or.inl ⟨hnone,rfl⟩⟩
    · cases h
      exact ⟨target,htarget,hphase,Or.inr rfl⟩
  · cases h

theorem verify_cases (h : stepCluster env sha256 home c (.verify s) = some c') :
    ∃ target, (c.sockets s).joining? = some target ∧ (c.sockets s).phase = .verifying ∧
      (c' = c.setSocket s (c.sockets s).reject ∨
      ∃ stored, c.identities target.1 target.2 = some stored ∧
        secretsMatch sha256 stored (c.sockets s).secret = true ∧
        c' = c.setSocket s { c.sockets s with
          phase := if isHashedIdentitySecret stored then .writing else .migrating }) := by
  simp only [stepCluster] at h
  split at h
  · rename_i target htarget hphase
    split at h
    · cases h
      exact ⟨target,htarget,hphase,Or.inl rfl⟩
    · rename_i stored hstored
      split at h
      · rename_i hmatch
        cases h
        exact ⟨target,htarget,hphase,Or.inr ⟨stored,hstored,hmatch,rfl⟩⟩
      · cases h
        exact ⟨target,htarget,hphase,Or.inl rfl⟩
  · cases h

theorem migrate_cases (h : stepCluster env sha256 home c (.migrate s) = some c') :
    ∃ target, (c.sockets s).joining? = some target ∧ (c.sockets s).phase = .migrating ∧
      c' = (c.setIdentity target (hashIdentitySecret sha256 (c.sockets s).secret)).setSocket s
        { c.sockets s with phase := .writing } := by
  simp only [stepCluster] at h
  split at h
  · rename_i target htarget hphase
    cases h
    exact ⟨target,htarget,hphase,rfl⟩
  · cases h

theorem write_cases {input : JoinInput}
    (h : stepCluster env sha256 home c (.write s input) = some c') :
    ∃ target, (c.sockets s).joining? = some target ∧ (c.sockets s).phase = .writing ∧
      (c' = c.setSocket s (c.sockets s).reject ∨
      ∃ next, input.userId = target.2 ∧ (RoomOp.join input).Fresh (c.rooms.get? target.1) ∧
        commitJoinMembership env input (c.rooms.get? target.1) = some next ∧
        c' = { c.setSocket s { c.sockets s with
              phase := .written
              admittedVersion := ((c.rooms.get? target.1).getD
                (createInitialRoomState env input)).roomSecurity.admissionVersion } with
            rooms := c.rooms.set target.1 next
            joinedWith := Function.update c.joinedWith target (some (c.sockets s).secret) }) := by
  simp only [stepCluster] at h
  split at h
  · rename_i target htarget hphase
    split at h
    · rename_i hinput
      split at h
      · cases h
        exact ⟨target,htarget,hphase,Or.inl rfl⟩
      · rename_i next hc
        cases h
        exact ⟨target,htarget,hphase,Or.inr ⟨next,hinput.2.1,hinput.2.2,hc,rfl⟩⟩
    · cases h
  · cases h

theorem destroy_cases {d : S ⊕ W} {draining : Bool}
    (h : stepCluster env sha256 home c (.destroy d draining) = some c') :
    ∃ next stage, stepDestroy d.isRight draining c (c.destroyers d) = some (next,stage) ∧
      c' = { next with destroyers := Function.update c.destroyers d stage } := by
  simp only [stepCluster] at h
  split at h
  · obtain ⟨⟨next,stage⟩,hresult,rfl⟩ := Option.map_eq_some_iff.mp h
    exact ⟨next,stage,hresult,rfl⟩
  · cases h

omit [DecidableEq N] [DecidableEq S] [DecidableEq W] in
/-- A command of a sweep or close handler moves nothing but the markers, unless it is the
deletion. -/
theorem stepDestroy_cases {sweep draining : Bool} {stage stage' : DestroyStage}
    (h : stepDestroy sweep draining c stage = some (c',stage')) :
    (∃ emptyAt, c' = { c with emptyAt := emptyAt }) ∨
      ∃ roomId, stage = .deleting roomId ∧ c' = deleteRoom c roomId := by
  cases stage with
  | idle => cases h
  | reading roomId =>
    simp only [stepDestroy] at h
    split at h <;> cases h <;> exact Or.inl ⟨c.emptyAt,rfl⟩
  | marking roomId nowMs =>
    cases h
    left
    unfold markRoomEmptyIfAbsent
    split
    · exact ⟨c.emptyAt,rfl⟩
    · exact ⟨_,rfl⟩
  | clearing roomId =>
    cases h
    exact Or.inl ⟨_,rfl⟩
  | deleting roomId =>
    cases h
    exact Or.inr ⟨roomId,rfl,rfl⟩
  | _ =>
    cases h
    exact Or.inl ⟨c.emptyAt,rfl⟩

theorem op_cases {roomId : String} {op : RoomOp}
    (h : stepCluster env sha256 home c (.op roomId op) = some c') :
    op.isJoin = false ∧ op.Fresh (c.rooms.get? roomId) ∧ ∃ next,
      op.commit env (c.rooms.get? roomId) = some next ∧
      c' = { c with
        rooms := c.rooms.set roomId next
        evictions := fun n => c.evictions n ++ (admissionChanged? roomId next op).toList } := by
  simp only [stepCluster] at h
  split at h
  · rename_i hop
    obtain ⟨next,hc,rfl⟩ := Option.map_eq_some_iff.mp h
    exact ⟨hop.1,hop.2,next,hc,rfl⟩
  · cases h

theorem evict_cases {n : N} {k : ℕ} (h : stepCluster env sha256 home c (.evict n k) = some c') :
    ∃ e, (c.evictions n)[k]? = some e ∧
      c' = { c with
        sockets := fun s =>
          if home s = n ∧ isEvicted e (c.sockets s) then (c.sockets s).evict else c.sockets s
        evictions := Function.update c.evictions n ((c.evictions n).eraseIdx k) } := by
  simp only [stepCluster] at h
  split at h
  · cases h
  · rename_i e he
    cases h
    exact ⟨e,he,rfl⟩

/-- The remaining events touch neither rooms, identities, references nor evictions, and of a
socket only the marker that it clears. -/
theorem other_cases {event : ClusterEvent N S W}
    (h : stepCluster env sha256 home c event = some c')
    (hevent : (∃ s, event = .clearMarker s) ∨ (∃ w roomId, event = .startSweep w roomId) ∨
      ∃ now, event = .tick now) :
    c'.rooms = c.rooms ∧ c'.identities = c.identities ∧ c'.refs = c.refs ∧
      c'.evictions = c.evictions ∧ c'.joinedWith = c.joinedWith ∧
      ∀ s, ∃ clearing, c'.sockets s = { c.sockets s with clearing := clearing } := by
  rcases hevent with ⟨s,rfl⟩ | ⟨w,roomId,rfl⟩ | ⟨now,rfl⟩
  · simp only [stepCluster] at h
    split at h
    · cases h
    · cases h
      refine ⟨rfl,rfl,rfl,rfl,rfl,fun t => ?_⟩
      by_cases ht : t = s
      · subst ht
        exact ⟨none,Function.update_self _ _ _⟩
      · exact ⟨(c.sockets t).clearing,Function.update_of_ne ht _ _⟩
  · simp only [stepCluster] at h
    split at h
    · cases h
      exact ⟨rfl,rfl,rfl,rfl,rfl,fun t => ⟨(c.sockets t).clearing,rfl⟩⟩
    · cases h
  · simp only [stepCluster] at h
    split at h
    · cases h
      exact ⟨rfl,rfl,rfl,rfl,rfl,fun t => ⟨(c.sockets t).clearing,rfl⟩⟩
    · cases h

omit [DecidableEq N] [DecidableEq S] [DecidableEq W] in
theorem identities_setIdentity (c : Cluster N S W) (target : Membership) (value : String)
    (r : String) (u : UserId) : (c.setIdentity target value).identities r u =
      if r = target.1 ∧ u = target.2 then some value else c.identities r u := by
  simp only [Cluster.setIdentity]
  by_cases hr : r = target.1
  · subst hr
    by_cases hu : u = target.2
    · simp [hu]
    · simp [hu]
  · simp [hr]

end Cases

section Scenario

def DestroyStage.deleting? : DestroyStage → Option String
  | .deleting roomId => some roomId
  | _ => none

/-- What is asked of the room that is about to be deleted, in a form that can be decided. -/
theorem forall_deleting_iff (stage : DestroyStage) (p : String → Prop) :
    (∀ roomId ∈ stage.deleting?, p roomId) ↔
      match stage with
      | .deleting roomId => p roomId
      | _ => True := by
  cases stage <;> simp [DestroyStage.deleting?]

inductive ScenarioSocket
  | first | second | third
  deriving DecidableEq

instance : Fintype ScenarioSocket where
  elems := {.first,.second,.third}
  complete := fun s => by cases s <;> simp

def isCommittedTo (k : PresenceSocket) (target : Membership) : Bool :=
  k.meta_.any fun entry => entry.joinCommitted && entry.membership == target

theorem committedTo_of_isCommittedTo {k : PresenceSocket} {target : Membership}
    (h : isCommittedTo k target = true) : k.CommittedTo target := by
  obtain ⟨entry,he,hfacts⟩ := (Option.any_eq_true _ _).mp h
  simp only [Bool.and_eq_true,beq_iff_eq] at hfacts
  exact ⟨entry,he,hfacts⟩

def joinInputOf (userId : UserId) (now : ℕ) : JoinInput where
  now := now
  roomId := "room"
  userId := userId
  username := userId
  avatarStyle := defaultAvatarStyle
  activeConnections := {userId}
  skipDefaultMedia := true
  newIds := ["seed"]

variable {N S W : Type*}

def joinUpToClaim (s : S) (userId : UserId) (secret : String) : List (ClusterEvent N S W) :=
  [.join s ("room",userId) secret,.socket s (.admission true),.claim s]

def joinFromCommit (s : S) : List (ClusterEvent N S W) :=
  [.socket s (.commit true),.socket s .redis,.socket s .reply,.clearMarker s]

def joinFromWrite (s : S) (userId : UserId) (now : ℕ) : List (ClusterEvent N S W) :=
  .write s (joinInputOf userId now) :: joinFromCommit s

def leaveRoom (s : S) : List (ClusterEvent N S W) :=
  [.socket s .close,.socket s .leave,.destroy (.inl s) false,.destroy (.inl s) false,
    .destroy (.inl s) false,.destroy (.inl s) false,.destroy (.inl s) false]

def sweepUpToDelete (w : W) : List (ClusterEvent N S W) :=
  .startSweep w "room" :: List.replicate 7 (.destroy (.inr w) false)

def untilDelete (s : S) (w : W) : List (ClusterEvent N S W) :=
  joinUpToClaim s "ann" "secret" ++ joinFromWrite s "ann" 1000 ++ leaveRoom s ++
    [.tick 16000] ++ sweepUpToDelete w

end Scenario

end WebSyncPlay
