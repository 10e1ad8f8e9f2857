import WebSyncPlay.RoomSystem
import WebSyncPlay.Library.TaskPool
import Mathlib.Logic.Function.Basic

/-! Metadata of local media in Redis (`media/local-media-store.ts`) and the messages that
write it: a file is added, announced again, or packaged as a ladder. A call is the list of
its Redis commands; whatever happens elsewhere may come between two of them. -/
namespace WebSyncPlay

open Library

structure LocalMediaAbrVariant where
  localMediaId : String
  height : ℕ
  bandwidth : ℕ
  label : String
  deriving DecidableEq

/-- A ladder that is ready; there is no other kind. -/
structure LocalMediaAbrState where
  durationSec : ℚ
  variants : List LocalMediaAbrVariant
  deriving DecidableEq

structure LocalMediaRecord extends LocalMediaEntry where
  filename : String
  mimeType : String
  sizeBytes : ℕ
  providerReady : Bool
  providerNodeId : Option String := none
  abr : Option LocalMediaAbrState := none
  createdAt : ℕ
  expiresAt : ℕ
  deriving DecidableEq

def LOCAL_MEDIA_TTL_MS : ℕ := 3600*1000

structure CreateLocalMediaInput where
  id : String
  roomId : String
  ownerUserId : UserId
  filename : String
  mimeType : String
  sizeBytes : ℕ
  providerReady : Bool := false
  providerNodeId : Option String := none
  abrParentId : Option String := none
  deriving DecidableEq

def createLocalMediaEntry (nodeId : String) (createdAt : ℕ) (input : CreateLocalMediaInput) :
    LocalMediaRecord where
  id := input.id
  roomId := input.roomId
  ownerUserId := input.ownerUserId
  abrParentId := input.abrParentId
  filename := input.filename
  mimeType := input.mimeType
  sizeBytes := input.sizeBytes
  providerReady := input.providerReady
  providerNodeId := if input.providerReady then some (input.providerNodeId.getD nodeId) else none
  createdAt := createdAt
  expiresAt := createdAt+LOCAL_MEDIA_TTL_MS

def dropBlank (value : Option String) : Option String := if isBlank value then none else value

def normalizeEntry (entry : LocalMediaRecord) : LocalMediaRecord :=
  { entry with
    providerNodeId := dropBlank entry.providerNodeId
    abrParentId := dropBlank entry.abrParentId
    abr := entry.abr.filter fun abr => !abr.variants.isEmpty }

/-- What a read finds under an id. An expired entry is deleted before it is reported
as missing. -/
inductive LocalMediaRead
  | missing
  | expired
  | found (entry : LocalMediaRecord)

def getLocalMediaEntry (now : ℕ) : Option LocalMediaRecord → LocalMediaRead
  | none => .missing
  | some raw => if raw.expiresAt ≤ now then .expired else .found (normalizeEntry raw)

/-- The calls that read an entry, change it and store it again. -/
inductive LocalMediaEdit
  | providerReady (ready : Bool) (ownerUserId : Option UserId) (nodeId : String)
  | abr (abr : Option LocalMediaAbrState) (ownerUserId : Option UserId)
  | touch
  deriving DecidableEq

/-- Somebody else's entry; without an owner in the options nobody's. -/
def refusesOwner (ownerUserId : Option UserId) (entry : LocalMediaRecord) : Bool :=
  !isBlank ownerUserId && ownerUserId != some entry.ownerUserId

/-- The entry to store; `none` when nothing is stored. -/
def LocalMediaEdit.apply (now : ℕ) (entry : LocalMediaRecord) :
    LocalMediaEdit → Option LocalMediaRecord
  | .providerReady ready ownerUserId nodeId =>
    let nextNodeId := if ready then some nodeId else none
    if refusesOwner ownerUserId entry then none
    else if entry.providerReady = ready ∧ entry.providerNodeId = nextNodeId then none
    else some { entry with providerReady := ready, providerNodeId := nextNodeId }
  | .abr next ownerUserId =>
    if refusesOwner ownerUserId entry then none else some { entry with abr := next }
  | .touch => some { entry with expiresAt := now+LOCAL_MEDIA_TTL_MS }

def childIds (id : String) (entry : LocalMediaRecord) : List String :=
  (((normalizeEntry entry).abr.map fun abr => abr.variants.map (·.localMediaId)).getD []).filter
    (· ≠ id)

structure AbrPublishVariant extends AbrVariant where
  sizeBytes : ℕ
  name : String
  deriving DecidableEq

structure AbrPublishInput where
  parentLocalMediaId : String
  durationSec : ℚ
  variants : List AbrPublishVariant
  deriving DecidableEq

/-- One Redis command, and how its call goes on after it. -/
inductive LocalMediaCommand
  | create (nodeId : String) (input : CreateLocalMediaInput)
  | set (entry : LocalMediaRecord)
  | del (id : String)
  /-- A read of which only the deletion of an expired entry matters. -/
  | get (id : String) (retries : ℕ)
  | edit (id : String) (edit : LocalMediaEdit)
  | delete (id : String)
  | announce (ctx : RoomMessageContext) (nodeId : String) (localMediaId : String)
  | recreate (ctx : RoomMessageContext) (nodeId : String) (localMediaId : String)
  | publish (ctx : RoomMessageContext) (nodeId : String) (parsed : AbrPublishInput)

/-- The rooms are here for the one handler that creates an entry from a playlist item. -/
structure MediaWorld where
  now : ℕ
  rooms : String → Option RoomState
  media : String → Option LocalMediaRecord

def continueEdit (now : ℕ) (id : String) (edit : LocalMediaEdit) :
    LocalMediaRead → List LocalMediaCommand
  | .missing => []
  | .expired => [.del id]
  | .found entry => ((edit.apply now entry).map LocalMediaCommand.set).toList

/-- After the first read of `handleLocalMediaReady`. -/
def continueAnnounce (ctx : RoomMessageContext) (nodeId localMediaId : String) :
    LocalMediaRead → List LocalMediaCommand
  | .missing => [.recreate ctx nodeId localMediaId]
  | .expired => [.del localMediaId,.recreate ctx nodeId localMediaId]
  | .found _ => [.edit localMediaId (.providerReady true (some ctx.userId) nodeId)]

/-- The sender's own file in the playlist, with what an entry needs. -/
def findOwnFile (userId : UserId) (localMediaId : String) (state : RoomState) :
    Option PlaylistItem :=
  state.playlist.find? fun item =>
    item.localMediaId == some localMediaId && item.localOriginUserId == some userId &&
      item.sourceKind == .localFile

def continueRecreate (ctx : RoomMessageContext) (nodeId localMediaId : String)
    (item : Option PlaylistItem) : List LocalMediaCommand :=
  match item with
  | none => [.get localMediaId 0]
  | some item =>
    match dropBlank item.localMimeType,item.localSizeBytes with
    | some mimeType,some sizeBytes =>
      [.create nodeId {
        id := localMediaId, roomId := ctx.roomId, ownerUserId := ctx.userId,
        filename := if item.name = "" then "Local media" else item.name,
        mimeType := mimeType, sizeBytes := sizeBytes, providerReady := true },
        .get localMediaId 1]
    | _,_ => [.get localMediaId 0]

def abrChildInput (ctx : RoomMessageContext) (parentId : String) (v : AbrPublishVariant) :
    CreateLocalMediaInput where
  id := v.localMediaId
  roomId := ctx.roomId
  ownerUserId := ctx.userId
  filename := v.name
  mimeType := v.mimeType
  sizeBytes := v.sizeBytes
  providerReady := true
  abrParentId := some parentId

/-- The ladder that a publish stores with the parent. -/
def publishedAbr (parsed : AbrPublishInput) : LocalMediaAbrState where
  durationSec := parsed.durationSec
  variants := parsed.variants.map fun v => ⟨v.localMediaId,v.height,v.bandwidth,v.label⟩

/-- After the read of the parent: the children of its ladder go, those of the new one come,
and the new ladder is stored. -/
def continuePublish (ctx : RoomMessageContext) (nodeId : String) (parsed : AbrPublishInput) :
    LocalMediaRead → List LocalMediaCommand
  | .missing => []
  | .expired => [.del parsed.parentLocalMediaId]
  | .found parent =>
    if parent.ownerUserId ≠ ctx.userId ∨ parent.roomId ≠ ctx.roomId ∨
        parent.abrParentId.isSome ∨
        ¬parsed.variants.any (fun v => v.localMediaId == parent.id) then []
    else
      (childIds parent.id parent).map .delete ++
        ((parsed.variants.filter fun v => v.localMediaId ≠ parent.id).map fun v =>
          .create nodeId (abrChildInput ctx parent.id v)) ++
        [.edit parent.id (.abr (some (publishedAbr parsed)) (some ctx.userId))]

namespace MediaWorld

def put (w : MediaWorld) (entry : LocalMediaRecord) : MediaWorld :=
  { w with media := Function.update w.media entry.id (some entry) }

def drop (w : MediaWorld) (id : String) : MediaWorld :=
  { w with media := Function.update w.media id none }

def read (w : MediaWorld) (id : String) : LocalMediaRead := getLocalMediaEntry w.now (w.media id)

@[simp] theorem put_now (w : MediaWorld) (entry : LocalMediaRecord) :
    (w.put entry).now = w.now := rfl

@[simp] theorem drop_now (w : MediaWorld) (id : String) : (w.drop id).now = w.now := rfl

@[simp] theorem put_media_same (w : MediaWorld) (entry : LocalMediaRecord) :
    (w.put entry).media entry.id = some entry := by
  simp [put]

theorem put_media_of_ne (w : MediaWorld) (entry : LocalMediaRecord) {id : String}
    (h : id ≠ entry.id) : (w.put entry).media id = w.media id := by
  simp [put,h]

@[simp] theorem drop_media_same (w : MediaWorld) (id : String) :
    (w.drop id).media id = none := by
  simp [drop]

theorem drop_media_of_ne (w : MediaWorld) {id other : String} (h : other ≠ id) :
    (w.drop id).media other = w.media other := by
  simp [drop,h]

def live (w : MediaWorld) (id : String) : Option LocalMediaRecord :=
  (w.media id).filter fun entry => decide (w.now < entry.expiresAt)

theorem live_eq_some {w : MediaWorld} {id : String} {entry : LocalMediaRecord} :
    w.live id = some entry ↔ w.media id = some entry ∧ w.now < entry.expiresAt := by
  simp [live,Option.filter_eq_some_iff]

end MediaWorld

def execute (w : MediaWorld) : LocalMediaCommand → MediaWorld × List LocalMediaCommand
  | .create nodeId input => (w,[.set (createLocalMediaEntry nodeId w.now input)])
  | .set entry => (w.put entry,[])
  | .del id => (w.drop id,[])
  | .get id retries =>
    (w,match w.read id,retries with
      | .missing,retries+1 => [.get id retries]
      | .expired,0 => [.del id]
      | .expired,retries+1 => [.del id,.get id retries]
      | _,_ => [])
  | .edit id edit => (w,continueEdit w.now id edit (w.read id))
  | .delete id =>
    (w,(((w.media id).map (childIds id)).getD []).map .delete ++ [.del id])
  | .announce ctx nodeId localMediaId =>
    (w,continueAnnounce ctx nodeId localMediaId (w.read localMediaId))
  | .recreate ctx nodeId localMediaId =>
    (w,continueRecreate ctx nodeId localMediaId
      ((w.rooms ctx.roomId).bind (findOwnFile ctx.userId localMediaId)))
  | .publish ctx nodeId parsed =>
    (w,continuePublish ctx nodeId parsed (w.read parsed.parentLocalMediaId))

@[simp] theorem execute_set (w : MediaWorld) (entry : LocalMediaRecord) :
    execute w (.set entry) = (w.put entry,[]) := rfl

@[simp] theorem execute_del (w : MediaWorld) (id : String) : execute w (.del id) = (w.drop id,[]) :=
  rfl

theorem execute_world (w : MediaWorld) (c : LocalMediaCommand) :
    (∃ entry, c = .set entry) ∨ (∃ id, c = .del id) ∨ (execute w c).1 = w := by
  cases c with
  | set entry => exact Or.inl ⟨entry,rfl⟩
  | del id => exact Or.inr (Or.inl ⟨id,rfl⟩)
  | _ => exact Or.inr (Or.inr rfl)

inductive MediaMessage
  | playlistAddLocal (parsed : AddLocalInput)
  | localMediaReady (localMediaId : String) (ready : Bool)
  | localMediaAbrPublish (parsed : AbrPublishInput)

/-- The commands of a message's handler, up to its write of the room. The first one has
them all behind it before anything asks whether the sender may control the room. -/
def MediaMessage.commands (ctx : RoomMessageContext) (nodeId : String) :
    MediaMessage → List LocalMediaCommand
  | .playlistAddLocal parsed =>
    if isProgressiveMediaMime parsed.mimeType then
      [.create nodeId {
        id := parsed.localMediaId, roomId := ctx.roomId, ownerUserId := ctx.userId,
        filename := parsed.name, mimeType := parsed.mimeType, sizeBytes := parsed.sizeBytes,
        providerReady := true }]
    else []
  | .localMediaReady localMediaId true => [.announce ctx nodeId localMediaId]
  | .localMediaReady localMediaId false =>
    [.edit localMediaId (.providerReady false (some ctx.userId) nodeId)]
  | .localMediaAbrPublish parsed => [.publish ctx nodeId parsed]

structure SentCommand where
  sender : Option UserId
  command : LocalMediaCommand

def SentCommand.execute (w : MediaWorld) (c : SentCommand) : Option (MediaWorld × List SentCommand) :=
  let result := WebSyncPlay.execute w c.command
  some (result.1,result.2.map (SentCommand.mk c.sender))

abbrev MediaState := TaskPool MediaWorld SentCommand

/-- What can happen: messages, calls from elsewhere in the server (a range request, a closed
provider socket, a deletion), one command of a call, the end of a call by a crash or an error,
the expiry of a key, time, and writes of the rooms. -/
inductive MediaAction
  | message (ctx : RoomMessageContext) (nodeId : String) (msg : MediaMessage)
  | touch (id : String)
  | providerGone (id : String) (ownerUserId : UserId)
  | delete (id : String)
  | run (n : ℕ)
  | abandon (n : ℕ)
  | expire (id : String)
  | tick (now : ℕ)
  | room (roomId : String) (op : RoomOp)
  | destroyRoom (roomId : String)

/-- A user id of a socket is never empty. Redis drops a key no sooner than its entry
expires. -/
def mediaStep (env : Env) (s : MediaState) : MediaAction → Option MediaState
  | .message ctx nodeId msg =>
    if ctx.userId = "" then none
    else some (s.spawn s.world ((msg.commands ctx nodeId).map (SentCommand.mk (some ctx.userId))))
  | .touch id => some (s.spawn s.world [⟨none,.edit id .touch⟩])
  | .providerGone id ownerUserId =>
    some (s.spawn s.world [⟨none,.edit id (.providerReady false (some ownerUserId) "")⟩])
  | .delete id => some (s.spawn s.world [⟨none,.delete id⟩])
  | .run n => s.run SentCommand.execute n
  | .abandon n => some { s with tasks := s.tasks.set n [] }
  | .expire id =>
    if (s.world.media id).any fun entry => entry.expiresAt ≤ s.world.now then
      some { s with world := s.world.drop id }
    else none
  | .tick now =>
    if s.world.now ≤ now then some { s with world := { s.world with now := now } } else none
  | .room roomId op =>
    if op.Fresh (s.world.rooms roomId) then
      (op.commit env (s.world.rooms roomId)).map fun next =>
        { s with
          world := { s.world with rooms := Function.update s.world.rooms roomId (some next) } }
    else none
  | .destroyRoom roomId =>
    some { s with world := { s.world with rooms := Function.update s.world.rooms roomId none } }

def emptyMedia : MediaState where
  world := { now := 0, rooms := fun _ => none, media := fun _ => none }
  tasks := []

def nextCommand (s : MediaState) (n : ℕ) : Option SentCommand := s.tasks[n]?.bind List.head?

section Spec

variable {s s' : MediaState}

theorem run_sent_spec {n : ℕ} (h : s.run SentCommand.execute n = some s') : ∃ c,
    nextCommand s n = some c ∧ s'.world = (execute s.world c.command).1 ∧
      s'.world.now = s.world.now ∧
      ∀ other, s'.Pending other → s.Pending other ∨
        other.sender = c.sender ∧ other.command ∈ (execute s.world c.command).2 := by
  obtain ⟨c,more,hnext,hexec,-,-,hold⟩ := TaskPool.run_spec h
  obtain ⟨hworld,hmore⟩ := Prod.mk.inj (Option.some.inj hexec)
  refine ⟨c,hnext,hworld.symm,?_,?_⟩
  · rw [← hworld]
    rcases execute_world s.world c.command with ⟨entry,hc⟩ | ⟨id,hc⟩ | hc
    · rw [hc]
      rfl
    · rw [hc]
      rfl
    · rw [hc]
  · intro other hother
    refine (hold other hother).imp_right fun hmem => ?_
    rw [← hmore] at hmem
    obtain ⟨command,hcommand,rfl⟩ := List.mem_map.mp hmem
    exact ⟨rfl,hcommand⟩

theorem pending_of_next {n : ℕ} {c : SentCommand} (h : nextCommand s n = some c) : s.Pending c := by
  obtain ⟨task,htask,hhead⟩ := Option.bind_eq_some_iff.mp h
  exact ⟨task,List.mem_of_getElem? htask,List.mem_of_mem_head? hhead⟩

theorem pending_spawn_iff {w : MediaWorld} {task : List SentCommand} {c : SentCommand} :
    (s.spawn w task).Pending c ↔ s.Pending c ∨ c ∈ task := by
  simp [TaskPool.Pending,TaskPool.spawn,or_and_right,exists_or]

/-- What a step that runs no command may do: the store only loses expired entries, and the
commands still to come are the old ones and those of one new call. -/
theorem mediaStep_cases {env : Env} {a : MediaAction} (h : mediaStep env s a = some s') :
    (∃ n, a = .run n ∧ s.run SentCommand.execute n = some s') ∨
      ((∀ id, s'.world.media id = s.world.media id ∨ s'.world.media id = none) ∧
        (∀ n, a ≠ .run n) ∧
        ∀ c, s'.Pending c → s.Pending c ∨
          (c.sender = none ∧ ((∃ id, c.command = .edit id .touch) ∨
            (∃ id owner, c.command = .edit id (.providerReady false (some owner) "")) ∨
            ∃ id, c.command = .delete id)) ∨
          ∃ ctx nodeId msg, ctx.userId ≠ "" ∧ c.sender = some ctx.userId ∧
            c.command ∈ MediaMessage.commands ctx nodeId msg) := by
  cases a with
  | run n => exact Or.inl ⟨n,rfl,h⟩
  | message ctx nodeId msg =>
    rw [mediaStep] at h
    split at h
    · cases h
    · rename_i huser
      cases h
      refine Or.inr ⟨fun _ => Or.inl rfl,nofun,fun c hc => ?_⟩
      refine (pending_spawn_iff.mp hc).imp_right fun hmem => Or.inr ?_
      obtain ⟨command,hcommand,rfl⟩ := List.mem_map.mp hmem
      exact ⟨ctx,nodeId,msg,huser,rfl,hcommand⟩
  | touch id =>
    cases h
    refine Or.inr ⟨fun _ => Or.inl rfl,nofun,fun c hc => ?_⟩
    refine (pending_spawn_iff.mp hc).imp_right fun hmem => Or.inl ?_
    obtain rfl := List.mem_singleton.mp hmem
    exact ⟨rfl,Or.inl ⟨id,rfl⟩⟩
  | providerGone id owner =>
    cases h
    refine Or.inr ⟨fun _ => Or.inl rfl,nofun,fun c hc => ?_⟩
    refine (pending_spawn_iff.mp hc).imp_right fun hmem => Or.inl ?_
    obtain rfl := List.mem_singleton.mp hmem
    exact ⟨rfl,Or.inr (Or.inl ⟨id,owner,rfl⟩)⟩
  | delete id =>
    cases h
    refine Or.inr ⟨fun _ => Or.inl rfl,nofun,fun c hc => ?_⟩
    refine (pending_spawn_iff.mp hc).imp_right fun hmem => Or.inl ?_
    obtain rfl := List.mem_singleton.mp hmem
    exact ⟨rfl,Or.inr (Or.inr ⟨id,rfl⟩)⟩
  | abandon n =>
    cases h
    refine Or.inr ⟨fun _ => Or.inl rfl,nofun,fun c hc => Or.inl ?_⟩
    obtain ⟨task,hmem,hc⟩ := hc
    rcases List.mem_or_eq_of_mem_set hmem with hmem | rfl
    · exact ⟨task,hmem,hc⟩
    · cases hc
  | expire id =>
    rw [mediaStep] at h
    split at h
    · cases h
      refine Or.inr ⟨fun other => ?_,nofun,fun c hc => Or.inl hc⟩
      by_cases hother : other = id
      · subst hother
        exact Or.inr (s.world.drop_media_same other)
      · exact Or.inl (s.world.drop_media_of_ne hother)
    · cases h
  | tick now =>
    rw [mediaStep] at h
    split at h
    · cases h
      exact Or.inr ⟨fun _ => Or.inl rfl,nofun,fun c hc => Or.inl hc⟩
    · cases h
  | room roomId op =>
    rw [mediaStep] at h
    split at h
    · obtain ⟨next,-,rfl⟩ := Option.map_eq_some_iff.mp h
      exact Or.inr ⟨fun _ => Or.inl rfl,nofun,fun c hc => Or.inl hc⟩
    · cases h
  | destroyRoom roomId =>
    cases h
    exact Or.inr ⟨fun _ => Or.inl rfl,nofun,fun c hc => Or.inl hc⟩

end Spec

end WebSyncPlay
