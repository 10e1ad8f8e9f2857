import WebSyncPlay.RedisKeys
import WebSyncPlay.SocketRegistry
import WebSyncPlay.Library.Feed

/-! What the nodes send to the sockets of a room (`broadcast/control-publisher.ts`,
`broadcast/bus-fanout.ts`, `redis/pubsub.ts`, `redis/pubsub-handlers.ts`): each node to its own
sockets at once, and to those of the others over the channels of the shared store. -/
namespace WebSyncPlay

open Library

/-- A `randomUUID` of the process. -/
abbrev BroadcastNodeId := {id : String // id ≠ ""}

inductive RoomPubSubKind
  | control | presence | snapshot
  deriving DecidableEq

def keys.roomControlChannelPattern : String := roomPrefix ++ "*" ++ ":control"
def keys.roomPresenceChannelPattern : String := roomPrefix ++ "*" ++ ":presence"
def keys.roomSnapshotChannelPattern : String := roomPrefix ++ "*" ++ ":snapshot"

namespace RoomPubSubKind

/-- `ROOM_PUBSUB_SUBSCRIPTIONS` -/
def subscriptions : List RoomPubSubKind := [.control,.presence,.snapshot]

def pattern : RoomPubSubKind → String
  | .control => keys.roomControlChannelPattern
  | .presence => keys.roomPresenceChannelPattern
  | .snapshot => keys.roomSnapshotChannelPattern

def suffix : RoomPubSubKind → String
  | .control => ":control"
  | .presence => ":presence"
  | .snapshot => ":snapshot"

def channel : RoomPubSubKind → String → String
  | .control => keys.roomControlChannel
  | .presence => keys.roomPresenceChannel
  | .snapshot => keys.roomSnapshotChannel

/-- The type of what is published on it, an admission change apart. -/
def envelopeType : RoomPubSubKind → String
  | .control => "room:control"
  | .presence => "presence:batch"
  | .snapshot => "room:snapshot"

end RoomPubSubKind

def admissionChangedType : String := "room:admission:changed"

def ROOM_CHANNEL_ALLOWED_TYPES : RoomPubSubKind → List String
  | .control => ["room:control",admissionChangedType]
  | .presence => ["presence:batch"]
  | .snapshot => ["room:snapshot","room:state"]

def RoomPubSubKind.allows (kind : RoomPubSubKind) (type : Option String) : Bool :=
  type.any fun type => decide (type ∈ ROOM_CHANNEL_ALLOWED_TYPES kind)

structure WiredEnvelope where
  /-- `none` when it is no string. -/
  type : Option String
  /-- `payload.ownerId`, if there is a payload to read it from. -/
  ownerId : Option (Option UserId) := some none
  originNodeId : Option String := none
  deriving DecidableEq

structure RoomPublication where
  serial : ℕ
  /-- `none` for a message that no node has sent. -/
  publisher : Option BroadcastNodeId
  channel : String
  /-- `none` when `JSON.parse` throws. -/
  message : Option WiredEnvelope
  deriving DecidableEq

/-- A publication at a socket, and what the registry holds of the socket by then. -/
structure Receipt where
  publication : RoomPublication
  registered : Option RegisteredMeta
  deriving DecidableEq

structure SocketState where
  isOpen : Bool := true
  received : List Receipt := []

namespace SocketState

def send (socket : SocketState) (receipt : Receipt) : SocketState :=
  if socket.isOpen then { socket with received := socket.received ++ [receipt] } else socket

def close (socket : SocketState) : SocketState := { socket with isOpen := false }

end SocketState

structure FanOutState (W : Type*) where
  registry : BroadcastNodeId → SocketRegistry W := fun _ => {}
  sockets : W → SocketState := fun _ => {}
  /-- All publications, as they came. -/
  published : List RoomPublication := []
  /-- Published, but not yet with the shared store. -/
  outgoing : List RoomPublication := []
  /-- The order of the shared store. -/
  transmitted : List RoomPublication := []
  inbox : BroadcastNodeId → List (RoomPubSubKind × RoomPublication) := fun _ => []
  lost : BroadcastNodeId → List RoomPublication := fun _ => []

section FanOut

variable {W : Type*} [DecidableEq W]

def forEachSocket (visit : W → SocketState → SocketState) (clients : List W)
    (sockets : W → SocketState) : W → SocketState :=
  clients.foldl (fun sockets ws => Function.update sockets ws (visit ws (sockets ws))) sockets

theorem forEachSocket_apply (visit : W → SocketState → SocketState) {clients : List W}
    (hnodup : clients.Nodup) (sockets : W → SocketState) (ws : W) :
    forEachSocket visit clients sockets ws =
      if ws ∈ clients then visit ws (sockets ws) else sockets ws := by
  induction clients generalizing sockets with
  | nil => rfl
  | cons c clients ih =>
    have hrest := List.nodup_cons.mp hnodup
    show forEachSocket visit clients _ ws = _
    rw [ih hrest.2]
    by_cases heq : ws = c
    · subst heq
      simp [hrest.1]
    · simp [heq]

namespace FanOutState

def receipt (s : FanOutState W) (node : BroadcastNodeId) (ws : W) (p : RoomPublication) : Receipt :=
  { publication := p, registered := (s.registry node).sockets ws }

def sendRawToRoom (s : FanOutState W) (node : BroadcastNodeId) (roomId : String)
    (p : RoomPublication) : FanOutState W :=
  { s with
    sockets := forEachSocket (fun ws socket => socket.send (s.receipt node ws p))
      ((s.registry node).getSocketsForRoom roomId) s.sockets }

def forceRejoinNonOwners (s : FanOutState W) (node : BroadcastNodeId) (roomId : String)
    (ownerId : Option UserId) (p : RoomPublication) : FanOutState W :=
  let visit := fun ws (socket : SocketState) =>
    match (s.registry node).sockets ws with
    | none => socket
    | some known =>
      if some known.userId = ownerId then socket
      else (socket.send (s.receipt node ws p)).close
  { s with
    sockets := forEachSocket visit ((s.registry node).getSocketsForRoom roomId) s.sockets }

/-- `none`: it throws. -/
def fanOutFromPubSub (s : FanOutState W) (node : BroadcastNodeId) (roomId : String)
    (wired : WiredEnvelope) (p : RoomPublication) : Option (FanOutState W) :=
  if wired.originNodeId.filter (· ≠ "") = some node.1 then some s
  else if wired.type = some admissionChangedType then
    wired.ownerId.map fun ownerId => s.forceRejoinNonOwners node roomId ownerId p
  else some (s.sendRawToRoom node roomId p)

inductive PubSubDeliverResult
  | delivered | badChannel | badPayload | badType
  deriving DecidableEq

def deliverRoomPubSubMessage (s : FanOutState W) (node : BroadcastNodeId) (kind : RoomPubSubKind)
    (p : RoomPublication) : PubSubDeliverResult × FanOutState W :=
  let roomId := parseRoomPrefixedKey p.channel kind.suffix
  if roomId = "" then (.badChannel,s)
  else match p.message with
    | none => (.badPayload,s)
    | some wired =>
      if kind.allows wired.type then
        match s.fanOutFromPubSub node roomId wired p with
        | none => (.badPayload,s)
        | some s' => (.delivered,s')
      else (.badType,s)

/-- What the subscriptions of a node make of a message of a channel. -/
def subscribed (p : RoomPublication) : List (RoomPubSubKind × RoomPublication) :=
  (RoomPubSubKind.subscriptions.filter fun kind =>
    globMatch kind.pattern.toList p.channel.toList).map (·,p)

/-- The shared store takes a publication, and it comes to the nodes whose subscriber is there. -/
def transmit (s : FanOutState W) (p : RoomPublication) (reaches : BroadcastNodeId → Bool) :
    FanOutState W :=
  { s with
    transmitted := s.transmitted ++ [p]
    inbox := fun node => s.inbox node ++ if reaches node then subscribed p else []
    lost := fun node => s.lost node ++ if reaches node then [] else [p] }

def setRegistry (s : FanOutState W) (node : BroadcastNodeId) (r : SocketRegistry W) : FanOutState W :=
  { s with registry := Function.update s.registry node r }

def dequeued (s : FanOutState W) (node : BroadcastNodeId)
    (rest : List (RoomPubSubKind × RoomPublication)) : FanOutState W :=
  { s with inbox := Function.update s.inbox node rest }

/-- A publication of a node, after it has gone to the node's own sockets. -/
def handOver (s : FanOutState W) (p : RoomPublication) : FanOutState W :=
  { s with
    published := s.published ++ [p]
    outgoing := s.outgoing ++ [p] }

end FanOutState

def FanOutState.publication (s : FanOutState W) (node : BroadcastNodeId) (kind : RoomPubSubKind)
    (roomId type : String) (ownerId : Option UserId) : RoomPublication where
  serial := s.published.length
  publisher := some node
  channel := kind.channel roomId
  message := some { type := some type, ownerId := some ownerId, originNodeId := some node.1 }

inductive FanOutAction (W : Type*)
  | addSocket (ws : W) (input : AddSocketInput) (uuid : String)
  | removeSocket (ws : W)
  | patchSocketMeta (ws : W) (patch : SocketMetaPatch)
  | setUserCanControlPlayback (node : BroadcastNodeId) (roomId : String) (userId : UserId)
      (canControlPlayback : Bool)
  | close (ws : W)
  /-- `publishTyped` -/
  | publish (node : BroadcastNodeId) (kind : RoomPubSubKind) (roomId : String)
  | publishAdmissionChanged (node : BroadcastNodeId) (roomId : String) (ownerId : UserId)
  /-- The `PUBLISH` of a node goes through. -/
  | transmit (p : RoomPublication) (reaches : BroadcastNodeId → Bool)
  /-- The `PUBLISH` of a node fails. -/
  | fail (p : RoomPublication)
  /-- A message that no node has sent. -/
  | forge (channel : String) (message : Option WiredEnvelope) (reaches : BroadcastNodeId → Bool)
  | deliver (node : BroadcastNodeId)
  /-- The subscriber of a node loses a message. -/
  | lose (node : BroadcastNodeId)

/-- Each socket is at the node that has accepted it. -/
def fanOutStep (home : W → BroadcastNodeId) (s : FanOutState W) : FanOutAction W → Option (FanOutState W)
  | .addSocket ws input uuid =>
    some (s.setRegistry (home ws) ((s.registry (home ws)).addSocket ws input uuid))
  | .removeSocket ws => some (s.setRegistry (home ws) ((s.registry (home ws)).removeSocket ws))
  | .patchSocketMeta ws patch =>
    some (s.setRegistry (home ws) ((s.registry (home ws)).patchSocketMeta ws patch))
  | .setUserCanControlPlayback node roomId userId canControlPlayback =>
    some (s.setRegistry node
      ((s.registry node).setUserCanControlPlayback roomId userId canControlPlayback))
  | .close ws => some { s with sockets := Function.update s.sockets ws (s.sockets ws).close }
  | .publish node kind roomId =>
    let p := s.publication node kind roomId kind.envelopeType none
    some ((s.sendRawToRoom node roomId p).handOver p)
  | .publishAdmissionChanged node roomId ownerId =>
    let p := s.publication node .control roomId admissionChangedType (some ownerId)
    some ((s.forceRejoinNonOwners node roomId (some ownerId) p).handOver p)
  | .transmit p reaches =>
    if p ∈ s.outgoing then
      some ({ s with outgoing := s.outgoing.erase p }.transmit p reaches)
    else none
  | .fail p =>
    if p ∈ s.outgoing then
      some { s with
        outgoing := s.outgoing.erase p
        lost := fun node => s.lost node ++ [p] }
    else none
  | .forge channel message reaches =>
    let p : RoomPublication :=
      { serial := s.published.length, publisher := none, channel := channel, message := message }
    some ({ s with published := s.published ++ [p] }.transmit p reaches)
  | .deliver node =>
    match s.inbox node with
    | [] => none
    | (kind,p) :: rest =>
      some ((s.dequeued node rest).deliverRoomPubSubMessage node kind p).2
  | .lose node =>
    match s.inbox node with
    | [] => none
    | (_,p) :: rest =>
      some { s.dequeued node rest with
        lost := Function.update s.lost node (s.lost node ++ [p]) }

def fanOutSystem (home : W → BroadcastNodeId) : TransitionSystem (FanOutState W) (FanOutAction W) where
  init s := s = {}
  step s a s' := fanOutStep home s a = some s'

section Channels

theorem RoomPubSubKind.pattern_eq (kind : RoomPubSubKind) :
    kind.pattern = roomPrefix ++ "*" ++ kind.suffix := by
  cases kind <;> rfl

theorem RoomPubSubKind.channel_eq (kind : RoomPubSubKind) (roomId : String) :
    kind.channel roomId = roomKey kind.suffix roomId := by
  cases kind <;> rfl

theorem RoomPubSubKind.globMatch_pattern (kind : RoomPubSubKind) (channel : String) :
    globMatch kind.pattern.toList channel.toList = true ↔
      ∃ roomId, channel = kind.channel roomId := by
  have hstar : '*' ∉ kind.suffix.toList := by cases kind <;> decide
  simp only [pattern_eq,channel_eq]
  exact globMatch_roomKey hstar channel

theorem RoomPubSubKind.parse_channel (kind : RoomPubSubKind) (roomId : String) :
    parseRoomPrefixedKey (kind.channel roomId) kind.suffix = roomId := by
  rw [channel_eq]
  cases kind with
  | control =>
    exact parseRoomPrefixedKey_roomKey ":contro".toList (d := 'l') (by decide) (by decide) roomId
  | presence =>
    exact parseRoomPrefixedKey_roomKey ":presenc".toList (d := 'e') (by decide) (by decide) roomId
  | snapshot =>
    exact parseRoomPrefixedKey_roomKey ":snapsho".toList (d := 't') (by decide) (by decide) roomId

theorem RoomPubSubKind.eq_of_channel_eq {kind other : RoomPubSubKind} {roomId roomId' : String}
    (h : kind.channel roomId = other.channel roomId') : kind = other := by
  have hlast : ∀ (kind : RoomPubSubKind) roomId, (kind.channel roomId).toList.getLast? =
      kind.suffix.toList.getLast? := by
    intro kind roomId
    rw [channel_eq]
    have hlist : (roomKey kind.suffix roomId).toList =
        (roomPrefix ++ roomId).toList ++ kind.suffix.toList := by simp [roomKey]
    have hne : kind.suffix.toList ≠ [] := by cases kind <;> decide
    rw [hlist,List.getLast?_append_of_ne_nil _ hne]
  have hsuffix := hlast kind roomId
  rw [h,hlast] at hsuffix
  cases kind <;> cases other <;> first | rfl | exact absurd hsuffix (by decide)

/-- A message comes to a node once at most. -/
theorem FanOutState.subscribed_sublist (p : RoomPublication) :
    ((FanOutState.subscribed p).map (·.2)).Sublist [p] := by
  have hmap : ∀ kinds : List RoomPubSubKind, (kinds.map (·,p)).map (·.2) = kinds.map fun _ => p := by
    intro kinds
    rw [List.map_map]
    rfl
  have hlength : (RoomPubSubKind.subscriptions.filter fun kind =>
      globMatch kind.pattern.toList p.channel.toList).length ≤ 1 := by
    by_contra hmany
    rw [not_le] at hmany
    generalize hkinds : RoomPubSubKind.subscriptions.filter (fun kind =>
      globMatch kind.pattern.toList p.channel.toList) = kinds at hmany
    match kinds,hmany with
    | kind :: other :: rest,_ =>
      have hnodup : (kind :: other :: rest).Nodup :=
        hkinds ▸ List.Nodup.filter _ (by decide)
      have hkind : ∀ k ∈ kind :: other :: rest, ∃ roomId, p.channel = k.channel roomId := by
        intro k hk
        rw [← hkinds,List.mem_filter] at hk
        exact (k.globMatch_pattern _).mp hk.2
      obtain ⟨roomId,hroom⟩ := hkind kind (by simp)
      obtain ⟨roomId',hroom'⟩ := hkind other (by simp)
      have heq := RoomPubSubKind.eq_of_channel_eq (hroom.symm.trans hroom')
      rw [heq] at hnodup
      simp at hnodup
  unfold subscribed
  rw [hmap,List.map_const']
  exact (List.replicate_sublist_replicate p).mpr hlength

theorem FanOutState.mem_subscribed {p : RoomPublication} {entry : RoomPubSubKind × RoomPublication} :
    entry ∈ FanOutState.subscribed p ↔
      entry.2 = p ∧ ∃ roomId, p.channel = entry.1.channel roomId := by
  obtain ⟨kind,q⟩ := entry
  have hall : kind ∈ RoomPubSubKind.subscriptions := by cases kind <;> decide
  simp only [subscribed,List.mem_map,List.mem_filter,RoomPubSubKind.globMatch_pattern,
    Prod.mk.injEq]
  constructor
  · rintro ⟨k,⟨-,hchannel⟩,rfl,rfl⟩
    exact ⟨rfl,hchannel⟩
  · rintro ⟨rfl,hchannel⟩
    exact ⟨kind,⟨hall,hchannel⟩,rfl,rfl⟩

end Channels

/-- A receipt of the room of the socket, of a type that its channel carries; an admission change
does not come to the owner. -/
def Receipt.Proper (r : Receipt) : Prop :=
  ∃ kind known wired type, r.registered = some known ∧
    r.publication.channel = RoomPubSubKind.channel kind known.roomId ∧
    r.publication.message = some wired ∧ wired.type = some type ∧
    type ∈ ROOM_CHANNEL_ALLOWED_TYPES kind ∧
    (type = admissionChangedType → wired.ownerId ≠ some (some known.userId))

namespace FanOutState

variable {home : W → BroadcastNodeId} {s : FanOutState W} {node : BroadcastNodeId} {p : RoomPublication}

/-- At most the sockets of the node have got the publication, each once, and nothing else has
changed but what is open. -/
structure SentTo (home : W → BroadcastNodeId) (s : FanOutState W) (node : BroadcastNodeId)
    (p : RoomPublication) (sockets : W → SocketState) : Prop where
  received : ∀ ws, (sockets ws).received = (s.sockets ws).received ∨
    (home ws = node ∧ (s.receipt node ws p).Proper ∧
      (sockets ws).received = (s.sockets ws).received ++ [s.receipt node ws p])

omit [DecidableEq W] in
theorem SentTo.refl : SentTo home s node p s.sockets where
  received _ := .inl rfl

theorem sentTo_forEachSocket (hregistry : (s.registry node).Consistent)
    (hhome : ∀ ws, (s.registry node).sockets ws ≠ none → home ws = node) (roomId : String)
    {visit : W → SocketState → SocketState}
    (hvisit : ∀ ws known, (s.registry node).sockets ws = some known → known.roomId = roomId →
      (visit ws (s.sockets ws)).received = (s.sockets ws).received ∨
        ((s.receipt node ws p).Proper ∧ (visit ws (s.sockets ws)).received =
          (s.sockets ws).received ++ [s.receipt node ws p])) :
    SentTo home s node p
      (forEachSocket visit ((s.registry node).getSocketsForRoom roomId) s.sockets) where
  received ws := by
    rw [forEachSocket_apply visit (hregistry.nodup roomId)]
    by_cases hmem : ws ∈ (s.registry node).getSocketsForRoom roomId
    · rw [if_pos hmem]
      obtain ⟨known,hknown,hroom⟩ := Option.map_eq_some_iff.mp ((hregistry.indexed roomId ws).mp hmem)
      have hat : home ws = node := hhome ws (by simp [hknown])
      rcases hvisit ws known hknown hroom with hsame | ⟨hproper,hsent⟩
      · exact .inl hsame
      · exact .inr ⟨hat,hproper,hsent⟩
    · rw [if_neg hmem]
      exact .inl rfl

section Sent

variable (hregistry : (s.registry node).Consistent)
  (hhome : ∀ ws, (s.registry node).sockets ws ≠ none → home ws = node)
include hregistry hhome

theorem sentTo_sendRawToRoom {kind : RoomPubSubKind} {roomId type : String} {wired : WiredEnvelope}
    (hchannel : p.channel = kind.channel roomId) (hmessage : p.message = some wired)
    (htype : wired.type = some type) (hallowed : type ∈ ROOM_CHANNEL_ALLOWED_TYPES kind)
    (hplain : type ≠ admissionChangedType) :
    SentTo home s node p (s.sendRawToRoom node roomId p).sockets := by
  unfold sendRawToRoom
  dsimp only
  apply sentTo_forEachSocket hregistry hhome roomId
  intro ws known hknown hroom
  have hproper : (s.receipt node ws p).Proper :=
    ⟨kind,known,wired,type,hknown,by rw [hroom]; exact hchannel,hmessage,htype,hallowed,
      fun h => absurd h hplain⟩
  cases hopen : (s.sockets ws).isOpen with
  | false => exact .inl (by simp [SocketState.send,hopen])
  | true => exact .inr ⟨hproper,by simp [SocketState.send,hopen]⟩

theorem sentTo_forceRejoinNonOwners {roomId : String} {wired : WiredEnvelope}
    {ownerId : Option UserId} (hchannel : p.channel = RoomPubSubKind.control.channel roomId)
    (hmessage : p.message = some wired) (htype : wired.type = some admissionChangedType)
    (howner : wired.ownerId = some ownerId) :
    SentTo home s node p (s.forceRejoinNonOwners node roomId ownerId p).sockets := by
  unfold forceRejoinNonOwners
  dsimp only
  apply sentTo_forEachSocket hregistry hhome roomId
  intro ws known hknown hroom
  have hallowed : admissionChangedType ∈ ROOM_CHANNEL_ALLOWED_TYPES .control := by decide
  simp only [hknown]
  by_cases hself : some known.userId = ownerId
  · rw [if_pos hself]
    exact .inl rfl
  · rw [if_neg hself]
    have hproper : (s.receipt node ws p).Proper := by
      refine ⟨.control,known,wired,_,hknown,by rw [hroom]; exact hchannel,hmessage,htype,hallowed,
        fun _ heq => hself ?_⟩
      rw [howner] at heq
      exact (Option.some.inj heq).symm
    cases hopen : (s.sockets ws).isOpen with
    | false => exact .inl (by simp [SocketState.send,SocketState.close,hopen])
    | true => exact .inr ⟨hproper,by simp [SocketState.send,SocketState.close,hopen]⟩

theorem sentTo_deliver {kind : RoomPubSubKind} {roomId : String}
    (hchannel : p.channel = kind.channel roomId) :
    ∃ sockets, (s.deliverRoomPubSubMessage node kind p).2 = { s with sockets := sockets } ∧
      SentTo home s node p sockets ∧
      ((∃ wired, p.message = some wired ∧ wired.originNodeId = some node.1) →
        sockets = s.sockets) := by
  have hparse : parseRoomPrefixedKey p.channel kind.suffix = roomId := by
    rw [hchannel,RoomPubSubKind.parse_channel]
  have hstay : ∀ result : PubSubDeliverResult,
      ∃ sockets, (result,s).2 = { s with sockets := sockets } ∧ SentTo home s node p sockets ∧
        ((∃ wired, p.message = some wired ∧ wired.originNodeId = some node.1) →
          sockets = s.sockets) := fun result => ⟨s.sockets,rfl,SentTo.refl,fun _ => rfl⟩
  unfold deliverRoomPubSubMessage
  rw [hparse]
  by_cases hempty : roomId = ""
  · simpa only [hempty,if_true] using hstay .badChannel
  simp only [if_neg hempty]
  cases hmessage : p.message with
  | none => simpa only [hmessage] using hstay .badPayload
  | some wired =>
    rw [hmessage] at hstay
    cases hallowed : kind.allows wired.type with
    | false => simpa only [hallowed,Bool.false_eq_true,if_false] using hstay .badType
    | true =>
      simp only [hallowed,if_true]
      obtain ⟨type,htype,hin⟩ := (Option.any_eq_true _ _).mp hallowed
      have hin : type ∈ ROOM_CHANNEL_ALLOWED_TYPES kind := by simpa using hin
      unfold fanOutFromPubSub
      by_cases hecho : wired.originNodeId.filter (· ≠ "") = some node.1
      · simpa only [if_pos hecho] using hstay .delivered
      have horigin : ¬ ∃ other, some wired = some other ∧ other.originNodeId = some node.1 := by
        rintro ⟨other,heq,hother⟩
        cases heq
        apply hecho
        rw [hother]
        simp [node.2]
      rw [if_neg hecho]
      by_cases hadmission : wired.type = some admissionChangedType
      · rw [if_pos hadmission]
        cases howner : wired.ownerId with
        | none => simpa only [Option.map_none] using hstay .badPayload
        | some ownerId =>
          have hcontrol : kind = .control := by
            rw [hadmission] at htype
            cases htype
            cases kind with
            | control => rfl
            | presence | snapshot => exact absurd hin (by decide)
          rw [hcontrol] at hchannel
          exact ⟨_,rfl,sentTo_forceRejoinNonOwners hregistry hhome hchannel hmessage hadmission
            howner,fun h => absurd h horigin⟩
      · rw [if_neg hadmission]
        have hplain : type ≠ admissionChangedType := by
          intro heq
          rw [htype,heq] at hadmission
          exact hadmission rfl
        exact ⟨_,rfl,sentTo_sendRawToRoom hregistry hhome hchannel hmessage htype hin hplain,
          fun h => absurd h horigin⟩

end Sent
end FanOutState

end FanOut

section Invariant

variable {W : Type*} {home : W → BroadcastNodeId} {s : FanOutState W}

def publishedAt (home : W → BroadcastNodeId) (ws : W) (p : RoomPublication) : Bool :=
  decide (p.publisher = some (home ws))

structure FanOutOk (home : W → BroadcastNodeId) (s : FanOutState W) : Prop where
  registry : ∀ node, (s.registry node).Consistent
  atHome : ∀ node ws, (s.registry node).sockets ws ≠ none → home ws = node
  serial : ∀ p ∈ s.published, p.serial < s.published.length
  publishedOnce : s.published.Nodup
  sentOnce : (s.outgoing ++ s.transmitted).Nodup
  sent : ∀ p ∈ s.outgoing ++ s.transmitted, p ∈ s.published
  origin : ∀ p ∈ s.published, ∀ node, p.publisher = some node →
    ∃ wired, p.message = some wired ∧ wired.originNodeId = some node.1
  queued : ∀ node, ∀ entry ∈ s.inbox node, entry.2 ∈ s.published ∧
    ∃ roomId, entry.2.channel = entry.1.channel roomId
  feed : ∀ ws, FeedOk (publishedAt home ws) s.published s.transmitted
    ((s.inbox (home ws)).map (·.2)) ((s.sockets ws).received.map (·.publication))
  receipts : ∀ ws, ∀ r ∈ (s.sockets ws).received, r.Proper

namespace FanOutOk

theorem start (home : W → BroadcastNodeId) : FanOutOk home {} where
  registry _ := SocketRegistry.Consistent.start
  atHome _ _ h := absurd rfl h
  serial _ h := by cases h
  publishedOnce := .nil
  sentOnce := .nil
  sent _ h := by cases h
  origin _ h := by cases h
  queued _ _ h := by cases h
  feed ws := FeedOk.start (publishedAt home ws)
  receipts _ _ h := by cases h

theorem setRegistry (h : FanOutOk home s) {node : BroadcastNodeId} {r : SocketRegistry W}
    (hconsistent : r.Consistent) (hhome : ∀ ws, r.sockets ws ≠ none → home ws = node) :
    FanOutOk home (s.setRegistry node r) :=
  { h with
    registry := fun other => by
      by_cases heq : other = node
      · subst heq
        simpa [FanOutState.setRegistry] using hconsistent
      · simpa [FanOutState.setRegistry,heq] using h.registry other
    atHome := fun other ws => by
      by_cases heq : other = node
      · subst heq
        simpa [FanOutState.setRegistry] using hhome ws
      · simpa [FanOutState.setRegistry,heq] using h.atHome other ws }

theorem setSockets (h : FanOutOk home s) {sockets : W → SocketState}
    (hsame : ∀ ws, (sockets ws).received = (s.sockets ws).received) :
    FanOutOk home { s with sockets := sockets } :=
  { h with
    feed := fun ws => by
      show FeedOk _ _ _ _ ((sockets ws).received.map _)
      rw [hsame]
      exact h.feed ws
    receipts := fun ws => by
      show ∀ r ∈ (sockets ws).received, _
      rw [hsame]
      exact h.receipts ws }

theorem serial_notMem (h : FanOutOk home s) {p : RoomPublication}
    (hserial : p.serial = s.published.length) : p ∉ s.published :=
  fun hmem => Nat.ne_of_lt (h.serial p hmem) hserial

theorem nodup_concat {ps : List RoomPublication} {p : RoomPublication} (h : ps.Nodup)
    (hnew : p ∉ ps) : (ps ++ [p]).Nodup := by
  rw [List.nodup_append]
  refine ⟨h,by simp,fun q hq r hr heq => hnew ?_⟩
  rw [List.mem_singleton.mp hr] at heq
  exact heq ▸ hq

theorem issue (h : FanOutOk home s) {p : RoomPublication} (hserial : p.serial = s.published.length)
    (horigin : ∀ node, p.publisher = some node →
      ∃ wired, p.message = some wired ∧ wired.originNodeId = some node.1) :
    FanOutOk home { s with published := s.published ++ [p] } :=
  { h with
    serial := fun q hq => by
      rw [List.length_append,List.length_singleton]
      rcases List.mem_append.mp hq with hold | hnew
      · exact (h.serial q hold).trans (Nat.lt_succ_self _)
      · rw [List.mem_singleton.mp hnew,hserial]
        exact Nat.lt_succ_self _
    publishedOnce := nodup_concat h.publishedOnce (h.serial_notMem hserial)
    sent := fun q hq => List.mem_append_left [p] (h.sent q hq)
    origin := fun q hq => by
      rcases List.mem_append.mp hq with hold | hnew
      · exact h.origin q hold
      · rw [List.mem_singleton.mp hnew]
        exact horigin
    queued := fun node entry hentry =>
      ⟨List.mem_append_left [p] (h.queued node entry hentry).1,(h.queued node entry hentry).2⟩
    feed := fun ws => (h.feed ws).issue p }

theorem handOver (h : FanOutOk home s) {node : BroadcastNodeId} {p : RoomPublication}
    {sockets : W → SocketState} (hsent : FanOutState.SentTo home s node p sockets)
    (hserial : p.serial = s.published.length) (hpublisher : p.publisher = some node)
    (horigin : ∃ wired, p.message = some wired ∧ wired.originNodeId = some node.1) :
    FanOutOk home ({ s with sockets := sockets }.handOver p) := by
  have hissued := h.issue hserial fun other hother => by
    rw [hpublisher] at hother
    cases hother
    exact horigin
  have hnew : p ∉ s.outgoing ++ s.transmitted := fun hmem =>
    h.serial_notMem hserial (h.sent p hmem)
  have hperm : (s.outgoing ++ [p] ++ s.transmitted).Perm (s.outgoing ++ s.transmitted ++ [p]) := by
    rw [List.append_assoc,List.append_assoc]
    exact List.perm_append_comm.append_left _
  exact
    { hissued with
      sentOnce := hperm.nodup_iff.mpr (nodup_concat h.sentOnce hnew)
      sent := fun q hq => by
        rcases List.mem_append.mp (hperm.mem_iff.mp hq) with hold | hp
        · exact List.mem_append_left [p] (h.sent q hold)
        · exact List.mem_append_right _ hp
      feed := fun ws => by
        show FeedOk _ (s.published ++ [p]) _ _ ((sockets ws).received.map _)
        rcases hsent.received ws with hsame | ⟨hat,-,hgot⟩
        · rw [hsame]
          exact hissued.feed ws
        · rw [hgot,List.map_append]
          refine (h.feed ws).receiveOwn ?_
          simp [publishedAt,hpublisher,hat]
      receipts := fun ws => by
        show ∀ r ∈ (sockets ws).received, _
        rcases hsent.received ws with hsame | ⟨-,hproper,hgot⟩
        · rw [hsame]
          exact h.receipts ws
        · rw [hgot]
          intro r hr
          rcases List.mem_append.mp hr with hold | hp
          · exact h.receipts ws r hold
          · rw [List.mem_singleton.mp hp]
            exact hproper }

theorem eraseOutgoing (h : FanOutOk home s) (p : RoomPublication) :
    FanOutOk home { s with outgoing := s.outgoing.erase p } :=
  { h with
    sentOnce := h.sentOnce.sublist (List.erase_sublist.append_right s.transmitted)
    sent := fun q hq => h.sent q ((List.erase_sublist.append_right s.transmitted).subset hq) }

theorem transmit (h : FanOutOk home s) {p : RoomPublication} (hknown : p ∈ s.published)
    (hnew : p ∉ s.outgoing ++ s.transmitted) (reaches : BroadcastNodeId → Bool) :
    FanOutOk home (s.transmit p reaches) :=
  { h with
    sentOnce := by
      show (s.outgoing ++ (s.transmitted ++ [p])).Nodup
      rw [← List.append_assoc]
      exact nodup_concat h.sentOnce hnew
    sent := fun q hq => by
      have hq : q ∈ s.outgoing ++ (s.transmitted ++ [p]) := hq
      rw [← List.append_assoc] at hq
      rcases List.mem_append.mp hq with hold | hp
      · exact h.sent q hold
      · rw [List.mem_singleton.mp hp]
        exact hknown
    queued := fun node entry hentry => by
      rcases List.mem_append.mp hentry with hold | hp
      · exact h.queued node entry hold
      · split at hp
        · obtain ⟨heq,roomId,hroom⟩ := FanOutState.mem_subscribed.mp hp
          rw [heq]
          exact ⟨hknown,roomId,hroom⟩
        · cases hp
    feed := fun ws => by
      show FeedOk _ _ (s.transmitted ++ [p]) ((s.inbox (home ws) ++ _).map _) _
      rw [List.map_append]
      refine (h.feed ws).append ?_
      split
      · exact FanOutState.subscribed_sublist p
      · exact List.nil_sublist [p] }

theorem inbox_dequeued (s : FanOutState W) (node : BroadcastNodeId)
    (rest : List (RoomPubSubKind × RoomPublication)) :
    (s.dequeued node rest).inbox node = rest := by
  simp [FanOutState.dequeued]

theorem inbox_dequeued_of_ne (s : FanOutState W) {node other : BroadcastNodeId} (h : other ≠ node)
    (rest : List (RoomPubSubKind × RoomPublication)) :
    (s.dequeued node rest).inbox other = s.inbox other := by
  simp [FanOutState.dequeued,h]

theorem dequeue (h : FanOutOk home s) {node : BroadcastNodeId} {kind : RoomPubSubKind}
    {p : RoomPublication} {rest : List (RoomPubSubKind × RoomPublication)}
    (hinbox : s.inbox node = (kind,p) :: rest) : FanOutOk home (s.dequeued node rest) :=
  { h with
    queued := fun other entry hentry => by
      by_cases heq : other = node
      · subst heq
        rw [inbox_dequeued] at hentry
        exact h.queued other entry (hinbox ▸ List.mem_cons_of_mem _ hentry)
      · rw [inbox_dequeued_of_ne s heq] at hentry
        exact h.queued other entry hentry
    feed := fun ws => by
      have hfeed := h.feed ws
      by_cases heq : home ws = node
      · rw [heq,hinbox] at hfeed
        rw [heq,inbox_dequeued]
        exact hfeed.drop
      · rw [inbox_dequeued_of_ne s heq]
        exact hfeed }

end FanOutOk

section Steps

variable [DecidableEq W]

namespace FanOutOk

theorem deliver (h : FanOutOk home s) {node : BroadcastNodeId} {kind : RoomPubSubKind}
    {p : RoomPublication} {rest : List (RoomPubSubKind × RoomPublication)}
    (hinbox : s.inbox node = (kind,p) :: rest) :
    FanOutOk home ((s.dequeued node rest).deliverRoomPubSubMessage node kind p).2 := by
  obtain ⟨hknown,roomId,hroom⟩ := h.queued node (kind,p) (by rw [hinbox]; simp)
  have hrest := h.dequeue hinbox
  obtain ⟨sockets,heq,hsent,hecho⟩ := FanOutState.sentTo_deliver (hrest.registry node)
    (hrest.atHome node) hroom
  rw [heq]
  by_cases hown : p.publisher = some node
  · rw [hecho (h.origin p hknown node hown)]
    exact hrest
  exact
    { hrest with
      feed := fun ws => by
        show FeedOk _ _ _ _ ((sockets ws).received.map _)
        rcases hsent.received ws with hsame | ⟨hat,-,hgot⟩
        · rw [hsame]
          exact hrest.feed ws
        · have hfeed := h.feed ws
          rw [hat,hinbox] at hfeed
          have hother : publishedAt home ws p = false := by simp [publishedAt,hat,hown]
          show FeedOk _ _ _ (((s.dequeued node rest).inbox (home ws)).map _) _
          rw [hgot,List.map_append,hat,inbox_dequeued]
          exact hfeed.receive hother
      receipts := fun ws => by
        show ∀ r ∈ (sockets ws).received, _
        rcases hsent.received ws with hsame | ⟨-,hproper,hgot⟩
        · rw [hsame]
          exact h.receipts ws
        · rw [hgot]
          intro r hr
          rcases List.mem_append.mp hr with hold | hp
          · exact h.receipts ws r hold
          · rw [List.mem_singleton.mp hp]
            exact hproper }

end FanOutOk

theorem sockets_addSocket {r : SocketRegistry W} {ws other : W} {input : AddSocketInput}
    {uuid : String} (h : (r.addSocket ws input uuid).sockets other ≠ none) :
    other = ws ∨ r.sockets other ≠ none := by
  by_cases heq : other = ws
  · exact .inl heq
  · right
    unfold SocketRegistry.addSocket at h
    rw [SocketRegistry.sockets_setMeta,if_neg heq,SocketRegistry.sockets_attachToRoom] at h
    cases hknown : r.sockets ws with
    | none => simpa [hknown] using h
    | some known => simpa [hknown] using h

theorem sockets_removeSocket {r : SocketRegistry W} {ws other : W}
    (h : (r.removeSocket ws).sockets other ≠ none) : r.sockets other ≠ none := by
  unfold SocketRegistry.removeSocket at h
  cases hknown : r.sockets ws with
  | none => simpa [hknown] using h
  | some known =>
    simp only [hknown,SocketRegistry.sockets_detachFromRoom,SocketRegistry.sockets_setMeta] at h
    by_cases heq : other = ws
    · rw [if_pos heq] at h
      exact absurd rfl h
    · rwa [if_neg heq] at h

theorem sockets_patchSocketMeta {r : SocketRegistry W} {ws other : W} {patch : SocketMetaPatch}
    (h : (r.patchSocketMeta ws patch).sockets other ≠ none) : r.sockets other ≠ none := by
  unfold SocketRegistry.patchSocketMeta at h
  cases hknown : r.sockets ws with
  | none => simpa [hknown] using h
  | some known =>
    simp only [hknown,SocketRegistry.sockets_setMeta] at h
    by_cases heq : other = ws
    · rw [heq,hknown]
      exact Option.some_ne_none known
    · rwa [if_neg heq] at h

theorem sockets_setUserCanControlPlayback {r : SocketRegistry W} {roomId : String}
    {userId : UserId} {canControlPlayback : Bool} {other : W}
    (h : (r.setUserCanControlPlayback roomId userId canControlPlayback).sockets other ≠ none) :
    r.sockets other ≠ none := by
  unfold SocketRegistry.setUserCanControlPlayback at h
  generalize r.getSocketsForUser roomId userId = found at h
  induction found generalizing r with
  | nil => exact h
  | cons ws found ih => exact sockets_patchSocketMeta (ih h)

theorem deliver_cases {s' : FanOutState W} {node : BroadcastNodeId}
    (hstep : fanOutStep home s (.deliver node) = some s') :
    ∃ entry rest, s.inbox node = entry :: rest ∧
      ((s.dequeued node rest).deliverRoomPubSubMessage node entry.1 entry.2).2 = s' := by
  cases hinbox : s.inbox node with
  | nil => simp [fanOutStep,hinbox] at hstep
  | cons entry rest =>
    simp only [fanOutStep,hinbox] at hstep
    exact ⟨entry,rest,rfl,Option.some.inj hstep⟩

theorem lose_cases {s' : FanOutState W} {node : BroadcastNodeId}
    (hstep : fanOutStep home s (.lose node) = some s') :
    ∃ entry rest, s.inbox node = entry :: rest ∧
      s' = { s.dequeued node rest with
        lost := Function.update s.lost node (s.lost node ++ [entry.2]) } := by
  cases hinbox : s.inbox node with
  | nil => simp [fanOutStep,hinbox] at hstep
  | cons entry rest =>
    simp only [fanOutStep,hinbox] at hstep
    exact ⟨entry,rest,rfl,(Option.some.inj hstep).symm⟩

namespace FanOutOk

theorem step {s' : FanOutState W} {a : FanOutAction W} (h : FanOutOk home s)
    (hstep : fanOutStep home s a = some s') : FanOutOk home s' := by
  cases a with
  | addSocket ws input uuid =>
    cases hstep
    refine h.setRegistry ((h.registry _).addSocket ws input uuid) fun other hother => ?_
    rcases sockets_addSocket hother with heq | hold
    · rw [heq]
    · exact h.atHome _ other hold
  | removeSocket ws =>
    cases hstep
    exact h.setRegistry ((h.registry _).removeSocket ws)
      fun other hother => h.atHome _ other (sockets_removeSocket hother)
  | patchSocketMeta ws patch =>
    cases hstep
    exact h.setRegistry ((h.registry _).patchSocketMeta ws patch)
      fun other hother => h.atHome _ other (sockets_patchSocketMeta hother)
  | setUserCanControlPlayback node roomId userId canControlPlayback =>
    cases hstep
    exact h.setRegistry ((h.registry node).setUserCanControlPlayback roomId userId _)
      fun other hother => h.atHome node other (sockets_setUserCanControlPlayback hother)
  | close ws =>
    cases hstep
    refine h.setSockets fun other => ?_
    by_cases heq : other = ws
    · subst heq
      simp [SocketState.close]
    · simp [heq]
  | publish node kind roomId =>
    cases hstep
    have hallowed : kind.envelopeType ∈ ROOM_CHANNEL_ALLOWED_TYPES kind := by
      cases kind <;> decide
    have hplain : kind.envelopeType ≠ admissionChangedType := by cases kind <;> decide
    exact h.handOver (FanOutState.sentTo_sendRawToRoom (h.registry node) (h.atHome node) rfl rfl
      rfl hallowed hplain) rfl rfl ⟨_,rfl,rfl⟩
  | publishAdmissionChanged node roomId ownerId =>
    cases hstep
    exact h.handOver (FanOutState.sentTo_forceRejoinNonOwners (h.registry node) (h.atHome node)
      rfl rfl rfl rfl) rfl rfl ⟨_,rfl,rfl⟩
  | transmit p reaches =>
    obtain ⟨hmem,hsome⟩ := Option.ite_none_right_eq_some.mp hstep
    cases hsome
    refine (h.eraseOutgoing p).transmit (h.sent p (List.mem_append_left _ hmem)) ?_ reaches
    have hnodup := List.nodup_append.mp h.sentOnce
    intro hp
    rcases List.mem_append.mp hp with hout | htransmitted
    · exact hnodup.1.not_mem_erase hout
    · exact hnodup.2.2 p hmem p htransmitted rfl
  | fail p =>
    obtain ⟨hmem,hsome⟩ := Option.ite_none_right_eq_some.mp hstep
    cases hsome
    exact { h.eraseOutgoing p with }
  | forge channel message reaches =>
    cases hstep
    refine (h.issue rfl fun node hnode => ?_).transmit (List.mem_append_right _ (by simp)) ?_
      reaches
    · cases hnode
    · exact fun hmem => h.serial_notMem rfl (h.sent _ hmem)
  | deliver node =>
    obtain ⟨entry,rest,hinbox,rfl⟩ := deliver_cases hstep
    exact h.deliver hinbox
  | lose node =>
    obtain ⟨entry,rest,hinbox,rfl⟩ := lose_cases hstep
    exact { h.dequeue hinbox with }

theorem of_reachable (h : (fanOutSystem home).Reachable s) : FanOutOk home s := by
  refine h.invariant (FanOutOk home) ?_ ?_
  · intro s hs
    rw [hs]
    exact start home
  · exact fun s a s' _ hok hstep => hok.step hstep

end FanOutOk
end Steps

section Arrival

variable {ws : W} {p : RoomPublication}

/-- Open, and registered in the room as a user that the condition is about. -/
def FanOutState.Joined (s : FanOutState W) (home : W → BroadcastNodeId) (ws : W) (roomId : String)
    (who : UserId → Prop) : Prop :=
  (s.sockets ws).isOpen = true ∧ ∃ known, (s.registry (home ws)).sockets ws = some known ∧
    known.roomId = roomId ∧ who known.userId

/-- Not yet with the shared store, or in the queue of the node, or lost. -/
def FanOutState.OnItsWay (s : FanOutState W) (node : BroadcastNodeId) (p : RoomPublication) : Prop :=
  p ∈ s.outgoing ∨ p ∈ (s.inbox node).map (·.2) ∨ p ∈ s.lost node

theorem FanOutState.OnItsWay.of_le {s' : FanOutState W} {node : BroadcastNodeId}
    (hway : s.OnItsWay node p) (houtgoing : s.outgoing ⊆ s'.outgoing)
    (hinbox : s.inbox node ⊆ s'.inbox node) (hlost : s.lost node ⊆ s'.lost node) :
    s'.OnItsWay node p := by
  rcases hway with hout | hin | hgone
  · exact .inl (houtgoing hout)
  · exact .inr (.inl (List.map_subset _ hinbox hin))
  · exact .inr (.inr (hlost hgone))

theorem FanOutState.OnItsWay.transmit {q : RoomPublication} {reaches : BroadcastNodeId → Bool}
    {node : BroadcastNodeId} {kind : RoomPubSubKind} {roomId : String}
    (hchannel : p.channel = kind.channel roomId)
    (hway : s.OnItsWay node p) :
    ({ s with outgoing := s.outgoing.erase q }.transmit q reaches).OnItsWay node p := by
  rcases hway with hout | hin | hgone
  · by_cases heq : p = q
    · subst heq
      right
      cases hreaches : reaches node with
      | true =>
        have hmem : (kind,p) ∈ subscribed p := mem_subscribed.mpr ⟨rfl,roomId,hchannel⟩
        left
        show p ∈ (s.inbox node ++ if reaches node then subscribed p else []).map (·.2)
        rw [if_pos hreaches]
        exact List.mem_map.mpr ⟨(kind,p),List.mem_append_right _ hmem,rfl⟩
      | false =>
        right
        show p ∈ s.lost node ++ if reaches node then [] else [p]
        rw [if_neg (by simp [hreaches])]
        simp
    · exact .inl ((List.mem_erase_of_ne heq).mpr hout)
  · exact .inr (.inl (List.map_subset _ (List.subset_append_left _ _) hin))
  · exact .inr (.inr (List.mem_append_left _ hgone))

/-- The runs from a state with a condition on each state before a step. -/
def fanOutRuns [DecidableEq W] (home : W → BroadcastNodeId) (s : FanOutState W)
    (during : FanOutState W → Prop) : TransitionSystem (FanOutState W) (FanOutAction W) :=
  { fanOutSystem home with init := fun t => t = s }.restrict fun t _ => during t

namespace FanOutOk

theorem joined_mem (h : FanOutOk home s) {roomId : String} {who : UserId → Prop}
    (hjoined : s.Joined home ws roomId who) :
    ws ∈ (s.registry (home ws)).getSocketsForRoom roomId := by
  obtain ⟨-,known,hknown,hroom,-⟩ := hjoined
  rw [(h.registry (home ws)).indexed,hknown,Option.map_some,hroom]

theorem onItsWay_dequeued {node other : BroadcastNodeId} {entry : RoomPubSubKind × RoomPublication}
    {rest : List (RoomPubSubKind × RoomPublication)} (hinbox : s.inbox other = entry :: rest)
    (hway : s.OnItsWay node p) :
    (s.dequeued other rest).OnItsWay node p ∨ (other = node ∧ entry.2 = p) := by
  by_cases hat : other = node
  · subst hat
    rcases hway with hout | hin | hgone
    · exact .inl (.inl hout)
    · rw [hinbox,List.map_cons,List.mem_cons] at hin
      rcases hin with hhead | hin
      · exact .inr ⟨rfl,hhead.symm⟩
      · left; right; left
        rw [inbox_dequeued]
        exact hin
    · exact .inl (.inr (.inr hgone))
  · left
    refine hway.of_le (List.Subset.refl _) ?_ (List.Subset.refl _)
    rw [inbox_dequeued_of_ne s (Ne.symm hat)]
    exact List.Subset.refl _

variable [DecidableEq W]

theorem onItsWay_step (h : FanOutOk home s) {s' : FanOutState W} {a : FanOutAction W}
    {node : BroadcastNodeId} (hstep : fanOutStep home s a = some s') {roomId : String}
    {kind : RoomPubSubKind} (hchannel : p.channel = kind.channel roomId)
    (hway : s.OnItsWay node p) :
    s'.OnItsWay node p ∨ ∃ rest, s.inbox node = (kind,p) :: rest ∧
      s' = ((s.dequeued node rest).deliverRoomPubSubMessage node kind p).2 := by
  have hkeep : ∀ {s' : FanOutState W}, s'.outgoing = s.outgoing → s'.inbox = s.inbox →
      s'.lost = s.lost → s'.OnItsWay node p := by
    intro s' houtgoing hinbox hlost
    unfold FanOutState.OnItsWay
    rw [houtgoing,hinbox,hlost]
    exact hway
  cases a with
  | addSocket | removeSocket | patchSocketMeta | setUserCanControlPlayback | close =>
    cases hstep
    exact .inl (hkeep rfl rfl rfl)
  | publish | publishAdmissionChanged =>
    cases hstep
    exact .inl (hway.of_le (List.subset_append_left _ _) (List.Subset.refl _) (List.Subset.refl _))
  | transmit q reaches =>
    obtain ⟨-,hsome⟩ := Option.ite_none_right_eq_some.mp hstep
    cases hsome
    exact .inl (hway.transmit hchannel)
  | fail q =>
    obtain ⟨-,hsome⟩ := Option.ite_none_right_eq_some.mp hstep
    cases hsome
    left
    rcases hway with hout | hin | hgone
    · by_cases heq : p = q
      · exact .inr (.inr (by simp [heq]))
      · exact .inl ((List.mem_erase_of_ne heq).mpr hout)
    · exact .inr (.inl hin)
    · exact .inr (.inr (List.mem_append_left _ hgone))
  | forge channel message reaches =>
    cases hstep
    exact .inl (hway.of_le (List.Subset.refl _) (List.subset_append_left _ _)
      (List.subset_append_left _ _))
  | deliver other =>
    obtain ⟨entry,rest,hinbox,rfl⟩ := deliver_cases hstep
    obtain ⟨-,roomId',hroom'⟩ := h.queued other entry (by rw [hinbox]; simp)
    have hrest := h.dequeue hinbox
    obtain ⟨sockets,heq,-,-⟩ := FanOutState.sentTo_deliver (hrest.registry other)
      (hrest.atHome other) hroom'
    rcases onItsWay_dequeued hinbox hway with hleft | ⟨rfl,rfl⟩
    · left
      rw [heq]
      exact hleft
    · have hkind := RoomPubSubKind.eq_of_channel_eq (hchannel.symm.trans hroom')
      subst hkind
      exact .inr ⟨rest,hinbox,rfl⟩
  | lose other =>
    obtain ⟨entry,rest,hinbox,rfl⟩ := lose_cases hstep
    left
    have hmono : s.lost node ⊆
        Function.update s.lost other (s.lost other ++ [entry.2]) node := by
      by_cases hat : node = other
      · subst hat
        rw [Function.update_self]
        exact List.subset_append_left _ _
      · rw [Function.update_of_ne hat]
        exact List.Subset.refl _
    rcases onItsWay_dequeued hinbox hway with hleft | ⟨rfl,rfl⟩
    · exact hleft.of_le (List.Subset.refl _) (List.Subset.refl _) hmono
    · right; right
      simp

theorem received_step (h : FanOutOk home s) {s' : FanOutState W} {a : FanOutAction W}
    (hstep : fanOutStep home s a = some s') (ws : W) :
    (s.sockets ws).received <+: (s'.sockets ws).received := by
  have hsent : ∀ {s : FanOutState W} {node : BroadcastNodeId} {p : RoomPublication}
      {sockets : W → SocketState}, FanOutState.SentTo home s node p sockets →
      (s.sockets ws).received <+: (sockets ws).received := by
    intro s node p sockets hsent
    rcases hsent.received ws with hsame | ⟨-,-,hgot⟩
    · rw [hsame]
    · rw [hgot]
      exact List.prefix_append _ _
  cases a with
  | addSocket | removeSocket | patchSocketMeta | setUserCanControlPlayback | forge =>
    cases hstep
    exact List.prefix_refl _
  | close other =>
    cases hstep
    by_cases heq : ws = other
    · subst heq
      simp [SocketState.close]
    · simp [heq]
  | publish node kind roomId =>
    cases hstep
    have hallowed : kind.envelopeType ∈ ROOM_CHANNEL_ALLOWED_TYPES kind := by
      cases kind <;> decide
    have hplain : kind.envelopeType ≠ admissionChangedType := by cases kind <;> decide
    exact hsent (FanOutState.sentTo_sendRawToRoom (h.registry node) (h.atHome node) rfl rfl rfl
      hallowed hplain)
  | publishAdmissionChanged node roomId ownerId =>
    cases hstep
    exact hsent (FanOutState.sentTo_forceRejoinNonOwners (h.registry node) (h.atHome node) rfl rfl
      rfl rfl)
  | transmit q reaches =>
    obtain ⟨-,hsome⟩ := Option.ite_none_right_eq_some.mp hstep
    cases hsome
    exact List.prefix_refl _
  | fail q =>
    obtain ⟨-,hsome⟩ := Option.ite_none_right_eq_some.mp hstep
    cases hsome
    exact List.prefix_refl _
  | deliver node =>
    obtain ⟨entry,rest,hinbox,rfl⟩ := deliver_cases hstep
    obtain ⟨-,roomId,hroom⟩ := h.queued node entry (by rw [hinbox]; simp)
    have hrest := h.dequeue hinbox
    obtain ⟨sockets,heq,hto,-⟩ := FanOutState.sentTo_deliver (hrest.registry node)
      (hrest.atHome node) hroom
    have hgrown := hsent hto
    rw [heq]
    exact hgrown
  | lose node =>
    obtain ⟨entry,rest,hinbox,rfl⟩ := lose_cases hstep
    exact List.prefix_refl _

theorem sendRawToRoom_joined (h : FanOutOk home s) {roomId : String} {who : UserId → Prop}
    (hjoined : s.Joined home ws roomId who) (p : RoomPublication) :
    p ∈ ((s.sendRawToRoom (home ws) roomId p).sockets ws).received.map (·.publication) := by
  show p ∈ (forEachSocket _ _ _ ws).received.map _
  rw [forEachSocket_apply _ ((h.registry (home ws)).nodup roomId),if_pos (h.joined_mem hjoined)]
  simp [SocketState.send,hjoined.1,FanOutState.receipt]

theorem forceRejoinNonOwners_joined (h : FanOutOk home s) {roomId : String} {ownerId : UserId}
    (hjoined : s.Joined home ws roomId (· ≠ ownerId)) (p : RoomPublication) :
    ((s.forceRejoinNonOwners (home ws) roomId (some ownerId) p).sockets ws).isOpen = false := by
  have hmem := h.joined_mem hjoined
  obtain ⟨-,known,hknown,-,hother⟩ := hjoined
  show (forEachSocket _ _ _ ws).isOpen = false
  rw [forEachSocket_apply _ ((h.registry (home ws)).nodup roomId),if_pos hmem]
  simp [hknown,hother,SocketState.close]

omit [DecidableEq W] in
theorem ne_echo {node other : BroadcastNodeId} (h : other ≠ node) :
    ¬ (some other.1).filter (· ≠ "") = some node.1 := by
  intro heq
  rw [Option.filter_some,if_pos (by simpa using other.2)] at heq
  exact h (Subtype.ext (Option.some.inj heq))

/-- A genuine publication of another node is sent on. -/
theorem deliver_publication {t : FanOutState W} {node other : BroadcastNodeId} {kind : RoomPubSubKind}
    {roomId type : String} {ownerId : Option UserId} (hother : other ≠ node) (hroomId : roomId ≠ "")
    (hallowed : type ∈ ROOM_CHANNEL_ALLOWED_TYPES kind) :
    let p := s.publication other kind roomId type ownerId
    (t.deliverRoomPubSubMessage node kind p).2 =
      if type = admissionChangedType then t.forceRejoinNonOwners node roomId ownerId p
      else t.sendRawToRoom node roomId p := by
  intro p
  have hparse : parseRoomPrefixedKey p.channel kind.suffix = roomId :=
    kind.parse_channel roomId
  have hmessage : p.message = some (WiredEnvelope.mk (some type) (some ownerId) (some other.1)) :=
    rfl
  have hallows : kind.allows (some type) = true := by simpa [RoomPubSubKind.allows] using hallowed
  unfold FanOutState.deliverRoomPubSubMessage FanOutState.fanOutFromPubSub
  simp only [hparse,if_neg hroomId,hmessage,hallows,if_true,if_neg (ne_echo hother),Option.map_some,
    Option.some.injEq]
  by_cases hadmission : type = admissionChangedType
  · simp only [if_pos hadmission]
  · simp only [if_neg hadmission]

/-- What a node publishes comes to every socket that is in the room from then on. -/
theorem publish_arrives (h : FanOutOk home s) {node : BroadcastNodeId} {kind : RoomPubSubKind}
    {roomId : String} (hroomId : roomId ≠ "") {who : UserId → Prop}
    (hjoined : s.Joined home ws roomId who) {s' : FanOutState W}
    (hstep : fanOutStep home s (.publish node kind roomId) = some s') {t : FanOutState W}
    (ht : (fanOutRuns home s' (·.Joined home ws roomId who)).Reachable t) :
    let p := s.publication node kind roomId kind.envelopeType none
    p ∈ (t.sockets ws).received.map (·.publication) ∨
      (home ws ≠ node ∧ t.OnItsWay (home ws) p) := by
  intro p
  have hchannel : p.channel = kind.channel roomId := rfl
  have hallowed : kind.envelopeType ∈ ROOM_CHANNEL_ALLOWED_TYPES kind := by
    cases kind <;> decide
  have hplain : kind.envelopeType ≠ admissionChangedType := by cases kind <;> decide
  have hrun : FanOutOk home t ∧ (p ∈ (t.sockets ws).received.map (·.publication) ∨
      (home ws ≠ node ∧ t.OnItsWay (home ws) p)) := by
    refine ht.invariant (fun t => FanOutOk home t ∧
      (p ∈ (t.sockets ws).received.map (·.publication) ∨
        (home ws ≠ node ∧ t.OnItsWay (home ws) p))) ?_ ?_
    · intro t hinit
      have hinit : t = s' := hinit
      subst hinit
      refine ⟨h.step hstep,?_⟩
      cases hstep
      by_cases hat : home ws = node
      · subst hat
        exact .inl (h.sendRawToRoom_joined hjoined p)
      · exact .inr ⟨hat,.inl (List.mem_append_right _ (by simp [p]))⟩
    · rintro t a t' - ⟨hok,hstate⟩ ⟨hduring,hnext⟩
      refine ⟨hok.step hnext,?_⟩
      rcases hstate with hgot | ⟨hat,hway⟩
      · exact .inl (((hok.received_step hnext ws).map _).subset hgot)
      · rcases hok.onItsWay_step hnext hchannel hway with hstill | ⟨rest,hinbox,heq⟩
        · exact .inr ⟨hat,hstill⟩
        · left
          rw [heq,deliver_publication (Ne.symm hat) hroomId hallowed,if_neg hplain]
          exact (hok.dequeue hinbox).sendRawToRoom_joined hduring p
  exact hrun.2

/-- An admission change does not leave a socket of another user open where it has come. -/
theorem admissionChanged_arrives (h : FanOutOk home s) {node : BroadcastNodeId} {roomId : String}
    (hroomId : roomId ≠ "") {ownerId : UserId} (hjoined : s.Joined home ws roomId (· ≠ ownerId))
    {s' : FanOutState W}
    (hstep : fanOutStep home s (.publishAdmissionChanged node roomId ownerId) = some s')
    {t : FanOutState W}
    (ht : (fanOutRuns home s' (·.Joined home ws roomId (· ≠ ownerId))).Reachable t)
    (hopen : (t.sockets ws).isOpen = true) :
    home ws ≠ node ∧ t.OnItsWay (home ws)
      (s.publication node .control roomId admissionChangedType (some ownerId)) := by
  have hchannel : (s.publication node .control roomId admissionChangedType (some ownerId)).channel =
      RoomPubSubKind.control.channel roomId := rfl
  have hrun : FanOutOk home t ∧ ((t.sockets ws).isOpen = false ∨ (home ws ≠ node ∧
      t.OnItsWay (home ws)
        (s.publication node .control roomId admissionChangedType (some ownerId)))) := by
    refine ht.invariant (fun t => FanOutOk home t ∧ ((t.sockets ws).isOpen = false ∨
      (home ws ≠ node ∧ t.OnItsWay (home ws)
        (s.publication node .control roomId admissionChangedType (some ownerId))))) ?_ ?_
    · intro t hinit
      have hinit : t = s' := hinit
      subst hinit
      refine ⟨h.step hstep,?_⟩
      cases hstep
      by_cases hat : home ws = node
      · subst hat
        exact .inl (h.forceRejoinNonOwners_joined hjoined _)
      · exact .inr ⟨hat,.inl (List.mem_append_right _ (by simp))⟩
    · rintro t a t' - ⟨hok,hstate⟩ ⟨hduring,hnext⟩
      refine ⟨hok.step hnext,?_⟩
      rcases hstate with hclosed | ⟨hat,hway⟩
      · rw [hduring.1] at hclosed
        cases hclosed
      · rcases hok.onItsWay_step hnext hchannel hway with hstill | ⟨rest,hinbox,heq⟩
        · exact .inr ⟨hat,hstill⟩
        · left
          rw [heq,deliver_publication (Ne.symm hat) hroomId (by decide),if_pos rfl]
          exact (hok.dequeue hinbox).forceRejoinNonOwners_joined hduring _
  rcases hrun.2 with hclosed | hway
  · rw [hopen] at hclosed
    cases hclosed
  · exact hway

end FanOutOk

/-- Each socket gets each publication once at most, in its room, with a type that the channel
carries; those of its own node as they were published, the others in the one order of the shared
store. What is published while it is in the room reaches it, unless it is still on its way to its
node or lost to it; an admission change closes it, the owner's sockets apart. -/
theorem broadcast_fan_out [DecidableEq W] (home : W → BroadcastNodeId) {s : FanOutState W}
    (h : (fanOutSystem home).Reachable s) :
    (∀ ws, ((s.sockets ws).received.map (·.publication)).Nodup ∧
      ∀ r ∈ (s.sockets ws).received, r.Proper) ∧
    s.transmitted.Nodup ∧
    (∀ ws, (((s.sockets ws).received.map (·.publication)).filter
        (publishedAt home ws)).Sublist s.published ∧
      (((s.sockets ws).received.map (·.publication)).filter
        fun p => !publishedAt home ws p).Sublist s.transmitted) ∧
    ∀ ws node roomId, roomId ≠ "" →
      (∀ kind who s' t, s.Joined home ws roomId who →
        fanOutStep home s (.publish node kind roomId) = some s' →
        (fanOutRuns home s' (·.Joined home ws roomId who)).Reachable t →
        s.publication node kind roomId kind.envelopeType none ∈
            (t.sockets ws).received.map (·.publication) ∨
          (home ws ≠ node ∧
            t.OnItsWay (home ws) (s.publication node kind roomId kind.envelopeType none))) ∧
      ∀ ownerId s' t, s.Joined home ws roomId (· ≠ ownerId) →
        fanOutStep home s (.publishAdmissionChanged node roomId ownerId) = some s' →
        (fanOutRuns home s' (·.Joined home ws roomId (· ≠ ownerId))).Reachable t →
        (t.sockets ws).isOpen = true →
        home ws ≠ node ∧ t.OnItsWay (home ws)
          (s.publication node .control roomId admissionChangedType (some ownerId)) := by
  have hok := FanOutOk.of_reachable h
  have hlog := (List.nodup_append.mp hok.sentOnce).2.1
  refine ⟨fun ws => ⟨(hok.feed ws).nodup hok.publishedOnce hlog,hok.receipts ws⟩,hlog,fun ws => ?_,
    fun ws node roomId hroomId => ⟨?_,?_⟩⟩
  · exact ⟨(hok.feed ws).ownOrder,
      (List.sublist_append_left _ _).trans (hok.feed ws).otherOrder⟩
  · intro kind who s' t hjoined hstep ht
    exact hok.publish_arrives hroomId hjoined hstep ht
  · intro ownerId s' t hjoined hstep ht hopen
    exact hok.admissionChanged_arrives hroomId hjoined hstep ht hopen

end Arrival
end Invariant

def eastOrWest : Bool → BroadcastNodeId
  | true => ⟨"east",by decide⟩
  | false => ⟨"west",by decide⟩

/-- Ann at one node pauses the film, and then sets a password; Bob watches at another. -/
def annPauses : List (FanOutAction Bool) :=
  let join : UserId → AddSocketInput := fun userId =>
    { roomId := "film", userId := userId, controlAuthorized := true, isControlSession := false,
      sessionKind := .room }
  let wired : String → Option UserId → WiredEnvelope := fun type ownerId =>
    { type := some type, ownerId := some ownerId, originNodeId := some "east" }
  let publication : ℕ → WiredEnvelope → RoomPublication := fun serial wired =>
    { serial := serial, publisher := some (eastOrWest true), channel := "room:film:control",
      message := some wired }
  [.addSocket true (join "ann") "1",.addSocket false (join "bob") "2",
    .publish (eastOrWest true) .control "film",
    .transmit (publication 0 (wired "room:control" none)) fun _ => true,
    .deliver (eastOrWest false),.deliver (eastOrWest true),
    .publishAdmissionChanged (eastOrWest true) "film" "ann",
    .transmit (publication 1 (wired admissionChangedType (some "ann"))) fun _ => true,
    .deliver (eastOrWest false)]

theorem broadcast_fan_out_of_two_nodes : ∃ s : FanOutState Bool,
    (fanOutSystem eastOrWest).Reachable s ∧ (s.sockets true).received.length = 1 ∧
    (s.sockets false).received.length = 2 ∧ (s.sockets false).isOpen = false ∧
    ∀ ws, ((s.sockets ws).received.map (·.publication)).Nodup ∧
      ∀ r ∈ (s.sockets ws).received, r.Proper := by
  have hrun : ((TransitionSystem.runSteps (fanOutStep eastOrWest) {} annPauses).any fun s => decide ((s.sockets true).received.length = 1 ∧
          (s.sockets false).received.length = 2 ∧ (s.sockets false).isOpen = false)) = true := by
    decide +kernel
  obtain ⟨s,hs,hfacts⟩ := (Option.any_eq_true _ _).mp hrun
  obtain ⟨hann,hbob,hclosed⟩ := of_decide_eq_true hfacts
  have hreach : (fanOutSystem eastOrWest).Reachable s :=
    .of_runSteps (fun _ _ _ h => h) _ (.init rfl) hs
  exact ⟨s,hreach,hann,hbob,hclosed,(broadcast_fan_out _ hreach).1⟩

end WebSyncPlay
