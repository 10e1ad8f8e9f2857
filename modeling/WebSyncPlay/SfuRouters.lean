import WebSyncPlay.Library.TransitionSystem

/-! Routers, transports and data producers of the in-process SFU (`mediasoup-runtime.ts`): the
capabilities, create-transport and produce-data requests of any sockets, one awaited answer at a
time, with rooms that are closed in between. -/
namespace WebSyncPlay

open Library

def MAX_TRANSPORTS_PER_SOCKET : ℕ := 4

inductive SfuDirection
  | send
  | recv
  deriving DecidableEq

structure SfuRouter where
  id : ℕ
  roomKey : String
  deriving DecidableEq

/-- An open transport, the router it was created on and its `appData`. -/
structure SfuTransport where
  id : ℕ
  router : ℕ
  roomKey : String
  direction : SfuDirection
  deriving DecidableEq

structure LocalMediaSfuProducer where
  dataProducerId : ℕ
  roomId : String
  ownerUserId : String
  deriving DecidableEq

/-- A data producer and its `appData`. -/
structure SfuDataProducer where
  id : ℕ
  transportId : ℕ
  localMediaId : String
  roomId : String
  ownerUserId : String
  /-- `role === "requests"`, else it is a provider's. -/
  requests : Bool
  deriving DecidableEq

def SfuDataProducer.entry (p : SfuDataProducer) : LocalMediaSfuProducer :=
  ⟨p.id,p.roomId,p.ownerUserId⟩

@[simp] theorem SfuDataProducer.entry_dataProducerId (p : SfuDataProducer) :
    p.entry.dataProducerId = p.id := rfl

@[simp] theorem SfuDataProducer.entry_roomId (p : SfuDataProducer) :
    p.entry.roomId = p.roomId := rfl

/-- Where a capabilities or create-transport request stands. -/
inductive SfuPhase
  | lookingUp
  | creatingRouter
  /-- The router is in hand, `createWebRtcTransport` has not answered. -/
  | routed (router : ℕ)
  | created (transport : ℕ)
  deriving DecidableEq

structure SfuCall where
  socket : ℕ
  roomKey : String
  /-- The direction of the transport, none for capabilities. -/
  transport : Option SfuDirection
  phase : SfuPhase
  deriving DecidableEq

structure SfuSocket where
  isOpen : Bool := true
  owned : List ℕ := []

/-- The maps of the runtime in insertion order, and what waits for an answer. The map of maps
`localMediaRequestProducers` is one list of media ids with entries. -/
structure SfuRuntime where
  next : ℕ
  liveRouters : List SfuRouter
  routers : String → Option ℕ
  transports : List SfuTransport
  dataProducers : List SfuDataProducer
  localMediaProducers : List (String × LocalMediaSfuProducer)
  localMediaRequestProducers : List (String × LocalMediaSfuProducer)
  sockets : ℕ → SfuSocket
  calls : ℕ → Option SfuCall
  /-- `transport.produceData` calls: the producer to be, but for its id. -/
  produces : ℕ → Option SfuDataProducer

namespace SfuRuntime

def idle : SfuRuntime where
  next := 0
  liveRouters := []
  routers _ := none
  transports := []
  dataProducers := []
  localMediaProducers := []
  localMediaRequestProducers := []
  sockets _ := {}
  calls _ := none
  produces _ := none

/-- `dataProducer.close()` with its close observer. -/
def closeDataProducer (s : SfuRuntime) (id : ℕ) : SfuRuntime :=
  match s.dataProducers.find? fun p => p.id == id with
  | none => s
  | some p =>
    let others : String × LocalMediaSfuProducer → Bool := fun entry =>
      !(entry.1 == p.localMediaId && entry.2.dataProducerId == id)
    let s := { s with dataProducers := s.dataProducers.filter fun q => q.id != id }
    if p.requests then
      { s with localMediaRequestProducers := s.localMediaRequestProducers.filter others }
    else { s with localMediaProducers := s.localMediaProducers.filter others }

/-- `transport.close()`: its data producers close with it, then its observers run. -/
def closeTransport (s : SfuRuntime) (id : ℕ) : SfuRuntime :=
  match s.transports.find? fun t => t.id == id with
  | none => s
  | some _ =>
    let channels := (s.dataProducers.filter fun p => p.transportId == id).map SfuDataProducer.id
    let s := channels.foldl closeDataProducer s
    { s with
      transports := s.transports.filter fun t => t.id != id
      sockets := fun socket => { s.sockets socket with
        owned := (s.sockets socket).owned.filter fun owned => owned != id } }

/-- `router.close()`: its transports close with it. -/
def closeRouter (s : SfuRuntime) (router : ℕ) : SfuRuntime :=
  let transports := (s.transports.filter fun t => t.router == router).map SfuTransport.id
  let s := transports.foldl closeTransport s
  { s with liveRouters := s.liveRouters.filter fun q => q.id != router }

def clearLocalMediaSfuProducer (s : SfuRuntime) (localMediaId : String) : SfuRuntime :=
  let provider := s.localMediaProducers.find? fun entry => entry.1 == localMediaId
  let s := { s with
    localMediaProducers := s.localMediaProducers.filter fun entry => entry.1 != localMediaId }
  let s := provider.elim s fun entry => s.closeDataProducer entry.2.dataProducerId
  let requests := s.localMediaRequestProducers.filter fun entry => entry.1 == localMediaId
  let s := { s with
    localMediaRequestProducers :=
      s.localMediaRequestProducers.filter fun entry => entry.1 != localMediaId }
  (requests.map fun entry => entry.2.dataProducerId).foldl closeDataProducer s

/-- `byProducer.delete(producerId)` and the close of the data producer. -/
def closeRequestProducer (s : SfuRuntime) (entry : String × LocalMediaSfuProducer) :
    SfuRuntime :=
  closeDataProducer { s with
    localMediaRequestProducers := s.localMediaRequestProducers.filter fun other =>
      !(other.1 == entry.1 && other.2.dataProducerId == entry.2.dataProducerId) }
    entry.2.dataProducerId

def mediasoupCloseRoom (s : SfuRuntime) (roomKey : String) : SfuRuntime :=
  let providers := s.localMediaProducers.filter fun entry => entry.2.roomId == roomKey
  let s := (providers.map Prod.fst).foldl clearLocalMediaSfuProducer s
  let requests := s.localMediaRequestProducers.filter fun entry => entry.2.roomId == roomKey
  let s := requests.foldl closeRequestProducer s
  let transports := (s.transports.filter fun t => t.roomKey == roomKey).map SfuTransport.id
  let s := transports.foldl closeTransport s
  match s.routers roomKey with
  | none => s
  | some router =>
    { s.closeRouter router with routers := Function.update s.routers roomKey none }

def setCall (s : SfuRuntime) (c : ℕ) (call : Option SfuCall) : SfuRuntime :=
  { s with calls := Function.update s.calls c call }

def setProduce (s : SfuRuntime) (d : ℕ) (produce : Option SfuDataProducer) : SfuRuntime :=
  { s with produces := Function.update s.produces d produce }

/-- A router is in hand: capabilities has its answer, else a transport is created on it. -/
def routed (s : SfuRuntime) (c : ℕ) (call : SfuCall) (router : ℕ) : SfuRuntime :=
  match call.transport with
  | none => s.setCall c none
  | some _ => s.setCall c (some { call with phase := .routed router })

def addRouter (s : SfuRuntime) (roomKey : String) : SfuRuntime :=
  { s with
    next := s.next+1
    liveRouters := s.liveRouters ++ [⟨s.next,roomKey⟩]
    routers := Function.update s.routers roomKey (some s.next) }

def addTransport (s : SfuRuntime) (router : ℕ) (roomKey : String) (direction : SfuDirection) :
    SfuRuntime :=
  { s with
    next := s.next+1
    transports := s.transports ++ [⟨s.next,router,roomKey,direction⟩] }

/-- What `mediasoupProduceData` does with the answer: the latest provider of a media id wins. -/
def addDataProducer (s : SfuRuntime) (produce : SfuDataProducer) : SfuRuntime :=
  let p := { produce with id := s.next }
  let s := { s with next := s.next+1, dataProducers := s.dataProducers ++ [p] }
  if p.requests then
    { s with
      localMediaRequestProducers := s.localMediaRequestProducers ++ [(p.localMediaId,p.entry)] }
  else
    { s with
      localMediaProducers :=
        (s.localMediaProducers.filter fun entry => entry.1 != p.localMediaId) ++
          [(p.localMediaId,p.entry)] }

def own (s : SfuRuntime) (socket transport : ℕ) : SfuRuntime :=
  { s with
    sockets := Function.update s.sockets socket
      { s.sockets socket with owned := (s.sockets socket).owned ++ [transport] } }

def closeSocket (s : SfuRuntime) (socket : ℕ) : SfuRuntime :=
  let s := { s with
    sockets := Function.update s.sockets socket { s.sockets socket with isOpen := false } }
  (s.sockets socket).owned.foldl closeTransport s

end SfuRuntime

inductive SfuCallStep
  | lookupRouter
  | routerCreated
  | routerFails
  | transportCreated
  | transportFails
  /-- The create-transport handler goes on with its transport. -/
  | ownTransport

inductive SfuRouterStep
  | capabilities (c socket : ℕ) (roomKey : String)
  | createTransport (c socket : ℕ) (roomKey : String) (direction : SfuDirection)
  | call (c : ℕ) (a : SfuCallStep)
  | produceData (d socket transportId : ℕ) (roomId localMediaId ownerUserId : String)
    (requests : Bool)
  | produced (d : ℕ)
  | produceFails (d : ℕ)
  | closeDataProducer (id : ℕ)
  | closeTransport (id : ℕ)
  | closeSocket (socket : ℕ)
  | closeRoom (roomKey : String)

def sfuCallStep (s : SfuRuntime) (c : ℕ) (call : SfuCall) : SfuCallStep → Option SfuRuntime
  | .lookupRouter =>
    match call.phase with
    | .lookingUp =>
      match s.routers call.roomKey with
      | some router => some (s.routed c call router)
      | none => some (s.setCall c (some { call with phase := .creatingRouter }))
    | _ => none
  | .routerCreated =>
    match call.phase with
    | .creatingRouter => some ((s.addRouter call.roomKey).routed c call s.next)
    | _ => none
  | .routerFails =>
    match call.phase with
    | .creatingRouter => some (s.setCall c none)
    | _ => none
  | .transportCreated =>
    match call.phase,call.transport with
    | .routed router,some direction =>
      some ((s.addTransport router call.roomKey direction).setCall c
        (some { call with phase := .created s.next }))
    | _,_ => none
  | .transportFails =>
    match call.phase with
    | .routed _ => some (s.setCall c none)
    | _ => none
  | .ownTransport =>
    match call.phase with
    | .created transport =>
      if (s.sockets call.socket).isOpen = false then
        some ((s.closeTransport transport).setCall c none)
      else if (s.transports.any fun t => t.id == transport) = true then
        some ((s.own call.socket transport).setCall c none)
      else some (s.setCall c none)
    | _ => none

def sfuRouterStep (s : SfuRuntime) : SfuRouterStep → Option SfuRuntime
  | .capabilities c socket roomKey =>
    if (s.calls c).isSome then none
    else some (s.setCall c (some ⟨socket,roomKey,none,.lookingUp⟩))
  | .createTransport c socket roomKey direction =>
    if (s.calls c).isSome ∨ MAX_TRANSPORTS_PER_SOCKET ≤ (s.sockets socket).owned.length then none
    else some (s.setCall c (some ⟨socket,roomKey,some direction,.lookingUp⟩))
  | .call c a => (s.calls c).bind fun call => sfuCallStep s c call a
  | .produceData d socket transportId roomId localMediaId ownerUserId requests =>
    if (s.produces d).isSome ∨ transportId ∉ (s.sockets socket).owned then none
    else
      match s.transports.find? fun t => t.id == transportId with
      | none => none
      | some t =>
        if t.roomKey = roomId ∧ t.direction = .send then
          some (s.setProduce d
            (some ⟨0,transportId,localMediaId,roomId,ownerUserId,requests⟩))
        else none
  | .produced d => (s.produces d).map fun produce => (s.addDataProducer produce).setProduce d none
  | .produceFails d => (s.produces d).map fun _ => s.setProduce d none
  | .closeDataProducer id => some (s.closeDataProducer id)
  | .closeTransport id => some (s.closeTransport id)
  | .closeSocket socket => some (s.closeSocket socket)
  | .closeRoom roomKey => some (s.mediasoupCloseRoom roomKey)

def sfuRouterSystem : TransitionSystem SfuRuntime SfuRouterStep where
  init s := s = .idle
  step s a s' := sfuRouterStep s a = some s'

/-- Where a media id has a provider of the room, its request channels are of the room too. -/
def SfuRuntime.MediaOfRoom (s : SfuRuntime) (roomKey : String) : Prop :=
  ∀ localMediaId entry request, (localMediaId,entry) ∈ s.localMediaProducers →
    (localMediaId,request) ∈ s.localMediaRequestProducers → entry.roomId = roomKey →
      request.roomId = roomKey

/-- What a step must find so that a room keeps to one router. -/
def SfuGuard (s : SfuRuntime) : SfuRouterStep → Prop
  | .call c .routerCreated => ∀ call, s.calls c = some call → s.routers call.roomKey = none
  | .produced d => ∀ produce, s.produces d = some produce → produce.requests = false →
      ∀ entry, (produce.localMediaId,entry) ∈ s.localMediaProducers → ∀ p ∈ s.dataProducers,
        p.id = entry.dataProducerId → ∃ t ∈ s.transports, t.id = p.transportId
  | .closeRoom roomKey => ∀ c call router, s.calls c = some call → call.phase = .routed router →
      call.roomKey ≠ roomKey
  | _ => True

namespace SfuRuntime

/-- Every open transport is on the router that is registered for its room. -/
def OneRouter (s : SfuRuntime) : Prop :=
  ∀ t ∈ s.transports, s.routers t.roomKey = some t.router

/-- Nothing of the room is left. -/
structure RoomGone (s : SfuRuntime) (roomKey : String) : Prop where
  routers : s.routers roomKey = none
  liveRouters : ∀ q ∈ s.liveRouters, q.roomKey ≠ roomKey
  transports : ∀ t ∈ s.transports, t.roomKey ≠ roomKey
  dataProducers : ∀ p ∈ s.dataProducers, p.roomId ≠ roomKey
  localMediaProducers : ∀ entry ∈ s.localMediaProducers, entry.2.roomId ≠ roomKey
  localMediaRequestProducers : ∀ entry ∈ s.localMediaRequestProducers, entry.2.roomId ≠ roomKey

/-- All that other rooms have is as before. -/
structure SameElsewhere (s s' : SfuRuntime) (roomKey : String) : Prop where
  routers : ∀ other, other ≠ roomKey → s'.routers other = s.routers other
  liveRouters : ∀ q, q.roomKey ≠ roomKey → (q ∈ s'.liveRouters ↔ q ∈ s.liveRouters)
  transports : ∀ t, t.roomKey ≠ roomKey → (t ∈ s'.transports ↔ t ∈ s.transports)
  dataProducers : ∀ p, p.roomId ≠ roomKey → (p ∈ s'.dataProducers ↔ p ∈ s.dataProducers)
  localMediaProducers : ∀ entry, entry.2.roomId ≠ roomKey →
    (entry ∈ s'.localMediaProducers ↔ entry ∈ s.localMediaProducers)
  localMediaRequestProducers : ∀ entry, entry.2.roomId ≠ roomKey →
    (entry ∈ s'.localMediaRequestProducers ↔ entry ∈ s.localMediaRequestProducers)

end SfuRuntime

section Discard

variable {s : SfuRuntime}

namespace SfuRuntime

/-- Some data producers, with their registry entries, and some transports are gone. -/
def discard (s : SfuRuntime) (channels transports : ℕ → Bool) : SfuRuntime :=
  { s with
    dataProducers := s.dataProducers.filter fun p => !channels p.id
    localMediaProducers := s.localMediaProducers.filter fun e => !channels e.2.dataProducerId
    localMediaRequestProducers :=
      s.localMediaRequestProducers.filter fun e => !channels e.2.dataProducerId
    transports := s.transports.filter fun t => !transports t.id
    sockets := fun socket => { s.sockets socket with
      owned := (s.sockets socket).owned.filter fun owned => !transports owned } }

def noTransport : ℕ → Bool := fun _ => false

def channelsOf (s : SfuRuntime) (transports : ℕ → Bool) (i : ℕ) : Bool :=
  s.dataProducers.any fun p => p.id == i && transports p.transportId

def openOf (s : SfuRuntime) (ids : List ℕ) (i : ℕ) : Bool :=
  ids.contains i && s.transports.any fun t => t.id == i

/-- The data producers that are registered for a media id. -/
def entryChannels (entries : List (String × LocalMediaSfuProducer)) (localMediaId : String)
    (i : ℕ) : Bool :=
  entries.any fun e => e.1 == localMediaId && e.2.dataProducerId == i

def mediaChannels (s : SfuRuntime) (localMediaId : String) (i : ℕ) : Bool :=
  entryChannels s.localMediaProducers localMediaId i ||
    entryChannels s.localMediaRequestProducers localMediaId i

/-- Each registry entry is that of a data producer. -/
structure Matching (s : SfuRuntime) : Prop where
  producerIds : ∀ p ∈ s.dataProducers, ∀ q ∈ s.dataProducers, p.id = q.id → p = q
  providerEntry : ∀ e ∈ s.localMediaProducers, ∃ p ∈ s.dataProducers,
    p.requests = false ∧ e = (p.localMediaId,p.entry)
  requestEntry : ∀ e ∈ s.localMediaRequestProducers, ∃ p ∈ s.dataProducers,
    p.requests = true ∧ e = (p.localMediaId,p.entry)
  oneProvider : ∀ e ∈ s.localMediaProducers, ∀ e' ∈ s.localMediaProducers, e.1 = e'.1 → e = e'

theorem discard_discard (c t c' t' : ℕ → Bool) :
    (s.discard c t).discard c' t' =
      s.discard (fun i => c i || c' i) (fun i => t i || t' i) := by
  simp [discard,List.filter_filter,Bool.and_comm]

theorem discard_congr {c c' t t' : ℕ → Bool} (hc : ∀ i, c i = c' i) (ht : ∀ i, t i = t' i) :
    s.discard c t = s.discard c' t' := by
  rw [funext hc,funext ht]

theorem discard_nothing : s.discard noTransport noTransport = s := by
  simp [discard,noTransport]

theorem channelsOf_noTransport : s.channelsOf noTransport = noTransport := by
  funext i
  simp [channelsOf,noTransport]

theorem mem_discard_dataProducers {c t : ℕ → Bool} {p : SfuDataProducer} :
    p ∈ (s.discard c t).dataProducers ↔ p ∈ s.dataProducers ∧ c p.id = false := by
  simp [discard]

theorem mem_discard_transports {c t : ℕ → Bool} {transport : SfuTransport} :
    transport ∈ (s.discard c t).transports ↔
      transport ∈ s.transports ∧ t transport.id = false := by
  simp [discard]

theorem mem_discard_localMediaProducers {c t : ℕ → Bool} {e : String × LocalMediaSfuProducer} :
    e ∈ (s.discard c t).localMediaProducers ↔
      e ∈ s.localMediaProducers ∧ c e.2.dataProducerId = false := by
  simp [discard]

theorem mem_discard_localMediaRequestProducers {c t : ℕ → Bool}
    {e : String × LocalMediaSfuProducer} :
    e ∈ (s.discard c t).localMediaRequestProducers ↔
      e ∈ s.localMediaRequestProducers ∧ c e.2.dataProducerId = false := by
  simp [discard]

theorem discard_noTransport (c : ℕ → Bool) : s.discard c noTransport = { s with
    dataProducers := s.dataProducers.filter fun p => !c p.id
    localMediaProducers := s.localMediaProducers.filter fun e => !c e.2.dataProducerId
    localMediaRequestProducers :=
      s.localMediaRequestProducers.filter fun e => !c e.2.dataProducerId } := by
  simp [discard,noTransport]

theorem openOf_eq_true {ids : List ℕ} {i : ℕ} :
    s.openOf ids i = true ↔ i ∈ ids ∧ ∃ t ∈ s.transports, t.id = i := by
  simp [openOf]

theorem Matching.discard (h : s.Matching) (c t : ℕ → Bool) : (s.discard c t).Matching := by
  constructor
  · intro p hp q hq
    exact h.producerIds p (List.mem_filter.mp hp).1 q (List.mem_filter.mp hq).1
  · intro e he
    obtain ⟨he,hkept⟩ := List.mem_filter.mp he
    obtain ⟨p,hp,hrole,rfl⟩ := h.providerEntry e he
    exact ⟨p,List.mem_filter.mpr ⟨hp,hkept⟩,hrole,rfl⟩
  · intro e he
    obtain ⟨he,hkept⟩ := List.mem_filter.mp he
    obtain ⟨p,hp,hrole,rfl⟩ := h.requestEntry e he
    exact ⟨p,List.mem_filter.mpr ⟨hp,hkept⟩,hrole,rfl⟩
  · intro e he e' he'
    exact h.oneProvider e (List.mem_filter.mp he).1 e' (List.mem_filter.mp he').1

theorem Matching.forget (h : s.Matching) (f g : String × LocalMediaSfuProducer → Bool) :
    Matching { s with
      localMediaProducers := s.localMediaProducers.filter f
      localMediaRequestProducers := s.localMediaRequestProducers.filter g } := by
  constructor
  · exact h.producerIds
  · exact fun e he => h.providerEntry e (List.mem_filter.mp he).1
  · exact fun e he => h.requestEntry e (List.mem_filter.mp he).1
  · exact fun e he e' he' => h.oneProvider e (List.mem_filter.mp he).1 e' (List.mem_filter.mp he').1

theorem Matching.closeDataProducer (h : s.Matching) (id : ℕ) :
    s.closeDataProducer id = s.discard (fun i => i == id) noTransport := by
  rw [discard_noTransport,SfuRuntime.closeDataProducer]
  cases hfind : s.dataProducers.find? fun p => p.id == id with
  | none =>
    have hnone : ∀ p ∈ s.dataProducers, p.id ≠ id := by
      intro p hp heq
      simpa [heq] using List.find?_eq_none.mp hfind p hp
    have hproducers : s.dataProducers.filter (fun p => !(p.id == id)) = s.dataProducers := by
      refine List.filter_eq_self.mpr fun p hp => ?_
      simpa using hnone p hp
    have hproviders : s.localMediaProducers.filter (fun e => !(e.2.dataProducerId == id)) =
        s.localMediaProducers := by
      refine List.filter_eq_self.mpr fun e he => ?_
      obtain ⟨p,hp,-,rfl⟩ := h.providerEntry e he
      simpa using hnone p hp
    have hrequests : s.localMediaRequestProducers.filter
        (fun e => !(e.2.dataProducerId == id)) = s.localMediaRequestProducers := by
      refine List.filter_eq_self.mpr fun e he => ?_
      obtain ⟨p,hp,-,rfl⟩ := h.requestEntry e he
      simpa using hnone p hp
    rw [hproducers,hproviders,hrequests]
  | some p =>
    have hp := List.mem_of_find?_eq_some hfind
    obtain rfl : p.id = id := by simpa using List.find?_some hfind
    have hsame : ∀ q ∈ s.dataProducers, q.id = p.id → q = p :=
      fun q hq heq => h.producerIds q hq p hp heq
    cases hrole : p.requests with
    | true =>
      have hproviders : s.localMediaProducers.filter (fun e => !(e.2.dataProducerId == p.id)) =
          s.localMediaProducers := by
        refine List.filter_eq_self.mpr fun e he => ?_
        obtain ⟨q,hq,hprovider,rfl⟩ := h.providerEntry e he
        by_contra hid
        have hid : q.id = p.id := by simpa using hid
        rw [hsame q hq hid,hrole] at hprovider
        cases hprovider
      have hrequests : s.localMediaRequestProducers.filter (fun e =>
          !(e.1 == p.localMediaId && e.2.dataProducerId == p.id)) =
            s.localMediaRequestProducers.filter fun e => !(e.2.dataProducerId == p.id) := by
        refine List.filter_congr fun e he => ?_
        obtain ⟨q,hq,-,rfl⟩ := h.requestEntry e he
        by_cases hid : q.id = p.id
        · simp [hsame q hq hid]
        · simp [SfuDataProducer.entry,hid]
      simp only [hrole,if_true]
      rw [hproviders,hrequests]
      rfl
    | false =>
      have hrequests : s.localMediaRequestProducers.filter
          (fun e => !(e.2.dataProducerId == p.id)) = s.localMediaRequestProducers := by
        refine List.filter_eq_self.mpr fun e he => ?_
        obtain ⟨q,hq,hrequest,rfl⟩ := h.requestEntry e he
        by_contra hid
        have hid : q.id = p.id := by simpa using hid
        rw [hsame q hq hid,hrole] at hrequest
        cases hrequest
      have hproviders : s.localMediaProducers.filter (fun e =>
          !(e.1 == p.localMediaId && e.2.dataProducerId == p.id)) =
            s.localMediaProducers.filter fun e => !(e.2.dataProducerId == p.id) := by
        refine List.filter_congr fun e he => ?_
        obtain ⟨q,hq,-,rfl⟩ := h.providerEntry e he
        by_cases hid : q.id = p.id
        · simp [hsame q hq hid]
        · simp [SfuDataProducer.entry,hid]
      simp only [hrole]
      rw [hproviders,hrequests]
      rfl

theorem Matching.closeDataProducers (h : s.Matching) (ids : List ℕ) :
    ids.foldl SfuRuntime.closeDataProducer s =
      s.discard (fun i => ids.contains i) noTransport := by
  induction ids generalizing s with
  | nil => simp [discard_noTransport]
  | cons id ids ih =>
    rw [List.foldl_cons,h.closeDataProducer,ih (h.discard _ _),discard_discard]
    refine discard_congr (fun i => ?_) fun _ => rfl
    rw [List.contains_cons]

theorem Matching.closeTransport (h : s.Matching) (id : ℕ) :
    s.closeTransport id = s.discard (s.channelsOf (s.openOf [id])) (s.openOf [id]) := by
  rw [SfuRuntime.closeTransport]
  cases hfind : s.transports.find? fun t => t.id == id with
  | none =>
    have hopen : s.openOf [id] = noTransport := by
      funext i
      have hnone := List.find?_eq_none.mp hfind
      by_contra hi
      obtain ⟨rfl,t,ht,rfl⟩ : i = id ∧ ∃ t ∈ s.transports, t.id = i := by
        simpa [openOf,noTransport] using hi
      exact hnone t ht (by simp)
    rw [hopen,channelsOf_noTransport,discard_nothing]
  | some t =>
    have ht := List.mem_of_find?_eq_some hfind
    obtain rfl : t.id = id := by simpa using List.find?_some hfind
    have hopen : s.openOf [t.id] = fun i => i == t.id := by
      funext i
      rw [Bool.eq_iff_iff]
      constructor
      · intro hi
        simpa [openOf] using (Bool.and_eq_true_iff.mp hi).1
      · intro hi
        have hi : i = t.id := by simpa using hi
        subst hi
        simpa [openOf] using ⟨t,ht,rfl⟩
    have hchannels : ∀ i, ((s.dataProducers.filter fun p => p.transportId == t.id).map
        SfuDataProducer.id).contains i = s.channelsOf (fun i => i == t.id) i := by
      intro i
      rw [Bool.eq_iff_iff]
      simp only [channelsOf,List.contains_iff_mem,List.mem_map,List.mem_filter,List.any_eq_true,
        Bool.and_eq_true,beq_iff_eq]
      constructor
      · rintro ⟨p,⟨hp,ht⟩,hi⟩
        exact ⟨p,hp,hi,ht⟩
      · rintro ⟨p,hp,hi,ht⟩
        exact ⟨p,⟨hp,ht⟩,hi⟩
    dsimp only
    rw [h.closeDataProducers,hopen,discard_noTransport]
    simp only [hchannels]
    rfl

theorem Matching.closeTransports (h : s.Matching) (ids : List ℕ) :
    ids.foldl SfuRuntime.closeTransport s =
      s.discard (s.channelsOf (s.openOf ids)) (s.openOf ids) := by
  induction ids generalizing s with
  | nil =>
    have hopen : s.openOf [] = noTransport := by
      funext i
      rfl
    rw [hopen,channelsOf_noTransport,discard_nothing]
    rfl
  | cons id ids ih =>
    have hopen : ∀ i, (s.openOf [id] i ||
        (s.discard (s.channelsOf (s.openOf [id])) (s.openOf [id])).openOf ids i) =
          s.openOf (id :: ids) i := by
      intro i
      rw [Bool.eq_iff_iff,Bool.or_eq_true,openOf_eq_true,openOf_eq_true,openOf_eq_true]
      constructor
      · rintro (⟨hi,t,ht,rfl⟩ | ⟨hi,t,ht,rfl⟩)
        · exact ⟨List.mem_cons.mpr (Or.inl (List.mem_singleton.mp hi)),t,ht,rfl⟩
        · exact ⟨List.mem_cons_of_mem _ hi,t,(mem_discard_transports.mp ht).1,rfl⟩
      · rintro ⟨hi,t,ht,rfl⟩
        by_cases hsame : t.id = id
        · exact Or.inl ⟨List.mem_singleton.mpr hsame,t,ht,rfl⟩
        · refine Or.inr ⟨(List.mem_cons.mp hi).resolve_left hsame,t,?_,rfl⟩
          exact mem_discard_transports.mpr ⟨ht,by simp [openOf,hsame]⟩
    rw [List.foldl_cons,h.closeTransport,ih (h.discard _ _),discard_discard]
    refine discard_congr (fun i => ?_) hopen
    rw [Bool.eq_iff_iff]
    simp only [channelsOf,Bool.or_eq_true,List.any_eq_true,Bool.and_eq_true,beq_iff_eq]
    constructor
    · rintro (⟨p,hp,rfl,ht⟩ | ⟨p,hp,rfl,ht⟩)
      · exact ⟨p,hp,rfl,by rw [← hopen,ht,Bool.true_or]⟩
      · exact ⟨p,(mem_discard_dataProducers.mp hp).1,rfl,by rw [← hopen,ht,Bool.or_true]⟩
    · rintro ⟨p,hp,rfl,ht⟩
      by_cases hgone : ∃ q ∈ s.dataProducers, q.id = p.id ∧ s.openOf [id] q.transportId = true
      · exact Or.inl hgone
      · right
        rw [← hopen,Bool.or_eq_true] at ht
        rcases ht with ht | ht
        · exact (hgone ⟨p,hp,rfl,ht⟩).elim
        · refine ⟨p,mem_discard_dataProducers.mpr ⟨hp,?_⟩,rfl,ht⟩
          simpa [channelsOf] using hgone

theorem entryChannels_eq_true {entries : List (String × LocalMediaSfuProducer)}
    {localMediaId : String} {i : ℕ} : entryChannels entries localMediaId i = true ↔
      ∃ e, (localMediaId,e) ∈ entries ∧ e.dataProducerId = i := by
  simp only [entryChannels,List.any_eq_true,Bool.and_eq_true,beq_iff_eq,Prod.exists]
  constructor
  · rintro ⟨m,e,he,rfl,hi⟩
    exact ⟨e,he,hi⟩
  · rintro ⟨e,he,hi⟩
    exact ⟨localMediaId,e,he,rfl,hi⟩

theorem mediaChannels_eq_true {localMediaId : String} {i : ℕ} :
    s.mediaChannels localMediaId i = true ↔
      (∃ e, (localMediaId,e) ∈ s.localMediaProducers ∧ e.dataProducerId = i) ∨
        ∃ e, (localMediaId,e) ∈ s.localMediaRequestProducers ∧ e.dataProducerId = i := by
  rw [mediaChannels,Bool.or_eq_true,entryChannels_eq_true,entryChannels_eq_true]

theorem Matching.mediaChannels_request (h : s.Matching) {e : String × LocalMediaSfuProducer}
    (he : e ∈ s.localMediaRequestProducers) (localMediaId : String) :
    s.mediaChannels localMediaId e.2.dataProducerId = true ↔ e.1 = localMediaId := by
  obtain ⟨p,hp,hrole,rfl⟩ := h.requestEntry e he
  rw [mediaChannels_eq_true]
  constructor
  · rintro (⟨e',he',hid⟩ | ⟨e',he',hid⟩)
    · obtain ⟨q,hq,hprovider,heq⟩ := h.providerEntry _ he'
      obtain ⟨rfl,rfl⟩ := Prod.mk.inj heq
      rw [h.producerIds q hq p hp hid,hrole] at hprovider
      cases hprovider
    · obtain ⟨q,hq,-,heq⟩ := h.requestEntry _ he'
      obtain ⟨rfl,rfl⟩ := Prod.mk.inj heq
      rw [h.producerIds q hq p hp hid]
  · rintro rfl
    exact Or.inr ⟨p.entry,he,rfl⟩

theorem Matching.clearProvider (h : s.Matching) (localMediaId : String) :
    (s.localMediaProducers.find? fun e => e.1 == localMediaId).elim
      { s with localMediaProducers := s.localMediaProducers.filter fun e => e.1 != localMediaId }
      (fun e => SfuRuntime.closeDataProducer { s with
        localMediaProducers := s.localMediaProducers.filter fun e => e.1 != localMediaId }
          e.2.dataProducerId) =
      s.discard (entryChannels s.localMediaProducers localMediaId) noTransport := by
  have hforget := h.forget (fun e => e.1 != localMediaId) fun _ => true
  rw [List.filter_true] at hforget
  cases hfind : s.localMediaProducers.find? fun e => e.1 == localMediaId with
  | none =>
    have hnone : ∀ e ∈ s.localMediaProducers, e.1 ≠ localMediaId := by
      intro e he heq
      simpa [heq] using List.find?_eq_none.mp hfind e he
    have hall : s.localMediaProducers.filter (fun e => e.1 != localMediaId) =
        s.localMediaProducers := by
      refine List.filter_eq_self.mpr fun e he => ?_
      simpa using hnone e he
    have hchannels : entryChannels s.localMediaProducers localMediaId = noTransport := by
      funext i
      refine List.any_eq_false.mpr fun e he => ?_
      simp [hnone e he]
    rw [hchannels,discard_nothing,Option.elim_none,hall]
  | some e =>
    have he := List.mem_of_find?_eq_some hfind
    obtain rfl : e.1 = localMediaId := by simpa using List.find?_some hfind
    have hchannels : entryChannels s.localMediaProducers e.1 =
        fun i => i == e.2.dataProducerId := by
      funext i
      rw [Bool.eq_iff_iff,entryChannels_eq_true,beq_iff_eq]
      constructor
      · rintro ⟨e',he',rfl⟩
        rw [← h.oneProvider (e.1,e') he' e he rfl]
      · rintro rfl
        exact ⟨e.2,he,rfl⟩
    have hentries : (s.localMediaProducers.filter fun e' => e'.1 != e.1).filter
        (fun e' => !(e'.2.dataProducerId == e.2.dataProducerId)) =
          s.localMediaProducers.filter fun e' => !(e'.2.dataProducerId == e.2.dataProducerId) := by
      rw [List.filter_filter]
      refine List.filter_congr fun e' he' => ?_
      by_cases hmedia : e'.1 = e.1
      · rw [h.oneProvider e' he' e he hmedia]
        simp
      · simp [hmedia]
    rw [Option.elim_some,hforget.closeDataProducer,hchannels,discard_noTransport,
      discard_noTransport]
    dsimp only
    rw [hentries]

theorem Matching.clearLocalMediaSfuProducer (h : s.Matching) (localMediaId : String) :
    s.clearLocalMediaSfuProducer localMediaId =
      s.discard (s.mediaChannels localMediaId) noTransport := by
  rw [SfuRuntime.clearLocalMediaSfuProducer,h.clearProvider]
  have hmatch := h.discard (entryChannels s.localMediaProducers localMediaId) noTransport
  -- a provider's data producer has no request entry
  have hrequests : (s.discard (entryChannels s.localMediaProducers localMediaId)
      noTransport).localMediaRequestProducers = s.localMediaRequestProducers := by
    refine List.filter_eq_self.mpr fun e he => ?_
    obtain ⟨p,hp,hrequest,rfl⟩ := h.requestEntry e he
    rw [Bool.not_eq_true',Bool.eq_false_iff,ne_eq,entryChannels_eq_true]
    rintro ⟨e',he',hid⟩
    obtain ⟨q,hq,hprovider,heq⟩ := h.providerEntry _ he'
    obtain ⟨rfl,rfl⟩ := Prod.mk.inj heq
    rw [h.producerIds q hq p hp hid,hrequest] at hprovider
    cases hprovider
  have hforget := hmatch.forget (fun _ => true) fun e => e.1 != localMediaId
  rw [List.filter_true,hrequests] at hforget
  have hids : ∀ i, ((s.localMediaRequestProducers.filter fun e => e.1 == localMediaId).map
      fun e => e.2.dataProducerId).contains i =
        entryChannels s.localMediaRequestProducers localMediaId i := by
    intro i
    rw [Bool.eq_iff_iff,entryChannels_eq_true]
    simp only [List.contains_iff_mem,List.mem_map,List.mem_filter,beq_iff_eq,Prod.exists]
    constructor
    · rintro ⟨m,e,⟨he,rfl⟩,hi⟩
      exact ⟨e,he,hi⟩
    · rintro ⟨e,he,hi⟩
      exact ⟨localMediaId,e,⟨he,rfl⟩,hi⟩
  have hentries : (s.localMediaRequestProducers.filter fun e => e.1 != localMediaId).filter
      (fun e => !entryChannels s.localMediaRequestProducers localMediaId e.2.dataProducerId) =
        s.localMediaRequestProducers.filter fun e =>
          !s.mediaChannels localMediaId e.2.dataProducerId := by
    rw [List.filter_filter]
    refine List.filter_congr fun e he => ?_
    have hmedia := h.mediaChannels_request he localMediaId
    by_cases hsame : e.1 = localMediaId
    · simp [hsame,hmedia.mpr hsame]
    · have hnot : s.mediaChannels localMediaId e.2.dataProducerId = false := by
        simpa using mt hmedia.mp hsame
      have hentry := (Bool.or_eq_false_iff.mp hnot).2
      simp [hsame,hnot,hentry]
  rw [hrequests,hforget.closeDataProducers,discard_noTransport,discard_noTransport,
    discard_noTransport]
  simp only [hids,hentries,List.filter_filter]
  simp only [mediaChannels,Bool.not_or,Bool.and_comm]

theorem Matching.clearProducers (h : s.Matching) (ids : List String) :
    ids.foldl SfuRuntime.clearLocalMediaSfuProducer s =
      s.discard (fun i => ids.any fun localMediaId => s.mediaChannels localMediaId i)
        noTransport := by
  induction ids generalizing s with
  | nil => exact discard_nothing.symm
  | cons id ids ih =>
    rw [List.foldl_cons,h.clearLocalMediaSfuProducer,ih (h.discard _ _),discard_discard]
    refine discard_congr (fun i => ?_) fun _ => rfl
    by_cases hfirst : s.mediaChannels id i = true
    · rw [List.any_cons,hfirst,Bool.true_or,Bool.true_or]
    · have hkept : ∀ localMediaId, (s.discard (s.mediaChannels id)
          noTransport).mediaChannels localMediaId i = s.mediaChannels localMediaId i := by
        intro localMediaId
        rw [Bool.eq_iff_iff,mediaChannels_eq_true,mediaChannels_eq_true]
        refine or_congr (exists_congr fun e => ?_) (exists_congr fun e => ?_)
        · rw [and_congr_left_iff]
          rintro rfl
          exact mem_discard_localMediaProducers.trans (and_iff_left (by simpa using hfirst))
        · rw [and_congr_left_iff]
          rintro rfl
          exact mem_discard_localMediaRequestProducers.trans (and_iff_left (by simpa using hfirst))
      simp only [hkept,List.any_cons]

theorem Matching.closeRequestProducer (h : s.Matching) (e : String × LocalMediaSfuProducer) :
    s.closeRequestProducer e =
      s.discard (fun i => i == e.2.dataProducerId) noTransport := by
  have hforget := h.forget (fun _ => true) fun other =>
    !(other.1 == e.1 && other.2.dataProducerId == e.2.dataProducerId)
  rw [List.filter_true] at hforget
  have hentries : (s.localMediaRequestProducers.filter fun other =>
      !(other.1 == e.1 && other.2.dataProducerId == e.2.dataProducerId)).filter
        (fun other => !(other.2.dataProducerId == e.2.dataProducerId)) =
          s.localMediaRequestProducers.filter fun other =>
            !(other.2.dataProducerId == e.2.dataProducerId) := by
    rw [List.filter_filter]
    refine List.filter_congr fun other _ => ?_
    by_cases hid : other.2.dataProducerId = e.2.dataProducerId
    · simp [hid]
    · simp [hid]
  rw [SfuRuntime.closeRequestProducer,hforget.closeDataProducer,discard_noTransport,
    discard_noTransport]
  dsimp only
  rw [hentries]

theorem Matching.closeRequestProducers (h : s.Matching)
    (entries : List (String × LocalMediaSfuProducer)) :
    entries.foldl SfuRuntime.closeRequestProducer s =
      s.discard (fun i => entries.any fun e => i == e.2.dataProducerId) noTransport := by
  induction entries generalizing s with
  | nil => exact discard_nothing.symm
  | cons e entries ih =>
    rw [List.foldl_cons,h.closeRequestProducer,ih (h.discard _ _),discard_discard]
    exact discard_congr (fun i => by rw [List.any_cons]) fun _ => rfl

end SfuRuntime

end Discard

section Invariant

structure SfuRouterInvariant (s : SfuRuntime) : Prop where
  matching : s.Matching
  oneRouter : s.OneRouter
  routed : ∀ c call router, s.calls c = some call → call.phase = .routed router →
    s.routers call.roomKey = some router
  live : ∀ q ∈ s.liveRouters, s.routers q.roomKey = some q.id ∧ q.id < s.next
  registered : ∀ roomKey router, s.routers roomKey = some router →
    ⟨router,roomKey⟩ ∈ s.liveRouters
  routerIds : ∀ q ∈ s.liveRouters, ∀ q' ∈ s.liveRouters, q.id = q'.id → q = q'
  transportIds : ∀ t ∈ s.transports, t.id < s.next ∧ ∀ t' ∈ s.transports, t.id = t'.id → t = t'
  produceRoom : ∀ d p, s.produces d = some p → p.transportId < s.next ∧
    ∀ t ∈ s.transports, t.id = p.transportId → t.roomKey = p.roomId
  producerRoom : ∀ p ∈ s.dataProducers, p.id < s.next ∧ p.transportId < s.next ∧
    ∀ t ∈ s.transports, t.id = p.transportId → t.roomKey = p.roomId
  requestKept : ∀ p ∈ s.dataProducers, p.requests = true →
    (p.localMediaId,p.entry) ∈ s.localMediaRequestProducers
  providerKept : ∀ p ∈ s.dataProducers, p.requests = false →
    (p.localMediaId,p.entry) ∈ s.localMediaProducers ∨ ∃ t ∈ s.transports, t.id = p.transportId

variable {s s' : SfuRuntime}

theorem sfuRouterInvariant_idle : SfuRouterInvariant .idle := by
  refine ⟨⟨?_,?_,?_,?_⟩,?_,?_,?_,?_,?_,?_,?_,?_,?_,?_⟩ <;>
    simp [SfuRuntime.idle,SfuRuntime.OneRouter]

theorem SfuRouterInvariant.discard (h : SfuRouterInvariant s) {c t : ℕ → Bool}
    (hc : ∀ p ∈ s.dataProducers, t p.transportId = true → c p.id = true) :
    SfuRouterInvariant (s.discard c t) where
  matching := h.matching.discard c t
  oneRouter transport ht := h.oneRouter transport (SfuRuntime.mem_discard_transports.mp ht).1
  routed := h.routed
  live := h.live
  registered := h.registered
  routerIds := h.routerIds
  transportIds transport ht := by
    obtain ⟨hlt,hsame⟩ := h.transportIds transport (SfuRuntime.mem_discard_transports.mp ht).1
    exact ⟨hlt,fun other hother => hsame other (SfuRuntime.mem_discard_transports.mp hother).1⟩
  produceRoom d p hp := by
    obtain ⟨hlt,hroom⟩ := h.produceRoom d p hp
    exact ⟨hlt,fun other hother => hroom other (SfuRuntime.mem_discard_transports.mp hother).1⟩
  producerRoom p hp := by
    obtain ⟨hid,hlt,hroom⟩ := h.producerRoom p (SfuRuntime.mem_discard_dataProducers.mp hp).1
    exact ⟨hid,hlt,fun other hother =>
      hroom other (SfuRuntime.mem_discard_transports.mp hother).1⟩
  requestKept p hp hrole := by
    obtain ⟨hp,hkept⟩ := SfuRuntime.mem_discard_dataProducers.mp hp
    exact SfuRuntime.mem_discard_localMediaRequestProducers.mpr ⟨h.requestKept p hp hrole,hkept⟩
  providerKept p hp hrole := by
    obtain ⟨hp,hkept⟩ := SfuRuntime.mem_discard_dataProducers.mp hp
    rcases h.providerKept p hp hrole with hentry | ⟨transport,ht,heq⟩
    · exact Or.inl (SfuRuntime.mem_discard_localMediaProducers.mpr ⟨hentry,hkept⟩)
    · refine Or.inr ⟨transport,SfuRuntime.mem_discard_transports.mpr ⟨ht,?_⟩,heq⟩
      by_contra hgone
      rw [heq,Bool.not_eq_false] at hgone
      rw [hc p hp hgone] at hkept
      cases hkept

theorem SfuRouterInvariant.closeDataProducer (h : SfuRouterInvariant s) (id : ℕ) :
    SfuRouterInvariant (s.closeDataProducer id) := by
  rw [h.matching.closeDataProducer]
  exact h.discard fun _ _ hno => nomatch hno

theorem SfuRouterInvariant.closeTransports (h : SfuRouterInvariant s) (ids : List ℕ) :
    SfuRouterInvariant (ids.foldl SfuRuntime.closeTransport s) := by
  rw [h.matching.closeTransports]
  refine h.discard fun p hp ht => ?_
  exact List.any_eq_true.mpr ⟨p,hp,by simpa using ht⟩

section CloseRoom

namespace SfuRuntime

/-- The router of a room is closed, which no transport is on any more. -/
def forgetRouter (s : SfuRuntime) (roomKey : String) : SfuRuntime :=
  match s.routers roomKey with
  | none => s
  | some router => { s with
      liveRouters := s.liveRouters.filter fun q => q.id != router
      routers := Function.update s.routers roomKey none }

/-- What the loop over the providers of the room closes. -/
def roomProviderChannels (s : SfuRuntime) (roomKey : String) (i : ℕ) : Bool :=
  ((s.localMediaProducers.filter fun e => e.2.roomId == roomKey).map Prod.fst).any
    fun localMediaId => s.mediaChannels localMediaId i

/-- What the loop over the request channels of the room closes. -/
def roomRequestChannels (s : SfuRuntime) (roomKey : String) (i : ℕ) : Bool :=
  (s.localMediaRequestProducers.filter fun e => e.2.roomId == roomKey).any
    fun e => i == e.2.dataProducerId

def roomTransports (s : SfuRuntime) (roomKey : String) : ℕ → Bool :=
  s.openOf ((s.transports.filter fun t => t.roomKey == roomKey).map SfuTransport.id)

end SfuRuntime

variable {roomKey : String}

theorem SfuRouterInvariant.roomProviderChannels (h : SfuRouterInvariant s)
    (hmedia : s.MediaOfRoom roomKey) {p : SfuDataProducer} (hp : p ∈ s.dataProducers)
    (hc : s.roomProviderChannels roomKey p.id = true) : p.roomId = roomKey := by
  obtain ⟨localMediaId,hmem,hchannel⟩ := List.any_eq_true.mp hc
  obtain ⟨e,he,rfl⟩ := List.mem_map.mp hmem
  obtain ⟨he,hroom⟩ := List.mem_filter.mp he
  have hroom : e.2.roomId = roomKey := by simpa using hroom
  rcases SfuRuntime.mediaChannels_eq_true.mp hchannel with ⟨e',he',hid⟩ | ⟨e',he',hid⟩
  · obtain ⟨q,hq,-,heq⟩ := h.matching.providerEntry _ he'
    have hsame := h.matching.oneProvider _ he' e he rfl
    obtain ⟨-,rfl⟩ := Prod.mk.inj heq
    rw [← h.matching.producerIds q hq p hp hid]
    rw [← hsame] at hroom
    exact hroom
  · obtain ⟨q,hq,-,heq⟩ := h.matching.requestEntry _ he'
    have hrequest := hmedia e.1 e.2 e' he he' hroom
    obtain ⟨-,rfl⟩ := Prod.mk.inj heq
    rw [← h.matching.producerIds q hq p hp hid]
    exact hrequest

theorem SfuRouterInvariant.roomRequestChannels (h : SfuRouterInvariant s) {p : SfuDataProducer}
    (hp : p ∈ s.dataProducers) (hc : s.roomRequestChannels roomKey p.id = true) :
    p.roomId = roomKey := by
  obtain ⟨e,hmem,hid⟩ := List.any_eq_true.mp hc
  obtain ⟨he,hroom⟩ := List.mem_filter.mp hmem
  obtain ⟨q,hq,-,rfl⟩ := h.matching.requestEntry e he
  have hid : p.id = q.id := by simpa using hid
  rw [h.matching.producerIds p hp q hq hid]
  simpa using hroom

theorem SfuRouterInvariant.roomTransports (h : SfuRouterInvariant s) {t : SfuTransport}
    (ht : t ∈ s.transports) : s.roomTransports roomKey t.id = true ↔ t.roomKey = roomKey := by
  rw [SfuRuntime.roomTransports,SfuRuntime.openOf_eq_true]
  constructor
  · rintro ⟨hmem,-⟩
    obtain ⟨t',ht',hid⟩ := List.mem_map.mp hmem
    obtain ⟨ht',hroom⟩ := List.mem_filter.mp ht'
    rw [(h.transportIds t ht).2 t' ht' hid.symm]
    simpa using hroom
  · intro hroom
    exact ⟨List.mem_map.mpr ⟨t,List.mem_filter.mpr ⟨ht,by simpa using hroom⟩,rfl⟩,t,ht,rfl⟩

theorem SfuRouterInvariant.closed_of_room (h : SfuRouterInvariant s) {p : SfuDataProducer}
    (hp : p ∈ s.dataProducers) (hroom : p.roomId = roomKey) :
    s.roomProviderChannels roomKey p.id = true ∨ s.roomRequestChannels roomKey p.id = true ∨
      s.roomTransports roomKey p.transportId = true := by
  cases hrole : p.requests with
  | true =>
    refine Or.inr (Or.inl (List.any_eq_true.mpr ⟨_,List.mem_filter.mpr
      ⟨h.requestKept p hp hrole,?_⟩,?_⟩))
    · simpa using hroom
    · simp
  | false =>
    rcases h.providerKept p hp hrole with hentry | ⟨t,ht,hid⟩
    · refine Or.inl (List.any_eq_true.mpr ⟨p.localMediaId,List.mem_map.mpr ⟨_,
        List.mem_filter.mpr ⟨hentry,?_⟩,rfl⟩,?_⟩)
      · simpa using hroom
      · exact SfuRuntime.mediaChannels_eq_true.mpr (Or.inl ⟨p.entry,hentry,rfl⟩)
    · right
      right
      rw [← hid,h.roomTransports ht,(h.producerRoom p hp).2.2 t ht hid,hroom]

theorem SfuRouterInvariant.router_inj (h : SfuRouterInvariant s) {other : String} {router : ℕ}
    (hr : s.routers roomKey = some router) (hother : s.routers other = some router) :
    other = roomKey := by
  have hsame := h.routerIds _ (h.registered _ _ hother) _ (h.registered _ _ hr) rfl
  exact congrArg SfuRouter.roomKey hsame

theorem SfuRouterInvariant.closeRouter (h : SfuRouterInvariant s)
    (hgone : ∀ t ∈ s.transports, t.roomKey ≠ roomKey) {router : ℕ}
    (hr : s.routers roomKey = some router) : s.closeRouter router = { s with
      liveRouters := s.liveRouters.filter fun q => q.id != router } := by
  have hnone : s.transports.filter (fun t => t.router == router) = [] := by
    refine List.filter_eq_nil_iff.mpr fun t ht hrouter => ?_
    have hrouter : t.router = router := by simpa using hrouter
    refine hgone t ht (h.router_inj hr ?_)
    rw [← hrouter]
    exact h.oneRouter t ht
  rw [SfuRuntime.closeRouter,hnone]
  rfl

theorem roomProviderChannels_of_discard {c t : ℕ → Bool} {i : ℕ}
    (hi : (s.discard c t).roomProviderChannels roomKey i = true) :
    s.roomProviderChannels roomKey i = true := by
  obtain ⟨localMediaId,hmem,hchannel⟩ := List.any_eq_true.mp hi
  obtain ⟨e,he,rfl⟩ := List.mem_map.mp hmem
  obtain ⟨he,hroom⟩ := List.mem_filter.mp he
  have he := (SfuRuntime.mem_discard_localMediaProducers.mp he).1
  refine List.any_eq_true.mpr ⟨e.1,List.mem_map.mpr ⟨e,List.mem_filter.mpr ⟨he,hroom⟩,rfl⟩,?_⟩
  rw [SfuRuntime.mediaChannels_eq_true] at hchannel ⊢
  rcases hchannel with ⟨e',he',hid⟩ | ⟨e',he',hid⟩
  · exact Or.inl ⟨e',(SfuRuntime.mem_discard_localMediaProducers.mp he').1,hid⟩
  · exact Or.inr ⟨e',(SfuRuntime.mem_discard_localMediaRequestProducers.mp he').1,hid⟩

theorem roomRequestChannels_of_discard {c t : ℕ → Bool} {i : ℕ}
    (hi : (s.discard c t).roomRequestChannels roomKey i = true) :
    s.roomRequestChannels roomKey i = true := by
  obtain ⟨e,hmem,hid⟩ := List.any_eq_true.mp hi
  obtain ⟨he,hroom⟩ := List.mem_filter.mp hmem
  have he := (SfuRuntime.mem_discard_localMediaRequestProducers.mp he).1
  exact List.any_eq_true.mpr ⟨e,List.mem_filter.mpr ⟨he,hroom⟩,hid⟩

namespace SfuRuntime

/-- After the loops over the providers and over the request channels. -/
def withoutEntries (s : SfuRuntime) (roomKey : String) : SfuRuntime :=
  let s := s.discard (s.roomProviderChannels roomKey) noTransport
  s.discard (s.roomRequestChannels roomKey) noTransport

def withoutTransports (s : SfuRuntime) (roomKey : String) : SfuRuntime :=
  s.discard (s.channelsOf (s.roomTransports roomKey)) (s.roomTransports roomKey)

end SfuRuntime

theorem SfuRouterInvariant.withoutEntries (h : SfuRouterInvariant s) (roomKey : String) :
    SfuRouterInvariant (s.withoutEntries roomKey) := by
  have hproviders : SfuRouterInvariant
      (s.discard (s.roomProviderChannels roomKey) SfuRuntime.noTransport) :=
    h.discard fun _ _ hno => nomatch hno
  exact hproviders.discard fun _ _ hno => nomatch hno

theorem mem_withoutEntries_transports {t : SfuTransport} :
    t ∈ (s.withoutEntries roomKey).transports ↔ t ∈ s.transports := by
  rw [SfuRuntime.withoutEntries,SfuRuntime.mem_discard_transports,
    SfuRuntime.mem_discard_transports]
  simp [SfuRuntime.noTransport]

theorem mem_withoutEntries_dataProducers {p : SfuDataProducer} :
    p ∈ (s.withoutEntries roomKey).dataProducers ↔ p ∈ s.dataProducers ∧
      s.roomProviderChannels roomKey p.id = false ∧
        (s.discard (s.roomProviderChannels roomKey)
          SfuRuntime.noTransport).roomRequestChannels roomKey p.id = false := by
  rw [SfuRuntime.withoutEntries,SfuRuntime.mem_discard_dataProducers,
    SfuRuntime.mem_discard_dataProducers,and_assoc]

theorem SfuRouterInvariant.roomId_of_not_mem (h : SfuRouterInvariant s)
    (hmedia : s.MediaOfRoom roomKey) {p : SfuDataProducer} (hp : p ∈ s.dataProducers)
    (hgone : p ∉ (s.withoutEntries roomKey).dataProducers) : p.roomId = roomKey := by
  by_cases hprovider : s.roomProviderChannels roomKey p.id = true
  · exact h.roomProviderChannels hmedia hp hprovider
  · have hproviders : SfuRouterInvariant
        (s.discard (s.roomProviderChannels roomKey) SfuRuntime.noTransport) :=
      h.discard fun _ _ hno => nomatch hno
    have hkept : s.roomProviderChannels roomKey p.id = false := by simpa using hprovider
    refine hproviders.roomRequestChannels
      (SfuRuntime.mem_discard_dataProducers.mpr ⟨hp,hkept⟩) ?_
    by_contra hrequest
    exact hgone (mem_withoutEntries_dataProducers.mpr ⟨hp,hkept,by simpa using hrequest⟩)

theorem SfuRouterInvariant.transport_of_withoutEntries (h : SfuRouterInvariant s)
    {p : SfuDataProducer} (hp : p ∈ (s.withoutEntries roomKey).dataProducers)
    (hroom : p.roomId = roomKey) :
    (s.withoutEntries roomKey).roomTransports roomKey p.transportId = true := by
  obtain ⟨-,hprovider,hrequest⟩ := mem_withoutEntries_dataProducers.mp hp
  rcases (h.withoutEntries roomKey).closed_of_room hp hroom with hc | hc | hc
  · have hc := roomProviderChannels_of_discard (roomProviderChannels_of_discard hc)
    rw [hprovider] at hc
    cases hc
  · have hc := roomRequestChannels_of_discard hc
    rw [hrequest] at hc
    cases hc
  · exact hc

theorem SfuRouterInvariant.withoutTransports (h : SfuRouterInvariant s) (roomKey : String) :
    SfuRouterInvariant (s.withoutTransports roomKey) := by
  refine h.discard fun p hp ht => ?_
  exact List.any_eq_true.mpr ⟨p,hp,by simpa using ht⟩

theorem SfuRouterInvariant.mem_withoutTransports_transports (h : SfuRouterInvariant s)
    {t : SfuTransport} : t ∈ (s.withoutTransports roomKey).transports ↔
      t ∈ s.transports ∧ t.roomKey ≠ roomKey := by
  rw [SfuRuntime.withoutTransports,SfuRuntime.mem_discard_transports]
  refine and_congr_right fun ht => ?_
  rw [Bool.eq_false_iff,ne_eq,h.roomTransports ht]

theorem SfuRouterInvariant.mem_withoutTransports_dataProducers (h : SfuRouterInvariant s)
    {p : SfuDataProducer} : p ∈ (s.withoutTransports roomKey).dataProducers ↔
      p ∈ s.dataProducers ∧ s.roomTransports roomKey p.transportId = false := by
  rw [SfuRuntime.withoutTransports,SfuRuntime.mem_discard_dataProducers]
  refine and_congr_right fun hp => ?_
  rw [Bool.eq_false_iff,Bool.eq_false_iff,not_iff_not,SfuRuntime.channelsOf,List.any_eq_true]
  constructor
  · rintro ⟨q,hq,hmatch⟩
    obtain ⟨hid,ht⟩ : q.id = p.id ∧ s.roomTransports roomKey q.transportId = true := by
      simpa using hmatch
    rwa [h.matching.producerIds q hq p hp hid] at ht
  · intro ht
    exact ⟨p,hp,by simpa using ht⟩

theorem SfuRouterInvariant.roomId_of_roomTransports (h : SfuRouterInvariant s) {p : SfuDataProducer}
    (hp : p ∈ s.dataProducers) (ht : s.roomTransports roomKey p.transportId = true) :
    p.roomId = roomKey := by
  obtain ⟨-,t,hmem,hid⟩ := SfuRuntime.openOf_eq_true.mp ht
  rw [← hid,h.roomTransports hmem] at ht
  rw [← (h.producerRoom p hp).2.2 t hmem hid,ht]

/-- What `mediasoupCloseRoom` comes to. -/
theorem SfuRouterInvariant.mediasoupCloseRoom_eq (h : SfuRouterInvariant s) (roomKey : String) :
    s.mediasoupCloseRoom roomKey =
      ((s.withoutEntries roomKey).withoutTransports roomKey).forgetRouter roomKey := by
  have hproviders : SfuRouterInvariant
      (s.discard (s.roomProviderChannels roomKey) SfuRuntime.noTransport) :=
    h.discard fun _ _ hno => nomatch hno
  have hentries := h.withoutEntries roomKey
  have hrest := hentries.withoutTransports roomKey
  have hloop₁ := h.matching.clearProducers
    ((s.localMediaProducers.filter fun e => e.2.roomId == roomKey).map Prod.fst)
  change _ = s.discard (s.roomProviderChannels roomKey) SfuRuntime.noTransport at hloop₁
  have hloop₂ := hproviders.matching.closeRequestProducers
    ((s.discard (s.roomProviderChannels roomKey)
      SfuRuntime.noTransport).localMediaRequestProducers.filter fun e => e.2.roomId == roomKey)
  change _ = s.withoutEntries roomKey at hloop₂
  have hloop₃ := hentries.matching.closeTransports
    (((s.withoutEntries roomKey).transports.filter fun t => t.roomKey == roomKey).map
      SfuTransport.id)
  change _ = (s.withoutEntries roomKey).withoutTransports roomKey at hloop₃
  rw [SfuRuntime.mediasoupCloseRoom]
  simp only [hloop₁,hloop₂,hloop₃]
  rw [SfuRuntime.forgetRouter]
  cases hr : ((s.withoutEntries roomKey).withoutTransports roomKey).routers roomKey with
  | none => rfl
  | some router =>
    have hgone : ∀ t ∈ ((s.withoutEntries roomKey).withoutTransports roomKey).transports,
        t.roomKey ≠ roomKey :=
      fun t ht => (hentries.mem_withoutTransports_transports.mp ht).2
    simp only [hrest.closeRouter hgone hr]

theorem forgetRouter_maps : (s.forgetRouter roomKey).transports = s.transports ∧
    (s.forgetRouter roomKey).dataProducers = s.dataProducers ∧
    (s.forgetRouter roomKey).localMediaProducers = s.localMediaProducers ∧
    (s.forgetRouter roomKey).localMediaRequestProducers = s.localMediaRequestProducers := by
  rw [SfuRuntime.forgetRouter]
  split <;> exact ⟨rfl,rfl,rfl,rfl⟩

theorem SfuRouterInvariant.mem_closeRoom_transports (h : SfuRouterInvariant s) {t : SfuTransport} :
    t ∈ (s.mediasoupCloseRoom roomKey).transports ↔ t ∈ s.transports ∧ t.roomKey ≠ roomKey := by
  rw [h.mediasoupCloseRoom_eq,forgetRouter_maps.1,
    (h.withoutEntries roomKey).mem_withoutTransports_transports,mem_withoutEntries_transports]

theorem SfuRouterInvariant.mem_closeRoom_dataProducers (h : SfuRouterInvariant s)
    (hmedia : s.MediaOfRoom roomKey) {p : SfuDataProducer} :
    p ∈ (s.mediasoupCloseRoom roomKey).dataProducers ↔
      p ∈ s.dataProducers ∧ p.roomId ≠ roomKey := by
  rw [h.mediasoupCloseRoom_eq,forgetRouter_maps.2.1,
    (h.withoutEntries roomKey).mem_withoutTransports_dataProducers]
  constructor
  · rintro ⟨hp,ht⟩
    refine ⟨(mem_withoutEntries_dataProducers.mp hp).1,fun hroom => ?_⟩
    rw [h.transport_of_withoutEntries hp hroom] at ht
    cases ht
  · rintro ⟨hp,hroom⟩
    have hkept : p ∈ (s.withoutEntries roomKey).dataProducers := by
      by_contra hgone
      exact hroom (h.roomId_of_not_mem hmedia hp hgone)
    refine ⟨hkept,?_⟩
    by_contra ht
    exact hroom ((h.withoutEntries roomKey).roomId_of_roomTransports hkept (by simpa using ht))

theorem mem_withoutEntries_localMediaProducers {e : String × LocalMediaSfuProducer} :
    e ∈ (s.withoutEntries roomKey).localMediaProducers ↔ e ∈ s.localMediaProducers ∧
      s.roomProviderChannels roomKey e.2.dataProducerId = false ∧
        (s.discard (s.roomProviderChannels roomKey)
          SfuRuntime.noTransport).roomRequestChannels roomKey e.2.dataProducerId = false := by
  rw [SfuRuntime.withoutEntries,SfuRuntime.mem_discard_localMediaProducers,
    SfuRuntime.mem_discard_localMediaProducers,and_assoc]

theorem mem_withoutEntries_localMediaRequestProducers {e : String × LocalMediaSfuProducer} :
    e ∈ (s.withoutEntries roomKey).localMediaRequestProducers ↔
      e ∈ s.localMediaRequestProducers ∧
      s.roomProviderChannels roomKey e.2.dataProducerId = false ∧
        (s.discard (s.roomProviderChannels roomKey)
          SfuRuntime.noTransport).roomRequestChannels roomKey e.2.dataProducerId = false := by
  rw [SfuRuntime.withoutEntries,SfuRuntime.mem_discard_localMediaRequestProducers,
    SfuRuntime.mem_discard_localMediaRequestProducers,and_assoc]

/-- A registry entry stays as long as its data producer. -/
theorem SfuRouterInvariant.entry_mem_closeRoom (h : SfuRouterInvariant s) {p : SfuDataProducer}
    (hp : p ∈ s.dataProducers) :
    ((p.localMediaId,p.entry) ∈ (s.mediasoupCloseRoom roomKey).localMediaProducers ↔
      (p.localMediaId,p.entry) ∈ s.localMediaProducers ∧
        p ∈ (s.mediasoupCloseRoom roomKey).dataProducers) ∧
    ((p.localMediaId,p.entry) ∈ (s.mediasoupCloseRoom roomKey).localMediaRequestProducers ↔
      (p.localMediaId,p.entry) ∈ s.localMediaRequestProducers ∧
        p ∈ (s.mediasoupCloseRoom roomKey).dataProducers) := by
  rw [h.mediasoupCloseRoom_eq]
  obtain ⟨-,hproducers,hproviders,hrequests⟩ :=
    @forgetRouter_maps ((s.withoutEntries roomKey).withoutTransports roomKey) roomKey
  rw [hproducers,hproviders,hrequests,SfuRuntime.withoutTransports,
    SfuRuntime.mem_discard_localMediaProducers,SfuRuntime.mem_discard_localMediaRequestProducers,
    SfuRuntime.mem_discard_dataProducers,mem_withoutEntries_localMediaProducers,
    mem_withoutEntries_localMediaRequestProducers,mem_withoutEntries_dataProducers,
    SfuDataProducer.entry_dataProducerId]
  constructor
  · constructor
    · rintro ⟨⟨he,hkept⟩,ht⟩
      exact ⟨he,⟨hp,hkept⟩,ht⟩
    · rintro ⟨he,⟨-,hkept⟩,ht⟩
      exact ⟨⟨he,hkept⟩,ht⟩
  · constructor
    · rintro ⟨⟨he,hkept⟩,ht⟩
      exact ⟨he,⟨hp,hkept⟩,ht⟩
    · rintro ⟨he,⟨-,hkept⟩,ht⟩
      exact ⟨⟨he,hkept⟩,ht⟩

theorem closeRoom_entries_subset (h : SfuRouterInvariant s) {e : String × LocalMediaSfuProducer} :
    (e ∈ (s.mediasoupCloseRoom roomKey).localMediaProducers → e ∈ s.localMediaProducers) ∧
    (e ∈ (s.mediasoupCloseRoom roomKey).localMediaRequestProducers →
      e ∈ s.localMediaRequestProducers) := by
  rw [h.mediasoupCloseRoom_eq,forgetRouter_maps.2.2.1,forgetRouter_maps.2.2.2,
    SfuRuntime.withoutTransports,SfuRuntime.mem_discard_localMediaProducers,
    SfuRuntime.mem_discard_localMediaRequestProducers]
  exact ⟨fun he => (mem_withoutEntries_localMediaProducers.mp he.1).1,
    fun he => (mem_withoutEntries_localMediaRequestProducers.mp he.1).1⟩

theorem SfuRouterInvariant.mem_closeRoom_localMediaProducers (h : SfuRouterInvariant s)
    (hmedia : s.MediaOfRoom roomKey) {e : String × LocalMediaSfuProducer} :
    e ∈ (s.mediasoupCloseRoom roomKey).localMediaProducers ↔
      e ∈ s.localMediaProducers ∧ e.2.roomId ≠ roomKey := by
  constructor
  · intro he
    have hmem := (closeRoom_entries_subset h).1 he
    obtain ⟨p,hp,-,rfl⟩ := h.matching.providerEntry e hmem
    have hkept := ((h.entry_mem_closeRoom hp).1.mp he).2
    exact ⟨hmem,((h.mem_closeRoom_dataProducers hmedia).mp hkept).2⟩
  · rintro ⟨he,hroom⟩
    obtain ⟨p,hp,-,rfl⟩ := h.matching.providerEntry e he
    have hkept := (h.mem_closeRoom_dataProducers hmedia).mpr ⟨hp,hroom⟩
    exact (h.entry_mem_closeRoom hp).1.mpr ⟨he,hkept⟩

theorem SfuRouterInvariant.mem_closeRoom_localMediaRequestProducers (h : SfuRouterInvariant s)
    (hmedia : s.MediaOfRoom roomKey) {e : String × LocalMediaSfuProducer} :
    e ∈ (s.mediasoupCloseRoom roomKey).localMediaRequestProducers ↔
      e ∈ s.localMediaRequestProducers ∧ e.2.roomId ≠ roomKey := by
  constructor
  · intro he
    have hmem := (closeRoom_entries_subset h).2 he
    obtain ⟨p,hp,-,rfl⟩ := h.matching.requestEntry e hmem
    have hkept := ((h.entry_mem_closeRoom hp).2.mp he).2
    exact ⟨hmem,((h.mem_closeRoom_dataProducers hmedia).mp hkept).2⟩
  · rintro ⟨he,hroom⟩
    obtain ⟨p,hp,-,rfl⟩ := h.matching.requestEntry e he
    have hkept := (h.mem_closeRoom_dataProducers hmedia).mpr ⟨hp,hroom⟩
    exact (h.entry_mem_closeRoom hp).2.mpr ⟨he,hkept⟩

theorem SfuRouterInvariant.closeRoom_routers (h : SfuRouterInvariant s) :
    (s.mediasoupCloseRoom roomKey).routers = Function.update s.routers roomKey none := by
  rw [h.mediasoupCloseRoom_eq,SfuRuntime.forgetRouter]
  split
  · rename_i hnone
    exact (Function.update_eq_self_iff.mpr hnone.symm).symm
  · rfl

theorem SfuRouterInvariant.mem_closeRoom_liveRouters (h : SfuRouterInvariant s) {q : SfuRouter} :
    q ∈ (s.mediasoupCloseRoom roomKey).liveRouters ↔
      q ∈ s.liveRouters ∧ q.roomKey ≠ roomKey := by
  rw [h.mediasoupCloseRoom_eq,SfuRuntime.forgetRouter]
  split
  · rename_i hnone
    have hnone : s.routers roomKey = none := hnone
    refine (and_iff_left_of_imp fun hq hroom => ?_).symm
    have hlive := (h.live q hq).1
    rw [hroom,hnone] at hlive
    cases hlive
  · rename_i router hr
    have hr : s.routers roomKey = some router := hr
    rw [List.mem_filter]
    refine and_congr_right fun hq => ?_
    have hlive := (h.live q hq).1
    rw [bne_iff_ne]
    refine not_congr ⟨fun hid => ?_,fun hroom => ?_⟩
    · rw [hid] at hlive
      exact h.router_inj hr hlive
    · rw [hroom,hr] at hlive
      exact (Option.some.inj hlive).symm

theorem SfuRouterInvariant.roomGone (h : SfuRouterInvariant s) (hmedia : s.MediaOfRoom roomKey) :
    (s.mediasoupCloseRoom roomKey).RoomGone roomKey where
  routers := by rw [h.closeRoom_routers,Function.update_self]
  liveRouters q hq := (h.mem_closeRoom_liveRouters.mp hq).2
  transports t ht := (h.mem_closeRoom_transports.mp ht).2
  dataProducers p hp := ((h.mem_closeRoom_dataProducers hmedia).mp hp).2
  localMediaProducers e he := ((h.mem_closeRoom_localMediaProducers hmedia).mp he).2
  localMediaRequestProducers e he :=
    ((h.mem_closeRoom_localMediaRequestProducers hmedia).mp he).2

theorem SfuRouterInvariant.sameElsewhere (h : SfuRouterInvariant s)
    (hmedia : s.MediaOfRoom roomKey) : s.SameElsewhere (s.mediasoupCloseRoom roomKey) roomKey where
  routers other hother := by rw [h.closeRoom_routers,Function.update_of_ne hother]
  liveRouters q hq := h.mem_closeRoom_liveRouters.trans (and_iff_left hq)
  transports t ht := h.mem_closeRoom_transports.trans (and_iff_left ht)
  dataProducers p hp := (h.mem_closeRoom_dataProducers hmedia).trans (and_iff_left hp)
  localMediaProducers e he :=
    (h.mem_closeRoom_localMediaProducers hmedia).trans (and_iff_left he)
  localMediaRequestProducers e he :=
    (h.mem_closeRoom_localMediaRequestProducers hmedia).trans (and_iff_left he)

theorem SfuRouterInvariant.forgetRouter (h : SfuRouterInvariant s)
    (htransports : ∀ t ∈ s.transports, t.roomKey ≠ roomKey)
    (hcalls : ∀ c call router, s.calls c = some call → call.phase = .routed router →
      call.roomKey ≠ roomKey) : SfuRouterInvariant (s.forgetRouter roomKey) := by
  rw [SfuRuntime.forgetRouter]
  split
  · exact h
  · rename_i router hr
    exact {
      matching := ⟨h.matching.producerIds,h.matching.providerEntry,h.matching.requestEntry,
        h.matching.oneProvider⟩
      oneRouter := fun t ht => by
        show Function.update s.routers roomKey none t.roomKey = some t.router
        rw [Function.update_of_ne (htransports t ht)]
        exact h.oneRouter t ht
      routed := fun c call r hc hphase => by
        show Function.update s.routers roomKey none call.roomKey = some r
        rw [Function.update_of_ne (hcalls c call r hc hphase)]
        exact h.routed c call r hc hphase
      live := fun q hq => by
        obtain ⟨hq,hid⟩ := List.mem_filter.mp hq
        obtain ⟨hlive,hlt⟩ := h.live q hq
        refine ⟨?_,hlt⟩
        have hroom : q.roomKey ≠ roomKey := by
          intro hroom
          rw [hroom,hr] at hlive
          exact absurd (Option.some.inj hlive).symm (by simpa using hid)
        show Function.update s.routers roomKey none q.roomKey = some q.id
        rw [Function.update_of_ne hroom]
        exact hlive
      registered := fun other r hother => by
        by_cases hroom : other = roomKey
        · subst hroom
          simp at hother
        · have hold : s.routers other = some r := by simpa [hroom] using hother
          refine List.mem_filter.mpr ⟨h.registered other r hold,?_⟩
          rw [bne_iff_ne]
          rintro rfl
          exact hroom (h.router_inj hr hold)
      routerIds := fun q hq q' hq' =>
        h.routerIds q (List.mem_filter.mp hq).1 q' (List.mem_filter.mp hq').1
      transportIds := h.transportIds
      produceRoom := h.produceRoom
      producerRoom := h.producerRoom
      requestKept := h.requestKept
      providerKept := h.providerKept }

theorem SfuRouterInvariant.mediasoupCloseRoom (h : SfuRouterInvariant s)
    (hguard : SfuGuard s (.closeRoom roomKey)) :
    SfuRouterInvariant (s.mediasoupCloseRoom roomKey) := by
  have hentries := h.withoutEntries roomKey
  rw [h.mediasoupCloseRoom_eq]
  refine (hentries.withoutTransports roomKey).forgetRouter (fun t ht => ?_) hguard
  exact (hentries.mem_withoutTransports_transports.mp ht).2

end CloseRoom

section Requests

theorem SfuRouterInvariant.setCall (h : SfuRouterInvariant s) (c : ℕ) {next : Option SfuCall}
    (hrouted : ∀ call router, next = some call → call.phase = .routed router →
      s.routers call.roomKey = some router) : SfuRouterInvariant (s.setCall c next) :=
  { h with
    matching := ⟨h.matching.producerIds,h.matching.providerEntry,h.matching.requestEntry,
      h.matching.oneProvider⟩
    routed := fun c' call router hc hphase => by
      by_cases hsame : c' = c
      · subst hsame
        exact hrouted call router (by simpa [SfuRuntime.setCall] using hc) hphase
      · exact h.routed c' call router (by simpa [SfuRuntime.setCall,hsame] using hc) hphase }

theorem SfuRouterInvariant.routed_step (h : SfuRouterInvariant s) (c : ℕ) {call : SfuCall}
    {router : ℕ} (hr : s.routers call.roomKey = some router) :
    SfuRouterInvariant (s.routed c call router) := by
  rw [SfuRuntime.routed]
  split
  · exact h.setCall c nofun
  · refine h.setCall c fun next r hnext hphase => ?_
    cases hnext
    rw [← SfuPhase.routed.inj hphase]
    exact hr

theorem SfuRouterInvariant.setSockets (h : SfuRouterInvariant s) (sockets : ℕ → SfuSocket) :
    SfuRouterInvariant { s with sockets := sockets } :=
  { h with
    matching := ⟨h.matching.producerIds,h.matching.providerEntry,h.matching.requestEntry,
      h.matching.oneProvider⟩ }

theorem SfuRouterInvariant.addRouter (h : SfuRouterInvariant s) {roomKey : String}
    (hnone : s.routers roomKey = none) : SfuRouterInvariant (s.addRouter roomKey) := by
  have hkeeps : ∀ other router, s.routers other = some router →
      Function.update s.routers roomKey (some s.next) other = some router := by
    intro other router hother
    have hne : other ≠ roomKey := by
      rintro rfl
      rw [hnone] at hother
      cases hother
    rwa [Function.update_of_ne hne]
  have hmem : ∀ q, q ∈ (s.addRouter roomKey).liveRouters ↔
      q ∈ s.liveRouters ∨ q = ⟨s.next,roomKey⟩ := by
    intro q
    simp [SfuRuntime.addRouter]
  constructor
  case matching =>
    exact ⟨h.matching.producerIds,h.matching.providerEntry,h.matching.requestEntry,
      h.matching.oneProvider⟩
  case oneRouter => exact fun t ht => hkeeps _ _ (h.oneRouter t ht)
  case routed => exact fun c call router hc hphase => hkeeps _ _ (h.routed c call router hc hphase)
  case live =>
    intro q hq
    rcases (hmem q).mp hq with hq | rfl
    · exact ⟨hkeeps _ _ (h.live q hq).1,Nat.lt_succ_of_lt (h.live q hq).2⟩
    · exact ⟨Function.update_self ..,Nat.lt_succ_self _⟩
  case registered =>
    intro other router hother
    refine (hmem _).mpr ?_
    by_cases hroom : other = roomKey
    · subst hroom
      right
      have hsame : s.next = router := by simpa [SfuRuntime.addRouter] using hother
      rw [hsame]
    · left
      exact h.registered other router (by simpa [SfuRuntime.addRouter,hroom] using hother)
  case routerIds =>
    intro q hq q' hq' hid
    rcases (hmem q).mp hq with hq | rfl
    · rcases (hmem q').mp hq' with hq' | rfl
      · exact h.routerIds q hq q' hq' hid
      · exact absurd hid (h.live q hq).2.ne
    · rcases (hmem q').mp hq' with hq' | rfl
      · exact absurd hid.symm (h.live q' hq').2.ne
      · rfl
  case transportIds =>
    intro t ht
    exact ⟨Nat.lt_succ_of_lt (h.transportIds t ht).1,(h.transportIds t ht).2⟩
  case produceRoom =>
    intro d p hp
    exact ⟨Nat.lt_succ_of_lt (h.produceRoom d p hp).1,(h.produceRoom d p hp).2⟩
  case producerRoom =>
    intro p hp
    obtain ⟨hid,hlt,hroom⟩ := h.producerRoom p hp
    exact ⟨Nat.lt_succ_of_lt hid,Nat.lt_succ_of_lt hlt,hroom⟩
  case requestKept => exact h.requestKept
  case providerKept => exact h.providerKept

theorem SfuRouterInvariant.addTransport (h : SfuRouterInvariant s) {roomKey : String} {router : ℕ}
    (hr : s.routers roomKey = some router) (direction : SfuDirection) :
    SfuRouterInvariant (s.addTransport router roomKey direction) := by
  have hmem : ∀ t, t ∈ (s.addTransport router roomKey direction).transports ↔
      t ∈ s.transports ∨ t = ⟨s.next,router,roomKey,direction⟩ := by
    intro t
    simp [SfuRuntime.addTransport]
  constructor
  case matching =>
    exact ⟨h.matching.producerIds,h.matching.providerEntry,h.matching.requestEntry,
      h.matching.oneProvider⟩
  case oneRouter =>
    intro t ht
    rcases (hmem t).mp ht with ht | rfl
    · exact h.oneRouter t ht
    · exact hr
  case routed => exact h.routed
  case live => exact fun q hq => ⟨(h.live q hq).1,Nat.lt_succ_of_lt (h.live q hq).2⟩
  case registered => exact h.registered
  case routerIds => exact h.routerIds
  case transportIds =>
    intro t ht
    rcases (hmem t).mp ht with ht | rfl
    · obtain ⟨hlt,hsame⟩ := h.transportIds t ht
      refine ⟨Nat.lt_succ_of_lt hlt,fun t' ht' hid => ?_⟩
      rcases (hmem t').mp ht' with ht' | rfl
      · exact hsame t' ht' hid
      · exact absurd hid hlt.ne
    · refine ⟨Nat.lt_succ_self _,fun t' ht' hid => ?_⟩
      rcases (hmem t').mp ht' with ht' | rfl
      · exact absurd hid.symm (h.transportIds t' ht').1.ne
      · rfl
  case produceRoom =>
    intro d p hp
    obtain ⟨hlt,hroom⟩ := h.produceRoom d p hp
    refine ⟨Nat.lt_succ_of_lt hlt,fun t ht hid => ?_⟩
    rcases (hmem t).mp ht with ht | rfl
    · exact hroom t ht hid
    · exact absurd hid.symm hlt.ne
  case producerRoom =>
    intro p hp
    obtain ⟨hnew,hlt,hroom⟩ := h.producerRoom p hp
    refine ⟨Nat.lt_succ_of_lt hnew,Nat.lt_succ_of_lt hlt,fun t ht hid => ?_⟩
    rcases (hmem t).mp ht with ht | rfl
    · exact hroom t ht hid
    · exact absurd hid.symm hlt.ne
  case requestKept => exact h.requestKept
  case providerKept =>
    intro p hp hrole
    refine (h.providerKept p hp hrole).imp_right ?_
    rintro ⟨t,ht,hid⟩
    exact ⟨t,(hmem t).mpr (Or.inl ht),hid⟩

theorem SfuRouterInvariant.setProduce (h : SfuRouterInvariant s) (d : ℕ)
    {next : Option SfuDataProducer} (hroom : ∀ p, next = some p → p.transportId < s.next ∧
      ∀ t ∈ s.transports, t.id = p.transportId → t.roomKey = p.roomId) :
    SfuRouterInvariant (s.setProduce d next) :=
  { h with
    matching := ⟨h.matching.producerIds,h.matching.providerEntry,h.matching.requestEntry,
      h.matching.oneProvider⟩
    produceRoom := fun d' p hp => by
      by_cases hsame : d' = d
      · subst hsame
        exact hroom p (by simpa [SfuRuntime.setProduce] using hp)
      · exact h.produceRoom d' p (by simpa [SfuRuntime.setProduce,hsame] using hp) }

def SfuRuntime.produced (s : SfuRuntime) (produce : SfuDataProducer) : SfuDataProducer :=
  { produce with id := s.next }

section AddDataProducer

variable {produce : SfuDataProducer}

theorem mem_addDataProducer {q : SfuDataProducer} :
    q ∈ (s.addDataProducer produce).dataProducers ↔
      q ∈ s.dataProducers ∨ q = s.produced produce := by
  rw [SfuRuntime.addDataProducer]
  split <;> simp [SfuRuntime.produced]

theorem addDataProducer_rest : (s.addDataProducer produce).transports = s.transports ∧
    (s.addDataProducer produce).routers = s.routers ∧
    (s.addDataProducer produce).liveRouters = s.liveRouters ∧
    (s.addDataProducer produce).calls = s.calls ∧
    (s.addDataProducer produce).produces = s.produces ∧
    (s.addDataProducer produce).next = s.next+1 := by
  rw [SfuRuntime.addDataProducer]
  split <;> exact ⟨rfl,rfl,rfl,rfl,rfl,rfl⟩

theorem mem_addDataProducer_providers {e : String × LocalMediaSfuProducer} :
    e ∈ (s.addDataProducer produce).localMediaProducers ↔
      e ∈ s.localMediaProducers ∧ (produce.requests = false → e.1 ≠ produce.localMediaId) ∨
        produce.requests = false ∧ e = (produce.localMediaId,(s.produced produce).entry) := by
  rw [SfuRuntime.addDataProducer]
  cases hrole : produce.requests with
  | true => simp
  | false => simp [SfuRuntime.produced,hrole]

theorem mem_addDataProducer_requests {e : String × LocalMediaSfuProducer} :
    e ∈ (s.addDataProducer produce).localMediaRequestProducers ↔
      e ∈ s.localMediaRequestProducers ∨
        produce.requests = true ∧ e = (produce.localMediaId,(s.produced produce).entry) := by
  rw [SfuRuntime.addDataProducer]
  cases hrole : produce.requests with
  | true => simp [SfuRuntime.produced,hrole]
  | false => simp

theorem SfuRouterInvariant.matching_addDataProducer (h : SfuRouterInvariant s) :
    (s.addDataProducer produce).Matching where
  producerIds q hq q' hq' hid := by
    rcases mem_addDataProducer.mp hq with hq | rfl
    · rcases mem_addDataProducer.mp hq' with hq' | rfl
      · exact h.matching.producerIds q hq q' hq' hid
      · exact absurd hid (h.producerRoom q hq).1.ne
    · rcases mem_addDataProducer.mp hq' with hq' | rfl
      · exact absurd hid.symm (h.producerRoom q' hq').1.ne
      · rfl
  providerEntry e he := by
    rcases mem_addDataProducer_providers.mp he with ⟨he,-⟩ | ⟨hrole,rfl⟩
    · obtain ⟨q,hq,hprovider⟩ := h.matching.providerEntry e he
      exact ⟨q,mem_addDataProducer.mpr (Or.inl hq),hprovider⟩
    · exact ⟨s.produced produce,mem_addDataProducer.mpr (Or.inr rfl),hrole,rfl⟩
  requestEntry e he := by
    rcases mem_addDataProducer_requests.mp he with he | ⟨hrole,rfl⟩
    · obtain ⟨q,hq,hrequest⟩ := h.matching.requestEntry e he
      exact ⟨q,mem_addDataProducer.mpr (Or.inl hq),hrequest⟩
    · exact ⟨s.produced produce,mem_addDataProducer.mpr (Or.inr rfl),hrole,rfl⟩
  oneProvider e he e' he' hmedia := by
    rcases mem_addDataProducer_providers.mp he with ⟨he,hne⟩ | ⟨hrole,rfl⟩
    · rcases mem_addDataProducer_providers.mp he' with ⟨he',-⟩ | ⟨hrole,rfl⟩
      · exact h.matching.oneProvider e he e' he' hmedia
      · exact absurd hmedia (hne hrole)
    · rcases mem_addDataProducer_providers.mp he' with ⟨-,hne⟩ | ⟨-,rfl⟩
      · exact absurd hmedia.symm (hne hrole)
      · rfl

theorem SfuRouterInvariant.addDataProducer (h : SfuRouterInvariant s)
    (hlt : produce.transportId < s.next)
    (hroom : ∀ t ∈ s.transports, t.id = produce.transportId → t.roomKey = produce.roomId)
    (hreplaced : produce.requests = false → ∀ entry,
      (produce.localMediaId,entry) ∈ s.localMediaProducers → ∀ p ∈ s.dataProducers,
        p.id = entry.dataProducerId → ∃ t ∈ s.transports, t.id = p.transportId) :
    SfuRouterInvariant (s.addDataProducer produce) := by
  obtain ⟨htransports,hrouters,hlive,hcalls,hproduces,hnext⟩ :=
    @addDataProducer_rest s produce
  constructor
  case matching => exact h.matching_addDataProducer
  case oneRouter =>
    rw [SfuRuntime.OneRouter,htransports,hrouters]
    exact h.oneRouter
  case routed =>
    rw [hcalls,hrouters]
    exact h.routed
  case live =>
    rw [hlive,hrouters,hnext]
    exact fun q hq => ⟨(h.live q hq).1,Nat.lt_succ_of_lt (h.live q hq).2⟩
  case registered =>
    rw [hlive,hrouters]
    exact h.registered
  case routerIds =>
    rw [hlive]
    exact h.routerIds
  case transportIds =>
    rw [htransports,hnext]
    exact fun t ht => ⟨Nat.lt_succ_of_lt (h.transportIds t ht).1,(h.transportIds t ht).2⟩
  case produceRoom =>
    rw [hproduces,htransports,hnext]
    exact fun d p hp => ⟨Nat.lt_succ_of_lt (h.produceRoom d p hp).1,(h.produceRoom d p hp).2⟩
  case producerRoom =>
    intro q hq
    rw [htransports,hnext]
    rcases mem_addDataProducer.mp hq with hq | rfl
    · obtain ⟨hid,hold,hsame⟩ := h.producerRoom q hq
      exact ⟨Nat.lt_succ_of_lt hid,Nat.lt_succ_of_lt hold,hsame⟩
    · exact ⟨Nat.lt_succ_self _,Nat.lt_succ_of_lt hlt,hroom⟩
  case requestKept =>
    intro q hq hrole
    refine mem_addDataProducer_requests.mpr ?_
    rcases mem_addDataProducer.mp hq with hq | rfl
    · exact Or.inl (h.requestKept q hq hrole)
    · exact Or.inr ⟨hrole,rfl⟩
  case providerKept =>
    intro q hq hrole
    rw [htransports]
    rcases mem_addDataProducer.mp hq with hq | rfl
    · rcases h.providerKept q hq hrole with hentry | hopen
      · by_cases hsame : produce.requests = false ∧ q.localMediaId = produce.localMediaId
        · obtain ⟨hprovider,hmedia⟩ := hsame
          rw [hmedia] at hentry
          exact Or.inr (hreplaced hprovider _ hentry q hq rfl)
        · left
          exact mem_addDataProducer_providers.mpr
            (Or.inl ⟨hentry,fun hprovider hmedia => hsame ⟨hprovider,hmedia⟩⟩)
      · exact Or.inr hopen
    · left
      exact mem_addDataProducer_providers.mpr (Or.inr ⟨hrole,rfl⟩)

end AddDataProducer

theorem SfuRouterInvariant.callStep (h : SfuRouterInvariant s) {c : ℕ} {call : SfuCall}
    (hcall : s.calls c = some call) {a : SfuCallStep} (hguard : SfuGuard s (.call c a))
    (hs' : sfuCallStep s c call a = some s') : SfuRouterInvariant s' := by
  cases a with
  | lookupRouter =>
    rw [sfuCallStep] at hs'
    split at hs'
    · split at hs'
      · rename_i router hr
        cases hs'
        exact h.routed_step c hr
      · cases hs'
        refine h.setCall c fun next r hnext hphase => ?_
        cases hnext
        cases hphase
    · cases hs'
  | routerCreated =>
    rw [sfuCallStep] at hs'
    split at hs'
    · cases hs'
      refine (h.addRouter (hguard call hcall)).routed_step c ?_
      exact Function.update_self ..
    · cases hs'
  | routerFails =>
    rw [sfuCallStep] at hs'
    split at hs'
    · cases hs'
      exact h.setCall c nofun
    · cases hs'
  | transportCreated =>
    rw [sfuCallStep] at hs'
    split at hs'
    · rename_i router direction hphase htransport
      cases hs'
      refine (h.addTransport (h.routed c call router hcall hphase) direction).setCall c
        fun next r hnext hrouted => ?_
      cases hnext
      cases hrouted
    · cases hs'
  | transportFails =>
    rw [sfuCallStep] at hs'
    split at hs'
    · cases hs'
      exact h.setCall c nofun
    · cases hs'
  | ownTransport =>
    rw [sfuCallStep] at hs'
    split at hs'
    · split at hs'
      · cases hs'
        exact (h.closeTransports [_]).setCall c nofun
      · split at hs'
        · cases hs'
          exact (h.setSockets _).setCall c nofun
        · cases hs'
          exact h.setCall c nofun
    · cases hs'

theorem SfuRouterInvariant.step (h : SfuRouterInvariant s) {a : SfuRouterStep}
    (hguard : SfuGuard s a) (hs' : sfuRouterStep s a = some s') : SfuRouterInvariant s' := by
  cases a with
  | capabilities c socket roomKey =>
    rw [sfuRouterStep] at hs'
    split at hs'
    · cases hs'
    · cases hs'
      refine h.setCall c fun next r hnext hphase => ?_
      cases hnext
      cases hphase
  | createTransport c socket roomKey direction =>
    rw [sfuRouterStep] at hs'
    split at hs'
    · cases hs'
    · cases hs'
      refine h.setCall c fun next r hnext hphase => ?_
      cases hnext
      cases hphase
  | call c a =>
    obtain ⟨call,hcall,hs'⟩ := Option.bind_eq_some_iff.mp hs'
    exact h.callStep hcall hguard hs'
  | produceData d socket transportId roomId localMediaId ownerUserId requests =>
    rw [sfuRouterStep] at hs'
    split at hs'
    · cases hs'
    · split at hs'
      · cases hs'
      · rename_i t hfind
        have ht := List.mem_of_find?_eq_some hfind
        have hid : t.id = transportId := by simpa using List.find?_some hfind
        split at hs'
        · rename_i hroom
          cases hs'
          refine h.setProduce d fun p hp => ?_
          cases hp
          refine ⟨hid ▸ (h.transportIds t ht).1,fun t' ht' hid' => ?_⟩
          rw [← (h.transportIds t ht).2 t' ht' (hid.trans hid'.symm)]
          exact hroom.1
        · cases hs'
  | produced d =>
    obtain ⟨produce,hproduce,rfl⟩ := Option.map_eq_some_iff.mp hs'
    obtain ⟨hlt,hroom⟩ := h.produceRoom d produce hproduce
    exact (h.addDataProducer hlt hroom (hguard produce hproduce)).setProduce d nofun
  | produceFails d =>
    obtain ⟨produce,hproduce,rfl⟩ := Option.map_eq_some_iff.mp hs'
    exact h.setProduce d nofun
  | closeDataProducer id =>
    cases hs'
    exact h.closeDataProducer id
  | closeTransport id =>
    cases hs'
    exact h.closeTransports [id]
  | closeSocket socket =>
    cases hs'
    exact (h.setSockets _).closeTransports _
  | closeRoom roomKey =>
    cases hs'
    exact h.mediasoupCloseRoom hguard

theorem sfuRouterInvariant_of_reachable (h : (sfuRouterSystem.restrict SfuGuard).Reachable s) :
    SfuRouterInvariant s := by
  refine h.invariant SfuRouterInvariant ?_ ?_
  · rintro s rfl
    exact sfuRouterInvariant_idle
  · rintro s a s' - hinv ⟨hguard,hstep⟩
    exact hinv.step hguard hstep

theorem SfuRouterInvariant.mediaOfRoom (h : SfuRouterInvariant s) {roomKey : String}
    (hsame : s.SameElsewhere (s.mediasoupCloseRoom roomKey) roomKey) :
    s.MediaOfRoom roomKey := by
  intro localMediaId entry request hentry hrequest hroom
  by_contra hother
  have hkept := (hsame.localMediaRequestProducers (localMediaId,request) hother).mpr hrequest
  obtain ⟨p,hp,-,heq⟩ := h.matching.requestEntry _ hrequest
  obtain ⟨rfl,rfl⟩ := Prod.mk.inj heq
  have hproducer := ((h.entry_mem_closeRoom hp).2.mp hkept).2
  rw [h.mediasoupCloseRoom_eq,forgetRouter_maps.2.1,
    (h.withoutEntries roomKey).mem_withoutTransports_dataProducers,
    mem_withoutEntries_dataProducers] at hproducer
  have hprovider : s.roomProviderChannels roomKey p.id = true := by
    refine List.any_eq_true.mpr ⟨p.localMediaId,List.mem_map.mpr ⟨_,
      List.mem_filter.mpr ⟨hentry,by simpa using hroom⟩,rfl⟩,?_⟩
    exact SfuRuntime.mediaChannels_eq_true.mpr (Or.inr ⟨p.entry,hrequest,rfl⟩)
  rw [hproducer.1.2.1] at hprovider
  cases hprovider

/-- One router per room, as long as no router is created twice, no transport is created while its
room is closed and no provider replaces one whose transport is gone; and a room is closed as a
whole exactly when it shares no media id. -/
theorem one_router_per_room (h : (sfuRouterSystem.restrict SfuGuard).Reachable s) :
    s.OneRouter ∧ ∀ roomKey, (s.mediasoupCloseRoom roomKey).RoomGone roomKey ∧
      s.SameElsewhere (s.mediasoupCloseRoom roomKey) roomKey ↔ s.MediaOfRoom roomKey := by
  have hinv := sfuRouterInvariant_of_reachable h
  refine ⟨hinv.oneRouter,fun roomKey => ?_⟩
  constructor
  · rintro ⟨-,hsame⟩
    exact hinv.mediaOfRoom hsame
  · intro hmedia
    exact ⟨hinv.roomGone hmedia,hinv.sameElsewhere hmedia⟩

/-- Two rooms stream, and the second is closed. -/
theorem one_router_per_room_shared : ∃ s : SfuRuntime,
    (s.transports,s.dataProducers,s.routers "b") =
      ([⟨1,0,"a",.send⟩],[⟨4,1,"film","a","ann",false⟩],none) ∧
    (s.OneRouter ∧ ∀ roomKey, (s.mediasoupCloseRoom roomKey).RoomGone roomKey ∧
      s.SameElsewhere (s.mediasoupCloseRoom roomKey) roomKey ↔ s.MediaOfRoom roomKey) := by
  have next : ∀ {s s'} a, (sfuRouterSystem.restrict SfuGuard).Reachable s → SfuGuard s a →
      sfuRouterStep s a = some s' → (sfuRouterSystem.restrict SfuGuard).Reachable s' :=
    fun a h hguard hs' => h.step ⟨hguard,hs'⟩
  have h1 := next (.createTransport 0 0 "a" .send) (.init rfl) trivial rfl
  have h2 := next (.call 0 .lookupRouter) h1 trivial rfl
  have h3 := next (.call 0 .routerCreated) h2 (fun _ h => by cases h; rfl) rfl
  have h4 := next (.call 0 .transportCreated) h3 trivial rfl
  have h5 := next (.call 0 .ownTransport) h4 trivial rfl
  have h6 := next (.createTransport 1 1 "b" .send) h5 trivial rfl
  have h7 := next (.call 1 .lookupRouter) h6 trivial rfl
  have h8 := next (.call 1 .routerCreated) h7 (fun _ h => by cases h; rfl) rfl
  have h9 := next (.call 1 .transportCreated) h8 trivial rfl
  have h10 := next (.call 1 .ownTransport) h9 trivial rfl
  have h11 := next (.produceData 0 0 1 "a" "film" "ann" false) h10 trivial rfl
  have h12 := next (.produced 0) h11 (fun _ _ _ _ h => nomatch h) rfl
  have h13 := next (.produceData 1 1 3 "b" "show" "bob" true) h12 trivial rfl
  have h14 := next (.produced 1) h13 (fun _ h hrequests => by cases h; cases hrequests) rfl
  have h15 := next (.closeRoom "b") h14 (fun c _ _ h => by
    rcases c with _|_|c <;> cases h) rfl
  exact ⟨_,by decide +kernel,one_router_per_room h15⟩

/-- Two requests that both find no router create two, and the provider of a media id takes the
request channels of another room with it. -/
theorem crossed_lookups_split_room :
    (∃ s, sfuRouterSystem.Reachable s ∧ ¬s.OneRouter) ∧
      ∃ s roomKey, sfuRouterSystem.Reachable s ∧
        ¬((s.mediasoupCloseRoom roomKey).RoomGone roomKey ∧
          s.SameElsewhere (s.mediasoupCloseRoom roomKey) roomKey) := by
  constructor
  · have hrun : (TransitionSystem.runSteps sfuRouterStep .idle [.createTransport 0 0 "a" .send,
        .createTransport 1 1 "a" .recv,.call 0 .lookupRouter,.call 1 .lookupRouter,
        .call 0 .routerCreated,.call 0 .transportCreated,.call 1 .routerCreated]).map
          (fun s => (s.transports,s.routers "a")) = some ([⟨1,0,"a",.send⟩],some 2) := by
      decide +kernel
    obtain ⟨s,hs,heq⟩ := Option.map_eq_some_iff.mp hrun
    obtain ⟨htransports,hrouter⟩ := Prod.mk.inj heq
    refine ⟨s,.of_runSteps (fun _ _ _ h => h) _ (.init rfl) hs,fun hone => ?_⟩
    have hsame := hone ⟨1,0,"a",.send⟩ (htransports ▸ List.mem_singleton_self _)
    rw [hrouter] at hsame
    exact absurd hsame (by decide)
  · have hrun : (TransitionSystem.runSteps sfuRouterStep .idle [.createTransport 0 0 "a" .send,
        .call 0 .lookupRouter,.call 0 .routerCreated,.call 0 .transportCreated,
        .call 0 .ownTransport,.createTransport 1 1 "b" .send,.call 1 .lookupRouter,
        .call 1 .routerCreated,.call 1 .transportCreated,.call 1 .ownTransport,
        .produceData 0 0 1 "a" "film" "ann" true,.produced 0,
        .produceData 1 1 3 "b" "film" "bob" false,.produced 1]).map (fun s =>
          (s.localMediaRequestProducers,(s.mediasoupCloseRoom "b").localMediaRequestProducers)) =
        some ([("film",⟨4,"a","ann"⟩)],[]) := by decide +kernel
    obtain ⟨s,hs,heq⟩ := Option.map_eq_some_iff.mp hrun
    obtain ⟨hbefore,hafter⟩ := Prod.mk.inj heq
    refine ⟨s,"b",.of_runSteps (fun _ _ _ h => h) _ (.init rfl) hs,fun ⟨_,hsame⟩ => ?_⟩
    have hkept := (hsame.localMediaRequestProducers ("film",⟨4,"a","ann"⟩) (by decide)).mpr
      (hbefore ▸ List.mem_singleton_self _)
    rw [hafter] at hkept
    cases hkept

end Requests

end Invariant

end WebSyncPlay
