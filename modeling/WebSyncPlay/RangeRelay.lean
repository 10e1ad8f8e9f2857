import WebSyncPlay.LocalMediaBinary
import WebSyncPlay.LocalMediaStream
import WebSyncPlay.SocketRegistry
import WebSyncPlay.Library.Base64

/-! Ranges of a local file that a tab holds, for any node of the server
(`local-media-relay/fetch.ts`, `providers.ts`, `pending.ts`, `subscriber.ts`, `chunk.ts`, and
`room-socket-local-media-read.ts` in the tab): over the node's own sockets, over the node that has
the tab, or over a channel that all nodes hear, with the reply in a list of the shared store. A node
has one client for its commands, and a `BLPOP` holds up whatever is sent over it later. -/
namespace WebSyncPlay

open Library

def LOCAL_MEDIA_RELAY_TIMEOUT_MS : ℕ := 15000

def relayReplyTtlMs : ℕ := 60*1000

inductive LocalMediaErrorCode
  | notFound | ownerOffline | providerTimeout | providerUnavailable | providerReadFailed
  | invalidRange | relayFailed | viewerCapabilityDenied
  deriving DecidableEq

/-- `text.includes` -/
def messageIncludes (message word : String) : Bool :=
  decide (word.toList <:+: message.toList.map Char.toLower)

def localMediaErrorFromMessage (message : Option String) : LocalMediaErrorCode :=
  let text := message.getD ""
  if messageIncludes text "timed out" || messageIncludes text "timeout" then .providerTimeout
  else if messageIncludes text "not_available" || messageIncludes text "unavailable" then
    .providerUnavailable
  else if messageIncludes text "read_failed" || messageIncludes text "read failed" then
    .providerReadFailed
  else if messageIncludes text "invalid" && messageIncludes text "range" then .invalidRange
  else if messageIncludes text "offline" then .ownerOffline
  else .relayFailed

structure LocalMediaReadRequest where
  requestId : String
  localMediaId : String
  start : ℤ
  stop : ℤ
  deriving DecidableEq

structure LocalMediaChunkPayload where
  requestId : String
  ok : Bool
  data : Option (List UInt8) := none
  dataBase64 : Option String := none
  error : Option String := none
  deriving DecidableEq

namespace LocalMediaChunkPayload

def serializeRelayReplyPayload (payload : LocalMediaChunkPayload) : LocalMediaChunkPayload :=
  match payload.data with
  | some data =>
    if payload.dataBase64.getD "" = "" then
      { payload with data := none, dataBase64 := some (String.ofList (Base64.encode data)) }
    else { payload with data := none }
  | none => payload

def bytesFromChunkPayload (payload : LocalMediaChunkPayload) : Option (List UInt8) :=
  match payload.data with
  | some data => some data
  | none =>
    if payload.dataBase64.getD "" = "" then none
    else some (Base64.decode (payload.dataBase64.getD "").toList)

def ofChunk (chunk : LocalMediaChunk) : LocalMediaChunkPayload :=
  { requestId := chunk.requestId, ok := chunk.ok, data := chunk.data, error := chunk.error }

def outcome (payload : LocalMediaChunkPayload) : Except LocalMediaErrorCode (List UInt8) :=
  match payload.ok,payload.bytesFromChunkPayload with
  | true,some bytes => .ok bytes
  | _,_ => .error (localMediaErrorFromMessage payload.error)

end LocalMediaChunkPayload

/-- `file.slice(start, end + 1)` -/
def readLocalMediaRange (file : List UInt8) (start stop : ℤ) : List UInt8 :=
  subarray file start (stop+1)

inductive TabMessage
  | binary (frame : List UInt8)
  | json (payload : LocalMediaChunkPayload)
  deriving DecidableEq

def TabMessage.payload : TabMessage → Option LocalMediaChunkPayload
  | .binary frame => (decodeLocalMediaChunkFrame frame).map .ofChunk
  | .json payload => some { payload with data := none }

/-- The answer of a tab that holds the file, if it gives one. -/
def answerTabRead (file : List UInt8) (read : LocalMediaReadRequest) (timed : ReadOutcome) :
    Option TabMessage :=
  let request : BlockRequest :=
    { requestId := read.requestId, start := read.start, stop := read.stop }
  let outcome := match timed with
    | .bytes _ => .bytes (readLocalMediaRange file read.start read.stop)
    | other => other
  match serveLocalMediaRange true false request outcome with
  | .error .providerUnavailable => none
  | .error code =>
    some (.json { requestId := read.requestId, ok := false, error := some code.text })
  | .ok bytes =>
    (encodeLocalMediaChunkFrame
      { requestId := read.requestId, ok := true, data := some bytes, error := none }).map .binary

structure RelayEntry where
  id : String
  roomId : String
  ownerUserId : UserId
  sizeBytes : ℕ
  deriving DecidableEq

/-- How a fetch has ended: with bytes of a tab, with what the node of the tab gave, or thrown. -/
inductive FetchOutcome
  | relayed (bytes : List UInt8)
  | ofHolder (bytes : List UInt8)
  | thrown (code : LocalMediaErrorCode)
  deriving DecidableEq

inductive FetchPhase
  /-- For a reply over the node's own sockets. -/
  | localWait (requestId : String)
  /-- For the node that has the tab. -/
  | holder
  | flooding
  /-- Its `BLPOP` is sent. -/
  | queued (requestId : String)
  /-- The store serves its `BLPOP`. -/
  | popping (requestId : String) (deadline : ℕ)
  | ended (outcome : FetchOutcome)
  deriving DecidableEq

/-- The request id of a reply that is waited for. -/
def FetchPhase.awaits : FetchPhase → Option String
  | .localWait requestId => some requestId
  | .queued requestId => some requestId
  | .popping requestId _ => some requestId
  | _ => none

/-- The fetch has a `BLPOP` at the client of its node. -/
def FetchPhase.onClient : FetchPhase → Bool
  | .queued _ => true
  | .popping _ _ => true
  | _ => false

structure RangeFetch (N : Type*) where
  node : N
  entry : RelayEntry
  start : ℤ
  stop : ℤ
  phase : FetchPhase

namespace RangeFetch

variable {N : Type*}

def clampedEnd (fetch : RangeFetch N) : ℤ := min fetch.stop (fetch.entry.sizeBytes-1)

def read (fetch : RangeFetch N) (requestId : String) : LocalMediaReadRequest where
  requestId := requestId
  localMediaId := fetch.entry.id
  start := fetch.start
  stop := fetch.clampedEnd

def invalidRange (fetch : RangeFetch N) : Prop :=
  fetch.start < 0 ∨ fetch.stop < fetch.start ∨ fetch.entry.sizeBytes ≤ fetch.start

instance (fetch : RangeFetch N) : Decidable fetch.invalidRange :=
  inferInstanceAs (Decidable (_ ∨ _ ∨ _))

end RangeFetch

structure RelayPubSubRequest (N : Type*) where
  read : LocalMediaReadRequest
  roomId : String
  ownerUserId : UserId
  originNodeId : N

/-- Who waits for a chunk: a fetch of the node, or the reply list of another node's fetch. -/
inductive ChunkWaiter
  | fetch (c : ℕ)
  | forward
  deriving DecidableEq

structure PendingChunk where
  waiter : ChunkWaiter
  deadline : ℕ
  deriving DecidableEq

/-- A `pushRelayReply` under way: before `RPUSH`, or before `EXPIRE`. -/
structure ReplyPush (N : Type*) where
  node : N
  payload : LocalMediaChunkPayload
  pushed : Bool

structure ReplyList where
  items : List LocalMediaChunkPayload
  expiresAt : Option ℕ

structure RelayState (N W : Type*) where
  nowMs : ℕ := 0
  registry : N → SocketRegistry W := fun _ => {}
  isOpen : W → Bool := fun _ => true
  /-- The files that a tab holds. -/
  held : W → String → Bool := fun _ _ => false
  reads : W → List LocalMediaReadRequest := fun _ => []
  frames : W → List TabMessage := fun _ => []
  pending : N → String → Option PendingChunk := fun _ _ => none
  fetches : ℕ → Option (RangeFetch N) := fun _ => none
  floods : N → List (RelayPubSubRequest N) := fun _ => []
  pushes : List (ReplyPush N) := []
  /-- The fetch of a node whose `BLPOP` is served, and those whose `BLPOP` comes after it. -/
  served : N → Option ℕ := fun _ => none
  queue : N → List ℕ := fun _ => []
  replies : String → Option ReplyList := fun _ => none
  /-- The request ids that were drawn, or that someone made up. -/
  drawn : List String := []
  /-- The read that a request id was drawn for. -/
  asked : String → Option (ℕ × LocalMediaReadRequest) := fun _ => none
  /-- The reply lists whose `EXPIRE` failed. -/
  unexpiring : List String := []

section Relay

variable {N W : Type*} [DecidableEq N] [DecidableEq W]

namespace RelayState

def setFetch (s : RelayState N W) (c : ℕ) (fetch : RangeFetch N) (phase : FetchPhase) :
    RelayState N W :=
  { s with fetches := Function.update s.fetches c (some { fetch with phase := phase }) }

def setPending (s : RelayState N W) (node : N) (requestId : String)
    (pending : Option PendingChunk) : RelayState N W :=
  { s with
    pending := Function.update s.pending node
      (Function.update (s.pending node) requestId pending) }

def pushRelayReply (s : RelayState N W) (node : N) (payload : LocalMediaChunkPayload) :
    RelayState N W :=
  { s with
    pushes := s.pushes ++
      [{ node := node, payload := payload.serializeRelayReplyPayload, pushed := false }] }

def endFetch (s : RelayState N W) (c : ℕ) (payload : LocalMediaChunkPayload) : RelayState N W :=
  match s.fetches c with
  | none => s
  | some fetch =>
    match payload.outcome with
    | .ok bytes => s.setFetch c fetch (.ended (.relayed bytes))
    | .error code => s.setFetch c fetch (.ended (.thrown code))

/-- The `BLPOP` of a fetch is over, or given up. -/
def leaveClient (s : RelayState N W) (c : ℕ) (fetch : RangeFetch N) : RelayState N W :=
  { s with
    served := if s.served fetch.node = some c then Function.update s.served fetch.node none
      else s.served
    queue := Function.update s.queue fetch.node ((s.queue fetch.node).filter (· ≠ c)) }

/-- What goes on when a pending request is resolved or rejected. -/
def resume (s : RelayState N W) (node : N) (waiter : ChunkWaiter)
    (payload : LocalMediaChunkPayload) : RelayState N W :=
  match waiter with
  | .fetch c => s.endFetch c payload
  | .forward => s.pushRelayReply node payload

def settlePending (s : RelayState N W) (node : N) (payload : LocalMediaChunkPayload) :
    Option (RelayState N W) :=
  (s.pending node payload.requestId).map fun pending =>
    (s.setPending node payload.requestId none).resume node pending.waiter payload

def resolveLocalMediaChunk (s : RelayState N W) (node : N) (payload : LocalMediaChunkPayload) :
    RelayState N W :=
  if payload.requestId = "" then s
  else (s.settlePending node payload).getD (s.pushRelayReply node payload)

def openSockets (s : RelayState N W) (node : N) (roomId : String) (userId : UserId) : List W :=
  ((s.registry node).getSocketsForUser roomId userId).filter s.isOpen

def sendReadToSockets (s : RelayState N W) (sockets : List W) (read : LocalMediaReadRequest) :
    RelayState N W :=
  { s with reads := fun ws => s.reads ws ++ (sockets.filter (· = ws)).map fun _ => read }

/-- A request id that nobody has named. -/
def Fresh (s : RelayState N W) (requestId : String) : Prop :=
  IsRequestId requestId ∧ requestId ∉ s.drawn

instance (s : RelayState N W) (requestId : String) : Decidable (s.Fresh requestId) :=
  inferInstanceAs (Decidable (_ ∧ _))

/-- `randomUUID`, and what it is for. -/
def draw (s : RelayState N W) (c : ℕ) (read : LocalMediaReadRequest) : RelayState N W :=
  { s with
    drawn := read.requestId :: s.drawn
    asked := Function.update s.asked read.requestId (some (c,read)) }

/-- A fetch with the sockets of the node, if the user has any there. -/
def fetchChunkViaLocalSockets (s : RelayState N W) (c : ℕ) (fetch : RangeFetch N)
    (requestId : String) : Option (RelayState N W) :=
  let sockets := (s.registry fetch.node).getSocketsForUser fetch.entry.roomId fetch.entry.ownerUserId
  if sockets = [] then some (s.setFetch c fetch .holder)
  else if s.Fresh requestId then
    let drawn := s.draw c (fetch.read requestId)
    match s.openSockets fetch.node fetch.entry.roomId fetch.entry.ownerUserId with
    | [] => some (drawn.setFetch c fetch .holder)
    | ws :: rest =>
      let waiting := drawn.setPending fetch.node requestId
        (some { waiter := .fetch c, deadline := s.nowMs+LOCAL_MEDIA_RELAY_TIMEOUT_MS })
      some ((waiting.sendReadToSockets (ws :: rest) (fetch.read requestId)).setFetch c fetch
        (.localWait requestId))
  else none

def fetchLocalMediaRangeBytes (s : RelayState N W) (c : ℕ) (fetch : RangeFetch N)
    (requestId : String) : Option (RelayState N W) :=
  if fetch.invalidRange then some (s.setFetch c fetch (.ended (.thrown .invalidRange)))
  else s.fetchChunkViaLocalSockets c fetch requestId

/-- `DEL`, `PUBLISH`, and the `BLPOP` is sent. -/
def publishRequest (s : RelayState N W) (c : ℕ) (fetch : RangeFetch N) (requestId : String)
    (reaches : N → Bool) : RelayState N W :=
  let drawn := s.draw c (fetch.read requestId)
  let request : RelayPubSubRequest N :=
    { read := fetch.read requestId, roomId := fetch.entry.roomId,
      ownerUserId := fetch.entry.ownerUserId, originNodeId := fetch.node }
  { drawn with
    floods := fun node => s.floods node ++ if reaches node then [request] else []
    replies := Function.update s.replies requestId none
    queue := Function.update s.queue fetch.node (s.queue fetch.node ++ [c]) }.setFetch c fetch
      (.queued requestId)

/-- The store comes to the first `BLPOP` that a node has sent. -/
def serveNext (s : RelayState N W) (node : N) : Option (RelayState N W) :=
  match s.served node,s.queue node with
  | none,c :: rest =>
    (s.fetches c).bind fun fetch =>
      match fetch.phase with
      | .queued requestId =>
        some ({ s with
          served := Function.update s.served node (some c)
          queue := Function.update s.queue node rest }.setFetch c fetch
            (.popping requestId (s.nowMs+LOCAL_MEDIA_RELAY_TIMEOUT_MS)))
      | _ => none
  | _,_ => none

def handleRelayPubSubRequest (s : RelayState N W) (node : N) (message : RelayPubSubRequest N) :
    RelayState N W :=
  let sockets := (s.registry node).getSocketsForUser message.roomId message.ownerUserId
  if sockets = [] then s
  else if message.originNodeId = node then s
  else
    match s.openSockets node message.roomId message.ownerUserId with
    | [] => s.setPending node message.read.requestId none
    | ws :: rest =>
      (s.setPending node message.read.requestId
        (some { waiter := .forward, deadline := s.nowMs+LOCAL_MEDIA_RELAY_TIMEOUT_MS }))
          |>.sendReadToSockets (ws :: rest) message.read

def rejectPending (s : RelayState N W) (node : N) (requestId : String) (pending : PendingChunk) :
    RelayState N W :=
  (s.setPending node requestId none).resume node pending.waiter
    { requestId := requestId, ok := false, error := some "provider_timeout" }

/-- `RPUSH` -/
def appendReply (s : RelayState N W) (payload : LocalMediaChunkPayload) : RelayState N W :=
  let list := (s.replies payload.requestId).getD { items := [], expiresAt := none }
  { s with
    replies := Function.update s.replies payload.requestId
      (some { list with items := list.items ++ [payload] }) }

/-- `EXPIRE` -/
def expireReplies (s : RelayState N W) (requestId : String) : RelayState N W :=
  { s with
    replies := Function.update s.replies requestId
      ((s.replies requestId).map fun list =>
        { list with expiresAt := some (s.nowMs+relayReplyTtlMs) }) }

/-- What is left of a list when its first reply is popped. A list without replies is no key. -/
def popReply (s : RelayState N W) (requestId : String) (list : ReplyList)
    (rest : List LocalMediaChunkPayload) : RelayState N W :=
  { s with
    replies := Function.update s.replies requestId
      (if rest = [] then none else some { list with items := rest }) }

end RelayState

inductive RelayAction (N W : Type*)
  | tick (ms : ℕ)
  | setRegistry (node : N) (registry : SocketRegistry W)
  | setHeld (ws : W) (localMediaId : String) (held : Bool)
  | close (ws : W)
  | fetch (c : ℕ) (node : N) (entry : RelayEntry) (start stop : ℤ) (requestId : String)
  /-- A tab takes its next read; the file may fail it or come too late. -/
  | tabReads (ws : W) (timed : ReadOutcome)
  /-- The node of a tab gets what it has sent. -/
  | receive (ws : W)
  /-- A chunk that nobody was asked for. -/
  | makeUp (node : N) (message : TabMessage)
  | fireTimer (node : N) (requestId : String)
  /-- `fetchChunkViaInternalHttp` -/
  | holderAnswers (c : ℕ) (bytes : Option (List UInt8))
  | flood (c : ℕ) (requestId : String) (reaches : N → Bool)
  | serve (node : N)
  | storeFails (c : ℕ)
  | handleFlood (node : N)
  | push (i : ℕ)
  | pushFails (i : ℕ)
  | pop (c : ℕ)
  | popTimeout (c : ℕ)
  | lapse (requestId : String)

/-- The files by the ids of their media, and the node of each tab. -/
structure RelayWorld (N W : Type*) where
  files : String → List UInt8
  home : W → N

def relayStep (world : RelayWorld N W) (s : RelayState N W) :
    RelayAction N W → Option (RelayState N W)
  | .tick ms => some { s with nowMs := s.nowMs+ms }
  | .setRegistry node registry =>
    some { s with registry := Function.update s.registry node registry }
  | .setHeld ws localMediaId held =>
    some { s with
      held := Function.update s.held ws (Function.update (s.held ws) localMediaId held) }
  | .close ws => some { s with isOpen := Function.update s.isOpen ws false }
  | .fetch c node entry start stop requestId =>
    if s.fetches c = none then
      s.fetchLocalMediaRangeBytes c
        { node := node, entry := entry, start := start, stop := stop, phase := .holder } requestId
    else none
  | .tabReads ws timed =>
    match s.reads ws with
    | [] => none
    | read :: rest =>
      let answer := if s.held ws read.localMediaId then
          answerTabRead (world.files read.localMediaId) read timed
        else none
      some { s with
        reads := Function.update s.reads ws rest
        frames := Function.update s.frames ws (s.frames ws ++ answer.toList) }
  | .receive ws =>
    match s.frames ws with
    | [] => none
    | message :: rest =>
      let s' := { s with frames := Function.update s.frames ws rest }
      match message.payload with
      | none => some s'
      | some payload => some (s'.resolveLocalMediaChunk (world.home ws) payload)
  | .makeUp node message =>
    message.payload.bind fun payload =>
      if s.asked payload.requestId = none then
        some ({ s with drawn := payload.requestId :: s.drawn }.resolveLocalMediaChunk node payload)
      else none
  | .fireTimer node requestId =>
    (s.pending node requestId).bind fun pending =>
      if pending.deadline ≤ s.nowMs then some (s.rejectPending node requestId pending) else none
  | .holderAnswers c bytes =>
    (s.fetches c).bind fun fetch =>
      if fetch.phase = .holder then
        some (s.setFetch c fetch (match bytes with
          | some (b :: bytes) => .ended (.ofHolder (b :: bytes))
          | _ => .flooding))
      else none
  | .flood c requestId reaches =>
    (s.fetches c).bind fun fetch =>
      if fetch.phase = .flooding ∧ s.served fetch.node = none ∧ s.Fresh requestId then
        some (s.publishRequest c fetch requestId reaches)
      else none
  | .serve node => s.serveNext node
  | .storeFails c =>
    (s.fetches c).bind fun fetch =>
      match fetch.phase with
      | .flooding | .queued _ | .popping _ _ =>
        some ((s.leaveClient c fetch).setFetch c fetch (.ended (.thrown .relayFailed)))
      | _ => none
  | .handleFlood node =>
    match s.floods node with
    | [] => none
    | message :: rest =>
      some ({ s with floods := Function.update s.floods node rest }.handleRelayPubSubRequest node
        message)
  | .push i =>
    (s.pushes[i]?).bind fun push =>
      if s.served push.node = none then
        some (if push.pushed then
          { s with pushes := s.pushes.eraseIdx i }.expireReplies push.payload.requestId
        else
          { s with pushes := s.pushes.set i { push with pushed := true } }.appendReply push.payload)
      else none
  | .pushFails i =>
    (s.pushes[i]?).map fun push =>
      { s with
        pushes := s.pushes.eraseIdx i
        unexpiring :=
          if push.pushed then push.payload.requestId :: s.unexpiring else s.unexpiring }
  | .pop c =>
    (s.fetches c).bind fun fetch =>
      match fetch.phase with
      | .popping requestId _ =>
        (s.replies requestId).bind fun list =>
          match list.items with
          | [] => none
          | payload :: rest =>
            some (((s.popReply requestId list rest).leaveClient c fetch).endFetch c payload)
      | _ => none
  | .popTimeout c =>
    (s.fetches c).bind fun fetch =>
      match fetch.phase with
      | .popping _ deadline =>
        if deadline ≤ s.nowMs then
          some ((s.leaveClient c fetch).setFetch c fetch (.ended (.thrown .providerTimeout)))
        else none
      | _ => none
  | .lapse requestId =>
    (s.replies requestId).bind fun list =>
      list.expiresAt.bind fun expiresAt =>
        if expiresAt ≤ s.nowMs then
          some { s with replies := Function.update s.replies requestId none }
        else none

def relaySystem (world : RelayWorld N W) :
    TransitionSystem (RelayState N W) (RelayAction N W) where
  init s := s = {}
  step s a s' := relayStep world s a = some s'

end Relay

section Payload

/-- Bytes come raw, or in base 64. -/
def LocalMediaChunkPayload.Single (payload : LocalMediaChunkPayload) : Prop :=
  payload.data = none ∨ payload.dataBase64 = none

theorem TabMessage.single {message : TabMessage} {payload : LocalMediaChunkPayload}
    (h : message.payload = some payload) : payload.Single := by
  cases message with
  | binary frame =>
    obtain ⟨chunk,-,hchunk⟩ := Option.map_eq_some_iff.mp h
    rw [← hchunk]
    exact .inr rfl
  | json sent =>
    cases h
    exact .inl rfl

theorem bytes_serialize {payload : LocalMediaChunkPayload} (h : payload.Single)
    {bytes : List UInt8}
    (hbytes : payload.serializeRelayReplyPayload.bytesFromChunkPayload = some bytes) :
    payload.bytesFromChunkPayload = some bytes := by
  unfold LocalMediaChunkPayload.serializeRelayReplyPayload at hbytes
  cases hdata : payload.data with
  | none => simpa only [hdata] using hbytes
  | some data =>
    have hbase : payload.dataBase64 = none := h.resolve_left (by simp [hdata])
    simp only [hdata,hbase,Option.getD_none,if_true,LocalMediaChunkPayload.bytesFromChunkPayload,
      Option.getD_some,String.toList_ofList,Base64.decode_encode] at hbytes ⊢
    split at hbytes
    · cases hbytes
    · exact hbytes

theorem single_serialize (payload : LocalMediaChunkPayload) :
    payload.serializeRelayReplyPayload.Single := by
  unfold LocalMediaChunkPayload.serializeRelayReplyPayload
  left
  cases hdata : payload.data with
  | none => exact hdata
  | some data => dsimp only; split <;> rfl

@[simp] theorem requestId_serialize (payload : LocalMediaChunkPayload) :
    payload.serializeRelayReplyPayload.requestId = payload.requestId := by
  unfold LocalMediaChunkPayload.serializeRelayReplyPayload
  cases payload.data with
  | none => rfl
  | some data => dsimp only; split <;> rfl

@[simp] theorem ok_serialize (payload : LocalMediaChunkPayload) :
    payload.serializeRelayReplyPayload.ok = payload.ok := by
  unfold LocalMediaChunkPayload.serializeRelayReplyPayload
  cases payload.data with
  | none => rfl
  | some data => dsimp only; split <;> rfl

theorem outcome_eq_ok {payload : LocalMediaChunkPayload} {bytes : List UInt8}
    (h : payload.outcome = .ok bytes) :
    payload.ok = true ∧ payload.bytesFromChunkPayload = some bytes := by
  unfold LocalMediaChunkPayload.outcome at h
  cases hok : payload.ok with
  | false => simp [hok] at h
  | true =>
    cases hbytes : payload.bytesFromChunkPayload with
    | none => simp [hok,hbytes] at h
    | some found =>
      simp only [hok,hbytes,Except.ok.injEq] at h
      exact ⟨rfl,congrArg some h⟩

theorem not_startsWithMark {requestId : String} (h : IsRequestId requestId) :
    ¬StartsWithMark requestId := by
  intro hmark
  have hmem : '\uFEFF' ∈ requestId.toList := List.mem_of_mem_head? hmark
  exact absurd (h.2 _ hmem) (by decide)

theorem answerTabRead_payload {file : List UInt8} {read : LocalMediaReadRequest} {timed : ReadOutcome}
    {message : TabMessage} {payload : LocalMediaChunkPayload} (hid : IsRequestId read.requestId)
    (h : answerTabRead file read timed = some message) (hpayload : message.payload = some payload) :
    payload.requestId = read.requestId ∧ (payload.ok = true →
      payload.bytesFromChunkPayload = some (readLocalMediaRange file read.start read.stop)) := by
  unfold answerTabRead at h
  dsimp only at h
  split at h
  · cases h
  · cases h
    cases hpayload
    exact ⟨rfl,fun hok => by cases hok⟩
  · rename_i bytes hserved
    have hbytes : bytes = readLocalMediaRange file read.start read.stop := by
      have hread := read_of_served hserved
      cases timed with
      | bytes _ => exact (ReadOutcome.bytes.inj hread).symm
      | failed | timedOut => cases hread
    have hlength : (textEncode read.requestId).length ≤ 0xffff := by
      rw [textEncode_length hid]
      decide
    let chunk : LocalMediaChunk :=
      { requestId := read.requestId, ok := true, data := some bytes, error := none }
    have hid : ¬StartsWithMark chunk.requestId := not_startsWithMark hid
    obtain ⟨frame,hframe,hdecode⟩ := decode_encode hid (fun _ herror => by cases herror) hlength
    rw [hframe] at h
    cases h
    obtain ⟨chunk,hchunk,hof⟩ := Option.map_eq_some_iff.mp hpayload
    rw [hdecode] at hchunk
    cases hchunk
    rw [← hof]
    refine ⟨rfl,fun _ => ?_⟩
    rw [← hbytes]
    rfl

end Payload

section Invariant

variable {N W : Type*}

/-- What a payload says for a request that was asked is what the file has. -/
structure Sound (world : RelayWorld N W) (drawn : List String)
    (asked : String → Option (ℕ × LocalMediaReadRequest)) (payload : LocalMediaChunkPayload) :
    Prop where
  mem : payload.requestId ∈ drawn
  single : payload.Single
  bytes : ∀ c read, asked payload.requestId = some (c,read) → payload.ok = true →
    ∀ found, payload.bytesFromChunkPayload = some found →
      found = readLocalMediaRange (world.files read.localMediaId) read.start read.stop

def FetchOk (world : RelayWorld N W) (s : RelayState N W) (c : ℕ) (fetch : RangeFetch N) : Prop :=
  match fetch.phase with
  | .localWait requestId => s.asked requestId = some (c,fetch.read requestId) ∧
      ∃ deadline, s.pending fetch.node requestId = some ⟨.fetch c,deadline⟩
  | .queued requestId => s.asked requestId = some (c,fetch.read requestId)
  | .popping requestId deadline => s.asked requestId = some (c,fetch.read requestId) ∧
      deadline ≤ s.nowMs+LOCAL_MEDIA_RELAY_TIMEOUT_MS
  | .ended (.relayed bytes) =>
    bytes = readLocalMediaRange (world.files fetch.entry.id) fetch.start fetch.clampedEnd
  | _ => True

/-- A reply list goes away by itself, or `EXPIRE` is to come or has failed. -/
def Expiring (s : RelayState N W) (requestId : String) (list : ReplyList) : Prop :=
  (∃ t, list.expiresAt = some t ∧ t ≤ s.nowMs+relayReplyTtlMs) ∨
    (∃ push ∈ s.pushes, push.payload.requestId = requestId ∧ push.pushed = true) ∨
    requestId ∈ s.unexpiring

structure RelayOk (world : RelayWorld N W) (s : RelayState N W) : Prop where
  asked : ∀ requestId c read, s.asked requestId = some (c,read) →
    requestId ∈ s.drawn ∧ read.requestId = requestId ∧ IsRequestId requestId
  reads : ∀ ws, ∀ read ∈ s.reads ws, ∃ c, s.asked read.requestId = some (c,read)
  frames : ∀ ws, ∀ message ∈ s.frames ws, ∀ payload, message.payload = some payload →
    Sound world s.drawn s.asked payload
  floods : ∀ node, ∀ message ∈ s.floods node, ∃ c,
    s.asked message.read.requestId = some (c,message.read) ∧
      ∀ fetch, s.fetches c = some fetch → fetch.phase ≠ .localWait message.read.requestId
  pushes : ∀ push ∈ s.pushes, Sound world s.drawn s.asked push.payload
  replies : ∀ requestId list, s.replies requestId = some list → list.items ≠ [] ∧
    ∀ payload ∈ list.items, payload.requestId = requestId ∧ Sound world s.drawn s.asked payload
  expiring : ∀ requestId list, s.replies requestId = some list → Expiring s requestId list
  pending : ∀ node requestId waiting, s.pending node requestId = some waiting →
    requestId ∈ s.drawn ∧ waiting.deadline ≤ s.nowMs+LOCAL_MEDIA_RELAY_TIMEOUT_MS ∧
      ∀ c, waiting.waiter = .fetch c → ∃ fetch, s.fetches c = some fetch ∧ fetch.node = node ∧
        fetch.phase = .localWait requestId
  fetches : ∀ c fetch, s.fetches c = some fetch → FetchOk world s c fetch

variable {world : RelayWorld N W} {s : RelayState N W}

theorem FetchOk.congr {s' : RelayState N W} {c : ℕ} {fetch : RangeFetch N}
    (h : FetchOk world s c fetch) (hnow : s.nowMs ≤ s'.nowMs)
    (hasked : ∀ requestId, s.asked requestId = some (c,fetch.read requestId) →
      s'.asked requestId = s.asked requestId)
    (hpending : ∀ requestId, fetch.phase = .localWait requestId →
      s'.pending fetch.node requestId = s.pending fetch.node requestId) :
    FetchOk world s' c fetch := by
  unfold FetchOk at h ⊢
  cases hphase : fetch.phase with
  | localWait requestId =>
    simp only [hphase] at h ⊢
    rw [hasked requestId h.1,hpending requestId hphase]
    exact h
  | queued requestId =>
    simp only [hphase] at h ⊢
    rw [hasked requestId h]
    exact h
  | popping requestId deadline =>
    simp only [hphase] at h ⊢
    rw [hasked requestId h.1]
    exact ⟨h.1,h.2.trans (Nat.add_le_add_right hnow _)⟩
  | holder | flooding => simp
  | ended outcome =>
    cases outcome with
    | relayed bytes =>
      simp only [hphase] at h ⊢
      exact h
    | ofHolder | thrown => simp

namespace Sound

variable {drawn drawn' : List String} {asked asked' : String → Option (ℕ × LocalMediaReadRequest)}
  {payload : LocalMediaChunkPayload}

theorem congr (h : Sound world drawn asked payload) (hdrawn : drawn ⊆ drawn')
    (hasked : ∀ requestId ∈ drawn, asked' requestId = asked requestId) :
    Sound world drawn' asked' payload where
  mem := hdrawn h.mem
  single := h.single
  bytes c read hread := h.bytes c read (by rw [← hasked _ h.mem]; exact hread)

theorem serialize (h : Sound world drawn asked payload) :
    Sound world drawn asked payload.serializeRelayReplyPayload where
  mem := by
    rw [requestId_serialize]
    exact h.mem
  single := single_serialize payload
  bytes c read hread hok found hfound := by
    rw [requestId_serialize] at hread
    rw [ok_serialize] at hok
    exact h.bytes c read hread hok found (bytes_serialize h.single hfound)

theorem failure {requestId : String} (hmem : requestId ∈ drawn) (error : Option String) :
    Sound world drawn asked { requestId := requestId, ok := false, error := error } where
  mem := hmem
  single := .inl rfl
  bytes _ _ _ hok := by cases hok

theorem unasked (hmem : payload.requestId ∈ drawn) (hsingle : payload.Single)
    (hasked : asked payload.requestId = none) : Sound world drawn asked payload where
  mem := hmem
  single := hsingle
  bytes c read hread := by
    rw [hasked] at hread
    cases hread

end Sound

namespace RelayOk

theorem start (world : RelayWorld N W) : RelayOk world ({} : RelayState N W) where
  asked _ _ _ h := by cases h
  reads _ _ h := by cases h
  frames _ _ h := by cases h
  floods _ _ h := by cases h
  pushes _ h := by cases h
  replies _ _ h := by cases h
  expiring _ _ h := by cases h
  pending _ _ _ h := by cases h
  fetches _ _ h := by cases h

theorem tick (h : RelayOk world s) (ms : ℕ) : RelayOk world { s with nowMs := s.nowMs+ms } :=
  { h with
    expiring := fun requestId list hlist => by
      rcases h.expiring requestId list hlist with ⟨t,ht,hle⟩ | hother
      · exact .inl ⟨t,ht,hle.trans (by show _ ≤ s.nowMs+ms+_; omega)⟩
      · exact .inr hother
    pending := fun node requestId waiting hw => by
      obtain ⟨hdrawn,hdeadline,hfetch⟩ := h.pending node requestId waiting hw
      exact ⟨hdrawn,hdeadline.trans (by show _ ≤ s.nowMs+ms+_; omega),hfetch⟩
    fetches := fun c fetch hfetch =>
      (h.fetches c fetch hfetch).congr (Nat.le_add_right _ _) (fun _ _ => rfl) fun _ _ => rfl }

theorem grow (h : RelayOk world s) {drawn : List String}
    {asked : String → Option (ℕ × LocalMediaReadRequest)} (hdrawn : s.drawn ⊆ drawn)
    (hsame : ∀ requestId ∈ s.drawn, asked requestId = s.asked requestId)
    (hasked : ∀ requestId c read, asked requestId = some (c,read) →
      requestId ∈ drawn ∧ read.requestId = requestId ∧ IsRequestId requestId) :
    RelayOk world { s with drawn := drawn, asked := asked } := by
  have hkeep : ∀ {requestId : String} {c : ℕ} {read : LocalMediaReadRequest},
      s.asked requestId = some (c,read) → asked requestId = some (c,read) := by
    intro requestId c read hread
    rw [hsame requestId (h.asked requestId c read hread).1]
    exact hread
  exact
    { asked := hasked
      reads := fun ws read hread => (h.reads ws read hread).imp fun c hc => hkeep hc
      frames := fun ws message hm payload hp =>
        (h.frames ws message hm payload hp).congr hdrawn hsame
      floods := fun node message hm =>
        (h.floods node message hm).imp fun c hc => ⟨hkeep hc.1,hc.2⟩
      pushes := fun push hpush => (h.pushes push hpush).congr hdrawn hsame
      replies := fun requestId list hlist => ⟨(h.replies requestId list hlist).1,
        fun payload hp => ⟨((h.replies requestId list hlist).2 payload hp).1,
          ((h.replies requestId list hlist).2 payload hp).2.congr hdrawn hsame⟩⟩
      expiring := h.expiring
      pending := fun node requestId waiting hw => by
        obtain ⟨hmem,hrest⟩ := h.pending node requestId waiting hw
        exact ⟨hdrawn hmem,hrest⟩
      fetches := fun c fetch hfetch => (h.fetches c fetch hfetch).congr (le_refl _)
        (fun requestId hr => hsame requestId (h.asked requestId _ _ hr).1) fun _ _ => rfl }

theorem draw (h : RelayOk world s) {c : ℕ}
    {read : LocalMediaReadRequest} (hfresh : s.Fresh read.requestId) :
    RelayOk world (s.draw c read) := by
  refine h.grow (List.subset_cons_self _ _) (fun requestId hmem => ?_) ?_
  · refine Function.update_of_ne ?_ _ _
    rintro rfl
    exact hfresh.2 hmem
  · intro requestId c' read' hread
    by_cases heq : requestId = read.requestId
    · subst heq
      rw [Function.update_self] at hread
      cases hread
      exact ⟨List.mem_cons_self,rfl,hfresh.1⟩
    · rw [Function.update_of_ne heq] at hread
      obtain ⟨hmem,hid⟩ := h.asked requestId c' read' hread
      exact ⟨List.mem_cons_of_mem _ hmem,hid⟩

theorem setFetch (h : RelayOk world s) {c : ℕ}
    {fetch : RangeFetch N} {phase : FetchPhase}
    (hold : ∀ old, s.fetches c = some old → ∀ requestId, old.phase ≠ .localWait requestId)
    (hnew : ∀ requestId, phase ≠ .localWait requestId)
    (hok : FetchOk world s c { fetch with phase := phase }) :
    RelayOk world (s.setFetch c fetch phase) :=
  { h with
    floods := fun node message hm => by
      obtain ⟨c',hread,hphase⟩ := h.floods node message hm
      refine ⟨c',hread,fun other hother => ?_⟩
      by_cases heq : c' = c
      · subst heq
        have hfetch : some { fetch with phase := phase } = some other := by
          simpa [RelayState.setFetch] using hother
        cases hfetch
        exact hnew _
      · exact hphase other (by simpa [RelayState.setFetch,heq] using hother)
    pending := fun node requestId waiting hw => by
      obtain ⟨hmem,hdeadline,hfetch⟩ := h.pending node requestId waiting hw
      refine ⟨hmem,hdeadline,fun c' hc => ?_⟩
      obtain ⟨found,hfound,hnode,hphase⟩ := hfetch c' hc
      by_cases heq : c' = c
      · subst heq
        exact absurd hphase (hold found hfound requestId)
      · exact ⟨found,by simpa [RelayState.setFetch,heq] using hfound,hnode,hphase⟩
    fetches := fun c' found hfound => by
      by_cases heq : c' = c
      · subst heq
        have hfetch : some { fetch with phase := phase } = some found := by
          simpa [RelayState.setFetch] using hfound
        cases hfetch
        exact hok.congr (le_refl _) (fun _ _ => rfl) fun _ _ => rfl
      · exact (h.fetches c' found (by simpa [RelayState.setFetch,heq] using hfound)).congr
          (le_refl _) (fun _ _ => rfl) fun _ _ => rfl }

theorem pushRelayReply (h : RelayOk world s) (node : N) {payload : LocalMediaChunkPayload}
    (hsound : Sound world s.drawn s.asked payload) :
    RelayOk world (s.pushRelayReply node payload) :=
  { h with
    pushes := fun push hpush => by
      rcases List.mem_append.mp hpush with hold | hnew
      · exact h.pushes push hold
      · rw [List.mem_singleton.mp hnew]
        exact hsound.serialize
    expiring := fun requestId list hlist => by
      rcases h.expiring requestId list hlist with ht | ⟨push,hpush,hid⟩ | hfailed
      · exact .inl ht
      · exact .inr (.inl ⟨push,List.mem_append_left _ hpush,hid⟩)
      · exact .inr (.inr hfailed) }

theorem endFetch_cases (s : RelayState N W) {c : ℕ} {fetch : RangeFetch N}
    (hfetch : s.fetches c = some fetch) (payload : LocalMediaChunkPayload) :
    ∃ outcome, s.endFetch c payload = s.setFetch c fetch (.ended outcome) ∧
      ∀ bytes, outcome = .relayed bytes →
        payload.ok = true ∧ payload.bytesFromChunkPayload = some bytes := by
  unfold RelayState.endFetch
  simp only [hfetch]
  cases houtcome : payload.outcome with
  | ok found =>
    refine ⟨.relayed found,rfl,fun bytes hbytes => ?_⟩
    cases hbytes
    exact outcome_eq_ok houtcome
  | error code => exact ⟨.thrown code,rfl,fun bytes hbytes => by cases hbytes⟩

theorem fetchOk_ended (world : RelayWorld N W) (s : RelayState N W) {c : ℕ} {fetch : RangeFetch N}
    {payload : LocalMediaChunkPayload} (hsound : Sound world s.drawn s.asked payload)
    (hasked : s.asked payload.requestId = some (c,fetch.read payload.requestId))
    {outcome : FetchOutcome} (hbytes : ∀ bytes, outcome = .relayed bytes →
      payload.ok = true ∧ payload.bytesFromChunkPayload = some bytes) :
    FetchOk world s c { fetch with phase := .ended outcome } := by
  unfold FetchOk
  cases outcome with
  | relayed bytes =>
    obtain ⟨hok,hfound⟩ := hbytes bytes rfl
    exact hsound.bytes c _ hasked hok bytes hfound
  | ofHolder | thrown => trivial

variable [DecidableEq N]

theorem pending_setPending_ne (s : RelayState N W) {node node' : N} {requestId requestId' : String}
    (h : ¬(node' = node ∧ requestId' = requestId)) (pending : Option PendingChunk) :
    (s.setPending node requestId pending).pending node' requestId' =
      s.pending node' requestId' := by
  by_cases hnode : node' = node
  · subst hnode
    have hid : requestId' ≠ requestId := fun heq => h ⟨rfl,heq⟩
    simp [RelayState.setPending,hid]
  · simp [RelayState.setPending,hnode]

@[simp] theorem pending_setPending (s : RelayState N W) (node : N) (requestId : String)
    (pending : Option PendingChunk) :
    (s.setPending node requestId pending).pending node requestId = pending := by
  simp [RelayState.setPending]

theorem setPending (h : RelayOk world s) {node : N} {requestId : String}
    {pending : Option PendingChunk}
    (hold : ∀ waiting, s.pending node requestId = some waiting → waiting.waiter = .forward)
    (hnew : ∀ waiting, pending = some waiting → requestId ∈ s.drawn ∧
      waiting.deadline ≤ s.nowMs+LOCAL_MEDIA_RELAY_TIMEOUT_MS ∧ waiting.waiter = .forward) :
    RelayOk world (s.setPending node requestId pending) :=
  { h with
    pending := fun node' requestId' waiting hw => by
      by_cases hat : node' = node ∧ requestId' = requestId
      · obtain ⟨rfl,rfl⟩ := hat
        rw [pending_setPending] at hw
        obtain ⟨hmem,hdeadline,hforward⟩ := hnew waiting hw
        refine ⟨hmem,hdeadline,fun c hc => ?_⟩
        rw [hforward] at hc
        cases hc
      · rw [pending_setPending_ne s hat] at hw
        exact h.pending node' requestId' waiting hw
    fetches := fun c fetch hfetch => by
      have hok := h.fetches c fetch hfetch
      refine hok.congr (le_refl _) (fun _ _ => rfl) fun requestId' hphase => ?_
      refine pending_setPending_ne s ?_ pending
      rintro ⟨rfl,rfl⟩
      unfold FetchOk at hok
      simp only [hphase] at hok
      obtain ⟨-,deadline,hpending⟩ := hok
      have hforward := hold _ hpending
      cases hforward }

theorem settleFetch (h : RelayOk world s) {node : N} {c deadline : ℕ}
    {payload : LocalMediaChunkPayload}
    (hpending : s.pending node payload.requestId = some ⟨.fetch c,deadline⟩)
    (hsound : Sound world s.drawn s.asked payload) :
    RelayOk world ((s.setPending node payload.requestId none).endFetch c payload) := by
  obtain ⟨-,-,hwaiter⟩ := h.pending node _ _ hpending
  obtain ⟨fetch,hfetch,hnode,hphase⟩ := hwaiter c rfl
  have hok := h.fetches c fetch hfetch
  unfold FetchOk at hok
  simp only [hphase] at hok
  obtain ⟨hasked,-⟩ := hok
  obtain ⟨outcome,hend,hbytes⟩ := endFetch_cases (s.setPending node payload.requestId none)
    hfetch payload
  rw [hend]
  exact
    { h with
      floods := fun node' message hm => by
        obtain ⟨c',hread,hother⟩ := h.floods node' message hm
        refine ⟨c',hread,fun found hfound => ?_⟩
        by_cases heq : c' = c
        · subst heq
          have hsame : some { fetch with phase := .ended outcome } = some found := by
            simpa [RelayState.setFetch] using hfound
          cases hsame
          exact fun hcontra => by cases hcontra
        · refine hother found ?_
          simpa [RelayState.setFetch,RelayState.setPending,heq] using hfound
      pending := fun node' requestId' waiting hw => by
        have hat : ¬(node' = node ∧ requestId' = payload.requestId) := by
          rintro ⟨rfl,rfl⟩
          have hnone := pending_setPending s node' payload.requestId none
          rw [show (s.setPending node' payload.requestId none).pending node' payload.requestId =
            some waiting from hw] at hnone
          cases hnone
        have hw' : s.pending node' requestId' = some waiting := by
          rw [← pending_setPending_ne s hat none]
          exact hw
        obtain ⟨hmem,hdeadline,hfound⟩ := h.pending node' requestId' waiting hw'
        refine ⟨hmem,hdeadline,fun c' hc => ?_⟩
        obtain ⟨found,hfound,hnode',hphase'⟩ := hfound c' hc
        have hne : c' ≠ c := by
          rintro rfl
          rw [hfetch] at hfound
          cases hfound
          rw [hphase] at hphase'
          cases hphase'
          exact hat ⟨hnode'.symm.trans hnode,rfl⟩
        exact ⟨found,by simpa [RelayState.setFetch,RelayState.setPending,hne] using hfound,hnode',
          hphase'⟩
      fetches := fun c' found hfound => by
        by_cases heq : c' = c
        · subst heq
          have hsame : some { fetch with phase := .ended outcome } = some found := by
            simpa [RelayState.setFetch] using hfound
          cases hsame
          exact (fetchOk_ended world s hsound hasked hbytes).congr (le_refl _) (fun _ _ => rfl)
            fun requestId hcontra => by cases hcontra
        · have hfound' : s.fetches c' = some found := by
            simpa [RelayState.setFetch,RelayState.setPending,heq] using hfound
          have hok' := h.fetches c' found hfound'
          refine hok'.congr (le_refl _) (fun _ _ => rfl) fun requestId' hphase' => ?_
          refine pending_setPending_ne s ?_ none
          rintro ⟨rfl,rfl⟩
          unfold FetchOk at hok'
          simp only [hphase'] at hok'
          obtain ⟨-,deadline',hpending'⟩ := hok'
          rw [hpending] at hpending'
          cases hpending'
          exact heq rfl }

theorem resume (h : RelayOk world s) {node : N} {waiting : PendingChunk}
    {payload : LocalMediaChunkPayload}
    (hpending : s.pending node payload.requestId = some waiting)
    (hsound : Sound world s.drawn s.asked payload) :
    RelayOk world ((s.setPending node payload.requestId none).resume node waiting.waiter payload) := by
  obtain ⟨waiter,deadline⟩ := waiting
  cases waiter with
  | fetch c => exact h.settleFetch hpending hsound
  | forward =>
    refine (h.setPending (fun found hfound => ?_) fun found hfound => by cases hfound).pushRelayReply
      node hsound
    rw [hpending] at hfound
    cases hfound
    rfl

theorem resolveLocalMediaChunk (h : RelayOk world s) (node : N) {payload : LocalMediaChunkPayload}
    (hsound : Sound world s.drawn s.asked payload) :
    RelayOk world (s.resolveLocalMediaChunk node payload) := by
  unfold RelayState.resolveLocalMediaChunk RelayState.settlePending
  by_cases hempty : payload.requestId = ""
  · simpa only [hempty,if_true] using h
  · rw [if_neg hempty]
    cases hpending : s.pending node payload.requestId with
    | none => exact h.pushRelayReply node hsound
    | some waiting => exact h.resume hpending hsound

omit [DecidableEq N] in
theorem sendReadToSockets [DecidableEq W] (h : RelayOk world s) (read : LocalMediaReadRequest) {c : ℕ}
    (hread : s.asked read.requestId = some (c,read)) (sockets : List W) :
    RelayOk world (s.sendReadToSockets sockets read) :=
  { h with
    reads := fun ws other hother => by
      rcases List.mem_append.mp hother with hold | hnew
      · exact h.reads ws other hold
      · obtain ⟨_,-,rfl⟩ := List.mem_map.mp hnew
        exact ⟨c,hread⟩ }

omit [DecidableEq N] in
theorem read_requestId (fetch : RangeFetch N) (requestId : String) :
    (fetch.read requestId).requestId = requestId := rfl

theorem wait (h : RelayOk world s) {c : ℕ} {fetch : RangeFetch N} {requestId : String}
    (hnone : s.fetches c = none)
    (hasked : s.asked requestId = some (c,fetch.read requestId))
    (hpending : ∀ node, s.pending node requestId = none)
    (hfloods : ∀ node, ∀ message ∈ s.floods node, message.read.requestId ≠ requestId) :
    RelayOk world ((s.setPending fetch.node requestId
      (some ⟨.fetch c,s.nowMs+LOCAL_MEDIA_RELAY_TIMEOUT_MS⟩)).setFetch c fetch
        (.localWait requestId)) :=
  { h with
    floods := fun node message hm => by
      obtain ⟨c',hread,hphase⟩ := h.floods node message hm
      refine ⟨c',hread,fun found hfound => ?_⟩
      by_cases heq : c' = c
      · subst heq
        have hsame : some { fetch with phase := .localWait requestId } = some found := by
          simpa [RelayState.setFetch] using hfound
        cases hsame
        intro hcontra
        cases hcontra
        exact hfloods node message hm rfl
      · exact hphase found
          (by simpa [RelayState.setFetch,RelayState.setPending,heq] using hfound)
    pending := fun node requestId' waiting hw => by
      by_cases hat : node = fetch.node ∧ requestId' = requestId
      · obtain ⟨rfl,rfl⟩ := hat
        have hsame : some (PendingChunk.mk (.fetch c) (s.nowMs+LOCAL_MEDIA_RELAY_TIMEOUT_MS)) =
            some waiting := by
          rw [← pending_setPending s fetch.node requestId' (some _)]
          exact hw
        cases hsame
        refine ⟨(h.asked requestId' c _ hasked).1,le_refl _,fun c' hc => ?_⟩
        cases hc
        exact ⟨{ fetch with phase := .localWait requestId' },by simp [RelayState.setFetch],rfl,rfl⟩
      · have hw' : s.pending node requestId' = some waiting := by
          rw [← pending_setPending_ne s hat (some _)]
          exact hw
        obtain ⟨hmem,hdeadline,hfound⟩ := h.pending node requestId' waiting hw'
        refine ⟨hmem,hdeadline,fun c' hc => ?_⟩
        obtain ⟨found,hfound,hrest⟩ := hfound c' hc
        have hne : c' ≠ c := by
          rintro rfl
          rw [hnone] at hfound
          cases hfound
        exact ⟨found,by simpa [RelayState.setFetch,RelayState.setPending,hne] using hfound,hrest⟩
    fetches := fun c' found hfound => by
      by_cases heq : c' = c
      · subst heq
        have hsame : some { fetch with phase := .localWait requestId } = some found := by
          simpa [RelayState.setFetch] using hfound
        cases hsame
        exact ⟨hasked,_,pending_setPending s fetch.node requestId _⟩
      · have hfound' : s.fetches c' = some found := by
          simpa [RelayState.setFetch,RelayState.setPending,heq] using hfound
        have hok' := h.fetches c' found hfound'
        refine hok'.congr (le_refl _) (fun _ _ => rfl) fun requestId' hphase' => ?_
        refine pending_setPending_ne s ?_ _
        rintro ⟨hnode,rfl⟩
        unfold FetchOk at hok'
        simp only [hphase'] at hok'
        obtain ⟨-,deadline',hpending'⟩ := hok'
        rw [hpending] at hpending'
        cases hpending' }

omit [DecidableEq N] in
theorem fresh_nowhere (h : RelayOk world s) {requestId : String} (hfresh : s.Fresh requestId) :
    (∀ node, s.pending node requestId = none) ∧
      ∀ node, ∀ message ∈ s.floods node, message.read.requestId ≠ requestId := by
  constructor
  · intro node
    cases hpending : s.pending node requestId with
    | none => rfl
    | some waiting => exact absurd (h.pending node requestId waiting hpending).1 hfresh.2
  · rintro node message hm rfl
    obtain ⟨c,hread,-⟩ := h.floods node message hm
    exact hfresh.2 (h.asked _ c _ hread).1

variable [DecidableEq W]

theorem fetchLocalMediaRangeBytes (h : RelayOk world s) {c : ℕ} {fetch : RangeFetch N}
    {requestId : String} {s' : RelayState N W} (hnone : s.fetches c = none)
    (hstep : s.fetchLocalMediaRangeBytes c fetch requestId = some s') : RelayOk world s' := by
  have hold : ∀ old, s.fetches c = some old → ∀ requestId, old.phase ≠ .localWait requestId := by
    intro old hsome
    rw [hnone] at hsome
    cases hsome
  unfold RelayState.fetchLocalMediaRangeBytes RelayState.fetchChunkViaLocalSockets at hstep
  dsimp only at hstep
  by_cases hinvalid : fetch.invalidRange
  · rw [if_pos hinvalid] at hstep
    cases hstep
    exact h.setFetch hold (fun _ hcontra => by cases hcontra) trivial
  rw [if_neg hinvalid] at hstep
  by_cases hsockets : (s.registry fetch.node).getSocketsForUser fetch.entry.roomId
      fetch.entry.ownerUserId = []
  · rw [if_pos hsockets] at hstep
    cases hstep
    exact h.setFetch hold (fun _ hcontra => by cases hcontra) trivial
  rw [if_neg hsockets] at hstep
  obtain ⟨hfresh,hstep⟩ := Option.ite_none_right_eq_some.mp hstep
  have hdrawn : RelayOk world (s.draw c (fetch.read requestId)) := h.draw hfresh
  split at hstep
  · cases hstep
    exact hdrawn.setFetch hold (fun _ hcontra => by cases hcontra) trivial
  · cases hstep
    obtain ⟨hpending,hfloods⟩ := h.fresh_nowhere hfresh
    have hasked : (s.draw c (fetch.read requestId)).asked requestId =
        some (c,fetch.read requestId) := by simp [RelayState.draw,read_requestId]
    have hwait := hdrawn.wait hnone hasked hpending hfloods
    exact hwait.sendReadToSockets (fetch.read requestId) hasked _

omit [DecidableEq W] in
theorem publishRequest (h : RelayOk world s) {c : ℕ} {fetch : RangeFetch N} {requestId : String}
    (hfetch : s.fetches c = some fetch) (hphase : fetch.phase = .flooding)
    (hfresh : s.Fresh requestId) (reaches : N → Bool) :
    RelayOk world (s.publishRequest c fetch requestId reaches) := by
  have hdrawn : RelayOk world (s.draw c (fetch.read requestId)) := h.draw hfresh
  have hasked : (s.draw c (fetch.read requestId)).asked requestId =
      some (c,fetch.read requestId) := by simp [RelayState.draw,read_requestId]
  have hold : ∀ old, s.fetches c = some old → ∀ requestId, old.phase ≠ .localWait requestId := by
    intro old hsome requestId' hcontra
    rw [hfetch] at hsome
    cases hsome
    rw [hphase] at hcontra
    cases hcontra
  have hflooded : RelayOk world { s.draw c (fetch.read requestId) with
      floods := fun node => s.floods node ++ if reaches node then
        [{ read := fetch.read requestId, roomId := fetch.entry.roomId,
           ownerUserId := fetch.entry.ownerUserId, originNodeId := fetch.node }] else []
      replies := Function.update s.replies requestId none
      queue := Function.update s.queue fetch.node (s.queue fetch.node ++ [c]) } :=
    { hdrawn with
      floods := fun node message hm => by
        rcases List.mem_append.mp hm with hmold | hmnew
        · exact hdrawn.floods node message hmold
        · split at hmnew
          · rw [List.mem_singleton.mp hmnew]
            refine ⟨c,hasked,fun found hfound => ?_⟩
            exact hold found hfound requestId
          · cases hmnew
      replies := fun requestId' list hlist => by
        by_cases heq : requestId' = requestId
        · subst heq
          simp at hlist
        · have hlist' : s.replies requestId' = some list := by simpa [heq] using hlist
          exact hdrawn.replies requestId' list hlist'
      expiring := fun requestId' list hlist => by
        by_cases heq : requestId' = requestId
        · subst heq
          simp at hlist
        · have hlist' : s.replies requestId' = some list := by simpa [heq] using hlist
          exact hdrawn.expiring requestId' list hlist' }
  exact hflooded.setFetch hold (fun _ hcontra => by cases hcontra) hasked

theorem handleRelayPubSubRequest (h : RelayOk world s) {node : N}
    {message : RelayPubSubRequest N} {c : ℕ}
    (hasked : s.asked message.read.requestId = some (c,message.read))
    (hphase : ∀ fetch, s.fetches c = some fetch →
      fetch.phase ≠ .localWait message.read.requestId) :
    RelayOk world (s.handleRelayPubSubRequest node message) := by
  have hold : ∀ waiting, s.pending node message.read.requestId = some waiting →
      waiting.waiter = .forward := by
    intro waiting hpending
    obtain ⟨-,-,hfetch⟩ := h.pending node _ waiting hpending
    cases hwaiter : waiting.waiter with
    | forward => rfl
    | fetch c' =>
      obtain ⟨fetch,hfound,-,hwait⟩ := hfetch c' hwaiter
      have hok := h.fetches c' fetch hfound
      unfold FetchOk at hok
      simp only [hwait] at hok
      rw [hasked] at hok
      obtain ⟨rfl,-⟩ := Prod.mk.inj (Option.some.inj hok.1)
      exact absurd hwait (hphase fetch hfound)
  unfold RelayState.handleRelayPubSubRequest
  dsimp only
  split
  · exact h
  split
  · exact h
  split
  · exact h.setPending hold fun waiting hw => by cases hw
  · refine (h.setPending hold fun waiting hw => ?_).sendReadToSockets message.read hasked _
    cases hw
    exact ⟨(h.asked _ c _ hasked).1,le_refl _,rfl⟩

omit [DecidableEq N] [DecidableEq W] in
theorem expiring_of {s' : RelayState N W} {requestId : String} {list : ReplyList}
    (h : Expiring s requestId list) (hnow : s'.nowMs = s.nowMs)
    (hpushes : ∀ push ∈ s.pushes, push.payload.requestId = requestId → push.pushed = true →
      push ∈ s'.pushes ∨ requestId ∈ s'.unexpiring)
    (hunexpiring : s.unexpiring ⊆ s'.unexpiring) : Expiring s' requestId list := by
  rcases h with ⟨t,ht,hle⟩ | ⟨push,hpush,hid,hpushed⟩ | hfailed
  · exact .inl ⟨t,ht,by rw [hnow]; exact hle⟩
  · rcases hpushes push hpush hid hpushed with hstill | hfailed
    · exact .inr (.inl ⟨push,hstill,hid,hpushed⟩)
    · exact .inr (.inr hfailed)
  · exact .inr (.inr (hunexpiring hfailed))

omit [DecidableEq N] [DecidableEq W] in
theorem mem_eraseIdx_or {α : Type*} {xs : List α} {i : ℕ} {x y : α} (hx : xs[i]? = some x)
    (hy : y ∈ xs) : y ∈ xs.eraseIdx i ∨ y = x := by
  by_cases heq : y = x
  · exact .inr heq
  · obtain ⟨j,hj⟩ := List.getElem?_of_mem hy
    left
    refine List.mem_eraseIdx_iff_getElem?.mpr ⟨j,?_,hj⟩
    rintro rfl
    rw [hx] at hj
    exact heq (Option.some.inj hj).symm

omit [DecidableEq N] [DecidableEq W] in
theorem appendReply (h : RelayOk world s) {i : ℕ} {push : ReplyPush N} (hi : s.pushes[i]? = some push)
    (hpushed : push.pushed = false) :
    RelayOk world ({ s with
      pushes := s.pushes.set i { push with pushed := true } }.appendReply push.payload) := by
  have hpush := List.mem_of_getElem? hi
  have hlt : i < s.pushes.length := (List.getElem?_eq_some_iff.mp hi).1
  have hsound := h.pushes push hpush
  exact
    { h with
      pushes := fun other hother => by
        rcases List.mem_or_eq_of_mem_set hother with hold | rfl
        · exact h.pushes other hold
        · exact hsound
      replies := fun requestId list hlist => by
        by_cases heq : requestId = push.payload.requestId
        · subst heq
          simp only [RelayState.appendReply,Function.update_self,Option.some.injEq] at hlist
          subst hlist
          refine ⟨by simp,fun payload hp => ?_⟩
          rcases List.mem_append.mp hp with hold | hnew
          · cases hfound : s.replies push.payload.requestId with
            | none => simp [hfound] at hold
            | some found =>
              rw [hfound] at hold
              exact (h.replies _ found hfound).2 payload hold
          · rw [List.mem_singleton.mp hnew]
            exact ⟨rfl,hsound⟩
        · exact h.replies requestId list
            (by simpa [RelayState.appendReply,heq] using hlist)
      expiring := fun requestId list hlist => by
        by_cases heq : requestId = push.payload.requestId
        · subst heq
          exact .inr (.inl ⟨{ push with pushed := true },List.mem_set hlt _,rfl,rfl⟩)
        · refine expiring_of (h.expiring requestId list
            (by simpa [RelayState.appendReply,heq] using hlist)) rfl (fun other hother hid hset => ?_)
            (List.Subset.refl _)
          left
          obtain ⟨j,hj⟩ := List.getElem?_of_mem hother
          have hne : i ≠ j := by
            rintro rfl
            rw [hi] at hj
            cases hj
            rw [hpushed] at hset
            cases hset
          refine List.mem_of_getElem? (i := j) ?_
          rw [← hj]
          exact List.getElem?_set_ne hne }

omit [DecidableEq N] [DecidableEq W] in
theorem expireReplies (h : RelayOk world s) {i : ℕ} {push : ReplyPush N}
    (hi : s.pushes[i]? = some push) :
    RelayOk world
      ({ s with pushes := s.pushes.eraseIdx i }.expireReplies push.payload.requestId) :=
  { h with
    pushes := fun other hother => h.pushes other (List.mem_of_mem_eraseIdx hother)
    replies := fun requestId list hlist => by
      by_cases heq : requestId = push.payload.requestId
      · subst heq
        simp only [RelayState.expireReplies,Function.update_self] at hlist
        obtain ⟨found,hfound,rfl⟩ := Option.map_eq_some_iff.mp hlist
        exact h.replies _ found hfound
      · exact h.replies requestId list
          (by simpa [RelayState.expireReplies,heq] using hlist)
    expiring := fun requestId list hlist => by
      by_cases heq : requestId = push.payload.requestId
      · subst heq
        simp only [RelayState.expireReplies,Function.update_self] at hlist
        obtain ⟨found,-,rfl⟩ := Option.map_eq_some_iff.mp hlist
        exact .inl ⟨_,rfl,le_refl _⟩
      · refine expiring_of (h.expiring requestId list
          (by simpa [RelayState.expireReplies,heq] using hlist)) rfl (fun other hother hid _ => ?_)
          (List.Subset.refl _)
        rcases mem_eraseIdx_or hi hother with hstill | rfl
        · exact .inl hstill
        · exact absurd hid.symm heq }

omit [DecidableEq N] [DecidableEq W] in
theorem pushFails (h : RelayOk world s) {i : ℕ} {push : ReplyPush N} (hi : s.pushes[i]? = some push) :
    RelayOk world { s with
      pushes := s.pushes.eraseIdx i
      unexpiring :=
        if push.pushed then push.payload.requestId :: s.unexpiring else s.unexpiring } :=
  { h with
    pushes := fun other hother => h.pushes other (List.mem_of_mem_eraseIdx hother)
    expiring := fun requestId list hlist => by
      refine expiring_of (h.expiring requestId list hlist) rfl (fun other hother hid hpushed => ?_) ?_
      · rcases mem_eraseIdx_or hi hother with hstill | rfl
        · exact .inl hstill
        · right
          show requestId ∈ if other.pushed then _ else _
          rw [if_pos hpushed,← hid]
          exact List.mem_cons_self
      · intro failed hfailed
        show failed ∈ if push.pushed then _ else _
        split
        · exact List.mem_cons_of_mem _ hfailed
        · exact hfailed }

omit [DecidableEq N] [DecidableEq W] in
theorem setReplies (h : RelayOk world s) {requestId : String} {list : Option ReplyList}
    (hlist : ∀ found, list = some found → ∃ old, s.replies requestId = some old ∧
      found.items ≠ [] ∧ found.items ⊆ old.items ∧ found.expiresAt = old.expiresAt) :
    RelayOk world { s with replies := Function.update s.replies requestId list } :=
  { h with
    replies := fun requestId' found hfound => by
      by_cases heq : requestId' = requestId
      · subst heq
        obtain ⟨old,hold,hne,hsub,-⟩ := hlist found (by simpa using hfound)
        exact ⟨hne,fun payload hp => (h.replies requestId' old hold).2 payload (hsub hp)⟩
      · exact h.replies requestId' found (by simpa [heq] using hfound)
    expiring := fun requestId' found hfound => by
      by_cases heq : requestId' = requestId
      · subst heq
        obtain ⟨old,hold,-,-,hexpires⟩ := hlist found (by simpa using hfound)
        have hexpiring := h.expiring requestId' old hold
        unfold Expiring at hexpiring ⊢
        rw [hexpires]
        exact hexpiring
      · exact h.expiring requestId' found (by simpa [heq] using hfound) }

omit [DecidableEq W] in
theorem leaveClient (h : RelayOk world s) (c : ℕ) (fetch : RangeFetch N) :
    RelayOk world (s.leaveClient c fetch) := { h with }

omit [DecidableEq W] in
theorem serveNext (h : RelayOk world s) {node : N} {s' : RelayState N W}
    (hstep : s.serveNext node = some s') : RelayOk world s' := by
  unfold RelayState.serveNext at hstep
  split at hstep
  · rename_i c rest _ _
    obtain ⟨fetch,hfetch,hstep⟩ := Option.bind_eq_some_iff.mp hstep
    split at hstep
    · rename_i requestId hphase
      cases hstep
      have hok := h.fetches _ fetch hfetch
      unfold FetchOk at hok
      simp only [hphase] at hok
      have htaken : RelayOk world { s with
          served := Function.update s.served node (some c)
          queue := Function.update s.queue node rest } := { h with }
      refine htaken.setFetch ?_ (fun _ hcontra => by cases hcontra) ⟨hok,le_refl _⟩
      rintro old hold found hcontra
      rw [show s.fetches c = some old from hold] at hfetch
      cases hfetch
      rw [hphase] at hcontra
      cases hcontra
    · cases hstep
  · cases hstep

omit [DecidableEq W] in
theorem popReply (h : RelayOk world s) {c : ℕ} {fetch : RangeFetch N} {requestId : String}
    {deadline : ℕ} {list : ReplyList} {payload : LocalMediaChunkPayload}
    {rest : List LocalMediaChunkPayload} (hfetch : s.fetches c = some fetch)
    (hphase : fetch.phase = .popping requestId deadline)
    (hlist : s.replies requestId = some list) (hitems : list.items = payload :: rest) :
    RelayOk world (((s.popReply requestId list rest).leaveClient c fetch).endFetch c payload) := by
  have hpopped : RelayOk world (s.popReply requestId list rest) := by
    refine h.setReplies fun found hfound => ?_
    by_cases hrest : rest = []
    · rw [if_pos hrest] at hfound
      cases hfound
    · rw [if_neg hrest] at hfound
      cases hfound
      refine ⟨list,hlist,hrest,?_,rfl⟩
      rw [hitems]
      exact List.subset_cons_self _ _
  obtain ⟨hid,hsound⟩ := (h.replies requestId list hlist).2 payload (by rw [hitems]; simp)
  have hok := h.fetches c fetch hfetch
  unfold FetchOk at hok
  simp only [hphase] at hok
  obtain ⟨outcome,hend,hbytes⟩ :=
    endFetch_cases ((s.popReply requestId list rest).leaveClient c fetch) hfetch payload
  rw [hend]
  refine (hpopped.leaveClient c fetch).setFetch ?_ (fun _ hcontra => by cases hcontra)
    (fetchOk_ended world _ hsound (by rw [hid]; exact hok.1) hbytes)
  intro old hsome requestId' hcontra
  rw [show s.fetches c = some old from hsome] at hfetch
  cases hfetch
  rw [hphase] at hcontra
  cases hcontra

omit [DecidableEq N] [DecidableEq W] in
theorem mem_of_mem_update {ι α : Type*} [DecidableEq ι] {f : ι → List α} {i j : ι} {xs : List α}
    {x : α} (h : x ∈ Function.update f i xs j) : (j = i ∧ x ∈ xs) ∨ x ∈ f j := by
  by_cases heq : j = i
  · subst heq
    rw [Function.update_self] at h
    exact .inl ⟨rfl,h⟩
  · rw [Function.update_of_ne heq] at h
    exact .inr h

omit [DecidableEq N] in
theorem tabReads (h : RelayOk world s) {ws : W} {read : LocalMediaReadRequest}
    {rest : List LocalMediaReadRequest} (hreads : s.reads ws = read :: rest)
    {answer : Option TabMessage} (hanswer : ∀ message, answer = some message →
      ∃ timed, answerTabRead (world.files read.localMediaId) read timed = some message) :
    RelayOk world { s with
      reads := Function.update s.reads ws rest
      frames := Function.update s.frames ws (s.frames ws ++ answer.toList) } := by
  obtain ⟨c,hasked⟩ := h.reads ws read (by rw [hreads]; simp)
  obtain ⟨hmem,-,hid⟩ := h.asked _ c read hasked
  exact
    { h with
      reads := fun ws' other hother => by
        rcases mem_of_mem_update hother with ⟨rfl,hrest⟩ | hold
        · exact h.reads ws' other (by rw [hreads]; exact List.mem_cons_of_mem _ hrest)
        · exact h.reads ws' other hold
      frames := fun ws' message hm payload hpayload => by
        rcases mem_of_mem_update hm with ⟨rfl,hm⟩ | hm
        · rcases List.mem_append.mp hm with hold | hnew
          · exact h.frames ws' message hold payload hpayload
          · obtain ⟨timed,htab⟩ := hanswer message (Option.mem_toList.mp hnew)
            obtain ⟨hpid,hbytes⟩ := answerTabRead_payload hid htab hpayload
            refine ⟨by rw [hpid]; exact hmem,TabMessage.single hpayload,?_⟩
            intro c' read' hread hok found hfound
            rw [hpid,hasked] at hread
            cases hread
            rw [hbytes hok] at hfound
            exact (Option.some.inj hfound).symm
        · exact h.frames ws' message hm payload hpayload }

omit [DecidableEq N] in
theorem takeFrame (h : RelayOk world s) {ws : W} {message : TabMessage} {rest : List TabMessage}
    (hframes : s.frames ws = message :: rest) :
    RelayOk world { s with frames := Function.update s.frames ws rest } :=
  { h with
    frames := fun ws' other hother => by
      rcases mem_of_mem_update hother with ⟨rfl,hrest⟩ | hold
      · exact h.frames ws' other (by rw [hframes]; exact List.mem_cons_of_mem _ hrest)
      · exact h.frames ws' other hold }

omit [DecidableEq N] [DecidableEq W] in
theorem name (h : RelayOk world s) (requestId : String) :
    RelayOk world { s with drawn := requestId :: s.drawn } :=
  h.grow (List.subset_cons_self _ _) (fun _ _ => rfl) fun requestId' c read hread =>
    ⟨List.mem_cons_of_mem _ (h.asked requestId' c read hread).1,
      (h.asked requestId' c read hread).2⟩

theorem step {a : RelayAction N W} {s' : RelayState N W} (h : RelayOk world s)
    (hstep : relayStep world s a = some s') : RelayOk world s' := by
  have hnot : ∀ {c : ℕ} {fetch : RangeFetch N}, s.fetches c = some fetch →
      (∀ requestId, fetch.phase ≠ .localWait requestId) →
      ∀ old, s.fetches c = some old → ∀ requestId, old.phase ≠ .localWait requestId := by
    intro c fetch hfetch hphase old hold
    rw [hfetch] at hold
    cases hold
    exact hphase
  cases a with
  | tick ms =>
    cases hstep
    exact h.tick ms
  | setRegistry | setHeld | close =>
    cases hstep
    exact { h with }
  | fetch c node entry start stop requestId =>
    obtain ⟨hnone,hstep⟩ := Option.ite_none_right_eq_some.mp hstep
    exact h.fetchLocalMediaRangeBytes hnone hstep
  | tabReads ws timed =>
    cases hreads : s.reads ws with
    | nil => simp [relayStep,hreads] at hstep
    | cons read rest =>
      simp only [relayStep,hreads,Option.some.injEq] at hstep
      rw [← hstep]
      refine h.tabReads hreads fun message hmessage => ⟨timed,?_⟩
      split at hmessage
      · exact hmessage
      · cases hmessage
  | receive ws =>
    cases hframes : s.frames ws with
    | nil => simp [relayStep,hframes] at hstep
    | cons message rest =>
      have htaken := h.takeFrame hframes
      have hsound := h.frames ws message (by rw [hframes]; simp)
      simp only [relayStep,hframes] at hstep
      cases hpayload : message.payload with
      | none =>
        simp only [hpayload,Option.some.injEq] at hstep
        rw [← hstep]
        exact htaken
      | some payload =>
        simp only [hpayload,Option.some.injEq] at hstep
        rw [← hstep]
        exact htaken.resolveLocalMediaChunk _ (hsound payload hpayload)
  | makeUp node message =>
    obtain ⟨payload,hpayload,hstep⟩ := Option.bind_eq_some_iff.mp hstep
    obtain ⟨hunasked,hsome⟩ := Option.ite_none_right_eq_some.mp hstep
    cases hsome
    exact (h.name payload.requestId).resolveLocalMediaChunk node
      (.unasked List.mem_cons_self (TabMessage.single hpayload) hunasked)
  | fireTimer node requestId =>
    obtain ⟨waiting,hpending,hstep⟩ := Option.bind_eq_some_iff.mp hstep
    obtain ⟨-,hsome⟩ := Option.ite_none_right_eq_some.mp hstep
    cases hsome
    have hfailure : Sound world s.drawn s.asked
        { requestId := requestId, ok := false, error := some "provider_timeout" } :=
      .failure (h.pending node requestId waiting hpending).1 _
    exact h.resume hpending hfailure
  | holderAnswers c bytes =>
    obtain ⟨fetch,hfetch,hstep⟩ := Option.bind_eq_some_iff.mp hstep
    obtain ⟨hphase,hsome⟩ := Option.ite_none_right_eq_some.mp hstep
    cases hsome
    have hold := hnot hfetch (by rw [hphase]; exact fun _ hcontra => by cases hcontra)
    match bytes with
    | some (b :: bytes) => exact h.setFetch hold (fun _ hcontra => by cases hcontra) trivial
    | some [] => exact h.setFetch hold (fun _ hcontra => by cases hcontra) trivial
    | none => exact h.setFetch hold (fun _ hcontra => by cases hcontra) trivial
  | flood c requestId reaches =>
    obtain ⟨fetch,hfetch,hstep⟩ := Option.bind_eq_some_iff.mp hstep
    obtain ⟨⟨hphase,-,hfresh⟩,hsome⟩ := Option.ite_none_right_eq_some.mp hstep
    cases hsome
    exact h.publishRequest hfetch hphase hfresh reaches
  | serve node => exact h.serveNext hstep
  | storeFails c =>
    obtain ⟨fetch,hfetch,hstep⟩ := Option.bind_eq_some_iff.mp hstep
    cases hphase : fetch.phase with
    | flooding | queued | popping =>
      simp only [hphase,Option.some.injEq] at hstep
      rw [← hstep]
      exact (h.leaveClient c fetch).setFetch
        (hnot hfetch (by rw [hphase]; exact fun _ hcontra => by cases hcontra))
        (fun _ hcontra => by cases hcontra) trivial
    | localWait | holder | ended => simp [hphase] at hstep
  | handleFlood node =>
    cases hfloods : s.floods node with
    | nil => simp [relayStep,hfloods] at hstep
    | cons message rest =>
      simp only [relayStep,hfloods,Option.some.injEq] at hstep
      rw [← hstep]
      obtain ⟨c,hasked,hphase⟩ := h.floods node message (by rw [hfloods]; simp)
      have htaken : RelayOk world { s with floods := Function.update s.floods node rest } :=
        { h with
          floods := fun node' other hother => by
            rcases mem_of_mem_update hother with ⟨rfl,hrest⟩ | hold
            · exact h.floods node' other (by rw [hfloods]; exact List.mem_cons_of_mem _ hrest)
            · exact h.floods node' other hold }
      exact htaken.handleRelayPubSubRequest hasked hphase
  | push i =>
    obtain ⟨push,hi,hstep⟩ := Option.bind_eq_some_iff.mp hstep
    obtain ⟨-,hsome⟩ := Option.ite_none_right_eq_some.mp hstep
    cases hsome
    cases hpushed : push.pushed with
    | false =>
      rw [if_neg (by simp)]
      exact h.appendReply hi hpushed
    | true =>
      rw [if_pos rfl]
      exact h.expireReplies hi
  | pushFails i =>
    obtain ⟨push,hi,hstep⟩ := Option.map_eq_some_iff.mp hstep
    rw [← hstep]
    exact h.pushFails hi
  | pop c =>
    obtain ⟨fetch,hfetch,hstep⟩ := Option.bind_eq_some_iff.mp hstep
    cases hphase : fetch.phase with
    | popping requestId deadline =>
      simp only [hphase] at hstep
      obtain ⟨list,hlist,hstep⟩ := Option.bind_eq_some_iff.mp hstep
      cases hitems : list.items with
      | nil => simp [hitems] at hstep
      | cons payload rest =>
        simp only [hitems,Option.some.injEq] at hstep
        rw [← hstep]
        exact h.popReply hfetch hphase hlist hitems
    | localWait | holder | flooding | queued | ended => simp [hphase] at hstep
  | popTimeout c =>
    obtain ⟨fetch,hfetch,hstep⟩ := Option.bind_eq_some_iff.mp hstep
    cases hphase : fetch.phase with
    | popping requestId deadline =>
      simp only [hphase] at hstep
      obtain ⟨-,hsome⟩ := Option.ite_none_right_eq_some.mp hstep
      cases hsome
      exact (h.leaveClient c fetch).setFetch
        (hnot hfetch (by rw [hphase]; exact fun _ hcontra => by cases hcontra))
        (fun _ hcontra => by cases hcontra) trivial
    | localWait | holder | flooding | queued | ended => simp [hphase] at hstep
  | lapse requestId =>
    obtain ⟨list,hlist,hstep⟩ := Option.bind_eq_some_iff.mp hstep
    obtain ⟨expiresAt,-,hstep⟩ := Option.bind_eq_some_iff.mp hstep
    obtain ⟨-,hsome⟩ := Option.ite_none_right_eq_some.mp hstep
    cases hsome
    exact h.setReplies fun found hfound => by cases hfound

theorem of_reachable (h : (relaySystem world).Reachable s) : RelayOk world s := by
  refine h.invariant (RelayOk world) ?_ ?_
  · intro s hs
    rw [hs]
    exact start world
  · exact fun s a s' _ hok hstep => hok.step hstep

end RelayOk

section Client

/-- The fetches whose `BLPOP` a node has sent are those that wait for one, each once. -/
structure ClientOk (s : RelayState N W) : Prop where
  served : ∀ node c, s.served node = some c → ∃ fetch requestId deadline,
    s.fetches c = some fetch ∧ fetch.node = node ∧ fetch.phase = .popping requestId deadline
  queue : ∀ node, ∀ c ∈ s.queue node, ∃ fetch requestId,
    s.fetches c = some fetch ∧ fetch.node = node ∧ fetch.phase = .queued requestId
  nodup : ∀ node, (s.queue node).Nodup
  popping : ∀ c fetch requestId deadline, s.fetches c = some fetch →
    fetch.phase = .popping requestId deadline → s.served fetch.node = some c
  queued : ∀ c fetch requestId, s.fetches c = some fetch →
    fetch.phase = .queued requestId → c ∈ s.queue fetch.node

namespace ClientOk

theorem start : ClientOk ({} : RelayState N W) where
  served _ _ h := by cases h
  queue _ _ h := by cases h
  nodup _ := List.nodup_nil
  popping _ _ _ _ h := by cases h
  queued _ _ _ h := by cases h

theorem off_client (h : ClientOk s) {c : ℕ}
    (hoff : ∀ old, s.fetches c = some old → old.phase.onClient = false) :
    (∀ node, s.served node ≠ some c) ∧ ∀ node, c ∉ s.queue node := by
  constructor
  · intro node hserved
    obtain ⟨fetch,requestId,deadline,hfetch,-,hphase⟩ := h.served node c hserved
    have honClient := hoff fetch hfetch
    rw [hphase] at honClient
    cases honClient
  · intro node hqueue
    obtain ⟨fetch,requestId,hfetch,-,hphase⟩ := h.queue node c hqueue
    have honClient := hoff fetch hfetch
    rw [hphase] at honClient
    cases honClient

theorem move (h : ClientOk s) {t : RelayState N W} {c : ℕ} {fetch : RangeFetch N}
    (hfetches : t.fetches = Function.update s.fetches c (some fetch))
    (hserved : ∀ node c', c' ≠ c → (t.served node = some c' ↔ s.served node = some c'))
    (hqueue : ∀ node c', c' ≠ c → (c' ∈ t.queue node ↔ c' ∈ s.queue node))
    (hnodup : ∀ node, (t.queue node).Nodup)
    (hpopping : ∀ node, t.served node = some c ↔
      fetch.node = node ∧ ∃ requestId deadline, fetch.phase = .popping requestId deadline)
    (hqueued : ∀ node, c ∈ t.queue node ↔
      fetch.node = node ∧ ∃ requestId, fetch.phase = .queued requestId) : ClientOk t where
  served node c' hc := by
    rw [hfetches]
    by_cases heq : c' = c
    · subst heq
      obtain ⟨hnode,requestId,deadline,hphase⟩ := (hpopping node).mp hc
      exact ⟨fetch,requestId,deadline,Function.update_self _ _ _,hnode,hphase⟩
    · rw [Function.update_of_ne heq]
      exact h.served node c' ((hserved node c' heq).mp hc)
  queue node c' hc := by
    rw [hfetches]
    by_cases heq : c' = c
    · subst heq
      obtain ⟨hnode,requestId,hphase⟩ := (hqueued node).mp hc
      exact ⟨fetch,requestId,Function.update_self _ _ _,hnode,hphase⟩
    · rw [Function.update_of_ne heq]
      exact h.queue node c' ((hqueue node c' heq).mp hc)
  nodup := hnodup
  popping c' found requestId deadline hfound hphase := by
    rw [hfetches] at hfound
    by_cases heq : c' = c
    · subst heq
      rw [Function.update_self] at hfound
      cases hfound
      exact (hpopping _).mpr ⟨rfl,requestId,deadline,hphase⟩
    · rw [Function.update_of_ne heq] at hfound
      exact (hserved _ c' heq).mpr (h.popping c' found requestId deadline hfound hphase)
  queued c' found requestId hfound hphase := by
    rw [hfetches] at hfound
    by_cases heq : c' = c
    · subst heq
      rw [Function.update_self] at hfound
      cases hfound
      exact (hqueued _).mpr ⟨rfl,requestId,hphase⟩
    · rw [Function.update_of_ne heq] at hfound
      exact (hqueue _ c' heq).mpr (h.queued c' found requestId hfound hphase)

theorem setFetch (h : ClientOk s) {c : ℕ} {fetch : RangeFetch N} {phase : FetchPhase}
    (hold : ∀ old, s.fetches c = some old → old.phase.onClient = false)
    (hnew : phase.onClient = false) : ClientOk (s.setFetch c fetch phase) := by
  obtain ⟨hserved,hqueue⟩ := h.off_client hold
  refine h.move (t := s.setFetch c fetch phase) rfl (fun _ _ _ => Iff.rfl)
    (fun _ _ _ => Iff.rfl) h.nodup (fun node => ?_) fun node => ?_
  · refine iff_of_false (hserved node) ?_
    rintro ⟨-,requestId,deadline,hphase⟩
    change phase = _ at hphase
    rw [hphase] at hnew
    cases hnew
  · refine iff_of_false (hqueue node) ?_
    rintro ⟨-,requestId,hphase⟩
    change phase = _ at hphase
    rw [hphase] at hnew
    cases hnew

theorem endFetch (h : ClientOk s) {c : ℕ} (payload : LocalMediaChunkPayload)
    (hold : ∀ old, s.fetches c = some old → old.phase.onClient = false) :
    ClientOk (s.endFetch c payload) := by
  cases hfetch : s.fetches c with
  | none =>
    unfold RelayState.endFetch
    rw [hfetch]
    exact h
  | some fetch =>
    obtain ⟨outcome,hend,-⟩ := RelayOk.endFetch_cases s hfetch payload
    rw [hend]
    exact h.setFetch hold rfl

variable [DecidableEq N]

theorem resume (h : ClientOk s) (hok : RelayOk world s) {node : N} {requestId : String}
    {waiting : PendingChunk} (hpending : s.pending node requestId = some waiting)
    (payload : LocalMediaChunkPayload) :
    ClientOk ((s.setPending node requestId none).resume node waiting.waiter payload) := by
  have hset : ClientOk (s.setPending node requestId none) := { h with }
  cases hwaiter : waiting.waiter with
  | forward => exact { hset with }
  | fetch c =>
    refine hset.endFetch payload fun old hold => ?_
    obtain ⟨-,-,hfetch⟩ := hok.pending node requestId waiting hpending
    obtain ⟨found,hfound,-,hphase⟩ := hfetch c hwaiter
    rw [show s.fetches c = some old from hold] at hfound
    cases hfound
    rw [hphase]
    rfl

theorem resolveLocalMediaChunk (h : ClientOk s) (hok : RelayOk world s) (node : N)
    (payload : LocalMediaChunkPayload) : ClientOk (s.resolveLocalMediaChunk node payload) := by
  unfold RelayState.resolveLocalMediaChunk RelayState.settlePending
  split
  · exact h
  · cases hpending : s.pending node payload.requestId with
    | none => exact { h with }
    | some waiting => exact h.resume hok hpending payload

theorem handleRelayPubSubRequest [DecidableEq W] (h : ClientOk s) (node : N)
    (message : RelayPubSubRequest N) : ClientOk (s.handleRelayPubSubRequest node message) := by
  unfold RelayState.handleRelayPubSubRequest
  dsimp only
  repeat' split
  all_goals exact { h with }

theorem fetchLocalMediaRangeBytes [DecidableEq W] (h : ClientOk s) {c : ℕ} {fetch : RangeFetch N}
    {requestId : String} {s' : RelayState N W} (hnone : s.fetches c = none)
    (hstep : s.fetchLocalMediaRangeBytes c fetch requestId = some s') : ClientOk s' := by
  have hold : ∀ old, s.fetches c = some old → old.phase.onClient = false := by
    intro old hsome
    rw [hnone] at hsome
    cases hsome
  unfold RelayState.fetchLocalMediaRangeBytes RelayState.fetchChunkViaLocalSockets at hstep
  dsimp only at hstep
  have hdrawn : ClientOk (s.draw c (fetch.read requestId)) := { h with }
  repeat' split at hstep
  all_goals cases hstep
  · exact h.setFetch hold rfl
  · exact h.setFetch hold rfl
  · exact hdrawn.setFetch hold rfl
  · rename_i ws rest _
    have hwaiting : ClientOk (((s.draw c (fetch.read requestId)).setPending fetch.node requestId
        (some { waiter := .fetch c, deadline := s.nowMs+LOCAL_MEDIA_RELAY_TIMEOUT_MS }))
          |>.sendReadToSockets (ws :: rest) (fetch.read requestId)) := { h with }
    exact hwaiting.setFetch hold rfl

theorem publishRequest (h : ClientOk s) {c : ℕ} {fetch : RangeFetch N} {requestId : String}
    (hfetch : s.fetches c = some fetch) (hphase : fetch.phase = .flooding)
    (reaches : N → Bool) : ClientOk (s.publishRequest c fetch requestId reaches) := by
  obtain ⟨hserved,hqueue⟩ := h.off_client (c := c) fun old hold => by
    rw [hfetch] at hold
    cases hold
    rw [hphase]
    rfl
  refine h.move (t := s.publishRequest c fetch requestId reaches) rfl (fun _ _ _ => Iff.rfl)
    (fun node c' hne => ?_) (fun node => ?_) (fun node => ?_) fun node => ?_
  · change c' ∈ Function.update s.queue fetch.node (s.queue fetch.node ++ [c]) node ↔ _
    by_cases hnode : node = fetch.node
    · subst hnode
      simp [hne]
    · rw [Function.update_of_ne hnode]
  · change (Function.update s.queue fetch.node (s.queue fetch.node ++ [c]) node).Nodup
    by_cases hnode : node = fetch.node
    · subst hnode
      rw [Function.update_self]
      exact List.nodup_append_comm.mp
        (List.nodup_cons.mpr ⟨hqueue fetch.node,h.nodup fetch.node⟩)
    · rw [Function.update_of_ne hnode]
      exact h.nodup node
  · refine iff_of_false (hserved node) ?_
    rintro ⟨-,requestId,deadline,hcontra⟩
    cases hcontra
  · change c ∈ Function.update s.queue fetch.node (s.queue fetch.node ++ [c]) node ↔
      fetch.node = node ∧ ∃ found, FetchPhase.queued requestId = .queued found
    by_cases hnode : node = fetch.node
    · subst hnode
      simp
    · rw [Function.update_of_ne hnode]
      exact iff_of_false (hqueue node) fun hsame => hnode hsame.1.symm

theorem serveNext (h : ClientOk s) {node : N} {s' : RelayState N W}
    (hstep : s.serveNext node = some s') : ClientOk s' := by
  unfold RelayState.serveNext at hstep
  split at hstep
  · rename_i c rest hnone hcons
    obtain ⟨fetch,hfetch,hstep⟩ := Option.bind_eq_some_iff.mp hstep
    obtain ⟨found,requestId,hfound,hnode,hphase⟩ := h.queue node c (by rw [hcons]; simp)
    rw [hfetch] at hfound
    cases hfound
    simp only [hphase,Option.some.injEq] at hstep
    have hnodup := h.nodup node
    rw [hcons] at hnodup
    obtain ⟨hout,hrest⟩ := List.nodup_cons.mp hnodup
    have hother : ∀ other, other ≠ node → s.served other ≠ some c ∧ c ∉ s.queue other := by
      refine fun other hne => ⟨fun hserved => ?_,fun hqueue => ?_⟩
      · obtain ⟨found,_,_,hfound,hat,-⟩ := h.served other c hserved
        rw [hfetch] at hfound
        cases hfound
        exact hne (hat.symm.trans hnode)
      · obtain ⟨found,_,hfound,hat,-⟩ := h.queue other c hqueue
        rw [hfetch] at hfound
        cases hfound
        exact hne (hat.symm.trans hnode)
    rw [← hstep]
    refine h.move (c := c) rfl (fun other c' hne => ?_) (fun other c' hne => ?_) (fun other => ?_)
      (fun other => ?_) fun other => ?_
    · change Function.update s.served node (some c) other = some c' ↔ _
      by_cases hother : other = node
      · subst hother
        rw [Function.update_self,hnone]
        exact iff_of_false (fun hsame => hne (Option.some.inj hsame).symm) (by simp)
      · rw [Function.update_of_ne hother]
    · change c' ∈ Function.update s.queue node rest other ↔ _
      by_cases hother : other = node
      · subst hother
        rw [Function.update_self,hcons]
        simp [hne]
      · rw [Function.update_of_ne hother]
    · change (Function.update s.queue node rest other).Nodup
      by_cases hother : other = node
      · subst hother
        rwa [Function.update_self]
      · rw [Function.update_of_ne hother]
        exact h.nodup other
    · change Function.update s.served node (some c) other = some c ↔ fetch.node = other ∧ _
      rw [hnode]
      by_cases hat : other = node
      · subst hat
        exact iff_of_true (Function.update_self _ _ _) ⟨rfl,_,_,rfl⟩
      · rw [Function.update_of_ne hat]
        exact iff_of_false (hother other hat).1 fun hsame => hat hsame.1.symm
    · change c ∈ Function.update s.queue node rest other ↔ _
      refine iff_of_false ?_ fun hcontra => ?_
      · by_cases hat : other = node
        · subst hat
          rwa [Function.update_self]
        · rw [Function.update_of_ne hat]
          exact (hother other hat).2
      · obtain ⟨-,found,hfound⟩ := hcontra
        cases hfound
  · cases hstep

theorem leaveClient (h : ClientOk s) {c : ℕ} {fetch : RangeFetch N}
    (hfetch : s.fetches c = some fetch) (outcome : FetchOutcome) :
    ClientOk ((s.leaveClient c fetch).setFetch c fetch (.ended outcome)) := by
  have hserved : ∀ node, s.served node = some c → node = fetch.node := by
    intro node hc
    obtain ⟨found,_,_,hfound,hnode,-⟩ := h.served node c hc
    rw [hfetch] at hfound
    cases hfound
    exact hnode.symm
  have hqueue : ∀ node, c ∈ s.queue node → node = fetch.node := by
    intro node hc
    obtain ⟨found,_,hfound,hnode,-⟩ := h.queue node c hc
    rw [hfetch] at hfound
    cases hfound
    exact hnode.symm
  refine h.move (t := (s.leaveClient c fetch).setFetch c fetch (.ended outcome)) rfl
    (fun node c' hne => ?_) (fun node c' hne => ?_) (fun node => ?_) (fun node => ?_) fun node => ?_
  · change (if s.served fetch.node = some c then Function.update s.served fetch.node none
      else s.served) node = some c' ↔ _
    split
    · rename_i hc
      by_cases hnode : node = fetch.node
      · subst hnode
        rw [Function.update_self,hc]
        exact iff_of_false (by simp) fun hsame => hne (Option.some.inj hsame).symm
      · rw [Function.update_of_ne hnode]
    · exact Iff.rfl
  · change c' ∈ Function.update s.queue fetch.node _ node ↔ _
    by_cases hnode : node = fetch.node
    · subst hnode
      simp [hne]
    · rw [Function.update_of_ne hnode]
  · change (Function.update s.queue fetch.node _ node).Nodup
    by_cases hnode : node = fetch.node
    · subst hnode
      rw [Function.update_self]
      exact (h.nodup _).filter _
    · rw [Function.update_of_ne hnode]
      exact h.nodup node
  · refine iff_of_false ?_ fun ⟨_,_,_,hcontra⟩ => by cases hcontra
    change ¬(if s.served fetch.node = some c then Function.update s.served fetch.node none
      else s.served) node = some c
    split
    · by_cases hnode : node = fetch.node
      · subst hnode
        simp
      · rw [Function.update_of_ne hnode]
        exact fun hc => hnode (hserved node hc)
    · rename_i hnot
      exact fun hc => hnot (hserved node hc ▸ hc)
  · refine iff_of_false ?_ fun ⟨_,_,hcontra⟩ => by cases hcontra
    change c ∉ Function.update s.queue fetch.node _ node
    by_cases hnode : node = fetch.node
    · subst hnode
      simp
    · rw [Function.update_of_ne hnode]
      exact fun hc => hnode (hqueue node hc)

variable [DecidableEq W]

theorem step {a : RelayAction N W} {s' : RelayState N W} (h : ClientOk s) (hok : RelayOk world s)
    (hstep : relayStep world s a = some s') : ClientOk s' := by
  cases a with
  | tick | setRegistry | setHeld | close =>
    cases hstep
    exact { h with }
  | fetch c node entry start stop requestId =>
    obtain ⟨hnone,hstep⟩ := Option.ite_none_right_eq_some.mp hstep
    exact h.fetchLocalMediaRangeBytes hnone hstep
  | tabReads ws timed =>
    simp only [relayStep] at hstep
    split at hstep <;> cases hstep
    exact { h with }
  | receive ws =>
    simp only [relayStep] at hstep
    split at hstep
    · cases hstep
    · rename_i message rest hframes
      have htaken : ClientOk { s with frames := Function.update s.frames ws rest } := { h with }
      split at hstep <;> cases hstep
      · exact htaken
      · exact htaken.resolveLocalMediaChunk (hok.takeFrame hframes) _ _
  | makeUp node message =>
    obtain ⟨payload,-,hstep⟩ := Option.bind_eq_some_iff.mp hstep
    obtain ⟨-,hsome⟩ := Option.ite_none_right_eq_some.mp hstep
    cases hsome
    have hnamed : ClientOk { s with drawn := payload.requestId :: s.drawn } := { h with }
    exact hnamed.resolveLocalMediaChunk (hok.name payload.requestId) node payload
  | fireTimer node requestId =>
    obtain ⟨waiting,hpending,hstep⟩ := Option.bind_eq_some_iff.mp hstep
    obtain ⟨-,hsome⟩ := Option.ite_none_right_eq_some.mp hstep
    cases hsome
    exact h.resume hok hpending _
  | holderAnswers c bytes =>
    obtain ⟨fetch,hfetch,hstep⟩ := Option.bind_eq_some_iff.mp hstep
    obtain ⟨hphase,hsome⟩ := Option.ite_none_right_eq_some.mp hstep
    cases hsome
    have hold : ∀ old, s.fetches c = some old → old.phase.onClient = false := by
      intro old hold
      rw [hfetch] at hold
      cases hold
      rw [hphase]
      rfl
    match bytes with
    | some (b :: bytes) => exact h.setFetch hold rfl
    | some [] => exact h.setFetch hold rfl
    | none => exact h.setFetch hold rfl
  | flood c requestId reaches =>
    obtain ⟨fetch,hfetch,hstep⟩ := Option.bind_eq_some_iff.mp hstep
    obtain ⟨⟨hphase,-⟩,hsome⟩ := Option.ite_none_right_eq_some.mp hstep
    cases hsome
    exact h.publishRequest hfetch hphase reaches
  | serve node => exact h.serveNext hstep
  | storeFails c =>
    obtain ⟨fetch,hfetch,hstep⟩ := Option.bind_eq_some_iff.mp hstep
    split at hstep <;> cases hstep
    all_goals exact h.leaveClient hfetch _
  | handleFlood node =>
    simp only [relayStep] at hstep
    split at hstep <;> cases hstep
    rename_i message rest _
    have htaken : ClientOk { s with floods := Function.update s.floods node rest } := { h with }
    exact htaken.handleRelayPubSubRequest node message
  | push i =>
    obtain ⟨push,-,hstep⟩ := Option.bind_eq_some_iff.mp hstep
    obtain ⟨-,hsome⟩ := Option.ite_none_right_eq_some.mp hstep
    cases hsome
    split <;> exact { h with }
  | pushFails i =>
    obtain ⟨push,-,hstep⟩ := Option.map_eq_some_iff.mp hstep
    rw [← hstep]
    exact { h with }
  | pop c =>
    obtain ⟨fetch,hfetch,hstep⟩ := Option.bind_eq_some_iff.mp hstep
    split at hstep
    · rename_i requestId deadline hphase
      obtain ⟨list,-,hstep⟩ := Option.bind_eq_some_iff.mp hstep
      split at hstep
      · cases hstep
      rename_i payload rest _
      cases hstep
      have hpopped : ClientOk (s.popReply requestId list rest) := { h with }
      obtain ⟨outcome,hend,-⟩ := RelayOk.endFetch_cases
        ((s.popReply requestId list rest).leaveClient c fetch) hfetch payload
      rw [hend]
      exact hpopped.leaveClient hfetch outcome
    · cases hstep
  | popTimeout c =>
    obtain ⟨fetch,hfetch,hstep⟩ := Option.bind_eq_some_iff.mp hstep
    split at hstep
    · obtain ⟨-,hsome⟩ := Option.ite_none_right_eq_some.mp hstep
      cases hsome
      exact h.leaveClient hfetch _
    · cases hstep
  | lapse requestId =>
    obtain ⟨list,-,hstep⟩ := Option.bind_eq_some_iff.mp hstep
    obtain ⟨expiresAt,-,hstep⟩ := Option.bind_eq_some_iff.mp hstep
    obtain ⟨-,hsome⟩ := Option.ite_none_right_eq_some.mp hstep
    cases hsome
    exact { h with }

theorem of_reachable (h : (relaySystem world).Reachable s) : ClientOk s := by
  refine h.invariant ClientOk ?_ ?_
  · intro s hs
    rw [hs]
    exact start
  · exact fun s a s' hr hok hstep => hok.step (RelayOk.of_reachable hr) hstep

end ClientOk

end Client

section Waiting

variable [DecidableEq N] [DecidableEq W]

omit [DecidableEq N] [DecidableEq W] in
/-- A reply is waited for by the fetch that has drawn its id. -/
theorem FetchOk.asked_of_awaits {c : ℕ} {fetch : RangeFetch N} (h : FetchOk world s c fetch)
    {requestId : String} (hawaits : fetch.phase.awaits = some requestId) :
    s.asked requestId = some (c,fetch.read requestId) := by
  unfold FetchOk at h
  cases hphase : fetch.phase with
  | localWait found | popping found =>
    rw [hphase] at hawaits
    cases hawaits
    simp only [hphase] at h
    exact h.1
  | queued found =>
    rw [hphase] at hawaits
    cases hawaits
    simpa only [hphase] using h
  | holder | flooding | ended =>
    rw [hphase] at hawaits
    cases hawaits

/-- When a fetch gives up. One whose `BLPOP` is behind others has no time yet. -/
def RelayState.deadline? (s : RelayState N W) (fetch : RangeFetch N) : Option ℕ :=
  match fetch.phase with
  | .localWait requestId => (s.pending fetch.node requestId).map (·.deadline)
  | .popping _ deadline => some deadline
  | _ => none

/-- The fetch ends by itself when its time is over. -/
def EndsInTime (world : RelayWorld N W) (s : RelayState N W) (c : ℕ) (fetch : RangeFetch N)
    (deadline : ℕ) : Prop :=
  deadline ≤ s.nowMs+LOCAL_MEDIA_RELAY_TIMEOUT_MS ∧ (deadline ≤ s.nowMs →
    ∃ a s', relayStep world s a = some s' ∧ s'.fetches c =
      some { fetch with phase := .ended (.thrown .providerTimeout) } ∧
      ∀ node, s'.served node ≠ some c)

/-- The client of a node is held up only by a fetch that has its time, and goes on to the next. -/
structure ServesInTurn (world : RelayWorld N W) (s : RelayState N W) (node : N) : Prop where
  served : ∀ c, s.served node = some c → ∃ fetch deadline, s.fetches c = some fetch ∧
    fetch.node = node ∧ s.deadline? fetch = some deadline
  next : ∀ c rest, s.served node = none → s.queue node = c :: rest → ∃ s' fetch,
    relayStep world s (.serve node) = some s' ∧ s'.queue node = rest ∧ s'.fetches c = some fetch ∧
      s'.deadline? fetch = some (s.nowMs+LOCAL_MEDIA_RELAY_TIMEOUT_MS)

theorem RelayOk.endsInTime (h : RelayOk world s) (hclient : ClientOk s) {c deadline : ℕ}
    {fetch : RangeFetch N} (hfetch : s.fetches c = some fetch)
    (hdeadline : s.deadline? fetch = some deadline) : EndsInTime world s c fetch deadline := by
  have hok := h.fetches c fetch hfetch
  unfold FetchOk at hok
  cases hphase : fetch.phase with
  | localWait requestId =>
    simp only [hphase] at hok
    obtain ⟨hasked,found,hpending⟩ := hok
    simp only [RelayState.deadline?,hphase,hpending,Option.map_some,Option.some.injEq] at hdeadline
    subst hdeadline
    refine ⟨(h.pending _ _ _ hpending).2.1,fun hpast => ?_⟩
    have hfires : relayStep world s (.fireTimer fetch.node requestId) =
        some (s.rejectPending fetch.node requestId ⟨.fetch c,found⟩) := by
      simp [relayStep,hpending,hpast]
    have hcode : LocalMediaChunkPayload.outcome
        { requestId := requestId, ok := false, error := some "provider_timeout" } =
          .error .providerTimeout := by
      show Except.error (localMediaErrorFromMessage (some "provider_timeout")) = _
      decide
    have hkept : (s.setPending fetch.node requestId none).fetches c = some fetch := hfetch
    have hends : s.rejectPending fetch.node requestId ⟨.fetch c,found⟩ =
        (s.setPending fetch.node requestId none).setFetch c fetch
          (.ended (.thrown .providerTimeout)) := by
      simp only [RelayState.rejectPending,RelayState.resume,RelayState.endFetch,hkept,hcode]
    refine ⟨_,_,hfires,?_,fun node => ?_⟩
    · rw [hends]
      exact Function.update_self _ _ _
    · rw [hends]
      refine (hclient.off_client fun old hold => ?_).1 node
      rw [hfetch] at hold
      cases hold
      rw [hphase]
      rfl
  | popping requestId found =>
    simp only [hphase] at hok
    simp only [RelayState.deadline?,hphase,Option.some.injEq] at hdeadline
    subst hdeadline
    refine ⟨hok.2,fun hpast => ?_⟩
    have hends : relayStep world s (.popTimeout c) = some
        ((s.leaveClient c fetch).setFetch c fetch (.ended (.thrown .providerTimeout))) := by
      simp [relayStep,hfetch,hphase,hpast]
    refine ⟨_,_,hends,Function.update_self _ _ _,fun node hserved => ?_⟩
    obtain ⟨ended,_,_,hended,-,hcontra⟩ :=
      (hclient.leaveClient hfetch (.thrown .providerTimeout)).served node c hserved
    rw [show ((s.leaveClient c fetch).setFetch c fetch (.ended (.thrown .providerTimeout))).fetches c
      = some { fetch with phase := .ended (.thrown .providerTimeout) } from
        Function.update_self _ _ _] at hended
    cases hended
    cases hcontra
  | holder | flooding | queued | ended =>
    simp only [RelayState.deadline?,hphase] at hdeadline
    cases hdeadline

omit [DecidableEq N] [DecidableEq W] in
/-- A fetch that waits has its time, or waits for the client of its node. -/
theorem RelayOk.deadline_or_queued (h : RelayOk world s) (hclient : ClientOk s) {c : ℕ}
    {fetch : RangeFetch N} (hfetch : s.fetches c = some fetch) {requestId : String}
    (hawaits : fetch.phase.awaits = some requestId) :
    (∃ deadline, s.deadline? fetch = some deadline) ∨ c ∈ s.queue fetch.node := by
  have hok := h.fetches c fetch hfetch
  unfold FetchOk at hok
  cases hphase : fetch.phase with
  | localWait found =>
    simp only [hphase] at hok
    obtain ⟨-,deadline,hpending⟩ := hok
    exact Or.inl ⟨deadline,by simp only [RelayState.deadline?,hphase,hpending,Option.map_some]⟩
  | popping found deadline => exact Or.inl ⟨deadline,by simp only [RelayState.deadline?,hphase]⟩
  | queued found => exact Or.inr (hclient.queued c fetch found hfetch hphase)
  | holder | flooding | ended =>
    rw [hphase] at hawaits
    cases hawaits

theorem ClientOk.servesInTurn (h : ClientOk s) (world : RelayWorld N W) (node : N) :
    ServesInTurn world s node where
  served c hserved := by
    obtain ⟨fetch,requestId,deadline,hfetch,hnode,hphase⟩ := h.served node c hserved
    exact ⟨fetch,deadline,hfetch,hnode,by simp only [RelayState.deadline?,hphase]⟩
  next c rest hnone hqueue := by
    obtain ⟨fetch,requestId,hfetch,-,hphase⟩ := h.queue node c (by rw [hqueue]; simp)
    let phase : FetchPhase := .popping requestId (s.nowMs+LOCAL_MEDIA_RELAY_TIMEOUT_MS)
    refine ⟨{ s with
      served := Function.update s.served node (some c)
      queue := Function.update s.queue node rest }.setFetch c fetch phase,
      { fetch with phase := phase },?_,Function.update_self _ _ _,Function.update_self _ _ _,rfl⟩
    simp only [relayStep,RelayState.serveNext,hnone,hqueue,hfetch,Option.bind_some,hphase,phase]

/-- What the relay gives is what the file has in the range, whoever answers and over whichever way.
A fetch that waits has a time by which it ends, or its turn at the client of its node to come; no two
wait for one reply, what is pending at a node belongs to a fetch that waits or to another node's, and
the lists of replies go away. -/
theorem range_relay (world : RelayWorld N W) {s : RelayState N W}
    (h : (relaySystem world).Reachable s) :
    (∀ c fetch bytes, s.fetches c = some fetch → fetch.phase = .ended (.relayed bytes) →
      bytes = readLocalMediaRange (world.files fetch.entry.id) fetch.start fetch.clampedEnd) ∧
    (∀ c fetch requestId, s.fetches c = some fetch → fetch.phase.awaits = some requestId →
      ((∃ deadline, s.deadline? fetch = some deadline) ∨ c ∈ s.queue fetch.node) ∧
      (∀ deadline, s.deadline? fetch = some deadline → EndsInTime world s c fetch deadline) ∧
      ∀ c' fetch', s.fetches c' = some fetch' → fetch'.phase.awaits = some requestId → c' = c) ∧
    (∀ node, ServesInTurn world s node) ∧
    (∀ node requestId waiting, s.pending node requestId = some waiting →
      waiting.deadline ≤ s.nowMs+LOCAL_MEDIA_RELAY_TIMEOUT_MS ∧
      ∀ c, waiting.waiter = .fetch c → ∃ fetch, s.fetches c = some fetch ∧ fetch.node = node ∧
        fetch.phase = .localWait requestId) ∧
    ∀ requestId list, s.replies requestId = some list → list.items ≠ [] ∧
      (∀ payload ∈ list.items, payload.requestId = requestId) ∧ Expiring s requestId list := by
  have hok := RelayOk.of_reachable h
  have hclient := ClientOk.of_reachable h
  refine ⟨fun c fetch bytes hfetch hphase => ?_,
    fun c fetch requestId hfetch hawaits => ⟨hok.deadline_or_queued hclient hfetch hawaits,
      fun deadline hdeadline => hok.endsInTime hclient hfetch hdeadline,?_⟩,
    fun node => hclient.servesInTurn world node,
    fun node requestId waiting hw => (hok.pending node requestId waiting hw).2,
    fun requestId list hlist => ?_⟩
  · have hended := hok.fetches c fetch hfetch
    unfold FetchOk at hended
    simpa only [hphase] using hended
  · intro c' fetch' hfetch' hawaits'
    have hasked := (hok.fetches c fetch hfetch).asked_of_awaits hawaits
    rw [(hok.fetches c' fetch' hfetch').asked_of_awaits hawaits'] at hasked
    exact (Prod.mk.inj (Option.some.inj hasked)).1
  · obtain ⟨hne,hitems⟩ := hok.replies requestId list hlist
    exact ⟨hne,fun payload hp => (hitems payload hp).1,hok.expiring requestId list hlist⟩

end Waiting
end Invariant

/-- Ann's tab is at one node, and the range is asked for at the other. -/
def annAnswers : List (RelayAction Bool Unit) :=
  let entry : RelayEntry :=
    { id := "holiday", roomId := "film", ownerUserId := "ann", sizeBytes := 5 }
  let join : AddSocketInput :=
    { roomId := "film", userId := "ann", controlAuthorized := true, isControlSession := false,
      sessionKind := .room }
  let requestId := "00000000-0000-4000-8000-000000000000"
  [.setRegistry true (({} : SocketRegistry Unit).addSocket () join "1"),.setHeld () "holiday" true,
    .fetch 0 false entry 1 9 requestId,.holderAnswers 0 none,.flood 0 requestId fun _ => true,
    .serve false,
    .handleFlood true,.tabReads () (.bytes []),.receive (),.push 0,.push 0,.pop 0]

def holidayFilm : RelayWorld Bool Unit where
  files _ := [10,11,12,13,14]
  home _ := true

theorem range_relay_of_two_nodes : ∃ s : RelayState Bool Unit,
    (relaySystem holidayFilm).Reachable s ∧ ∃ fetch bytes, s.fetches 0 = some fetch ∧
      fetch.phase = .ended (.relayed bytes) ∧ bytes = [11,12,13,14] ∧
      bytes = readLocalMediaRange (holidayFilm.files fetch.entry.id) fetch.start
        fetch.clampedEnd := by
  have hrun : ((TransitionSystem.runSteps (relayStep holidayFilm) {} annAnswers).any fun s =>
      (s.fetches 0).any fun fetch =>
        decide (fetch.phase = .ended (.relayed [11,12,13,14]))) = true := by
    decide +kernel
  obtain ⟨s,hs,hfetch⟩ := (Option.any_eq_true _ _).mp hrun
  obtain ⟨fetch,hfetch,hphase⟩ := (Option.any_eq_true _ _).mp hfetch
  have hphase := of_decide_eq_true hphase
  have hreach : (relaySystem holidayFilm).Reachable s :=
    .of_runSteps (fun _ _ _ h => h) _ (.init rfl) hs
  exact ⟨s,hreach,fetch,_,hfetch,hphase,rfl,(range_relay holidayFilm hreach).1 0 fetch _ hfetch
    hphase⟩

end WebSyncPlay
