import WebSyncPlay.BlockProtocol
import WebSyncPlay.Library.TransitionSystem

/-! Blocks through the SFU: one provider channel that every viewer consumes, in order, with
messages lost on the way to each of them. -/
namespace WebSyncPlay

open Library

section Viewer

/-- A request under way: the buffer that its meta allocated, and how much of it is filled. -/
structure PendingBlock where
  buffer : Option (List UInt8) := none
  received : ℕ := 0

structure ViewerSlot where
  requestProducerId : String
  ready : Bool
  pending : String → Option PendingBlock

/-- A call that is resolved, with its value. -/
abbrev Settlement := Option (String × Option (List UInt8))

namespace ViewerSlot

def forget (slot : ViewerSlot) (requestId : String) : ViewerSlot :=
  { slot with pending := Function.update slot.pending requestId none }

def keep (slot : ViewerSlot) (requestId : String) (block : PendingBlock) : ViewerSlot :=
  { slot with pending := Function.update slot.pending requestId (some block) }

end ViewerSlot

def handleBlockMeta (slot : ViewerSlot) (requestId : String) (ok : Bool)
    (byteLength : Option ℕ) : ViewerSlot × Settlement :=
  match slot.pending requestId with
  | none => (slot,none)
  | some block =>
    match ok,byteLength with
    | true,some n =>
      if n = 0 then (slot.forget requestId,some (requestId,some []))
      else (slot.keep requestId { block with buffer := some (List.replicate n 0) },none)
    | _,_ => (slot.forget requestId,some (requestId,none))

/-- `buffer.set(payload, received)` of a payload that fits. -/
def fillBuffer (buffer payload : List UInt8) (received : ℕ) : List UInt8 :=
  buffer.take received ++ payload ++ buffer.drop (received+payload.length)

def handleBlockData (slot : ViewerSlot) (requestId : String) (payload : List UInt8) :
    ViewerSlot × Settlement :=
  match slot.pending requestId with
  | none => (slot,none)
  | some block =>
    match block.buffer with
    | none => (slot,none)
    | some buffer =>
      if buffer.length < block.received+payload.length then
        (slot.forget requestId,some (requestId,none))
      else
        let filled := fillBuffer buffer payload block.received
        if block.received+payload.length = buffer.length then
          (slot.forget requestId,some (requestId,some filled))
        else (slot.keep requestId ⟨some filled,block.received+payload.length⟩,none)

def handleViewerMessage (slot : ViewerSlot) : ChannelFrame → ViewerSlot × Settlement
  | .text (.readyAck producerId) =>
    if producerId = "" then (slot,none)
    else if producerId = slot.requestProducerId then ({ slot with ready := true },none)
    else (slot,none)
  | .text (.blockMeta (some requestId) ok byteLength _) =>
    if requestId = "" then (slot,none) else handleBlockMeta slot requestId ok byteLength
  | .text _ => (slot,none)
  | .binary bytes =>
    if bytes.length < LOCAL_MEDIA_BLOCK_REQUEST_ID_LENGTH then (slot,none)
    else
      handleBlockData slot (textDecode (bytes.take LOCAL_MEDIA_BLOCK_REQUEST_ID_LENGTH))
        (bytes.drop LOCAL_MEDIA_BLOCK_REQUEST_ID_LENGTH)

end Viewer

section Provider

/-- The frames that `serveBlockRequest` sends, as long as no send throws. -/
def replyFrames (request : BlockRequest) :
    Except RangeResponderErrorCode (List UInt8) → List ChannelFrame
  | .error code => [encodeLocalMediaBlockMetaError request.requestId code.text]
  | .ok bytes =>
    encodeLocalMediaBlockMetaOk request.requestId bytes.length ::
      (blockChunks bytes).map fun chunk => .binary (textEncode request.requestId ++ chunk)

end Provider

structure SfuState where
  slots : ℕ → ViewerSlot
  /-- Frames on their way to the consumer of a slot. -/
  channels : ℕ → List ChannelFrame
  /-- Requests on their way to the provider. -/
  requests : List BlockRequest
  queue : List BlockRequest
  /-- What the request being served has still to send. -/
  serving : List ChannelFrame
  /-- The calls so far: their slot and range. -/
  calls : String → Option (ℕ × ℚ × ℚ)
  reads : String → List BlockRead
  settled : String → List (Option (List UInt8))

namespace SfuState

def settle (s : SfuState) : Settlement → String → List (Option (List UInt8))
  | none => s.settled
  | some (requestId,value) =>
    Function.update s.settled requestId (value :: s.settled requestId)

def setSlot (s : SfuState) (v : ℕ) (slot : ViewerSlot) (settlement : Settlement) : SfuState :=
  { s with slots := Function.update s.slots v slot, settled := s.settle settlement }

def call (s : SfuState) (v : ℕ) (request : BlockRequest) : SfuState :=
  { s with
    calls := Function.update s.calls request.requestId (some (v,request.start,request.stop)) }

/-- A provider's send reaches the channel of every consumer. -/
def broadcast (s : SfuState) (frame : ChannelFrame) : SfuState :=
  { s with channels := fun v => s.channels v ++ [frame] }

end SfuState

inductive SfuStep
  | ack (producerId : String)
  | fetch (v : ℕ) (request : BlockRequest) (sent : Bool)
  | timeout (v : ℕ) (requestId : String)
  /-- The slot is torn down: a channel or a transport closes, or the session ends. -/
  | drop (v : ℕ)
  | arrive (i : ℕ)
  | loseRequest (i : ℕ)
  | serve (hasFile : Bool) (read : ReadOutcome)
  | send (ok : Bool)
  | deliver (v : ℕ)
  | lose (v i : ℕ)

/-- `fetchLocalMediaRangeViaSfu`, with an id that no call had. -/
def fetchStep (s : SfuState) (v : ℕ) (request : BlockRequest) (sent : Bool) : Option SfuState :=
  if (s.calls request.requestId).isSome ∨ ¬IsRequestId request.requestId then none
  else
    let called := s.call v request
    if (s.slots v).ready then
      let waiting := called.setSlot v ((s.slots v).keep request.requestId {}) none
      if sent then some { waiting with requests := s.requests ++ [request] }
      else
        some (waiting.setSlot v ((waiting.slots v).forget request.requestId)
          (some (request.requestId,none)))
    else some { called with settled := called.settle (some (request.requestId,none)) }

def serveStep (s : SfuState) (hasFile : Bool) (read : ReadOutcome) : Option SfuState :=
  match s.serving,s.queue with
  | [],request :: queue =>
    let result := serveLocalMediaRange hasFile true request read
    some { s with
      queue := queue
      serving := replyFrames request result
      reads := match result with
        | .ok bytes => Function.update s.reads request.requestId
            (⟨request.start,request.stop,bytes⟩ :: s.reads request.requestId)
        | .error _ => s.reads }
  | _,_ => none

def sfuStep (s : SfuState) : SfuStep → Option SfuState
  | .ack producerId => some (s.broadcast (.text (.readyAck producerId)))
  | .fetch v request sent => fetchStep s v request sent
  | .timeout v requestId =>
    ((s.slots v).pending requestId).map fun _ =>
      s.setSlot v ((s.slots v).forget requestId) (some (requestId,none))
  | .drop v =>
    some { s with
      slots := Function.update s.slots v { s.slots v with ready := false, pending := fun _ => none }
      settled := fun requestId =>
        if ((s.slots v).pending requestId).isSome then none :: s.settled requestId
        else s.settled requestId }
  | .arrive i =>
    s.requests[i]?.map fun request =>
      { s with requests := s.requests.eraseIdx i, queue := s.queue ++ [request] }
  | .loseRequest i => some { s with requests := s.requests.eraseIdx i }
  | .serve hasFile read => serveStep s hasFile read
  | .send ok =>
    match s.serving with
    | frame :: rest =>
      some (if ok then { s.broadcast frame with serving := rest } else { s with serving := [] })
    | [] => none
  | .deliver v =>
    match s.channels v with
    | frame :: rest =>
      let (slot,settlement) := handleViewerMessage (s.slots v) frame
      some { s.setSlot v slot settlement with channels := Function.update s.channels v rest }
    | [] => none
  | .lose v i =>
    some { s with channels := Function.update s.channels v ((s.channels v).eraseIdx i) }

/-- Slots with their request producers, nothing asked yet. -/
def SfuState.idle (producerIds : ℕ → String) : SfuState where
  slots v := { requestProducerId := producerIds v, ready := false, pending := fun _ => none }
  channels _ := []
  requests := []
  queue := []
  serving := []
  calls _ := none
  reads _ := []
  settled _ := []

def sfuSystem : TransitionSystem SfuState SfuStep where
  init s := ∃ producerIds, s = .idle producerIds
  step s a s' := sfuStep s a = some s'

section Parts

/-- What a frame carries of the reply to a request: the length of the block, or bytes of it. -/
def blockPart (requestId : String) : ChannelFrame → Option (ℕ ⊕ List UInt8)
  | .text (.blockMeta (some id) true (some n) _) => if id = requestId then some (.inl n) else none
  | .binary bytes =>
    if LOCAL_MEDIA_BLOCK_REQUEST_ID_LENGTH ≤ bytes.length ∧
        textDecode (bytes.take LOCAL_MEDIA_BLOCK_REQUEST_ID_LENGTH) = requestId then
      some (.inr (bytes.drop LOCAL_MEDIA_BLOCK_REQUEST_ID_LENGTH))
    else none
  | _ => none

/-- The parts that a slot may still get. -/
def SfuState.ahead (s : SfuState) (v : ℕ) (requestId : String) : List (ℕ ⊕ List UInt8) :=
  (s.channels v ++ s.serving).filterMap (blockPart requestId)

def replyParts (bytes : List UInt8) : List (ℕ ⊕ List UInt8) :=
  .inl bytes.length :: (blockChunks bytes).map .inr

def payloads (parts : List (ℕ ⊕ List UInt8)) : List UInt8 :=
  parts.flatMap (Sum.elim (fun _ => []) id)

@[simp] theorem payloads_inl_cons (n : ℕ) (parts : List (ℕ ⊕ List UInt8)) :
    payloads (.inl n :: parts) = payloads parts := by
  simp [payloads]

@[simp] theorem payloads_inr_cons (payload : List UInt8) (parts : List (ℕ ⊕ List UInt8)) :
    payloads (.inr payload :: parts) = payload ++ payloads parts := by
  simp [payloads]

theorem payloads_replyParts (bytes : List UInt8) :
    payloads ((blockChunks bytes).map .inr) = bytes := by
  have hchunks : payloads ((blockChunks bytes).map .inr) = (blockChunks bytes).flatten := by
    simp [payloads,List.flatMap_def]
  rw [hchunks,flatten_blockChunks]

theorem payloads_sublist {parts parts' : List (ℕ ⊕ List UInt8)} (h : parts.Sublist parts') :
    (payloads parts).Sublist (payloads parts') :=
  h.flatMap _

theorem sublist_of_meta {n : ℕ} {parts : List (ℕ ⊕ List UInt8)} {bytes : List UInt8}
    (h : (.inl n :: parts).Sublist (replyParts bytes)) :
    n = bytes.length ∧ (∀ m, .inl m ∉ parts) ∧ (payloads parts).Sublist bytes := by
  have hnone : ∀ (l : List (List UInt8)) (m : ℕ), (.inl m : ℕ ⊕ List UInt8) ∉ l.map .inr := by
    intro l m hm
    simp at hm
  rcases List.sublist_cons_iff.mp h with hrest | ⟨rest,heq,hrest⟩
  · exact absurd (hrest.subset List.mem_cons_self) (hnone _ n)
  · obtain ⟨hhead,rfl⟩ := List.cons.inj heq
    refine ⟨Sum.inl.inj hhead,fun m hm => hnone _ m (hrest.subset hm),?_⟩
    have hsub := payloads_sublist hrest
    rwa [payloads_replyParts] at hsub

/-- The frames of a reply are the parts of its request, and nothing to any other. -/
theorem replyFrames_parts {request : BlockRequest} (hid : IsRequestId request.requestId)
    (bytes : List UInt8) (requestId : String) :
    (replyFrames request (.ok bytes)).filterMap (blockPart requestId) =
      if request.requestId = requestId then replyParts bytes else [] := by
  have hbinary : ∀ chunk, blockPart requestId (.binary (textEncode request.requestId ++ chunk)) =
      if request.requestId = requestId then some (.inr chunk) else none := by
    intro chunk
    have hlength : LOCAL_MEDIA_BLOCK_REQUEST_ID_LENGTH ≤
        (textEncode request.requestId ++ chunk).length := by
      rw [List.length_append,textEncode_length hid]
      omega
    have hdrop : (textEncode request.requestId ++ chunk).drop
        LOCAL_MEDIA_BLOCK_REQUEST_ID_LENGTH = chunk := by
      rw [← textEncode_length hid,List.drop_left]
    rw [blockPart]
    simp only [hlength,textDecode_header hid,hdrop,true_and]
  have hchunks : ∀ chunks : List (List UInt8),
      (chunks.map fun chunk => ChannelFrame.binary (textEncode request.requestId ++ chunk)).filterMap
        (blockPart requestId) = if request.requestId = requestId then chunks.map .inr else [] := by
    intro chunks
    induction chunks with
    | nil => simp
    | cons chunk chunks ih =>
      rw [List.map_cons,List.filterMap_cons,hbinary,ih]
      by_cases hsame : request.requestId = requestId <;> simp [hsame]
  have hmeta : blockPart requestId (encodeLocalMediaBlockMetaOk request.requestId bytes.length) =
      if request.requestId = requestId then some (.inl bytes.length) else none := rfl
  rw [replyFrames,List.filterMap_cons,hmeta,hchunks]
  by_cases hsame : request.requestId = requestId <;> simp [hsame,replyParts]

theorem replyFrames_error_parts (request : BlockRequest) (code : RangeResponderErrorCode)
    (requestId : String) :
    (replyFrames request (.error code)).filterMap (blockPart requestId) = [] := by
  simp [replyFrames,encodeLocalMediaBlockMetaError,blockPart]

end Parts

section Effects

inductive ViewerEffect (slot : ViewerSlot) (frame : ChannelFrame) (slot' : ViewerSlot) :
    Settlement → Prop
  | ignored (h : slot'.pending = slot.pending) : ViewerEffect slot frame slot' none
  | failed (id : String) (block : PendingBlock) (hblock : slot.pending id = some block)
      (hslot : slot' = slot.forget id) : ViewerEffect slot frame slot' (some (id,none))
  | allocated (id : String) (block : PendingBlock) (n : ℕ) (hblock : slot.pending id = some block)
      (hpart : blockPart id frame = some (.inl n))
      (hslot : slot' = slot.keep id { block with buffer := some (List.replicate n 0) }) :
      ViewerEffect slot frame slot' none
  | empty (id : String) (block : PendingBlock) (hblock : slot.pending id = some block)
      (hpart : blockPart id frame = some (.inl 0)) (hslot : slot' = slot.forget id) :
      ViewerEffect slot frame slot' (some (id,some []))
  | filled (id : String) (block : PendingBlock) (buffer payload : List UInt8)
      (hblock : slot.pending id = some block) (hbuffer : block.buffer = some buffer)
      (hpart : blockPart id frame = some (.inr payload))
      (hfits : block.received+payload.length ≤ buffer.length)
      (hslot : slot' = slot.keep id
        ⟨some (fillBuffer buffer payload block.received),block.received+payload.length⟩) :
      ViewerEffect slot frame slot' none
  | completed (id : String) (block : PendingBlock) (buffer payload : List UInt8)
      (hblock : slot.pending id = some block) (hbuffer : block.buffer = some buffer)
      (hpart : blockPart id frame = some (.inr payload))
      (hfits : block.received+payload.length = buffer.length) (hslot : slot' = slot.forget id) :
      ViewerEffect slot frame slot'
        (some (id,some (fillBuffer buffer payload block.received)))

theorem handleBlockMeta_effect (slot : ViewerSlot) (id : String) (ok : Bool)
    (byteLength : Option ℕ) (error : Option String) :
    ViewerEffect slot (.text (.blockMeta (some id) ok byteLength error))
      (handleBlockMeta slot id ok byteLength).1 (handleBlockMeta slot id ok byteLength).2 := by
  unfold handleBlockMeta
  split
  · exact .ignored rfl
  · rename_i block hblock
    split
    · rename_i n
      by_cases hn : n = 0
      · subst hn
        rw [if_pos rfl]
        exact .empty id block hblock (if_pos rfl) rfl
      · rw [if_neg hn]
        exact .allocated id block n hblock (if_pos rfl) rfl
    · exact .failed id block hblock rfl

theorem handleBlockData_effect (slot : ViewerSlot) {bytes : List UInt8}
    (hlength : LOCAL_MEDIA_BLOCK_REQUEST_ID_LENGTH ≤ bytes.length) :
    ViewerEffect slot (.binary bytes)
      (handleBlockData slot (textDecode (bytes.take LOCAL_MEDIA_BLOCK_REQUEST_ID_LENGTH))
        (bytes.drop LOCAL_MEDIA_BLOCK_REQUEST_ID_LENGTH)).1
      (handleBlockData slot (textDecode (bytes.take LOCAL_MEDIA_BLOCK_REQUEST_ID_LENGTH))
        (bytes.drop LOCAL_MEDIA_BLOCK_REQUEST_ID_LENGTH)).2 := by
  have hpart : blockPart (textDecode (bytes.take LOCAL_MEDIA_BLOCK_REQUEST_ID_LENGTH))
      (.binary bytes) = some (.inr (bytes.drop LOCAL_MEDIA_BLOCK_REQUEST_ID_LENGTH)) :=
    if_pos ⟨hlength,rfl⟩
  generalize textDecode (bytes.take LOCAL_MEDIA_BLOCK_REQUEST_ID_LENGTH) = id at hpart
  generalize bytes.drop LOCAL_MEDIA_BLOCK_REQUEST_ID_LENGTH = payload at hpart
  unfold handleBlockData
  split
  · exact .ignored rfl
  · rename_i block hblock
    split
    · exact .ignored rfl
    · rename_i buffer hbuffer
      by_cases hlong : buffer.length < block.received+payload.length
      · rw [if_pos hlong]
        exact .failed id block hblock rfl
      · rw [if_neg hlong]
        by_cases hdone : block.received+payload.length = buffer.length
        · simp only [hdone,if_true]
          exact .completed id block buffer payload hblock hbuffer hpart hdone rfl
        · simp only [hdone,if_false]
          exact .filled id block buffer payload hblock hbuffer hpart (not_lt.mp hlong) rfl

theorem handleViewerMessage_effect (slot : ViewerSlot) (frame : ChannelFrame) :
    ViewerEffect slot frame (handleViewerMessage slot frame).1
      (handleViewerMessage slot frame).2 := by
  cases frame with
  | text message =>
    cases message with
    | request id start stop => exact .ignored rfl
    | blockMeta id? ok byteLength error =>
      cases id? with
      | none => exact .ignored rfl
      | some id =>
        rw [handleViewerMessage]
        by_cases hid : id = ""
        · rw [if_pos hid]
          exact .ignored rfl
        · rw [if_neg hid]
          exact handleBlockMeta_effect slot id ok byteLength error
    | readyAck producerId =>
      rw [handleViewerMessage]
      split
      · exact .ignored rfl
      · split <;> exact .ignored rfl
  | binary bytes =>
    rw [handleViewerMessage]
    by_cases hshort : bytes.length < LOCAL_MEDIA_BLOCK_REQUEST_ID_LENGTH
    · rw [if_pos hshort]
      exact .ignored rfl
    · rw [if_neg hshort]
      exact handleBlockData_effect slot (not_lt.mp hshort)

end Effects

section Invariant

variable {s s' : SfuState} {v : ℕ} {id : String}

/-- What is known of a buffer that is being filled: together with the parts ahead it is a
sublist of the block, so it can only be completed by the whole of it. -/
def Fills (s : SfuState) (v : ℕ) (id : String) (block : PendingBlock) (buffer : List UInt8) :
    Prop :=
  ∃ read, s.reads id = [read] ∧ buffer.length = read.bytes.length ∧
    block.received ≤ buffer.length ∧ (∀ n, .inl n ∉ s.ahead v id) ∧
    (buffer.take block.received ++ payloads (s.ahead v id)).Sublist read.bytes

structure SfuInvariant (s : SfuState) : Prop where
  called : ∀ v id block, (s.slots v).pending id = some block →
    (∃ start stop, s.calls id = some (v,start,stop)) ∧ s.settled id = []
  once : ∀ id, (s.settled id).length ≤ 1
  uncalled : ∀ id, s.calls id = none → s.settled id = []
  nodup : ((s.requests ++ s.queue).map BlockRequest.requestId).Nodup
  waiting : ∀ request ∈ s.requests ++ s.queue, IsRequestId request.requestId ∧
    (∃ v, s.calls request.requestId = some (v,request.start,request.stop)) ∧
    s.reads request.requestId = []
  read : ∀ id, (s.reads id = [] ∧ ∀ v, s.ahead v id = []) ∨
    ∃ v read, s.calls id = some (v,read.start,read.stop) ∧ s.reads id = [read] ∧
      ∀ w, (s.ahead w id).Sublist (replyParts read.bytes)
  fills : ∀ v id block buffer, (s.slots v).pending id = some block →
    block.buffer = some buffer → Fills s v id block buffer
  unfilled : ∀ v id block, (s.slots v).pending id = some block → block.buffer = none →
    block.received = 0
  resolved : ∀ id bytes, some bytes ∈ s.settled id → ∃ v read,
    s.calls id = some (v,read.start,read.stop) ∧ s.reads id = [read] ∧ read.bytes = bytes

theorem sfuInvariant_idle (producerIds : ℕ → String) : SfuInvariant (.idle producerIds) where
  called := nofun
  once _ := Nat.zero_le _
  uncalled _ _ := rfl
  nodup := List.nodup_nil
  waiting := nofun
  read _ := Or.inl ⟨rfl,fun _ => rfl⟩
  fills := nofun
  unfilled := nofun
  resolved := nofun

theorem SfuInvariant.of_frames (h : SfuInvariant s)
    (hslots : ∀ v, (s'.slots v).pending = (s.slots v).pending)
    (hcalls : s'.calls = s.calls) (hreads : s'.reads = s.reads) (hsettled : s'.settled = s.settled)
    (hnodup : ((s'.requests ++ s'.queue).map BlockRequest.requestId).Nodup)
    (hwaiting : ∀ request ∈ s'.requests ++ s'.queue, request ∈ s.requests ++ s.queue)
    (hahead : ∀ v id, (s'.ahead v id).Sublist (s.ahead v id)) : SfuInvariant s' where
  called v id block hblock := by
    rw [hslots] at hblock
    rw [hcalls,hsettled]
    exact h.called v id block hblock
  once id := by
    rw [hsettled]
    exact h.once id
  uncalled id hid := by
    rw [hcalls] at hid
    rw [hsettled]
    exact h.uncalled id hid
  nodup := hnodup
  waiting request hrequest := by
    rw [hcalls,hreads]
    exact h.waiting request (hwaiting request hrequest)
  read id := by
    rw [hcalls,hreads]
    refine (h.read id).imp (fun hnone => ⟨hnone.1,fun v => ?_⟩) ?_
    · have hsub := hahead v id
      rwa [hnone.2 v,List.sublist_nil] at hsub
    · rintro ⟨v,read,hcall,hread,hparts⟩
      exact ⟨v,read,hcall,hread,fun w => (hahead w id).trans (hparts w)⟩
  fills v id block buffer hblock hbuffer := by
    rw [hslots] at hblock
    obtain ⟨read,hread,hlength,hle,hmeta,hsub⟩ := h.fills v id block buffer hblock hbuffer
    refine ⟨read,by rw [hreads,hread],hlength,hle,fun n hn => hmeta n ?_,?_⟩
    · exact (hahead v id).subset hn
    · exact ((List.Sublist.refl _).append (payloads_sublist (hahead v id))).trans hsub
  unfilled v id block hblock hbuffer := by
    rw [hslots] at hblock
    exact h.unfilled v id block hblock hbuffer
  resolved id bytes hbytes := by
    rw [hsettled] at hbytes
    rw [hcalls,hreads]
    exact h.resolved id bytes hbytes

/-- A pending call has its slot in its call, so no other slot has it pending. -/
theorem SfuInvariant.same_slot (h : SfuInvariant s) {w : ℕ} {block block' : PendingBlock}
    (hv : (s.slots v).pending id = some block) (hw : (s.slots w).pending id = some block') :
    w = v := by
  obtain ⟨⟨start,stop,hcall⟩,-⟩ := h.called v id block hv
  obtain ⟨⟨start',stop',hcall'⟩,-⟩ := h.called w id block' hw
  exact (Prod.mk.inj (Option.some.inj (hcall'.symm.trans hcall))).1

theorem pending_setSlot (s : SfuState) (v w : ℕ) (slot : ViewerSlot) (settlement : Settlement) :
    ((s.setSlot v slot settlement).slots w).pending =
      if w = v then slot.pending else (s.slots w).pending := by
  by_cases hw : w = v
  · subst hw
    simp [SfuState.setSlot]
  · simp [SfuState.setSlot,hw]

theorem SfuInvariant.settleWith (h : SfuInvariant s) {block : PendingBlock}
    (hblock : (s.slots v).pending id = some block) {value : Option (List UInt8)}
    (hvalue : ∀ bytes, value = some bytes → ∃ read, s.reads id = [read] ∧ read.bytes = bytes) :
    SfuInvariant (s.setSlot v ((s.slots v).forget id) (some (id,value))) := by
  have hold : ∀ w other b,
      ((s.setSlot v ((s.slots v).forget id) (some (id,value))).slots w).pending other = some b →
        other ≠ id ∧ (s.slots w).pending other = some b := by
    intro w other b hb
    rw [pending_setSlot] at hb
    by_cases hw : w = v
    · subst hw
      by_cases hid : other = id
      · simp [hid,ViewerSlot.forget] at hb
      · refine ⟨hid,?_⟩
        simpa [ViewerSlot.forget,hid] using hb
    · rw [if_neg hw] at hb
      refine ⟨?_,hb⟩
      rintro rfl
      exact hw (h.same_slot hblock hb)
  have hsettled : ∀ other, other ≠ id →
      (s.setSlot v ((s.slots v).forget id) (some (id,value))).settled other = s.settled other := by
    intro other hother
    simp [SfuState.setSlot,SfuState.settle,hother]
  have hsettled_id :
      (s.setSlot v ((s.slots v).forget id) (some (id,value))).settled id = [value] := by
    simp [SfuState.setSlot,SfuState.settle,(h.called v id block hblock).2]
  obtain ⟨⟨start,stop,hcall⟩,-⟩ := h.called v id block hblock
  constructor
  case called =>
    intro w other b hb
    obtain ⟨hne,hb⟩ := hold w other b hb
    rw [hsettled other hne]
    exact h.called w other b hb
  case once =>
    intro other
    by_cases hother : other = id
    · rw [hother,hsettled_id]
      simp
    · rw [hsettled other hother]
      exact h.once other
  case uncalled =>
    intro other hnone
    have hne : other ≠ id := by
      rintro rfl
      have hsame : s.calls other = none := hnone
      simp [hcall] at hsame
    rw [hsettled other hne]
    exact h.uncalled other hnone
  case nodup => exact h.nodup
  case waiting => exact h.waiting
  case read => exact h.read
  case fills =>
    intro w other b buffer hb hbuffer
    exact h.fills w other b buffer (hold w other b hb).2 hbuffer
  case unfilled =>
    intro w other b hb hbuffer
    exact h.unfilled w other b (hold w other b hb).2 hbuffer
  case resolved =>
    intro other bytes hbytes
    by_cases hother : other = id
    · subst hother
      rw [hsettled_id,List.mem_singleton] at hbytes
      obtain ⟨read,hread,hsame⟩ := hvalue bytes hbytes.symm
      rcases h.read other with ⟨hnone,-⟩ | ⟨w,read',hcall',hread',-⟩
      · simp [hread] at hnone
      · obtain rfl : read = read' := by simpa using hread.symm.trans hread'
        exact ⟨w,read,hcall',hread,hsame⟩
    · rw [hsettled other hother] at hbytes
      exact h.resolved other bytes hbytes

theorem SfuInvariant.keepBlock (h : SfuInvariant s) {block' : PendingBlock}
    (hcalled : (∃ start stop, s.calls id = some (v,start,stop)) ∧ s.settled id = [])
    (hfills : ∀ buffer, block'.buffer = some buffer → Fills s v id block' buffer)
    (hunfilled : block'.buffer = none → block'.received = 0) :
    SfuInvariant (s.setSlot v ((s.slots v).keep id block') none) := by
  have hold : ∀ w other b,
      ((s.setSlot v ((s.slots v).keep id block') none).slots w).pending other = some b →
        w = v ∧ other = id ∧ b = block' ∨ (s.slots w).pending other = some b := by
    intro w other b hb
    rw [pending_setSlot] at hb
    by_cases hw : w = v
    · subst hw
      by_cases hid : other = id
      · subst hid
        left
        simpa [ViewerSlot.keep,eq_comm] using hb
      · right
        simpa [ViewerSlot.keep,hid] using hb
    · rw [if_neg hw] at hb
      exact Or.inr hb
  constructor
  case called =>
    intro w other b hb
    rcases hold w other b hb with ⟨rfl,rfl,-⟩ | hb
    · exact hcalled
    · exact h.called w other b hb
  case once => exact h.once
  case uncalled => exact h.uncalled
  case nodup => exact h.nodup
  case waiting => exact h.waiting
  case read => exact h.read
  case fills =>
    intro w other b buffer hb hbuffer
    rcases hold w other b hb with ⟨rfl,rfl,rfl⟩ | hb
    · exact hfills buffer hbuffer
    · exact h.fills w other b buffer hb hbuffer
  case unfilled =>
    intro w other b hb hbuffer
    rcases hold w other b hb with ⟨rfl,rfl,rfl⟩ | hb
    · exact hunfilled hbuffer
    · exact h.unfilled w other b hb hbuffer
  case resolved => exact h.resolved

theorem SfuInvariant.drop (h : SfuInvariant s) (v : ℕ) : ∀ s', sfuStep s (.drop v) = some s' →
    SfuInvariant s' := by
  rintro s' hs'
  cases hs'
  have hold : ∀ w other b, (Function.update s.slots v
      { s.slots v with ready := false, pending := fun _ => none } w).pending other = some b →
        w ≠ v ∧ (s.slots w).pending other = some b := by
    intro w other b hb
    by_cases hw : w = v
    · subst hw
      simp at hb
    · exact ⟨hw,by simpa [hw] using hb⟩
  constructor
  case called =>
    intro w other b hb
    obtain ⟨hw,hb⟩ := hold w other b hb
    obtain ⟨hcall,hnil⟩ := h.called w other b hb
    refine ⟨hcall,?_⟩
    have hnone : (s.slots v).pending other = none := by
      by_contra hsome
      obtain ⟨b',hb'⟩ := Option.ne_none_iff_exists'.mp hsome
      exact hw (h.same_slot hb' hb)
    simpa [hnone] using hnil
  case once =>
    intro other
    by_cases hpending : ((s.slots v).pending other).isSome
    · obtain ⟨b,hb⟩ := Option.isSome_iff_exists.mp hpending
      simp [hb,(h.called v other b hb).2]
    · simpa [hpending] using h.once other
  case uncalled =>
    intro other hnone
    have hpending : (s.slots v).pending other = none := by
      by_contra hsome
      obtain ⟨b,hb⟩ := Option.ne_none_iff_exists'.mp hsome
      obtain ⟨⟨start,stop,hcall⟩,-⟩ := h.called v other b hb
      have hnone' : s.calls other = none := hnone
      simp [hcall] at hnone'
    simpa [hpending] using h.uncalled other hnone
  case nodup => exact h.nodup
  case waiting => exact h.waiting
  case read => exact h.read
  case fills =>
    intro w other b buffer hb hbuffer
    exact h.fills w other b buffer (hold w other b hb).2 hbuffer
  case unfilled =>
    intro w other b hb hbuffer
    exact h.unfilled w other b (hold w other b hb).2 hbuffer
  case resolved =>
    intro other bytes hbytes
    refine h.resolved other bytes ?_
    by_cases hpending : ((s.slots v).pending other).isSome
    · simpa [hpending] using hbytes
    · simpa [hpending] using hbytes

theorem SfuInvariant.call (h : SfuInvariant s) (v : ℕ) {request : BlockRequest}
    (hfresh : s.calls request.requestId = none) : SfuInvariant (s.call v request) := by
  have hsome : ∀ other called, s.calls other = some called →
      (s.call v request).calls other = some called := by
    intro other called hcalled
    have hne : other ≠ request.requestId := by
      rintro rfl
      simp [hfresh] at hcalled
    simpa [SfuState.call,hne] using hcalled
  constructor
  case called =>
    intro w other b hb
    obtain ⟨⟨start,stop,hcall⟩,hnil⟩ := h.called w other b hb
    exact ⟨⟨start,stop,hsome other _ hcall⟩,hnil⟩
  case once => exact h.once
  case uncalled =>
    intro other hnone
    refine h.uncalled other ?_
    by_contra hother
    obtain ⟨called,hcalled⟩ := Option.ne_none_iff_exists'.mp hother
    simp [hsome other called hcalled] at hnone
  case nodup => exact h.nodup
  case waiting =>
    intro request hrequest
    obtain ⟨hid,⟨w,hcall⟩,hread⟩ := h.waiting request hrequest
    exact ⟨hid,⟨w,hsome _ _ hcall⟩,hread⟩
  case read =>
    intro other
    refine (h.read other).imp_right ?_
    rintro ⟨w,read,hcall,hrest⟩
    exact ⟨w,read,hsome other _ hcall,hrest⟩
  case fills => exact h.fills
  case unfilled => exact h.unfilled
  case resolved =>
    intro other bytes hbytes
    obtain ⟨w,read,hcall,hrest⟩ := h.resolved other bytes hbytes
    exact ⟨w,read,hsome other _ hcall,hrest⟩

theorem SfuInvariant.settleNull (h : SfuInvariant s) (hcall : s.calls id ≠ none)
    (hnone : ∀ w, (s.slots w).pending id = none) (hnil : s.settled id = []) :
    SfuInvariant { s with settled := s.settle (some (id,none)) } := by
  have hsettled : ∀ other, other ≠ id → s.settle (some (id,none)) other = s.settled other := by
    intro other hother
    simp [SfuState.settle,hother]
  have hsettled_id : s.settle (some (id,none)) id = [none] := by
    simp [SfuState.settle,hnil]
  constructor
  case called =>
    intro w other b hb
    have hne : other ≠ id := by
      rintro rfl
      have hb' : (s.slots w).pending other = some b := hb
      simp [hnone w] at hb'
    obtain ⟨hcalled,hother⟩ := h.called w other b hb
    exact ⟨hcalled,(hsettled other hne).trans hother⟩
  case once =>
    intro other
    by_cases hother : other = id
    · subst hother
      simp [hsettled_id]
    · simpa [hsettled other hother] using h.once other
  case uncalled =>
    intro other hother
    have hne : other ≠ id := by
      rintro rfl
      exact hcall hother
    exact (hsettled other hne).trans (h.uncalled other hother)
  case nodup => exact h.nodup
  case waiting => exact h.waiting
  case read => exact h.read
  case fills => exact h.fills
  case unfilled => exact h.unfilled
  case resolved =>
    intro other bytes hbytes
    by_cases hother : other = id
    · subst hother
      simp [hsettled_id] at hbytes
    · refine h.resolved other bytes ?_
      simpa [hsettled other hother] using hbytes

theorem SfuInvariant.request (h : SfuInvariant s) {request : BlockRequest}
    (hid : IsRequestId request.requestId)
    (hcall : s.calls request.requestId = some (v,request.start,request.stop))
    (hread : s.reads request.requestId = [])
    (hnew : ∀ other ∈ s.requests ++ s.queue, other.requestId ≠ request.requestId) :
    SfuInvariant { s with requests := s.requests ++ [request] } := by
  have hperm : (s.requests ++ [request] ++ s.queue).Perm (request :: (s.requests ++ s.queue)) := by
    rw [List.append_assoc]
    exact List.perm_middle
  constructor
  case called => exact h.called
  case once => exact h.once
  case uncalled => exact h.uncalled
  case nodup =>
    rw [(hperm.map BlockRequest.requestId).nodup_iff,List.map_cons,List.nodup_cons]
    refine ⟨fun hmem => ?_,h.nodup⟩
    obtain ⟨other,hother,hsame⟩ := List.mem_map.mp hmem
    exact hnew other hother hsame
  case waiting =>
    intro other hother
    rcases List.mem_cons.mp (hperm.subset hother) with rfl | hother
    · exact ⟨hid,⟨v,hcall⟩,hread⟩
    · exact h.waiting other hother
  case read => exact h.read
  case fills => exact h.fills
  case unfilled => exact h.unfilled
  case resolved => exact h.resolved

theorem SfuInvariant.fetch (h : SfuInvariant s) {request : BlockRequest} {sent : Bool}
    (hs' : fetchStep s v request sent = some s') : SfuInvariant s' := by
  unfold fetchStep at hs'
  split at hs'
  · cases hs'
  rename_i hnew
  push Not at hnew
  obtain ⟨hnone,hid⟩ := hnew
  have hfresh : s.calls request.requestId = none := by simpa using hnone
  have hpending : ∀ w, (s.slots w).pending request.requestId = none := by
    intro w
    by_contra hsome
    obtain ⟨b,hb⟩ := Option.ne_none_iff_exists'.mp hsome
    obtain ⟨⟨start,stop,hcall⟩,-⟩ := h.called w _ b hb
    simp [hfresh] at hcall
  have hread : s.reads request.requestId = [] := by
    rcases h.read request.requestId with ⟨hread,-⟩ | ⟨w,read,hcall,-⟩
    · exact hread
    · simp [hfresh] at hcall
  have hcalled := h.call v hfresh
  have hcall : (s.call v request).calls request.requestId = some (v,request.start,request.stop) :=
    Function.update_self ..
  have hregistered := @SfuInvariant.keepBlock _ v _ hcalled {}
    ⟨⟨request.start,request.stop,hcall⟩,h.uncalled _ hfresh⟩ nofun fun _ => rfl
  by_cases hready : (s.slots v).ready = true
  · simp only [hready,if_true] at hs'
    cases sent with
    | true =>
      cases hs'
      refine hregistered.request hid hcall hread fun other hother hsame => ?_
      obtain ⟨-,⟨w,hwaiting⟩,-⟩ := h.waiting other hother
      rw [hsame,hfresh] at hwaiting
      cases hwaiting
    | false =>
      cases hs'
      have hblock : (((s.call v request).setSlot v ((s.slots v).keep request.requestId {})
          none).slots v).pending request.requestId = some {} := by
        rw [pending_setSlot]
        simp [ViewerSlot.keep]
      exact hregistered.settleWith hblock nofun
  · simp only [hready] at hs'
    cases hs'
    refine hcalled.settleNull ?_ hpending (h.uncalled _ hfresh)
    rw [hcall]
    simp

theorem SfuInvariant.serveBytes (h : SfuInvariant s) {request : BlockRequest}
    {queue : List BlockRequest} {bytes : List UInt8} (hserving : s.serving = [])
    (hnodup : ((s.requests ++ queue).map BlockRequest.requestId).Nodup)
    (hsub : ∀ r ∈ s.requests ++ queue, r ∈ s.requests ++ s.queue)
    (hother : ∀ r ∈ s.requests ++ queue, r.requestId ≠ request.requestId)
    (hid : IsRequestId request.requestId)
    (hcall : s.calls request.requestId = some (v,request.start,request.stop))
    (hread : s.reads request.requestId = []) :
    SfuInvariant { s with
      queue := queue
      serving := replyFrames request (.ok bytes)
      reads := Function.update s.reads request.requestId
        (⟨request.start,request.stop,bytes⟩ :: s.reads request.requestId) } := by
  have hnil : ∀ w, s.ahead w request.requestId = [] := by
    rcases h.read request.requestId with ⟨-,hnil⟩ | ⟨w,read,-,hread',-⟩
    · exact hnil
    · simp [hread] at hread'
  have hahead : ∀ w other, (s.channels w ++ replyFrames request (.ok bytes)).filterMap
      (blockPart other) =
        s.ahead w other ++ if request.requestId = other then replyParts bytes else [] := by
    intro w other
    rw [List.filterMap_append,replyFrames_parts hid,SfuState.ahead,hserving,List.append_nil]
  have hunread : ∀ other read, s.reads other = [read] → other ≠ request.requestId := by
    rintro other read hother rfl
    simp [hread] at hother
  constructor
  case called => exact h.called
  case once => exact h.once
  case uncalled => exact h.uncalled
  case nodup => exact hnodup
  case waiting =>
    intro r hr
    obtain ⟨hid',hcall',hread'⟩ := h.waiting r (hsub r hr)
    refine ⟨hid',hcall',?_⟩
    simpa [Function.update_of_ne (hother r hr)] using hread'
  case read =>
    intro other
    by_cases hsame : request.requestId = other
    · subst hsame
      refine Or.inr ⟨v,⟨request.start,request.stop,bytes⟩,hcall,?_,fun w => ?_⟩
      · simp [hread]
      · rw [SfuState.ahead,hahead,hnil,if_pos rfl,List.nil_append]
    · have hreads : Function.update s.reads request.requestId
          (⟨request.start,request.stop,bytes⟩ :: s.reads request.requestId) other =
            s.reads other := Function.update_of_ne (Ne.symm hsame) _ _
      have hsame' : ∀ w, (s.channels w ++ replyFrames request (.ok bytes)).filterMap
          (blockPart other) = s.ahead w other := by
        intro w
        rw [hahead,if_neg hsame,List.append_nil]
      simp only [SfuState.ahead,hreads,hsame']
      exact h.read other
  case fills =>
    intro w other b buffer hb hbuffer
    obtain ⟨read,hread',hlength,hle,hmeta,hsublist⟩ := h.fills w other b buffer hb hbuffer
    have hne := hunread other read hread'
    have hsame' : (s.channels w ++ replyFrames request (.ok bytes)).filterMap
        (blockPart other) = s.ahead w other := by
      rw [hahead,if_neg hne.symm,List.append_nil]
    refine ⟨read,?_,hlength,hle,?_,?_⟩
    · simpa [Function.update_of_ne hne] using hread'
    · simpa only [SfuState.ahead,hsame'] using hmeta
    · simpa only [SfuState.ahead,hsame'] using hsublist
  case unfilled => exact h.unfilled
  case resolved =>
    intro other bytes' hbytes
    obtain ⟨w,read,hcall',hread',hsame⟩ := h.resolved other bytes' hbytes
    refine ⟨w,read,hcall',?_,hsame⟩
    simpa [Function.update_of_ne (hunread other read hread')] using hread'

theorem SfuInvariant.serve (h : SfuInvariant s) {hasFile : Bool} {read : ReadOutcome}
    (hs' : serveStep s hasFile read = some s') : SfuInvariant s' := by
  unfold serveStep at hs'
  split at hs'
  · rename_i request queue hserving hqueue
    have hmem : request ∈ s.requests ++ s.queue := by
      rw [hqueue]
      simp
    obtain ⟨hid,⟨v,hcall⟩,hread⟩ := h.waiting request hmem
    have hsub : (s.requests ++ queue).Sublist (s.requests ++ s.queue) := by
      rw [hqueue]
      exact (List.Sublist.refl _).append (List.sublist_cons_self _ _)
    have hnodup : ((s.requests ++ queue).map BlockRequest.requestId).Nodup :=
      h.nodup.sublist (hsub.map _)
    have hfirst : ∀ r ∈ s.requests ++ queue, r.requestId ≠ request.requestId := by
      have hperm : (s.requests ++ s.queue).Perm (request :: (s.requests ++ queue)) := by
        rw [hqueue]
        exact List.perm_middle
      have hcons := (hperm.map BlockRequest.requestId).nodup_iff.mp h.nodup
      rw [List.map_cons,List.nodup_cons] at hcons
      intro r hr hsame
      exact hcons.1 (hsame ▸ List.mem_map_of_mem hr)
    have hold : ∀ w other, s.ahead w other = (s.channels w).filterMap (blockPart other) := by
      intro w other
      rw [SfuState.ahead,hserving,List.append_nil]
    cases hresult : serveLocalMediaRange hasFile true request read with
    | error code =>
      rw [hresult] at hs'
      cases hs'
      refine h.of_frames (fun _ => rfl) rfl rfl rfl hnodup (fun r hr => hsub.subset hr) fun w other => ?_
      rw [hold,SfuState.ahead,List.filterMap_append,replyFrames_error_parts,List.append_nil]
    | ok bytes =>
      rw [hresult] at hs'
      cases hs'
      exact h.serveBytes hserving hnodup (fun r hr => hsub.subset hr) hfirst hid hcall hread
  · cases hs'

theorem ahead_pop {frame : ChannelFrame} {rest : List ChannelFrame}
    (hchannel : s.channels v = frame :: rest) (id : String) :
    s.ahead v id = (blockPart id frame).toList ++
      SfuState.ahead { s with channels := Function.update s.channels v rest } v id := by
  simp only [SfuState.ahead,hchannel,Function.update_self,List.cons_append,List.filterMap_cons]
  cases blockPart id frame <;> rfl

theorem SfuInvariant.pop (h : SfuInvariant s) {frame : ChannelFrame} {rest : List ChannelFrame}
    (hchannel : s.channels v = frame :: rest) :
    SfuInvariant { s with channels := Function.update s.channels v rest } := by
  refine h.of_frames (fun _ => rfl) rfl rfl rfl h.nodup (fun _ hr => hr) fun w id => ?_
  by_cases hw : w = v
  · subst hw
    rw [ahead_pop hchannel]
    exact List.sublist_append_right _ _
  · simp only [SfuState.ahead,Function.update_of_ne hw]
    exact List.Sublist.refl _

@[simp] theorem length_fillBuffer {buffer payload : List UInt8} {received : ℕ}
    (h : received+payload.length ≤ buffer.length) :
    (fillBuffer buffer payload received).length = buffer.length := by
  simp only [fillBuffer,List.length_append,List.length_take,List.length_drop]
  omega

theorem take_fillBuffer {buffer payload : List UInt8} {received : ℕ}
    (h : received+payload.length ≤ buffer.length) :
    (fillBuffer buffer payload received).take (received+payload.length) =
      buffer.take received ++ payload := by
  have hlength : (buffer.take received ++ payload).length = received+payload.length := by
    simp only [List.length_append,List.length_take]
    omega
  rw [fillBuffer,← hlength,List.take_left]

/-- The meta that is next on a channel tells the length of the block that was read, and the
rest of the channel is bytes of it. -/
theorem SfuInvariant.next_meta (h : SfuInvariant s) {frame : ChannelFrame}
    {rest : List ChannelFrame} (hchannel : s.channels v = frame :: rest) {n : ℕ}
    (hpart : blockPart id frame = some (.inl n)) : ∃ read, s.reads id = [read] ∧
      n = read.bytes.length ∧
      (∀ m, .inl m ∉ SfuState.ahead
        { s with channels := Function.update s.channels v rest } v id) ∧
      (payloads (SfuState.ahead
        { s with channels := Function.update s.channels v rest } v id)).Sublist read.bytes := by
  have hahead := ahead_pop hchannel id
  rw [hpart,Option.toList_some,List.singleton_append] at hahead
  rcases h.read id with ⟨-,hnil⟩ | ⟨w,read,-,hread,hparts⟩
  · have hcons := hnil v
    simp [hahead] at hcons
  · have hsub := hparts v
    rw [hahead] at hsub
    exact ⟨read,hread,sublist_of_meta hsub⟩

theorem SfuInvariant.next_data (h : SfuInvariant s) {frame : ChannelFrame}
    {rest : List ChannelFrame} (hchannel : s.channels v = frame :: rest) {block : PendingBlock}
    {buffer payload : List UInt8} (hblock : (s.slots v).pending id = some block)
    (hbuffer : block.buffer = some buffer) (hpart : blockPart id frame = some (.inr payload))
    (hfits : block.received+payload.length ≤ buffer.length) :
    Fills { s with channels := Function.update s.channels v rest } v id
      ⟨some (fillBuffer buffer payload block.received),block.received+payload.length⟩
      (fillBuffer buffer payload block.received) := by
  have hahead := ahead_pop hchannel id
  rw [hpart,Option.toList_some,List.singleton_append] at hahead
  obtain ⟨read,hread,hlength,-,hmeta,hsub⟩ := h.fills v id block buffer hblock hbuffer
  rw [hahead,payloads_inr_cons,← List.append_assoc] at hsub
  refine ⟨read,hread,(length_fillBuffer hfits).trans hlength,?_,fun n hn => hmeta n ?_,?_⟩
  · rw [length_fillBuffer hfits]
    exact hfits
  · rw [hahead]
    exact List.mem_cons_of_mem _ hn
  · rw [take_fillBuffer hfits]
    exact hsub

/-- A buffer that is full is the block. -/
theorem Fills.complete {block : PendingBlock} {buffer : List UInt8}
    (h : Fills s v id block buffer) (hfull : block.received = buffer.length) :
    ∃ read, s.reads id = [read] ∧ read.bytes = buffer := by
  obtain ⟨read,hread,hlength,-,-,hsub⟩ := h
  refine ⟨read,hread,?_⟩
  rw [hfull,List.take_length] at hsub
  have hle := hsub.length_le
  have hbuffer : (buffer ++ payloads (s.ahead v id)).length = buffer.length := by
    simp only [List.length_append] at hle ⊢
    omega
  have hnil : payloads (s.ahead v id) = [] := by
    rw [List.length_append] at hbuffer
    exact List.eq_nil_of_length_eq_zero (by omega)
  rw [hnil,List.append_nil] at hsub
  exact (hsub.eq_of_length hlength).symm

theorem SfuInvariant.deliver (h : SfuInvariant s)
    (hs' : sfuStep s (.deliver v) = some s') : SfuInvariant s' := by
  rw [sfuStep] at hs'
  split at hs'
  · rename_i frame rest hchannel
    have hpop := h.pop hchannel
    have heffect := handleViewerMessage_effect (s.slots v) frame
    generalize handleViewerMessage (s.slots v) frame = outcome at heffect hs'
    obtain ⟨slot,settlement⟩ := outcome
    cases hs'
    change SfuInvariant (SfuState.setSlot
      { s with channels := Function.update s.channels v rest } v slot settlement)
    cases heffect with
    | ignored hsame =>
      refine hpop.of_frames (fun w => ?_) rfl rfl rfl h.nodup (fun _ hr => hr) fun w id =>
        List.Sublist.refl _
      rw [pending_setSlot]
      by_cases hw : w = v
      · rw [if_pos hw,hw]
        exact hsame
      · rw [if_neg hw]
    | failed id block hblock hslot =>
      subst hslot
      exact hpop.settleWith hblock nofun
    | allocated id block n hblock hpart hslot =>
      subst hslot
      obtain ⟨read,hread,hn,hmeta,hsub⟩ := h.next_meta hchannel hpart
      have hreceived : block.received = 0 := by
        cases hbuffer : block.buffer with
        | none => exact h.unfilled v id block hblock hbuffer
        | some buffer =>
          -- A second meta is not ahead of a buffer.
          obtain ⟨-,-,-,-,hnone,-⟩ := h.fills v id block buffer hblock hbuffer
          refine absurd ?_ (hnone n)
          rw [ahead_pop hchannel,hpart]
          simp
      refine hpop.keepBlock (h.called v id block hblock) (fun buffer hbuffer => ?_) nofun
      cases hbuffer
      refine ⟨read,hread,by simp [hn],by simp [hreceived],hmeta,?_⟩
      simpa [hreceived] using hsub
    | empty id block hblock hpart hslot =>
      subst hslot
      obtain ⟨read,hread,hn,-,-⟩ := h.next_meta hchannel hpart
      refine hpop.settleWith hblock fun bytes hbytes => ?_
      cases hbytes
      exact ⟨read,hread,List.eq_nil_of_length_eq_zero hn.symm⟩
    | filled id block buffer payload hblock hbuffer hpart hfits hslot =>
      subst hslot
      refine hpop.keepBlock (h.called v id block hblock) (fun buffer' hbuffer' => ?_) nofun
      cases hbuffer'
      exact h.next_data hchannel hblock hbuffer hpart hfits
    | completed id block buffer payload hblock hbuffer hpart hfull hslot =>
      subst hslot
      have hfills := h.next_data hchannel hblock hbuffer hpart hfull.le
      refine hpop.settleWith hblock fun bytes hbytes => ?_
      cases hbytes
      exact hfills.complete (by rw [length_fillBuffer hfull.le]; exact hfull)
  · cases hs'

theorem SfuInvariant.step (h : SfuInvariant s) {a : SfuStep} (hs' : sfuStep s a = some s') :
    SfuInvariant s' := by
  cases a with
  | ack producerId =>
    cases hs'
    refine h.of_frames (fun _ => rfl) rfl rfl rfl h.nodup (fun _ hr => hr) fun w id => ?_
    have hack : blockPart id (.text (.readyAck producerId)) = none := rfl
    simp [SfuState.ahead,SfuState.broadcast,List.filterMap_cons_none hack]
  | fetch v request sent => exact h.fetch hs'
  | timeout v id =>
    obtain ⟨block,hblock,rfl⟩ := Option.map_eq_some_iff.mp hs'
    exact h.settleWith hblock nofun
  | drop v => exact h.drop v s' hs'
  | arrive i =>
    obtain ⟨request,hrequest,rfl⟩ := Option.map_eq_some_iff.mp hs'
    obtain ⟨hlt,hith⟩ := List.getElem?_eq_some_iff.mp hrequest
    have hperm : (s.requests.eraseIdx i ++ (s.queue ++ [request])).Perm
        (s.requests ++ s.queue) := by
      have hsplit : s.requests = s.requests.take i ++ request :: s.requests.drop (i+1) := by
        rw [← hith,List.getElem_cons_drop hlt,List.take_append_drop]
      have hmoved : (s.requests.eraseIdx i ++ [request]).Perm s.requests := by
        rw [List.eraseIdx_eq_take_drop_succ]
        nth_rewrite 3 [hsplit]
        exact (List.perm_append_singleton _ _).trans List.perm_middle.symm
      refine (List.Perm.append_left _ List.perm_append_comm).trans ?_
      rw [← List.append_assoc]
      exact hmoved.append_right _
    exact h.of_frames (fun _ => rfl) rfl rfl rfl
      ((hperm.map BlockRequest.requestId).nodup_iff.mpr h.nodup)
      (fun _ hr => hperm.subset hr) fun _ _ => List.Sublist.refl _
  | loseRequest i =>
    cases hs'
    have hsub : (s.requests.eraseIdx i ++ s.queue).Sublist (s.requests ++ s.queue) :=
      (List.eraseIdx_sublist _ _).append (List.Sublist.refl _)
    exact h.of_frames (fun _ => rfl) rfl rfl rfl (h.nodup.sublist (hsub.map _))
      (fun _ hr => hsub.subset hr) fun _ _ => List.Sublist.refl _
  | serve hasFile read => exact h.serve hs'
  | send ok =>
    rw [sfuStep] at hs'
    split at hs'
    · rename_i frame rest hserving
      cases hs'
      cases ok with
      | true =>
        refine h.of_frames (fun _ => rfl) rfl rfl rfl h.nodup (fun _ hr => hr) fun w id => ?_
        simp [SfuState.ahead,SfuState.broadcast,hserving]
      | false =>
        refine h.of_frames (fun _ => rfl) rfl rfl rfl h.nodup (fun _ hr => hr) fun w id => ?_
        simp [SfuState.ahead]
    · cases hs'
  | deliver v => exact h.deliver hs'
  | lose v i =>
    cases hs'
    refine h.of_frames (fun _ => rfl) rfl rfl rfl h.nodup (fun _ hr => hr) fun w id => ?_
    by_cases hw : w = v
    · subst hw
      simp only [SfuState.ahead,Function.update_self]
      exact ((List.eraseIdx_sublist _ _).append (List.Sublist.refl _)).filterMap _
    · simp only [SfuState.ahead,Function.update_of_ne hw]
      exact List.Sublist.refl _

end Invariant

section Whole

/-- A slot gets frames one after the other; the settlements, the last one first. -/
def handleFrames (slot : ViewerSlot) : List ChannelFrame → ViewerSlot × List Settlement
  | [] => (slot,[])
  | frame :: rest =>
    let outcome := handleViewerMessage slot frame
    let (slot',settlements) := handleFrames outcome.1 rest
    (slot',settlements ++ [outcome.2])

variable {slot : ViewerSlot} {id : String}

theorem handleViewerMessage_data (hid : IsRequestId id) (slot : ViewerSlot) (chunk : List UInt8) :
    handleViewerMessage slot (.binary (textEncode id ++ chunk)) =
      handleBlockData slot id chunk := by
  have hlength : ¬(textEncode id ++ chunk).length < LOCAL_MEDIA_BLOCK_REQUEST_ID_LENGTH := by
    rw [List.length_append,textEncode_length hid]
    omega
  have hdrop : (textEncode id ++ chunk).drop LOCAL_MEDIA_BLOCK_REQUEST_ID_LENGTH = chunk := by
    rw [← textEncode_length hid,List.drop_left]
  rw [handleViewerMessage,if_neg hlength,textDecode_header hid,hdrop]

theorem handleFrames_done (hid : IsRequestId id) (hnone : slot.pending id = none)
    (chunks : List (List UInt8)) :
    ((handleFrames slot (chunks.map fun chunk => .binary (textEncode id ++ chunk))).2).reduceOption =
      [] := by
  induction chunks with
  | nil => rfl
  | cons chunk chunks ih =>
    have hdata : handleBlockData slot id chunk = (slot,none) := by
      simp [handleBlockData,hnone]
    simp only [List.map_cons,handleFrames,handleViewerMessage_data hid,hdata,
      List.reduceOption_append,ih]
    rfl

theorem handleFrames_fill (hid : IsRequestId id) (chunks : List (List UInt8))
    {buffer : List UInt8} {received : ℕ}
    (hblock : slot.pending id = some ⟨some buffer,received⟩)
    (hlength : received+chunks.flatten.length = buffer.length) (hopen : received < buffer.length) :
    ((handleFrames slot (chunks.map fun chunk => .binary (textEncode id ++ chunk))).2).reduceOption =
      [(id,some (buffer.take received ++ chunks.flatten))] := by
  induction chunks generalizing slot buffer received with
  | nil => simp at hlength; omega
  | cons chunk chunks ih =>
    rw [List.flatten_cons,List.length_append] at hlength
    have hfits : received+chunk.length ≤ buffer.length := by omega
    have hlong : ¬buffer.length < received+chunk.length := by omega
    simp only [List.map_cons,handleFrames,handleViewerMessage_data hid,List.reduceOption_append]
    by_cases hdone : received+chunk.length = buffer.length
    · have hdata : handleBlockData slot id chunk =
          (slot.forget id,some (id,some (fillBuffer buffer chunk received))) := by
        simp [handleBlockData,hblock,hdone]
      have hrest : chunks.flatten = [] := List.eq_nil_of_length_eq_zero (by omega)
      have hfull : fillBuffer buffer chunk received = buffer.take received ++ chunk := by
        rw [fillBuffer,hdone,List.drop_length,List.append_nil]
      rw [hdata,handleFrames_done hid (by simp [ViewerSlot.forget]),hfull,List.flatten_cons,hrest]
      simp
    · have hdata : handleBlockData slot id chunk =
          (slot.keep id ⟨some (fillBuffer buffer chunk received),received+chunk.length⟩,none) := by
        simp [handleBlockData,hblock,hdone,hlong]
      have hkept : (slot.keep id ⟨some (fillBuffer buffer chunk received),
          received+chunk.length⟩).pending id =
            some ⟨some (fillBuffer buffer chunk received),received+chunk.length⟩ := by
        simp [ViewerSlot.keep]
      rw [hdata,ih hkept (by rw [length_fillBuffer hfits]; omega)
        (by rw [length_fillBuffer hfits]; omega),take_fillBuffer hfits]
      simp

/-- A reply of any length that arrives whole settles its call with the bytes of the block. -/
theorem whole_reply_settles {request : BlockRequest} (hid : IsRequestId request.requestId)
    (hpending : slot.pending request.requestId = some {}) (bytes : List UInt8) :
    (handleFrames slot (replyFrames request (.ok bytes))).2.reduceOption =
      [(request.requestId,some bytes)] := by
  have hne : request.requestId ≠ "" := by
    rintro hempty
    have hlength := hid.1
    simp [hempty,LOCAL_MEDIA_BLOCK_REQUEST_ID_LENGTH] at hlength
  rw [replyFrames,encodeLocalMediaBlockMetaOk,handleFrames]
  simp only [List.reduceOption_append,handleViewerMessage,if_neg hne,handleBlockMeta,hpending]
  by_cases hempty : bytes = []
  · subst hempty
    have hnone : (slot.forget request.requestId).pending request.requestId = none := by
      simp [ViewerSlot.forget]
    simp only [List.length_nil,if_true]
    rw [handleFrames_done hid hnone]
    rfl
  · have hlength : bytes.length ≠ 0 := by
      simpa using hempty
    have hkept : (slot.keep request.requestId
        ⟨some (List.replicate bytes.length 0),0⟩).pending request.requestId =
          some ⟨some (List.replicate bytes.length 0),0⟩ := by
      simp [ViewerSlot.keep]
    simp only [if_neg hlength]
    rw [handleFrames_fill hid (blockChunks bytes) hkept (by simp [flatten_blockChunks])
      (by simp; omega)]
    simp [flatten_blockChunks]

end Whole

section Answers

theorem sfu_reads_of_step {s s' : SfuState} {a : SfuStep} (h : sfuStep s a = some s')
    {id : String} {read : BlockRead} (hread : read ∈ s'.reads id) : read ∈ s.reads id ∨
      ∃ hasFile bytes, a = .serve hasFile (.bytes bytes) ∧
        ∃ request ∈ s.queue.head?, read = ⟨request.start,request.stop,bytes⟩ := by
  cases a with
  | fetch v request sent =>
    rw [sfuStep,fetchStep] at h
    refine .inl ?_
    split at h
    · cases h
    · dsimp only at h
      split at h
      · split at h <;> cases h <;> exact hread
      · cases h
        exact hread
  | serve hasFile outcome =>
    rw [sfuStep,serveStep] at h
    split at h
    · rename_i request queue _ hqueue
      cases h
      dsimp only at hread
      cases hserved : serveLocalMediaRange hasFile true request outcome with
      | error code =>
        rw [hserved] at hread
        exact .inl hread
      | ok bytes =>
        rw [hserved] at hread
        refine (mem_noted hread).imp_right fun heq => ?_
        exact ⟨hasFile,bytes,by rw [read_of_served hserved],request,by simp [hqueue],heq⟩
    · cases h
  | timeout v requestId =>
    obtain ⟨block,-,rfl⟩ := Option.map_eq_some_iff.mp h
    exact .inl hread
  | arrive i =>
    obtain ⟨request,-,rfl⟩ := Option.map_eq_some_iff.mp h
    exact .inl hread
  | send ok =>
    rw [sfuStep] at h
    split at h
    · cases ok <;> cases h <;> exact .inl hread
    · cases h
  | deliver v =>
    rw [sfuStep] at h
    split at h
    · cases h
      exact .inl hread
    · cases h
  | ack | drop | loseRequest | lose =>
    cases h
    exact .inl hread


theorem sfuInvariant_reachable {s : SfuState} (h : sfuSystem.Reachable s) : SfuInvariant s := by
  refine h.invariant SfuInvariant ?_ ?_
  · rintro s ⟨producerIds,rfl⟩
    exact sfuInvariant_idle producerIds
  · rintro s a s' - hinv hstep
    exact hinv.step hstep

/-- A call settles at most once, and bytes that it gets are those that the provider read, once,
for its id and range; a reply that comes whole to a call that waits for it settles that call,
with the bytes of the reply. -/
theorem sfu_blocks_right {s : SfuState} (h : sfuSystem.Reachable s) (id : String) :
    (s.settled id).length ≤ 1 ∧
    (∀ bytes, some bytes ∈ s.settled id → ∃ v start stop, s.calls id = some (v,start,stop) ∧
      s.reads id = [⟨start,stop,bytes⟩]) ∧
    ∀ v request, IsRequestId request.requestId →
      (s.slots v).pending request.requestId = some {} → ∀ bytes,
        (handleFrames (s.slots v) (replyFrames request (.ok bytes))).2.reduceOption =
          [(request.requestId,some bytes)] := by
  have hinv := sfuInvariant_reachable h
  refine ⟨hinv.once id,fun bytes hbytes => ?_,
    fun v request hid hpending bytes => whole_reply_settles hid hpending bytes⟩
  obtain ⟨v,read,hcall,hread,rfl⟩ := hinv.resolved id bytes hbytes
  exact ⟨v,read.start,read.stop,hcall,hread⟩

def sampleRequest : BlockRequest := ⟨"0b5a7c3e-0000-4000-8000-00000000000a",0,2⟩

/-- Two viewers, one block of three bytes for the first. -/
theorem sfu_blocks_right_three_bytes : ∃ s,
    TransitionSystem.runSteps sfuStep (.idle fun _ => "producer")
      [.ack "producer",.deliver 0,.fetch 0 sampleRequest true,.arrive 0,
        .serve true (.bytes [1,2,3]),.send true,.send true,.lose 1 0,.deliver 0,.deliver 0] =
          some s ∧ ∃ v start stop, s.calls sampleRequest.requestId = some (v,start,stop) ∧
            s.reads sampleRequest.requestId = [⟨start,stop,[1,2,3]⟩] := by
  have hrun : (TransitionSystem.runSteps sfuStep (.idle fun _ => "producer")
      [.ack "producer",.deliver 0,.fetch 0 sampleRequest true,.arrive 0,
        .serve true (.bytes [1,2,3]),.send true,.send true,.lose 1 0,.deliver 0,.deliver 0]).map
          (fun s => s.settled sampleRequest.requestId) = some [some [1,2,3]] := by
    decide +kernel
  obtain ⟨s,hs,hsettled⟩ := Option.map_eq_some_iff.mp hrun
  have hreachable : sfuSystem.Reachable s :=
    .of_runSteps (fun _ _ _ hstep => hstep) _ (.init ⟨_,rfl⟩) hs
  exact ⟨s,hs,(sfu_blocks_right hreachable _).2.1 [1,2,3] (by rw [hsettled]; simp)⟩

end Answers

end WebSyncPlay
