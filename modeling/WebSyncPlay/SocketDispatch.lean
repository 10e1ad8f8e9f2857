import WebSyncPlay.Library.Record
import WebSyncPlay.Library.TransitionSystem

/-! What a frame of a socket does before its handler (`realtime/socket-dispatch.ts`): relay chunks,
malformed envelopes, repeated request ids, and the gate for sockets that have not joined. The
handlers, the rooms and the presence hashes are whatever the server makes of them. -/
namespace WebSyncPlay

open Library

section Utf8

/-- Where a decoder is in a character: the bytes it still needs, the bounds of the next one and the
bits so far. -/
structure Utf8State where
  needed : ℕ
  lower : ℕ
  upper : ℕ
  codePoint : ℕ

def replacementChar : Char := '\uFFFD'

def utf8Start (b : ℕ) : Char ⊕ Utf8State :=
  if b < 0x80 then .inl (Char.ofNat b)
  else if 0xC2 ≤ b ∧ b ≤ 0xDF then .inr ⟨1,0x80,0xBF,b % 0x20⟩
  else if b = 0xE0 then .inr ⟨2,0xA0,0xBF,b % 0x10⟩
  else if b = 0xED then .inr ⟨2,0x80,0x9F,b % 0x10⟩
  else if 0xE1 ≤ b ∧ b ≤ 0xEF then .inr ⟨2,0x80,0xBF,b % 0x10⟩
  else if b = 0xF0 then .inr ⟨3,0x90,0xBF,b % 0x08⟩
  else if b = 0xF4 then .inr ⟨3,0x80,0x8F,b % 0x08⟩
  else if 0xF1 ≤ b ∧ b ≤ 0xF3 then .inr ⟨3,0x80,0xBF,b % 0x08⟩
  else .inl replacementChar

/-- A byte that does not go on with the character ends it and is read again. -/
def utf8Go : Option Utf8State → List UInt8 → List Char
  | none,[] => []
  | some _,[] => [replacementChar]
  | state,byte :: rest =>
    let b := byte.toNat
    let start := match utf8Start b with
      | .inl c => c :: utf8Go none rest
      | .inr next => utf8Go (some next) rest
    match state with
    | none => start
    | some state =>
      if state.lower ≤ b ∧ b ≤ state.upper then
        let codePoint := state.codePoint*0x40+b % 0x40
        if state.needed = 1 then Char.ofNat codePoint :: utf8Go none rest
        else utf8Go (some ⟨state.needed-1,0x80,0xBF,codePoint⟩) rest
      else replacementChar :: start

/-- `TextDecoder.decode`: errors are replaced, a byte order mark at the start is dropped. -/
def textDecode (bytes : List UInt8) : String :=
  String.ofList (utf8Go none (if [0xEF,0xBB,0xBF] <+: bytes then bytes.drop 3 else bytes))

end Utf8

section Relay

structure LocalMediaChunk where
  requestId : String
  ok : Bool
  data : Option (List UInt8)
  error : Option String
  deriving DecidableEq

def lmcMagic : ℕ := 0x4c4d4301

def littleEndian : List UInt8 → ℕ
  | [] => 0
  | b :: bytes => b.toNat+0x100*littleEndian bytes

def decodeLocalMediaChunkFrame (bytes : List UInt8) : Option LocalMediaChunk :=
  if bytes.length < 7 then none
  else if littleEndian (bytes.take 4) ≠ lmcMagic then none
  else
    let requestIdLength := littleEndian ((bytes.drop 4).take 2)
    let headerLen := 4+2+requestIdLength+1
    if bytes.length < headerLen then none
    else
      let requestId := textDecode ((bytes.drop 6).take requestIdLength)
      let flags := bytes.getD (6+requestIdLength) 0
      let rest := bytes.drop headerLen
      if flags.toNat % 2 = 1 then
        some { requestId := requestId, ok := true, data := some rest, error := none }
      else
        some { requestId := requestId, ok := false, data := none, error := some (textDecode rest) }

/-- The pending requests of the node, those that were settled, and the reply lists, each with what
came. -/
structure LocalMediaRelay where
  pending : List String
  settled : List (String × LocalMediaChunk)
  replies : List (String × LocalMediaChunk)
  deriving DecidableEq

namespace LocalMediaRelay

def createPending (r : LocalMediaRelay) (requestId : String) : LocalMediaRelay :=
  if requestId ∈ r.pending then r else { r with pending := r.pending ++ [requestId] }

def timeout (r : LocalMediaRelay) (requestId : String) : LocalMediaRelay :=
  { r with pending := r.pending.filter (· ≠ requestId) }

def pushRelayReply (r : LocalMediaRelay) (payload : LocalMediaChunk) : LocalMediaRelay :=
  { r with replies := r.replies ++ [(payload.requestId,payload)] }

def settlePending (r : LocalMediaRelay) (payload : LocalMediaChunk) : Option LocalMediaRelay :=
  if payload.requestId ∈ r.pending then
    some { r with
      pending := r.pending.filter (· ≠ payload.requestId)
      settled := r.settled ++ [(payload.requestId,payload)] }
  else none

def resolveLocalMediaChunk (r : LocalMediaRelay) (payload : LocalMediaChunk) : LocalMediaRelay :=
  if payload.requestId = "" then r
  else (r.settlePending payload).getD (r.pushRelayReply payload)

end LocalMediaRelay

end Relay

section Dedupe

/-- A key of a `Map`, which keeps its keys in the order of their insertion. -/
structure RequestId where
  id : String
  deriving DecidableEq

instance : PropertyKey RequestId := ⟨fun _ => none⟩

/-- When a request id was seen; the socket that sent it is not kept by the code. -/
structure DedupeEntry (S : Type*) where
  seen : ℕ
  sender : S

abbrev DedupeMap (S : Type*) := Record RequestId (DedupeEntry S)

def dedupeWindowMs : ℕ := 3000
def maxEntries : ℕ := 10000

variable {S : Type*}

def DedupeEntry.live (now : ℕ) (e : DedupeEntry S) : Bool := decide (now-e.seen < dedupeWindowMs)

def pruneExpired (map : DedupeMap S) (now : ℕ) : DedupeMap S := map.filter fun _ e => e.live now

/-- Whether the request is skipped, and the map after it. -/
def shouldSkipDuplicateRequest (map : DedupeMap S) (now : ℕ) (sender : S) (requestId : String) :
    Bool × DedupeMap S :=
  if (map.get? ⟨requestId⟩).any (·.live now) then (true,map)
  else
    let map := map.set ⟨requestId⟩ ⟨now,sender⟩
    if map.size > maxEntries then
      let pruned := pruneExpired map now
      (false,pruned.drop (pruned.size-maxEntries))
    else (false,map)

end Dedupe

section Dispatch

structure WsEnvelope (P : Type*) where
  type : String
  requestId : Option String
  payload : P

/-- A text frame: not JSON, not an envelope, or an envelope. -/
inductive ParsedFrame (P : Type*)
  | malformed
  | invalid (requestId type : Option String)
  | envelope (data : WsEnvelope P)

def dispatchNackExcluded : List String :=
  ["seek:preview","participant:update","local-media:webrtc:signal","local-media:chunk"]

def shouldNackAtDispatch (type : String) : Bool := decide (type ∉ dispatchNackExcluded)

/-- A `room:error` to the sender. -/
structure RoomErrorNack where
  requestId : Option String
  code : String
  type : Option String
  message : Option String
  deriving DecidableEq

inductive FrameOutcome (P : Type*)
  | chunk (payload : LocalMediaChunk)
  | dropped
  | nack (error : RoomErrorNack)
  | join (data : WsEnvelope P)
  | deliver (data : WsEnvelope P)

def sendMutationNack {P : Type*} (requestId : Option String) (type code : String) : FrameOutcome P :=
  match requestId with
  | none => .dropped
  | some requestId =>
    if requestId = "" then .dropped else .nack ⟨some requestId,code,some type,none⟩

/-- What the server does elsewhere: how text and the payload of a join are parsed, who is in a room,
what an admission and the message handlers do, and any other step of the node or of another one. -/
structure Server (S R P J E : Type*) where
  parseEnvelope : List UInt8 → ParsedFrame P
  parseRoomJoin : P → Option J
  joinCommitted : R → S → Bool
  admitJoin : ℕ → S → Option String → J → LocalMediaRelay × R → LocalMediaRelay × R
  deliver : ℕ → S → WsEnvelope P → LocalMediaRelay × R → LocalMediaRelay × R
  act : ℕ → E → LocalMediaRelay × R → LocalMediaRelay × R

/-- A node: the relay, the request ids seen, the clock, and the rest (sockets, rooms, presence). -/
structure DispatchWorld (S R : Type*) where
  relay : LocalMediaRelay
  dedupe : DedupeMap S
  now : ℕ
  rest : R

inductive GateEvent (S E : Type*)
  | frame (s : S) (bytes : List UInt8) (isBinary : Bool)
  | request (requestId : String)
  | timeout (requestId : String)
  | act (e : E)
  | pruneTimer
  | tick (now : ℕ)

variable {S R P J E : Type*} (server : Server S R P J E)

/-- A payload that the schema rejects is dropped with a warning. -/
def handleRoomJoin (now : ℕ) (s : S) (data : WsEnvelope P) (shared : LocalMediaRelay × R) :
    LocalMediaRelay × R :=
  match server.parseRoomJoin data.payload with
  | none => shared
  | some join => server.admitJoin now s data.requestId join shared

def dispatchJsonEnvelope (w : DispatchWorld S R) (s : S) (raw : List UInt8) :
    FrameOutcome P × DedupeMap S :=
  match server.parseEnvelope raw with
  | .malformed => (.nack ⟨none,"invalid_payload",none,some "malformed JSON"⟩,w.dedupe)
  | .invalid requestId type =>
    match requestId,type with
    | some requestId,some type =>
      if requestId ≠ "" ∧ type ≠ "" ∧ shouldNackAtDispatch type = true then
        (sendMutationNack (some requestId) type "invalid_payload",w.dedupe)
      else (.dropped,w.dedupe)
    | _,_ => (.dropped,w.dedupe)
  | .envelope data =>
    let seen := match data.requestId.filter (· ≠ "") with
      | some requestId => shouldSkipDuplicateRequest w.dedupe w.now s requestId
      | none => (false,w.dedupe)
    if seen.1 then (.dropped,seen.2)
    else if data.type = "room:join" then (.join data,seen.2)
    else if !server.joinCommitted w.rest s then
      if shouldNackAtDispatch data.type then
        (sendMutationNack data.requestId data.type "not_joined",seen.2)
      else (.dropped,seen.2)
    else (.deliver data,seen.2)

def handleSocketMessage (w : DispatchWorld S R) (s : S) (bytes : List UInt8) (isBinary : Bool) :
    FrameOutcome P × DedupeMap S :=
  match decodeLocalMediaChunkFrame bytes with
  | some decoded => (.chunk decoded,w.dedupe)
  | none => if isBinary then (.dropped,w.dedupe) else dispatchJsonEnvelope server w s bytes

/-- The relay and the rest after what became of a frame. -/
def carryOut (now : ℕ) (s : S) (shared : LocalMediaRelay × R) :
    FrameOutcome P → LocalMediaRelay × R
  | .chunk payload => (shared.1.resolveLocalMediaChunk payload,shared.2)
  | .dropped => shared
  | .nack _ => shared
  | .join data => handleRoomJoin server now s data shared
  | .deliver data => server.deliver now s data shared

def DispatchWorld.shared (w : DispatchWorld S R) : LocalMediaRelay × R := (w.relay,w.rest)

def DispatchWorld.share (w : DispatchWorld S R) (shared : LocalMediaRelay × R) :
    DispatchWorld S R :=
  { w with relay := shared.1, rest := shared.2 }

def stepDispatch (w : DispatchWorld S R) : GateEvent S E → DispatchWorld S R
  | .frame s bytes isBinary =>
    let result := handleSocketMessage server w s bytes isBinary
    { w.share (carryOut server w.now s w.shared result.1) with dedupe := result.2 }
  | .request requestId => { w with relay := w.relay.createPending requestId }
  | .timeout requestId => { w with relay := w.relay.timeout requestId }
  | .act e => w.share (server.act w.now e w.shared)
  | .pruneTimer => { w with dedupe := pruneExpired w.dedupe w.now }
  | .tick now => { w with now := max w.now now }

end Dispatch

section Gate

variable {S R P J E : Type*} [DecidableEq S] (server : Server S R P J E) (s0 : S)

def GateEvent.isFrameOf : GateEvent S E → Bool
  | .frame s _ _ => s = s0
  | _ => false

def frameRequestId (bytes : List UInt8) (isBinary : Bool) : Option String :=
  if isBinary || (decodeLocalMediaChunkFrame bytes).isSome then none
  else match server.parseEnvelope bytes with
    | .envelope data => data.requestId.filter (· ≠ "")
    | _ => none

def isValidJoin : ParsedFrame P → Bool
  | .envelope data => data.type == "room:join" && (server.parseRoomJoin data.payload).isSome
  | _ => false

/-- A frame of the socket comes before its join and is no valid one. -/
def isPreJoin (w : DispatchWorld S R) : GateEvent S E → Prop
  | .frame s bytes isBinary => s = s0 → server.joinCommitted w.rest s0 = false ∧
      (isBinary = false → isValidJoin server (server.parseEnvelope bytes) = false)
  | _ => True

/-- A frame of the socket is no relay chunk for a request; a frame of another one has no request id
that the socket has sent within the window; and no more ids than the map holds come within it. -/
def leavesNoTrace (w : DispatchWorld S R) : GateEvent S E → Prop
  | .frame s bytes isBinary =>
      (s = s0 → ∀ chunk ∈ decodeLocalMediaChunkFrame bytes, chunk.requestId = "") ∧
      ∀ requestId ∈ frameRequestId server bytes isBinary,
        (s ≠ s0 → ∀ e ∈ w.dedupe.get? ⟨requestId⟩, e.live w.now = true → e.sender ≠ s0) ∧
          (pruneExpired (w.dedupe.set ⟨requestId⟩ ⟨w.now,s⟩) w.now).size ≤ maxEntries
  | _ => True

end Gate

section Seen

variable {S : Type*} {map map' : DedupeMap S} {now now' : ℕ}

def liveSeen (map : DedupeMap S) (now : ℕ) (k : RequestId) : Option (DedupeEntry S) :=
  (map.get? k).filter (·.live now)

theorem DedupeEntry.live_mono {e : DedupeEntry S} (hle : now ≤ now') (h : e.live now' = true) :
    e.live now = true := by
  simp only [DedupeEntry.live,decide_eq_true_eq] at h ⊢
  omega

theorem liveSeen_later (hle : now ≤ now') (k : RequestId) :
    liveSeen map now' k = (liveSeen map now k).filter (·.live now') := by
  rw [liveSeen,liveSeen,Option.filter_filter]
  congr 1
  funext e
  cases hlive : e.live now' with
  | true => simp [DedupeEntry.live_mono hle hlive]
  | false => simp

theorem liveSeen_pruneExpired (k : RequestId) :
    liveSeen (pruneExpired map now) now k = liveSeen map now k := by
  rw [liveSeen,pruneExpired,Record.get?_filter,Option.filter_filter]
  simp [liveSeen]

theorem shouldSkip_of_seen {k : String} {sender : S} (h : (liveSeen map now ⟨k⟩).isSome) :
    shouldSkipDuplicateRequest map now sender k = (true,map) := by
  have hany : ((map.get? ⟨k⟩).any (·.live now)) = true := by
    cases hget : map.get? ⟨k⟩ <;> simp_all [liveSeen,Option.filter]
  rw [shouldSkipDuplicateRequest,if_pos hany]

theorem shouldSkip_of_not_seen {k : String} {sender : S} (h : liveSeen map now ⟨k⟩ = none)
    (hroom : (pruneExpired (map.set ⟨k⟩ ⟨now,sender⟩) now).size ≤ maxEntries) :
    (shouldSkipDuplicateRequest map now sender k).1 = false ∧
      ∀ j, liveSeen (shouldSkipDuplicateRequest map now sender k).2 now j =
        if j = ⟨k⟩ then some ⟨now,sender⟩ else liveSeen map now j := by
  have hany : ¬ ((map.get? ⟨k⟩).any (·.live now)) = true := by
    cases hget : map.get? ⟨k⟩ <;> simp_all [liveSeen,Option.filter]
  have hset : ∀ j, liveSeen (map.set ⟨k⟩ ⟨now,sender⟩) now j =
      if j = ⟨k⟩ then some ⟨now,sender⟩ else liveSeen map now j := by
    intro j
    rw [liveSeen,Record.get?_set]
    split
    · simp [Option.filter,DedupeEntry.live,dedupeWindowMs]
    · rfl
  rw [shouldSkipDuplicateRequest,if_neg hany]
  dsimp only
  split
  · refine ⟨rfl,fun j => ?_⟩
    have hdrop : (pruneExpired (map.set ⟨k⟩ ⟨now,sender⟩) now).drop
        ((pruneExpired (map.set ⟨k⟩ ⟨now,sender⟩) now).size-maxEntries) =
        pruneExpired (map.set ⟨k⟩ ⟨now,sender⟩) now := by
      rw [Nat.sub_eq_zero_of_le hroom]
      rfl
    rw [hdrop,liveSeen_pruneExpired,hset]
  · exact ⟨rfl,hset⟩

end Seen

section TwoRuns

variable {S R P J E : Type*} {server : Server S R P J E} {s0 s : S}
variable {w t : DispatchWorld S R} {bytes : List UInt8} {isBinary : Bool}

theorem handleSocketMessage_dedupe :
    (handleSocketMessage server w s bytes isBinary).2 =
      match frameRequestId server bytes isBinary with
      | some requestId => (shouldSkipDuplicateRequest w.dedupe w.now s requestId).2
      | none => w.dedupe := by
  cases hdecode : decodeLocalMediaChunkFrame bytes with
  | some chunk => simp [handleSocketMessage,frameRequestId,hdecode]
  | none =>
    cases isBinary with
    | true => simp [handleSocketMessage,frameRequestId,hdecode]
    | false =>
      cases hparse : server.parseEnvelope bytes with
      | malformed => simp [handleSocketMessage,dispatchJsonEnvelope,frameRequestId,hdecode,hparse]
      | invalid requestId type =>
        simp only [handleSocketMessage,dispatchJsonEnvelope,frameRequestId,hdecode,hparse]
        cases requestId <;> cases type <;> simp
        split <;> rfl
      | envelope data =>
        simp only [handleSocketMessage,dispatchJsonEnvelope,frameRequestId,hdecode,hparse]
        cases hid : data.requestId.filter (· ≠ "") <;> simp <;> split_ifs <;> rfl

/-- What becomes of a frame depends on the map only by whether its request id is skipped. -/
theorem handleSocketMessage_congr (hrest : t.rest = w.rest)
    (hseen : ∀ requestId ∈ frameRequestId server bytes isBinary,
      (shouldSkipDuplicateRequest t.dedupe t.now s requestId).1 =
        (shouldSkipDuplicateRequest w.dedupe w.now s requestId).1) :
    (handleSocketMessage server t s bytes isBinary).1 =
      (handleSocketMessage server w s bytes isBinary).1 := by
  cases hdecode : decodeLocalMediaChunkFrame bytes with
  | some chunk => simp [handleSocketMessage,hdecode]
  | none =>
    cases isBinary with
    | true => simp [handleSocketMessage,hdecode]
    | false =>
      cases hparse : server.parseEnvelope bytes with
      | malformed => simp [handleSocketMessage,dispatchJsonEnvelope,hdecode,hparse]
      | invalid requestId type =>
        simp only [handleSocketMessage,dispatchJsonEnvelope,hdecode,hparse]
        cases requestId <;> cases type <;> simp
        split <;> rfl
      | envelope data =>
        simp only [frameRequestId,hdecode,hparse,Option.isSome_none,Bool.or_self,
          Bool.false_eq_true,if_false] at hseen
        simp only [handleSocketMessage,dispatchJsonEnvelope,hdecode,hparse,hrest]
        cases hid : data.requestId.filter (· ≠ "") with
        | none =>
          dsimp only
          split_ifs <;> rfl
        | some requestId =>
          have hsame := hseen requestId hid
          simp only [hsame]
          split_ifs <;> rfl

/-- What a frame before the join leaves of the relay and the rest: all, unless it is a chunk. -/
theorem carryOut_of_preJoin {now : ℕ} {shared : LocalMediaRelay × R}
    (hcommitted : server.joinCommitted w.rest s = false)
    (hjoin : isBinary = false → isValidJoin server (server.parseEnvelope bytes) = false)
    (hchunk : ∀ chunk ∈ decodeLocalMediaChunkFrame bytes, chunk.requestId = "") :
    carryOut server now s shared (handleSocketMessage server w s bytes isBinary).1 = shared := by
  cases hdecode : decodeLocalMediaChunkFrame bytes with
  | some chunk =>
    have hempty := hchunk chunk hdecode
    simp [handleSocketMessage,hdecode,carryOut,LocalMediaRelay.resolveLocalMediaChunk,hempty]
  | none =>
    have hnack : ∀ requestId type code,
        carryOut server now s shared (sendMutationNack requestId type code) = shared := by
      intro requestId type code
      cases requestId with
      | none => rfl
      | some requestId =>
        simp only [sendMutationNack]
        split <;> rfl
    cases isBinary with
    | true => simp [handleSocketMessage,hdecode,carryOut]
    | false =>
      cases hparse : server.parseEnvelope bytes with
      | malformed => simp [handleSocketMessage,dispatchJsonEnvelope,hdecode,hparse,carryOut]
      | invalid requestId type =>
        simp only [handleSocketMessage,dispatchJsonEnvelope,hdecode,hparse]
        cases requestId <;> cases type <;> simp only [Bool.false_eq_true,if_false] <;>
          first
          | rfl
          | split_ifs
            · dsimp only
              exact hnack _ _ _
            · rfl
      | envelope data =>
        have hinvalid := hjoin rfl
        rw [hparse] at hinvalid
        by_cases htype : data.type = "room:join"
        · have hnone : server.parseRoomJoin data.payload = none := by
            simpa [isValidJoin,htype] using hinvalid
          have hdropped : handleRoomJoin server now s data shared = shared := by
            rw [handleRoomJoin,hnone]
          simp only [handleSocketMessage,dispatchJsonEnvelope,hdecode,hparse,Bool.false_eq_true,
            if_false,htype,if_true]
          cases data.requestId.filter (· ≠ "") <;> dsimp only <;> split_ifs <;>
            first | rfl | exact hdropped
        · simp only [handleSocketMessage,dispatchJsonEnvelope,hdecode,hparse,hcommitted,
            Bool.false_eq_true,if_false,htype,Bool.not_false,if_true]
          cases data.requestId.filter (· ≠ "") <;> dsimp only <;> split_ifs <;>
            first | rfl | exact hnack _ _ _

variable [DecidableEq S]

/-- The second run, without the frames of `s0`, sees what the first one does but for the request ids
that `s0` sent. -/
structure SameView (s0 : S) (w t : DispatchWorld S R) : Prop where
  relay : t.relay = w.relay
  rest : t.rest = w.rest
  now : t.now = w.now
  seen : ∀ k, liveSeen t.dedupe t.now k =
    (liveSeen w.dedupe w.now k).filter fun e => decide (e.sender ≠ s0)

theorem SameView.hidden_step (h : SameView s0 w t)
    (hpre : isPreJoin server s0 w (.frame s0 bytes isBinary : GateEvent S E))
    (hquiet : leavesNoTrace server s0 w (.frame s0 bytes isBinary : GateEvent S E)) :
    SameView s0 (stepDispatch server w (.frame s0 bytes isBinary)) t := by
  obtain ⟨hcommitted,hjoin⟩ := hpre rfl
  have hshared : carryOut server w.now s0 w.shared
      (handleSocketMessage server w s0 bytes isBinary).1 = w.shared :=
    carryOut_of_preJoin hcommitted hjoin (hquiet.1 rfl)
  refine ⟨?_,?_,h.now,fun k => ?_⟩
  · exact h.relay.trans (congrArg Prod.fst hshared).symm
  · exact h.rest.trans (congrArg Prod.snd hshared).symm
  · rw [h.seen k]
    change _ = (liveSeen (handleSocketMessage server w s0 bytes isBinary).2 w.now k).filter _
    rw [handleSocketMessage_dedupe]
    cases hid : frameRequestId server bytes isBinary with
    | none => rfl
    | some requestId =>
      obtain ⟨-,hroom⟩ := hquiet.2 requestId hid
      cases hseen : liveSeen w.dedupe w.now ⟨requestId⟩ with
      | some e =>
        dsimp only
        rw [shouldSkip_of_seen (by rw [hseen]; rfl)]
      | none =>
        dsimp only
        rw [(shouldSkip_of_not_seen hseen hroom).2 k]
        split
        · rename_i hk
          subst hk
          rw [hseen]
          simp [Option.filter]
        · rfl

/-- The map of the second run has room for an id when that of the first has. -/
theorem SameView.room (h : SameView s0 w t) {requestId : String} {s : S}
    (hroom : (pruneExpired (w.dedupe.set ⟨requestId⟩ ⟨w.now,s⟩) w.now).size ≤ maxEntries) :
    (pruneExpired (t.dedupe.set ⟨requestId⟩ ⟨t.now,s⟩) t.now).size ≤ maxEntries := by
  refine le_trans (Record.size_le_of_get? _ fun k hk => ?_) hroom
  rw [pruneExpired,Record.get?_filter,Record.get?_set] at hk ⊢
  split
  · simp [Option.filter,DedupeEntry.live,dedupeWindowMs]
  · rename_i hne
    rw [if_neg hne] at hk
    have hseen : (liveSeen t.dedupe t.now k).isSome := hk
    rw [h.seen k] at hseen
    have hlive : (liveSeen w.dedupe w.now k).isSome := by
      cases hw : liveSeen w.dedupe w.now k with
      | none => rw [hw] at hseen; cases hseen
      | some e => rfl
    exact hlive

theorem SameView.visible_frame (h : SameView s0 w t) (hs : s ≠ s0)
    (hquiet : leavesNoTrace server s0 w (.frame s bytes isBinary : GateEvent S E)) :
    SameView s0 (stepDispatch server w (.frame s bytes isBinary))
      (stepDispatch server t (.frame s bytes isBinary)) := by
  have hlook : ∀ requestId ∈ frameRequestId server bytes isBinary,
      liveSeen t.dedupe t.now ⟨requestId⟩ = liveSeen w.dedupe w.now ⟨requestId⟩ := by
    intro requestId hid
    rw [h.seen]
    cases hseen : liveSeen w.dedupe w.now ⟨requestId⟩ with
    | none => rfl
    | some e =>
      obtain ⟨hget,hlive⟩ := Option.filter_eq_some_iff.mp hseen
      exact Option.filter_some_pos (decide_eq_true ((hquiet.2 requestId hid).1 hs e hget hlive))
  -- The id is skipped in both runs or in none, and in the map of both runs after it or of none.
  have hskip : ∀ requestId ∈ frameRequestId server bytes isBinary,
      (shouldSkipDuplicateRequest t.dedupe t.now s requestId).1 =
          (shouldSkipDuplicateRequest w.dedupe w.now s requestId).1 ∧
        ∀ k, liveSeen (shouldSkipDuplicateRequest t.dedupe t.now s requestId).2 t.now k =
          (liveSeen (shouldSkipDuplicateRequest w.dedupe w.now s requestId).2 w.now k).filter
            fun e => decide (e.sender ≠ s0) := by
    intro requestId hid
    have hroom := (hquiet.2 requestId hid).2
    cases hseen : liveSeen w.dedupe w.now ⟨requestId⟩ with
    | some e =>
      rw [shouldSkip_of_seen (by rw [hlook requestId hid,hseen]; rfl),
        shouldSkip_of_seen (by rw [hseen]; rfl)]
      exact ⟨rfl,h.seen⟩
    | none =>
      obtain ⟨hnew,hview⟩ := shouldSkip_of_not_seen hseen hroom
      obtain ⟨hnew',hview'⟩ :=
        shouldSkip_of_not_seen ((hlook requestId hid).trans hseen) (h.room hroom)
      refine ⟨hnew'.trans hnew.symm,fun k => ?_⟩
      rw [hview,hview',h.now]
      split
      · simp [Option.filter,hs]
      · have hold := h.seen k
        rwa [h.now] at hold
  have hsame : (handleSocketMessage server t s bytes isBinary).1 =
      (handleSocketMessage server w s bytes isBinary).1 :=
    handleSocketMessage_congr h.rest fun requestId hid => (hskip requestId hid).1
  have hshared : carryOut server t.now s t.shared (handleSocketMessage server t s bytes isBinary).1 =
      carryOut server w.now s w.shared (handleSocketMessage server w s bytes isBinary).1 := by
    rw [hsame,h.now,DispatchWorld.shared,DispatchWorld.shared,h.relay,h.rest]
  refine ⟨congrArg Prod.fst hshared,congrArg Prod.snd hshared,h.now,fun k => ?_⟩
  change liveSeen (handleSocketMessage server t s bytes isBinary).2 t.now k =
    (liveSeen (handleSocketMessage server w s bytes isBinary).2 w.now k).filter _
  rw [handleSocketMessage_dedupe,handleSocketMessage_dedupe]
  cases hid : frameRequestId server bytes isBinary with
  | none => exact h.seen k
  | some requestId => exact (hskip requestId hid).2 k

theorem SameView.visible_step (h : SameView s0 w t) {event : GateEvent S E}
    (hquiet : leavesNoTrace server s0 w event) (hvisible : event.isFrameOf s0 = false) :
    SameView s0 (stepDispatch server w event) (stepDispatch server t event) := by
  cases event with
  | frame s bytes isBinary =>
    have hs : s ≠ s0 := by simpa [GateEvent.isFrameOf] using hvisible
    exact h.visible_frame hs hquiet
  | request requestId =>
    exact ⟨congrArg (·.createPending requestId) h.relay,h.rest,h.now,h.seen⟩
  | timeout requestId => exact ⟨congrArg (·.timeout requestId) h.relay,h.rest,h.now,h.seen⟩
  | act e =>
    have hshared : server.act t.now e t.shared = server.act w.now e w.shared := by
      rw [h.now,DispatchWorld.shared,DispatchWorld.shared,h.relay,h.rest]
    exact ⟨congrArg Prod.fst hshared,congrArg Prod.snd hshared,h.now,h.seen⟩
  | pruneTimer =>
    refine ⟨h.relay,h.rest,h.now,fun k => ?_⟩
    change liveSeen (pruneExpired t.dedupe t.now) t.now k =
      (liveSeen (pruneExpired w.dedupe w.now) w.now k).filter _
    rw [liveSeen_pruneExpired,liveSeen_pruneExpired]
    exact h.seen k
  | tick now =>
    refine ⟨h.relay,h.rest,congrArg (max · now) h.now,fun k => ?_⟩
    change liveSeen t.dedupe (max t.now now) k = (liveSeen w.dedupe (max w.now now) k).filter _
    rw [liveSeen_later (le_max_left t.now now),liveSeen_later (le_max_left w.now now),h.seen k,h.now,
      Option.filter_filter,Option.filter_filter]
    simp only [Bool.and_comm]

/-- Frames that meet the condition leave the relay, its replies, the presence and the rooms as if
they had not been sent. -/
theorem preJoin_frames_leave_no_trace (server : Server S R P J E) (s0 : S) (w : DispatchWorld S R)
    (events : List (GateEvent S E)) (hnew : ∀ k, ∀ e ∈ w.dedupe.get? k, e.sender ≠ s0)
    (hpre : Along (stepDispatch server) (isPreJoin server s0) w events)
    (hquiet : Along (stepDispatch server) (leavesNoTrace server s0) w events) :
    ((events.filter fun event => !event.isFrameOf s0).foldl (stepDispatch server) w).shared =
      (events.foldl (stepDispatch server) w).shared := by
  have hstart : SameView s0 w w := by
    refine ⟨rfl,rfl,rfl,fun k => ?_⟩
    cases hseen : liveSeen w.dedupe w.now k with
    | none => rfl
    | some e =>
      have hget := (Option.filter_eq_some_iff.mp hseen).1
      simp [Option.filter,hnew k e hget]
  have hview := foldl_purge (GateEvent.isFrameOf s0) (SameView s0) ?_ ?_ events hstart
    (hpre.and hquiet)
  · rw [DispatchWorld.shared,DispatchWorld.shared,hview.relay,hview.rest]
  · intro w t event h ⟨hpre,hquiet⟩ hhidden
    cases event with
    | frame s bytes isBinary =>
      obtain rfl : s = s0 := by simpa [GateEvent.isFrameOf] using hhidden
      exact h.hidden_step hpre hquiet
    | _ => cases hhidden
  · intro w t event h ⟨_,hquiet⟩ hvisible
    exact h.visible_step hquiet hvisible

end TwoRuns

section Runs

def asciiBytes (text : String) : List UInt8 := text.toList.map fun c => UInt8.ofNat c.toNat

abbrev TextServer := Server Bool (List Bool) (Option String) String Unit

def joinText : String :=
  "\x7b\"type\":\"room:join\",\"requestId\":\"a\",\"payload\":\x7b\"roomId\":\"r\"\x7d\x7d"
def emptyJoinText : String :=
  "\x7b\"type\":\"room:join\",\"requestId\":\"c\",\"payload\":\x7b\x7d\x7d"
def pauseText : String := "\x7b\"type\":\"playback:pause\",\"requestId\":\"b\",\"payload\":\x7b\x7d\x7d"

/-- A server that knows three envelopes and keeps a list of the sockets that have joined; the payload
is the room of a join, if it names one. -/
def threeTextServer : TextServer where
  parseEnvelope raw :=
    if raw = asciiBytes joinText then .envelope ⟨"room:join",some "a",some "r"⟩
    else if raw = asciiBytes emptyJoinText then .envelope ⟨"room:join",some "c",none⟩
    else if raw = asciiBytes pauseText then .envelope ⟨"playback:pause",some "b",none⟩
    else .malformed
  parseRoomJoin payload := payload
  joinCommitted joined s := joined.contains s
  admitJoin _ s _ _ shared := (shared.1,s :: shared.2)
  deliver _ _ _ shared := shared
  act _ _ shared := shared

def quietStart : DispatchWorld Bool (List Bool) where
  relay := ⟨[],[],[]⟩
  dedupe := Record.empty
  now := 0
  rest := []

/-- A stranger sends a mutation, a join without a room and a binary frame while somebody joins and a
request waits. -/
def strangerFrames : List (GateEvent Bool Unit) :=
  [.frame false (asciiBytes pauseText) false,.request "r",.frame true (asciiBytes joinText) false,
    .frame false (asciiBytes emptyJoinText) false,.frame false [1,2,3] true]

/-- A relay chunk for request `r`. -/
def chunkBytes : List UInt8 := [0x01,0x43,0x4d,0x4c,1,0,114,1]

instance (server : TextServer) (w : DispatchWorld Bool (List Bool))
    (event : GateEvent Bool Unit) : Decidable (isPreJoin server false w event) :=
  match event with
  | .frame _ _ _ => inferInstanceAs (Decidable (_ → _ ∧ (_ → _)))
  | .request _ => inferInstanceAs (Decidable True)
  | .timeout _ => inferInstanceAs (Decidable True)
  | .act _ => inferInstanceAs (Decidable True)
  | .pruneTimer => inferInstanceAs (Decidable True)
  | .tick _ => inferInstanceAs (Decidable True)

instance (server : TextServer) (w : DispatchWorld Bool (List Bool))
    (event : GateEvent Bool Unit) : Decidable (leavesNoTrace server false w event) :=
  match event with
  | .frame _ _ _ => inferInstanceAs (Decidable ((_ → ∀ chunk ∈ _, _) ∧
      ∀ requestId ∈ _, (_ → ∀ e ∈ _, _ → _) ∧ _))
  | .request _ => inferInstanceAs (Decidable True)
  | .timeout _ => inferInstanceAs (Decidable True)
  | .act _ => inferInstanceAs (Decidable True)
  | .pruneTimer => inferInstanceAs (Decidable True)
  | .tick _ => inferInstanceAs (Decidable True)

theorem preJoin_frames_leave_no_trace_strangerFrames :
    ((strangerFrames.filter fun event => !event.isFrameOf false).foldl
      (stepDispatch threeTextServer) quietStart).shared =
        (strangerFrames.foldl (stepDispatch threeTextServer) quietStart).shared ∧
      (strangerFrames.foldl (stepDispatch threeTextServer) quietStart).rest = [true] :=
  ⟨preJoin_frames_leave_no_trace threeTextServer false quietStart strangerFrames
    (fun k e he => by cases he) (by decide +kernel) (by decide +kernel),by decide +kernel⟩

/-- A chunk of a socket that has not joined settles the request of a viewer. -/
theorem chunk_before_join_settles_request :
    Along (stepDispatch threeTextServer) (isPreJoin threeTextServer false) quietStart
        [.request "r",.frame false chunkBytes true] ∧
      (([.request "r",.frame false chunkBytes true] : List (GateEvent Bool Unit)).foldl
        (stepDispatch threeTextServer) quietStart).relay.pending = [] ∧
      (([.request "r"] : List (GateEvent Bool Unit)).foldl
        (stepDispatch threeTextServer) quietStart).relay.pending = ["r"] := by
  decide +kernel

end Runs
end WebSyncPlay
