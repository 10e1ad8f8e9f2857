import WebSyncPlay.Library.Segments
import WebSyncPlay.Library.Text

/-! The names of the keys and channels in the shared store (`server/redis/keys.ts`), and the scan for
rooms by their state keys (`state-store.ts`). A room id and a user id are any strings of 1 to 128
characters. -/
namespace WebSyncPlay

open Library

section Keys

def roomPrefix : String := "room:"
def mediaYtDlpPrefix : String := "media:ytdlp:"
def mediaProxyPrefix : String := "media:proxy:"
def mediaProxyByUrlPrefix : String := mediaProxyPrefix ++ "by-url:"
def localMediaPrefix : String := "media:local:"
def localMediaOwnerIndexPrefix : String := localMediaPrefix ++ "room:"

/-- `room:{id}{suffix}` -/
def roomKey (suffix roomId : String) : String := roomPrefix ++ roomId ++ suffix

namespace keys

def roomState : String → String := roomKey ":state"
def roomChannel : String → String := roomKey ":channel"
def roomPresenceRef : String → String := roomKey ":presenceRef"
def roomEmptyAt : String → String := roomKey ":emptyAt"
def roomPresenceData : String → String := roomKey ":presenceData"
def roomPresenceSeq : String → String := roomKey ":presenceSeq"
def roomControlChannel : String → String := roomKey ":control"
def roomPresenceChannel : String → String := roomKey ":presence"
def roomSnapshotChannel : String → String := roomKey ":snapshot"
def roomIdentity : String → String := roomKey ":identity"

def roomUserEphemeralChannel (roomId userId : String) : String :=
  roomPrefix ++ roomId ++ ":user:" ++ userId ++ ":ephemeral"

def roomParticipantPrune (roomId userId : String) : String :=
  roomPrefix ++ roomId ++ ":prune:" ++ userId

def roomViewerCapability (roomId userId : String) : String :=
  roomPrefix ++ roomId ++ ":viewer:" ++ userId

def roomPendingPrunes : String := roomPrefix ++ "pending-prunes"

def dailyDefaults : String := "defaults:daily-top-10"

def appNodeAlive (nodeId : String) : String := "app:node:" ++ nodeId ++ ":alive"

def mediaYtDlpExtract (urlHash : String) : String := mediaYtDlpPrefix ++ "extract:" ++ urlHash
def mediaYtDlpLock (urlHash : String) : String := mediaYtDlpPrefix ++ "lock:" ++ urlHash

def mediaYtDlpResolveLease (roomId itemId : String) : String :=
  mediaYtDlpPrefix ++ "resolve-lease:" ++ roomId ++ ":" ++ itemId

def mediaYtDlpPending (roomId itemId : String) : String :=
  mediaYtDlpPrefix ++ "pending:" ++ roomId ++ ":" ++ itemId

def mediaYtDlpResolveClaim (roomId itemId : String) : String :=
  mediaYtDlpPrefix ++ "resolve-claim:" ++ roomId ++ ":" ++ itemId

def mediaYtDlpPendingResolves : String := mediaYtDlpPrefix ++ "pending-resolves"

def mediaProxyToken (token : String) : String := mediaProxyPrefix ++ token
def mediaProxyByUrl (urlHash : String) : String := mediaProxyByUrlPrefix ++ urlHash

def controlToken (tokenHash : String) : String := "control:token:" ++ tokenHash

def rateLimit (logicalKey : String) : String := "rate:" ++ logicalKey

def localMediaEntry (id : String) : String := localMediaPrefix ++ id

def localMediaBlock (mediaId : String) (blockStart : ℕ) : String :=
  localMediaPrefix ++ "block:" ++ mediaId ++ ":" ++ blockStart.repr

def localMediaBlockIndex (mediaId : String) : String := localMediaPrefix ++ "blocks:" ++ mediaId

def localMediaOwnerIndex (roomId ownerUserId : String) : String :=
  localMediaOwnerIndexPrefix ++ roomId ++ ":owner:" ++ ownerUserId

def localMediaRelayRequestChannel : String := localMediaPrefix ++ "relay:request"

def localMediaRelayReply (requestId : String) : String :=
  localMediaPrefix ++ "relay:reply:" ++ requestId

def localMediaNode (nodeId : String) : String := localMediaPrefix ++ "node:" ++ nodeId

def localMediaReannounceChannel : String := localMediaPrefix ++ "reannounce"

/-- The pattern of a scan for all room state keys. -/
def roomStateScanPattern : String := roomPrefix ++ "*" ++ ":state"

end keys

/-- The room id of `room:{id}{suffix}`, or an empty string. -/
def parseRoomPrefixedKey (key suffix : String) : String :=
  let trimmed := (trim key).toList
  if roomPrefix.toList <+: trimmed then
    let withoutPrefix := trimmed.drop roomPrefix.length
    if suffix.toList <:+ withoutPrefix then
      String.ofList (withoutPrefix.take (withoutPrefix.length - suffix.length))
    else ""
  else ""

def keys.parseRoomStateKey (key : String) : String := parseRoomPrefixedKey key ":state"

/-- A pattern of plain characters and stars against a string. -/
def globMatch : List Char → List Char → Bool
  | [],s => s.isEmpty
  | c :: pattern,s =>
    if c = '*' then s.tails.any (globMatch pattern)
    else match s with
      | [] => false
      | d :: rest => c == d && globMatch pattern rest

/-- A full scan by the pattern, parsed and without repetitions. -/
def listRoomIds (stored : List String) : List String :=
  (((stored.filter fun key => globMatch keys.roomStateScanPattern.toList key.toList).map
    keys.parseRoomStateKey).filter (· ≠ "")).dedup

inductive RoomPart
  | state | channel | presenceRef | emptyAt | presenceData | presenceSeq | control | presence
  | snapshot | identity
  deriving DecidableEq

inductive RoomUserPart
  | userEphemeral | prune | viewer
  deriving DecidableEq

inductive ResolvePart
  | lease | pending | claim
  deriving DecidableEq

inductive RoomKey
  | ofRoom (part : RoomPart) (roomId : String)
  | ofUser (part : RoomUserPart) (roomId userId : String)
  | pendingPrunes
  deriving DecidableEq

inductive YtDlpKey
  | extract (urlHash : String)
  | lock (urlHash : String)
  | resolve (part : ResolvePart) (roomId itemId : String)
  | pendingResolves
  deriving DecidableEq

inductive LocalMediaKey
  | block (mediaId : String) (blockStart : ℕ)
  | blockIndex (mediaId : String)
  | ownerIndex (roomId ownerUserId : String)
  | relayRequest
  | relayReply (requestId : String)
  | node (nodeId : String)
  | reannounce
  deriving DecidableEq

/-- A constructor of `keys` with its arguments. -/
inductive Key
  | room (key : RoomKey)
  | ytDlp (key : YtDlpKey)
  | proxyToken (token : String)
  | proxyByUrl (urlHash : String)
  | localMediaEntry (id : String)
  | localMedia (key : LocalMediaKey)
  | dailyDefaults
  | appNodeAlive (nodeId : String)
  | controlToken (tokenHash : String)
  | rateLimit (logicalKey : String)
  deriving DecidableEq

def RoomPart.build : RoomPart → String → String
  | .state => keys.roomState
  | .channel => keys.roomChannel
  | .presenceRef => keys.roomPresenceRef
  | .emptyAt => keys.roomEmptyAt
  | .presenceData => keys.roomPresenceData
  | .presenceSeq => keys.roomPresenceSeq
  | .control => keys.roomControlChannel
  | .presence => keys.roomPresenceChannel
  | .snapshot => keys.roomSnapshotChannel
  | .identity => keys.roomIdentity

def RoomUserPart.build : RoomUserPart → String → String → String
  | .userEphemeral => keys.roomUserEphemeralChannel
  | .prune => keys.roomParticipantPrune
  | .viewer => keys.roomViewerCapability

def ResolvePart.build : ResolvePart → String → String → String
  | .lease => keys.mediaYtDlpResolveLease
  | .pending => keys.mediaYtDlpPending
  | .claim => keys.mediaYtDlpResolveClaim

def Key.build : Key → String
  | .room (.ofRoom part roomId) => part.build roomId
  | .room (.ofUser part roomId userId) => part.build roomId userId
  | .room .pendingPrunes => keys.roomPendingPrunes
  | .ytDlp (.extract urlHash) => keys.mediaYtDlpExtract urlHash
  | .ytDlp (.lock urlHash) => keys.mediaYtDlpLock urlHash
  | .ytDlp (.resolve part roomId itemId) => part.build roomId itemId
  | .ytDlp .pendingResolves => keys.mediaYtDlpPendingResolves
  | .proxyToken token => keys.mediaProxyToken token
  | .proxyByUrl urlHash => keys.mediaProxyByUrl urlHash
  | .localMediaEntry id => keys.localMediaEntry id
  | .localMedia (.block mediaId blockStart) => keys.localMediaBlock mediaId blockStart
  | .localMedia (.blockIndex mediaId) => keys.localMediaBlockIndex mediaId
  | .localMedia (.ownerIndex roomId ownerUserId) => keys.localMediaOwnerIndex roomId ownerUserId
  | .localMedia .relayRequest => keys.localMediaRelayRequestChannel
  | .localMedia (.relayReply requestId) => keys.localMediaRelayReply requestId
  | .localMedia (.node nodeId) => keys.localMediaNode nodeId
  | .localMedia .reannounce => keys.localMediaReannounceChannel
  | .dailyDefaults => keys.dailyDefaults
  | .appNodeAlive nodeId => keys.appNodeAlive nodeId
  | .controlToken tokenHash => keys.controlToken tokenHash
  | .rateLimit logicalKey => keys.rateLimit logicalKey

end Keys

section Clash

def RoomPart.word : RoomPart → String
  | .state => "state"
  | .channel => "channel"
  | .presenceRef => "presenceRef"
  | .emptyAt => "emptyAt"
  | .presenceData => "presenceData"
  | .presenceSeq => "presenceSeq"
  | .control => "control"
  | .presence => "presence"
  | .snapshot => "snapshot"
  | .identity => "identity"

def RoomUserPart.word : RoomUserPart → String
  | .userEphemeral => "user"
  | .prune => "prune"
  | .viewer => "viewer"

def RoomUserPart.rest (userId : String) : RoomUserPart → String
  | .userEphemeral => userId ++ ":ephemeral"
  | .prune => userId
  | .viewer => userId

def upTo (a : String) (x : Option String) : String := x.elim a fun x => a ++ ":" ++ x

def after (x : Option String) (e : String) : String := x.elim e fun x => x ++ ":" ++ e

def RoomKey.reading : RoomKey → Option (String × String)
  | .ofRoom part roomId => some (roomId,part.word)
  | .ofUser part roomId userId => some (roomId,part.word ++ ":" ++ part.rest userId)
  | .pendingPrunes => none

def LocalMediaKey.name : LocalMediaKey → String
  | .block mediaId blockStart => "block:" ++ mediaId ++ ":" ++ blockStart.repr
  | .blockIndex mediaId => "blocks:" ++ mediaId
  | .ownerIndex roomId ownerUserId => "room:" ++ roomId ++ ":owner:" ++ ownerUserId
  | .relayRequest => "relay:request"
  | .relayReply requestId => "relay:reply:" ++ requestId
  | .node nodeId => "node:" ++ nodeId
  | .reannounce => "reannounce"

/-- Two different keys under one name: the room id of the second goes on where that of the first
ends, with the word after it and the start of its user, item or owner id; a token that starts like
the index by URL; a media id that is the name of another key of local media. -/
def Key.Clash : Key → Key → Prop
  | .room (.ofUser part roomId userId),.room key => ∃ e ∈ key.reading, ∃ x,
      part.rest userId = after x e.2 ∧ e.1 = upTo (roomId ++ ":" ++ part.word) x
  | .ytDlp (.resolve part roomId itemId),.ytDlp (.resolve part' roomId' itemId') =>
      part = part' ∧ ∃ x, roomId' = roomId ++ ":" ++ x ∧ itemId = x ++ ":" ++ itemId'
  | .localMedia (.ownerIndex roomId ownerUserId),.localMedia (.ownerIndex roomId' ownerUserId') =>
      ∃ x, ownerUserId = after x ("owner" ++ ":" ++ ownerUserId') ∧
        roomId' = upTo (roomId ++ ":" ++ "owner") x
  | .proxyToken token,.proxyByUrl urlHash => token = "by-url:" ++ urlHash
  | .localMediaEntry id,.localMedia key => id = key.name
  | _,_ => False

section Parts

variable {a a' b b' : String}

theorem toList_join (a b : String) : (a ++ ":" ++ b).toList = a.toList ++ ':' :: b.toList := by
  simp

theorem toList_injective : Function.Injective String.toList := fun _ _ h => String.toList_inj.mp h

theorem join_eq_join_iff_string : a ++ ":" ++ b = a' ++ ":" ++ b' ↔ (a = a' ∧ b = b') ∨
    (∃ x, a' = a ++ ":" ++ x ∧ b = x ++ ":" ++ b') ∨ ∃ x, a = a' ++ ":" ++ x ∧ b' = x ++ ":" ++ b := by
  have hexists : ∀ {a a' b b' : String},
      (∃ x, a'.toList = a.toList ++ ':' :: x ∧ b.toList = x ++ ':' :: b'.toList) ↔
        ∃ x, a' = a ++ ":" ++ x ∧ b = x ++ ":" ++ b' := by
    intro a a' b b'
    constructor
    · rintro ⟨x,ha,hb⟩
      refine ⟨String.ofList x,toList_injective ?_,toList_injective ?_⟩
      · rw [ha,toList_join,String.toList_ofList]
      · rw [hb,toList_join,String.toList_ofList]
    · rintro ⟨x,rfl,rfl⟩
      exact ⟨x.toList,toList_join _ _,toList_join _ _⟩
  rw [← String.toList_inj,toList_join,toList_join,join_eq_join_iff,hexists,hexists,
    String.toList_inj,String.toList_inj]

theorem toList_ending (w : String) (rest : Option String) :
    (upTo w rest).toList = ending ':' w.toList (rest.map String.toList) := by
  cases rest with
  | none => rfl
  | some rest => exact toList_join w rest

theorem upTo_upTo (a w : String) (x : Option String) :
    upTo (a ++ ":" ++ w) x = a ++ ":" ++ upTo w x := by
  cases x <;> simp [upTo,String.append_assoc]

theorem continues_iff {a w rest a' e' : String} :
    Continues ':' a.toList w.toList (some rest.toList) a'.toList e'.toList ↔
      ∃ x, a' = upTo (a ++ ":" ++ w) x ∧ rest = after x e' := by
  have hafter : ∀ x : Option String, (after x e').toList =
      (x.map String.toList).elim e'.toList fun x => x ++ ':' :: e'.toList := by
    intro x
    cases x with
    | none => rfl
    | some x => exact toList_join x e'
  constructor
  · rintro ⟨x,ha,hrest⟩
    have hx : x = (x.map String.ofList).map String.toList := by
      cases x <;> simp
    refine ⟨x.map String.ofList,toList_injective ?_,toList_injective ?_⟩
    · rw [ha,upTo_upTo,toList_join,toList_ending,← hx]
    · rw [hafter,← hx]
      exact Option.some.inj hrest
  · rintro ⟨x,rfl,rfl⟩
    refine ⟨x.map String.toList,?_,congrArg some (hafter x)⟩
    rw [upTo_upTo,toList_join,toList_ending]

theorem join_upTo_eq_iff {w w' : String} (hw : ':' ∉ w.toList) (hw' : ':' ∉ w'.toList)
    {rest rest' : Option String} :
    a ++ ":" ++ upTo w rest = a' ++ ":" ++ upTo w' rest' ↔
      (a = a' ∧ w = w' ∧ rest = rest') ∨
        (∃ tail ∈ rest, ∃ x, a' = upTo (a ++ ":" ++ w) x ∧ tail = after x (upTo w' rest')) ∨
        ∃ tail ∈ rest', ∃ x, a = upTo (a' ++ ":" ++ w') x ∧ tail = after x (upTo w rest) := by
  have hmap := Option.map_injective toList_injective
  have hcontinues : ∀ {a w a' e' : String} {rest : Option String},
      Continues ':' a.toList w.toList (rest.map String.toList) a'.toList e'.toList ↔
        ∃ tail ∈ rest, ∃ x, a' = upTo (a ++ ":" ++ w) x ∧ tail = after x e' := by
    intro a w a' e' rest
    cases rest with
    | none =>
      constructor
      · rintro ⟨x,-,hrest⟩
        cases hrest
      · rintro ⟨tail,htail,-⟩
        cases htail
    | some rest =>
      refine continues_iff.trans ⟨fun h => ⟨rest,rfl,h⟩,?_⟩
      rintro ⟨tail,htail,h⟩
      cases htail
      exact h
  rw [← String.toList_inj,toList_join,toList_join,toList_ending,toList_ending,
    join_ending_eq_iff hw hw',← toList_ending,← toList_ending,hcontinues,hcontinues,
    String.toList_inj,String.toList_inj,hmap.eq_iff]

end Parts

section Room

theorem RoomPart.word_inj {p p' : RoomPart} (h : p.word = p'.word) : p = p' := by
  cases p <;> cases p' <;> first | rfl | exact absurd h (by decide)

theorem RoomUserPart.word_inj {p p' : RoomUserPart} (h : p.word = p'.word) : p = p' := by
  cases p <;> cases p' <;> first | rfl | exact absurd h (by decide)

theorem RoomPart.word_inj_iff {p p' : RoomPart} : p.word = p'.word ↔ p = p' :=
  ⟨word_inj,congrArg _⟩

theorem word_ne (p : RoomPart) (p' : RoomUserPart) : p.word ≠ p'.word := by
  cases p <;> cases p' <;> decide

theorem RoomPart.colon_notMem_word (p : RoomPart) : ':' ∉ p.word.toList := by
  cases p <;> decide

theorem RoomUserPart.colon_notMem_word (p : RoomUserPart) : ':' ∉ p.word.toList := by
  cases p <;> decide

theorem RoomUserPart.rest_inj {p : RoomUserPart} {u u' : String} (h : p.rest u = p.rest u') :
    u = u' := by
  cases p with
  | userEphemeral => exact (String.append_left_inj _).mp h
  | prune | viewer => exact h

theorem build_ofRoom (p : RoomPart) (roomId : String) :
    (Key.room (.ofRoom p roomId)).build = roomPrefix ++ (roomId ++ ":" ++ upTo p.word none) := by
  rw [← String.toList_inj]
  cases p <;> simp [Key.build,RoomPart.build,RoomPart.word,keys.roomState,keys.roomChannel,
    keys.roomPresenceRef,keys.roomEmptyAt,keys.roomPresenceData,keys.roomPresenceSeq,
    keys.roomControlChannel,keys.roomPresenceChannel,keys.roomSnapshotChannel,keys.roomIdentity,
    roomKey,upTo]

theorem build_ofUser (p : RoomUserPart) (roomId userId : String) :
    (Key.room (.ofUser p roomId userId)).build =
      roomPrefix ++ (roomId ++ ":" ++ upTo p.word (some (p.rest userId))) := by
  rw [← String.toList_inj]
  cases p <;> simp [Key.build,RoomUserPart.build,RoomUserPart.word,RoomUserPart.rest,
    keys.roomUserEphemeralChannel,keys.roomParticipantPrune,keys.roomViewerCapability,upTo]

theorem build_pendingPrunes_ne (a b : String) :
    (Key.room .pendingPrunes).build ≠ roomPrefix ++ (a ++ ":" ++ b) := by
  intro h
  have htail : "pending-prunes" = a ++ ":" ++ b := (String.append_right_inj _).mp h
  have hcolon : ':' ∈ "pending-prunes".toList := by
    rw [htail,toList_join]
    simp
  exact absurd hcolon (by decide)

theorem room_build_eq_iff (k k' : RoomKey) : (Key.room k).build = (Key.room k').build ↔
    k = k' ∨ Key.Clash (.room k) (.room k') ∨ Key.Clash (.room k') (.room k) := by
  cases k with
  | pendingPrunes =>
    cases k' with
    | pendingPrunes => simp
    | ofRoom p' r' =>
      rw [build_ofRoom]
      simp [build_pendingPrunes_ne,Key.Clash]
    | ofUser p' r' u' =>
      rw [build_ofUser]
      simp [build_pendingPrunes_ne,Key.Clash,RoomKey.reading]
  | ofRoom p r =>
    have hw := p.colon_notMem_word
    rw [build_ofRoom]
    cases k' with
    | pendingPrunes =>
      rw [eq_comm]
      simp [build_pendingPrunes_ne,Key.Clash]
    | ofRoom p' r' =>
      rw [build_ofRoom,String.append_right_inj,join_upTo_eq_iff hw p'.colon_notMem_word]
      simp [Key.Clash,RoomPart.word_inj_iff,and_comm]
    | ofUser p' r' u' =>
      rw [build_ofUser,String.append_right_inj,join_upTo_eq_iff hw p'.colon_notMem_word]
      simp [Key.Clash,RoomKey.reading,word_ne,and_comm,upTo]
  | ofUser p r u =>
    have hw := p.colon_notMem_word
    rw [build_ofUser]
    cases k' with
    | pendingPrunes =>
      rw [eq_comm]
      simp [build_pendingPrunes_ne,Key.Clash,RoomKey.reading]
    | ofRoom p' r' =>
      rw [build_ofRoom,String.append_right_inj,join_upTo_eq_iff hw p'.colon_notMem_word]
      simp [Key.Clash,RoomKey.reading,(word_ne _ _).symm,upTo]
    | ofUser p' r' u' =>
      have hsame : (r = r' ∧ p.word = p'.word ∧ some (p.rest u) = some (p'.rest u')) ↔
          p = p' ∧ r = r' ∧ u = u' := by
        constructor
        · rintro ⟨hr,hp,hu⟩
          obtain rfl := RoomUserPart.word_inj hp
          exact ⟨rfl,hr,RoomUserPart.rest_inj (Option.some.inj hu)⟩
        · rintro ⟨rfl,rfl,rfl⟩
          exact ⟨rfl,rfl,rfl⟩
      rw [build_ofUser,String.append_right_inj,join_upTo_eq_iff hw p'.colon_notMem_word,hsame]
      simp [Key.Clash,RoomKey.reading,upTo,and_comm]

end Room

section Families

theorem upTo_inj {w w' : String} (hw : ':' ∉ w.toList) (hw' : ':' ∉ w'.toList)
    {rest rest' : Option String} : upTo w rest = upTo w' rest' ↔ w = w' ∧ rest = rest' := by
  rw [← String.toList_inj,toList_ending,toList_ending,ending_inj hw hw',String.toList_inj,
    (Option.map_injective toList_injective).eq_iff]

def ResolvePart.word : ResolvePart → String
  | .lease => "resolve-lease"
  | .pending => "pending"
  | .claim => "resolve-claim"

theorem ResolvePart.word_inj {p p' : ResolvePart} : p.word = p'.word ↔ p = p' := by
  cases p <;> cases p' <;> decide

def YtDlpKey.word : YtDlpKey → String
  | .extract _ => "extract"
  | .lock _ => "lock"
  | .resolve part _ _ => part.word
  | .pendingResolves => "pending-resolves"

def YtDlpKey.rest : YtDlpKey → Option String
  | .extract urlHash => some urlHash
  | .lock urlHash => some urlHash
  | .resolve _ roomId itemId => some (roomId ++ ":" ++ itemId)
  | .pendingResolves => none

theorem YtDlpKey.colon_notMem_word (k : YtDlpKey) : ':' ∉ k.word.toList := by
  cases k with
  | resolve part => cases part <;> simp [word,ResolvePart.word]
  | _ => simp [word]

theorem build_ytDlp (k : YtDlpKey) :
    (Key.ytDlp k).build = mediaYtDlpPrefix ++ upTo k.word k.rest := by
  rw [← String.toList_inj]
  cases k with
  | resolve part roomId itemId =>
    cases part <;> simp [Key.build,ResolvePart.build,YtDlpKey.word,YtDlpKey.rest,upTo,
      ResolvePart.word,keys.mediaYtDlpResolveLease,keys.mediaYtDlpPending,
      keys.mediaYtDlpResolveClaim]
  | _ => simp [Key.build,YtDlpKey.word,YtDlpKey.rest,upTo,keys.mediaYtDlpExtract,
      keys.mediaYtDlpLock,keys.mediaYtDlpPendingResolves]

theorem ytDlp_build_eq_iff (k k' : YtDlpKey) : (Key.ytDlp k).build = (Key.ytDlp k').build ↔
    k = k' ∨ Key.Clash (.ytDlp k) (.ytDlp k') ∨ Key.Clash (.ytDlp k') (.ytDlp k) := by
  rw [build_ytDlp,build_ytDlp,String.append_right_inj,
    upTo_inj k.colon_notMem_word k'.colon_notMem_word]
  have hextract : ∀ p : ResolvePart, p.word ≠ "extract" := fun p => by cases p <;> decide
  have hlock : ∀ p : ResolvePart, p.word ≠ "lock" := fun p => by cases p <;> decide
  have hall : ∀ p : ResolvePart, p.word ≠ "pending-resolves" := fun p => by cases p <;> decide
  cases k with
  | resolve p r i =>
    cases k' with
    | resolve p' r' i' =>
      simp only [YtDlpKey.word,YtDlpKey.rest,ResolvePart.word_inj,Option.some.injEq,
        join_eq_join_iff_string,Key.Clash,YtDlpKey.resolve.injEq]
      grind
    | _ => simp [YtDlpKey.word,Key.Clash,hextract,hlock,hall]
  | _ =>
    cases k' with
    | resolve p' => simp [YtDlpKey.word,Key.Clash,(hextract _).symm,(hlock _).symm,(hall _).symm]
    | _ => simp [YtDlpKey.word,YtDlpKey.rest,Key.Clash]

def LocalMediaKey.word : LocalMediaKey → String
  | .block _ _ => "block"
  | .blockIndex _ => "blocks"
  | .ownerIndex _ _ => "room"
  | .relayRequest => "relay"
  | .relayReply _ => "relay"
  | .node _ => "node"
  | .reannounce => "reannounce"

def LocalMediaKey.rest : LocalMediaKey → Option String
  | .block mediaId blockStart => some (mediaId ++ ":" ++ upTo blockStart.repr none)
  | .blockIndex mediaId => some mediaId
  | .ownerIndex roomId ownerUserId => some (roomId ++ ":" ++ upTo "owner" (some ownerUserId))
  | .relayRequest => some (upTo "request" none)
  | .relayReply requestId => some (upTo "reply" (some requestId))
  | .node nodeId => some nodeId
  | .reannounce => none

theorem LocalMediaKey.name_eq (k : LocalMediaKey) : k.name = upTo k.word k.rest := by
  rw [← String.toList_inj]
  cases k <;> simp [LocalMediaKey.name,LocalMediaKey.word,LocalMediaKey.rest,upTo]

theorem build_localMedia (k : LocalMediaKey) :
    (Key.localMedia k).build = localMediaPrefix ++ k.name := by
  rw [← String.toList_inj]
  cases k <;> simp [Key.build,LocalMediaKey.name,keys.localMediaBlock,
    keys.localMediaBlockIndex,keys.localMediaOwnerIndex,keys.localMediaRelayRequestChannel,
    keys.localMediaRelayReply,keys.localMediaNode,keys.localMediaReannounceChannel,
    localMediaOwnerIndexPrefix]

theorem colon_notMem_repr (n : ℕ) : ':' ∉ n.repr.toList := by
  intro h
  rw [Nat.toList_repr] at h
  exact absurd (Nat.isDigit_of_mem_toDigits (by decide) (by decide) h) (by decide)

theorem localMedia_build_eq_iff (k k' : LocalMediaKey) :
    (Key.localMedia k).build = (Key.localMedia k').build ↔
      k = k' ∨ Key.Clash (.localMedia k) (.localMedia k') ∨
        Key.Clash (.localMedia k') (.localMedia k) := by
  have hword : ∀ k : LocalMediaKey, ':' ∉ k.word.toList := fun k => by
    cases k <;> simp [LocalMediaKey.word]
  rw [build_localMedia,build_localMedia,String.append_right_inj,LocalMediaKey.name_eq,
    LocalMediaKey.name_eq,upTo_inj (hword k) (hword k')]
  cases k with
  | block m n =>
    cases k' with
    | block m' n' =>
      simp only [LocalMediaKey.rest,Option.some.injEq]
      rw [join_upTo_eq_iff (colon_notMem_repr n) (colon_notMem_repr n')]
      simp [LocalMediaKey.word,Key.Clash,Nat.repr_inj]
    | _ => simp [LocalMediaKey.word,Key.Clash]
  | ownerIndex r o =>
    cases k' with
    | ownerIndex r' o' =>
      simp only [LocalMediaKey.rest,Option.some.injEq]
      rw [join_upTo_eq_iff (by decide) (by decide)]
      simp [LocalMediaKey.word,Key.Clash,upTo,and_comm]
    | _ => simp [LocalMediaKey.word,Key.Clash]
  | relayRequest =>
    cases k' with
    | relayReply q' =>
      simp only [LocalMediaKey.rest,Option.some.injEq]
      rw [upTo_inj (by decide) (by decide)]
      simp [LocalMediaKey.word,Key.Clash]
    | _ => simp [LocalMediaKey.word,LocalMediaKey.rest,Key.Clash]
  | relayReply q =>
    cases k' with
    | relayRequest | relayReply q' =>
      simp only [LocalMediaKey.rest,Option.some.injEq]
      rw [upTo_inj (by decide) (by decide)]
      simp [LocalMediaKey.word,Key.Clash]
    | _ => simp [LocalMediaKey.word,Key.Clash]
  | _ => cases k' <;> simp [LocalMediaKey.word,LocalMediaKey.rest,Key.Clash]

end Families

def family : List Char → ℕ
  | 'r' :: 'o' :: _ => 0
  | 'r' :: 'a' :: _ => 1
  | 'a' :: _ => 2
  | 'd' :: _ => 3
  | 'c' :: _ => 4
  | 'm' :: 'e' :: 'd' :: 'i' :: 'a' :: ':' :: 'y' :: _ => 5
  | 'm' :: 'e' :: 'd' :: 'i' :: 'a' :: ':' :: 'p' :: _ => 6
  | _ => 7

def Key.family : Key → ℕ
  | .room _ => 0
  | .rateLimit _ => 1
  | .appNodeAlive _ => 2
  | .dailyDefaults => 3
  | .controlToken _ => 4
  | .ytDlp _ => 5
  | .proxyToken _ => 6
  | .proxyByUrl _ => 6
  | .localMediaEntry _ => 7
  | .localMedia _ => 7

theorem family_build (k : Key) : WebSyncPlay.family k.build.toList = k.family := by
  cases k with
  | room k =>
    have hroom : ∀ rest, WebSyncPlay.family (roomPrefix ++ rest).toList = 0 := fun rest => by
      simp [roomPrefix,WebSyncPlay.family]
    cases k with
    | ofRoom p r =>
      rw [build_ofRoom]
      exact hroom _
    | ofUser p r u =>
      rw [build_ofUser]
      exact hroom _
    | pendingPrunes => exact hroom _
  | ytDlp k =>
    rw [build_ytDlp]
    simp [mediaYtDlpPrefix,WebSyncPlay.family,Key.family]
  | localMedia k =>
    rw [build_localMedia]
    simp [localMediaPrefix,WebSyncPlay.family,Key.family]
  | _ => simp [Key.build,WebSyncPlay.family,Key.family,keys.mediaProxyToken,keys.mediaProxyByUrl,
      keys.localMediaEntry,keys.dailyDefaults,keys.appNodeAlive,keys.controlToken,keys.rateLimit,
      mediaProxyPrefix,mediaProxyByUrlPrefix,localMediaPrefix]

theorem Key.Clash.family_eq {k k' : Key} (h : k.Clash k') : k.family = k'.family := by
  unfold Key.Clash at h
  split at h <;> first | rfl | exact h.elim

/-- Two names are the same just when the keys are, or clash. -/
theorem build_eq_iff (k k' : Key) : k.build = k'.build ↔ k = k' ∨ k.Clash k' ∨ k'.Clash k := by
  by_cases hfamily : k.family = k'.family
  · cases k with
    | room k =>
      cases k' with
      | room k' => simpa using room_build_eq_iff k k'
      | _ => cases hfamily
    | ytDlp k =>
      cases k' with
      | ytDlp k' => simpa using ytDlp_build_eq_iff k k'
      | _ => cases hfamily
    | localMedia k =>
      cases k' with
      | localMedia k' => simpa using localMedia_build_eq_iff k k'
      | localMediaEntry id =>
        rw [build_localMedia]
        simp [Key.build,keys.localMediaEntry,Key.Clash,eq_comm]
      | _ => cases hfamily
    | localMediaEntry id =>
      cases k' with
      | localMedia k' =>
        rw [build_localMedia]
        simp [Key.build,keys.localMediaEntry,Key.Clash]
      | localMediaEntry id' => simp [Key.build,keys.localMediaEntry,Key.Clash]
      | _ => cases hfamily
    | proxyToken t =>
      cases k' with
      | proxyToken t' => simp [Key.build,keys.mediaProxyToken,Key.Clash]
      | proxyByUrl h =>
        simp [Key.build,keys.mediaProxyToken,keys.mediaProxyByUrl,mediaProxyByUrlPrefix,
          String.append_assoc,Key.Clash]
      | _ => cases hfamily
    | proxyByUrl h =>
      cases k' with
      | proxyToken t' =>
        simp [Key.build,keys.mediaProxyToken,keys.mediaProxyByUrl,mediaProxyByUrlPrefix,
          String.append_assoc,Key.Clash,eq_comm]
      | proxyByUrl h' => simp [Key.build,keys.mediaProxyByUrl,Key.Clash]
      | _ => cases hfamily
    | dailyDefaults =>
      cases k' with
      | dailyDefaults => simp
      | _ => cases hfamily
    | appNodeAlive n =>
      cases k' with
      | appNodeAlive n' => simp [Key.build,keys.appNodeAlive,String.append_assoc,Key.Clash]
      | _ => cases hfamily
    | controlToken t =>
      cases k' with
      | controlToken t' => simp [Key.build,keys.controlToken,Key.Clash]
      | _ => cases hfamily
    | rateLimit l =>
      cases k' with
      | rateLimit l' => simp [Key.build,keys.rateLimit,Key.Clash]
      | _ => cases hfamily
  · constructor
    · intro h
      refine absurd ?_ hfamily
      rw [← family_build,h,family_build]
    · rintro (rfl | h | h)
      · rfl
      · exact absurd h.family_eq hfamily
      · exact absurd h.family_eq.symm hfamily

theorem Key.Clash.irrefl (k : Key) : ¬ k.Clash k := by
  have hlonger : ∀ (a w : String) (x : Option String), a ≠ upTo (a ++ ":" ++ w) x := by
    intro a w x h
    have hlength := congrArg (fun s : String => s.toList.length) h
    rw [upTo_upTo] at hlength
    simp at hlength
  cases k with
  | room k =>
    cases k with
    | ofUser p r u =>
      rintro ⟨e,he,x,-,hr⟩
      cases he
      exact hlonger _ _ _ hr
    | _ => exact id
  | ytDlp k =>
    cases k with
    | resolve p r i =>
      rintro ⟨-,x,hr,-⟩
      exact hlonger r x none hr
    | _ => exact id
  | localMedia k =>
    cases k with
    | ownerIndex r o =>
      rintro ⟨x,-,hr⟩
      exact hlonger _ _ _ hr
    | _ => exact id
  | _ => exact id

end Clash

section Scan

theorem globMatch_star (pattern s : List Char) :
    globMatch ('*' :: pattern) s = true ↔ ∃ t, t <:+ s ∧ globMatch pattern t = true := by
  simp [globMatch]

theorem globMatch_append {plain : List Char} (h : '*' ∉ plain) (pattern s : List Char) :
    globMatch (plain ++ pattern) s = true ↔ ∃ t, s = plain ++ t ∧ globMatch pattern t = true := by
  induction plain generalizing s with
  | nil => simp
  | cons c plain ih =>
    rw [List.mem_cons,not_or] at h
    rw [List.cons_append]
    cases s with
    | nil => simp [globMatch,Ne.symm h.1]
    | cons d s =>
      simp only [globMatch,if_neg (Ne.symm h.1),Bool.and_eq_true,beq_iff_eq,ih h.2,List.cons_append,List.cons.injEq]
      constructor
      · rintro ⟨rfl,t,rfl,ht⟩
        exact ⟨t,⟨rfl,rfl⟩,ht⟩
      · rintro ⟨t,⟨rfl,rfl⟩,ht⟩
        exact ⟨rfl,t,rfl,ht⟩

theorem globMatch_plain {plain : List Char} (h : '*' ∉ plain) (s : List Char) :
    globMatch plain s = true ↔ s = plain := by
  have happend := globMatch_append h [] s
  rw [List.append_nil] at happend
  rw [happend]
  simp [globMatch]

theorem globMatch_roomKey {suffix : String} (hsuffix : '*' ∉ suffix.toList) (key : String) :
    globMatch (roomPrefix ++ "*" ++ suffix).toList key.toList = true ↔
      ∃ roomId, key = roomKey suffix roomId := by
  have hpattern : (roomPrefix ++ "*" ++ suffix).toList =
      "room:".toList ++ ('*' :: suffix.toList) := by simp [roomPrefix]
  rw [hpattern,globMatch_append (by decide)]
  constructor
  · rintro ⟨t,hkey,ht⟩
    obtain ⟨u,⟨x,hx⟩,hu⟩ := (globMatch_star _ _).mp ht
    rw [globMatch_plain hsuffix] at hu
    refine ⟨String.ofList x,toList_injective ?_⟩
    rw [hkey,← hx,hu]
    simp [roomKey,roomPrefix]
  · rintro ⟨roomId,rfl⟩
    refine ⟨roomId.toList ++ suffix.toList,?_,(globMatch_star _ _).mpr
      ⟨suffix.toList,List.suffix_append _ _,(globMatch_plain hsuffix _).mpr rfl⟩⟩
    simp [roomKey,roomPrefix]

theorem globMatch_scanPattern (key : String) :
    globMatch keys.roomStateScanPattern.toList key.toList = true ↔
      ∃ roomId, key = keys.roomState roomId :=
  globMatch_roomKey (by decide) key

theorem parseRoomPrefixedKey_roomKey {suffix : String} (init : List Char) {d : Char}
    (hd : isWhiteSpace d = false) (hsuffix : suffix.toList = init ++ [d]) (roomId : String) :
    parseRoomPrefixedKey (roomKey suffix roomId) suffix = roomId := by
  have hkey : (roomKey suffix roomId).toList =
      roomPrefix.toList ++ (roomId.toList ++ suffix.toList) := by
    simp [roomKey]
  have hlast : (roomKey suffix roomId).toList =
      roomPrefix.toList ++ roomId.toList ++ init ++ [d] := by
    rw [hkey,hsuffix]
    simp
  have htrim : trim (roomKey suffix roomId) = roomKey suffix roomId :=
    trim_eq_self (by decide) hd hkey hlast
  have hdrop : (roomKey suffix roomId).toList.drop roomPrefix.length =
      roomId.toList ++ suffix.toList := by
    rw [hkey]
    exact List.drop_left
  simp only [parseRoomPrefixedKey,htrim,hdrop]
  rw [if_pos (by rw [hkey]; exact List.prefix_append _ _),if_pos (List.suffix_append _ _)]
  have htake : (roomId.toList ++ suffix.toList).take
      ((roomId.toList ++ suffix.toList).length - suffix.length) = roomId.toList := by
    refine List.take_left' ?_
    rw [List.length_append,← String.length_toList (s := suffix),Nat.add_sub_cancel]
  rw [htake,String.ofList_toList]

theorem parseRoomStateKey_roomState (roomId : String) :
    keys.parseRoomStateKey (keys.roomState roomId) = roomId :=
  parseRoomPrefixedKey_roomKey ":stat".toList (d := 'e') (by decide) (by decide) roomId

/-- The scan finds the rooms with a key that reads as their state key. -/
theorem mem_listRoomIds (stored : List String) (roomId : String) :
    roomId ∈ listRoomIds stored ↔ roomId ≠ "" ∧ keys.roomState roomId ∈ stored := by
  simp only [listRoomIds,List.mem_dedup,List.mem_filter,List.mem_map,decide_eq_true_eq,
    globMatch_scanPattern]
  constructor
  · rintro ⟨⟨key,⟨hkey,other,rfl⟩,hother⟩,hne⟩
    rw [parseRoomStateKey_roomState] at hother
    subst hother
    exact ⟨hne,hkey⟩
  · rintro ⟨hne,hkey⟩
    exact ⟨⟨_,⟨hkey,roomId,rfl⟩,parseRoomStateKey_roomState roomId⟩,hne⟩

theorem nodup_listRoomIds (stored : List String) : (listRoomIds stored).Nodup :=
  List.nodup_dedup _

/-- Every key of a user of a room whose name ends like the state key of another room stands beside
that state key, and no room has an empty id. -/
def NoGhostRoom (store : List Key) : Prop :=
  Key.room (.ofRoom .state "") ∉ store ∧
    ∀ part roomId userId, Key.room (.ofUser part roomId userId) ∈ store →
      ∀ x, part.rest userId = after x "state" →
        Key.room (.ofRoom .state (upTo (roomId ++ ":" ++ part.word) x)) ∈ store

theorem Key.Clash.of_state {k : Key} {roomId : String}
    (h : k.Clash (.room (.ofRoom .state roomId))) : ∃ part other userId x,
      k = .room (.ofUser part other userId) ∧ part.rest userId = after x "state" ∧
        roomId = upTo (other ++ ":" ++ part.word) x := by
  cases k with
  | room k =>
    cases k with
    | ofUser part other userId =>
      obtain ⟨e,he,x,hrest,hroom⟩ := h
      cases he
      exact ⟨part,other,userId,x,rfl,hrest,hroom⟩
    | _ => exact h.elim
  | ytDlp k | localMedia k => cases k <;> exact h.elim
  | _ => exact h.elim

theorem roomState_mem_iff (store : List Key) (roomId : String) :
    keys.roomState roomId ∈ store.map Key.build ↔
      Key.room (.ofRoom .state roomId) ∈ store ∨
        ∃ k ∈ store, k.Clash (.room (.ofRoom .state roomId)) := by
  have hiff : ∀ k : Key, k.build = keys.roomState roomId ↔
      k = .room (.ofRoom .state roomId) ∨ k.Clash (.room (.ofRoom .state roomId)) := by
    intro k
    have hno : ¬ Key.Clash (.room (.ofRoom .state roomId)) k := id
    have hbuild := build_eq_iff k (.room (.ofRoom .state roomId))
    rwa [or_iff_left hno] at hbuild
  rw [List.mem_map]
  constructor
  · rintro ⟨k,hk,hbuild⟩
    rcases (hiff k).mp hbuild with rfl | hclash
    · exact Or.inl hk
    · exact Or.inr ⟨k,hk,hclash⟩
  · rintro (hk | ⟨k,hk,hclash⟩)
    · exact ⟨_,hk,rfl⟩
    · exact ⟨k,hk,(hiff k).mpr (Or.inr hclash)⟩

theorem listRoomIds_iff (store : List Key) :
    (∀ roomId, roomId ∈ listRoomIds (store.map Key.build) ↔
      Key.room (.ofRoom .state roomId) ∈ store) ↔ NoGhostRoom store := by
  constructor
  · intro h
    refine ⟨fun hempty => ?_,fun part roomId userId hk x hrest => ?_⟩
    · exact ((mem_listRoomIds _ _).mp ((h "").mpr hempty)).1 rfl
    · refine (h _).mp ((mem_listRoomIds _ _).mpr ⟨fun hempty => ?_,?_⟩)
      · have hlength := congrArg (fun s : String => s.toList.length) hempty
        rw [upTo_upTo,toList_join] at hlength
        simp at hlength
      · exact (roomState_mem_iff _ _).mpr (Or.inr ⟨_,hk,_,rfl,x,hrest,rfl⟩)
  · rintro ⟨hempty,hghost⟩ roomId
    rw [mem_listRoomIds,roomState_mem_iff]
    constructor
    · rintro ⟨-,hk | ⟨k,hk,hclash⟩⟩
      · exact hk
      · obtain ⟨part,other,userId,x,rfl,hrest,rfl⟩ := hclash.of_state
        exact hghost part other userId hk x hrest
    · intro hk
      refine ⟨?_,Or.inl hk⟩
      rintro rfl
      exact hempty hk

/-- Which names are ambiguous, and when the scan lists exactly the rooms that have a state key, each
of them once. -/
theorem key_space (k k' : Key) (store : List Key) :
    ((k ≠ k' → k.build ≠ k'.build) ↔ ¬ (k.Clash k' ∨ k'.Clash k)) ∧
    ((∀ roomId, roomId ∈ listRoomIds (store.map Key.build) ↔
      Key.room (.ofRoom .state roomId) ∈ store) ↔ NoGhostRoom store) ∧
    (listRoomIds (store.map Key.build)).Nodup := by
  refine ⟨⟨fun h hclash => ?_,fun h hne hbuild => ?_⟩,listRoomIds_iff store,nodup_listRoomIds _⟩
  · refine h ?_ ((build_eq_iff k k').mpr (Or.inr hclash))
    rintro rfl
    exact hclash.elim (Key.Clash.irrefl k) (Key.Clash.irrefl k)
  · exact h (((build_eq_iff k k').mp hbuild).resolve_left hne)

/-- The end of a prune is the state key of a room that there is not. -/
theorem prune_reads_as_room :
    Key.build (.room (.ofUser .prune "r" "x:state")) =
        Key.build (.room (.ofRoom .state "r:prune:x")) ∧
      listRoomIds ([.room (.ofRoom .state "r"),.room (.ofUser .prune "r" "x:state")].map Key.build) =
        ["r","r:prune:x"] := by
  decide +kernel

end Scan
end WebSyncPlay
