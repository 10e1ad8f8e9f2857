import WebSyncPlay.CompositeMembers
import WebSyncPlay.SocketDispatch

/-! The messages of the two block channels, peer to peer and through the SFU, and the provider's
side that reads a range of the file. -/
namespace WebSyncPlay

open Library

/-- Inclusive byte range size aligned with server relay blocks. -/
def LOCAL_MEDIA_MAX_BLOCK_BYTES : ℕ := 256*1024

/-- SFU binary frames prefix the UUID request id (36 ASCII chars). -/
def LOCAL_MEDIA_BLOCK_REQUEST_ID_LENGTH : ℕ := 36

def LOCAL_MEDIA_MAX_FRAME_PAYLOAD : ℕ := 60*1024

/-- A control message, as `JSON.parse` gives it back. -/
inductive BlockMessage
  | request (requestId : String) (start stop : ℚ)
  | blockMeta (requestId : Option String) (ok : Bool) (byteLength : Option ℕ)
      (error : Option String)
  | readyAck (dataProducerId : String)
  deriving DecidableEq

inductive ChannelFrame
  | text (message : BlockMessage)
  | binary (bytes : List UInt8)
  deriving DecidableEq

def encodeLocalMediaBlockMetaOk (requestId : String) (byteLength : ℕ) : ChannelFrame :=
  .text (.blockMeta (some requestId) true (some byteLength) none)

def encodeLocalMediaBlockMetaError (requestId error : String) : ChannelFrame :=
  .text (.blockMeta (some requestId) false none (some error))

section Responder

inductive RangeResponderErrorCode
  | providerUnavailable
  | invalidRange
  | rangeTooLarge
  | readFailed
  | timeout
  deriving DecidableEq

def RangeResponderErrorCode.text : RangeResponderErrorCode → String
  | providerUnavailable => "provider_unavailable"
  | invalidRange => "invalid_range"
  | rangeTooLarge => "range_too_large"
  | readFailed => "read_failed"
  | timeout => "timeout"

inductive ReadOutcome
  | bytes (read : List UInt8)
  | failed
  | timedOut

structure BlockRequest where
  requestId : String
  start : ℚ
  stop : ℚ

structure BlockRead where
  start : ℚ
  stop : ℚ
  bytes : List UInt8
  deriving DecidableEq

/-- `serveLocalMediaRange` for a request that `isLocalMediaBlockRequest` lets through. -/
def serveLocalMediaRange (hasFile requireRequestIdLength : Bool) (request : BlockRequest)
    (read : ReadOutcome) : Except RangeResponderErrorCode (List UInt8) :=
  if requireRequestIdLength &&
      codeUnits request.requestId != LOCAL_MEDIA_BLOCK_REQUEST_ID_LENGTH then
    .error .providerUnavailable
  else if !hasFile then .error .providerUnavailable
  else if request.start < 0 ∨ request.stop < request.start then .error .invalidRange
  else if LOCAL_MEDIA_MAX_BLOCK_BYTES < request.stop-request.start+1 then .error .rangeTooLarge
  else
    match read with
    | .bytes bytes => .ok bytes
    | .failed => .error .readFailed
    | .timedOut => .error .timeout

theorem read_of_served {hasFile requireRequestIdLength : Bool} {request : BlockRequest}
    {read : ReadOutcome} {bytes : List UInt8}
    (h : serveLocalMediaRange hasFile requireRequestIdLength request read = .ok bytes) :
    read = .bytes bytes := by
  unfold serveLocalMediaRange at h
  split at h
  · cases h
  split at h
  · cases h
  split at h
  · cases h
  split at h
  · cases h
  cases read with
  | bytes read =>
    cases h
    rfl
  | failed => cases h
  | timedOut => cases h

theorem mem_noted {reads : String → List BlockRead} {request : BlockRequest} {id : String}
    {bytes : List UInt8} {read : BlockRead} (h : read ∈ Function.update reads request.requestId
      (⟨request.start,request.stop,bytes⟩ :: reads request.requestId) id) :
    read ∈ reads id ∨ read = ⟨request.start,request.stop,bytes⟩ := by
  by_cases hid : id = request.requestId
  · subst hid
    rw [Function.update_self] at h
    exact (List.mem_cons.mp h).symm
  · rw [Function.update_of_ne hid] at h
    exact .inl h

end Responder

section Header

def textEncode (s : String) : List UInt8 := s.toList.flatMap String.utf8EncodeChar

/-- Request ids on the wire: 36 ASCII characters. -/
def IsRequestId (requestId : String) : Prop :=
  requestId.toList.length = LOCAL_MEDIA_BLOCK_REQUEST_ID_LENGTH ∧
    ∀ c ∈ requestId.toList, c.toNat < 0x80

instance (requestId : String) : Decidable (IsRequestId requestId) :=
  decidable_of_iff (requestId.toList.length = LOCAL_MEDIA_BLOCK_REQUEST_ID_LENGTH ∧
    requestId.toList.all (fun c => decide (c.toNat < 0x80)) = true) (by simp [IsRequestId])

theorem utf8EncodeChar_ascii {c : Char} (h : c.toNat < 0x80) :
    ∃ b : UInt8, String.utf8EncodeChar c = [b] ∧ b.toNat = c.toNat := by
  refine ⟨c.toNat.toUInt8,?_,?_⟩
  · have hle : c.val.toNat ≤ 0x7f := by
      have hval : c.toNat = c.val.toNat := rfl
      omega
    simp only [String.utf8EncodeChar,hle,if_true]
    rfl
  · simp only [Nat.toUInt8,UInt8.toNat_ofNat']
    omega

theorem utf8Go_ascii {b : UInt8} (h : b.toNat < 0x80) (rest : List UInt8) :
    utf8Go none (b :: rest) = Char.ofNat b.toNat :: utf8Go none rest := by
  simp [utf8Go,utf8Start,h]

theorem flatMap_utf8_ascii {cs : List Char} (h : ∀ c ∈ cs, c.toNat < 0x80) :
    (cs.flatMap String.utf8EncodeChar).length = cs.length ∧
      utf8Go none (cs.flatMap String.utf8EncodeChar) = cs ∧
        ∀ b ∈ cs.flatMap String.utf8EncodeChar, b.toNat < 0x80 := by
  induction cs with
  | nil => simp [utf8Go]
  | cons c cs ih =>
    obtain ⟨b,hb,hval⟩ := utf8EncodeChar_ascii (h c (by simp))
    obtain ⟨hlength,hdecode,hsmall⟩ := ih fun d hd => h d (by simp [hd])
    have hascii : b.toNat < 0x80 := by
      rw [hval]
      exact h c (by simp)
    rw [List.flatMap_cons,hb]
    refine ⟨by simpa using hlength,?_,?_⟩
    · rw [List.singleton_append,utf8Go_ascii hascii,hdecode,hval,Char.ofNat_toNat]
    · intro d hd
      rcases List.mem_append.mp hd with hd | hd
      · rw [List.mem_singleton.mp hd]
        exact hascii
      · exact hsmall d hd

theorem textEncode_length {requestId : String} (h : IsRequestId requestId) :
    (textEncode requestId).length = LOCAL_MEDIA_BLOCK_REQUEST_ID_LENGTH :=
  (flatMap_utf8_ascii h.2).1.trans h.1

theorem textDecode_header {requestId : String} (h : IsRequestId requestId) (chunk : List UInt8) :
    textDecode ((textEncode requestId ++ chunk).take LOCAL_MEDIA_BLOCK_REQUEST_ID_LENGTH) =
      requestId := by
  have htake : (textEncode requestId ++ chunk).take LOCAL_MEDIA_BLOCK_REQUEST_ID_LENGTH =
      textEncode requestId := by
    rw [← textEncode_length h,List.take_left]
  obtain ⟨-,hdecode,hsmall⟩ := flatMap_utf8_ascii h.2
  have hmark : ¬[0xEF,0xBB,0xBF] <+: textEncode requestId := by
    rintro ⟨rest,hrest⟩
    have hfirst := hsmall 0xEF (by
      change (0xEF : UInt8) ∈ textEncode requestId
      rw [← hrest]
      simp)
    exact absurd hfirst (by decide)
  rw [htake,textDecode,if_neg hmark,textEncode,hdecode,String.ofList_toList]

end Header

section Chunks

/-- The payloads of a block: from each offset of the loop, as much as fits in a frame. -/
def blockChunks (bytes : List UInt8) : List (List UInt8) :=
  (List.range ((bytes.length+LOCAL_MEDIA_MAX_FRAME_PAYLOAD-1)/LOCAL_MEDIA_MAX_FRAME_PAYLOAD)).map
    fun i => (bytes.drop (i*LOCAL_MEDIA_MAX_FRAME_PAYLOAD)).take LOCAL_MEDIA_MAX_FRAME_PAYLOAD

theorem flatten_range_chunks {α : Type*} (size k : ℕ) (l : List α) :
    ((List.range k).map fun i => (l.drop (i*size)).take size).flatten = l.take (k*size) := by
  induction k with
  | zero => simp
  | succ k ih =>
    rw [List.range_succ,List.map_append,List.flatten_append,ih,List.map_singleton,
      List.flatten_singleton,Nat.succ_mul,List.take_add]

theorem flatten_blockChunks (bytes : List UInt8) : (blockChunks bytes).flatten = bytes := by
  rw [blockChunks,flatten_range_chunks]
  refine List.take_of_length_le ?_
  simp only [LOCAL_MEDIA_MAX_FRAME_PAYLOAD]
  omega

end Chunks

end WebSyncPlay
