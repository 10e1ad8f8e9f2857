import WebSyncPlay.BlockProtocol
import WebSyncPlay.Library.Json

/-! Chunk frames (`shared/local-media/local-media-binary.ts`): encoding and decoding undo each
other, decoding stays within the frame, and no frame is a JSON text. -/
namespace WebSyncPlay

open Library

section Utf8

/-- Text that a decoder would take a byte order mark from. -/
def StartsWithMark (s : String) : Prop := s.toList.head? = some '\uFEFF'

instance (s : String) : Decidable (StartsWithMark s) :=
  inferInstanceAs (Decidable (s.toList.head? = some '\uFEFF'))

theorem utf8Start_two {b : ℕ} (hlow : 0xC2 ≤ b) (hup : b ≤ 0xDF) :
    utf8Start b = .inr ⟨1,0x80,0xBF,b % 0x20⟩ := by
  have hascii : ¬b < 0x80 := by omega
  rw [utf8Start,if_neg hascii,if_pos ⟨hlow,hup⟩]

theorem utf8Start_three {b : ℕ} (hlow : 0xE0 ≤ b) (hup : b ≤ 0xEF) :
    utf8Start b = .inr ⟨2,if b = 0xE0 then 0xA0 else 0x80,if b = 0xED then 0x9F else 0xBF,
      b % 0x10⟩ := by
  interval_cases b <;> rfl

theorem utf8Start_four {b : ℕ} (hlow : 0xF0 ≤ b) (hup : b ≤ 0xF4) :
    utf8Start b = .inr ⟨3,if b = 0xF0 then 0x90 else 0x80,if b = 0xF4 then 0x8F else 0xBF,
      b % 0x08⟩ := by
  interval_cases b <;> rfl

theorem utf8Go_start {b : UInt8} {state : Utf8State} (h : utf8Start b.toNat = .inr state)
    (rest : List UInt8) : utf8Go none (b :: rest) = utf8Go (some state) rest := by
  simp [utf8Go,h]

theorem utf8Go_more {state : Utf8State} {b : UInt8} (hlow : state.lower ≤ b.toNat)
    (hup : b.toNat ≤ state.upper) (hneeded : state.needed ≠ 1) (rest : List UInt8) :
    utf8Go (some state) (b :: rest) =
      utf8Go (some ⟨state.needed-1,0x80,0xBF,state.codePoint*0x40+b.toNat % 0x40⟩) rest := by
  simp [utf8Go,hlow,hup,hneeded]

theorem utf8Go_last {state : Utf8State} {b : UInt8} (hlow : state.lower ≤ b.toNat)
    (hup : b.toNat ≤ state.upper) (hneeded : state.needed = 1) (rest : List UInt8) :
    utf8Go (some state) (b :: rest) =
      Char.ofNat (state.codePoint*0x40+b.toNat % 0x40) :: utf8Go none rest := by
  simp [utf8Go,hlow,hup,hneeded]

theorem toNat_ofNat_byte {n : ℕ} (h : n < 0x100) : (UInt8.ofNat n).toNat = n := by
  rw [UInt8.toNat_ofNat']
  exact Nat.mod_eq_of_lt h

theorem utf8Go_encode (c : Char) (rest : List UInt8) :
    utf8Go none (String.utf8EncodeChar c ++ rest) = c :: utf8Go none rest := by
  have hchar : Char.ofNat c.val.toNat = c := Char.ofNat_toNat c
  have hvalid : c.val.toNat < 0xD800 ∨ 0xDFFF < c.val.toNat ∧ c.val.toNat < 0x110000 := c.valid
  rw [String.utf8EncodeChar]
  generalize c.val.toNat = v at hchar hvalid
  by_cases hone : v ≤ 0x7f
  · have hbyte : (UInt8.ofNat v).toNat = v := toNat_ofNat_byte (by omega)
    rw [if_pos hone,List.singleton_append,utf8Go_ascii (by omega),hbyte,hchar]
  rw [if_neg hone]
  by_cases htwo : v ≤ 0x7ff
  · have hfirst := toNat_ofNat_byte (show v/64 % 0x20+0xc0 < 0x100 by omega)
    have hlast := toNat_ofNat_byte (show v % 0x40+0x80 < 0x100 by omega)
    rw [if_pos htwo,List.cons_append,List.singleton_append,
      utf8Go_start (utf8Start_two (by omega) (by omega)),
      utf8Go_last (by dsimp only; omega) (by dsimp only; omega) rfl,hfirst,hlast]
    have hv : (v/64 % 0x20+0xc0) % 0x20*0x40+(v % 0x40+0x80) % 0x40 = v := by omega
    rw [hv,hchar]
  rw [if_neg htwo]
  by_cases hthree : v ≤ 0xffff
  · have hfirst := toNat_ofNat_byte (show v/4096 % 0x10+0xe0 < 0x100 by omega)
    have hsecond := toNat_ofNat_byte (show v/64 % 0x40+0x80 < 0x100 by omega)
    have hlast := toNat_ofNat_byte (show v % 0x40+0x80 < 0x100 by omega)
    rw [if_pos hthree,List.cons_append,List.cons_append,List.singleton_append,
      utf8Go_start (utf8Start_three (by omega) (by omega)),
      utf8Go_more (by dsimp only; split <;> omega) (by dsimp only; split <;> omega) (by simp),
      utf8Go_last (by dsimp only; omega) (by dsimp only; omega) rfl,hfirst,hsecond,hlast]
    have hv : ((v/4096 % 0x10+0xe0) % 0x10*0x40+(v/64 % 0x40+0x80) % 0x40)*0x40+
        (v % 0x40+0x80) % 0x40 = v := by omega
    rw [hv,hchar]
  · have hfirst := toNat_ofNat_byte (show v/262144 % 0x08+0xf0 < 0x100 by omega)
    have hsecond := toNat_ofNat_byte (show v/4096 % 0x40+0x80 < 0x100 by omega)
    have hthird := toNat_ofNat_byte (show v/64 % 0x40+0x80 < 0x100 by omega)
    have hlast := toNat_ofNat_byte (show v % 0x40+0x80 < 0x100 by omega)
    rw [if_neg hthree,List.cons_append,List.cons_append,List.cons_append,List.singleton_append,
      utf8Go_start (utf8Start_four (by omega) (by omega)),
      utf8Go_more (by dsimp only; split <;> omega) (by dsimp only; split <;> omega) (by simp),
      utf8Go_more (by dsimp only; omega) (by dsimp only; omega) (by simp),
      utf8Go_last (by dsimp only; omega) (by dsimp only; omega) rfl,hfirst,hsecond,hthird,hlast]
    have hv : (((v/262144 % 0x08+0xf0) % 0x08*0x40+(v/4096 % 0x40+0x80) % 0x40)*0x40+
        (v/64 % 0x40+0x80) % 0x40)*0x40+(v % 0x40+0x80) % 0x40 = v := by omega
    rw [hv,hchar]

theorem utf8Go_flatMap (cs : List Char) :
    utf8Go none (cs.flatMap String.utf8EncodeChar) = cs := by
  induction cs with
  | nil => simp [utf8Go]
  | cons c cs ih => rw [List.flatMap_cons,utf8Go_encode,ih]

theorem textDecode_textEncode {s : String} (h : ¬StartsWithMark s) :
    textDecode (textEncode s) = s := by
  have hmark : ¬[0xEF,0xBB,0xBF] <+: textEncode s := by
    rintro ⟨rest,hrest⟩
    have hchars : utf8Go none ([0xEF,0xBB,0xBF] ++ rest) = s.toList := by
      rw [hrest]
      exact utf8Go_flatMap s.toList
    have hfirst : utf8Go none ([0xEF,0xBB,0xBF] ++ rest) = '\uFEFF' :: utf8Go none rest :=
      utf8Go_encode '\uFEFF' rest
    exact h (by rw [StartsWithMark,← hchars,hfirst]; rfl)
  rw [textDecode,if_neg hmark,textEncode,utf8Go_flatMap,String.ofList_toList]

end Utf8

section Codec

def lmcFlagOk : UInt8 := 0x01

/-- `setUint16` and `setUint32`, little-endian. -/
def littleEndianBytes : ℕ → ℕ → List UInt8
  | 0,_ => []
  | k+1,n => UInt8.ofNat (n % 0x100) :: littleEndianBytes k (n/0x100)

/-- Nothing stands for the RangeError. -/
def encodeLocalMediaChunkFrame (chunk : LocalMediaChunk) : Option (List UInt8) :=
  let requestIdBytes := textEncode chunk.requestId
  if requestIdBytes.length > 0xffff then none
  else
    let body := if chunk.ok then chunk.data.getD [] else textEncode (chunk.error.getD "")
    some (littleEndianBytes 4 lmcMagic ++ littleEndianBytes 2 requestIdBytes.length ++
      requestIdBytes ++ [if chunk.ok then lmcFlagOk else 0] ++ body)

def readBytes (bytes : List UInt8) (offset count : ℕ) : Option (List UInt8) :=
  if offset+count ≤ bytes.length then some ((bytes.drop offset).take count) else none

/-- The decoder with its reads one by one. It fails if one of them goes beyond the bytes. -/
def readLocalMediaChunkFrame (bytes : List UInt8) : Option (Option LocalMediaChunk) :=
  if bytes.length < 7 then some none
  else do
    let magic ← readBytes bytes 0 4
    if littleEndian magic ≠ lmcMagic then some none
    else
      let requestIdLength ← (readBytes bytes 4 2).map littleEndian
      let headerLen := 4+2+requestIdLength+1
      if bytes.length < headerLen then some none
      else
        let requestId ← (readBytes bytes 6 requestIdLength).map textDecode
        let flags ← (readBytes bytes (6+requestIdLength) 1).map littleEndian
        let rest ← readBytes bytes headerLen (bytes.length-headerLen)
        if flags % 2 = 1 then
          some (some { requestId := requestId, ok := true, data := some rest, error := none })
        else
          some (some
            { requestId := requestId, ok := false, data := none, error := some (textDecode rest) })

def chunkFrameRequestId (bytes : List UInt8) : List UInt8 :=
  (bytes.drop 6).take (littleEndian ((bytes.drop 4).take 2))

def chunkFrameFlags (bytes : List UInt8) : UInt8 :=
  bytes.getD (6+littleEndian ((bytes.drop 4).take 2)) 0

def chunkFrameBody (bytes : List UInt8) : List UInt8 :=
  bytes.drop (4+2+littleEndian ((bytes.drop 4).take 2)+1)

theorem readBytes_eq_some {bytes : List UInt8} {offset count : ℕ}
    (h : offset+count ≤ bytes.length) :
    readBytes bytes offset count = some ((bytes.drop offset).take count) := by
  rw [readBytes,if_pos h]

theorem littleEndian_one {bytes : List UInt8} {offset : ℕ} (h : offset < bytes.length) :
    littleEndian ((bytes.drop offset).take 1) = (bytes.getD offset 0).toNat := by
  rw [List.drop_eq_getElem_cons h,List.take_succ_cons,List.take_zero,List.getD_eq_getElem _ _ h]
  simp [littleEndian]

/-- Every read stays within the bytes. -/
theorem readLocalMediaChunkFrame_eq (bytes : List UInt8) :
    readLocalMediaChunkFrame bytes = some (decodeLocalMediaChunkFrame bytes) := by
  rw [readLocalMediaChunkFrame,decodeLocalMediaChunkFrame]
  by_cases hshort : bytes.length < 7
  · rw [if_pos hshort,if_pos hshort]
  rw [if_neg hshort,if_neg hshort,readBytes_eq_some (by omega),readBytes_eq_some (by omega),
    List.drop_zero]
  simp only [Option.bind_eq_bind,Option.bind_some,Option.map_some]
  by_cases hmagic : littleEndian (bytes.take 4) ≠ lmcMagic
  · rw [if_pos hmagic,if_pos hmagic]
  rw [if_neg hmagic,if_neg hmagic]
  generalize littleEndian ((bytes.drop 4).take 2) = requestIdLength
  by_cases hheader : bytes.length < 4+2+requestIdLength+1
  · rw [if_pos hheader,if_pos hheader]
  rw [if_neg hheader,if_neg hheader,readBytes_eq_some (by omega),readBytes_eq_some (by omega),
    readBytes_eq_some (by omega)]
  simp only [Option.bind_some,Option.map_some]
  have hrest : (bytes.drop (4+2+requestIdLength+1)).take
      (bytes.length-(4+2+requestIdLength+1)) = bytes.drop (4+2+requestIdLength+1) := by
    rw [List.take_of_length_le]
    rw [List.length_drop]
  rw [littleEndian_one (by omega),hrest]
  split <;> rfl

@[simp] theorem length_littleEndianBytes (k n : ℕ) : (littleEndianBytes k n).length = k := by
  induction k generalizing n with
  | zero => rfl
  | succ k ih => rw [littleEndianBytes,List.length_cons,ih]

theorem littleEndian_littleEndianBytes (k n : ℕ) :
    littleEndian (littleEndianBytes k n) = n % 0x100^k := by
  induction k generalizing n with
  | zero => rw [littleEndianBytes,littleEndian,pow_zero,Nat.mod_one]
  | succ k ih =>
    rw [littleEndianBytes,littleEndian,ih,toNat_ofNat_byte (Nat.mod_lt _ (by decide)),pow_succ',
      Nat.mod_mul]

theorem littleEndianBytes_littleEndian (bytes : List UInt8) :
    littleEndianBytes bytes.length (littleEndian bytes) = bytes := by
  induction bytes with
  | nil => rfl
  | cons b bytes ih =>
    have hb : b.toNat < 0x100 := b.toNat_lt
    have hmod : (b.toNat+0x100*littleEndian bytes) % 0x100 = b.toNat := by omega
    have hdiv : (b.toNat+0x100*littleEndian bytes)/0x100 = littleEndian bytes := by omega
    rw [List.length_cons,littleEndian,littleEndianBytes,hmod,hdiv,ih,UInt8.ofNat_toNat]

theorem littleEndian_lt (bytes : List UInt8) : littleEndian bytes < 0x100^bytes.length := by
  rw [← littleEndianBytes_littleEndian bytes,littleEndian_littleEndianBytes,
    length_littleEndianBytes]
  exact Nat.mod_lt _ (by positivity)

def chunkFrame (requestId : List UInt8) (flags : UInt8) (body : List UInt8) : List UInt8 :=
  littleEndianBytes 4 lmcMagic ++ littleEndianBytes 2 requestId.length ++ requestId ++ [flags] ++ body

def chunkOfParts (requestId : List UInt8) (flags : UInt8) (body : List UInt8) : LocalMediaChunk :=
  if flags.toNat % 2 = 1 then
    { requestId := textDecode requestId, ok := true, data := some body, error := none }
  else
    { requestId := textDecode requestId, ok := false, data := none,
      error := some (textDecode body) }

def IsChunkFrame (bytes : List UInt8) : Prop :=
  littleEndian (bytes.take 4) = lmcMagic ∧
    4+2+littleEndian ((bytes.drop 4).take 2)+1 ≤ bytes.length

theorem decode_of_isChunkFrame {bytes : List UInt8} (h : IsChunkFrame bytes) :
    decodeLocalMediaChunkFrame bytes = some (chunkOfParts (chunkFrameRequestId bytes)
      (chunkFrameFlags bytes) (chunkFrameBody bytes)) := by
  obtain ⟨hmagic,hheader⟩ := h
  have hlong : ¬bytes.length < 7 := by omega
  rw [decodeLocalMediaChunkFrame,if_neg hlong,if_neg (not_not.mpr hmagic),if_neg (not_lt.mpr hheader),
    chunkOfParts]
  split
  · rename_i hflags
    exact if_pos hflags
  · rename_i hflags
    exact if_neg hflags

theorem isChunkFrame_of_decode {bytes : List UInt8} {chunk : LocalMediaChunk}
    (h : decodeLocalMediaChunkFrame bytes = some chunk) : IsChunkFrame bytes := by
  rw [decodeLocalMediaChunkFrame] at h
  split at h
  · cases h
  split at h
  · cases h
  rename_i hmagic
  dsimp only at h
  split at h
  · cases h
  rename_i hheader
  exact ⟨not_not.mp hmagic,not_lt.mp hheader⟩

section Parts

variable {requestId body : List UInt8} {flags : UInt8}

theorem chunkFrame_length : (chunkFrame requestId flags body).length =
    4+2+requestId.length+1+body.length := by
  simp only [chunkFrame,List.length_append,length_littleEndianBytes,List.length_singleton]

theorem chunkFrame_take : (chunkFrame requestId flags body).take 4 = littleEndianBytes 4 lmcMagic := by
  simp only [chunkFrame,List.append_assoc]
  exact List.take_left' (length_littleEndianBytes 4 _)

theorem chunkFrame_drop : (chunkFrame requestId flags body).drop 6 =
    requestId ++ flags :: body := by
  have hlength : (littleEndianBytes 4 lmcMagic ++
      littleEndianBytes 2 requestId.length).length = 6 := by
    rw [List.length_append,length_littleEndianBytes,length_littleEndianBytes]
  rw [chunkFrame,List.append_assoc,List.append_assoc,List.drop_left' hlength]
  rfl

theorem chunkFrame_requestIdLength (h : requestId.length ≤ 0xffff) :
    littleEndian (((chunkFrame requestId flags body).drop 4).take 2) = requestId.length := by
  have hdrop : ((chunkFrame requestId flags body).drop 4).take 2 =
      littleEndianBytes 2 requestId.length := by
    simp only [chunkFrame,List.append_assoc]
    rw [List.drop_left' (length_littleEndianBytes 4 _)]
    exact List.take_left' (length_littleEndianBytes 2 _)
  rw [hdrop,littleEndian_littleEndianBytes]
  exact Nat.mod_eq_of_lt (by omega)

theorem isChunkFrame_chunkFrame (h : requestId.length ≤ 0xffff) :
    IsChunkFrame (chunkFrame requestId flags body) := by
  refine ⟨?_,?_⟩
  · rw [chunkFrame_take,littleEndian_littleEndianBytes]
    rfl
  · rw [chunkFrame_requestIdLength h,chunkFrame_length]
    exact Nat.le_add_right _ _

theorem chunkFrame_parts (h : requestId.length ≤ 0xffff) :
    chunkFrameRequestId (chunkFrame requestId flags body) = requestId ∧
      chunkFrameFlags (chunkFrame requestId flags body) = flags ∧
        chunkFrameBody (chunkFrame requestId flags body) = body := by
  rw [chunkFrameRequestId,chunkFrameFlags,chunkFrameBody,chunkFrame_requestIdLength h]
  refine ⟨?_,?_,?_⟩
  · rw [chunkFrame_drop,List.take_left]
  · rw [List.getD_eq_getElem?_getD,← List.getElem?_drop,chunkFrame_drop,
      List.getElem?_append_right le_rfl,Nat.sub_self]
    rfl
  · have hsum : 4+2+requestId.length+1 = 6+(requestId.length+1) := by omega
    rw [hsum,← List.drop_drop,chunkFrame_drop,← List.drop_drop,List.drop_left]
    rfl

end Parts

theorem chunkFrame_of_parts {bytes : List UInt8} (h : IsChunkFrame bytes) :
    (chunkFrameRequestId bytes).length ≤ 0xffff ∧
      chunkFrame (chunkFrameRequestId bytes) (chunkFrameFlags bytes) (chunkFrameBody bytes) =
        bytes := by
  obtain ⟨hmagic,hheader⟩ := h
  have hmagicLength : (bytes.take 4).length = 4 := by
    rw [List.length_take]
    omega
  have hidLengthLength : ((bytes.drop 4).take 2).length = 2 := by
    rw [List.length_take,List.length_drop]
    omega
  have hlt := littleEndian_lt ((bytes.drop 4).take 2)
  rw [hidLengthLength] at hlt
  have hmagicBytes := littleEndianBytes_littleEndian (bytes.take 4)
  rw [hmagicLength,hmagic] at hmagicBytes
  have hidLengthBytes := littleEndianBytes_littleEndian ((bytes.drop 4).take 2)
  rw [hidLengthLength] at hidLengthBytes
  rw [chunkFrame,chunkFrameRequestId,chunkFrameFlags,chunkFrameBody,hmagicBytes]
  generalize littleEndian ((bytes.drop 4).take 2) = requestIdLength at *
  have hidLength : ((bytes.drop 6).take requestIdLength).length = requestIdLength := by
    rw [List.length_take,List.length_drop]
    omega
  rw [hidLength,hidLengthBytes]
  refine ⟨by omega,?_⟩
  have hflags : 6+requestIdLength < bytes.length := by omega
  have hbody : bytes.getD (6+requestIdLength) 0 :: bytes.drop (4+2+requestIdLength+1) =
      bytes.drop (6+requestIdLength) := by
    rw [List.drop_eq_getElem_cons hflags,List.getD_eq_getElem _ _ hflags]
  rw [List.append_assoc,List.singleton_append,hbody,← List.drop_drop,List.append_assoc,
    List.take_append_drop,List.append_assoc]
  have hsix : bytes.drop 6 = (bytes.drop 4).drop 2 := by rw [List.drop_drop]
  rw [hsix,List.take_append_drop,List.take_append_drop]

end Codec

/-- The chunk that is sent: of data and error the one that `ok` selects, empty if there is none. -/
def LocalMediaChunk.sent (chunk : LocalMediaChunk) : LocalMediaChunk :=
  { chunk with
    data := if chunk.ok then some (chunk.data.getD []) else none
    error := if chunk.ok then none else some (chunk.error.getD "") }

/-- Bytes of a text that does not begin with a byte order mark. -/
def IsUnmarkedText (bytes : List UInt8) : Prop :=
  ∃ s, textEncode s = bytes ∧ ¬StartsWithMark s

theorem encode_eq_chunkFrame {chunk : LocalMediaChunk}
    (h : (textEncode chunk.requestId).length ≤ 0xffff) :
    encodeLocalMediaChunkFrame chunk = some (chunkFrame (textEncode chunk.requestId)
      (if chunk.ok then lmcFlagOk else 0)
      (if chunk.ok then chunk.data.getD [] else textEncode (chunk.error.getD ""))) := by
  rw [encodeLocalMediaChunkFrame,if_neg (not_lt.mpr h)]
  rfl

theorem decode_encode {chunk : LocalMediaChunk} (hid : ¬StartsWithMark chunk.requestId)
    (herror : ∀ error ∈ chunk.error, ¬StartsWithMark error)
    (hlength : (textEncode chunk.requestId).length ≤ 0xffff) :
    ∃ bytes, encodeLocalMediaChunkFrame chunk = some bytes ∧
      decodeLocalMediaChunkFrame bytes = some chunk.sent := by
  refine ⟨_,encode_eq_chunkFrame hlength,?_⟩
  rw [decode_of_isChunkFrame (isChunkFrame_chunkFrame hlength)]
  obtain ⟨hidBytes,hflags,hbody⟩ := @chunkFrame_parts _ 
    (if chunk.ok then chunk.data.getD [] else textEncode (chunk.error.getD ""))
    (if chunk.ok then lmcFlagOk else 0) hlength
  rw [hidBytes,hflags,hbody,chunkOfParts,textDecode_textEncode hid,LocalMediaChunk.sent]
  have herrorText : ¬StartsWithMark (chunk.error.getD "") := by
    cases hcase : chunk.error with
    | none => decide
    | some error => exact herror error hcase
  cases hok : chunk.ok with
  | true => rfl
  | false =>
    simp only [Bool.false_eq_true,if_false]
    rw [if_neg (by decide),textDecode_textEncode herrorText]

theorem encode_decode {bytes : List UInt8} {chunk : LocalMediaChunk}
    (h : decodeLocalMediaChunkFrame bytes = some chunk)
    (hflags : chunkFrameFlags bytes = 0 ∨ chunkFrameFlags bytes = 1)
    (hid : IsUnmarkedText (chunkFrameRequestId bytes))
    (herror : chunkFrameFlags bytes = 0 → IsUnmarkedText (chunkFrameBody bytes)) :
    encodeLocalMediaChunkFrame chunk = some bytes := by
  have hframe := isChunkFrame_of_decode h
  rw [decode_of_isChunkFrame hframe] at h
  obtain ⟨hlength,hparts⟩ := chunkFrame_of_parts hframe
  obtain ⟨requestId,hidBytes,hidMark⟩ := hid
  have hidText : textDecode (chunkFrameRequestId bytes) = requestId := by
    rw [← hidBytes,textDecode_textEncode hidMark]
  obtain rfl := Option.some.inj h
  rcases hflags with hzero | hone
  · obtain ⟨error,herrorBytes,herrorMark⟩ := herror hzero
    have herrorText : textDecode (chunkFrameBody bytes) = error := by
      rw [← herrorBytes,textDecode_textEncode herrorMark]
    rw [hzero,chunkOfParts,if_neg (by decide),hidText,herrorText,encode_eq_chunkFrame]
    · rw [hzero,← hidBytes,← herrorBytes] at hparts
      exact congrArg some hparts
    · rw [hidBytes]
      exact hlength
  · rw [hone,chunkOfParts,if_pos (by decide),hidText,encode_eq_chunkFrame]
    · rw [hone,← hidBytes] at hparts
      exact congrArg some hparts
    · rw [hidBytes]
      exact hlength

/-- A frame begins with a control character. -/
theorem not_json_of_decode {bytes : List UInt8} {chunk : LocalMediaChunk}
    (h : decodeLocalMediaChunkFrame bytes = some chunk) : ¬Json.Text (utf8Go none bytes) := by
  intro htext
  obtain ⟨-,hparts⟩ := chunkFrame_of_parts (isChunkFrame_of_decode h)
  rw [← hparts] at htext
  have hfirst : (1 : UInt8).toNat < 0x80 := by decide
  obtain ⟨c,rest,hchars,hc⟩ := htext.head
  have hbytes : ∃ tail, chunkFrame (chunkFrameRequestId bytes) (chunkFrameFlags bytes)
      (chunkFrameBody bytes) = 1 :: tail := ⟨_,rfl⟩
  obtain ⟨tail,htail⟩ := hbytes
  rw [htail,utf8Go_ascii hfirst] at hchars
  obtain ⟨rfl,-⟩ := List.cons.inj hchars
  rcases hc with hws | hc
  · exact absurd hws (by unfold Json.IsWs; decide)
  · exact absurd hc (by decide)

/-- The codec of chunk frames: both directions, reads within the frame, and no frame is JSON. -/
theorem chunk_frame_codec :
    (∀ chunk : LocalMediaChunk, ¬StartsWithMark chunk.requestId →
      (∀ error ∈ chunk.error, ¬StartsWithMark error) →
        (textEncode chunk.requestId).length ≤ 0xffff →
          ∃ bytes, encodeLocalMediaChunkFrame chunk = some bytes ∧
            decodeLocalMediaChunkFrame bytes = some chunk.sent) ∧
    (∀ bytes, readLocalMediaChunkFrame bytes = some (decodeLocalMediaChunkFrame bytes)) ∧
    (∀ bytes chunk, decodeLocalMediaChunkFrame bytes = some chunk →
      chunkFrameFlags bytes = 0 ∨ chunkFrameFlags bytes = 1 →
        IsUnmarkedText (chunkFrameRequestId bytes) →
          (chunkFrameFlags bytes = 0 → IsUnmarkedText (chunkFrameBody bytes)) →
            encodeLocalMediaChunkFrame chunk = some bytes) ∧
    ∀ bytes, Json.Text (utf8Go none bytes) → decodeLocalMediaChunkFrame bytes = none := by
  refine ⟨fun _ => decode_encode,readLocalMediaChunkFrame_eq,fun _ _ => encode_decode,?_⟩
  intro bytes htext
  cases hdecode : decodeLocalMediaChunkFrame bytes with
  | none => rfl
  | some chunk => exact absurd htext (not_json_of_decode hdecode)

/-- A chunk that failed and its frame, a frame of a byte, and a JSON text. -/
theorem chunk_frame_codec_of_a_byte :
    (∃ bytes, encodeLocalMediaChunkFrame ⟨"r",false,none,some "x"⟩ = some bytes ∧
      decodeLocalMediaChunkFrame bytes = some (LocalMediaChunk.sent ⟨"r",false,none,some "x"⟩)) ∧
    encodeLocalMediaChunkFrame ⟨"r",true,some [9],none⟩ =
      some [0x01,0x43,0x4d,0x4c,0x01,0x00,0x72,0x01,0x09] ∧
    decodeLocalMediaChunkFrame [0x74,0x72,0x75,0x65] = none := by
  refine ⟨chunk_frame_codec.1 _ (by decide) (by decide) (by decide),
    chunk_frame_codec.2.2.1 _ _ (by decide +kernel) (Or.inr (by decide +kernel))
      ⟨"r",by decide +kernel,by decide⟩ fun hzero => absurd hzero (by decide +kernel),
    chunk_frame_codec.2.2.2 _ ?_⟩
  have htext : utf8Go none [0x74,0x72,0x75,0x65] = [] ++ "true".toList ++ [] := by decide +kernel
  rw [htext]
  exact .mk nofun (.literal (by decide)) nofun

/-- A chunk that is ok leaves its error behind, and a request id that begins with a byte order mark
is decoded without it. -/
theorem mark_is_dropped :
    (¬∀ chunk : LocalMediaChunk, ¬StartsWithMark chunk.requestId →
      (∀ error ∈ chunk.error, ¬StartsWithMark error) →
        (textEncode chunk.requestId).length ≤ 0xffff →
          ∃ bytes decoded, encodeLocalMediaChunkFrame chunk = some bytes ∧
            decodeLocalMediaChunkFrame bytes = some decoded ∧
              decoded.requestId = chunk.requestId ∧ decoded.ok = chunk.ok ∧
                decoded.data.getD [] = chunk.data.getD [] ∧
                  decoded.error.getD "" = chunk.error.getD "") ∧
    ¬∀ bytes chunk, decodeLocalMediaChunkFrame bytes = some chunk →
      chunkFrameFlags bytes = 0 ∨ chunkFrameFlags bytes = 1 →
        (∃ s, textEncode s = chunkFrameRequestId bytes) →
          (chunkFrameFlags bytes = 0 → ∃ s, textEncode s = chunkFrameBody bytes) →
            encodeLocalMediaChunkFrame chunk = some bytes := by
  refine ⟨?_,?_⟩
  · intro h
    let chunk : LocalMediaChunk := ⟨"r",true,some [],some "x"⟩
    obtain ⟨bytes,decoded,hbytes,hdecoded,-,-,-,herror⟩ := h chunk (by decide) (by decide)
      (by decide)
    have hencode : encodeLocalMediaChunkFrame chunk =
        some [0x01,0x43,0x4d,0x4c,0x01,0x00,0x72,0x01] := by decide +kernel
    obtain rfl := Option.some.inj (hencode.symm.trans hbytes)
    have hdecode : decodeLocalMediaChunkFrame [0x01,0x43,0x4d,0x4c,0x01,0x00,0x72,0x01] =
        some ⟨"r",true,some [],none⟩ := by decide +kernel
    obtain rfl := Option.some.inj (hdecode.symm.trans hdecoded)
    exact absurd herror (by decide)
  · intro h
    let bytes : List UInt8 := [0x01,0x43,0x4d,0x4c,0x03,0x00,0xEF,0xBB,0xBF,0x01]
    have hdecode : decodeLocalMediaChunkFrame bytes = some ⟨"",true,some [],none⟩ := by
      decide +kernel
    have hencode := h bytes _ hdecode (Or.inr (by decide +kernel))
      ⟨"\uFEFF",by decide +kernel⟩ fun hzero => absurd hzero (by decide +kernel)
    exact absurd hencode (by decide +kernel)

end WebSyncPlay
