import WebSyncPlay.RangeRelay
import WebSyncPlay.Library.Double
import WebSyncPlay.Library.Text

/-! Ranges of a local file over HTTP (`shared/local-media/local-media-range.ts`,
`server/media/local-media-http.ts`, `local-media-access.ts`, `http/local-range.ts` and
`http/local-internal.ts`): the `Range` header, the answer, and what the body holds in the end. -/
namespace WebSyncPlay

open Library

section Header

structure RawBytesRange where
  start : ℕ
  stop : Option ℕ
  deriving DecidableEq

/-- `/^bytes=(\d+)-(\d+)?$/i.exec(text)` -/
def matchBytesRange (text : List Char) : Option (List Char × Option (List Char)) :=
  if (text.take 6).map Char.toLower = "bytes=".toList then
    match (text.drop 6).dropWhile Char.isDigit with
    | '-' :: last =>
      let first := (text.drop 6).takeWhile Char.isDigit
      if first = [] then none
      else if last = [] then some (first,none)
      else if last.all Char.isDigit then some (first,some last)
      else none
    | _ => none
  else none

/-- `Number.parseInt(digits, 10)`, if it is finite. -/
def parseFinite (digits : List Char) : Option ℕ :=
  if Nat.ofDigitChars 10 digits 0 < 2^1024-2^970 then
    some (toDouble (Nat.ofDigitChars 10 digits 0))
  else none

def parseRawBytesRangeHeader (rangeHeader : Option String) : Option RawBytesRange := do
  let groups ← matchBytesRange (trim (rangeHeader.getD "")).toList
  let start ← parseFinite groups.1
  match groups.2 with
  | none => some ⟨start,none⟩
  | some last => (parseFinite last).map fun stop => ⟨start,some stop⟩

inductive ResolvedBytesRange
  | invalid
  | range (start : ℕ) (stop : ℤ)
  deriving DecidableEq

def RawBytesRange.last (range : RawBytesRange) (totalLength : ℕ) : ℤ :=
  match range.stop with
  | some stop => stop
  | none => totalLength-1

def resolveBytesRangeAgainstLength (range : RawBytesRange) (totalLength : ℕ) :
    ResolvedBytesRange :=
  if range.last totalLength < range.start ∨ totalLength ≤ range.start then .invalid
  else .range range.start (min (range.last totalLength) (totalLength-1))

def parseLocalMediaRangeHeader (rangeHeader : Option String) (totalLength : ℕ) :
    Option ResolvedBytesRange :=
  (parseRawBytesRangeHeader rangeHeader).map fun raw =>
    resolveBytesRangeAgainstLength raw totalLength

/-- The header of a range, as `fetchChunkViaInternalHttp` and players write it. -/
def bytesRangeHeader (range : RawBytesRange) : String :=
  "bytes=" ++ toString range.start ++ "-" ++ (range.stop.map toString).getD ""

theorem parseFinite_toDigits {n : ℕ} (h : n ≤ 2^53) : parseFinite (Nat.toDigits 10 n) = some n := by
  have hfinite : n < 2^1024-2^970 := lt_of_le_of_lt h (by decide +kernel)
  rw [parseFinite,Nat.ofDigitChars_ten_toDigits,if_pos hfinite,toDouble_of_le h]

theorem isDigit_toDigits {n : ℕ} {c : Char} (h : c ∈ Nat.toDigits 10 n) : c.isDigit = true :=
  Nat.isDigit_of_mem_toDigits (by decide) (by decide) h

theorem toDigits_ne_nil (n : ℕ) : Nat.toDigits 10 n ≠ [] :=
  List.length_pos_iff.mp Nat.length_toDigits_pos

theorem toList_bytesRangeHeader (range : RawBytesRange) : (bytesRangeHeader range).toList =
    "bytes=".toList ++ (Nat.toDigits 10 range.start ++
      '-' :: (range.stop.map (Nat.toDigits 10)).getD []) := by
  cases hstop : range.stop with
  | none => simp [bytesRangeHeader,hstop]
  | some stop => simp [bytesRangeHeader,hstop]

theorem matchBytesRange_header (range : RawBytesRange) :
    matchBytesRange (bytesRangeHeader range).toList =
      some (Nat.toDigits 10 range.start,range.stop.map (Nat.toDigits 10)) := by
  have hdigits : ∀ c ∈ Nat.toDigits 10 range.start, c.isDigit = true := fun c => isDigit_toDigits
  have htake : ∀ rest : List Char, ("bytes=".toList ++ rest).take 6 = "bytes=".toList :=
    fun rest => rfl
  have hdrop : ∀ rest : List Char, ("bytes=".toList ++ rest).drop 6 = rest := fun rest => rfl
  have hlower : "bytes=".toList.map Char.toLower = "bytes=".toList := by decide
  rw [toList_bytesRangeHeader,matchBytesRange,htake,hdrop,if_pos hlower,
    List.dropWhile_append_of_pos hdigits,List.takeWhile_append_of_pos hdigits]
  cases hstop : range.stop with
  | none => simp [Char.isDigit]
  | some stop =>
    have hall : ∀ c ∈ Nat.toDigits 10 stop, c.isDigit = true := fun c => isDigit_toDigits
    have hdash : Char.isDigit '-' = false := by decide
    simp only [Option.map_some,Option.getD_some,List.dropWhile_cons,List.takeWhile_cons,hdash]
    simpa using hall

theorem trim_bytesRangeHeader (range : RawBytesRange) :
    trim (bytesRangeHeader range) = bytesRangeHeader range := by
  have htext := toList_bytesRangeHeader range
  have hend : ∃ (init : List Char) (d : Char), (bytesRangeHeader range).toList = init ++ [d] ∧
      (d = '-' ∨ d.isDigit = true) := by
    cases hstop : range.stop with
    | none =>
      rw [hstop] at htext
      exact ⟨"bytes=".toList ++ Nat.toDigits 10 range.start,'-',by simp [htext],.inl rfl⟩
    | some stop =>
      rw [hstop] at htext
      have hlast := List.dropLast_append_getLast (toDigits_ne_nil stop)
      refine ⟨"bytes=".toList ++ (Nat.toDigits 10 range.start ++
          '-' :: (Nat.toDigits 10 stop).dropLast),(Nat.toDigits 10 stop).getLast (toDigits_ne_nil stop),
        ?_,.inr (isDigit_toDigits (List.getLast_mem _))⟩
      rw [htext,Option.map_some,Option.getD_some]
      conv_lhs => rw [← hlast]
      simp
  obtain ⟨init,d,hinit,hd⟩ := hend
  have hdark : isWhiteSpace d = false := by
    rcases hd with rfl | hdigit
    · decide
    · simp only [Char.isDigit,Bool.and_eq_true,decide_eq_true_eq] at hdigit
      have hlow : 48 ≤ d.toNat := hdigit.1
      have hhigh : d.toNat ≤ 57 := hdigit.2
      simp only [isWhiteSpace]
      simp only [Bool.or_eq_false_iff,Bool.and_eq_false_iff,decide_eq_false_iff_not,beq_eq_false_iff_ne]
      omega
  exact trim_eq_self (c := 'b') (by decide) hdark htext hinit

/-- What is written as a header is read back. -/
theorem parse_bytesRangeHeader (range : RawBytesRange) (hstart : range.start ≤ 2^53)
    (hstop : ∀ stop ∈ range.stop, stop ≤ 2^53) :
    parseRawBytesRangeHeader (some (bytesRangeHeader range)) = some range := by
  simp only [parseRawBytesRangeHeader,Option.getD_some,trim_bytesRangeHeader,
    matchBytesRange_header,Option.bind_eq_bind,Option.bind_some,parseFinite_toDigits hstart]
  obtain ⟨start,stop⟩ := range
  cases stop with
  | none => rfl
  | some stop => simp only [Option.map_some,parseFinite_toDigits (hstop stop rfl)]

theorem range_of_resolved {range : RawBytesRange} {totalLength start : ℕ} {stop : ℤ}
    (h : resolveBytesRangeAgainstLength range totalLength = .range start stop) :
    start = range.start ∧ stop = min (range.last totalLength) (totalLength-1) ∧
      (start : ℤ) ≤ stop ∧ stop < totalLength := by
  unfold resolveBytesRangeAgainstLength at h
  split at h
  · cases h
  · rename_i hvalid
    cases h
    exact ⟨rfl,rfl,by omega,by omega⟩

end Header

section Response

def httpStatusForLocalMediaError : LocalMediaErrorCode → ℕ
  | .notFound => 404
  | .viewerCapabilityDenied => 403
  | .invalidRange => 416
  | .ownerOffline | .providerTimeout | .providerUnavailable | .providerReadFailed
  | .relayFailed => 503

deriving instance DecidableEq for ByteStreamRequest

inductive MediaBody
  | empty
  | error (code : LocalMediaErrorCode)
  | text (message : String)
  | stream (request : ByteStreamRequest)
  | whole (bytes : List UInt8)
  deriving DecidableEq

structure MediaResponse where
  status : ℕ
  headers : List (String × String) := []
  body : MediaBody := .empty

def MediaResponse.header (response : MediaResponse) (name : String) : Option String :=
  response.headers.lookup name

def localMediaJsonError (code : LocalMediaErrorCode) : MediaResponse :=
  { status := httpStatusForLocalMediaError code, body := .error code }

def localMediaInvalidRangeResponse (sizeBytes : ℕ) : MediaResponse where
  status := 416
  headers := [("content-range","bytes */" ++ toString sizeBytes),
    ("x-local-media-code","invalid_range")]

inductive RangeMethod
  | get | head
  deriving DecidableEq

structure ServedEntry where
  sizeBytes : ℕ
  mimeType : String
  providerReady : Bool := true
  abrParentId : Option String := none

def contentRange (start : ℕ) (stop : ℤ) (sizeBytes : ℕ) : String :=
  "bytes " ++ toString start ++ "-" ++ toString stop ++ "/" ++ toString sizeBytes

def createLocalMediaRangeHttpResponse (entry : ServedEntry)
    (rangeInfo : Option ResolvedBytesRange) (method : RangeMethod) (cacheControl : String) :
    MediaResponse :=
  let headers := [("content-type",entry.mimeType),("accept-ranges","bytes"),
    ("cache-control",cacheControl)]
  let body (start : ℕ) (stop : ℤ) : MediaBody := match method with
    | .head => .empty
    | .get => .stream ⟨entry.sizeBytes,start,stop⟩
  match rangeInfo with
  | some .invalid => localMediaInvalidRangeResponse entry.sizeBytes
  | some (.range start stop) =>
    { status := 206
      headers := headers ++ [("content-length",toString (stop-start+1)),
        ("content-range",contentRange start stop entry.sizeBytes)]
      body := body start stop }
  | none =>
    { status := 200
      headers := headers ++ [("content-length",toString entry.sizeBytes)]
      body := body 0 (entry.sizeBytes-1) }

/-- `resolveServeableLocalMedia`, with the entry, whether the capability of the viewer is valid and
whether the owner is online as they are read. -/
def resolveServeableLocalMedia (entry : Option ServedEntry) (rejectAbrChild : Bool)
    (token userId : String) (capabilityOk ownerOnline : Bool) :
    Except LocalMediaErrorCode ServedEntry :=
  match entry with
  | none => .error .notFound
  | some entry =>
    if rejectAbrChild && entry.abrParentId.getD "" != "" then .error .notFound
    else if trim token = "" ∨ trim userId = "" then .error .viewerCapabilityDenied
    else if !capabilityOk then .error .viewerCapabilityDenied
    else if !ownerOnline then .error .ownerOffline
    else if !entry.providerReady then .error .providerUnavailable
    else .ok entry

/-- `handleLocalMediaRange` behind the access check. -/
def handleLocalMediaRange (access : Except LocalMediaErrorCode ServedEntry)
    (rangeHeader : Option String) (method : RangeMethod) : MediaResponse :=
  match access with
  | .error code => localMediaJsonError code
  | .ok entry => createLocalMediaRangeHttpResponse entry
      (parseLocalMediaRangeHeader rangeHeader entry.sizeBytes) method "private, max-age=15"

/-- The configured secret and the one that a request brings are the same text. -/
def authorizeInternal (expected provided : Option String) : Bool :=
  let expected := trim (expected.getD "")
  let provided := trim (provided.getD "")
  expected != "" && provided != "" && provided == expected

def handleLocalMediaInternalRange (expected provided : Option String)
    (entry : Option ServedEntry) (rangeHeader : Option String) (method : RangeMethod) :
    MediaResponse :=
  if !authorizeInternal expected provided then { status := 403 }
  else
    match entry with
    | none => localMediaJsonError .notFound
    | some entry =>
      if !entry.providerReady then localMediaJsonError .providerUnavailable
      else createLocalMediaRangeHttpResponse entry
        (parseLocalMediaRangeHeader rangeHeader entry.sizeBytes) method "private, no-store"

end Response

section Body

variable {r : ByteStreamRequest} {file : List UInt8} {s s' : ByteStream} {event : StreamEvent}

open ByteStreamRequest

/-- What a stream has sent, in whatever way it ended, is the file's from the start on. -/
def Sent (r : ByteStreamRequest) (file : List UInt8) (s : ByteStream) : Prop :=
  ∃ upTo : ℤ, (r.start : ℤ) ≤ upTo ∧ upTo ≤ max (r.start : ℤ) (r.last+1) ∧
    s.output = subarray file r.start upTo

theorem Sent.of_copied (h : r.Copied file s) (hrunning : s.status = .running) : Sent r file s :=
  ⟨s.offset,h.1 hrunning⟩

theorem Sent.step (hfile : file.length = r.sizeBytes) (hs : r.Copied file s)
    (h : r.streamStep s event = some s') (hblock : r.FromFile file s event) :
    r.Copied file s' ∧ Sent r file s' := by
  have hcopied := hs.step hfile h hblock
  obtain ⟨hrunning,⟨-,hout,-⟩ | ⟨hgoes,-⟩⟩ := streamStep_cases h
  · obtain ⟨upTo,hfrom,hle,heq⟩ := Sent.of_copied hs hrunning
    exact ⟨hcopied,upTo,hfrom,hle,hout.trans heq⟩
  · exact ⟨hcopied,.of_copied hcopied hgoes⟩

theorem copied_start (r : ByteStreamRequest) (file : List UInt8) :
    r.Copied file r.createLocalMediaByteStream := by
  refine ⟨fun _ => ⟨le_rfl,le_max_left _ _,?_⟩,fun hclosed => by cases hclosed⟩
  exact (subarray_eq_nil file le_rfl).symm

/-- Any run over blocks of the file: what came out, and all of the range if it was closed. -/
theorem body_of_run (file : List UInt8) (hfile : file.length = r.sizeBytes) {events : List StreamEvent}
    (hblocks : EachStep r.streamStep (fun s event _ => r.FromFile file s event)
      r.createLocalMediaByteStream events)
    (hrun : TransitionSystem.runSteps r.streamStep r.createLocalMediaByteStream events = some s) :
    Sent r file s ∧ (s.status = .closed → s.output = readLocalMediaRange file r.start r.last) := by
  have hcopied := copied_start r file
  have hall := hblocks.invariant (fun s => r.Copied file s ∧ Sent r file s)
    (fun _ _ _ hs hstep hblock => Sent.step hfile hs.1 hstep hblock)
    ⟨hcopied,.of_copied hcopied rfl⟩ hrun
  exact ⟨hall.2,hall.1.2⟩

theorem subarray_prefix (bytes : List UInt8) {a b c : ℤ} (ha : 0 ≤ a) (hb : a ≤ b) (hc : b ≤ c) :
    subarray bytes a b <+: subarray bytes a c :=
  ⟨subarray bytes b c,subarray_append bytes ha hb hc⟩

theorem Sent.prefix_of (h : Sent r file s) :
    s.output <+: readLocalMediaRange file r.start r.last := by
  obtain ⟨upTo,hfrom,hle,heq⟩ := h
  rw [heq,readLocalMediaRange]
  by_cases hrange : upTo ≤ r.last+1
  · exact subarray_prefix file (by omega) hfrom hrange
  · rw [subarray_eq_nil file (show upTo ≤ r.start by omega)]
    exact List.nil_prefix

theorem length_readLocalMediaRange (file : List UInt8) (start : ℕ) (stop : ℤ)
    (hstart : (start : ℤ) ≤ stop+1) (hstop : stop < file.length) :
    ((readLocalMediaRange file start stop).length : ℤ) = stop-start+1 := by
  rw [readLocalMediaRange,subarray_length file (by omega)]
  omega

end Body

section Fits

variable {file : List UInt8} {entry : ServedEntry} {response : MediaResponse}

/-- The length that is announced is the length of the range, and the body, as far as it gets, is
the range. -/
structure BodyFits (file : List UInt8) (response : MediaResponse) (start : ℕ) (stop : ℤ) :
    Prop where
  length : response.header "content-length" =
    some (toString ((readLocalMediaRange file start stop).length : ℤ))
  body : ∃ r, response.body = .stream r ∧ ∀ events s,
    EachStep r.streamStep (fun s event _ => r.FromFile file s event) r.createLocalMediaByteStream
      events →
    TransitionSystem.runSteps r.streamStep r.createLocalMediaByteStream events = some s →
      s.output <+: readLocalMediaRange file start stop ∧
      (s.status = .closed → s.output = readLocalMediaRange file start stop)

theorem bodyFits_of_stream {start : ℕ} {stop : ℤ} (hstart : (start : ℤ) ≤ stop+1)
    (hstop : stop < file.length)
    (hlength : response.header "content-length" = some (toString (stop-start+1)))
    (hbody : response.body = .stream ⟨file.length,start,stop⟩) :
    BodyFits file response start stop where
  length := by rw [hlength,length_readLocalMediaRange file start stop hstart hstop]
  body := by
    refine ⟨⟨file.length,start,stop⟩,hbody,fun events s hblocks hrun => ?_⟩
    have hlast : ByteStreamRequest.last ⟨file.length,start,stop⟩ = stop := by
      simp only [ByteStreamRequest.last]
      omega
    obtain ⟨hsent,hclosed⟩ := body_of_run file rfl hblocks hrun
    have hpart := hsent.prefix_of
    rw [hlast] at hpart hclosed
    exact ⟨hpart,hclosed⟩

theorem refused_range (hsize : entry.sizeBytes = file.length) {rangeHeader : Option String}
    {raw : RawBytesRange} (hraw : parseRawBytesRangeHeader rangeHeader = some raw)
    (hout : raw.last file.length < raw.start ∨ file.length ≤ raw.start) (method : RangeMethod)
    (cacheControl : String) :
    createLocalMediaRangeHttpResponse entry
      (parseLocalMediaRangeHeader rangeHeader entry.sizeBytes) method cacheControl =
        localMediaInvalidRangeResponse file.length := by
  have hresolved : resolveBytesRangeAgainstLength raw file.length = .invalid := if_pos hout
  rw [parseLocalMediaRangeHeader,hraw,hsize,Option.map_some,hresolved,
    createLocalMediaRangeHttpResponse,hsize]

theorem partial_range (hsize : entry.sizeBytes = file.length) {rangeHeader : Option String}
    {raw : RawBytesRange} (hraw : parseRawBytesRangeHeader rangeHeader = some raw)
    (hin : ¬(raw.last file.length < raw.start ∨ file.length ≤ raw.start)) (cacheControl : String) :
    ∃ response stop, createLocalMediaRangeHttpResponse entry
        (parseLocalMediaRangeHeader rangeHeader entry.sizeBytes) .get cacheControl = response ∧
      stop = min (raw.last file.length) (file.length-1) ∧ response.status = 206 ∧
      response.header "content-range" = some (contentRange raw.start stop file.length) ∧
      BodyFits file response raw.start stop := by
  have hresolved : resolveBytesRangeAgainstLength raw file.length =
    .range raw.start (min (raw.last file.length) (file.length-1)) := if_neg hin
  obtain ⟨-,-,hle,hlt⟩ := range_of_resolved hresolved
  have hinfo : parseLocalMediaRangeHeader rangeHeader entry.sizeBytes =
      some (.range raw.start (min (raw.last file.length) (file.length-1))) := by
    rw [parseLocalMediaRangeHeader,hraw,hsize,Option.map_some,hresolved]
  refine ⟨_,_,rfl,rfl,?_⟩
  rw [hinfo]
  refine ⟨rfl,?_,bodyFits_of_stream (by omega) hlt rfl ?_⟩
  · rw [← hsize]
    rfl
  · rw [← hsize]
    rfl

theorem whole_file (hsize : entry.sizeBytes = file.length) {rangeHeader : Option String}
    (hraw : parseRawBytesRangeHeader rangeHeader = none) (cacheControl : String) :
    ∃ response, createLocalMediaRangeHttpResponse entry
        (parseLocalMediaRangeHeader rangeHeader entry.sizeBytes) .get cacheControl = response ∧
      response.status = 200 ∧ response.header "content-range" = none ∧
      BodyFits file response 0 (file.length-1) := by
  have hinfo : parseLocalMediaRangeHeader rangeHeader entry.sizeBytes = none := by
    rw [parseLocalMediaRangeHeader,hraw,Option.map_none]
  refine ⟨_,rfl,?_⟩
  rw [hinfo]
  refine ⟨rfl,rfl,bodyFits_of_stream (by omega) (by omega) ?_ ?_⟩
  · have hlength : ((file.length : ℤ)-1-(0 : ℕ)+1) = (entry.sizeBytes : ℤ) := by omega
    rw [hlength]
    rfl
  · rw [← hsize]
    rfl

end Fits

/-- Whatever the `Range` header, the answer to a `GET` says what its body is: a range that the file
does not have is refused with the size of the file, any other range comes back as the part of it
that the file has, and a header that is no range brings the whole file; the length that is announced
is that of the bytes, which are the file's however the stream is cut off. A `HEAD` is answered in
the same words without the body. What one node asks of another is read back as it was written. -/
theorem range_http (file : List UInt8) (entry : ServedEntry) (hsize : entry.sizeBytes = file.length)
    (cacheControl : String) :
    (∀ rangeHeader raw, parseRawBytesRangeHeader rangeHeader = some raw →
      raw.last file.length < raw.start ∨ file.length ≤ raw.start → ∀ method,
        createLocalMediaRangeHttpResponse entry
          (parseLocalMediaRangeHeader rangeHeader entry.sizeBytes) method cacheControl =
            localMediaInvalidRangeResponse file.length) ∧
    (∀ rangeHeader raw, parseRawBytesRangeHeader rangeHeader = some raw →
      ¬(raw.last file.length < raw.start ∨ file.length ≤ raw.start) →
        ∃ response stop, createLocalMediaRangeHttpResponse entry
            (parseLocalMediaRangeHeader rangeHeader entry.sizeBytes) .get cacheControl = response ∧
          stop = min (raw.last file.length) (file.length-1) ∧ response.status = 206 ∧
          response.header "content-range" = some (contentRange raw.start stop file.length) ∧
          BodyFits file response raw.start stop) ∧
    (∀ rangeHeader, parseRawBytesRangeHeader rangeHeader = none →
      ∃ response, createLocalMediaRangeHttpResponse entry
          (parseLocalMediaRangeHeader rangeHeader entry.sizeBytes) .get cacheControl = response ∧
        response.status = 200 ∧ response.header "content-range" = none ∧
        BodyFits file response 0 (file.length-1)) ∧
    (∀ rangeInfo, createLocalMediaRangeHttpResponse entry rangeInfo .head cacheControl =
      { createLocalMediaRangeHttpResponse entry rangeInfo .get cacheControl with body := .empty }) ∧
    ∀ secret : String, trim secret ≠ "" → entry.providerReady = true → file.length ≤ 2^53 →
      ∀ start stop : ℕ, start ≤ stop → stop < file.length → ∃ response,
        handleLocalMediaInternalRange (some secret) (some (trim secret)) (some entry)
          (some (bytesRangeHeader ⟨start,some stop⟩)) .get = response ∧
        response.status = 206 ∧ BodyFits file response start stop := by
  refine ⟨fun rangeHeader raw hraw hout method => refused_range hsize hraw hout method cacheControl,
    fun rangeHeader raw hraw hin => partial_range hsize hraw hin cacheControl,
    fun rangeHeader hraw => whole_file hsize hraw cacheControl,fun rangeInfo => ?_,
    fun secret hsecret hready hdouble start stop hle hlt => ?_⟩
  · cases rangeInfo with
    | none => rfl
    | some info =>
      cases info with
      | invalid => rfl
      | range start stop => rfl
  · have hraw := parse_bytesRangeHeader ⟨start,some stop⟩
      (show start ≤ 2^53 by omega) (by rintro _ ⟨⟩; omega)
    have hlast : RawBytesRange.last ⟨start,some stop⟩ file.length = stop := rfl
    obtain ⟨response,last,hresponse,hstop,hstatus,-,hfits⟩ :=
      partial_range hsize hraw (by rw [hlast]; dsimp only; omega) "private, no-store"
    have hlast : last = stop := by rw [hstop,hlast]; omega
    rw [hlast] at hfits
    refine ⟨response,?_,hstatus,hfits⟩
    have hauthorized : authorizeInternal (some secret) (some (trim secret)) = true := by
      simp [authorizeInternal,hsecret]
    simp [handleLocalMediaInternalRange,hauthorized,hready,hresponse]

/-- A range behind the end, an open range, no range, and a range that another node asks for. -/
theorem range_http_of_three_bytes : ∃ entry : ServedEntry, entry.sizeBytes = 3 ∧
    createLocalMediaRangeHttpResponse entry
      (parseLocalMediaRangeHeader (some "bytes=3-") entry.sizeBytes) .get "" =
        localMediaInvalidRangeResponse 3 ∧
    (∃ response stop, createLocalMediaRangeHttpResponse entry
        (parseLocalMediaRangeHeader (some "bytes=1-") entry.sizeBytes) .get "" = response ∧
      response.status = 206 ∧ BodyFits [7,8,9] response 1 stop) ∧
    (∃ response, createLocalMediaRangeHttpResponse entry
        (parseLocalMediaRangeHeader none entry.sizeBytes) .get "" = response ∧
      response.status = 200 ∧ BodyFits [7,8,9] response 0 2) ∧
    ∃ response, handleLocalMediaInternalRange (some "swordfish") (some (trim "swordfish"))
        (some entry) (some (bytesRangeHeader ⟨1,some 2⟩)) .get = response ∧
      response.status = 206 ∧ BodyFits [7,8,9] response 1 2 := by
  obtain ⟨hrefused,hpart,hwhole,-,hinternal⟩ :=
    range_http [7,8,9] ⟨3,"video/mp4",true,none⟩ rfl ""
  refine ⟨⟨3,"video/mp4",true,none⟩,rfl,?_,?_,?_,?_⟩
  · exact hrefused (some "bytes=3-") ⟨3,none⟩ (by decide +kernel) (by decide) .get
  · obtain ⟨response,stop,hresponse,-,hstatus,-,hfits⟩ :=
      hpart (some "bytes=1-") ⟨1,none⟩ (by decide +kernel) (by decide)
    exact ⟨response,stop,hresponse,hstatus,hfits⟩
  · obtain ⟨response,hresponse,hstatus,-,hfits⟩ := hwhole none rfl
    exact ⟨response,hresponse,hstatus,hfits⟩
  · exact hinternal "swordfish" (by decide) rfl (by decide) 1 2 (by decide) (by decide)

end WebSyncPlay
