import WebSyncPlay.RangeHttp
import WebSyncPlay.SfuBlocks
import WebSyncPlay.P2pBlocks

/-! How a tab that plays a local file gets its bytes (`sw/local-media-sw.ts`,
`client/local-media/local-media-sw.ts` and `local-media-sfu-transitions.ts`): the service worker
asks the page, which has the file or a channel to a tab that has it, and else the server. -/
namespace WebSyncPlay

open Library TransitionSystem

section Modes

inductive LocalMediaDeliveryMode
  | sfu | p2p | http
  deriving DecidableEq

structure LocalMediaDeliveryAttempt where
  mode : LocalMediaDeliveryMode
  ready : Bool
  deriving DecidableEq

def planLocalMediaDeliveryAttempts (sfuAvailable sfuViewerReady : Bool)
    (providerUserId : Option UserId) : List LocalMediaDeliveryAttempt :=
  (if sfuAvailable then [⟨.sfu,sfuViewerReady⟩] else []) ++
    (if providerUserId.getD "" = "" then [] else [⟨.p2p,true⟩]) ++ [⟨.http,true⟩]

def pickFirstReadyDeliveryMode (attempts : List LocalMediaDeliveryAttempt) :
    Option LocalMediaDeliveryMode :=
  (attempts.find? (·.ready)).map (·.mode)

def nextDeliveryModeAfterFailure (attempts : List LocalMediaDeliveryAttempt)
    (failed : LocalMediaDeliveryMode) : Option LocalMediaDeliveryMode :=
  match attempts.findIdx? (fun a => a.mode = failed) with
  | none => pickFirstReadyDeliveryMode attempts
  | some i => pickFirstReadyDeliveryMode (attempts.drop (i+1))

/-- The loop of the bridge: one mode after the other, until one has the bytes. -/
def fetchByModes (attempts : List LocalMediaDeliveryAttempt)
    (via : LocalMediaDeliveryMode → Option (List UInt8)) :
    ℕ → Option LocalMediaDeliveryMode → Option (LocalMediaDeliveryMode × List UInt8)
  | 0,_ | _,none | _,some .http => none
  | n+1,some mode =>
    match via mode with
    | some bytes => some (mode,bytes)
    | none => fetchByModes attempts via n (nextDeliveryModeAfterFailure attempts mode)

variable {attempts : List LocalMediaDeliveryAttempt}
  {via : LocalMediaDeliveryMode → Option (List UInt8)}

theorem findIdx?_mode {before rest : List LocalMediaDeliveryAttempt}
    {a : LocalMediaDeliveryAttempt}
    (hnodup : ((before ++ a :: rest).map (·.mode)).Nodup) :
    (before ++ a :: rest).findIdx? (fun b => b.mode = a.mode) = some before.length := by
  induction before with
  | nil => simp [List.findIdx?_cons]
  | cons b before ih =>
    rw [List.cons_append,List.map_cons,List.nodup_cons] at hnodup
    have hne : b.mode ≠ a.mode := by
      intro heq
      exact hnodup.1 (List.mem_map.mpr ⟨a,by simp,heq.symm⟩)
    simp [List.findIdx?_cons,hne,ih hnodup.2]

/-- Each ready mode is tried once, in the order of the plan, until one has the bytes. -/
theorem fetchByModes_suffix (hnodup : (attempts.map (·.mode)).Nodup)
    (hhttp : ∀ a ∈ attempts, a.mode ≠ .http) (rest : List LocalMediaDeliveryAttempt) :
    ∀ before n, attempts = before ++ rest → rest.length ≤ n →
      fetchByModes attempts via n (pickFirstReadyDeliveryMode rest) =
        (rest.filter (·.ready)).findSome? fun a => (via a.mode).map (a.mode,·) := by
  induction rest with
  | nil =>
    intro before n _ _
    cases n with
    | zero => rfl
    | succ n => rfl
  | cons a rest ih =>
    intro before n hsplit hn
    have hsplit' : attempts = (before ++ [a]) ++ rest := by simpa using hsplit
    cases hready : a.ready with
    | false =>
      have hpick : pickFirstReadyDeliveryMode (a :: rest) = pickFirstReadyDeliveryMode rest := by
        simp [pickFirstReadyDeliveryMode,hready]
      have hfilter : (a :: rest).filter (·.ready) = rest.filter (·.ready) := by simp [hready]
      rw [hpick,hfilter]
      exact ih _ n hsplit' ((Nat.le_succ _).trans hn)
    | true =>
      have hpick : pickFirstReadyDeliveryMode (a :: rest) = some a.mode := by
        simp [pickFirstReadyDeliveryMode,hready]
      have hfilter : (a :: rest).filter (·.ready) = a :: rest.filter (·.ready) := by simp [hready]
      have hmode : a.mode ≠ .http := hhttp a (by simp [hsplit])
      obtain ⟨n,rfl⟩ := Nat.exists_eq_succ_of_ne_zero (show n ≠ 0 by simp at hn; omega)
      have hnext : nextDeliveryModeAfterFailure attempts a.mode =
          pickFirstReadyDeliveryMode rest := by
        have hindex := findIdx?_mode (hsplit ▸ hnodup)
        rw [← hsplit] at hindex
        rw [nextDeliveryModeAfterFailure,hindex]
        dsimp only
        rw [hsplit',List.drop_left' (by simp)]
      have hloop : fetchByModes attempts via (n+1) (some a.mode) =
          match via a.mode with
          | some bytes => some (a.mode,bytes)
          | none => fetchByModes attempts via n (nextDeliveryModeAfterFailure attempts a.mode) := by
        cases hcase : a.mode with
        | http => exact absurd hcase hmode
        | sfu => rfl
        | p2p => rfl
      rw [hpick,hfilter,hloop,List.findSome?_cons]
      cases via a.mode with
      | some bytes => rfl
      | none =>
        rw [hnext]
        exact ih _ n hsplit' (by simp at hn; omega)

/-- The number of attempts is fuel enough. -/
theorem fetchByModes_eq (hnodup : (attempts.map (·.mode)).Nodup)
    (hhttp : ∀ a ∈ attempts, a.mode ≠ .http) :
    fetchByModes attempts via attempts.length (pickFirstReadyDeliveryMode attempts) =
      (attempts.filter (·.ready)).findSome? fun a => (via a.mode).map (a.mode,·) :=
  fetchByModes_suffix hnodup hhttp attempts [] _ rfl le_rfl

end Modes

section Channels

variable {file : List UInt8} {start stop : ℕ} {bytes : List UInt8}

/-- What `readLocalMediaRange` gives for a range of whole bytes. -/
def IsSlice (file : List UInt8) (start stop : ℚ) (bytes : List UInt8) : Prop :=
  start.den = 1 → stop.den = 1 → bytes = readLocalMediaRange file start.num stop.num

instance (start stop : ℚ) : Decidable (IsSlice file start stop bytes) :=
  inferInstanceAs (Decidable (_ → _ → _))

theorem IsSlice.eq (h : IsSlice file start stop bytes) :
    bytes = readLocalMediaRange file start stop :=
  h (Rat.den_natCast start) (Rat.den_natCast stop)

/-- The provider of an SFU session reads the file. -/
def SfuReads (file : List UInt8) (s : SfuState) : SfuStep → Prop
  | .serve _ (.bytes bytes) =>
    ∀ request ∈ s.queue.head?, IsSlice file request.start request.stop bytes
  | _ => True

/-- The provider at the other end of a peer connection reads the file. -/
def P2pReads (file : List UInt8) (s : P2pState) : P2pStep → Prop
  | .serve i _ (.bytes bytes) _ _ =>
    ∀ request ∈ s.serving[i]?, IsSlice file request.start request.stop bytes
  | _ => True

instance (s : SfuState) (a : SfuStep) : Decidable (SfuReads file s a) :=
  match a with
  | .serve _ (.bytes bytes) => inferInstanceAs (Decidable (∀ request ∈ s.queue.head?,
      IsSlice file request.start request.stop bytes))
  | .serve _ .failed | .serve _ .timedOut | .ack _ | .fetch .. | .timeout .. | .drop _ | .arrive _
  | .loseRequest _ | .send _ | .deliver _ | .lose .. => isTrue trivial

instance (s : P2pState) (a : P2pStep) : Decidable (P2pReads file s a) :=
  match a with
  | .serve i _ (.bytes bytes) _ _ => inferInstanceAs (Decidable (∀ request ∈ s.serving[i]?,
      IsSlice file request.start request.stop bytes))
  | .serve _ _ .failed _ _ | .serve _ _ .timedOut _ _ | .fetch .. | .timeout _ | .receive
  | .deliver => isTrue trivial

/-- What a call for a range was settled with, in a run of the SFU. -/
def SfuAnswer (file : List UInt8) (start stop : ℕ) (bytes : List UInt8) : Prop :=
  ∃ s id v, (sfuSystem.restrict (SfuReads file)).Reachable s ∧
    s.calls id = some (v,(start : ℚ),(stop : ℚ)) ∧ some bytes ∈ s.settled id

/-- What a call for a range was settled with, in a run of the peer connection where no call waits,
older than the others, for bytes whose send threw. -/
def WebrtcAnswer (file : List UInt8) (start stop : ℕ) (bytes : List UInt8) : Prop :=
  ∃ s id, ((p2pSystem.restrict OldestServed).restrict (P2pReads file)).Reachable s ∧
    s.calls id = some ((start : ℚ),(stop : ℚ)) ∧ s.settled id = some (some bytes)

theorem sfu_reads_slices {s : SfuState} (h : (sfuSystem.restrict (SfuReads file)).Reachable s)
    (id : String) : ∀ read ∈ s.reads id, IsSlice file read.start read.stop read.bytes := by
  refine h.invariant
    (fun s => ∀ read ∈ s.reads id, IsSlice file read.start read.stop read.bytes) ?_ ?_
  · rintro s ⟨producerIds,rfl⟩ read hread
    cases hread
  · rintro s a s' - hold ⟨hguard,hstep⟩ read hread
    rcases sfu_reads_of_step hstep hread with hread | ⟨hasFile,bytes,rfl,request,hhead,rfl⟩
    · exact hold read hread
    · exact hguard request hhead

theorem p2p_reads_slices {s : P2pState}
    (h : ((p2pSystem.restrict OldestServed).restrict (P2pReads file)).Reachable s) (id : String) :
    ∀ read ∈ s.reads id, IsSlice file read.start read.stop read.bytes := by
  refine h.invariant
    (fun s => ∀ read ∈ s.reads id, IsSlice file read.start read.stop read.bytes) ?_ ?_
  · rintro s rfl read hread
    cases hread
  · rintro s a s' - hold ⟨hguard,-,hstep⟩ read hread
    rcases p2p_reads_of_step hstep hread with
      hread | ⟨i,hasFile,bytes,metaSent,bytesSent,rfl,request,hserving,rfl⟩
    · exact hold read hread
    · exact hguard request hserving

theorem SfuAnswer.eq (h : SfuAnswer file start stop bytes) :
    bytes = readLocalMediaRange file start stop := by
  obtain ⟨s,id,v,hreachable,hcall,hsettled⟩ := h
  obtain ⟨v',read,hcall',hread,rfl⟩ :=
    (sfuInvariant_reachable hreachable.of_restrict).resolved id bytes hsettled
  obtain ⟨-,hstart,hstop⟩ := by simpa using hcall.symm.trans hcall'
  have hslice := sfu_reads_slices hreachable id read (by simp [hread])
  rw [← hstart,← hstop] at hslice
  exact hslice.eq

theorem WebrtcAnswer.eq (h : WebrtcAnswer file start stop bytes) :
    bytes = readLocalMediaRange file start stop := by
  obtain ⟨s,id,hreachable,hcall,hsettled⟩ := h
  obtain ⟨hbase,-⟩ := p2p_reachable hreachable.of_restrict
  obtain ⟨read,hread,rfl⟩ := hbase.resolved id bytes hsettled
  have hslice := p2p_reads_slices hreachable id read (by simp [hread])
  rcases hbase.read id with hnil | ⟨read',hcall',hread'⟩
  · simp [hread] at hnil
  · obtain rfl : read = read' := by simpa using hread.symm.trans hread'
    obtain ⟨hstart,hstop⟩ := by simpa using hcall.symm.trans hcall'
    rw [← hstart,← hstop] at hslice
    exact hslice.eq

end Channels

section Worker

structure MediaMeta where
  mimeType : String
  sizeBytes : ℕ

inductive RangeSource
  | sfu | webrtc | provider
  deriving DecidableEq

def RangeSource.text : RangeSource → String
  | .sfu => "sfu"
  | .webrtc => "webrtc"
  | .provider => "local"

structure RangeResult where
  buffer : List UInt8
  mimeType : Option String
  totalSize : Option ℕ
  source : RangeSource

/-- What a page has for an item: the file, if it can be read, or channels with what comes over them
for a range. -/
structure BridgePage where
  file : Option (List UInt8) := none
  readable : Bool := true
  mediaMeta : Option MediaMeta := none
  sfuAvailable : Bool := false
  sfuViewerReady : Bool := false
  providerUserId : Option UserId := none
  channelOpen : Bool := false
  viaSfu : ℕ → ℕ → Option (List UInt8) := fun _ _ => none
  viaWebrtc : ℕ → ℕ → Option (List UInt8) := fun _ _ => none

namespace BridgePage

def attempts (page : BridgePage) : List LocalMediaDeliveryAttempt :=
  let p2pOpen := page.providerUserId.getD "" != "" && page.channelOpen
  (planLocalMediaDeliveryAttempts (page.sfuAvailable && page.sfuViewerReady) page.sfuViewerReady
    (if p2pOpen then page.providerUserId else none)).filter fun a => a.mode ≠ .http

def via (page : BridgePage) (start stop : ℕ) : LocalMediaDeliveryMode → Option (List UInt8)
  | .sfu => page.viaSfu start stop
  | .p2p => page.viaWebrtc start stop
  | .http => none

/-- The answer of `attachLocalMediaServiceWorkerBridge`, if it is not `ok: false`. -/
def answer (page : BridgePage) (start stop : ℕ) : Option RangeResult :=
  match page.file with
  | some file =>
    if page.readable then
      some { buffer := readLocalMediaRange file start stop
             mimeType := page.mediaMeta.map (·.mimeType)
             totalSize := some ((page.mediaMeta.map (·.sizeBytes)).getD file.length)
             source := .provider }
    else none
  | none =>
    (fetchByModes page.attempts (page.via start stop) page.attempts.length
      (pickFirstReadyDeliveryMode page.attempts)).map fun found =>
        { buffer := found.2
          mimeType := page.mediaMeta.map (·.mimeType)
          totalSize := page.mediaMeta.map (·.sizeBytes)
          source := if found.1 = .sfu then .sfu else .webrtc }

end BridgePage

structure SwFetch where
  bridgeReady : Bool
  page : Option BridgePage
  inTime : Bool
  access : Except LocalMediaErrorCode ServedEntry
  networkFails : Bool := false
  networkFailsAgain : Bool := false

/-- `askClientForRange`: nothing if the page is late. -/
def askClientForRange (page : BridgePage) (inTime : Bool) (start stop : ℕ) : Option RangeResult :=
  if inTime then
    (page.answer start stop).map fun result =>
      { result with
        mimeType := result.mimeType.filter (· != "")
        totalSize := result.totalSize.filter (0 < ·) }
  else none

def rangeResponse (result : RangeResult) (rangeStart : ℕ) : MediaResponse where
  status := 206
  headers := [("content-type",result.mimeType.getD "application/octet-stream"),
    ("accept-ranges","bytes"),("content-length",toString (result.buffer.length : ℤ)),
    ("content-range","bytes " ++ toString rangeStart ++ "-" ++
      toString ((rangeStart : ℤ)+result.buffer.length-1) ++ "/" ++
      (result.totalSize.map toString).getD "*"),
    ("cache-control","private, max-age=15"),("x-local-media-source",result.source.text)]
  body := .whole result.buffer

/-- `networkFetch`, once more if the first one fails. -/
def SwFetch.networkFetch (fetch : SwFetch) (rangeHeader : Option String) : MediaResponse :=
  if fetch.networkFails && fetch.networkFailsAgain then
    { status := 502, headers := [("content-type","text/plain")]
      body := .text "local-media service worker error" }
  else handleLocalMediaRange fetch.access rangeHeader .get

/-- The fetch listener of the worker, for the path of an item. -/
def SwFetch.respond (fetch : SwFetch) (rangeHeader : Option String) : MediaResponse :=
  match parseRawBytesRangeHeader rangeHeader with
  | none => fetch.networkFetch rangeHeader
  | some range =>
    let stop := range.stop.getD (range.start+LOCAL_MEDIA_MAX_BLOCK_BYTES-1)
    let result := if fetch.bridgeReady then
      fetch.page.bind fun page => askClientForRange page fetch.inTime range.start stop else none
    match result with
    | some result => rangeResponse result range.start
    | none => fetch.networkFetch rangeHeader

end Worker

section Delivered

variable {file : List UInt8} {page : BridgePage} {fetch : SwFetch} {start stop : ℕ}

/-- What a page has for a range of a file is the file's: the file itself, its size, or an answer of
a channel whose other end reads the file. -/
structure BridgePage.Of (page : BridgePage) (file : List UInt8) (start stop : ℕ) : Prop where
  held : ∀ held ∈ page.file, held = file
  size : ∀ known ∈ page.mediaMeta, known.sizeBytes = file.length
  sfu : ∀ bytes ∈ page.viaSfu start stop, SfuAnswer file start stop bytes
  webrtc : ∀ bytes ∈ page.viaWebrtc start stop, WebrtcAnswer file start stop bytes

theorem BridgePage.Of.via (hpage : page.Of file start stop) {mode : LocalMediaDeliveryMode}
    {bytes : List UInt8} (h : bytes ∈ page.via start stop mode) :
    bytes = readLocalMediaRange file start stop := by
  cases mode with
  | sfu => exact (hpage.sfu bytes h).eq
  | p2p => exact (hpage.webrtc bytes h).eq
  | http => cases h

theorem plan_nodup (sfuAvailable sfuViewerReady : Bool) (providerUserId : Option UserId) :
    ((planLocalMediaDeliveryAttempts sfuAvailable sfuViewerReady providerUserId).map
      (·.mode)).Nodup := by
  unfold planLocalMediaDeliveryAttempts
  by_cases hprovider : providerUserId.getD "" = "" <;> cases sfuAvailable <;> simp [hprovider]

theorem fetched_of_via {found : LocalMediaDeliveryMode × List UInt8}
    (h : fetchByModes page.attempts (page.via start stop) page.attempts.length
      (pickFirstReadyDeliveryMode page.attempts) = some found) :
    found.2 ∈ page.via start stop found.1 := by
  have hnodup : (page.attempts.map (·.mode)).Nodup :=
    (plan_nodup _ _ _).sublist (List.filter_sublist.map _)
  have hhttp : ∀ a ∈ page.attempts, a.mode ≠ .http := by
    intro a ha
    simpa using (List.mem_filter.mp ha).2
  rw [fetchByModes_eq hnodup hhttp] at h
  obtain ⟨a,-,ha⟩ := List.exists_of_findSome?_eq_some h
  obtain ⟨bytes,hbytes,hfound⟩ := Option.map_eq_some_iff.mp ha
  rw [← hfound]
  exact hbytes

theorem answer_of_file (hpage : page.Of file start stop) {result : RangeResult}
    (h : page.answer start stop = some result) :
    result.buffer = readLocalMediaRange file start stop ∧
      ∀ total ∈ result.totalSize, total = file.length := by
  unfold BridgePage.answer at h
  cases hheld : page.file with
  | some held =>
    obtain rfl := hpage.held held hheld
    simp only [hheld] at h
    split at h
    · cases h
      refine ⟨rfl,?_⟩
      rintro _ ⟨⟩
      cases hmeta : page.mediaMeta with
      | none => rfl
      | some known => exact hpage.size known hmeta
    · cases h
  | none =>
    simp only [hheld] at h
    obtain ⟨found,hfound,hresult⟩ := Option.map_eq_some_iff.mp h
    rw [← hresult]
    refine ⟨hpage.via (fetched_of_via hfound),fun total htotal => ?_⟩
    obtain ⟨known,hknown,rfl⟩ := Option.map_eq_some_iff.mp htotal
    exact hpage.size known hknown

theorem asked_of_file (hpage : page.Of file start stop) {inTime : Bool} {result : RangeResult}
    (h : askClientForRange page inTime start stop = some result) :
    result.buffer = readLocalMediaRange file start stop ∧
      ∀ total ∈ result.totalSize, total = file.length := by
  unfold askClientForRange at h
  split at h
  · obtain ⟨answer,hanswer,hresult⟩ := Option.map_eq_some_iff.mp h
    obtain ⟨hbuffer,htotal⟩ := answer_of_file hpage hanswer
    rw [← hresult]
    exact ⟨hbuffer,fun total ht => htotal total (Option.mem_filter_iff.mp ht).1⟩
  · cases h

/-- What has come of a body, and whether it is all. -/
def MediaBody.taken (events : List StreamEvent) : MediaBody → Option (List UInt8 × Bool)
  | .stream r =>
    (TransitionSystem.runSteps r.streamStep r.createLocalMediaByteStream events).map fun s =>
      (s.output,decide (s.status = .closed))
  | .whole bytes => some (bytes,true)
  | .empty | .error _ | .text _ => none

def MediaBody.Blocks (file : List UInt8) (events : List StreamEvent) (body : MediaBody) : Prop :=
  ∀ r, body = .stream r → EachStep r.streamStep (fun s event _ => r.FromFile file s event)
    r.createLocalMediaByteStream events

/-- A partial answer for a range that says what it holds, with the size of the file or a star. -/
structure PartFits (file : List UInt8) (response : MediaResponse) (start : ℕ) (last : ℤ) :
    Prop where
  status : response.status = 206
  within : (start : ℤ) ≤ last ∧ last < file.length
  range : ∃ total ∈ [toString file.length,"*"], response.header "content-range" =
    some ("bytes " ++ toString start ++ "-" ++ toString last ++ "/" ++ total)
  length : response.header "content-length" =
    some (toString ((readLocalMediaRange file start last).length : ℤ))
  body : ∀ events, response.body.Blocks file events → ∀ bytes whole,
    response.body.taken events = some (bytes,whole) →
      bytes <+: readLocalMediaRange file start last ∧
      (whole = true → bytes = readLocalMediaRange file start last)

theorem readLocalMediaRange_clamp (file : List UInt8) (start : ℕ) (stop : ℤ) :
    readLocalMediaRange file start stop =
      readLocalMediaRange file start (min stop (file.length-1)) := by
  by_cases hstop : stop ≤ file.length-1
  · rw [min_eq_left hstop]
  · rw [min_eq_right (by omega),readLocalMediaRange,readLocalMediaRange,subarray,subarray,
      List.take_of_length_le (by omega),List.take_of_length_le (by omega)]

theorem rangeResponse_fits {result : RangeResult} (hstart : start < file.length)
    (hstop : start ≤ stop) (hbuffer : result.buffer = readLocalMediaRange file start stop)
    (htotal : ∀ total ∈ result.totalSize, total = file.length) :
    PartFits file (rangeResponse result start) start (min stop (file.length-1)) := by
  rw [readLocalMediaRange_clamp] at hbuffer
  have hlength := length_readLocalMediaRange file start (min stop (file.length-1)) (by omega)
    (by omega)
  have hlast : (start : ℤ)+result.buffer.length-1 = min (stop : ℤ) (file.length-1) := by
    rw [hbuffer,hlength]
    omega
  refine ⟨rfl,by omega,⟨(result.totalSize.map toString).getD "*",?_,?_⟩,?_,?_⟩
  · cases hsize : result.totalSize with
    | none => simp
    | some total => simp [htotal total hsize]
  · rw [← hlast]
    rfl
  · rw [← hbuffer]
    rfl
  · rintro events - bytes whole ⟨⟩
    rw [hbuffer]
    exact ⟨List.prefix_rfl,fun _ => rfl⟩

theorem partFits_of_server {response : MediaResponse} {last : ℤ} (hstatus : response.status = 206)
    (hwithin : (start : ℤ) ≤ last ∧ last < file.length)
    (hrange : response.header "content-range" = some (contentRange start last file.length))
    (hfits : BodyFits file response start last) : PartFits file response start last where
  status := hstatus
  within := hwithin
  range := ⟨_,by simp,hrange⟩
  length := hfits.length
  body events hblocks bytes whole htaken := by
    obtain ⟨r,hbody,hruns⟩ := hfits.body
    rw [hbody] at htaken
    obtain ⟨s,hrun,heq⟩ := Option.map_eq_some_iff.mp htaken
    cases heq
    obtain ⟨hpart,hclosed⟩ := hruns events s (hblocks r hbody) hrun
    exact ⟨hpart,fun hwhole => hclosed (of_decide_eq_true hwhole)⟩

/-- The last byte that the worker asks the page for. -/
def askedStop (start : ℕ) (stop : Option ℕ) : ℕ := stop.getD (start+LOCAL_MEDIA_MAX_BLOCK_BYTES-1)

theorem server_fits {stop : Option ℕ} {entry : ServedEntry} (hsize : entry.sizeBytes = file.length)
    (hdouble : file.length ≤ 2^53) (hstart : start < file.length)
    (hstop : ∀ s ∈ stop, start ≤ s ∧ s ≤ 2^53) : ∃ last, PartFits file
      (handleLocalMediaRange (.ok entry) (some (bytesRangeHeader ⟨start,stop⟩)) .get) start last := by
  have hraw := parse_bytesRangeHeader ⟨start,stop⟩ (hstart.le.trans hdouble)
    fun s hs => (hstop s hs).2
  have hlast : (start : ℤ) ≤ RawBytesRange.last ⟨start,stop⟩ file.length := by
    cases stop with
    | none => simp only [RawBytesRange.last]; omega
    | some s =>
      have hle := (hstop s rfl).1
      simp only [RawBytesRange.last]
      omega
  have hin : ¬(RawBytesRange.last ⟨start,stop⟩ file.length < (start : ℤ) ∨
      file.length ≤ start) := by omega
  obtain ⟨response,last,hresponse,hclamp,hstatus,hrange,hfits⟩ :=
    partial_range hsize hraw hin "private, max-age=15"
  have hwithin : (start : ℤ) ≤ last ∧ last < file.length := by omega
  rw [handleLocalMediaRange,hresponse]
  exact ⟨last,partFits_of_server hstatus hwithin hrange hfits⟩

/-- Over whichever way, a part that the file has comes as it was asked for, unless the server
refuses it or cannot be reached. -/
theorem respond_fits {stop : Option ℕ} (hdouble : file.length ≤ 2^53)
    (hstart : start < file.length) (hstop : ∀ s ∈ stop, start ≤ s ∧ s ≤ 2^53)
    (hpage : ∀ page ∈ fetch.page, page.Of file start (askedStop start stop))
    (haccess : ∀ entry, fetch.access = .ok entry → entry.sizeBytes = file.length) :
    (∃ last, PartFits file (fetch.respond (some (bytesRangeHeader ⟨start,stop⟩))) start last) ∨
      (fetch.respond (some (bytesRangeHeader ⟨start,stop⟩))).status = 502 ∨
      ∃ code, fetch.access = .error code ∧
        fetch.respond (some (bytesRangeHeader ⟨start,stop⟩)) = localMediaJsonError code := by
  have hraw := parse_bytesRangeHeader ⟨start,stop⟩ (hstart.le.trans hdouble)
    fun s hs => (hstop s hs).2
  have hasked : start ≤ askedStop start stop := by
    cases stop with
    | none =>
      have hblock : 0 < LOCAL_MEDIA_MAX_BLOCK_BYTES := by decide
      rw [askedStop,Option.getD_none]
      omega
    | some s => exact (hstop s rfl).1
  rw [SwFetch.respond,hraw]
  dsimp only
  split
  · rename_i result hresult
    split at hresult
    · obtain ⟨page,hmem,hask⟩ := Option.bind_eq_some_iff.mp hresult
      obtain ⟨hbuffer,htotal⟩ := asked_of_file (hpage page hmem) hask
      exact .inl ⟨_,rangeResponse_fits hstart hasked hbuffer htotal⟩
    · cases hresult
  · unfold SwFetch.networkFetch
    split
    · exact .inr (.inl rfl)
    · cases hcode : fetch.access with
      | error code => exact .inr (.inr ⟨code,rfl,rfl⟩)
      | ok entry => exact .inl (server_fits (haccess entry hcode) hdouble hstart hstop)

end Delivered

section Reader

/-- A reader of a file, which has its start and asks for what comes next. -/
structure Reader where
  received : List UInt8 := []
  /-- Partial answers that came in whole. -/
  complete : ℕ := 0
  deriving DecidableEq

/-- A range that the reader asks for, what the worker meets, how a streamed body goes on, and how
much of the body the reader takes. -/
structure ReadAttempt where
  stop : Option ℕ := none
  fetch : SwFetch
  events : List StreamEvent := []
  cut : ℕ

namespace Reader

variable {file : List UInt8} {reader reader' : Reader} {a : ReadAttempt}

def response (reader : Reader) (a : ReadAttempt) : MediaResponse :=
  a.fetch.respond (some (bytesRangeHeader ⟨reader.received.length,a.stop⟩))

/-- The reader appends what it gets of a partial answer. -/
def step (reader : Reader) (a : ReadAttempt) : Option Reader :=
  if (reader.response a).status = 206 then
    ((reader.response a).body.taken a.events).map fun taken =>
      { received := reader.received ++ taken.1.take a.cut
        complete := if taken.2 ∧ taken.1.length ≤ a.cut then reader.complete+1
          else reader.complete }
  else some reader

/-- The reader lacks what it asks for, and the page, the blocks of the server and its entry are of
the file. -/
structure Asks (file : List UInt8) (reader : Reader) (a : ReadAttempt) : Prop where
  lacks : reader.received.length < file.length
  stop : ∀ s ∈ a.stop, reader.received.length ≤ s ∧ s ≤ 2^53
  page : ∀ page ∈ a.fetch.page, page.Of file reader.received.length
    (askedStop reader.received.length a.stop)
  access : ∀ entry, a.fetch.access = .ok entry → entry.sizeBytes = file.length
  blocks : (reader.response a).body.Blocks file a.events

def system (file : List UInt8) : TransitionSystem Reader ReadAttempt where
  init reader := reader = {}
  step reader a reader' := reader.Asks file a ∧ reader.step a = some reader'

/-- The reader has the start of the file, and a byte or more for each answer that came in whole. -/
structure Ok (file : List UInt8) (reader : Reader) : Prop where
  start : reader.received <+: file
  complete : reader.complete ≤ reader.received.length

theorem Asks.fits (hdouble : file.length ≤ 2^53) (hasks : reader.Asks file a) :
    (∃ last, PartFits file (reader.response a) reader.received.length last) ∨
      (reader.response a).status = 502 ∨
      ∃ code, a.fetch.access = .error code ∧ reader.response a = localMediaJsonError code := by
  unfold Reader.response
  exact respond_fits hdouble hasks.lacks hasks.stop hasks.page hasks.access

theorem take_append_of_prefix {bytes : List UInt8} {n : ℕ} {last : ℤ}
    (hbytes : bytes <+: readLocalMediaRange file n last) : file.take n ++ bytes <+: file := by
  obtain ⟨rest,hrest⟩ := hbytes
  rw [readLocalMediaRange,subarray,Int.toNat_natCast,List.drop_take] at hrest
  refine ⟨rest ++ (file.drop n).drop ((last+1).toNat-n),?_⟩
  rw [List.append_assoc,← List.append_assoc bytes,hrest,List.take_append_drop,
    List.take_append_drop]

theorem Ok.step (hdouble : file.length ≤ 2^53) (h : Ok file reader) (hasks : reader.Asks file a)
    (hstep : reader.step a = some reader') : Ok file reader' := by
  unfold Reader.step at hstep
  split at hstep
  · rename_i hstatus
    obtain ⟨taken,htaken,heq⟩ := Option.map_eq_some_iff.mp hstep
    rcases hasks.fits hdouble with ⟨last,hfits⟩ | hlost | ⟨code,-,hcode⟩
    · obtain ⟨hpart,hwhole⟩ := hfits.body a.events hasks.blocks taken.1 taken.2 htaken
      have hreceived : reader.received = file.take reader.received.length :=
        List.prefix_iff_eq_take.mp h.start
      rw [← heq]
      refine ⟨?_,?_⟩
      · have hcut := (List.take_prefix a.cut taken.1).trans hpart
        have hstart := take_append_of_prefix hcut
        rw [← hreceived] at hstart
        exact hstart
      · have hold := h.complete
        dsimp only
        rw [List.length_append]
        split
        · rename_i hall
          have hlength := length_readLocalMediaRange file reader.received.length last
            (by have := hfits.within; omega) hfits.within.2
          rw [hwhole hall.1] at hall ⊢
          rw [List.length_take]
          have := hfits.within.1
          omega
        · omega
    · rw [hlost] at hstatus
      cases hstatus
    · rw [hcode] at hstatus
      cases code <;> cases hstatus
  · cases hstep
    exact h

theorem ok_of_reachable (hdouble : file.length ≤ 2^53) (h : (system file).Reachable reader) :
    Ok file reader := by
  refine h.invariant (Ok file) ?_ ?_
  · intro s hs
    rw [show s = {} from hs]
    exact ⟨List.nil_prefix,le_rfl⟩
  · intro s a s' _ hs hstep
    exact hs.step hdouble hstep.1 hstep.2

end Reader

end Reader

/-- A reader that asks for the bytes after those it has, over whichever way each answer comes and
wherever its body is cut off, always has the start of the file; after as many whole answers as the
file has bytes it has the file. What it is answered is a part of the file from where it is on that
says so, or comes from a server that refuses it or cannot be reached. -/
theorem media_delivery (file : List UInt8) (hdouble : file.length ≤ 2^53) {reader : Reader}
    (h : (Reader.system file).Reachable reader) :
    reader.received <+: file ∧
    (file.length ≤ reader.complete → reader.received = file) ∧
    ∀ a, reader.Asks file a →
      (∃ last, PartFits file (reader.response a) reader.received.length last) ∨
        (reader.response a).status = 502 ∨
        ∃ code, a.fetch.access = .error code ∧ reader.response a = localMediaJsonError code := by
  have hok := Reader.ok_of_reachable hdouble h
  refine ⟨hok.start,fun hall => ?_,fun a hasks => hasks.fits hdouble⟩
  have hlength := hok.complete
  exact hok.start.eq_of_length_le (by omega)

def threeBytes : List UInt8 := [7,8,9]

def sampleCall (start stop : ℚ) : BlockRequest :=
  ⟨"0b5a7c3e-0000-4000-8000-00000000000a",start,stop⟩

def firstFromSfu : ReadAttempt where
  stop := some 0
  fetch :=
    { bridgeReady := true, inTime := true, access := .error .notFound
      page := some { sfuAvailable := true, sfuViewerReady := true, viaSfu := fun _ _ => some [7] } }
  cut := 2

def nextFromPeer : ReadAttempt where
  stop := some 1
  fetch :=
    { bridgeReady := true, inTime := true, access := .error .notFound
      page := some { providerUserId := some "ann", channelOpen := true
                     viaWebrtc := fun _ _ => some [8] } }
  cut := 2

def restFromServer : ReadAttempt where
  fetch := { bridgeReady := false, page := none, inTime := false
             access := .ok ⟨3,"video/mp4",true,none⟩ }
  events := [.pull (some threeBytes),.pull none]
  cut := 9

theorem sfuAnswer_first : SfuAnswer threeBytes 0 0 [7] := by
  have hrun : (runSteps (guardStep sfuStep (SfuReads threeBytes)) (.idle fun _ => "producer")
      [.ack "producer",.deliver 0,.fetch 0 (sampleCall 0 0) true,.arrive 0,
        .serve true (.bytes [7]),.send true,.send true,.deliver 0,.deliver 0]).map
          (fun s => (s.calls (sampleCall 0 0).requestId,s.settled (sampleCall 0 0).requestId)) =
            some (some (0,0,0),[some [7]]) := by
    decide +kernel
  obtain ⟨s,hs,hpair⟩ := Option.map_eq_some_iff.mp hrun
  obtain ⟨hcall,hsettled⟩ := Prod.mk.inj hpair
  refine ⟨s,(sampleCall 0 0).requestId,0,.of_guardSteps (fun _ _ _ hstep => hstep) _ (.init ⟨_,rfl⟩) hs,?_,?_⟩
  · exact_mod_cast hcall
  · rw [hsettled]
    simp

theorem webrtcAnswer_next : WebrtcAnswer threeBytes 1 1 [8] := by
  have hrun : (runSteps (guardStep (guardStep p2pStep OldestServed) (P2pReads threeBytes)) .idle
      [.fetch (sampleCall 1 1) true,.receive,.serve 0 true (.bytes [8]) true true,.deliver,
        .deliver]).map
          (fun s => (s.calls (sampleCall 1 1).requestId,s.settled (sampleCall 1 1).requestId)) =
            some (some (1,1),some (some [8])) := by
    decide +kernel
  obtain ⟨s,hs,hpair⟩ := Option.map_eq_some_iff.mp hrun
  obtain ⟨hcall,hsettled⟩ := Prod.mk.inj hpair
  refine ⟨s,(sampleCall 1 1).requestId,
    .of_guardSteps (fun s a s' hstep => ?_) _ (.init rfl) hs,?_,hsettled⟩
  · rw [guardStep] at hstep
    split at hstep
    · rename_i hguard
      exact ⟨hguard,hstep⟩
    · cases hstep
  · exact_mod_cast hcall

theorem media_delivery_of_three_bytes : ∃ reader,
    (Reader.system threeBytes).Reachable reader ∧ reader.complete = 3 ∧
      reader.received = threeBytes := by
  have hsfu : Reader.Asks threeBytes {} firstFromSfu := by
    refine ⟨by decide,?_,?_,fun entry hentry => (by cases hentry),fun r hr => ?_⟩
    · rintro s ⟨⟩
      decide
    · rintro page ⟨⟩
      refine ⟨fun held hheld => (by cases hheld),fun known hknown => (by cases hknown),?_,
        fun bytes hbytes => (by cases hbytes)⟩
      rintro bytes ⟨⟩
      exact sfuAnswer_first
    · have hbody : (Reader.response {} firstFromSfu).body = .whole [7] := by decide +kernel
      rw [hbody] at hr
      cases hr
  have hpeer : Reader.Asks threeBytes ⟨[7],1⟩ nextFromPeer := by
    refine ⟨by decide,?_,?_,fun entry hentry => (by cases hentry),fun r hr => ?_⟩
    · rintro s ⟨⟩
      decide
    · rintro page ⟨⟩
      refine ⟨fun held hheld => (by cases hheld),fun known hknown => (by cases hknown),
        fun bytes hbytes => (by cases hbytes),?_⟩
      rintro bytes ⟨⟩
      exact webrtcAnswer_next
    · have hbody : (Reader.response ⟨[7],1⟩ nextFromPeer).body = .whole [8] := by decide +kernel
      rw [hbody] at hr
      cases hr
  have hserver : Reader.Asks threeBytes ⟨[7,8],2⟩ restFromServer := by
    refine ⟨by decide,fun s hs => (by cases hs),fun page hpage => (by cases hpage),?_,
      fun r hr => ?_⟩
    · rintro entry ⟨⟩
      rfl
    · have hbody : (Reader.response ⟨[7,8],2⟩ restFromServer).body = .stream ⟨3,2,2⟩ := by
        decide +kernel
      rw [hbody] at hr
      cases hr
      rintro s' ⟨⟩
      refine ⟨fun _ => by decide,?_⟩
      rintro s'' ⟨⟩
      exact ⟨trivial,trivial⟩
  have hstart : (Reader.system threeBytes).Reachable {} := .init rfl
  have hfirst : (Reader.system threeBytes).Reachable ⟨[7],1⟩ :=
    hstart.step ⟨hsfu,by decide +kernel⟩
  have hnext : (Reader.system threeBytes).Reachable ⟨[7,8],2⟩ :=
    hfirst.step ⟨hpeer,by decide +kernel⟩
  have hrest : (Reader.system threeBytes).Reachable ⟨[7,8,9],3⟩ :=
    hnext.step ⟨hserver,by decide +kernel⟩
  exact ⟨_,hrest,rfl,(media_delivery threeBytes (by decide) hrest).2.1 (by decide)⟩

end WebSyncPlay
