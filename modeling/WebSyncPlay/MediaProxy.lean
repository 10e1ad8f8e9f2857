import WebSyncPlay.HlsProxyRewrite
import WebSyncPlay.HlsRewriteCache
import WebSyncPlay.ProxyTokens
import WebSyncPlay.UrlSafety
import WebSyncPlay.Library.Interaction

/-! The proxy route for remote media (`server/media/http/proxy.ts`): what a request asks of the rest
of the server and of the hosts outside, whatever they answer. Calls that fail are answered with
nothing; an error of the store ends the request and is left out. -/
namespace WebSyncPlay

open Library

section Calls

structure UpstreamRequest where
  head : Bool
  userAgent : String
  referer : Option String
  range : Option String
  deriving DecidableEq

structure UpstreamResponse where
  status : ℕ
  hasBody : Bool := true
  location : Option String := none
  contentType : Option String := none
  acceptRanges : Option String := none
  contentLength : Option String := none
  contentRange : Option String := none
  etag : Option String := none
  lastModified : Option String := none
  deriving DecidableEq

def UpstreamResponse.ok (response : UpstreamResponse) : Bool :=
  decide (200 ≤ response.status) && decide (response.status < 300)

/-- What `getOrComputeHlsRewrite` has for a caller: a playlist of an earlier or concurrent one, an
error of a concurrent one, or nothing, so that the caller computes. -/
inductive SharedRewrite
  | found (playlist : RewrittenPlaylist)
  | failed
  | compute

inductive ServerCall
  | consumeRateLimit (key : String) (limit windowMs : ℕ)
  | getProxyTokenPayload (token : String)
  | roomExists (roomId : String)
  | lookup (hostname : List Char)
  | refreshProxyTokenTtl (token : String)
  | peekHlsRewriteCache (token upstreamUrl : String)
  | fetch (url : String) (request : UpstreamRequest)
  | getOrComputeHlsRewrite (token upstreamUrl : String)
  | readText
  | createProxyUrls (urls : Finset (List Char)) (meta_ : ProxyTokenMeta)
  | scheduleStaleUpstreamRefresh (payload : ProxyTokenPayload)

@[reducible] def ServerCall.Answer : ServerCall → Type
  | .consumeRateLimit .. => Bool
  | .getProxyTokenPayload _ => Option ProxyTokenPayload
  | .roomExists _ => Bool
  | .lookup _ => Option (List (List Char))
  | .refreshProxyTokenTtl _ => Unit
  | .peekHlsRewriteCache .. => Option RewrittenPlaylist
  | .fetch .. => Option UpstreamResponse
  | .getOrComputeHlsRewrite .. => SharedRewrite
  | .readText => Option String
  | .createProxyUrls .. => Option (List Char → Option (List Char))
  | .scheduleStaleUpstreamRefresh _ => Unit

abbrev ServerProgram := Interaction ServerCall ServerCall.Answer

def ask (e : ServerCall) : ServerProgram e.Answer := Interaction.call e

abbrev ServerLog := Interaction.Log ServerCall ServerCall.Answer

/-- The URL parsers, `isIP` and the switch for private targets. -/
structure ProxyPlatform where
  net : NetPlatform
  newUrl : NewUrl
  allowPrivateUrls : Bool

end Calls

section Playlists

def textIncludes (text word : List Char) : Bool := decide (word <:+: text)

/-- The endings of paths that are segments, not playlists. -/
def segmentEndings : List (List Char) :=
  [".ts".toList,".m4s".toList,".mp4".toList,".webm".toList,".aac".toList,".m4a".toList]

def endsPath (word target : List Char) : Bool :=
  decide (word <:+ toLowerCase target) || textIncludes (toLowerCase target) (word ++ ['?'])

def playlistTargetHint (target contentType : List Char) : Bool :=
  let ct := toLowerCase contentType
  textIncludes ct "mpegurl".toList || textIncludes ct "m3u8".toList ||
    endsPath ".m3u8".toList target ||
    ((decide (ct = []) || textIncludes ct "octet-stream".toList ||
        textIncludes ct "text/plain".toList) &&
      !segmentEndings.any fun word => endsPath word target)

def shouldAttemptPlaylistRewrite (contentType bodySample : List Char) : Bool :=
  let ct := toLowerCase contentType
  textIncludes ct "mpegurl".toList || textIncludes ct "m3u8".toList ||
    decide ("#EXTM3U".toList <+: (bodySample.take 200).dropWhile isWhiteSpace)

end Playlists

section Handlers

def MEDIA_FETCH_UA : String :=
  "Mozilla/5.0 (Windows NT 10.0; Win64; x64) AppleWebKit/537.36 (KHTML, like Gecko) " ++
    "Chrome/120.0.0.0 Safari/537.36"

/-- A header or field that is there and not empty. -/
def given (value : Option String) : Option String := value.filter (· != "")

def buildUpstreamHeaders (head : Bool) (range : Option String) (payload : ProxyTokenPayload) :
    UpstreamRequest where
  head := head
  userAgent := (given payload.userAgent).getD MEDIA_FETCH_UA
  referer := given payload.referer
  range := given range

inductive ProxyReply
  | error (status : ℕ) (message : String)
  | playlist (playlist : RewrittenPlaylist)
  | media (status : ℕ) (headers : List (String × String))
  | thrown
  deriving DecidableEq

/-- The client is told that the upstream has expired. -/
def ProxyReply.expired : ProxyReply → Bool
  | .error status _ => status == 409
  | _ => false

def checkPublic (platform : ProxyPlatform) (raw : String) : ServerProgram UrlSafetyResult :=
  match assertPublicHttpUrl platform.net platform.allowPrivateUrls raw with
  | .refused reason => pure (.refused reason)
  | .ok url =>
    if platform.allowPrivateUrls then pure (.ok url)
    else if platform.net.isIP (normalizeHostname url.hostname) ≠ 0 then pure (.ok url)
    else do
      let addresses ← ask (.lookup (normalizeHostname url.hostname))
      match addresses with
      | none => pure (.refused "dns_lookup_failed")
      | some [] => pure (.refused "dns_lookup_failed")
      | some addresses =>
        if addresses.any isPrivateOrLocalIp then pure (.refused "private_ip") else pure (.ok url)

def authorizeProxyRequest (ip token : String) : ServerProgram Bool := do
  let ipLimit ← ask (.consumeRateLimit ("proxy:ip:" ++ ip) 240 60000)
  if ipLimit then ask (.consumeRateLimit ("proxy:token:" ++ token) 120 60000)
  else pure false

def roomOfTokenExists (roomId : Option String) : ServerProgram Bool :=
  match given roomId with
  | none => pure true
  | some roomId => ask (.roomExists roomId)

def loadAuthorizedProxy (platform : ProxyPlatform) (ip token : String) :
    ServerProgram (Except (ℕ × String) ProxyTokenPayload) := do
  let allowed ← authorizeProxyRequest ip token
  if !allowed then pure (.error (429,"Too many requests")) else
  let found ← ask (.getProxyTokenPayload token)
  match found with
  | none => pure (.error (404,"Proxy token expired"))
  | some payload =>
    let exists_ ← roomOfTokenExists payload.roomId
    if !exists_ then pure (.error (404,"Proxy token expired")) else
    let safety ← checkPublic platform payload.url
    match safety with
    | .refused _ => pure (.error (403,"Forbidden upstream"))
    | .ok _ =>
      let _ ← ask (.refreshProxyTokenTtl token)
      pure (.ok payload)

def passthroughHeaders (response : UpstreamResponse) (range : Option String) :
    List (String × String) :=
  [("content-type",response.contentType.getD "application/octet-stream"),
    ("cache-control",if (given range).isSome then "private, no-store"
      else "private, max-age=60, no-transform"),
    ("accept-ranges",response.acceptRanges.getD "bytes")] ++
  [("content-length",response.contentLength),("content-range",response.contentRange),
    ("etag",response.etag),("last-modified",response.lastModified)].filterMap
      fun header => (given header.2).map (header.1,·)

def isStaleUpstreamStatus (status : ℕ) : Bool := status == 401 || status == 403

/-- What child tokens take over from their playlist's token. -/
def childMeta (payload : ProxyTokenPayload) : ProxyTokenMeta where
  referer := payload.referer
  userAgent := payload.userAgent
  roomId := payload.roomId
  mediaId := payload.mediaId

/-- `rewriteM3u8ForProxy` and what is around it in the route; nothing if something throws. -/
def computePlaylist (platform : ProxyPlatform) (payload : ProxyTokenPayload)
    (target contentType : String) : ServerProgram (Option RewrittenPlaylist) := do
  let body ← ask .readText
  match body with
  | none => pure none
  | some text =>
    if shouldAttemptPlaylistRewrite contentType.toList text.toList then
      let made ← ask (.createProxyUrls
        (collectM3u8ReferencedUrls platform.newUrl target.toList text.toList) (childMeta payload))
      match made with
      | none => pure none
      | some proxyMap => pure (some
          { body := String.ofList (rewriteM3u8BodyWithProxyMap platform.newUrl target.toList
              proxyMap text.toList)
            contentType := "application/vnd.apple.mpegurl; charset=utf-8" })
    else pure (some
      { body := text
        contentType := (given (some contentType)).getD "application/octet-stream" })

def answerUpstream (platform : ProxyPlatform) (token : String) (range : Option String)
    (payload : ProxyTokenPayload) (target : String) (response : UpstreamResponse) :
    ServerProgram ProxyReply := do
  if isStaleUpstreamStatus response.status then
    let _ ← ask (.scheduleStaleUpstreamRefresh payload)
    pure (.error 409 "upstream_expired")
  else if !response.ok || !response.hasBody then
    pure (.error 502 "Failed to fetch upstream media")
  else
    let contentType := response.contentType.getD ""
    if response.status = 200 ∧ given range = none ∧
        playlistTargetHint target.toList contentType.toList then
      let shared ← ask (.getOrComputeHlsRewrite token payload.url)
      match shared with
      | .found playlist => pure (.playlist playlist)
      | .failed => pure .thrown
      | .compute =>
        let computed ← computePlaylist platform payload target contentType
        match computed with
        | some playlist => pure (.playlist playlist)
        | none => pure .thrown
    else pure (.media response.status (passthroughHeaders response range))

def fetchUpstream (platform : ProxyPlatform) (token : String) (range : Option String)
    (payload : ProxyTokenPayload) : ServerProgram ProxyReply := do
  let first ← ask (.fetch payload.url (buildUpstreamHeaders false range payload))
  match first with
  | none => pure .thrown
  | some response =>
    match if 300 ≤ response.status ∧ response.status < 400 then given response.location
      else none with
    | none => answerUpstream platform token range payload payload.url response
    | some location =>
      match platform.newUrl location.toList payload.url.toList with
      | none => pure .thrown
      | some redirected =>
        let target := String.ofList redirected
        let redirectSafety ← checkPublic platform target
        match redirectSafety with
        | .refused _ => pure (.error 403 "Forbidden redirect")
        | .ok _ =>
          let second ← ask (.fetch target (buildUpstreamHeaders false range payload))
          match second with
          | none => pure .thrown
          | some response => answerUpstream platform token range payload target response

def handleMediaProxyGet (platform : ProxyPlatform) (ip token : String) (range : Option String) :
    ServerProgram ProxyReply := do
  let access ← loadAuthorizedProxy platform ip token
  match access with
  | .error (status,message) => pure (.error status message)
  | .ok payload =>
    if given range = none then
      let cached ← ask (.peekHlsRewriteCache token payload.url)
      match cached with
      | some playlist => pure (.playlist playlist)
      | none => fetchUpstream platform token range payload
    else fetchUpstream platform token range payload

def handleMediaProxyHead (platform : ProxyPlatform) (ip token : String) (range : Option String) :
    ServerProgram ProxyReply := do
  let access ← loadAuthorizedProxy platform ip token
  match access with
  | .error (status,_) => pure (.error status "")
  | .ok payload =>
    let found ← ask (.fetch payload.url (buildUpstreamHeaders true range payload))
    match found with
    | none => pure .thrown
    | some response =>
      pure (.media (if response.ok then 200 else 502) (passthroughHeaders response range))

end Handlers

section Permitted

variable (platform : ProxyPlatform) (ip token : String) (range : Option String)

/-- A URL of the web whose host is public, by its text or by every address that a lookup gave. -/
def PublicUrl (log : ServerLog) (raw : String) : Prop :=
  ∃ url, platform.net.parseUrl raw = some url ∧
    (url.protocol = "http:" ∨ url.protocol = "https:") ∧
    (platform.allowPrivateUrls = false →
      (platform.net.isIP (normalizeHostname url.hostname) ≠ 0 ∧
        isPrivateOrLocalIp (normalizeHostname url.hostname) = false) ∨
      ∃ addresses, ⟨.lookup (normalizeHostname url.hostname),some addresses⟩ ∈ log ∧
        addresses ≠ [] ∧ ∀ address ∈ addresses, isPrivateOrLocalIp address = false)

/-- Both rate limits, the token, its room and its URL have been looked at, and let through. -/
structure Authorized (log : ServerLog) (payload : ProxyTokenPayload) : Prop where
  ipLimit : ⟨.consumeRateLimit ("proxy:ip:" ++ ip) 240 60000,true⟩ ∈ log
  tokenLimit : ⟨.consumeRateLimit ("proxy:token:" ++ token) 120 60000,true⟩ ∈ log
  token : ⟨.getProxyTokenPayload token,some payload⟩ ∈ log
  room : ∀ roomId ∈ given payload.roomId, ⟨.roomExists roomId,true⟩ ∈ log
  url : PublicUrl platform log payload.url

def fetched (log : ServerLog) : List (String × Option UpstreamResponse) :=
  log.filterMap fun asked => match asked with
    | ⟨.fetch url _,response⟩ => some (url,response)
    | _ => none

def refreshes (log : ServerLog) : List ProxyTokenPayload :=
  log.filterMap fun asked => match asked with
    | ⟨.scheduleStaleUpstreamRefresh payload,_⟩ => some payload
    | _ => none

def LastAnswer (log : ServerLog) (target : String) (response : UpstreamResponse) : Prop :=
  (fetched log).head? = some (target,some response)

def ProxyOk (log : ServerLog) : ServerCall → Prop
  | .fetch url request => ∃ payload, Authorized platform ip token log payload ∧
      PublicUrl platform log url ∧ (∃ head, request = buildUpstreamHeaders head range payload) ∧
      (fetched log = [] ∧ url = payload.url ∨
        ∃ response location, fetched log = [(payload.url,some response)] ∧
          300 ≤ response.status ∧ response.status < 400 ∧ given response.location = some location ∧
          platform.newUrl location.toList payload.url.toList = some url.toList)
  | .createProxyUrls urls meta_ => given range = none ∧ ∃ payload target response text,
      Authorized platform ip token log payload ∧ meta_ = childMeta payload ∧
      LastAnswer log target response ∧ response.status = 200 ∧ ⟨.readText,some text⟩ ∈ log ∧
      urls = collectM3u8ReferencedUrls platform.newUrl target.toList text.toList
  | .readText => given range = none ∧ ∃ target response, LastAnswer log target response ∧
      response.status = 200
  | .getOrComputeHlsRewrite asked upstreamUrl => asked = token ∧ given range = none ∧
      ∃ payload, Authorized platform ip token log payload ∧ upstreamUrl = payload.url ∧
        ∃ target response, LastAnswer log target response ∧ response.status = 200
  | .peekHlsRewriteCache asked upstreamUrl => asked = token ∧ given range = none ∧
      ∃ payload, Authorized platform ip token log payload ∧ upstreamUrl = payload.url
  | .scheduleStaleUpstreamRefresh payload => Authorized platform ip token log payload ∧
      ∃ target response, LastAnswer log target response ∧ isStaleUpstreamStatus response.status
  | .refreshProxyTokenTtl asked => asked = token ∧
      ∃ payload, Authorized platform ip token log payload
  | .consumeRateLimit .. | .getProxyTokenPayload _ | .roomExists _ | .lookup _ => True

def Denied (log : ServerLog) : Prop :=
  ∃ target response, LastAnswer log target response ∧ isStaleUpstreamStatus response.status = true

def ReplyOk (log : ServerLog) : ProxyReply → Prop
  | .error status _ => status = 429 ∨ status = 404 ∨ status = 403 ∨ status = 409 ∨ status = 502
  | .playlist _ => given range = none
  | .media status headers => ∃ target response, LastAnswer log target response ∧
      response.ok = true ∧ status = response.status ∧ headers = passthroughHeaders response range
  | .thrown => True

structure GetOk (log : ServerLog) (reply : ProxyReply) : Prop where
  replied : ReplyOk range log reply
  expired : reply.expired = true ↔ Denied log
  refreshed : reply.expired = true → ∃ payload, Authorized platform ip token log payload ∧
    refreshes log = [payload]
  left : reply.expired = false → refreshes log = []

def HeadReplyOk (log : ServerLog) : ProxyReply → Prop
  | .error status message => (status = 429 ∨ status = 404 ∨ status = 403) ∧ message = "" ∧
      fetched log = []
  | .playlist _ => False
  | .media status headers => ∃ target response, fetched log = [(target,some response)] ∧
      status = (if response.ok then 200 else 502) ∧ headers = passthroughHeaders response range
  | .thrown => ∃ target, fetched log = [(target,none)]

end Permitted

section Proxy

open Interaction

variable {platform : ProxyPlatform} {ip token : String} {range : Option String}
  {log log' : ServerLog} {payload : ProxyTokenPayload} {raw : String}

theorem allows_ask {ok : ServerLog → ServerCall → Prop} {e : ServerCall} {α : Type}
    {f : e.Answer → ServerProgram α} {post : ServerLog → α → Prop} :
    (ask e >>= f).Allows ok post log ↔ ok log e ∧ ∀ r, (f r).Allows ok post (⟨e,r⟩ :: log) :=
  Iff.rfl

structure NoFetch (log log' : ServerLog) : Prop where
  grown : log ⊆ log'
  fetched : fetched log' = fetched log
  refreshes : refreshes log' = refreshes log

theorem NoFetch.refl (log : ServerLog) : NoFetch log log := ⟨List.Subset.refl _,rfl,rfl⟩

theorem NoFetch.trans {log₁ log₂ log₃ : ServerLog} (h : NoFetch log₁ log₂) (h' : NoFetch log₂ log₃) :
    NoFetch log₁ log₃ :=
  ⟨List.Subset.trans h.grown h'.grown,h'.fetched.trans h.fetched,h'.refreshes.trans h.refreshes⟩

theorem NoFetch.denied_iff (h : NoFetch log log') : Denied log' ↔ Denied log := by
  unfold Denied LastAnswer
  rw [h.fetched]

theorem not_denied_of_none (h : fetched log = []) : ¬Denied log := by
  rintro ⟨target,response,hlast,-⟩
  rw [LastAnswer,h] at hlast
  cases hlast

theorem GetOk.of_fresh {reply : ProxyReply} (hreply : ReplyOk range log reply)
    (hexpired : reply.expired = false) (hfresh : ¬Denied log) (hleft : refreshes log = []) :
    GetOk platform ip token range log reply where
  replied := hreply
  expired := iff_of_false (by simp [hexpired]) hfresh
  refreshed h := by
    rw [hexpired] at h
    cases h
  left _ := hleft

theorem PublicUrl.mono (h : PublicUrl platform log raw) (hlog : log ⊆ log') :
    PublicUrl platform log' raw := by
  obtain ⟨url,hparse,hprotocol,hpublic⟩ := h
  refine ⟨url,hparse,hprotocol,fun hallow => ?_⟩
  rcases hpublic hallow with haddress | ⟨addresses,hasked,hrest⟩
  · exact .inl haddress
  · exact .inr ⟨addresses,hlog hasked,hrest⟩

theorem Authorized.mono (h : Authorized platform ip token log payload) (hlog : log ⊆ log') :
    Authorized platform ip token log' payload where
  ipLimit := hlog h.ipLimit
  tokenLimit := hlog h.tokenLimit
  token := hlog h.token
  room roomId hroom := hlog (h.room roomId hroom)
  url := h.url.mono hlog

theorem PublicUrl.of_text {url : ParsedUrl}
    (h : assertPublicHttpUrl platform.net platform.allowPrivateUrls raw = .ok url) :
    platform.net.parseUrl raw = some url ∧ (url.protocol = "http:" ∨ url.protocol = "https:") ∧
      (platform.allowPrivateUrls = false → platform.net.isIP (normalizeHostname url.hostname) ≠ 0 →
        isPrivateOrLocalIp (normalizeHostname url.hostname) = false) := by
  unfold assertPublicHttpUrl at h
  cases hparse : platform.net.parseUrl raw with
  | none =>
    rw [hparse] at h
    cases h
  | some found =>
    simp only [hparse] at h
    split at h
    · cases h
    rename_i hprotocol
    have hweb : found.protocol = "http:" ∨ found.protocol = "https:" := by
      by_contra hneither
      exact hprotocol (not_or.mp hneither)
    split at h
    · rename_i hallow
      cases h
      exact ⟨rfl,hweb,fun hnot => by rw [hallow] at hnot; cases hnot⟩
    split at h
    · cases h
    split at h
    · cases h
    split at h
    · cases h
    rename_i hprivate
    cases h
    refine ⟨rfl,hweb,fun _ hip => ?_⟩
    by_contra hlocal
    exact hprivate ⟨hip,by simpa using hlocal⟩

/-- The check of a URL looks its host up at most, and lets public ones through. -/
theorem checkPublic_allows : (checkPublic platform raw).Allows
    (ProxyOk platform ip token range)
    (fun log' result => NoFetch log log' ∧
      ∀ url, result = .ok url → PublicUrl platform log' raw) log := by
  unfold checkPublic
  split
  · exact ⟨.refl log,fun url hurl => by cases hurl⟩
  · rename_i url hurl
    obtain ⟨hparse,hweb,haddress⟩ := PublicUrl.of_text hurl
    split
    · rename_i hallow
      refine ⟨.refl log,fun _ _ => ⟨url,hparse,hweb,fun hnot => ?_⟩⟩
      rw [hallow] at hnot
      cases hnot
    · split
      · rename_i hip
        exact ⟨.refl log,fun _ _ =>
          ⟨url,hparse,hweb,fun hallow => .inl ⟨hip,haddress hallow hip⟩⟩⟩
      · refine allows_ask.mpr ⟨trivial,fun addresses => ?_⟩
        have hquiet : NoFetch log (⟨.lookup (normalizeHostname url.hostname),addresses⟩ :: log) :=
          ⟨List.subset_cons_self _ _,rfl,rfl⟩
        split
        · exact ⟨hquiet,fun _ hok => by cases hok⟩
        · exact ⟨hquiet,fun _ hok => by cases hok⟩
        · rename_i addresses hne
          split
          · exact ⟨hquiet,fun _ hok => by cases hok⟩
          · rename_i hprivate
            refine ⟨hquiet,fun _ _ => ⟨url,hparse,hweb,fun _ => .inr ⟨addresses,
              List.mem_cons_self,fun hnil => hne hnil,fun address haddress => ?_⟩⟩⟩
            by_contra hlocal
            exact hprivate (List.any_eq_true.mpr ⟨address,haddress,by simpa using hlocal⟩)

theorem authorizeProxyRequest_allows : (authorizeProxyRequest ip token).Allows
    (ProxyOk platform ip token range)
    (fun log allowed => NoFetch [] log ∧ (allowed = true →
      ⟨.consumeRateLimit ("proxy:ip:" ++ ip) 240 60000,true⟩ ∈ log ∧
      ⟨.consumeRateLimit ("proxy:token:" ++ token) 120 60000,true⟩ ∈ log)) [] := by
  refine allows_ask.mpr ⟨trivial,fun ipLimit => ?_⟩
  cases ipLimit with
  | false => exact ⟨⟨List.nil_subset _,rfl,rfl⟩,fun hallowed => by cases hallowed⟩
  | true =>
    refine ⟨trivial,fun tokenLimit => ⟨⟨List.nil_subset _,rfl,rfl⟩,?_⟩⟩
    rintro rfl
    exact ⟨List.mem_cons_of_mem _ List.mem_cons_self,List.mem_cons_self⟩

theorem roomOfTokenExists_allows {roomId : Option String} :
    (roomOfTokenExists roomId).Allows (ProxyOk platform ip token range)
      (fun log' exists_ => NoFetch log log' ∧ (exists_ = true →
        ∀ room ∈ given roomId, ⟨.roomExists room,true⟩ ∈ log')) log := by
  unfold roomOfTokenExists
  cases hroom : given roomId with
  | none => exact ⟨.refl log,fun _ room hmem => by cases hmem⟩
  | some room =>
    refine ⟨trivial,fun exists_ => ⟨⟨List.subset_cons_self _ _,rfl,rfl⟩,?_⟩⟩
    rintro rfl room' ⟨⟩
    exact List.mem_cons_self

theorem loadAuthorizedProxy_allows : (loadAuthorizedProxy platform ip token).Allows
    (ProxyOk platform ip token range)
    (fun log result => NoFetch [] log ∧
      (∀ status message, result = .error (status,message) →
        status = 429 ∨ status = 404 ∨ status = 403) ∧
      ∀ payload, result = .ok payload → Authorized platform ip token log payload) [] := by
  refine authorizeProxyRequest_allows.seq fun log allowed hlimits => ?_
  cases allowed with
  | false => exact ⟨hlimits.1,by rintro _ _ ⟨⟩; simp,fun payload hpayload => by cases hpayload⟩
  | true =>
    obtain ⟨hip,htoken⟩ := hlimits.2 rfl
    refine allows_ask.mpr ⟨trivial,fun found => ?_⟩
    have hasked : NoFetch [] (⟨.getProxyTokenPayload token,found⟩ :: log) :=
      hlimits.1.trans ⟨List.subset_cons_self _ _,rfl,rfl⟩
    cases found with
    | none => exact ⟨hasked,by rintro _ _ ⟨⟩; simp,fun payload hpayload => by cases hpayload⟩
    | some payload =>
      refine roomOfTokenExists_allows.seq fun log₁ exists_ hroom => ?_
      have hquiet : NoFetch [] log₁ := hasked.trans hroom.1
      cases exists_ with
      | false => exact ⟨hquiet,by rintro _ _ ⟨⟩; simp,fun payload hpayload => by cases hpayload⟩
      | true =>
        refine checkPublic_allows.seq fun log₂ safety hsafety => ?_
        have hquiet : NoFetch [] log₂ := hquiet.trans hsafety.1
        cases safety with
        | refused reason =>
          exact ⟨hquiet,by rintro _ _ ⟨⟩; simp,fun payload hpayload => by cases hpayload⟩
        | ok url =>
          have hsub := List.Subset.trans hroom.1.grown hsafety.1.grown
          have hauthorized : Authorized platform ip token log₂ payload :=
            { ipLimit := hsub (List.mem_cons_of_mem _ hip)
              tokenLimit := hsub (List.mem_cons_of_mem _ htoken)
              token := hsub List.mem_cons_self
              room := fun room hmem => hsafety.1.grown (hroom.2 rfl room hmem)
              url := hsafety.2 url rfl }
          refine allows_ask.mpr ⟨⟨rfl,payload,hauthorized⟩,fun _ => ⟨?_,?_,?_⟩⟩
          · exact hquiet.trans ⟨List.subset_cons_self _ _,rfl,rfl⟩
          · rintro _ _ ⟨⟩
          · rintro _ ⟨⟩
            exact hauthorized.mono (List.subset_cons_self _ _)

theorem lastAnswer_cons {target : String} {request : UpstreamRequest}
    {response : UpstreamResponse} :
    LastAnswer (⟨.fetch target request,some response⟩ :: log) target response := rfl

theorem computePlaylist_allows {target contentType : String} {response : UpstreamResponse}
    (hauthorized : Authorized platform ip token log payload)
    (hlast : LastAnswer log target response) (hstatus : response.status = 200)
    (hrange : given range = none) : (computePlaylist platform payload target contentType).Allows
      (ProxyOk platform ip token range) (fun log' _ => NoFetch log log') log := by
  refine allows_ask.mpr ⟨⟨hrange,target,response,hlast,hstatus⟩,fun text => ?_⟩
  have hread : NoFetch log (⟨.readText,text⟩ :: log) := ⟨List.subset_cons_self _ _,rfl,rfl⟩
  cases text with
  | none => exact hread
  | some text =>
    dsimp only
    split
    · refine allows_ask.mpr ⟨⟨hrange,payload,target,response,text,
        hauthorized.mono (List.subset_cons_self _ _),rfl,hlast,hstatus,List.mem_cons_self,rfl⟩,
        fun made => ?_⟩
      cases made <;> exact hread.trans ⟨List.subset_cons_self _ _,rfl,rfl⟩
    · exact hread

theorem answerUpstream_allows {target : String} {response : UpstreamResponse}
    (hauthorized : Authorized platform ip token log payload)
    (hlast : LastAnswer log target response) (hleft : refreshes log = []) :
    (answerUpstream platform token range payload target response).Allows
      (ProxyOk platform ip token range) (GetOk platform ip token range) log := by
  unfold answerUpstream
  split
  · rename_i hstale
    refine allows_ask.mpr ⟨⟨hauthorized,target,response,hlast,hstale⟩,fun _ =>
      { replied := by simp [ReplyOk]
        expired := iff_of_true rfl ⟨target,response,hlast,hstale⟩
        refreshed := fun _ => ⟨payload,hauthorized.mono (List.subset_cons_self _ _),?_⟩
        left := fun hexpired => by cases hexpired }⟩
    exact congrArg (payload :: ·) hleft
  · rename_i hfresh
    have hnot : ¬Denied log := by
      rintro ⟨target',response',hlast',hstale⟩
      rw [LastAnswer,hlast] at hlast'
      cases hlast'
      exact hfresh hstale
    split
    · exact .of_fresh (by simp [ReplyOk]) rfl hnot hleft
    · rename_i hok
      have hok : response.ok = true := by
        by_contra hbad
        exact hok (by simp [hbad])
      dsimp only
      split
      · rename_i hrewrite
        obtain ⟨hstatus,hrange,-⟩ := hrewrite
        refine allows_ask.mpr ⟨⟨rfl,hrange,payload,hauthorized,rfl,target,response,hlast,hstatus⟩,
          fun shared => ?_⟩
        have hshared : NoFetch log (⟨.getOrComputeHlsRewrite token payload.url,shared⟩ :: log) :=
          ⟨List.subset_cons_self _ _,rfl,rfl⟩
        have hend : ∀ {log' : ServerLog} {reply : ProxyReply}, NoFetch log log' →
            ReplyOk range log' reply → reply.expired = false →
            GetOk platform ip token range log' reply :=
          fun hquiet hreply hexpired => .of_fresh hreply hexpired
            (fun hdenied => hnot (hquiet.denied_iff.mp hdenied)) (hquiet.refreshes.trans hleft)
        cases shared with
        | found playlist => exact hend hshared hrange rfl
        | failed => exact hend hshared trivial rfl
        | compute =>
          have hlast : LastAnswer (⟨.getOrComputeHlsRewrite token payload.url,.compute⟩ :: log)
            target response := hlast
          refine (computePlaylist_allows (hauthorized.mono hshared.grown) hlast hstatus hrange).seq
            fun log' computed hcomputed => ?_
          cases computed with
          | none => exact hend (hshared.trans hcomputed) trivial rfl
          | some playlist => exact hend (hshared.trans hcomputed) hrange rfl
      · exact .of_fresh ⟨target,response,hlast,hok,rfl,rfl⟩ rfl hnot hleft

theorem fetchUpstream_allows (hauthorized : Authorized platform ip token log payload)
    (hnone : fetched log = []) (hleft : refreshes log = []) :
    (fetchUpstream platform token range payload).Allows
      (ProxyOk platform ip token range) (GetOk platform ip token range) log := by
  refine allows_ask.mpr ⟨⟨payload,hauthorized,hauthorized.url,⟨false,rfl⟩,.inl ⟨hnone,rfl⟩⟩,
    fun first => ?_⟩
  cases first with
  | none => exact .of_fresh trivial rfl (by rintro ⟨_,_,⟨⟩,-⟩) hleft
  | some response =>
    have hgrown := hauthorized.mono (List.subset_cons_self
      ⟨.fetch payload.url (buildUpstreamHeaders false range payload),some response⟩ log)
    dsimp only
    split
    · exact answerUpstream_allows hgrown lastAnswer_cons hleft
    · rename_i location hlocation
      split at hlocation
      · rename_i hredirect
        have hnot : ¬Denied (⟨.fetch payload.url (buildUpstreamHeaders false range payload),
            some response⟩ :: log) := by
          rintro ⟨target,response',hlast,hstale⟩
          cases hlast
          simp only [isStaleUpstreamStatus,Bool.or_eq_true,beq_iff_eq] at hstale
          omega
        split
        · exact .of_fresh trivial rfl hnot hleft
        · rename_i redirected hredirected
          refine checkPublic_allows.seq fun log' safety hsafety => ?_
          have hone : fetched log' = [(payload.url,some response)] := by
            rw [hsafety.1.fetched]
            show (payload.url,some response) :: fetched log = _
            rw [hnone]
          have hleft : refreshes log' = [] := hsafety.1.refreshes.trans hleft
          cases safety with
          | refused reason =>
            exact .of_fresh (by simp [ReplyOk]) rfl
              (fun hdenied => hnot (hsafety.1.denied_iff.mp hdenied)) hleft
          | ok url =>
            have hauthorized := hgrown.mono hsafety.1.grown
            refine allows_ask.mpr ⟨⟨payload,hauthorized,hsafety.2 url rfl,⟨false,rfl⟩,
              .inr ⟨response,location,hone,hredirect.1,hredirect.2,hlocation,?_⟩⟩,fun second => ?_⟩
            · rw [hredirected,String.toList_ofList]
            · cases second with
              | none => exact .of_fresh trivial rfl (by rintro ⟨_,_,⟨⟩,-⟩) hleft
              | some response =>
                dsimp only
                exact answerUpstream_allows (hauthorized.mono (List.subset_cons_self _ _))
                  lastAnswer_cons hleft
      · cases hlocation

theorem handleMediaProxyGet_allows : (handleMediaProxyGet platform ip token range).Allows
    (ProxyOk platform ip token range) (GetOk platform ip token range) [] := by
  refine loadAuthorizedProxy_allows.seq fun log access haccess => ?_
  cases access with
  | error failure =>
    have hstatus := haccess.2.1 failure.1 failure.2 rfl
    refine .of_fresh ?_ (beq_eq_false_iff_ne.mpr (by omega)) (not_denied_of_none haccess.1.fetched)
      haccess.1.refreshes
    show failure.1 = 429 ∨ _
    omega
  | ok payload =>
    have hauthorized := haccess.2.2 payload rfl
    dsimp only
    split
    · rename_i hrange
      refine allows_ask.mpr ⟨⟨rfl,hrange,payload,hauthorized,rfl⟩,fun cached => ?_⟩
      cases cached with
      | some playlist =>
        exact .of_fresh hrange rfl (not_denied_of_none haccess.1.fetched) haccess.1.refreshes
      | none =>
        exact fetchUpstream_allows (hauthorized.mono (List.subset_cons_self _ _))
          haccess.1.fetched haccess.1.refreshes
    · exact fetchUpstream_allows hauthorized haccess.1.fetched haccess.1.refreshes

theorem handleMediaProxyHead_allows : (handleMediaProxyHead platform ip token range).Allows
    (ProxyOk platform ip token range) (fun log reply => HeadReplyOk range log reply ∧
      refreshes log = []) [] := by
  refine loadAuthorizedProxy_allows.seq fun log access haccess => ?_
  cases access with
  | error failure =>
    exact ⟨⟨haccess.2.1 failure.1 failure.2 rfl,rfl,haccess.1.fetched⟩,haccess.1.refreshes⟩
  | ok payload =>
    have hauthorized := haccess.2.2 payload rfl
    refine allows_ask.mpr ⟨⟨payload,hauthorized,hauthorized.url,⟨true,rfl⟩,
      .inl ⟨haccess.1.fetched,rfl⟩⟩,fun found => ?_⟩
    have hone : fetched (⟨.fetch payload.url (buildUpstreamHeaders true range payload),found⟩ ::
        log) = [(payload.url,found)] := congrArg ((payload.url,found) :: ·) haccess.1.fetched
    cases found with
    | none => exact ⟨⟨payload.url,hone⟩,haccess.1.refreshes⟩
    | some response => exact ⟨⟨payload.url,response,hone,rfl,rfl⟩,haccess.1.refreshes⟩

theorem fetched_length_le (h : Logged (ProxyOk platform ip token range) log) :
    (fetched log).length ≤ 2 := by
  induction log with
  | nil => exact Nat.zero_le _
  | cons asked older ih =>
    obtain ⟨e,r⟩ := asked
    cases e with
    | fetch url request =>
      obtain ⟨payload,-,-,-,⟨hnone,-⟩ | ⟨response,location,hone,-⟩⟩ := h.1
      · show ((url,r) :: fetched older).length ≤ 2
        simp [hnone]
      · show ((url,r) :: fetched older).length ≤ 2
        simp [hone]
    | _ => exact ih h.2

theorem HeadReplyOk.fetched_length_le {reply : ProxyReply} (h : HeadReplyOk range log reply) :
    (fetched log).length ≤ 1 := by
  cases reply with
  | error status message =>
    rw [h.2.2]
    exact Nat.zero_le _
  | playlist => exact h.elim
  | media status headers =>
    obtain ⟨target,response,hone,-⟩ := h
    exact (congrArg List.length hone).le
  | thrown =>
    obtain ⟨target,hone⟩ := h
    exact (congrArg List.length hone).le

end Proxy

open Interaction in
/-- Whatever the store, the name servers and the hosts outside answer, the proxy route asks no more
than it may, and answers by what it was told: every fetch comes after both rate limits, the token
and its room let the request through and is of a URL that was found public in the same request, the
token's own or the one that its host redirects to; playlists are only read, kept and minted for
whole answers; an upstream that denies a GET is reported as expired and refreshed, and a HEAD says
only whether its one answer was good. -/
theorem media_proxy_asks (platform : ProxyPlatform) (ip token : String) (range : Option String)
    (env : ServerLog → (e : ServerCall) → e.Answer) :
    (∀ newer older e r, ((handleMediaProxyGet platform ip token range).play env []).1 =
        newer ++ ⟨e,r⟩ :: older → ProxyOk platform ip token range older e) ∧
    (∀ newer older e r, ((handleMediaProxyHead platform ip token range).play env []).1 =
        newer ++ ⟨e,r⟩ :: older → ProxyOk platform ip token range older e) ∧
    (fetched ((handleMediaProxyGet platform ip token range).play env []).1).length ≤ 2 ∧
    (fetched ((handleMediaProxyHead platform ip token range).play env []).1).length ≤ 1 ∧
    GetOk platform ip token range ((handleMediaProxyGet platform ip token range).play env []).1
      ((handleMediaProxyGet platform ip token range).play env []).2 ∧
    HeadReplyOk range ((handleMediaProxyHead platform ip token range).play env []).1
      ((handleMediaProxyHead platform ip token range).play env []).2 ∧
    refreshes ((handleMediaProxyHead platform ip token range).play env []).1 = [] := by
  have hallowed : (handleMediaProxyGet platform ip token range).Allows
    (ProxyOk platform ip token range) (GetOk platform ip token range) [] :=
      handleMediaProxyGet_allows
  obtain ⟨hget,hreply⟩ := hallowed.play trivial env
  obtain ⟨hhead,hheadReply,hleft⟩ :=
    (handleMediaProxyHead_allows : Allows (ProxyOk platform ip token range) _ _ _).play trivial env
  refine ⟨fun newer older e r hsplit => ?_,fun newer older e r hsplit => ?_,
    fetched_length_le hget,hheadReply.fetched_length_le,hreply,hheadReply,hleft⟩
  · rw [hsplit] at hget
    exact hget.of_split
  · rw [hsplit] at hhead
    exact hhead.of_split

def cdnPlatform : ProxyPlatform where
  net :=
    { parseUrl := fun raw => if raw = "http://127.0.0.1/" then some ⟨"http:","127.0.0.1".toList⟩
        else some ⟨"https:","cdn.example".toList⟩
      isIP := fun hostname => if hostname = "127.0.0.1".toList then 4 else 0 }
  newUrl := fun raw _ => some raw
  allowPrivateUrls := false

/-- The outside host redirects to the loopback address. -/
def redirectsInside (_ : ServerLog) : (e : ServerCall) → e.Answer
  | .consumeRateLimit .. => true
  | .getProxyTokenPayload _ => some ⟨"https://cdn.example/a.m3u8",none,none,none,none,0⟩
  | .roomExists _ => true
  | .lookup _ => some ["93.184.216.34".toList]
  | .refreshProxyTokenTtl _ => ()
  | .peekHlsRewriteCache .. => none
  | .fetch .. => some { status := 302, location := some "http://127.0.0.1/" }
  | .getOrComputeHlsRewrite .. => .compute
  | .readText => none
  | .createProxyUrls .. => none
  | .scheduleStaleUpstreamRefresh _ => ()

example : ((handleMediaProxyGet cdnPlatform "203.0.113.9" "t" none).play redirectsInside []).2 =
    .error 403 "Forbidden redirect" := by
  decide +kernel

end WebSyncPlay
