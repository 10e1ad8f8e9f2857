import WebSyncPlay.Library.TransitionSystem

/-! Proxy URLs (`server/media/proxy-token.ts`, `server/media/http/proxy.ts`): a token is shared by
all rooms that mint the same upstream URL, and one room id in its payload decides who may use it. -/
namespace WebSyncPlay

open Library
open TransitionSystem

section Tokens

structure ProxyTokenMeta where
  referer : Option String := none
  userAgent : Option String := none
  roomId : Option String := none
  mediaId : Option String := none
  deriving DecidableEq

structure ProxyTokenPayload where
  url : String
  referer : Option String
  userAgent : Option String
  roomId : Option String
  mediaId : Option String
  createdAt : ℕ
  deriving DecidableEq

/-- A token handed out for a room, with the URL that it was minted for. -/
structure ProxyMint where
  roomId : String
  token : String
  url : String
  deriving DecidableEq

/-- The proxy keys of Redis, the rooms that have a state key, and the tokens handed out for rooms
that were not destroyed since. -/
structure ProxyWorld where
  tokens : String → Option ProxyTokenPayload
  byUrl : String → Option String
  rooms : String → Bool
  minted : List ProxyMint

/-- The payload with what a later mint adds; nothing where it adds nothing. -/
def metaUpgraded (existing : ProxyTokenPayload) (meta_ : ProxyTokenMeta) :
    Option ProxyTokenPayload :=
  let next := { existing with
    referer := meta_.referer <|> existing.referer
    userAgent := meta_.userAgent <|> existing.userAgent
    roomId := meta_.roomId <|> existing.roomId
    mediaId := meta_.mediaId <|> existing.mediaId }
  if next.referer ≠ existing.referer ∨ next.userAgent ≠ existing.userAgent ∨
      next.roomId ≠ existing.roomId ∨ next.mediaId ≠ existing.mediaId then some next
  else none

theorem metaUpgraded_getD (existing : ProxyTokenPayload) (meta_ : ProxyTokenMeta) :
    (metaUpgraded existing meta_).getD existing = { existing with
      referer := meta_.referer <|> existing.referer
      userAgent := meta_.userAgent <|> existing.userAgent
      roomId := meta_.roomId <|> existing.roomId
      mediaId := meta_.mediaId <|> existing.mediaId } := by
  unfold metaUpgraded
  dsimp only
  split
  · rfl
  · rename_i h
    simp only [not_or,not_not] at h
    obtain ⟨hreferer,hagent,hroom,hmedia⟩ := h
    rw [Option.getD_none,hreferer,hagent,hroom,hmedia]

def newPayload (targetUrl : String) (meta_ : Option ProxyTokenMeta) (now : ℕ) :
    ProxyTokenPayload where
  url := targetUrl
  referer := meta_.bind ProxyTokenMeta.referer
  userAgent := meta_.bind ProxyTokenMeta.userAgent
  roomId := meta_.bind ProxyTokenMeta.roomId
  mediaId := meta_.bind ProxyTokenMeta.mediaId
  createdAt := now

namespace ProxyWorld

variable (sha256HexUrl : String → String) (isSafe : String → Bool)

def existingToken (w : ProxyWorld) (targetUrl : String) : Option (String × ProxyTokenPayload) :=
  (w.byUrl (sha256HexUrl targetUrl)).bind fun token => (w.tokens token).map (token,·)

def setToken (w : ProxyWorld) (token : String) (payload : ProxyTokenPayload) : ProxyWorld :=
  { w with tokens := Function.update w.tokens token (some payload) }

/-- The token in the path that is returned; `token` is the new UUID. -/
def createProxyUrl (w : ProxyWorld) (targetUrl : String) (meta_ : Option ProxyTokenMeta)
    (token : String) (now : ℕ) : Option (ProxyWorld × String) :=
  if isSafe targetUrl then
    match w.existingToken sha256HexUrl targetUrl with
    | some (existing,payload) =>
      match meta_.bind (metaUpgraded payload) with
      | some upgraded => some (w.setToken existing upgraded,existing)
      | none => some (w,existing)
    | none =>
      let created := w.setToken token (newPayload targetUrl meta_ now)
      some ({ created with
        byUrl := Function.update created.byUrl (sha256HexUrl targetUrl) (some token) },token)
  else none

/-- A payload without a room belongs to everybody. -/
def roomStillExists (w : ProxyWorld) : Option String → Bool
  | none => true
  | some roomId => roomId == "" || w.rooms roomId

def loadAuthorizedProxy (w : ProxyWorld) (token : String) : Option ProxyTokenPayload :=
  (w.tokens token).bind fun payload =>
    if w.roomStillExists payload.roomId && isSafe payload.url then some payload else none

end ProxyWorld

inductive ProxyEvent
  | mint (targetUrl : String) (meta_ : Option ProxyTokenMeta) (token : String) (now : ℕ)
  | request (token : String)
  | createRoom (roomId : String)
  | destroyRoom (roomId : String)

namespace ProxyWorld

variable (sha256HexUrl : String → String) (isSafe : String → Bool)

/-- Remember the token for the room that the mint was made for. -/
def record (w : ProxyWorld) (meta_ : Option ProxyTokenMeta) (token url : String) : ProxyWorld :=
  match meta_.bind ProxyTokenMeta.roomId with
  | some roomId => { w with minted := { roomId := roomId, token := token, url := url } :: w.minted }
  | none => w

/-- One event. A new UUID is in no key; a request only renews keys that do not expire here. -/
def step (w : ProxyWorld) : ProxyEvent → Option ProxyWorld
  | .mint targetUrl meta_ token now =>
    if w.tokens token = none then
      (w.createProxyUrl sha256HexUrl isSafe targetUrl meta_ token now).map fun result =>
        result.1.record meta_ result.2 targetUrl
    else none
  | .request _ => some w
  | .createRoom roomId => some { w with rooms := Function.update w.rooms roomId true }
  | .destroyRoom roomId => some { w with
      rooms := Function.update w.rooms roomId false
      minted := w.minted.filter fun m => m.roomId != roomId }

end ProxyWorld

def proxyStart : ProxyWorld where
  tokens := fun _ => none
  byUrl := fun _ => none
  rooms := fun _ => false
  minted := []

def proxySystem (sha256HexUrl : String → String) (isSafe : String → Bool) :
    TransitionSystem ProxyWorld ProxyEvent where
  init w := w = proxyStart
  step w event w' := w.step sha256HexUrl isSafe event = some w'

end Tokens

namespace ProxyWorld

section Steps

variable {sha256HexUrl : String → String} {isSafe : String → Bool} {w w' : ProxyWorld}

/-- A mint's room id wins over the one that the payload had. -/
def upgraded (payload : ProxyTokenPayload) (meta_ : Option ProxyTokenMeta) : ProxyTokenPayload :=
  meta_.elim payload fun m => (metaUpgraded payload m).getD payload

@[simp] theorem upgraded_url (payload : ProxyTokenPayload) (meta_ : Option ProxyTokenMeta) :
    (upgraded payload meta_).url = payload.url := by
  cases meta_ <;> simp [upgraded,metaUpgraded_getD]

@[simp] theorem upgraded_roomId (payload : ProxyTokenPayload) (meta_ : Option ProxyTokenMeta) :
    (upgraded payload meta_).roomId =
      (meta_.bind ProxyTokenMeta.roomId <|> payload.roomId) := by
  cases meta_ <;> simp [upgraded,metaUpgraded_getD]

@[simp] theorem setToken_rooms (w : ProxyWorld) (token : String) (payload : ProxyTokenPayload) :
    (w.setToken token payload).rooms = w.rooms := rfl

@[simp] theorem setToken_tokens (w : ProxyWorld) (token : String) (payload : ProxyTokenPayload) :
    (w.setToken token payload).tokens = Function.update w.tokens token (some payload) := rfl

@[simp] theorem setToken_minted (w : ProxyWorld) (token : String) (payload : ProxyTokenPayload) :
    (w.setToken token payload).minted = w.minted := rfl

@[simp] theorem record_rooms (w : ProxyWorld) (meta_ : Option ProxyTokenMeta)
    (token url : String) : (w.record meta_ token url).rooms = w.rooms := by
  unfold record
  split <;> rfl

@[simp] theorem record_tokens (w : ProxyWorld) (meta_ : Option ProxyTokenMeta)
    (token url : String) : (w.record meta_ token url).tokens = w.tokens := by
  unfold record
  split <;> rfl

theorem mem_record (w : ProxyWorld) (meta_ : Option ProxyTokenMeta) (token url : String)
    (m : ProxyMint) : m ∈ (w.record meta_ token url).minted ↔
      m ∈ w.minted ∨ meta_.bind ProxyTokenMeta.roomId = some m.roomId ∧ m.token = token ∧
        m.url = url := by
  unfold record
  cases h : meta_.bind ProxyTokenMeta.roomId with
  | none => simp
  | some roomId =>
    cases m
    simp only [List.mem_cons,ProxyMint.mk.injEq,Option.some.injEq]
    grind

theorem existingToken_eq_some {targetUrl token : String} {payload : ProxyTokenPayload}
    (h : w.existingToken sha256HexUrl targetUrl = some (token,payload)) :
    w.tokens token = some payload := by
  obtain ⟨found,-,hpayload⟩ := Option.bind_eq_some_iff.mp h
  obtain ⟨p,hp,he⟩ := Option.map_eq_some_iff.mp hpayload
  cases he
  exact hp

theorem mint_cases {targetUrl token : String} {meta_ : Option ProxyTokenMeta} {now : ℕ}
    (h : w.step sha256HexUrl isSafe (.mint targetUrl meta_ token now) = some w') :
    isSafe targetUrl = true ∧ w.tokens token = none ∧
      ((∃ existing payload, w.existingToken sha256HexUrl targetUrl = some (existing,payload) ∧
          w' = (w.setToken existing (upgraded payload meta_)).record meta_ existing targetUrl) ∨
        w.existingToken sha256HexUrl targetUrl = none ∧
          w'.tokens = Function.update w.tokens token (some (newPayload targetUrl meta_ now)) ∧
          w'.rooms = w.rooms ∧
          ∀ m, m ∈ w'.minted ↔ m ∈ w.minted ∨
            meta_.bind ProxyTokenMeta.roomId = some m.roomId ∧ m.token = token ∧
              m.url = targetUrl) := by
  simp only [step,Option.ite_none_right_eq_some,Option.map_eq_some_iff] at h
  obtain ⟨hfresh,⟨world,returned⟩,hcreate,rfl⟩ := h
  unfold createProxyUrl at hcreate
  split at hcreate
  · rename_i hsafe
    refine ⟨hsafe,hfresh,?_⟩
    split at hcreate
    · rename_i existing payload hfound
      left
      refine ⟨existing,payload,hfound,?_⟩
      have hsame : w.setToken existing payload = w := by
        have htoken := existingToken_eq_some hfound
        simp [setToken,← htoken]
      split at hcreate
      · rename_i next hnext
        obtain ⟨m,rfl,hm⟩ := Option.bind_eq_some_iff.mp hnext
        cases hcreate
        simp [upgraded,hm]
      · rename_i hnext
        cases hcreate
        have hkept : upgraded payload meta_ = payload := by
          cases meta_ with
          | none => rfl
          | some m =>
            rw [Option.bind_some] at hnext
            simp [upgraded,hnext]
        rw [hkept,hsame]
    · rename_i hnone
      right
      cases hcreate
      refine ⟨hnone,?_,?_,fun m => ?_⟩
      · rw [record_tokens]
        rfl
      · rw [record_rooms]
        rfl
      · rw [mem_record]
        rfl
  · cases hcreate

end Steps

section Invariant

variable {sha256HexUrl : String → String} {isSafe : String → Bool} {w w' : ProxyWorld}

/-- Every token that was handed out for an existing room is let through and leads to the URL that
it was minted for. -/
def Survives (isSafe : String → Bool) (w : ProxyWorld) : Prop :=
  ∀ m ∈ w.minted, w.rooms m.roomId = true →
    ∃ payload, w.loadAuthorizedProxy isSafe m.token = some payload ∧ payload.url = m.url

structure ProxyInv (isSafe : String → Bool) (w : ProxyWorld) : Prop where
  safe : ∀ token payload, w.tokens token = some payload → isSafe payload.url = true
  present : ∀ m ∈ w.minted, ∃ payload, w.tokens m.token = some payload

/-- The payload leads to the URL and names no room that is gone. -/
def Serves (w : ProxyWorld) (payload : ProxyTokenPayload) (url : String) : Prop :=
  payload.url = url ∧ w.roomStillExists payload.roomId = true

theorem survives_iff_serves (h : ProxyInv isSafe w) : Survives isSafe w ↔
    ∀ m ∈ w.minted, w.rooms m.roomId = true → ∀ payload, w.tokens m.token = some payload →
      w.Serves payload m.url := by
  constructor
  · intro hs m hm hroom payload hp
    obtain ⟨found,hfound,hurl⟩ := hs m hm hroom
    simp only [loadAuthorizedProxy,hp,Option.bind_some,Option.ite_none_right_eq_some,
      Bool.and_eq_true,Option.some.injEq] at hfound
    obtain ⟨⟨hexists,-⟩,rfl⟩ := hfound
    exact ⟨hurl,hexists⟩
  · intro hs m hm hroom
    obtain ⟨payload,hp⟩ := h.present m hm
    obtain ⟨hurl,hexists⟩ := hs m hm hroom payload hp
    refine ⟨payload,?_,hurl⟩
    simp [loadAuthorizedProxy,hp,hexists,h.safe _ _ hp]

theorem step_inv {event : ProxyEvent} (h : ProxyInv isSafe w)
    (hs : w.step sha256HexUrl isSafe event = some w') : ProxyInv isSafe w' := by
  cases event with
  | mint targetUrl meta_ token now =>
    obtain ⟨hsafe,hfresh,⟨existing,payload,hfound,rfl⟩ | ⟨-,htokens,-,hminted⟩⟩ := mint_cases hs
    · have htoken := existingToken_eq_some hfound
      constructor
      · intro t p hp
        rw [record_tokens,setToken_tokens] at hp
        by_cases ht : t = existing
        · subst ht
          rw [Function.update_self] at hp
          cases hp
          rw [upgraded_url]
          exact h.safe _ _ htoken
        · rw [Function.update_of_ne ht] at hp
          exact h.safe t p hp
      · intro m hm
        rw [record_tokens,setToken_tokens]
        by_cases ht : m.token = existing
        · exact ⟨upgraded payload meta_,by simp [ht]⟩
        · rcases (mem_record _ _ _ _ m).mp hm with hold | ⟨-,hsame,-⟩
          · rw [Function.update_of_ne ht]
            exact h.present m hold
          · exact absurd hsame ht
    · constructor
      · intro t p hp
        rw [htokens] at hp
        by_cases ht : t = token
        · subst ht
          rw [Function.update_self] at hp
          cases hp
          exact hsafe
        · rw [Function.update_of_ne ht] at hp
          exact h.safe t p hp
      · intro m hm
        rw [htokens]
        by_cases ht : m.token = token
        · exact ⟨newPayload targetUrl meta_ now,by simp [ht]⟩
        · rcases (hminted m).mp hm with hold | ⟨-,hsame,-⟩
          · rw [Function.update_of_ne ht]
            exact h.present m hold
          · exact absurd hsame ht
  | request token =>
    cases hs
    exact h
  | createRoom roomId =>
    cases hs
    exact ⟨h.safe,h.present⟩
  | destroyRoom roomId =>
    cases hs
    exact ⟨h.safe,fun m hm => h.present m (List.mem_filter.mp hm).1⟩

/-- The step moves no token away from an existing room that holds it: a mint that finds the token
leads to its own URL, and names an existing room unless no room holds the token; a room that
comes back finds its old tokens as it left them; a room that goes is not the one named by a token
that another room holds. -/
def keepsProxies (sha256HexUrl : String → String) (w : ProxyWorld) : ProxyEvent → Prop
  | .mint targetUrl meta_ _ _ => ∀ found ∈ w.existingToken sha256HexUrl targetUrl,
      ∀ roomId ∈ meta_.bind ProxyTokenMeta.roomId,
        (w.rooms roomId = true → found.2.url = targetUrl) ∧
          (w.roomStillExists (some roomId) = true ∨
            ∀ m ∈ w.minted, m.token = found.1 → w.rooms m.roomId = false)
  | .request _ => True
  | .createRoom roomId => ∀ m ∈ w.minted, m.roomId = roomId →
      ∀ payload ∈ w.tokens m.token, payload.url = m.url ∧
        (payload.roomId = some roomId ∨ w.roomStillExists payload.roomId = true)
  | .destroyRoom roomId => ∀ m ∈ w.minted, m.roomId ≠ roomId → w.rooms m.roomId = true →
      ∀ payload ∈ w.tokens m.token, payload.roomId = some roomId → roomId = ""

theorem roomStillExists_congr (h : w'.rooms = w.rooms) (roomId : Option String) :
    w'.roomStillExists roomId = w.roomStillExists roomId := by
  cases roomId with
  | none => rfl
  | some roomId => simp [roomStillExists,h]

theorem roomStillExists_of_rooms {roomId : String} (h : w.rooms roomId = true) :
    w.roomStillExists (some roomId) = true := by
  simp [roomStillExists,h]

theorem roomStillExists_created (roomId : String) (named : Option String) :
    { w with rooms := Function.update w.rooms roomId true }.roomStillExists named = true ↔
      named = some roomId ∨ w.roomStillExists named = true := by
  cases named with
  | none => simp [roomStillExists]
  | some other =>
    by_cases ho : other = roomId
    · simp [roomStillExists,ho]
    · simp [roomStillExists,ho]

theorem roomStillExists_destroyed (roomId : String) (minted : List ProxyMint)
    (named : Option String) :
    { w with rooms := Function.update w.rooms roomId false
             minted := minted }.roomStillExists named = true ↔
      w.roomStillExists named = true ∧ (named = some roomId → roomId = "") := by
  cases named with
  | none => simp [roomStillExists]
  | some other =>
    by_cases ho : other = roomId
    · subst ho
      simp only [roomStillExists,Function.update_self]
      grind
    · simp [roomStillExists,ho]

theorem survives_upgrade_iff (h : ProxyInv isSafe w) (hw : Survives isSafe w)
    {targetUrl token existing : String} {meta_ : Option ProxyTokenMeta} {now : ℕ}
    {payload : ProxyTokenPayload}
    (hfound : w.existingToken sha256HexUrl targetUrl = some (existing,payload)) :
    (∀ m ∈ ((w.setToken existing (upgraded payload meta_)).record meta_ existing targetUrl).minted,
      w.rooms m.roomId = true →
        ∀ p, Function.update w.tokens existing (some (upgraded payload meta_)) m.token = some p →
          w.Serves p m.url) ↔
      keepsProxies sha256HexUrl w (.mint targetUrl meta_ token now) := by
  have htoken := existingToken_eq_some hfound
  have hserves := (survives_iff_serves h).mp hw
  have hkeeps : keepsProxies sha256HexUrl w (.mint targetUrl meta_ token now) ↔
      ∀ roomId, meta_.bind ProxyTokenMeta.roomId = some roomId →
        (w.rooms roomId = true → payload.url = targetUrl) ∧
          (w.roomStillExists (some roomId) = true ∨
            ∀ m ∈ w.minted, m.token = existing → w.rooms m.roomId = false) := by
    simp [keepsProxies,hfound]
  rw [hkeeps]
  constructor
  · intro hall roomId hroom
    constructor
    · intro hexists
      have hnew := hall { roomId := roomId, token := existing, url := targetUrl }
        ((mem_record _ _ _ _ _).mpr (.inr ⟨hroom,rfl,rfl⟩)) hexists _ (Function.update_self ..)
      simpa using hnew.1
    · by_cases hexists : w.roomStillExists (some roomId) = true
      · exact Or.inl hexists
      · right
        intro m hm ht
        by_contra hactive
        have hactive : w.rooms m.roomId = true := by simpa using hactive
        have hold := hall m ((mem_record _ _ _ _ _).mpr (.inl hm)) hactive
          (upgraded payload meta_) (by rw [ht]; exact Function.update_self ..)
        exact hexists (by simpa [hroom] using hold.2)
  · intro hcond m hm hactive p hp
    by_cases ht : m.token = existing
    · rw [ht,Function.update_self] at hp
      cases hp
      unfold Serves
      rw [upgraded_url,upgraded_roomId]
      rcases (mem_record _ _ _ _ m).mp hm with hold | ⟨hroom,-,hurl⟩
      · obtain ⟨hurl,hexists⟩ := hserves m hold hactive payload (ht ▸ htoken)
        refine ⟨hurl,?_⟩
        cases hroom : meta_.bind ProxyTokenMeta.roomId with
        | none => simpa using hexists
        | some roomId =>
          rcases (hcond roomId hroom).2 with hnow | hnobody
          · simpa using hnow
          · rw [hnobody m hold ht] at hactive
            cases hactive
      · refine ⟨((hcond _ hroom).1 hactive).trans hurl.symm,?_⟩
        rw [hroom]
        exact roomStillExists_of_rooms hactive
    · rw [Function.update_of_ne ht] at hp
      rcases (mem_record _ _ _ _ m).mp hm with hold | ⟨-,hsame,-⟩
      · exact hserves m hold hactive p hp
      · exact absurd hsame ht

/-- The condition is what a step must meet to keep the tokens alive. -/
theorem survives_step_iff {event : ProxyEvent} (h : ProxyInv isSafe w) (hw : Survives isSafe w)
    (hs : w.step sha256HexUrl isSafe event = some w') :
    Survives isSafe w' ↔ keepsProxies sha256HexUrl w event := by
  rw [survives_iff_serves (step_inv h hs)]
  have hserves := (survives_iff_serves h).mp hw
  cases event with
  | mint targetUrl meta_ token now =>
    obtain ⟨-,hfresh,⟨existing,payload,hfound,rfl⟩ | ⟨hnone,htokens,hrooms,hminted⟩⟩ :=
      mint_cases hs
    · simp only [record_rooms,record_tokens,setToken_rooms,setToken_tokens,Serves,
        roomStillExists_congr (record_rooms _ _ _ _)]
      exact survives_upgrade_iff h hw hfound
    · have hkeeps : keepsProxies sha256HexUrl w (.mint targetUrl meta_ token now) := by
        simp [keepsProxies,hnone]
      refine ⟨fun _ => hkeeps,fun _ => ?_⟩
      intro m hm hactive p hp
      rw [hrooms] at hactive
      rw [htokens] at hp
      unfold Serves
      rw [roomStillExists_congr hrooms]
      by_cases ht : m.token = token
      · rw [ht,Function.update_self] at hp
        cases hp
        rcases (hminted m).mp hm with hold | ⟨hroom,-,hurl⟩
        · obtain ⟨p,hp⟩ := h.present m hold
          rw [ht,hfresh] at hp
          cases hp
        · refine ⟨hurl.symm,?_⟩
          change w.roomStillExists (meta_.bind ProxyTokenMeta.roomId) = true
          rw [hroom]
          exact roomStillExists_of_rooms hactive
      · rw [Function.update_of_ne ht] at hp
        rcases (hminted m).mp hm with hold | ⟨-,hsame,-⟩
        · exact hserves m hold hactive p hp
        · exact absurd hsame ht
  | request token =>
    cases hs
    exact ⟨fun _ => trivial,fun _ => hserves⟩
  | createRoom roomId =>
    cases hs
    simp only [Serves,roomStillExists_created,keepsProxies,Option.mem_def]
    constructor
    · intro hall m hm hroom payload hp
      have hactive : Function.update w.rooms roomId true m.roomId = true := by simp [hroom]
      exact hall m hm hactive payload hp
    · intro hcond m hm hactive payload hp
      by_cases hroom : m.roomId = roomId
      · exact hcond m hm hroom payload hp
      · rw [Function.update_of_ne hroom] at hactive
        obtain ⟨hurl,hexists⟩ := hserves m hm hactive payload hp
        exact ⟨hurl,Or.inr hexists⟩
  | destroyRoom roomId =>
    cases hs
    simp only [Serves,roomStillExists_destroyed,keepsProxies,Option.mem_def,List.mem_filter,
      bne_iff_ne]
    constructor
    · intro hall m hm hroom hactive payload hp
      have hstays : Function.update w.rooms roomId false m.roomId = true := by
        rwa [Function.update_of_ne hroom]
      exact (hall m ⟨hm,hroom⟩ hstays payload hp).2.2
    · rintro hcond m ⟨hm,hroom⟩ hactive payload hp
      rw [Function.update_of_ne hroom] at hactive
      obtain ⟨hurl,hexists⟩ := hserves m hm hactive payload hp
      exact ⟨hurl,hexists,hcond m hm hroom hactive payload hp⟩

theorem proxyStart_inv : ProxyInv isSafe proxyStart where
  safe := fun token payload hp => by cases hp
  present := fun m hm => by cases hm

theorem proxyInv_of_reachable (h : (proxySystem sha256HexUrl isSafe).Reachable w) :
    ProxyInv isSafe w := by
  refine h.invariant (ProxyInv isSafe) ?_ fun w event w' _ hinv hs => step_inv hinv hs
  rintro _ rfl
  exact proxyStart_inv

end Invariant

end ProxyWorld

section Runs

variable {sha256HexUrl : String → String} {isSafe : String → Bool} {w : ProxyWorld}

open ProxyWorld

/-- In the runs whose steps meet the condition no token is lost to another room, and a step that
does not meet it takes one away. -/
theorem proxy_urls_survive
    (h : ((proxySystem sha256HexUrl isSafe).restrict (keepsProxies sha256HexUrl)).Reachable w) :
    Survives isSafe w ∧ ∀ event w', (proxySystem sha256HexUrl isSafe).step w event w' →
      (Survives isSafe w' ↔ keepsProxies sha256HexUrl w event) := by
  have hsurvives : Survives isSafe w := by
    refine h.invariant (Survives isSafe) ?_ fun w event w' hr hw hs => ?_
    · rintro _ rfl m hm
      cases hm
    · exact (survives_step_iff (proxyInv_of_reachable hr.of_restrict) hw hs.2).mpr hs.1
  exact ⟨hsurvives,fun event w' hs =>
    survives_step_iff (proxyInv_of_reachable h.of_restrict) hsurvives hs⟩

/-- Two rooms share a URL, the token follows room `a` again, and room `b` goes. -/
def sharedAndReturned : List ProxyEvent :=
  [.createRoom "a",.createRoom "b",
    .mint "https://host/a" (some { roomId := some "a" }) "t1" 1000,
    .mint "https://host/a" (some { roomId := some "b" }) "t2" 2000,
    .mint "https://host/a" (some { roomId := some "a", referer := some "https://host" }) "t3" 3000,
    .destroyRoom "b",.request "t1"]

/-- Room `b` mints the URL of room `a`, and goes. -/
def sharedUrl : List ProxyEvent :=
  [.createRoom "a",.createRoom "b",
    .mint "https://host/v" (some { roomId := some "a" }) "t1" 1000,
    .mint "https://host/v" (some { roomId := some "b" }) "t2" 2000,
    .destroyRoom "b"]

instance (w : ProxyWorld) (event : ProxyEvent) : Decidable (keepsProxies sha256HexUrl w event) :=
  match event with
  | .mint _ _ _ _ => inferInstanceAs (Decidable (∀ found ∈ _, ∀ roomId ∈ _, _ ∧ (_ ∨ _)))
  | .request _ => inferInstanceAs (Decidable True)
  | .createRoom _ => inferInstanceAs (Decidable (∀ m ∈ _, _ → ∀ payload ∈ _, _ ∧ (_ ∨ _)))
  | .destroyRoom _ => inferInstanceAs (Decidable (∀ m ∈ _, _ → _ → ∀ payload ∈ _, _ → _))

theorem proxy_urls_survive_own : ∃ w : ProxyWorld,
    ((proxySystem id fun _ => true).restrict (keepsProxies id)).Reachable w ∧
      w.rooms "a" = true ∧ w.rooms "b" = false ∧
      ∃ payload, w.loadAuthorizedProxy (fun _ => true) "t1" = some payload ∧
        payload.url = "https://host/a" := by
  have hrun : ((runSteps (guardStep (ProxyWorld.step id fun _ => true) (keepsProxies id))
      proxyStart sharedAndReturned).any fun w => w.rooms "a" && !w.rooms "b" &&
        w.minted.any fun m => m == ⟨"a","t1","https://host/a"⟩) = true := by
    decide +kernel
  obtain ⟨w,hw,hfacts⟩ := (Option.any_eq_true _ _).mp hrun
  simp only [Bool.and_eq_true,Bool.not_eq_true',List.any_eq_true,beq_iff_eq] at hfacts
  obtain ⟨⟨ha,hb⟩,m,hm,rfl⟩ := hfacts
  have hr : ((proxySystem id fun _ => true).restrict (keepsProxies id)).Reachable w :=
    .of_guardSteps (fun _ _ _ => id) _ (.init rfl) hw
  exact ⟨w,hr,ha,hb,(proxy_urls_survive hr).1 _ hm ha⟩

/-- The token that room `a` holds is gone with room `b`. -/
theorem proxy_url_lost_with_other_room : ∃ w : ProxyWorld,
    (proxySystem id fun _ => true).Reachable w ∧ w.rooms "a" = true ∧
      (⟨"a","t1","https://host/v"⟩ : ProxyMint) ∈ w.minted ∧
      w.loadAuthorizedProxy (fun _ => true) "t1" = none := by
  have hrun : ((runSteps (ProxyWorld.step id fun _ => true) proxyStart sharedUrl).any fun w =>
      w.rooms "a" && w.minted.any (fun m => m == ⟨"a","t1","https://host/v"⟩) &&
        (w.loadAuthorizedProxy (fun _ => true) "t1").isNone) = true := by
    decide +kernel
  obtain ⟨w,hw,hfacts⟩ := (Option.any_eq_true _ _).mp hrun
  simp only [Bool.and_eq_true,List.any_eq_true,beq_iff_eq,Option.isNone_iff_eq_none] at hfacts
  obtain ⟨⟨ha,m,hm,rfl⟩,hnone⟩ := hfacts
  exact ⟨w,.of_runSteps (fun _ _ _ => id) _ (.init rfl) hw,ha,hm,hnone⟩

end Runs
end WebSyncPlay
