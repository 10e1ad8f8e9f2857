import WebSyncPlay.LocalMediaBinary
import WebSyncPlay.RoomState
import WebSyncPlay.Library.Text
import WebSyncPlay.Library.TransitionSystem
import WebSyncPlay.Library.UrlEncoded

/-! The identity that a tab takes over from the fragment of its URL
(`client/realtime/session-identity.ts`, `client/realtime/control-url.ts`,
`hooks/use-session-identity-bootstrap.ts`): the fragment is read once for all the effects that ask
for it, whatever strips or restores it in the meantime. -/
namespace WebSyncPlay

open Library TransitionSystem

section Hash

/-- Letters, digits and the marks that `encodeURIComponent` leaves alone. -/
def isUriUnreserved (c : Char) : Bool :=
  c.isAlphanum || ['-','_','.','!','~','*',Char.ofNat 0x27,'(',')'].contains c

def asciiText (bytes : List UInt8) : List Char := bytes.map fun b => Char.ofNat b.toNat

def encodeURIComponent (s : List Char) : List Char :=
  s.flatMap fun c =>
    if isUriUnreserved c then [c]
    else (String.utf8EncodeChar c).flatMap fun b => asciiText (UrlEncoded.encodeByte b)

/-- `new URLSearchParams(raw)`. -/
def URLSearchParams (raw : List Char) : List (List Char × List Char) :=
  let init := if raw.head? = some '?' then raw.tail else raw
  (UrlEncoded.formPairs (init.flatMap String.utf8EncodeChar)).map fun field =>
    (utf8Go none field.1,utf8Go none field.2)

def searchParam (params : List (List Char × List Char)) (name : String) : Option (List Char) :=
  (params.find? fun field => field.1 = name.toList).map Prod.snd

def isValidIdentityValue (value : List Char) : Bool := !(trimText value).isEmpty

def validIdentityValue (value : Option (List Char)) : Option (List Char) :=
  value.filter isValidIdentityValue

/-- Whether the text matches `/(^|[&;])name(?:[=&;]|$)/i`. -/
def hasBareName (rawHash : List Char) (name : String) : Bool :=
  (rawHash.splitOnP fun c => c = '&' || c = ';').any fun part =>
    (part.takeWhile (· ≠ '=')).map Char.toLower = name.toList

def looksLikeIdentityBootstrapHash (rawHash : List Char) : Bool :=
  ["uid","secret","ct"].any fun name =>
    (searchParam (URLSearchParams rawHash) name).isSome || hasBareName rawHash name

def buildIdentityHash (userId userSecret : List Char) (controlToken : Option (List Char)) :
    List Char :=
  let base := "uid=".toList ++ encodeURIComponent userId ++ "&secret=".toList ++
    encodeURIComponent userSecret
  match controlToken.filter (· ≠ []) with
  | none => base
  | some token => base ++ "&ct=".toList ++ encodeURIComponent token

def roomPath (roomId : List Char) (embed : Option String) : List Char :=
  "/room/".toList ++ encodeURIComponent roomId ++
    match embed with
    | none => []
    | some embed => '/' :: embed.toList

def hasIdentityCredentials (userId userSecret : List Char) : Bool :=
  isValidIdentityValue userId && isValidIdentityValue userSecret

def withIdentityHash (path userId userSecret : List Char) (controlToken : Option (List Char)) :
    Option (List Char) :=
  if hasIdentityCredentials userId userSecret then
    some (path ++ '#' :: buildIdentityHash userId userSecret controlToken)
  else none

def getControlEmbedUrl (roomId userId userSecret : List Char) (controlToken : Option (List Char)) :
    List Char :=
  (withIdentityHash (roomPath roomId (some "control")) userId userSecret controlToken).getD []

def getPlayerEmbedUrl (roomId userId userSecret : List Char) : List Char :=
  (withIdentityHash (roomPath roomId (some "player")) userId userSecret none).getD []

def getRoomPopupUrl (roomId userId userSecret : List Char) : List Char :=
  (withIdentityHash (roomPath roomId none) userId userSecret none).getD []

/-- `location.hash` without its `#`. -/
def rawHashOf (url : List Char) : List Char := (url.dropWhile (· ≠ '#')).drop 1

structure ConsumedSessionIdentity where
  userId : Option (List Char) := none
  userSecret : Option (List Char) := none
  controlToken : Option (List Char) := none
  deriving DecidableEq

/-- What a fragment holds, if it has both a user id and a secret. -/
def identityOfHash (rawHash : List Char) :
    Option (List Char × List Char × Option (List Char)) :=
  let params := URLSearchParams rawHash
  match validIdentityValue (searchParam params "uid"),
    validIdentityValue (searchParam params "secret") with
  | some userId,some userSecret =>
    some (userId,userSecret,validIdentityValue (searchParam params "ct"))
  | _,_ => none

end Hash

section RoundTrip

variable {userId userSecret roomId : List Char} {controlToken : Option (List Char)}

/-- The bytes that `encodeURIComponent` leaves alone. -/
def keepByte (b : UInt8) : Bool := b.toNat < 0x80 && isUriUnreserved (Char.ofNat b.toNat)

theorem formSafe_keepByte : UrlEncoded.FormSafe keepByte := by
  constructor <;> decide

theorem isUriUnreserved_ascii {c : Char} (h : isUriUnreserved c = true) : c.toNat < 0x80 := by
  rw [isUriUnreserved,Bool.or_eq_true] at h
  rcases h with halnum | hmark
  · simp only [Char.isAlphanum,Char.isAlpha,Char.isUpper,Char.isLower,Char.isDigit,
      Bool.or_eq_true,decide_eq_true_eq,Bool.and_eq_true] at halnum
    simp only [UInt32.le_iff_toNat_le] at halnum
    have hval : c.toNat = c.val.toNat := rfl
    simp at halnum
    omega
  · simp at hmark
    rcases hmark with rfl | rfl | rfl | rfl | rfl | rfl | rfl | rfl | rfl <;> decide

theorem le_of_mem_utf8EncodeChar {c : Char} (h : 0x80 ≤ c.toNat) {b : UInt8}
    (hb : b ∈ String.utf8EncodeChar c) : 0x80 ≤ b.toNat := by
  have hval : c.toNat = c.val.toNat := rfl
  have hupper : c.val.toNat < 0x110000 := by
    have hvalid := c.valid
    simp only [UInt32.isValidChar,Nat.isValidChar] at hvalid
    omega
  unfold String.utf8EncodeChar at hb
  dsimp only at hb
  split at hb
  · omega
  · split at hb
    · simp at hb
      rcases hb with rfl | rfl <;> simp <;> omega
    · split at hb
      · simp at hb
        rcases hb with rfl | rfl | rfl <;> simp <;> omega
      · simp at hb
        rcases hb with rfl | rfl | rfl | rfl <;> simp <;> omega

theorem utf8_asciiText {bytes : List UInt8} (h : ∀ b ∈ bytes, b.toNat < 0x80) :
    (asciiText bytes).flatMap String.utf8EncodeChar = bytes := by
  induction bytes with
  | nil => rfl
  | cons b bytes ih =>
    have hb : b.toNat < 0x80 := h b (by simp)
    have hchar : (Char.ofNat b.toNat).toNat = b.toNat := by
      rw [Char.toNat_ofNat,if_pos (by simp only [Nat.isValidChar]; omega)]
    obtain ⟨byte,hbyte,hval⟩ := utf8EncodeChar_ascii (c := Char.ofNat b.toNat) (by omega)
    have hsame : byte = b := UInt8.toNat_inj.mp (hval.trans hchar)
    have hrest := ih fun b hb => h b (by simp [hb])
    simp only [asciiText] at hrest
    simp [asciiText,hbyte,hsame,hrest]

theorem encodeByte_ascii (b : UInt8) : ∀ e ∈ UrlEncoded.encodeByte b, e.toNat < 0x80 := by
  have hdigit : ∀ n < 16, (UrlEncoded.hexDigit n).toNat < 0x80 := by decide
  obtain ⟨hhigh,hlow⟩ := UrlEncoded.halves_lt b
  simp [UrlEncoded.encodeByte,UrlEncoded.percent,hdigit _ hhigh,hdigit _ hlow]

theorem utf8_encodeURIComponent (s : List Char) :
    (encodeURIComponent s).flatMap String.utf8EncodeChar =
      UrlEncoded.encode keepByte (s.flatMap String.utf8EncodeChar) := by
  induction s with
  | nil => rfl
  | cons c s ih =>
    have hsplit : encodeURIComponent (c :: s) =
        (if isUriUnreserved c then [c]
          else (String.utf8EncodeChar c).flatMap fun b => asciiText (UrlEncoded.encodeByte b)) ++
        encodeURIComponent s := rfl
    have happend : ∀ bytes more, UrlEncoded.encode keepByte (bytes ++ more) =
        UrlEncoded.encode keepByte bytes ++ UrlEncoded.encode keepByte more := by
      intro bytes more
      exact List.flatMap_append
    rw [hsplit,List.flatMap_append,ih,List.flatMap_cons,happend]
    congr 1
    by_cases hc : isUriUnreserved c = true
    · obtain ⟨b,hb,hval⟩ := utf8EncodeChar_ascii (isUriUnreserved_ascii hc)
      have hkeep : keepByte b = true := by
        have hsmall := isUriUnreserved_ascii hc
        simp [keepByte,hval,hc,hsmall]
      simp [hc,hb,UrlEncoded.encode,hkeep]
    · have hescaped : ∀ b ∈ String.utf8EncodeChar c, keepByte b = false := by
        intro b hb
        by_cases hsmall : c.toNat < 0x80
        · obtain ⟨byte,hbyte,hval⟩ := utf8EncodeChar_ascii hsmall
          rw [hbyte,List.mem_singleton] at hb
          simp [keepByte,hb,hval,hc]
        · have hlarge := le_of_mem_utf8EncodeChar (by omega) hb
          simp [keepByte]
          omega
      rw [if_neg hc]
      generalize String.utf8EncodeChar c = bytes at hescaped
      induction bytes with
      | nil => rfl
      | cons b bytes ih =>
        have hhead : keepByte b = false := hescaped b (by simp)
        have htail := ih fun b hb => hescaped b (by simp [hb])
        rw [List.flatMap_cons,List.flatMap_append,utf8_asciiText (encodeByte_ascii b),htail]
        simp [UrlEncoded.encode,hhead]

end RoundTrip

section Fragment

variable {userId userSecret roomId : List Char} {controlToken : Option (List Char)}

def hashFields (userId userSecret : List Char) (controlToken : Option (List Char)) :
    List (List Char × List Char) :=
  ("uid".toList,userId) :: ("secret".toList,userSecret) ::
    ((controlToken.filter (· ≠ [])).map fun token => ("ct".toList,token)).toList

theorem utf8_buildIdentityHash (userId userSecret : List Char) (controlToken : Option (List Char)) :
    (buildIdentityHash userId userSecret controlToken).flatMap String.utf8EncodeChar =
      [UrlEncoded.ampersand].intercalate
        (((hashFields userId userSecret controlToken).map fun field =>
            (field.1.flatMap String.utf8EncodeChar,field.2.flatMap String.utf8EncodeChar)).map
          (UrlEncoded.encodePair keepByte)) := by
  have huid : UrlEncoded.encode keepByte ("uid".toList.flatMap String.utf8EncodeChar) ++
      [UrlEncoded.equals] = "uid=".toList.flatMap String.utf8EncodeChar := by decide
  have hsecret : UrlEncoded.ampersand ::
      (UrlEncoded.encode keepByte ("secret".toList.flatMap String.utf8EncodeChar) ++
        [UrlEncoded.equals]) = "&secret=".toList.flatMap String.utf8EncodeChar := by decide
  have hct : UrlEncoded.ampersand ::
      (UrlEncoded.encode keepByte ("ct".toList.flatMap String.utf8EncodeChar) ++
        [UrlEncoded.equals]) = "&ct=".toList.flatMap String.utf8EncodeChar := by decide
  have htwo : ∀ first second : List UInt8, [UrlEncoded.ampersand].intercalate [first,second] =
      first ++ UrlEncoded.ampersand :: second := by simp
  have hthree : ∀ first second third : List UInt8,
      [UrlEncoded.ampersand].intercalate [first,second,third] =
        first ++ UrlEncoded.ampersand :: (second ++ UrlEncoded.ampersand :: third) := by simp
  unfold buildIdentityHash hashFields
  cases controlToken.filter (· ≠ []) with
  | none =>
    simp only [Option.map_none,Option.toList_none,List.map_cons,List.map_nil,htwo]
    simp only [List.flatMap_append,utf8_encodeURIComponent,← huid,← hsecret,UrlEncoded.encodePair,
      List.append_assoc,List.cons_append,List.nil_append]
  | some token =>
    simp only [Option.map_some,Option.toList_some,List.map_cons,List.map_nil,hthree]
    simp only [List.flatMap_append,utf8_encodeURIComponent,← huid,← hsecret,← hct,
      UrlEncoded.encodePair,List.append_assoc,List.cons_append,List.nil_append]

/-- The parser reads the fields of a fragment back, whatever the texts. -/
theorem URLSearchParams_buildIdentityHash (userId userSecret : List Char)
    (controlToken : Option (List Char)) :
    URLSearchParams (buildIdentityHash userId userSecret controlToken) =
      hashFields userId userSecret controlToken := by
  have hhead : (buildIdentityHash userId userSecret controlToken).head? ≠ some '?' := by
    unfold buildIdentityHash
    cases controlToken.filter (· ≠ []) <;> simp
  unfold URLSearchParams
  rw [if_neg hhead]
  dsimp only
  rw [utf8_buildIdentityHash,UrlEncoded.formPairs_encode formSafe_keepByte,List.map_map]
  conv_rhs => rw [← List.map_id (hashFields userId userSecret controlToken)]
  apply List.map_congr_left
  intro field _
  simp [utf8Go_flatMap]

theorem validIdentityValue_some {value : List Char} (h : isValidIdentityValue value = true) :
    validIdentityValue (some value) = some value := by
  simp [validIdentityValue,h]

theorem searchParam_uid :
    searchParam (hashFields userId userSecret controlToken) "uid" = some userId := rfl

theorem searchParam_secret :
    searchParam (hashFields userId userSecret controlToken) "secret" = some userSecret := rfl

/-- What a tab takes over from the URL that another one built. -/
theorem identityOfHash_buildIdentityHash (huser : isValidIdentityValue userId = true)
    (hsecret : isValidIdentityValue userSecret = true) :
    identityOfHash (buildIdentityHash userId userSecret controlToken) =
      some (userId,userSecret,validIdentityValue controlToken) := by
  unfold identityOfHash
  dsimp only
  rw [URLSearchParams_buildIdentityHash]
  have hct : validIdentityValue (searchParam (hashFields userId userSecret controlToken) "ct") =
      validIdentityValue controlToken := by
    cases controlToken with
    | none => rfl
    | some token =>
      by_cases htoken : token = []
      · subst htoken
        have hempty : (some []).filter (fun token : List Char => decide (token ≠ [])) = none := rfl
        have hblank : validIdentityValue (some []) = none := by decide
        rw [hashFields,hempty,hblank]
        simp [searchParam,validIdentityValue]
      · have hkept : (some token).filter (fun token : List Char => decide (token ≠ [])) =
            some token := by
          rw [Option.filter_some,if_pos (by simpa using htoken)]
        rw [hashFields,hkept]
        simp [searchParam]
  rw [searchParam_uid,searchParam_secret,hct,validIdentityValue_some huser,
    validIdentityValue_some hsecret]

theorem identityOfHash_nil : identityOfHash [] = none := by decide

theorem looksLike_buildIdentityHash :
    looksLikeIdentityBootstrapHash (buildIdentityHash userId userSecret controlToken) = true := by
  rw [looksLikeIdentityBootstrapHash,List.any_cons,URLSearchParams_buildIdentityHash,
    searchParam_uid]
  rfl

theorem hash_not_mem_roomPath {embed : Option String} (h : ∀ e ∈ embed, '#' ∉ e.toList) :
    '#' ∉ roomPath roomId embed := by
  have hcomponent : '#' ∉ encodeURIComponent roomId := by
    intro hmem
    obtain ⟨c,-,hc⟩ := List.mem_flatMap.mp hmem
    split at hc
    · rename_i hkept
      rw [List.mem_singleton] at hc
      rw [← hc] at hkept
      exact absurd hkept (by decide)
    · obtain ⟨b,-,hb⟩ := List.mem_flatMap.mp hc
      have hdigit : ∀ n < 16, '#' ≠ Char.ofNat (UrlEncoded.hexDigit n).toNat := by decide
      obtain ⟨hhigh,hlow⟩ := UrlEncoded.halves_lt b
      have hpercent : '#' ≠ Char.ofNat UrlEncoded.percent.toNat := by decide
      simp [asciiText,UrlEncoded.encodeByte,hdigit _ hhigh,hdigit _ hlow,hpercent] at hb
  have hroom : '#' ∉ "/room/".toList := by decide
  have hslash : '#' ≠ '/' := by decide
  have hpath : '#' ∉ "/room/".toList ++ encodeURIComponent roomId := fun hmem =>
    (List.mem_append.mp hmem).elim hroom hcomponent
  cases embed with
  | none =>
    show '#' ∉ "/room/".toList ++ encodeURIComponent roomId ++ []
    rw [List.append_nil]
    exact hpath
  | some embed =>
    show '#' ∉ "/room/".toList ++ encodeURIComponent roomId ++ '/' :: embed.toList
    rw [List.mem_append,List.mem_cons]
    rintro (hpre | hsame | hrest)
    · exact hpath hpre
    · exact hslash hsame
    · exact h embed rfl hrest

theorem rawHashOf_append {path hash : List Char} (hpath : '#' ∉ path) :
    rawHashOf (path ++ '#' :: hash) = hash := by
  have hkept : ∀ c ∈ path, decide (c ≠ '#') = true := by
    intro c hc
    have hne : c ≠ '#' := fun heq => hpath (heq ▸ hc)
    simp [hne]
  rw [rawHashOf,List.dropWhile_append_of_pos hkept]
  simp

/-- What the tab of an embed takes over: all that the URL was built from, or nothing if there were
no credentials to build it from. -/
theorem identityOfHash_withIdentityHash {path : List Char} (hpath : '#' ∉ path) :
    identityOfHash
        (rawHashOf ((withIdentityHash path userId userSecret controlToken).getD [])) =
      if hasIdentityCredentials userId userSecret then
        some (userId,userSecret,validIdentityValue controlToken)
      else none := by
  rw [withIdentityHash]
  split
  · rename_i hcredentials
    rw [hasIdentityCredentials,Bool.and_eq_true] at hcredentials
    rw [Option.getD_some,rawHashOf_append hpath]
    exact identityOfHash_buildIdentityHash hcredentials.1 hcredentials.2
  · decide

end Fragment

section Tab

/-- `localStorage` holds a secret under the tab's key, or a text from before secrets were
encrypted. -/
inductive StoredSecret
  | sealed (plaintext : List Char)
  | legacy (text : List Char)
  deriving DecidableEq

inductive IdentityPromise
  | run (id : ℕ)
  | resolved (result : ConsumedSessionIdentity)
  deriving DecidableEq

/-- A call of `consumeSessionIdentityFromHashOnce`: it encrypts the secret, then it is over, and
last the continuation that all its callers wait for has run. -/
inductive ConsumeRun
  | encrypting (userId userSecret : List Char) (controlToken : Option (List Char))
  | returned (result : ConsumedSessionIdentity)
  | threw
  | settled (result : Option ConsumedSessionIdentity)
  deriving DecidableEq

/-- The first effect of `useSessionIdentityBootstrap`. -/
inductive BootstrapPhase
  | consuming (promise : IdentityPromise)
  | decrypting (fromHash : ConsumedSessionIdentity) (userId : List Char) (stored : StoredSecret)
  | encrypting (fromHash : ConsumedSessionIdentity) (userId userSecret : List Char)
  | finished (userId userSecret : List Char)
  | failed
  deriving DecidableEq

structure Bootstrap where
  sessionKind : SessionKind
  roomId : Option (List Char)
  phase : BootstrapPhase
  cancelled : Bool := false
  controlToken : Option (List Char) := none
  /-- What it passed to `setIdentity`. -/
  identity : Option (List Char × List Char) := none
  deriving DecidableEq

/-- The second effect: it strips the fragment once the identity was read, twice more shortly
after, and at each `hashchange`. -/
structure StripEffect where
  promise : IdentityPromise
  deferred : Option ℕ := none
  disposed : Bool := false
  deriving DecidableEq

/-- A tab with its storage, which takes every write, and the variables of the module. -/
structure IdentityTab where
  hash : List Char
  /-- Every fragment that the address bar has shown. -/
  shown : List (List Char)
  userId : Option (List Char)
  userSecret : Option StoredSecret
  /-- The control tokens of `sessionStorage`, by room. -/
  controlTokens : List Char → Option (List Char)
  consumeInFlight : Option ℕ := none
  consumeInFlightHash : Option (List Char) := none
  consumedFromHash : Option ConsumedSessionIdentity := none
  runs : List ConsumeRun := []
  bootstraps : List Bootstrap := []
  strips : List StripEffect := []

namespace IdentityTab

def clearUrlHash (tab : IdentityTab) : IdentityTab := { tab with hash := [] }

def stripIdentityHashFromUrl (tab : IdentityTab) : IdentityTab :=
  if tab.hash = [] ∨ looksLikeIdentityBootstrapHash tab.hash = false then tab
  else tab.clearUrlHash

/-- The part of a call before its first `await`. -/
def consumeSessionIdentityFromHashOnce (tab : IdentityTab) (rawHash : List Char) :
    IdentityTab × ConsumeRun :=
  if rawHash = [] then (tab,.returned {})
  else
    match identityOfHash rawHash with
    | none => (tab.stripIdentityHashFromUrl,.returned {})
    | some (userId,userSecret,controlToken) =>
      ({ tab with userId := some userId },.encrypting userId userSecret controlToken)

def startRun (tab : IdentityTab) : IdentityTab × IdentityPromise :=
  let (after,run) := tab.consumeSessionIdentityFromHashOnce tab.hash
  ({ after with
    runs := after.runs ++ [run]
    consumeInFlight := some after.runs.length
    consumeInFlightHash := some tab.hash },.run after.runs.length)

def consumeSessionIdentityFromHash (tab : IdentityTab) : IdentityTab × IdentityPromise :=
  let inFlight := tab.consumeInFlight.filter fun _ =>
    tab.hash = [] ∨ some tab.hash = tab.consumeInFlightHash
  match inFlight,tab.consumedFromHash.filter fun _ => tab.hash = [] with
  | some id,_ => (tab,.run id)
  | none,some result => (tab,.resolved result)
  | none,none => tab.startRun

def outcome? (tab : IdentityTab) : IdentityPromise → Option (Option ConsumedSessionIdentity)
  | .resolved result => some (some result)
  | .run id =>
    match tab.runs[id]? with
    | some (.settled result) => some result
    | _ => none

def setRun (tab : IdentityTab) (id : ℕ) (run : ConsumeRun) : IdentityTab :=
  { tab with runs := tab.runs.set id run }

def setBootstrap (tab : IdentityTab) (m : ℕ) (bootstrap : Bootstrap) : IdentityTab :=
  { tab with bootstraps := tab.bootstraps.set m bootstrap }

def setStrip (tab : IdentityTab) (k : ℕ) (effect : StripEffect) : IdentityTab :=
  { tab with strips := tab.strips.set k effect }

/-- The continuation of a run, which its callers' continuations follow. -/
def settleRun (tab : IdentityTab) (id : ℕ) (result : Option ConsumedSessionIdentity) :
    IdentityTab :=
  let after := tab.setRun id (.settled result)
  if tab.consumeInFlight = some id then
    { after with
      consumeInFlight := none
      consumeInFlightHash := none
      consumedFromHash :=
        match result with
        | some consumed =>
          if (validIdentityValue consumed.userId).isSome then some consumed
          else tab.consumedFromHash
        | none => tab.consumedFromHash }
  else after

def persistControlToken (tab : IdentityTab) (roomId token : List Char) : IdentityTab :=
  if isValidIdentityValue roomId && isValidIdentityValue token then
    { tab with controlTokens := Function.update tab.controlTokens roomId (some token) }
  else tab

/-- The token that a session starts with. A fragment's token goes to storage for a refresh. -/
def resolveBootstrapControlToken (tab : IdentityTab) (sessionKind : SessionKind)
    (roomId hashControlToken : Option (List Char)) : IdentityTab × Option (List Char) :=
  match hashControlToken.filter (· ≠ []),roomId.filter (· ≠ []) with
  | some token,some roomId => (tab.persistControlToken roomId token,some token)
  | some token,none => (tab,some token)
  | none,some roomId =>
    if sessionKind = .control then
      (tab,if isValidIdentityValue roomId then tab.controlTokens roomId else none)
    else (tab,none)
  | none,none => (tab,none)

/-- `getOrCreateSessionIdentity` up to its first `await`, with the values that it would make up. -/
def beginGetOrCreate (tab : IdentityTab) (fromHash : ConsumedSessionIdentity)
    (uuid randomHex : List Char) : IdentityTab × BootstrapPhase :=
  let userId := (validIdentityValue tab.userId).getD uuid
  let after := { tab with userId := some userId }
  match tab.userSecret with
  | none => (after,.encrypting fromHash userId randomHex)
  | some (.sealed plaintext) => (after,.decrypting fromHash userId (.sealed plaintext))
  | some (.legacy text) =>
    if isValidIdentityValue text then (after,.decrypting fromHash userId (.legacy text))
    else (after,.encrypting fromHash userId randomHex)

/-- Both identities are there: the fragment's values go before the stored ones, unless the effect
was cancelled. -/
def finish (tab : IdentityTab) (m : ℕ) (bootstrap : Bootstrap)
    (fromHash : ConsumedSessionIdentity) (userId userSecret : List Char) : IdentityTab :=
  tab.setBootstrap m { bootstrap with
    phase := .finished userId userSecret
    identity := if bootstrap.cancelled then none
      else some (fromHash.userId.getD userId,fromHash.userSecret.getD userSecret) }

end IdentityTab

inductive IdentityAction
  | bootstrap (sessionKind : SessionKind) (roomId : Option (List Char))
  | stripEffect
  /-- The address bar gets another fragment, or an old one again. -/
  | navigate (rawHash : List Char)
  | hashchange
  | runEncrypted (id : ℕ) (ok : Bool)
  | settleRun (id : ℕ)
  | resume (m : ℕ) (uuid randomHex : List Char)
  | decrypted (m : ℕ) (ok : Bool) (randomHex : List Char)
  | encrypted (m : ℕ) (ok : Bool)
  | cancel (m : ℕ)
  | afterConsume (k : ℕ)
  | deferredStrip (k : ℕ)
  | dispose (k : ℕ)

namespace IdentityTab

/-- The continuation of a bootstrap after `await consumeSessionIdentityFromHash()`. -/
def resumeBootstrap (tab : IdentityTab) (m : ℕ) (bootstrap : Bootstrap)
    (uuid randomHex : List Char) : Option ConsumedSessionIdentity → IdentityTab
  | none => tab.setBootstrap m { bootstrap with phase := .failed }
  | some fromHash =>
    let (withToken,token) := tab.resolveBootstrapControlToken bootstrap.sessionKind
      bootstrap.roomId fromHash.controlToken
    let (after,phase) := withToken.beginGetOrCreate fromHash uuid randomHex
    after.setBootstrap m { bootstrap with controlToken := token, phase := phase }

/-- The continuation after `await decryptSecret(stored)`. -/
def decryptedBootstrap (tab : IdentityTab) (m : ℕ) (bootstrap : Bootstrap) (ok : Bool)
    (randomHex : List Char) : Option IdentityTab :=
  match bootstrap.phase with
  | .decrypting fromHash userId (.legacy text) =>
    -- A legacy secret is encrypted before it is used.
    some (tab.setBootstrap m { bootstrap with phase := .encrypting fromHash userId text })
  | .decrypting fromHash userId (.sealed plaintext) =>
    if ok && isValidIdentityValue plaintext then
      some (tab.finish m bootstrap fromHash userId plaintext)
    else
      some (tab.setBootstrap m { bootstrap with phase := .encrypting fromHash userId randomHex })
  | _ => none

def step (tab : IdentityTab) : IdentityAction → Option IdentityTab
  | .bootstrap sessionKind roomId =>
    let (after,promise) := tab.consumeSessionIdentityFromHash
    some { after with
      bootstraps := after.bootstraps ++ [⟨sessionKind,roomId,.consuming promise,false,none,none⟩] }
  | .stripEffect =>
    let (after,promise) := tab.consumeSessionIdentityFromHash
    some { after with strips := after.strips ++ [⟨promise,none,false⟩] }
  | .navigate rawHash => some { tab with hash := rawHash, shown := rawHash :: tab.shown }
  | .hashchange =>
    if tab.strips.any fun effect => !effect.disposed then some tab.stripIdentityHashFromUrl
    else none
  | .runEncrypted id ok =>
    match tab.runs[id]? with
    | some (.encrypting userId userSecret controlToken) =>
      if ok then
        some ({ tab with userSecret := some (.sealed userSecret) }.clearUrlHash.setRun id
          (.returned ⟨some userId,some userSecret,controlToken⟩))
      else some (tab.setRun id .threw)
    | _ => none
  | .settleRun id =>
    match tab.runs[id]? with
    | some (.returned result) => some (tab.settleRun id (some result))
    | some .threw => some (tab.settleRun id none)
    | _ => none
  | .resume m uuid randomHex => tab.bootstraps[m]?.bind fun bootstrap =>
    match bootstrap.phase with
    | .consuming promise =>
      (tab.outcome? promise).map (tab.resumeBootstrap m bootstrap uuid randomHex)
    | _ => none
  | .decrypted m ok randomHex => tab.bootstraps[m]?.bind fun bootstrap =>
    tab.decryptedBootstrap m bootstrap ok randomHex
  | .encrypted m ok => tab.bootstraps[m]?.bind fun bootstrap =>
    match bootstrap.phase with
    | .encrypting fromHash userId userSecret =>
      if ok then
        some ({ tab with userSecret := some (.sealed userSecret) }.finish m bootstrap fromHash
          userId userSecret)
      else some (tab.setBootstrap m { bootstrap with phase := .failed })
    | _ => none
  | .cancel m => tab.bootstraps[m]?.map fun bootstrap =>
    tab.setBootstrap m { bootstrap with cancelled := true }
  | .afterConsume k => tab.strips[k]?.bind fun effect =>
    if (tab.outcome? effect.promise).isSome ∧ effect.deferred = none then
      if effect.disposed then some (tab.setStrip k { effect with deferred := some 0 })
      else some (tab.stripIdentityHashFromUrl.setStrip k { effect with deferred := some 2 })
    else none
  | .deferredStrip k => tab.strips[k]?.bind fun effect =>
    match effect.deferred with
    | some (left+1) =>
      if effect.disposed then none
      else some (tab.stripIdentityHashFromUrl.setStrip k { effect with deferred := some left })
    | _ => none
  | .dispose k => tab.strips[k]?.map fun effect => tab.setStrip k { effect with disposed := true }

end IdentityTab

/-- Tabs that load a URL with a fragment, over whatever the storage holds from before. -/
def identitySystem (rawHash : List Char) : TransitionSystem IdentityTab IdentityAction where
  init tab := ∃ userId userSecret controlTokens,
    tab = ⟨rawHash,[rawHash],userId,userSecret,controlTokens,none,none,none,[],[],[]⟩
  step tab a tab' := tab.step a = some tab'

end Tab

/-- Runs in which the address bar only ever shows the fragment of one link, and nothing fails to be
encrypted or decrypted. -/
def SameFragment (rawHash : List Char) (_ : IdentityTab) : IdentityAction → Prop
  | .navigate shown => shown = rawHash
  | .runEncrypted _ ok => ok = true
  | .decrypted _ ok _ => ok = true
  | _ => True

instance (rawHash : List Char) (tab : IdentityTab) : DecidablePred (SameFragment rawHash tab) :=
  fun a => match a with
  | .navigate _ => inferInstanceAs (Decidable (_ = _))
  | .runEncrypted _ _ => inferInstanceAs (Decidable (_ = _))
  | .decrypted _ _ _ => inferInstanceAs (Decidable (_ = _))
  | .bootstrap _ _ | .stripEffect | .hashchange | .settleRun _ | .resume .. | .encrypted _ _
  | .cancel _ | .afterConsume _ | .deferredStrip _ | .dispose _ =>
    inferInstanceAs (Decidable True)

section Calls

variable {tab tab' : IdentityTab} {rawHash userId userSecret : List Char}
  {controlToken : Option (List Char)}

/-- A call shares the run in flight, answers from memory, or starts a run. -/
theorem consume_cases (tab : IdentityTab) :
    (∃ id, tab.consumeInFlight = some id ∧
      tab.consumeSessionIdentityFromHash = (tab,.run id)) ∨
    (∃ result, tab.consumedFromHash = some result ∧ tab.hash = [] ∧
      tab.consumeSessionIdentityFromHash = (tab,.resolved result)) ∨
    ((∀ id, tab.consumeInFlight = some id →
        tab.hash ≠ [] ∧ some tab.hash ≠ tab.consumeInFlightHash) ∧
      (tab.hash = [] → tab.consumedFromHash = none) ∧
      tab.consumeSessionIdentityFromHash = tab.startRun) := by
  unfold IdentityTab.consumeSessionIdentityFromHash
  dsimp only
  cases hflight : tab.consumeInFlight.filter fun _ =>
      decide (tab.hash = [] ∨ some tab.hash = tab.consumeInFlightHash) with
  | some id =>
    obtain ⟨hid,-⟩ := Option.filter_eq_some_iff.mp hflight
    exact .inl ⟨id,hid,rfl⟩
  | none =>
    have hother : ∀ id, tab.consumeInFlight = some id →
        tab.hash ≠ [] ∧ some tab.hash ≠ tab.consumeInFlightHash := by
      intro id hid
      simpa [hid] using hflight
    cases hmemory : tab.consumedFromHash.filter fun _ => decide (tab.hash = []) with
    | some result =>
      obtain ⟨hresult,hhash⟩ := Option.filter_eq_some_iff.mp hmemory
      exact .inr (.inl ⟨result,hresult,by simpa using hhash,rfl⟩)
    | none =>
      refine .inr (.inr ⟨hother,fun hhash => ?_,rfl⟩)
      cases hresult : tab.consumedFromHash with
      | none => rfl
      | some result => simp [hresult,hhash] at hmemory

theorem startRun_of_identity (h : identityOfHash tab.hash = some (userId,userSecret,controlToken)) :
    tab.startRun = ({ tab with
      userId := some userId
      runs := tab.runs ++ [.encrypting userId userSecret controlToken]
      consumeInFlight := some tab.runs.length
      consumeInFlightHash := some tab.hash },.run tab.runs.length) := by
  have hne : tab.hash ≠ [] := by
    intro hnil
    rw [hnil,identityOfHash_nil] at h
    cases h
  simp [IdentityTab.startRun,IdentityTab.consumeSessionIdentityFromHashOnce,hne,h]

theorem startRun_of_none (h : identityOfHash tab.hash = none) :
    ∃ hash, (hash = [] ∨ hash = tab.hash) ∧ tab.startRun = ({ tab with
      hash := hash
      runs := tab.runs ++ [.returned {}]
      consumeInFlight := some tab.runs.length
      consumeInFlightHash := some tab.hash },.run tab.runs.length) := by
  by_cases hne : tab.hash = []
  · refine ⟨tab.hash,.inr rfl,?_⟩
    simp [IdentityTab.startRun,IdentityTab.consumeSessionIdentityFromHashOnce,hne]
  · by_cases hlooks : looksLikeIdentityBootstrapHash tab.hash = false
    · refine ⟨tab.hash,.inr rfl,?_⟩
      simp [IdentityTab.startRun,IdentityTab.consumeSessionIdentityFromHashOnce,hne,h,
        IdentityTab.stripIdentityHashFromUrl,hlooks]
    · refine ⟨[],.inl rfl,?_⟩
      simp [IdentityTab.startRun,IdentityTab.consumeSessionIdentityFromHashOnce,hne,h,
        IdentityTab.stripIdentityHashFromUrl,IdentityTab.clearUrlHash,hlooks]

theorem strip_cases (tab : IdentityTab) :
    tab.stripIdentityHashFromUrl = tab ∨
      tab.stripIdentityHashFromUrl = { tab with hash := [] } := by
  unfold IdentityTab.stripIdentityHashFromUrl
  split
  · exact .inl rfl
  · exact .inr rfl

end Calls

section Link

def linkResult (userId userSecret : List Char) (controlToken : Option (List Char)) :
    ConsumedSessionIdentity :=
  ⟨some userId,some userSecret,controlToken⟩

variable {tab tab' : IdentityTab} {rawHash userId userSecret : List Char}
  {controlToken : Option (List Char)}

section

variable (rawHash userId userSecret : List Char) (controlToken : Option (List Char))

/-- A bootstrap that read the fragment has its token, and so has the storage for a refresh. -/
def TokenKept (tab : IdentityTab) (bootstrap : Bootstrap) : Prop :=
  ∀ token ∈ controlToken, bootstrap.controlToken = some token ∧
    ∀ roomId ∈ bootstrap.roomId, isValidIdentityValue roomId = true →
      tab.controlTokens roomId = some token

/-- The secret of the link is in the storage, and not in the address bar unless it was shown
again. -/
def SecretKept (tab : IdentityTab) : Prop :=
  tab.userSecret = some (.sealed userSecret) ∧ (tab.shown = [rawHash] → tab.hash = [])

/-- In the tab of a link no bootstrap makes up an identity of its own. -/
def LinkPhaseOk (tab : IdentityTab) (bootstrap : Bootstrap) : Prop :=
  match bootstrap.phase with
  | .consuming (.run _) => True
  | .consuming (.resolved result) =>
    result = linkResult userId userSecret controlToken ∧ SecretKept rawHash userSecret tab
  | .decrypting fromHash readId stored =>
    fromHash = linkResult userId userSecret controlToken ∧ readId = userId ∧
      stored = .sealed userSecret ∧ SecretKept rawHash userSecret tab ∧
      TokenKept controlToken tab bootstrap
  | .finished readId secret =>
    readId = userId ∧ secret = userSecret ∧ SecretKept rawHash userSecret tab ∧
      TokenKept controlToken tab bootstrap
  | .encrypting .. | .failed => False

structure LinkBootstrapOk (tab : IdentityTab) (bootstrap : Bootstrap) : Prop where
  phase : LinkPhaseOk rawHash userId userSecret controlToken tab bootstrap
  identity : ∀ identity ∈ bootstrap.identity, identity = (userId,userSecret) ∧
    ∃ readId secret, bootstrap.phase = .finished readId secret
  passed : bootstrap.cancelled = false → ∀ readId secret,
    bootstrap.phase = .finished readId secret → bootstrap.identity = some (userId,userSecret)

/-- A run of the link is on its way to the link's identity, or over with it. -/
def LinkRunOk (tab : IdentityTab) (run : ConsumeRun) : Prop :=
  run = .encrypting userId userSecret controlToken ∨
    (run = .returned (linkResult userId userSecret controlToken) ∨
      run = .settled (some (linkResult userId userSecret controlToken))) ∧
    SecretKept rawHash userSecret tab

/-- The tab of a link. Once a run was started, a call finds one in flight or its result. -/
structure LinkOk (tab : IdentityTab) : Prop where
  hash : tab.hash = [] ∨ tab.hash = rawHash
  shown : tab.shown ≠ []
  fresh : tab.runs = [] → tab.hash = rawHash ∧ tab.strips = [] ∧ tab.bootstraps = [] ∧
    tab.consumeInFlight = none ∧ tab.consumedFromHash = none
  inFlight : ∀ id ∈ tab.consumeInFlight, tab.consumeInFlightHash = some rawHash
  started : tab.runs ≠ [] → tab.consumeInFlight.isSome ∨ tab.consumedFromHash.isSome
  consumed : ∀ result ∈ tab.consumedFromHash,
    result = linkResult userId userSecret controlToken ∧ SecretKept rawHash userSecret tab
  runs : ∀ run ∈ tab.runs, LinkRunOk rawHash userId userSecret controlToken tab run
  storedId : tab.runs ≠ [] → tab.userId = some userId
  bootstraps : ∀ bootstrap ∈ tab.bootstraps,
    LinkBootstrapOk rawHash userId userSecret controlToken tab bootstrap

end

structure StorageGrows (rawHash userSecret : List Char) (controlToken : Option (List Char))
    (tab tab' : IdentityTab) : Prop where
  secret : SecretKept rawHash userSecret tab → SecretKept rawHash userSecret tab'
  tokens : ∀ token ∈ controlToken, ∀ roomId,
    tab.controlTokens roomId = some token → tab'.controlTokens roomId = some token

theorem TokenKept.mono {bootstrap : Bootstrap} (h : TokenKept controlToken tab bootstrap)
    (hgrow : StorageGrows rawHash userSecret controlToken tab tab') :
    TokenKept controlToken tab' bootstrap := by
  intro token htoken
  have hkept := h token htoken
  exact ⟨hkept.1,fun roomId hroom hvalid =>
    hgrow.tokens token htoken roomId (hkept.2 roomId hroom hvalid)⟩

theorem LinkBootstrapOk.mono {bootstrap : Bootstrap}
    (h : LinkBootstrapOk rawHash userId userSecret controlToken tab bootstrap)
    (hgrow : StorageGrows rawHash userSecret controlToken tab tab') :
    LinkBootstrapOk rawHash userId userSecret controlToken tab' bootstrap := by
  refine ⟨?_,h.identity,h.passed⟩
  have hphase := h.phase
  unfold LinkPhaseOk at hphase ⊢
  split <;> simp_all only
  · exact ⟨trivial,hgrow.secret hphase.2⟩
  · exact ⟨trivial,trivial,trivial,hgrow.secret hphase.2.2.2.1,hphase.2.2.2.2.mono hgrow⟩
  · exact ⟨trivial,trivial,hgrow.secret hphase.2.2.1,hphase.2.2.2.mono hgrow⟩

theorem LinkRunOk.mono {run : ConsumeRun}
    (h : LinkRunOk rawHash userId userSecret controlToken tab run)
    (hsecret : SecretKept rawHash userSecret tab → SecretKept rawHash userSecret tab') :
    LinkRunOk rawHash userId userSecret controlToken tab' run := by
  rcases h with hrun | ⟨hrun,hkept⟩
  · exact .inl hrun
  · exact .inr ⟨hrun,hsecret hkept⟩

theorem LinkOk.setHash (h : LinkOk rawHash userId userSecret controlToken tab)
    {hash : List Char} {shown : List (List Char)}
    (hhash : hash = [] ∧ tab.runs ≠ [] ∧ shown = tab.shown ∨
      hash = rawHash ∧ shown = rawHash :: tab.shown) :
    LinkOk rawHash userId userSecret controlToken { tab with hash := hash, shown := shown } := by
  have hkept : SecretKept rawHash userSecret tab →
      SecretKept rawHash userSecret { tab with hash := hash, shown := shown } := by
    intro hkept
    refine ⟨hkept.1,fun hsingle => ?_⟩
    rcases hhash with ⟨hhash,-⟩ | ⟨-,hshown⟩
    · exact hhash
    · have hnil : rawHash :: tab.shown = [rawHash] := hshown ▸ hsingle
      have hempty : tab.shown = [] := by simpa using hnil
      exact absurd hempty h.shown
  exact {
    hash := by
      rcases hhash with ⟨hhash,-⟩ | ⟨hhash,-⟩
      · exact .inl hhash
      · exact .inr hhash
    shown := by
      rcases hhash with ⟨-,-,hshown⟩ | ⟨-,hshown⟩
      · simpa [hshown] using h.shown
      · simp [hshown]
    fresh := fun hruns => by
      rcases hhash with ⟨-,hstarted,-⟩ | ⟨hhash,-⟩
      · exact absurd hruns hstarted
      · exact ⟨hhash,(h.fresh hruns).2⟩
    inFlight := h.inFlight
    started := h.started
    consumed := fun result hresult =>
      ⟨(h.consumed result hresult).1,hkept (h.consumed result hresult).2⟩
    runs := fun run hrun => (h.runs run hrun).mono hkept
    storedId := h.storedId
    bootstraps := fun bootstrap hmem => (h.bootstraps bootstrap hmem).mono ⟨hkept,fun _ _ _ => id⟩ }

theorem LinkOk.strip (h : LinkOk rawHash userId userSecret controlToken tab)
    (hstarted : tab.runs ≠ []) :
    LinkOk rawHash userId userSecret controlToken tab.stripIdentityHashFromUrl := by
  rcases strip_cases tab with hsame | hcleared
  · rw [hsame]
    exact h
  · rw [hcleared]
    exact h.setHash (.inl ⟨rfl,hstarted,rfl⟩)

theorem LinkOk.started_of_strip (h : LinkOk rawHash userId userSecret controlToken tab)
    {effect : StripEffect} (heffect : effect ∈ tab.strips) : tab.runs ≠ [] := by
  intro hruns
  rw [(h.fresh hruns).2.1] at heffect
  cases heffect

theorem LinkOk.setStrips (h : LinkOk rawHash userId userSecret controlToken tab)
    (hstarted : tab.runs ≠ []) (strips : List StripEffect) :
    LinkOk rawHash userId userSecret controlToken { tab with strips := strips } where
  hash := h.hash
  shown := h.shown
  fresh hruns := absurd hruns hstarted
  inFlight := h.inFlight
  started := h.started
  consumed := h.consumed
  runs := h.runs
  storedId := h.storedId
  bootstraps bootstrap hmem := (h.bootstraps bootstrap hmem).mono ⟨id,fun _ _ _ => id⟩

theorem LinkOk.stripBy (h : LinkOk rawHash userId userSecret controlToken tab)
    (hstarted : tab.runs ≠ []) (k : ℕ) (effect : StripEffect) :
    LinkOk rawHash userId userSecret controlToken
      (tab.stripIdentityHashFromUrl.setStrip k effect) := by
  refine (h.strip hstarted).setStrips ?_ _
  rcases strip_cases tab with hsame | hcleared
  · rwa [hsame]
  · rwa [hcleared]

theorem LinkOk.setBootstraps (h : LinkOk rawHash userId userSecret controlToken tab)
    (hstarted : tab.runs ≠ []) {controlTokens : List Char → Option (List Char)}
    {bootstraps : List Bootstrap}
    (hgrow : ∀ token ∈ controlToken, ∀ roomId, tab.controlTokens roomId = some token →
      controlTokens roomId = some token)
    (hnew : ∀ bootstrap ∈ bootstraps, bootstrap ∈ tab.bootstraps ∨
      LinkBootstrapOk rawHash userId userSecret controlToken
        { tab with controlTokens := controlTokens, bootstraps := bootstraps } bootstrap) :
    LinkOk rawHash userId userSecret controlToken
      { tab with controlTokens := controlTokens, bootstraps := bootstraps } where
  hash := h.hash
  shown := h.shown
  fresh hruns := absurd hruns hstarted
  inFlight := h.inFlight
  started := h.started
  consumed := h.consumed
  runs := h.runs
  storedId := h.storedId
  bootstraps bootstrap hmem := by
    rcases hnew bootstrap hmem with hold | hok
    · exact (h.bootstraps bootstrap hold).mono ⟨id,hgrow⟩
    · exact hok

/-- A call is answered with the link's identity, now or by a run. -/
theorem LinkOk.consume (h : LinkOk rawHash userId userSecret controlToken tab)
    (hidentity : identityOfHash rawHash = some (userId,userSecret,controlToken)) :
    ∃ after promise, tab.consumeSessionIdentityFromHash = (after,promise) ∧
      LinkOk rawHash userId userSecret controlToken after ∧ after.runs ≠ [] ∧
      ∀ result, promise = .resolved result →
        result = linkResult userId userSecret controlToken ∧
          SecretKept rawHash userSecret after := by
  have hne : rawHash ≠ [] := by
    intro hnil
    rw [hnil,identityOfHash_nil] at hidentity
    cases hidentity
  rcases consume_cases tab with ⟨id,hid,hcall⟩ | ⟨result,hresult,-,hcall⟩ | ⟨hother,hforgot,hcall⟩
  · have hstarted : tab.runs ≠ [] := by
      intro hruns
      rw [(h.fresh hruns).2.2.2.1] at hid
      cases hid
    exact ⟨tab,_,hcall,h,hstarted,fun result heq => by cases heq⟩
  · have hstarted : tab.runs ≠ [] := by
      intro hruns
      rw [(h.fresh hruns).2.2.2.2] at hresult
      cases hresult
    refine ⟨tab,_,hcall,h,hstarted,fun found heq => ?_⟩
    cases heq
    exact h.consumed result hresult
  · -- A run is started only while the fragment is there.
    have hhash : tab.hash = rawHash := by
      rcases h.hash with hnil | hhash
      · by_cases hruns : tab.runs = []
        · exact (h.fresh hruns).1
        · rcases h.started hruns with hflight | hmemory
          · obtain ⟨id,hid⟩ := Option.isSome_iff_exists.mp hflight
            exact absurd hnil (hother id hid).1
          · rw [hforgot hnil] at hmemory
            cases hmemory
      · exact hhash
    have hheld : identityOfHash tab.hash = some (userId,userSecret,controlToken) :=
      hhash.symm ▸ hidentity
    have hstart := startRun_of_identity hheld
    refine ⟨_,_,hcall.trans hstart,?_,by simp,fun result heq => by cases heq⟩
    refine ⟨.inr hhash,h.shown,fun hruns => by simp at hruns,fun id _ => congrArg some hhash,
      fun _ => .inl rfl,h.consumed,fun run hrun => ?_,fun _ => rfl,fun bootstrap hmem => ?_⟩
    · rcases List.mem_append.mp hrun with hold | hnew
      · exact (h.runs run hold).mono id
      · exact .inl (List.mem_singleton.mp hnew)
    · exact (h.bootstraps bootstrap hmem).mono ⟨id,fun _ _ _ => id⟩

theorem valid_of_identityOfHash
    (h : identityOfHash rawHash = some (userId,userSecret,controlToken)) :
    isValidIdentityValue userId = true ∧ isValidIdentityValue userSecret = true ∧
      ∀ token ∈ controlToken, isValidIdentityValue token = true := by
  have hvalid : ∀ value found, validIdentityValue value = some found →
      isValidIdentityValue found = true := by
    intro value found hfound
    exact (Option.filter_eq_some_iff.mp hfound).2
  unfold identityOfHash at h
  dsimp only at h
  split at h
  · rename_i huser hsecret
    cases h
    exact ⟨hvalid _ _ huser,hvalid _ _ hsecret,fun token htoken => hvalid _ _ htoken⟩
  · cases h

theorem ne_nil_of_valid {value : List Char} (h : isValidIdentityValue value = true) :
    value ≠ [] := by
  intro hnil
  rw [hnil] at h
  exact absurd h (by decide)

theorem LinkOk.started_of_bootstrap (h : LinkOk rawHash userId userSecret controlToken tab)
    {bootstrap : Bootstrap} (hmem : bootstrap ∈ tab.bootstraps) : tab.runs ≠ [] := by
  intro hruns
  rw [(h.fresh hruns).2.2.1] at hmem
  cases hmem

theorem LinkOk.setBootstrap (h : LinkOk rawHash userId userSecret controlToken tab)
    (hstarted : tab.runs ≠ []) {m : ℕ} {bootstrap : Bootstrap}
    (hok : LinkBootstrapOk rawHash userId userSecret controlToken tab bootstrap) :
    LinkOk rawHash userId userSecret controlToken (tab.setBootstrap m bootstrap) :=
  h.setBootstraps hstarted (fun _ _ _ => id) fun other hmem => by
    rcases List.mem_or_eq_of_mem_set hmem with hold | rfl
    · exact .inl hold
    · exact .inr (hok.mono ⟨id,fun _ _ _ => id⟩)

theorem LinkOk.outcome (h : LinkOk rawHash userId userSecret controlToken tab)
    {bootstrap : Bootstrap} (hmem : bootstrap ∈ tab.bootstraps) {promise : IdentityPromise}
    (hphase : bootstrap.phase = .consuming promise) {result : Option ConsumedSessionIdentity}
    (hresult : tab.outcome? promise = some result) :
    result = some (linkResult userId userSecret controlToken) ∧
      SecretKept rawHash userSecret tab := by
  cases promise with
  | resolved found =>
    have hok := (h.bootstraps bootstrap hmem).phase
    rw [LinkPhaseOk,hphase] at hok
    cases hresult
    exact ⟨congrArg some hok.1,hok.2⟩
  | run id =>
    rw [IdentityTab.outcome?] at hresult
    split at hresult
    · rename_i found hrun
      cases hresult
      rcases h.runs _ (List.mem_of_getElem? hrun) with hstill | ⟨hover | hover,hkept⟩
      · cases hstill
      · cases hover
      · cases hover
        exact ⟨rfl,hkept⟩
    · cases hresult

theorem LinkOk.runEncrypted (h : LinkOk rawHash userId userSecret controlToken tab) {id : ℕ}
    (hrun : tab.runs[id]? = some (.encrypting userId userSecret controlToken)) :
    LinkOk rawHash userId userSecret controlToken
      ({ tab with userSecret := some (.sealed userSecret) }.clearUrlHash.setRun id
        (.returned (linkResult userId userSecret controlToken))) := by
  have hstarted : tab.runs ≠ [] := by
    intro hnil
    rw [hnil] at hrun
    cases hrun
  have hkept : SecretKept rawHash userSecret
      ({ tab with userSecret := some (.sealed userSecret) }.clearUrlHash.setRun id
        (.returned (linkResult userId userSecret controlToken))) := ⟨rfl,fun _ => rfl⟩
  refine ⟨.inl rfl,h.shown,fun hruns => ?_,h.inFlight,fun _ => h.started hstarted,
    fun result hresult => ⟨(h.consumed result hresult).1,hkept⟩,fun run hmem => ?_,
    fun _ => h.storedId hstarted,fun bootstrap hmem => ?_⟩
  · exact absurd (by simpa [IdentityTab.setRun,IdentityTab.clearUrlHash] using hruns) hstarted
  · rcases List.mem_or_eq_of_mem_set hmem with hold | rfl
    · exact (h.runs run hold).mono fun _ => hkept
    · exact .inr ⟨.inl rfl,hkept⟩
  · exact (h.bootstraps bootstrap hmem).mono ⟨fun _ => hkept,fun _ _ _ htoken => htoken⟩

theorem LinkOk.settleRun (h : LinkOk rawHash userId userSecret controlToken tab)
    (huser : isValidIdentityValue userId = true) {id : ℕ}
    (hrun : tab.runs[id]? = some (.returned (linkResult userId userSecret controlToken))) :
    LinkOk rawHash userId userSecret controlToken
      (tab.settleRun id (some (linkResult userId userSecret controlToken))) := by
  have hstarted : tab.runs ≠ [] := by
    intro hnil
    rw [hnil] at hrun
    cases hrun
  have hset :
      tab.runs.set id (.settled (some (linkResult userId userSecret controlToken))) ≠ [] := by
    simpa using hstarted
  have hkept : SecretKept rawHash userSecret tab := by
    rcases h.runs _ (List.mem_of_getElem? hrun) with hstill | ⟨-,hrest⟩
    · cases hstill
    · exact hrest
  have hruns :
      ∀ run ∈ tab.runs.set id (.settled (some (linkResult userId userSecret controlToken))),
      LinkRunOk rawHash userId userSecret controlToken tab run := by
    intro run hmem
    rcases List.mem_or_eq_of_mem_set hmem with hold | rfl
    · exact h.runs run hold
    · exact .inr ⟨.inr rfl,hkept⟩
  have hvalid : (validIdentityValue (linkResult userId userSecret controlToken).userId).isSome := by
    simp [linkResult,validIdentityValue_some huser]
  by_cases hflight : tab.consumeInFlight = some id
  · have hsettled : tab.settleRun id (some (linkResult userId userSecret controlToken)) =
        { tab with
          runs := tab.runs.set id (.settled (some (linkResult userId userSecret controlToken)))
          consumeInFlight := none
          consumeInFlightHash := none
          consumedFromHash := some (linkResult userId userSecret controlToken) } := by
      simp [IdentityTab.settleRun,IdentityTab.setRun,hflight,hvalid]
    rw [hsettled]
    refine ⟨h.hash,h.shown,fun hnil => absurd hnil hset,fun _ hid => (by cases hid),
      fun _ => .inr rfl,fun result hresult => ?_,hruns,fun _ => h.storedId hstarted,
      fun bootstrap hmem => (h.bootstraps bootstrap hmem).mono
        ⟨fun hkept => hkept,fun _ _ _ hkept => hkept⟩⟩
    cases hresult
    exact ⟨rfl,hkept⟩
  · have hsettled : tab.settleRun id (some (linkResult userId userSecret controlToken)) =
        tab.setRun id (.settled (some (linkResult userId userSecret controlToken))) := by
      simp [IdentityTab.settleRun,hflight]
    rw [hsettled]
    exact ⟨h.hash,h.shown,fun hnil => absurd hnil hset,h.inFlight,fun _ => h.started hstarted,
      h.consumed,hruns,fun _ => h.storedId hstarted,
      fun bootstrap hmem => (h.bootstraps bootstrap hmem).mono
        ⟨fun hkept => hkept,fun _ _ _ hkept => hkept⟩⟩

theorem resolve_of_link (hvalid : ∀ token ∈ controlToken, isValidIdentityValue token = true)
    (tab : IdentityTab) (sessionKind : SessionKind) (roomId : Option (List Char)) :
    ∃ controlTokens token, tab.resolveBootstrapControlToken sessionKind roomId controlToken =
        ({ tab with controlTokens := controlTokens },token) ∧
      ∀ value ∈ controlToken, token = some value ∧
        (∀ room, tab.controlTokens room = some value → controlTokens room = some value) ∧
        ∀ room ∈ roomId, isValidIdentityValue room = true → controlTokens room = some value := by
  unfold IdentityTab.resolveBootstrapControlToken
  cases controlToken with
  | none =>
    cases roomId.filter fun room => decide (room ≠ []) with
    | none => exact ⟨tab.controlTokens,_,rfl,fun value hvalue => by cases hvalue⟩
    | some room =>
      dsimp only [Option.filter_none]
      split
      · exact ⟨tab.controlTokens,_,rfl,fun value hvalue => by cases hvalue⟩
      · exact ⟨tab.controlTokens,_,rfl,fun value hvalue => by cases hvalue⟩
  | some value =>
    have hvalue := hvalid value rfl
    have hkept : (some value).filter (fun token : List Char => decide (token ≠ [])) =
        some value := by
      rw [Option.filter_some,if_pos (by simpa using ne_nil_of_valid hvalue)]
    rw [hkept]
    cases hroom : roomId.filter fun room => decide (room ≠ []) with
    | none =>
      refine ⟨tab.controlTokens,_,rfl,fun found hfound => ?_⟩
      cases hfound
      refine ⟨rfl,fun _ hsame => hsame,fun room hmem hok => ?_⟩
      rw [Option.mem_def.mp hmem,Option.filter_some,
        if_pos (by simpa using ne_nil_of_valid hok)] at hroom
      cases hroom
    | some room =>
      obtain ⟨hroomId,-⟩ := Option.filter_eq_some_iff.mp hroom
      dsimp only
      by_cases hok : isValidIdentityValue room = true
      · refine ⟨Function.update tab.controlTokens room (some value),some value,?_,
          fun found hfound => ?_⟩
        · rw [IdentityTab.persistControlToken,hok,hvalue]
          rfl
        · cases hfound
          refine ⟨rfl,fun other hsame => ?_,fun other hmem _ => ?_⟩
          · by_cases hother : other = room
            · rw [hother,Function.update_self]
            · rwa [Function.update_of_ne hother]
          · rw [hroomId] at hmem
            cases hmem
            exact Function.update_self ..
      · refine ⟨tab.controlTokens,some value,?_,fun found hfound => ?_⟩
        · rw [IdentityTab.persistControlToken,if_neg (by simp [hok])]
        · cases hfound
          refine ⟨rfl,fun _ hsame => hsame,fun other hmem hother => ?_⟩
          rw [hroomId] at hmem
          cases hmem
          exact absurd hother hok

theorem LinkOk.resume (h : LinkOk rawHash userId userSecret controlToken tab)
    (huser : isValidIdentityValue userId = true)
    (hvalid : ∀ token ∈ controlToken, isValidIdentityValue token = true) {m : ℕ}
    {bootstrap : Bootstrap} (hmem : bootstrap ∈ tab.bootstraps) {promise : IdentityPromise}
    (hphase : bootstrap.phase = .consuming promise) (hkept : SecretKept rawHash userSecret tab)
    (uuid randomHex : List Char) :
    LinkOk rawHash userId userSecret controlToken (tab.resumeBootstrap m bootstrap uuid randomHex
      (some (linkResult userId userSecret controlToken))) := by
  have hstarted := h.started_of_bootstrap hmem
  obtain ⟨controlTokens,token,hresolve,htoken⟩ :=
    resolve_of_link hvalid tab bootstrap.sessionKind bootstrap.roomId
  have hstored : tab.userId = some userId := h.storedId hstarted
  have hsecret : tab.userSecret = some (.sealed userSecret) := hkept.1
  have hbegin : IdentityTab.beginGetOrCreate { tab with controlTokens := controlTokens }
      (linkResult userId userSecret controlToken) uuid randomHex =
      ({ tab with controlTokens := controlTokens },
        .decrypting (linkResult userId userSecret controlToken) userId (.sealed userSecret)) := by
    unfold IdentityTab.beginGetOrCreate
    dsimp only
    rw [hstored,hsecret,validIdentityValue_some huser]
    dsimp only [Option.getD_some]
  have hresumed : tab.resumeBootstrap m bootstrap uuid randomHex
      (some (linkResult userId userSecret controlToken)) =
      IdentityTab.setBootstrap { tab with controlTokens := controlTokens } m { bootstrap with
        controlToken := token
        phase := .decrypting (linkResult userId userSecret controlToken) userId
          (.sealed userSecret) } := by
    have hct : (linkResult userId userSecret controlToken).controlToken = controlToken := rfl
    unfold IdentityTab.resumeBootstrap
    dsimp only
    rw [hct,hresolve]
    dsimp only
    rw [hbegin]
  rw [hresumed]
  refine h.setBootstraps hstarted (fun value hvalue room => (htoken value hvalue).2.1 room)
    fun other hother => ?_
  rcases List.mem_or_eq_of_mem_set hother with hold | rfl
  · exact .inl hold
  · refine .inr ⟨?_,fun identity hidentity => ?_,fun _ _ _ hcontra => (by cases hcontra)⟩
    · exact ⟨rfl,rfl,rfl,hkept,fun value hvalue => ⟨(htoken value hvalue).1,
        (htoken value hvalue).2.2⟩⟩
    · obtain ⟨-,readId,secret,hfinished⟩ :=
        (h.bootstraps bootstrap hmem).identity identity hidentity
      rw [hphase] at hfinished
      cases hfinished

theorem LinkOk.decrypted (h : LinkOk rawHash userId userSecret controlToken tab)
    (hsecret : isValidIdentityValue userSecret = true) {m : ℕ} {bootstrap : Bootstrap}
    (hmem : bootstrap ∈ tab.bootstraps) {randomHex : List Char}
    (hstep : tab.decryptedBootstrap m bootstrap true randomHex = some tab') :
    LinkOk rawHash userId userSecret controlToken tab' := by
  have hstarted := h.started_of_bootstrap hmem
  have hok := (h.bootstraps bootstrap hmem).phase
  rw [LinkPhaseOk] at hok
  rw [IdentityTab.decryptedBootstrap] at hstep
  split at hstep
  · rename_i hphase
    rw [hphase] at hok
    cases hok.2.2.1
  · rename_i hphase
    rw [hphase] at hok
    obtain ⟨rfl,rfl,hstored,hkept,htoken⟩ := hok
    cases hstored
    rw [Bool.true_and,if_pos hsecret] at hstep
    cases hstep
    refine h.setBootstrap hstarted ⟨⟨rfl,rfl,hkept,htoken⟩,fun identity hidentity => ?_,
      fun hrunning _ _ _ => if_neg (Bool.eq_false_iff.mp hrunning)⟩
    dsimp only at hidentity
    split at hidentity
    · cases hidentity
    · cases hidentity
      exact ⟨rfl,_,_,rfl⟩
  · cases hstep

theorem LinkOk.step (h : LinkOk rawHash userId userSecret controlToken tab)
    (hidentity : identityOfHash rawHash = some (userId,userSecret,controlToken))
    {a : IdentityAction} (hguard : SameFragment rawHash tab a) (hstep : tab.step a = some tab') :
    LinkOk rawHash userId userSecret controlToken tab' := by
  obtain ⟨huser,hsecret,htokens⟩ := valid_of_identityOfHash hidentity
  cases a with
  | bootstrap sessionKind roomId =>
    obtain ⟨after,promise,hcall,hafter,hstarted,hresolved⟩ := h.consume hidentity
    simp only [IdentityTab.step,hcall] at hstep
    cases hstep
    refine hafter.setBootstraps hstarted (fun _ _ _ hkept => hkept) fun other hother => ?_
    rcases List.mem_append.mp hother with hold | hnew
    · exact .inl hold
    · rw [List.mem_singleton.mp hnew]
      refine .inr ⟨?_,fun identity hnone => (by cases hnone),
        fun _ _ _ hcontra => (by cases hcontra)⟩
      cases promise with
      | run id => trivial
      | resolved result => exact hresolved result rfl
  | stripEffect =>
    obtain ⟨after,promise,hcall,hafter,hstarted,-⟩ := h.consume hidentity
    simp only [IdentityTab.step,hcall] at hstep
    cases hstep
    exact hafter.setStrips hstarted _
  | navigate shown =>
    cases hstep
    have hsame : shown = rawHash := hguard
    exact h.setHash (.inr ⟨hsame,by rw [hsame]⟩)
  | hashchange =>
    rw [IdentityTab.step] at hstep
    split at hstep
    · rename_i hlive
      cases hstep
      obtain ⟨effect,heffect,-⟩ := List.any_eq_true.mp hlive
      exact h.strip (h.started_of_strip heffect)
    · cases hstep
  | runEncrypted id ok =>
    have hok : ok = true := hguard
    rw [IdentityTab.step] at hstep
    split at hstep
    · rename_i hrun
      rw [hok,if_pos rfl] at hstep
      cases hstep
      rcases h.runs _ (List.mem_of_getElem? hrun) with hsame | ⟨hother | hother,-⟩
      · cases hsame
        exact h.runEncrypted hrun
      · cases hother
      · cases hother
    · cases hstep
  | settleRun id =>
    rw [IdentityTab.step] at hstep
    split at hstep
    · rename_i result hrun
      cases hstep
      rcases h.runs _ (List.mem_of_getElem? hrun) with hother | ⟨hsame | hother,-⟩
      · cases hother
      · cases hsame
        exact h.settleRun huser hrun
      · cases hother
    · rename_i hrun
      rcases h.runs _ (List.mem_of_getElem? hrun) with hother | ⟨hother | hother,-⟩ <;> cases hother
    · cases hstep
  | resume m uuid randomHex =>
    obtain ⟨bootstrap,hget,hstep⟩ := Option.bind_eq_some_iff.mp hstep
    have hmem := List.mem_of_getElem? hget
    split at hstep
    · rename_i promise hphase
      obtain ⟨result,hresult,rfl⟩ := Option.map_eq_some_iff.mp hstep
      obtain ⟨rfl,hkept⟩ := h.outcome hmem hphase hresult
      exact h.resume huser htokens hmem hphase hkept uuid randomHex
    · cases hstep
  | decrypted m ok randomHex =>
    obtain ⟨bootstrap,hget,hstep⟩ := Option.bind_eq_some_iff.mp hstep
    have hok : ok = true := hguard
    rw [hok] at hstep
    exact h.decrypted hsecret (List.mem_of_getElem? hget) hstep
  | encrypted m ok =>
    obtain ⟨bootstrap,hget,hstep⟩ := Option.bind_eq_some_iff.mp hstep
    have hok := (h.bootstraps bootstrap (List.mem_of_getElem? hget)).phase
    split at hstep
    · rename_i hphase
      rw [LinkPhaseOk,hphase] at hok
      exact hok.elim
    · cases hstep
  | cancel m =>
    obtain ⟨bootstrap,hget,rfl⟩ := Option.map_eq_some_iff.mp hstep
    have hmem := List.mem_of_getElem? hget
    have hok := h.bootstraps bootstrap hmem
    exact h.setBootstrap (h.started_of_bootstrap hmem) ⟨hok.phase,hok.identity,fun hrunning => (by cases hrunning)⟩
  | afterConsume k =>
    obtain ⟨effect,hget,hstep⟩ := Option.bind_eq_some_iff.mp hstep
    have hstarted := h.started_of_strip (List.mem_of_getElem? hget)
    split at hstep
    · split at hstep
      · cases hstep
        exact h.setStrips hstarted _
      · cases hstep
        exact h.stripBy hstarted k _
    · cases hstep
  | deferredStrip k =>
    obtain ⟨effect,hget,hstep⟩ := Option.bind_eq_some_iff.mp hstep
    have hstarted := h.started_of_strip (List.mem_of_getElem? hget)
    split at hstep
    · split at hstep
      · cases hstep
      · cases hstep
        exact h.stripBy hstarted k _
    · cases hstep
  | dispose k =>
    obtain ⟨effect,hget,rfl⟩ := Option.map_eq_some_iff.mp hstep
    exact h.setStrips (h.started_of_strip (List.mem_of_getElem? hget)) _

theorem linkOk_of_reachable
    (hidentity : identityOfHash rawHash = some (userId,userSecret,controlToken))
    (h : ((identitySystem rawHash).restrict (SameFragment rawHash)).Reachable tab) :
    LinkOk rawHash userId userSecret controlToken tab := by
  refine h.invariant (LinkOk rawHash userId userSecret controlToken) ?_ ?_
  · intro s hinit
    obtain ⟨storedId,storedSecret,controlTokens,rfl⟩ := hinit
    exact {
      hash := .inr rfl
      shown := by simp
      fresh := fun _ => ⟨rfl,rfl,rfl,rfl,rfl⟩
      inFlight := fun _ hid => by cases hid
      started := fun hruns => absurd rfl hruns
      consumed := fun _ hresult => by cases hresult
      runs := fun _ hrun => by cases hrun
      storedId := fun hruns => absurd rfl hruns
      bootstraps := fun _ hmem => by cases hmem }
  · intro s a s' _ hs hstep
    exact hs.step hidentity hstep.1 hstep.2

end Link

section Pairs

variable {tab tab' : IdentityTab} {shown shown' : List (List Char)}

/-- A result that holds nothing, or both halves of what one of these fragments held. -/
def OfFragment (shown : List (List Char)) (result : ConsumedSessionIdentity) : Prop :=
  result = {} ∨ ∃ rawHash ∈ shown, ∃ userId userSecret controlToken,
    identityOfHash rawHash = some (userId,userSecret,controlToken) ∧
      result = linkResult userId userSecret controlToken

theorem OfFragment.mono {result : ConsumedSessionIdentity} (h : OfFragment shown result)
    (hsub : shown ⊆ shown') : OfFragment shown' result := by
  rcases h with hnone | ⟨rawHash,hmem,hrest⟩
  · exact .inl hnone
  · exact .inr ⟨rawHash,hsub hmem,hrest⟩

def RunOfFragment (shown : List (List Char)) : ConsumeRun → Prop
  | .encrypting userId userSecret controlToken =>
    OfFragment shown (linkResult userId userSecret controlToken)
  | .returned result => OfFragment shown result
  | .threw => True
  | .settled result => ∀ found ∈ result, OfFragment shown found

def BootstrapPhase.fromHash? : BootstrapPhase → Option ConsumedSessionIdentity
  | .consuming (.resolved result) => some result
  | .decrypting fromHash .. => some fromHash
  | .encrypting fromHash .. => some fromHash
  | .consuming (.run _) | .finished .. | .failed => none

/-- What a bootstrap was given comes from one fragment or from what the tab has stored. -/
structure PairOk (shown : List (List Char)) (bootstrap : Bootstrap) : Prop where
  fromHash : ∀ result ∈ bootstrap.phase.fromHash?, OfFragment shown result
  identity : ∀ identity ∈ bootstrap.identity, bootstrap.phase = .finished identity.1 identity.2 ∨
    ∃ rawHash ∈ shown, ∃ controlToken,
      identityOfHash rawHash = some (identity.1,identity.2,controlToken)
  ended : bootstrap.identity.isSome → ∃ readId secret, bootstrap.phase = .finished readId secret

structure PairsOk (tab : IdentityTab) : Prop where
  hash : tab.hash = [] ∨ tab.hash ∈ tab.shown
  consumed : ∀ result ∈ tab.consumedFromHash, OfFragment tab.shown result
  runs : ∀ run ∈ tab.runs, RunOfFragment tab.shown run
  bootstraps : ∀ bootstrap ∈ tab.bootstraps, PairOk tab.shown bootstrap

theorem RunOfFragment.mono {run : ConsumeRun} (h : RunOfFragment shown run)
    (hsub : shown ⊆ shown') : RunOfFragment shown' run := by
  cases run with
  | encrypting userId userSecret controlToken => exact OfFragment.mono h hsub
  | returned result => exact OfFragment.mono h hsub
  | threw => trivial
  | settled result => exact fun found hfound => (h found hfound).mono hsub

theorem PairOk.mono {bootstrap : Bootstrap} (h : PairOk shown bootstrap) (hsub : shown ⊆ shown') :
    PairOk shown' bootstrap where
  fromHash result hresult := (h.fromHash result hresult).mono hsub
  identity identity hidentity := by
    rcases h.identity identity hidentity with hown | ⟨rawHash,hmem,hrest⟩
    · exact .inl hown
    · exact .inr ⟨rawHash,hsub hmem,hrest⟩
  ended := h.ended

theorem PairsOk.of_same (h : PairsOk tab) (hsub : tab.shown ⊆ tab'.shown)
    (hhash : tab'.hash = [] ∨ tab'.hash ∈ tab'.shown)
    (hconsumed : tab'.consumedFromHash = tab.consumedFromHash) (hruns : tab'.runs = tab.runs)
    (hbootstraps : tab'.bootstraps = tab.bootstraps) : PairsOk tab' where
  hash := hhash
  consumed result hresult := (h.consumed result (hconsumed ▸ hresult)).mono hsub
  runs run hrun := (h.runs run (hruns ▸ hrun)).mono hsub
  bootstraps bootstrap hmem := (h.bootstraps bootstrap (hbootstraps ▸ hmem)).mono hsub

theorem PairsOk.strip (h : PairsOk tab) : PairsOk tab.stripIdentityHashFromUrl := by
  rcases strip_cases tab with hsame | hcleared
  · rw [hsame]
    exact h
  · rw [hcleared]
    exact h.of_same (List.Subset.refl _) (.inl rfl) rfl rfl rfl

theorem PairsOk.setBootstraps (h : PairsOk tab) (hshown : tab'.shown = tab.shown)
    (hhash : tab'.hash = tab.hash) (hconsumed : tab'.consumedFromHash = tab.consumedFromHash)
    (hruns : tab'.runs = tab.runs)
    (hnew : ∀ bootstrap ∈ tab'.bootstraps, bootstrap ∈ tab.bootstraps ∨
      PairOk tab.shown bootstrap) : PairsOk tab' where
  hash := by
    rw [hhash,hshown]
    exact h.hash
  consumed result hresult := hshown ▸ h.consumed result (hconsumed ▸ hresult)
  runs run hrun := hshown ▸ h.runs run (hruns ▸ hrun)
  bootstraps bootstrap hmem := by
    rw [hshown]
    rcases hnew bootstrap hmem with hold | hok
    · exact h.bootstraps bootstrap hold
    · exact hok

theorem PairsOk.setRun (h : PairsOk tab) {id : ℕ} {run : ConsumeRun}
    (hrun : RunOfFragment tab.shown run) : PairsOk (tab.setRun id run) where
  hash := h.hash
  consumed := h.consumed
  runs other hmem := by
    rcases List.mem_or_eq_of_mem_set hmem with hold | rfl
    · exact h.runs other hold
    · exact hrun
  bootstraps := h.bootstraps

theorem PairsOk.consume (h : PairsOk tab) :
    ∃ after promise, tab.consumeSessionIdentityFromHash = (after,promise) ∧ PairsOk after ∧
      ∀ result, promise = .resolved result → OfFragment after.shown result := by
  rcases consume_cases tab with ⟨id,-,hcall⟩ | ⟨found,hfound,-,hcall⟩ | ⟨-,-,hcall⟩
  · exact ⟨tab,_,hcall,h,fun result heq => by cases heq⟩
  · refine ⟨tab,_,hcall,h,fun result heq => ?_⟩
    cases heq
    exact h.consumed found hfound
  · cases hidentity : identityOfHash tab.hash with
    | none =>
      obtain ⟨hash,hhash,hstart⟩ := startRun_of_none hidentity
      refine ⟨_,_,hcall.trans hstart,⟨?_,h.consumed,fun run hrun => ?_,h.bootstraps⟩,
        fun result heq => by cases heq⟩
      · rcases hhash with hnil | hsame
        · exact .inl hnil
        · rw [hsame]
          exact h.hash
      · rcases List.mem_append.mp hrun with hold | hnew
        · exact h.runs run hold
        · rw [List.mem_singleton.mp hnew]
          exact .inl rfl
    | some held =>
      obtain ⟨userId,userSecret,controlToken⟩ := held
      refine ⟨_,_,hcall.trans (startRun_of_identity hidentity),
        ⟨h.hash,h.consumed,fun run hrun => ?_,h.bootstraps⟩,fun result heq => by cases heq⟩
      rcases List.mem_append.mp hrun with hold | hnew
      · exact h.runs run hold
      · rw [List.mem_singleton.mp hnew]
        rcases h.hash with hnil | hmem
        · rw [hnil,identityOfHash_nil] at hidentity
          cases hidentity
        · exact .inr ⟨tab.hash,hmem,userId,userSecret,controlToken,hidentity,rfl⟩

theorem PairsOk.settleRun (h : PairsOk tab) {id : ℕ} {result : Option ConsumedSessionIdentity}
    (hresult : ∀ found ∈ result, OfFragment tab.shown found) :
    PairsOk (tab.settleRun id result) := by
  have hset : PairsOk (tab.setRun id (.settled result)) := h.setRun hresult
  unfold IdentityTab.settleRun
  dsimp only
  split
  · refine ⟨hset.hash,fun found hfound => ?_,hset.runs,hset.bootstraps⟩
    cases result with
    | none => exact h.consumed found hfound
    | some consumed =>
      dsimp only at hfound
      split at hfound
      · cases hfound
        exact hresult _ rfl
      · exact h.consumed found hfound
  · exact hset

theorem PairsOk.setBootstrap (h : PairsOk tab) {m : ℕ} {bootstrap : Bootstrap}
    (hok : PairOk tab.shown bootstrap) : PairsOk (tab.setBootstrap m bootstrap) :=
  h.setBootstraps rfl rfl rfl rfl fun other hmem => by
    rcases List.mem_or_eq_of_mem_set hmem with hold | rfl
    · exact .inl hold
    · exact .inr hok

theorem PairOk.unset {bootstrap : Bootstrap} (h : PairOk shown bootstrap)
    (hunder : ∀ readId secret, bootstrap.phase ≠ .finished readId secret) :
    bootstrap.identity = none := by
  cases hidentity : bootstrap.identity with
  | none => rfl
  | some identity =>
    obtain ⟨readId,secret,hphase⟩ := h.ended (by simp [hidentity])
    exact absurd hphase (hunder readId secret)

theorem PairOk.goOn {bootstrap : Bootstrap} (h : PairOk shown bootstrap)
    (hunder : ∀ readId secret, bootstrap.phase ≠ .finished readId secret)
    {controlToken : Option (List Char)} {phase : BootstrapPhase}
    (hfrom : ∀ result ∈ phase.fromHash?, OfFragment shown result) :
    PairOk shown { bootstrap with controlToken := controlToken, phase := phase } := by
  have hunset : bootstrap.identity = none := h.unset hunder
  refine ⟨hfrom,fun identity hidentity => ?_,fun hset => ?_⟩
  · dsimp only at hidentity
    rw [hunset] at hidentity
    cases hidentity
  · dsimp only at hset
    rw [hunset] at hset
    cases hset

theorem PairsOk.finish (h : PairsOk tab) {m : ℕ} {bootstrap : Bootstrap}
    {fromHash : ConsumedSessionIdentity} (hfrom : OfFragment tab.shown fromHash)
    (userId userSecret : List Char) :
    PairsOk (tab.finish m bootstrap fromHash userId userSecret) := by
  refine h.setBootstrap ⟨fun result hresult => (by cases hresult),fun identity hidentity => ?_,
    fun _ => ⟨userId,userSecret,rfl⟩⟩
  dsimp only at hidentity ⊢
  split at hidentity
  · cases hidentity
  · cases hidentity
    rcases hfrom with rfl | ⟨rawHash,hmem,heldId,heldSecret,controlToken,hheld,rfl⟩
    · exact .inl rfl
    · exact .inr ⟨rawHash,hmem,controlToken,hheld⟩

theorem PairsOk.outcome (h : PairsOk tab) {bootstrap : Bootstrap}
    (hmem : bootstrap ∈ tab.bootstraps) {promise : IdentityPromise}
    (hphase : bootstrap.phase = .consuming promise) {result : Option ConsumedSessionIdentity}
    (hresult : tab.outcome? promise = some result) :
    ∀ found ∈ result, OfFragment tab.shown found := by
  cases promise with
  | resolved found =>
    cases hresult
    intro other hother
    cases hother
    exact (h.bootstraps bootstrap hmem).fromHash found (by rw [hphase]; rfl)
  | run id =>
    rw [IdentityTab.outcome?] at hresult
    split at hresult
    · rename_i hrun
      cases hresult
      exact h.runs _ (List.mem_of_getElem? hrun)
    · cases hresult

/-- The session's token only touches the storage of tokens. -/
theorem resolve_same (tab : IdentityTab) (sessionKind : SessionKind)
    (roomId hashControlToken : Option (List Char)) :
    ∃ controlTokens, (tab.resolveBootstrapControlToken sessionKind roomId hashControlToken).1 =
      { tab with controlTokens := controlTokens } := by
  unfold IdentityTab.resolveBootstrapControlToken
  split
  · rw [IdentityTab.persistControlToken]
    split
    · exact ⟨_,rfl⟩
    · exact ⟨tab.controlTokens,rfl⟩
  · exact ⟨tab.controlTokens,rfl⟩
  · split
    · exact ⟨tab.controlTokens,rfl⟩
    · exact ⟨tab.controlTokens,rfl⟩
  · exact ⟨tab.controlTokens,rfl⟩

theorem begin_cases (tab : IdentityTab) (fromHash : ConsumedSessionIdentity)
    (uuid randomHex : List Char) :
    ∃ userId phase, tab.beginGetOrCreate fromHash uuid randomHex =
        ({ tab with userId := some userId },phase) ∧ phase.fromHash? = some fromHash := by
  unfold IdentityTab.beginGetOrCreate
  dsimp only
  split
  · exact ⟨_,_,rfl,rfl⟩
  · exact ⟨_,_,rfl,rfl⟩
  · split
    · exact ⟨_,_,rfl,rfl⟩
    · exact ⟨_,_,rfl,rfl⟩

theorem PairsOk.resume (h : PairsOk tab) {m : ℕ} {bootstrap : Bootstrap}
    (hmem : bootstrap ∈ tab.bootstraps) {promise : IdentityPromise}
    (hphase : bootstrap.phase = .consuming promise) (uuid randomHex : List Char)
    {result : Option ConsumedSessionIdentity}
    (hresult : ∀ found ∈ result, OfFragment tab.shown found) :
    PairsOk (tab.resumeBootstrap m bootstrap uuid randomHex result) := by
  have hok := h.bootstraps bootstrap hmem
  have hunder : ∀ readId secret, bootstrap.phase ≠ .finished readId secret := by
    simp [hphase]
  cases result with
  | none => exact h.setBootstrap (hok.goOn hunder fun _ hfound => (by cases hfound))
  | some fromHash =>
    obtain ⟨controlTokens,htokens⟩ := resolve_same tab bootstrap.sessionKind bootstrap.roomId
      fromHash.controlToken
    obtain ⟨userId,phase,hbegin,hfrom⟩ :=
      begin_cases { tab with controlTokens := controlTokens } fromHash uuid randomHex
    unfold IdentityTab.resumeBootstrap
    dsimp only
    rw [htokens,hbegin]
    refine h.setBootstraps rfl rfl rfl rfl fun other hother => ?_
    rcases List.mem_or_eq_of_mem_set hother with hold | rfl
    · exact .inl hold
    · refine .inr (hok.goOn hunder fun found hfound => ?_)
      rw [hfrom] at hfound
      cases hfound
      exact hresult fromHash rfl

theorem PairsOk.decrypted (h : PairsOk tab) {m : ℕ} {bootstrap : Bootstrap}
    (hmem : bootstrap ∈ tab.bootstraps) {ok : Bool} {randomHex : List Char}
    (hstep : tab.decryptedBootstrap m bootstrap ok randomHex = some tab') : PairsOk tab' := by
  have hok := h.bootstraps bootstrap hmem
  rw [IdentityTab.decryptedBootstrap] at hstep
  split at hstep
  · rename_i fromHash _ _ hphase
    cases hstep
    have hheld : OfFragment tab.shown fromHash := hok.fromHash fromHash (by rw [hphase]; rfl)
    refine h.setBootstrap (hok.goOn (by simp [hphase]) fun found hfound => ?_)
    cases hfound
    exact hheld
  · rename_i fromHash _ _ hphase
    have hheld : OfFragment tab.shown fromHash := hok.fromHash fromHash (by rw [hphase]; rfl)
    split at hstep
    · cases hstep
      exact h.finish hheld _ _
    · cases hstep
      refine h.setBootstrap (hok.goOn (by simp [hphase]) fun found hfound => ?_)
      cases hfound
      exact hheld
  · cases hstep

theorem PairsOk.step (h : PairsOk tab) {a : IdentityAction} (hstep : tab.step a = some tab') :
    PairsOk tab' := by
  cases a with
  | bootstrap sessionKind roomId =>
    obtain ⟨after,promise,hcall,hafter,hresolved⟩ := h.consume
    simp only [IdentityTab.step,hcall] at hstep
    cases hstep
    refine hafter.setBootstraps rfl rfl rfl rfl fun other hother => ?_
    rcases List.mem_append.mp hother with hold | hnew
    · exact .inl hold
    · rw [List.mem_singleton.mp hnew]
      refine .inr ⟨fun result hresult => ?_,fun _ hnone => (by cases hnone),
        fun hset => (by cases hset)⟩
      cases promise with
      | run id => cases hresult
      | resolved found =>
        cases hresult
        exact hresolved _ rfl
  | stripEffect =>
    obtain ⟨after,promise,hcall,hafter,-⟩ := h.consume
    simp only [IdentityTab.step,hcall] at hstep
    cases hstep
    exact hafter.of_same (List.Subset.refl _) hafter.hash rfl rfl rfl
  | navigate shown =>
    cases hstep
    exact h.of_same (List.subset_cons_self _ _) (.inr List.mem_cons_self) rfl rfl rfl
  | hashchange =>
    rw [IdentityTab.step] at hstep
    split at hstep
    · cases hstep
      exact h.strip
    · cases hstep
  | runEncrypted id ok =>
    rw [IdentityTab.step] at hstep
    split at hstep
    · rename_i hrun
      have hheld := h.runs _ (List.mem_of_getElem? hrun)
      split at hstep
      · cases hstep
        refine PairsOk.setRun ?_ hheld
        exact h.of_same (List.Subset.refl _) (.inl rfl) rfl rfl rfl
      · cases hstep
        exact h.setRun trivial
    · cases hstep
  | settleRun id =>
    rw [IdentityTab.step] at hstep
    split at hstep
    · rename_i result hrun
      cases hstep
      refine h.settleRun fun found hfound => ?_
      cases hfound
      exact h.runs _ (List.mem_of_getElem? hrun)
    · cases hstep
      exact h.settleRun fun found hfound => (by cases hfound)
    · cases hstep
  | resume m uuid randomHex =>
    obtain ⟨bootstrap,hget,hstep⟩ := Option.bind_eq_some_iff.mp hstep
    have hmem := List.mem_of_getElem? hget
    split at hstep
    · rename_i promise hphase
      obtain ⟨result,hresult,rfl⟩ := Option.map_eq_some_iff.mp hstep
      exact h.resume hmem hphase uuid randomHex (h.outcome hmem hphase hresult)
    · cases hstep
  | decrypted m ok randomHex =>
    obtain ⟨bootstrap,hget,hstep⟩ := Option.bind_eq_some_iff.mp hstep
    exact h.decrypted (List.mem_of_getElem? hget) hstep
  | encrypted m ok =>
    obtain ⟨bootstrap,hget,hstep⟩ := Option.bind_eq_some_iff.mp hstep
    have hmem := List.mem_of_getElem? hget
    have hok := h.bootstraps bootstrap hmem
    split at hstep
    · rename_i fromHash _ secret hphase
      split at hstep
      · cases hstep
        have hstored : PairsOk { tab with userSecret := some (.sealed secret) } :=
          h.of_same (List.Subset.refl _) h.hash rfl rfl rfl
        exact hstored.finish (hok.fromHash fromHash (by rw [hphase]; rfl)) _ _
      · cases hstep
        exact h.setBootstrap (hok.goOn (by simp [hphase]) fun _ hfound => (by cases hfound))
    · cases hstep
  | cancel m =>
    obtain ⟨bootstrap,hget,rfl⟩ := Option.map_eq_some_iff.mp hstep
    have hok := h.bootstraps bootstrap (List.mem_of_getElem? hget)
    exact h.setBootstrap ⟨hok.fromHash,hok.identity,hok.ended⟩
  | afterConsume k =>
    obtain ⟨effect,hget,hstep⟩ := Option.bind_eq_some_iff.mp hstep
    split at hstep
    · split at hstep
      · cases hstep
        exact h.of_same (List.Subset.refl _) h.hash rfl rfl rfl
      · cases hstep
        exact h.strip.of_same (List.Subset.refl _) h.strip.hash rfl rfl rfl
    · cases hstep
  | deferredStrip k =>
    obtain ⟨effect,hget,hstep⟩ := Option.bind_eq_some_iff.mp hstep
    split at hstep
    · split at hstep
      · cases hstep
      · cases hstep
        exact h.strip.of_same (List.Subset.refl _) h.strip.hash rfl rfl rfl
    · cases hstep
  | dispose k =>
    obtain ⟨effect,hget,rfl⟩ := Option.map_eq_some_iff.mp hstep
    exact h.of_same (List.Subset.refl _) h.hash rfl rfl rfl

theorem pairsOk_of_reachable {rawHash : List Char}
    (h : (identitySystem rawHash).Reachable tab) : PairsOk tab := by
  refine h.invariant PairsOk ?_ fun _ _ _ _ hs hstep => hs.step hstep
  intro s hinit
  obtain ⟨storedId,storedSecret,controlTokens,rfl⟩ := hinit
  exact ⟨.inr (List.mem_singleton.mpr rfl),fun _ hresult => (by cases hresult),
    fun _ hrun => (by cases hrun),fun _ hmem => (by cases hmem)⟩

end Pairs

section Handover

/-- The hand-over of an identity by a link. What a tab reads from the fragment of an embed's URL is
what the URL was built from. In a tab that loads such a fragment, however its effects are mounted
again and whatever strips or restores the fragment, every bootstrap that ends before it is cancelled
passes on the link's identity and token, no other is made up, and the storage has them. In any run at
all what a bootstrap passes on is one fragment's, or what the storage gave it. -/
theorem session_identity_handover :
    (∀ roomId userId userSecret controlToken,
      let held := fun controlToken => if hasIdentityCredentials userId userSecret then
        some (userId,userSecret,validIdentityValue controlToken) else none
      identityOfHash (rawHashOf (getControlEmbedUrl roomId userId userSecret controlToken)) =
          held controlToken ∧
        identityOfHash (rawHashOf (getPlayerEmbedUrl roomId userId userSecret)) = held none ∧
        identityOfHash (rawHashOf (getRoomPopupUrl roomId userId userSecret)) = held none ∧
        looksLikeIdentityBootstrapHash (buildIdentityHash userId userSecret controlToken) = true) ∧
    (∀ rawHash userId userSecret controlToken,
      identityOfHash rawHash = some (userId,userSecret,controlToken) → ∀ tab,
      ((identitySystem rawHash).restrict (SameFragment rawHash)).Reachable tab →
      ∀ bootstrap ∈ tab.bootstraps,
        (∀ readId secret, bootstrap.phase = .finished readId secret →
          (bootstrap.cancelled = false → bootstrap.identity = some (userId,userSecret)) ∧
            readId = userId ∧ secret = userSecret ∧ tab.userId = some userId ∧
            tab.userSecret = some (.sealed userSecret) ∧
            TokenKept controlToken tab bootstrap ∧ (tab.shown = [rawHash] → tab.hash = [])) ∧
        (∀ identity ∈ bootstrap.identity, identity = (userId,userSecret)) ∧
        bootstrap.phase ≠ .failed) ∧
    ∀ rawHash tab, (identitySystem rawHash).Reachable tab →
      ∀ bootstrap ∈ tab.bootstraps, ∀ identity ∈ bootstrap.identity,
        bootstrap.phase = .finished identity.1 identity.2 ∨
          ∃ shown ∈ tab.shown, ∃ controlToken,
            identityOfHash shown = some (identity.1,identity.2,controlToken) := by
  refine ⟨fun roomId userId userSecret controlToken => ?_,
    fun rawHash userId userSecret controlToken hidentity tab htab bootstrap hmem => ?_,
    fun rawHash tab htab bootstrap hmem =>
      ((pairsOk_of_reachable htab).bootstraps bootstrap hmem).identity⟩
  · have hcontrol : ∀ e ∈ some "control", '#' ∉ e.toList := by decide
    have hplayer : ∀ e ∈ some "player", '#' ∉ e.toList := by decide
    exact ⟨identityOfHash_withIdentityHash (hash_not_mem_roomPath hcontrol),
      identityOfHash_withIdentityHash (hash_not_mem_roomPath hplayer),
      identityOfHash_withIdentityHash (hash_not_mem_roomPath (fun _ hnone => by cases hnone)),
      looksLike_buildIdentityHash⟩
  · have hok := linkOk_of_reachable hidentity htab
    have hbootstrap := hok.bootstraps bootstrap hmem
    have hstarted := hok.started_of_bootstrap hmem
    refine ⟨fun readId secret hphase => ?_,
      fun identity hset => (hbootstrap.identity identity hset).1,fun hphase => ?_⟩
    · have hfinished := hbootstrap.phase
      rw [LinkPhaseOk,hphase] at hfinished
      obtain ⟨hread,hsecret,hkept,htoken⟩ := hfinished
      exact ⟨fun hrunning => hbootstrap.passed hrunning readId secret hphase,hread,hsecret,
        hok.storedId hstarted,hkept.1,htoken,hkept.2⟩
    · have hfailed := hbootstrap.phase
      rw [LinkPhaseOk,hphase] at hfailed
      exact hfailed

def annsLink : List Char := buildIdentityHash "ann".toList "s1".toList (some "t".toList)

/-- The effects are mounted twice, a `hashchange` strips the fragment before it was dealt with, and
the browser shows it once more. -/
def mountedTwice : List IdentityAction :=
  [.bootstrap .control (some "kino".toList),.stripEffect,.cancel 0,.dispose 0,
    .bootstrap .control (some "kino".toList),.stripEffect,.hashchange,.runEncrypted 0 true,
    .settleRun 0,.resume 0 [] [],.resume 1 [] [],.afterConsume 1,.decrypted 0 true [],
    .decrypted 1 true [],.navigate annsLink,.deferredStrip 1]

theorem session_identity_handover_of_two_mounts :
    ∃ tab, ((identitySystem annsLink).restrict (SameFragment annsLink)).Reachable tab ∧
      ∃ bootstrap ∈ tab.bootstraps, bootstrap.phase = .finished "ann".toList "s1".toList ∧
        bootstrap.identity = some ("ann".toList,"s1".toList) ∧
        tab.userId = some "ann".toList ∧ tab.userSecret = some (.sealed "s1".toList) ∧
        TokenKept (some "t".toList) tab bootstrap := by
  have hrun : ((runSteps (guardStep IdentityTab.step (SameFragment annsLink))
      ⟨annsLink,[annsLink],none,none,fun _ => none,none,none,none,[],[],[]⟩ mountedTwice).any
      fun tab => decide (∃ bootstrap ∈ tab.bootstraps, bootstrap.cancelled = false ∧
        bootstrap.phase = .finished "ann".toList "s1".toList)) = true := by decide +kernel
  obtain ⟨tab,htab,hfound⟩ := (Option.any_eq_true _ _).mp hrun
  obtain ⟨bootstrap,hmem,hrunning,hphase⟩ := of_decide_eq_true hfound
  have hlink : identityOfHash annsLink = some ("ann".toList,"s1".toList,some "t".toList) := by
    decide +kernel
  have hreach : ((identitySystem annsLink).restrict (SameFragment annsLink)).Reachable tab :=
    Reachable.of_guardSteps (fun _ _ _ hstep => hstep) mountedTwice
      (.init ⟨none,none,fun _ => none,rfl⟩) htab
  obtain ⟨hpassed,-,-,huser,hsecret,htoken,-⟩ := (session_identity_handover.2.1 annsLink _ _ _ hlink tab
    hreach bootstrap hmem).1 _ _ hphase
  exact ⟨tab,hreach,bootstrap,hmem,hphase,hpassed hrunning,huser,hsecret,htoken⟩

end Handover

end WebSyncPlay
