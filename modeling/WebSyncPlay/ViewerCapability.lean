import WebSyncPlay.PresenceAccounting
import WebSyncPlay.RedisKeys

/-! Viewer capability tokens (`server/media/viewer-capability-token.ts`): minted when a join ends,
dropped when the last socket of a user leaves the room. One record stands for each user of a room,
however many sockets the user has, and for every other room and user whose key is the same. -/
namespace WebSyncPlay

open Library
open TransitionSystem

section Store

def roomStateTtlMs : ℕ := 3600*1000

structure ViewerCapabilityRecord where
  tokenHash : String
  boundIp : String
  expiresAt : ℕ
  deriving DecidableEq

/-- A token with the time of its mint, as the socket that joined keeps it. -/
structure ViewerToken where
  token : String
  mintedAt : ℕ
  deriving DecidableEq

def viewerKey (target : Membership) : String := keys.roomViewerCapability target.1 target.2

/-- The address of a client, or `unknown`. -/
def normalizeIp (ip : String) : String := if trim ip = "" then "unknown" else trim ip

/-- What the close handler of a socket does next for the membership that the socket had. -/
inductive LeaveStage
  | unref | reading | revoking
  deriving DecidableEq

def PresenceSocket.membership? (k : PresenceSocket) : Option Membership :=
  k.meta_.map (·.membership)

/-- A socket with its address, the token that it was sent for its membership, the mint that its
join has still to do, and its close handler. -/
structure ViewerSocket where
  base : PresenceSocket := {}
  clientIp : String
  viewerToken : Option ViewerToken := none
  minting : Option Membership := none
  closing : Option (LeaveStage × Membership) := none

/-- The sockets, the records by key, and the presence references, one entry each. -/
structure ViewerWorld (S : Type*) where
  sockets : S → ViewerSocket
  records : String → Option ViewerCapabilityRecord
  refs : List Membership
  now : ℕ

/-- `bumpWsConnectionRef` on a list. -/
def applyRef (refs : List Membership) : RefChange → List Membership
  | .keep => refs
  | .add target => target :: refs
  | .remove target => refs.erase target

namespace ViewerWorld

variable {S : Type*} [DecidableEq S] (sha256 : String → String)

def record? (w : ViewerWorld S) (target : Membership) : Option ViewerCapabilityRecord :=
  (w.records (viewerKey target)).filter fun record => decide (w.now < record.expiresAt)

def mintViewerCapabilityToken (w : ViewerWorld S) (target : Membership) (boundIp token : String) :
    ViewerWorld S :=
  { w with records := Function.update w.records (viewerKey target) (some
      { tokenHash := sha256 token
        boundIp := normalizeIp boundIp
        expiresAt := w.now + roomStateTtlMs }) }

def validateViewerCapabilityToken (w : ViewerWorld S) (token : String) (target : Membership)
    (clientIp : String) : Bool :=
  trim token != "" && trim target.2 != "" && trim target.1 != "" &&
    (w.record? (trim target.1,trim target.2)).any fun record =>
      record.tokenHash == sha256 (trim token) && trim record.boundIp == normalizeIp clientIp

def invalidateViewerCapabilityToken (w : ViewerWorld S) (target : Membership) : ViewerWorld S :=
  { w with records := Function.update w.records (viewerKey target) none }

def setSocket (w : ViewerWorld S) (s : S) (k : ViewerSocket) : ViewerWorld S :=
  { w with sockets := Function.update w.sockets s k }

def isActive (w : ViewerWorld S) (target : Membership) : Bool :=
  w.refs.any fun ref => ref == target

def hasConnections (w : ViewerWorld S) (roomId : String) : Bool :=
  w.refs.any fun ref => ref.1 == roomId

end ViewerWorld

/-- A step of a join or of the end of a socket, the mint after a join, which the store may refuse,
and the steps of the close handler: it takes the reference away unless the socket had none, reads
the presence of the room, and revokes the token. The handler of the last user may find that the
room is gone, or may destroy it and end there. -/
inductive ViewerEvent (S : Type*)
  | socket (s : S) (event : SocketEvent)
  | untracked (s : S)
  | mint (s : S) (token : String)
  | mintFails (s : S)
  | read (s : S) (roomExists destroys : Bool)
  | revoke (s : S)
  | tick (now : ℕ)

/-- A join that has been committed goes on to the mint. -/
def joined? (event : SocketEvent) (k' : PresenceSocket) : Option Membership :=
  match event with
  | .commit true => if k'.stage = .idle ∧ k'.link = .opened then k'.membership? else none
  | .reply => if k'.stage = .idle ∧ k'.link = .opened then k'.membership? else none
  | _ => none

/-- `roomJoinSchema` takes no empty id, and a socket's next message waits for its join to end. -/
def ViewerSocket.ready (k : ViewerSocket) : SocketEvent → Bool
  | .join target => k.minting.isNone && target.1 != "" && target.2 != ""
  | _ => true

def ViewerSocket.after (k : ViewerSocket) (event : SocketEvent) (base' : PresenceSocket) :
    ViewerSocket :=
  { k with
    base := base'
    viewerToken := if base'.membership? = k.base.membership? then k.viewerToken else none
    minting := (joined? event base').or k.minting
    closing := match event with
      | .close => k.base.membership?.map fun target => (.unref,target)
      | .leave => k.closing.map fun leaving => (.reading,leaving.2)
      | _ => k.closing }

namespace ViewerWorld

variable {S : Type*} [DecidableEq S] (sha256 : String → String)

/-- The mint at the end of a join; a socket that closed meanwhile is not sent its token. -/
def mintFor (w : ViewerWorld S) (s : S) (target : Membership) (token : String) : ViewerWorld S :=
  let k := w.sockets s
  (w.mintViewerCapabilityToken sha256 target k.clientIp token).setSocket s { k with
    viewerToken :=
      if k.base.link = .opened then some { token := token, mintedAt := w.now } else k.viewerToken
    minting := none }

/-- The close handler after it read the presence of the room. -/
def leaveStage (w : ViewerWorld S) (target : Membership) (roomExists destroys : Bool) :
    Option (LeaveStage × Membership) :=
  if roomExists && w.isActive target then none
  else if roomExists && destroys && !w.hasConnections target.1 then none
  else some (.revoking,target)

/-- One step. A token is not empty and has no white space. -/
def step (w : ViewerWorld S) : ViewerEvent S → Option (ViewerWorld S)
  | .socket s event =>
    if (w.sockets s).ready event then
      (stepSocket (w.sockets s).base event).map fun result =>
        { w.setSocket s ((w.sockets s).after event result.1) with
          refs := applyRef w.refs result.2 }
    else none
  | .untracked s =>
    match (w.sockets s).closing, (w.sockets s).base.leaving with
    | some (.unref,target),none =>
      some (w.setSocket s { w.sockets s with closing := some (.reading,target) })
    | _,_ => none
  | .mint s token =>
    if token ≠ "" ∧ trim token = token then
      (w.sockets s).minting.map fun target => w.mintFor sha256 s target token
    else none
  | .mintFails s =>
    (w.sockets s).minting.map fun _ => w.setSocket s { w.sockets s with minting := none }
  | .read s roomExists destroys =>
    match (w.sockets s).closing with
    | some (.reading,target) =>
      some (w.setSocket s
        { w.sockets s with closing := w.leaveStage target roomExists destroys })
    | _ => none
  | .revoke s =>
    match (w.sockets s).closing with
    | some (.revoking,target) =>
      some ((w.invalidateViewerCapabilityToken target).setSocket s
        { w.sockets s with closing := none })
    | _ => none
  | .tick now => if w.now ≤ now then some { w with now := now } else none

end ViewerWorld

section System

variable {S : Type*} [DecidableEq S]

def ViewerWorld.start (clientIp : S → String) (now : ℕ) : ViewerWorld S where
  sockets s := { clientIp := clientIp s }
  records := fun _ => none
  refs := []
  now := now

def viewerSystem (sha256 : String → String) :
    TransitionSystem (ViewerWorld S) (ViewerEvent S) where
  init w := ∃ clientIp now, w = .start clientIp now
  step w event w' := w.step sha256 event = some w'

end System

end Store

/-- The keys are built from the ids as they are and looked up by the trimmed ones. -/
def Trimmed (target : Membership) : Prop := trim target.1 = target.1 ∧ trim target.2 = target.2

instance (target : Membership) : Decidable (Trimmed target) :=
  inferInstanceAs (Decidable (_ ∧ _))

/-- An open socket whose join in the room has come to its end. -/
def ViewerSocket.Joined (k : ViewerSocket) (target : Membership) : Prop :=
  k.base.link = .opened ∧ k.base.CommittedTo target ∧ k.minting = none

/-- An open socket in the room with the token of its join. -/
def ViewerSocket.Holds (k : ViewerSocket) (target : Membership) (t : ViewerToken) : Prop :=
  k.base.link = .opened ∧ k.base.membership? = some target ∧ k.viewerToken = some t

/-- The socket is in the room and has not closed, or its close handler has not come to its end. -/
def ViewerSocket.Attends (k : ViewerSocket) (target : Membership) : Prop :=
  k.base.link ≠ .closed ∧ k.base.membership? = some target ∨
    k.closing.map Prod.snd = some target

/-- A name of a room and a user that the token route can look up. -/
def Named (target : Membership) : Prop := Trimmed target ∧ target.1 ≠ "" ∧ target.2 ≠ ""

instance (target : Membership) : Decidable (Named target) :=
  inferInstanceAs (Decidable (_ ∧ _ ∧ _))

/-- The rooms and users that can have the key of a room and a user. -/
def sharers (target : Membership) : List Membership :=
  let names := (viewerKey target).toList.drop 5
  (List.range (names.length+1)).map fun i =>
    (String.ofList (names.take i),String.ofList (names.drop (i+8)))

theorem mem_sharers {goal target : Membership} (h : viewerKey goal = viewerKey target) :
    goal ∈ sharers target := by
  have hnames : (viewerKey target).toList.drop 5 =
      goal.1.toList ++ (":viewer:".toList ++ goal.2.toList) := by
    rw [← h]
    simp [viewerKey,keys.roomViewerCapability,roomPrefix]
  refine List.mem_map.mpr ⟨goal.1.toList.length,?_,?_⟩
  · rw [hnames,List.mem_range,List.length_append]
    omega
  · rw [hnames,List.take_left' rfl,← List.drop_drop,List.drop_left' rfl]
    simp

structure ViewerSocket.Ok (k : ViewerSocket) : Prop where
  token : ∀ t, k.viewerToken = some t → t.token ≠ "" ∧ trim t.token = t.token
  minting : ∀ target, k.minting = some target → k.base.stage = .idle ∧
    (k.base.link ≠ .closed → k.base.membership? = some target)
  joined : ∀ target, k.Joined target → ∃ t, k.viewerToken = some t
  named : ∀ target, k.base.membership? = some target ∨ k.base.stage.target? = some target →
    Named target
  closing : k.closing ≠ none → k.base.link = .closed

/-- The room and user that a socket is taken off by a step that leaves nothing to a close handler:
a join in another room or for another user, or the end of a join whose socket is closing. -/
def PresenceSocket.abandons (k : PresenceSocket) : SocketEvent → Option Membership
  | .commit true =>
    match k.stage with
    | .committing target _ => k.membership?.filter fun left =>
        k.link != .opened || left != target
    | _ => none
  | .reply =>
    match k.stage with
    | .aborted _ => k.membership?
    | _ => none
  | _ => none

theorem trim_normalizeIp (ip : String) : trim (normalizeIp ip) = normalizeIp ip := by
  unfold normalizeIp
  split
  · decide +kernel
  · exact trim_trim ip

section Registry

variable {k k' : PresenceSocket} {event : SocketEvent} {change : RefChange}

/-- What a step does to the link and to the registry entry of a socket. -/
inductive RegistryStep (k k' : PresenceSocket) : SocketEvent → Prop
  | keep (event : SocketEvent) (hclose : event ≠ .close)
      (hmember : k'.membership? = k.membership?) (hlink : k'.link = .closed ↔ k.link = .closed)
      (hopen : k'.link = .opened → k.link = .opened) : RegistryStep k k' event
  | close (hlink : k.link ≠ .closed) (hlink' : k'.link = .closed)
      (hmember : k'.membership? = none) : RegistryStep k k' .close
  | enter (target : Membership) (tracked : Bool) (hstage : k.stage = .committing target tracked)
      (hlink : k.link = .opened) (hlink' : k'.link = .opened)
      (hmember : k'.membership? = some target) : RegistryStep k k' (.commit true)
  | drop (target : Membership) (tracked : Bool) (hstage : k.stage = .committing target tracked)
      (hlink : k.link ≠ .opened) (hlink' : k'.link = k.link) (hmember : k'.membership? = none) :
      RegistryStep k k' (.commit true)
  | abort (target : Membership) (hstage : k.stage = .aborted target) (hlink' : k'.link = k.link)
      (hmember : k'.membership? = none) : RegistryStep k k' .reply

theorem membership?_setSocketPresenceTracked (presenceTracked : Bool) {k' : PresenceSocket}
    (h : k'.meta_ = setSocketPresenceTracked presenceTracked k.meta_) :
    k'.membership? = k.membership? := by
  rw [PresenceSocket.membership?,h]
  cases hk : k.meta_ <;> simp [PresenceSocket.membership?,hk,setSocketPresenceTracked,
    SocketMeta.membership]

theorem registryStep_of_same (hclose : event ≠ .close) (hmeta : k'.meta_ = k.meta_)
    (hlink : k'.link = k.link) : RegistryStep k k' event :=
  .keep event hclose (congrArg (Option.map SocketMeta.membership) hmeta) (by rw [hlink])
    (by rw [hlink]; exact id)

theorem registryStep (h : stepSocket k event = some (k',change)) : RegistryStep k k' event := by
  cases stepSocket_cases h with
  | join | refuse | admitFirst | admitElsewhere | admitAgain | detach | add | abort | fail | leave =>
    exact registryStep_of_same (by simp) rfl rfl
  | detached =>
    exact .keep _ (by simp) (membership?_setSocketPresenceTracked false rfl) Iff.rfl id
  | added =>
    refine .keep _ (by simp) ?_ Iff.rfl id
    cases hm : k.meta_ <;> simp [PresenceSocket.membership?,hm,setSocketPresenceTracked,
      setSocketJoinCommitted,SocketMeta.membership]
  | addedLate =>
    exact .keep _ (by simp) (membership?_setSocketPresenceTracked true rfl) Iff.rfl id
  | aborted hstage => exact .abort _ hstage rfl rfl
  | drop hstage hlink => exact .drop _ _ hstage hlink rfl rfl
  | enter hstage hopen => exact .enter _ _ hstage hopen hopen rfl
  | reenter hstage hopen => exact .enter _ _ hstage hopen hopen rfl
  | hangUp hlink => exact .keep _ (by simp) rfl (by simp [hlink]) (fun h => by cases h)
  | close hlink => exact .close hlink rfl rfl

theorem stepSocket_target (h : stepSocket k event = some (k',change)) {target : Membership}
    (ht : k'.stage.target? = some target) :
    k.stage.target? = some target ∨ event = .join target := by
  cases stepSocket_cases h with
  | join =>
    rw [Option.some.inj ht]
    exact Or.inr rfl
  -- The join is over.
  | refuse | added | aborted | fail | drop | reenter => cases ht
  | hangUp | close | leave => exact Or.inl ht
  | admitFirst hstage | admitElsewhere hstage | admitAgain hstage | detach hstage | add hstage
  | abort hstage | detached hstage | addedLate hstage | enter hstage =>
    rw [hstage]
    exact Or.inl ht

theorem stepSocket_idle (h : stepSocket k event = some (k',change)) (hk : k.stage = .idle)
    (hjoin : ∀ target, event ≠ .join target) : k'.stage = .idle := by
  cases stepSocket_cases h with
  | join => exact absurd rfl (hjoin _)
  | refuse | added | aborted | fail | drop | reenter => rfl
  | hangUp | close | leave => exact hk
  | admitFirst hstage | admitElsewhere hstage | admitAgain hstage | detach hstage | add hstage
  | abort hstage | detached hstage | addedLate hstage | enter hstage =>
    rw [hk] at hstage
    cases hstage

theorem joined?_eq_some {target : Membership} (h : joined? event k' = some target) :
    k'.stage = .idle ∧ k'.membership? = some target := by
  simp only [joined?] at h
  split at h
  · split at h
    · rename_i hidle
      exact ⟨hidle.1,h⟩
    · cases h
  · split at h
    · rename_i hidle
      exact ⟨hidle.1,h⟩
    · cases h
  · cases h

theorem PresenceSocket.CommittedTo.membership? {target : Membership} (h : k.CommittedTo target) :
    k.membership? = some target := by
  obtain ⟨entry,hmeta,-,hentry⟩ := h
  rw [PresenceSocket.membership?,hmeta,← hentry]
  rfl

theorem committedTo_of_step (h : stepSocket k event = some (k',change)) {target : Membership}
    (hopen : k'.link = .opened) (hcommitted : k'.CommittedTo target)
    (hjoined : joined? event k' = none) : k.link = .opened ∧ k.CommittedTo target := by
  have hmember := hcommitted.membership?
  obtain ⟨entry,hmeta,hentry,hgoal⟩ := hcommitted
  cases stepSocket_cases h with
  | hangUp | close => cases hopen
  | detached =>
    obtain ⟨before,hbefore,rfl⟩ := Option.map_eq_some_iff.mp hmeta
    exact ⟨hopen,before,hbefore,hentry,hgoal⟩
  | added | reenter =>
    rw [joined?,if_pos ⟨rfl,hopen⟩,hmember] at hjoined
    cases hjoined
  | addedLate _ hset =>
    change setSocketPresenceTracked true k.meta_ = some entry at hmeta
    change k.link = .opened at hopen
    simp [canSetJoinCommitted,hopen,hmeta] at hset
  | aborted | drop => cases hmeta
  | enter =>
    -- A new entry is not committed before its presence is added.
    cases hmeta
    cases hentry
  | _ => exact ⟨hopen,entry,hmeta,hentry,hgoal⟩

end Registry

section Socket

variable {k : ViewerSocket} {b : PresenceSocket} {event : SocketEvent} {target : Membership}

theorem ViewerSocket.Holds.of_after {t : ViewerToken} (hstep : RegistryStep k.base b event)
    (h : (k.after event b).Holds target t) : k.Holds target t := by
  obtain ⟨hopen,hmember,htoken⟩ := h
  change b.link = .opened at hopen
  change b.membership? = some target at hmember
  change (if b.membership? = k.base.membership? then k.viewerToken else none) = some t at htoken
  split at htoken
  · rename_i hsame
    refine ⟨?_,hsame ▸ hmember,htoken⟩
    cases hstep with
    | keep _ _ _ _ hlink => exact hlink hopen
    | close _ _ hnone =>
      rw [hnone] at hmember
      cases hmember
    | enter _ _ _ hlink => exact hlink
    | drop _ _ _ _ hlink => rw [← hlink,hopen]
    | abort _ _ hlink => rw [← hlink,hopen]
  · cases htoken

theorem ViewerSocket.Ok.after {change : RefChange} (hok : k.Ok) (hready : k.ready event = true)
    (hnamed : ∀ target, event = .join target → Trimmed target)
    (h : stepSocket k.base event = some (b,change)) : (k.after event b).Ok where
  token := by
    intro t ht
    change (if b.membership? = k.base.membership? then k.viewerToken else none) = some t at ht
    split at ht
    · exact hok.token t ht
    · cases ht
  minting := by
    intro target ht
    change (joined? event b).or k.minting = some target at ht
    change b.stage = .idle ∧ (b.link ≠ .closed → b.membership? = some target)
    rcases Option.or_eq_some_iff.mp ht with hjoined | ⟨-,hminting⟩
    · exact ⟨(joined?_eq_some hjoined).1,fun _ => (joined?_eq_some hjoined).2⟩
    · obtain ⟨hidle,hmember⟩ := hok.minting target hminting
      have hjoin : ∀ goal, event ≠ .join goal := by
        rintro goal rfl
        simp [ready,hminting] at hready
      refine ⟨stepSocket_idle h hidle hjoin,fun hlink => ?_⟩
      cases registryStep h with
      | keep _ _ hsame hclosed _ => exact hsame.trans (hmember fun hc => hlink (hclosed.mpr hc))
      | close _ hlink' _ => exact absurd hlink' hlink
      | enter _ _ hstage => rw [hidle] at hstage; cases hstage
      | drop _ _ hstage => rw [hidle] at hstage; cases hstage
      | abort _ hstage => rw [hidle] at hstage; cases hstage
  joined := by
    rintro target ⟨hopen,hcommitted,hminting⟩
    change (joined? event b).or k.minting = none at hminting
    obtain ⟨hjoined,hminting⟩ := Option.or_eq_none_iff.mp hminting
    obtain ⟨hopen',hcommitted'⟩ := committedTo_of_step h hopen hcommitted hjoined
    have hsame : b.membership? = k.base.membership? :=
      hcommitted.membership?.trans hcommitted'.membership?.symm
    obtain ⟨t,ht⟩ := hok.joined target ⟨hopen',hcommitted',hminting⟩
    refine ⟨t,?_⟩
    change (if b.membership? = k.base.membership? then k.viewerToken else none) = some t
    rw [if_pos hsame,ht]
  named := by
    rintro target (hmember | hstage)
    · change b.membership? = some target at hmember
      cases registryStep h with
      | keep _ _ hsame _ _ => exact hok.named target (Or.inl (hsame.symm.trans hmember))
      | enter goal tracked hstage _ _ hgoal =>
        refine hok.named target (Or.inr ?_)
        rw [hstage,← hmember,hgoal]
        rfl
      | close _ _ hnone | drop _ _ _ _ _ hnone | abort _ _ _ hnone =>
        rw [hnone] at hmember
        cases hmember
    · rcases stepSocket_target h hstage with hstage | rfl
      · exact hok.named target (Or.inr hstage)
      · simp only [ready,Bool.and_eq_true,bne_iff_ne] at hready
        exact ⟨hnamed target rfl,hready.1.2,hready.2⟩
  closing := by
    intro hclosing
    change b.link = .closed
    have hclosed : event ≠ .close → k.base.link = .closed := by
      intro hclose
      refine hok.closing fun hnone => hclosing ?_
      cases event with
      | close => exact absurd rfl hclose
      | leave => simp [after,hnone]
      | _ => exact hnone
    cases registryStep h with
    | close _ hlink' _ => exact hlink'
    | keep _ hclose _ hlink _ => exact hlink.mpr (hclosed hclose)
    | enter _ _ _ hopen _ _ =>
      rw [hclosed (by simp)] at hopen
      cases hopen
    | drop _ _ _ _ hlink' _ | abort _ _ hlink' _ => rw [hlink',hclosed (by simp)]

/-- A socket attends to its room and user until its close handler ends, or its join abandons
them. -/
theorem ViewerSocket.Attends.after (hclosing : k.closing ≠ none → k.base.link = .closed)
    (hstep : RegistryStep k.base b event) (h : k.Attends target) :
    (k.after event b).Attends target ∨ k.base.abandons event = some target := by
  rcases h with ⟨hlink,hmember⟩ | hleaving
  · cases hstep with
    | keep _ _ hsame hclosed _ =>
      exact Or.inl (Or.inl ⟨fun h => hlink (hclosed.mp h),hsame.trans hmember⟩)
    | close _ _ _ =>
      refine Or.inl (Or.inr ?_)
      change (k.base.membership?.map fun target => (LeaveStage.unref,target)).map Prod.snd = _
      rw [hmember]
      rfl
    | enter goal tracked hstage hopen hopen' hgoal =>
      by_cases hsame : target = goal
      · subst hsame
        refine Or.inl (Or.inl ⟨?_,hgoal⟩)
        change b.link ≠ .closed
        rw [hopen']
        simp
      · refine Or.inr ?_
        simp [PresenceSocket.abandons,hstage,hmember,Option.filter,hopen,hsame]
    | drop goal tracked hstage hopen _ _ =>
      refine Or.inr ?_
      simp [PresenceSocket.abandons,hstage,hmember,Option.filter,hopen]
    | abort goal hstage _ _ =>
      refine Or.inr ?_
      simp [PresenceSocket.abandons,hstage,hmember]
  · have hclosed : k.base.link = .closed := hclosing fun hnone => by
      rw [hnone] at hleaving
      cases hleaving
    refine Or.inl (Or.inr ?_)
    cases event with
    | close =>
      cases hstep with
      | keep | close => contradiction
    | leave =>
      change (k.closing.map fun leaving => (LeaveStage.reading,leaving.2)).map Prod.snd = _
      rw [Option.map_map]
      exact hleaving
    | _ => exact hleaving

end Socket

namespace ViewerWorld

section Invariant

variable {S : Type*}

/-- Each joined socket has a token, which is good for its room, user and address as long as it was
minted for, and nothing is good for a user of a room whose sockets are all gone. -/
def TokensRight (sha256 : String → String) (w : ViewerWorld S) : Prop :=
  (∀ s target, (w.sockets s).Joined target → ∃ t, (w.sockets s).Holds target t) ∧
  (∀ s target t, (w.sockets s).Holds target t → w.now < t.mintedAt + roomStateTtlMs →
    w.validateViewerCapabilityToken sha256 t.token target (w.sockets s).clientIp = true) ∧
  ∀ target, (∀ s, ¬ (w.sockets s).Attends (trim target.1,trim target.2)) → ∀ token clientIp,
    w.validateViewerCapabilityToken sha256 token target clientIp = false

/-- There is no record for the user, or another socket to look after it. -/
def LeavesSafely (w : ViewerWorld S) (s : S) (target : Membership) : Prop :=
  w.record? target = none ∨ ∃ other, other ≠ s ∧ (w.sockets other).Attends target

def Attended (w : ViewerWorld S) (target : Membership) : Prop :=
  ∀ goal, Named goal → viewerKey goal = viewerKey target → ∃ s, (w.sockets s).Attends goal

/-- No socket but `s` holds a token for the key that is still good for its time. -/
def NoTokenBut (w : ViewerWorld S) (s : S) (target : Membership) : Prop :=
  ∀ other, other ≠ s → ∀ goal ∈ (w.sockets other).base.membership?,
    viewerKey goal = viewerKey target → ∀ t ∈ (w.sockets other).viewerToken,
      (w.sockets other).Holds goal t → t.mintedAt + roomStateTtlMs ≤ w.now

/-- The step does no harm to a token: a join is for ids with no white space around them; a socket
that is taken off a room or whose close handler gives up leaves no record alone; a mint replaces
no token that another socket holds, and some socket is there for its record; a record is dropped
while no other socket holds a token for it; the store refuses no mint of an open socket. -/
def keepsViewers (w : ViewerWorld S) : ViewerEvent S → Prop
  | .socket _ (.join target) => Trimmed target
  | .socket s event => ∀ left ∈ (w.sockets s).base.abandons event, w.LeavesSafely s left
  | .untracked _ => True
  | .mint s _ => ∀ target ∈ (w.sockets s).minting, w.Attended target ∧ w.NoTokenBut s target
  | .mintFails s => (w.sockets s).base.link ≠ .opened
  | .read s roomExists destroys => ∀ leaving ∈ (w.sockets s).closing,
      w.leaveStage leaving.2 roomExists destroys = none → w.LeavesSafely s leaving.2
  | .revoke s => ∀ leaving ∈ (w.sockets s).closing, w.NoTokenBut s leaving.2
  | .tick _ => True

structure ViewerInv (sha256 : String → String) (w : ViewerWorld S) : Prop where
  held : ∀ s target t, (w.sockets s).Holds target t → w.now < t.mintedAt + roomStateTtlMs →
    w.records (viewerKey target) = some
      { tokenHash := sha256 t.token
        boundIp := normalizeIp (w.sockets s).clientIp
        expiresAt := t.mintedAt + roomStateTtlMs }
  attended : ∀ target, Named target → w.record? target ≠ none → ∃ s, (w.sockets s).Attends target
  ok : ∀ s, (w.sockets s).Ok

variable {sha256 : String → String} {w w' : ViewerWorld S}

theorem record?_of_live {target : Membership} {record : ViewerCapabilityRecord}
    (h : w.records (viewerKey target) = some record) (hlive : w.now < record.expiresAt) :
    w.record? target = some record := by
  simp only [record?,h,Option.filter_some,hlive,decide_true,if_true]

theorem ViewerInv.tokensRight (h : ViewerInv sha256 w) : TokensRight sha256 w := by
  refine ⟨?_,?_,?_⟩
  · intro s target hjoined
    obtain ⟨t,ht⟩ := (h.ok s).joined target hjoined
    exact ⟨t,hjoined.1,hjoined.2.1.membership?,ht⟩
  · intro s target t ht hlive
    obtain ⟨⟨hroom,huser⟩,hroomId,huserId⟩ := (h.ok s).named target (Or.inl ht.2.1)
    obtain ⟨htoken,htrim⟩ := (h.ok s).token t ht.2.2
    have hlook := record?_of_live (h.held s target t ht hlive) hlive
    simp only [validateViewerCapabilityToken,hroom,huser,htrim,hlook,Option.any_some,
      trim_normalizeIp,beq_self_eq_true,Bool.and_true,Bool.and_eq_true,bne_iff_ne,ne_eq]
    exact ⟨⟨htoken,huserId⟩,hroomId⟩
  · intro target hnobody token clientIp
    by_contra hvalid
    have hvalid := Bool.of_not_eq_false hvalid
    simp only [validateViewerCapabilityToken,Bool.and_eq_true,bne_iff_ne] at hvalid
    obtain ⟨⟨⟨-,huser⟩,hroom⟩,hrecord⟩ := hvalid
    obtain ⟨record,hrecord,-⟩ := (Option.any_eq_true _ _).mp hrecord
    obtain ⟨s,hs⟩ := h.attended (trim target.1,trim target.2)
      ⟨⟨trim_trim target.1,trim_trim target.2⟩,hroom,huser⟩ (by simp [hrecord])
    exact hnobody s hs

theorem start_inv (clientIp : S → String) (now : ℕ) :
    ViewerInv sha256 (ViewerWorld.start clientIp now) where
  held := fun s target t ht => by cases ht.2.1
  attended := fun target _ hrecord => absurd rfl hrecord
  ok := fun s =>
    { token := fun t ht => by cases ht
      minting := fun target ht => by cases ht
      joined := fun target ⟨_,⟨entry,hentry,_⟩,_⟩ => by cases hentry
      named := fun target ht => by rcases ht with ht | ht <;> cases ht
      closing := fun hs => absurd rfl hs }

section Steps

variable [DecidableEq S]

theorem ViewerInv.of_socket (h : ViewerInv sha256 w) {s : S} {k' : ViewerSocket}
    (hsockets : w'.sockets = Function.update w.sockets s k') (hrecords : w'.records = w.records)
    (hnow : w'.now = w.now) (hip : k'.clientIp = (w.sockets s).clientIp) (hok : k'.Ok)
    (hholds : ∀ target t, k'.Holds target t → (w.sockets s).Holds target t)
    (hattends : ∀ target, (w.sockets s).Attends target →
      k'.Attends target ∨ w.LeavesSafely s target) : ViewerInv sha256 w' where
  held := by
    intro other target t ht hlive
    rw [hsockets] at ht ⊢
    rw [hrecords]
    rw [hnow] at hlive
    by_cases hs : other = s
    · subst hs
      rw [Function.update_self] at ht ⊢
      rw [hip]
      exact h.held other target t (hholds target t ht) hlive
    · rw [Function.update_of_ne hs] at ht ⊢
      exact h.held other target t ht hlive
  attended := by
    intro target hnamed hrecord
    have hrecord' : w.record? target ≠ none := by
      rw [record?,hrecords,hnow] at hrecord
      exact hrecord
    obtain ⟨other,hother⟩ := h.attended target hnamed hrecord'
    rw [hsockets]
    by_cases hs : other = s
    · subst hs
      rcases hattends target hother with hstill | hnone | ⟨another,hne,hanother⟩
      · exact ⟨other,by rwa [Function.update_self]⟩
      · exact absurd hnone hrecord'
      · exact ⟨another,by rwa [Function.update_of_ne hne]⟩
    · exact ⟨other,by rwa [Function.update_of_ne hs]⟩
  ok := by
    intro other
    rw [hsockets]
    by_cases hs : other = s
    · subst hs
      rwa [Function.update_self]
    · rw [Function.update_of_ne hs]
      exact h.ok other

theorem socket_inv (h : ViewerInv sha256 w) {s : S} {event : SocketEvent}
    (hcareful : keepsViewers w (.socket s event))
    (hs : w.step sha256 (.socket s event) = some w') : ViewerInv sha256 w' := by
  simp only [step] at hs
  split at hs
  · rename_i hready
    obtain ⟨⟨b,change⟩,hstep,rfl⟩ := Option.map_eq_some_iff.mp hs
    have hregistry := registryStep hstep
    refine h.of_socket rfl rfl rfl rfl ?_ (fun target t => .of_after hregistry) ?_
    · refine (h.ok s).after hready ?_ hstep
      rintro target rfl
      exact hcareful
    · intro target hattends
      rcases hattends.after (h.ok s).closing hregistry with hstill | habandons
      · exact Or.inl hstill
      · refine Or.inr ?_
        cases event with
        | join goal => cases habandons
        | _ => exact hcareful target habandons
  · cases hs

theorem untracked_inv (h : ViewerInv sha256 w) {s : S}
    (hs : w.step sha256 (.untracked s) = some w') : ViewerInv sha256 w' := by
  simp only [step] at hs
  split at hs
  · rename_i target hclosing _
    cases hs
    have hok := h.ok s
    refine h.of_socket rfl rfl rfl rfl ⟨hok.token,hok.minting,hok.joined,hok.named,fun _ => ?_⟩
      (fun _ _ ht => ht) fun goal hattends => Or.inl (hattends.imp_right fun hleaving => ?_)
    · exact hok.closing (by simp [hclosing])
    · rw [hclosing] at hleaving
      exact hleaving
  · cases hs

theorem mintFails_inv (h : ViewerInv sha256 w) {s : S} (hcareful : keepsViewers w (.mintFails s))
    (hs : w.step sha256 (.mintFails s) = some w') : ViewerInv sha256 w' := by
  simp only [step] at hs
  obtain ⟨target,-,rfl⟩ := Option.map_eq_some_iff.mp hs
  have hok := h.ok s
  exact h.of_socket rfl rfl rfl rfl
    ⟨hok.token,nofun,fun _ hjoined => absurd hjoined.1 hcareful,hok.named,hok.closing⟩
    (fun _ _ ht => ht) fun _ hattends => Or.inl hattends

theorem read_inv (h : ViewerInv sha256 w) {s : S} {roomExists destroys : Bool}
    (hcareful : keepsViewers w (.read s roomExists destroys))
    (hs : w.step sha256 (.read s roomExists destroys) = some w') : ViewerInv sha256 w' := by
  simp only [step] at hs
  split at hs
  · rename_i target hclosing
    cases hs
    have hok := h.ok s
    have hlink : (w.sockets s).base.link = .closed := hok.closing (by simp [hclosing])
    refine h.of_socket rfl rfl rfl rfl
      ⟨hok.token,hok.minting,hok.joined,hok.named,fun _ => hlink⟩ (fun _ _ ht => ht)
      fun goal hattends => ?_
    rcases hattends with ⟨hopen,-⟩ | hleaving
    · exact absurd hlink hopen
    · rw [hclosing] at hleaving
      cases hleaving
      cases hstage : w.leaveStage target roomExists destroys with
      | none => exact Or.inr (hcareful _ hclosing hstage)
      | some stage =>
        refine Or.inl (Or.inr ?_)
        -- A handler that goes on goes on with its room and user.
        simp only [leaveStage] at hstage
        split at hstage
        · cases hstage
        · split at hstage <;> cases hstage
          rfl
  · cases hs

/-- A step of one socket that puts another record, or none, in the place of one that no other
socket holds a token for. -/
theorem ViewerInv.of_record (h : ViewerInv sha256 w) {s : S} {target : Membership}
    {k' : ViewerSocket} {record' : Option ViewerCapabilityRecord}
    (hsockets : w'.sockets = Function.update w.sockets s k')
    (hrecords : w'.records = Function.update w.records (viewerKey target) record')
    (hnow : w'.now = w.now) (hok : k'.Ok) (halone : w.NoTokenBut s target)
    (hholds : ∀ goal t, k'.Holds goal t → goal = target ∧ record' = some
      { tokenHash := sha256 t.token
        boundIp := normalizeIp k'.clientIp
        expiresAt := t.mintedAt + roomStateTtlMs })
    (hattends : ∀ goal, goal ≠ target → (w.sockets s).Attends goal → k'.Attends goal)
    (hattended : record' ≠ none → w'.Attended target) :
    ViewerInv sha256 w' where
  held := by
    intro other goal t ht hlive
    rw [hnow] at hlive
    rw [hrecords]
    rw [hsockets] at ht ⊢
    by_cases hs : other = s
    · subst hs
      rw [Function.update_self] at ht ⊢
      obtain ⟨rfl,hrecord⟩ := hholds goal t ht
      rw [Function.update_self,hrecord]
    · rw [Function.update_of_ne hs] at ht ⊢
      have hgoal : viewerKey goal ≠ viewerKey target := by
        intro hkey
        exact absurd hlive (Nat.not_lt.mpr (halone other hs goal ht.2.1 hkey t ht.2.2 ht))
      rw [Function.update_of_ne hgoal]
      exact h.held other goal t ht hlive
  attended := by
    intro goal hnamed hrecord
    rw [record?,hrecords,hnow] at hrecord
    by_cases hkey : viewerKey goal = viewerKey target
    · refine hattended (fun hnone => hrecord ?_) goal hnamed hkey
      rw [hkey,Function.update_self,hnone]
      rfl
    · rw [Function.update_of_ne hkey] at hrecord
      have hgoal : goal ≠ target := fun hsame => hkey (congrArg viewerKey hsame)
      obtain ⟨other,hother⟩ := h.attended goal hnamed hrecord
      refine ⟨other,?_⟩
      rw [hsockets]
      by_cases hs : other = s
      · subst hs
        rw [Function.update_self]
        exact hattends goal hgoal hother
      · rwa [Function.update_of_ne hs]
  ok := by
    intro other
    rw [hsockets]
    by_cases hs : other = s
    · subst hs
      rwa [Function.update_self]
    · rw [Function.update_of_ne hs]
      exact h.ok other

theorem mint_inv (h : ViewerInv sha256 w) {s : S} {token : String}
    (hcareful : keepsViewers w (.mint s token))
    (hs : w.step sha256 (.mint s token) = some w') : ViewerInv sha256 w' := by
  simp only [step] at hs
  split at hs
  · rename_i htoken
    obtain ⟨target,hminting,rfl⟩ := Option.map_eq_some_iff.mp hs
    obtain ⟨hattended,halone⟩ := hcareful target hminting
    have hok := h.ok s
    refine h.of_record rfl rfl rfl ⟨?_,nofun,?_,hok.named,hok.closing⟩ halone ?_
      (fun goal _ => id) fun _ => ?_
    · intro t ht
      change (if (w.sockets s).base.link = .opened then some { token := token, mintedAt := w.now }
        else (w.sockets s).viewerToken) = some t at ht
      split at ht
      · cases ht
        exact htoken
      · exact hok.token t ht
    · rintro goal ⟨hopen,-⟩
      change (w.sockets s).base.link = .opened at hopen
      exact ⟨{ token := token, mintedAt := w.now },if_pos hopen⟩
    · rintro goal t ⟨hopen,hmember,ht⟩
      change (w.sockets s).base.link = .opened at hopen
      change (w.sockets s).base.membership? = some goal at hmember
      change (if (w.sockets s).base.link = .opened then some { token := token, mintedAt := w.now }
        else (w.sockets s).viewerToken) = some t at ht
      rw [if_pos hopen] at ht
      cases ht
      have hgoal := (hok.minting target hminting).2 (by simp [hopen])
      exact ⟨Option.some.inj (hmember.symm.trans hgoal),rfl⟩
    · intro goal hnamed hkey
      obtain ⟨other,hother⟩ := hattended goal hnamed hkey
      refine ⟨other,?_⟩
      change (Function.update w.sockets s _ other).Attends goal
      by_cases hs : other = s
      · subst hs
        rw [Function.update_self]
        exact hother
      · rwa [Function.update_of_ne hs]
  · cases hs

theorem revoke_inv (h : ViewerInv sha256 w) {s : S} (hcareful : keepsViewers w (.revoke s))
    (hs : w.step sha256 (.revoke s) = some w') : ViewerInv sha256 w' := by
  simp only [step] at hs
  split at hs
  · rename_i target hclosing
    cases hs
    have hok := h.ok s
    have hlink : (w.sockets s).base.link = .closed := hok.closing (by simp [hclosing])
    refine h.of_record rfl rfl rfl
      ⟨hok.token,hok.minting,hok.joined,hok.named,fun hne => absurd rfl hne⟩
      (hcareful (_,target) hclosing) ?_ ?_ fun hne => absurd rfl hne
    · rintro goal t ⟨hopen,-,-⟩
      change (w.sockets s).base.link = .opened at hopen
      rw [hlink] at hopen
      cases hopen
    · rintro goal hgoal (⟨hopen,-⟩ | hleaving)
      · exact absurd hlink hopen
      · rw [hclosing] at hleaving
        exact absurd (Option.some.inj hleaving).symm hgoal
  · cases hs

theorem tick_inv (h : ViewerInv sha256 w) {now : ℕ} (hs : w.step sha256 (.tick now) = some w') :
    ViewerInv sha256 w' := by
  simp only [step] at hs
  split at hs
  · rename_i hnow
    cases hs
    refine ⟨fun s target t ht hlive => ?_,fun target hnamed hrecord => ?_,h.ok⟩
    · exact h.held s target t ht (lt_of_le_of_lt hnow hlive)
    · refine h.attended target hnamed fun hnone => hrecord ?_
      rw [record?,Option.filter_eq_none_iff] at hnone ⊢
      intro record hr hlive
      refine hnone record hr (decide_eq_true ?_)
      exact lt_of_le_of_lt hnow (of_decide_eq_true hlive)
  · cases hs

theorem step_inv (h : ViewerInv sha256 w) {event : ViewerEvent S} (hcareful : keepsViewers w event)
    (hs : w.step sha256 event = some w') : ViewerInv sha256 w' := by
  cases event with
  | socket s event => exact socket_inv h hcareful hs
  | untracked s => exact untracked_inv h hs
  | mint s token => exact mint_inv h hcareful hs
  | mintFails s => exact mintFails_inv h hcareful hs
  | read s roomExists destroys => exact read_inv h hcareful hs
  | revoke s => exact revoke_inv h hcareful hs
  | tick now => exact tick_inv h hs

end Steps

end Invariant

end ViewerWorld

section Runs

variable {S : Type*} [DecidableEq S] {sha256 : String → String} {w : ViewerWorld S}

theorem viewer_tokens_right
    (h : ((viewerSystem sha256).restrict (ViewerWorld.keepsViewers (S := S))).Reachable w) :
    w.TokensRight sha256 := by
  have hinv : ViewerWorld.ViewerInv sha256 w := by
    refine h.invariant (ViewerWorld.ViewerInv sha256) ?_ ?_
    · rintro _ ⟨clientIp,now,rfl⟩
      exact ViewerWorld.start_inv clientIp now
    · rintro w event w' - hw ⟨hcareful,hs⟩
      exact ViewerWorld.step_inv hw hcareful hs
  exact hinv.tokensRight

instance (k : ViewerSocket) (target : Membership) (t : ViewerToken) :
    Decidable (k.Holds target t) :=
  inferInstanceAs (Decidable (_ ∧ _ ∧ _))

instance (k : ViewerSocket) (target : Membership) : Decidable (k.Attends target) :=
  inferInstanceAs (Decidable (_ ∧ _ ∨ _))

namespace ViewerWorld

variable [Fintype S]

instance (w : ViewerWorld S) (s : S) (target : Membership) : Decidable (w.LeavesSafely s target) :=
  inferInstanceAs (Decidable (_ ∨ ∃ _, _))

instance (w : ViewerWorld S) (s : S) (target : Membership) : Decidable (w.NoTokenBut s target) :=
  inferInstanceAs (Decidable (∀ _, _ → ∀ goal ∈ _, _ → ∀ t ∈ _, _))

instance (w : ViewerWorld S) (target : Membership) : Decidable (w.Attended target) :=
  decidable_of_iff (∀ goal ∈ sharers target, Named goal → viewerKey goal = viewerKey target →
      ∃ s, (w.sockets s).Attends goal)
    ⟨fun h goal hnamed hkey => h goal (mem_sharers hkey) hnamed hkey,fun h goal _ => h goal⟩

instance (w : ViewerWorld S) (event : ViewerEvent S) : Decidable (w.keepsViewers event) :=
  match event with
  | .socket _ (.join target) => inferInstanceAs (Decidable (Trimmed target))
  | .socket _ (.admission _) => inferInstanceAs (Decidable (∀ left ∈ _, LeavesSafely _ _ _))
  | .socket _ .redis => inferInstanceAs (Decidable (∀ left ∈ _, LeavesSafely _ _ _))
  | .socket _ .reply => inferInstanceAs (Decidable (∀ left ∈ _, LeavesSafely _ _ _))
  | .socket _ (.commit _) => inferInstanceAs (Decidable (∀ left ∈ _, LeavesSafely _ _ _))
  | .socket _ .hangUp => inferInstanceAs (Decidable (∀ left ∈ _, LeavesSafely _ _ _))
  | .socket _ .close => inferInstanceAs (Decidable (∀ left ∈ _, LeavesSafely _ _ _))
  | .socket _ .leave => inferInstanceAs (Decidable (∀ left ∈ _, LeavesSafely _ _ _))
  | .untracked _ => inferInstanceAs (Decidable True)
  | .mint _ _ => inferInstanceAs (Decidable (∀ target ∈ _, Attended _ _ ∧ NoTokenBut _ _ _))
  | .mintFails _ => inferInstanceAs (Decidable (_ ≠ _))
  | .read _ _ _ => inferInstanceAs (Decidable (∀ leaving ∈ _, _ → LeavesSafely _ _ _))
  | .revoke _ => inferInstanceAs (Decidable (∀ leaving ∈ _, NoTokenBut _ _ _))
  | .tick _ => inferInstanceAs (Decidable True)

end ViewerWorld

def joinWithToken (s : S) (target : Membership) (token : String) : List (ViewerEvent S) :=
  [.socket s (.join target),.socket s (.admission true),.socket s (.commit true),.socket s .redis,
    .socket s .reply,.mint s token]

def twoUsers : List (ViewerEvent Bool) :=
  joinWithToken false ("r","u") "t1" ++ joinWithToken true ("r","v") "t2" ++
    [.socket false .close,.socket false .leave,.read false true false,.revoke false]

def twoTabs : List (ViewerEvent Bool) :=
  joinWithToken false ("r","u") "t1" ++ joinWithToken true ("r","u") "t2"

def tabIp (s : Bool) : String := if s then "10.0.0.2" else "10.0.0.1"

theorem viewer_tokens_right_twoUsers : ∃ w : ViewerWorld Bool,
    (∃ t, (w.sockets true).Holds ("r","v") t ∧
      w.validateViewerCapabilityToken id t.token ("r","v") "10.0.0.2" = true) ∧
      w.validateViewerCapabilityToken id "t1" ("r","u") "10.0.0.1" = false := by
  have hrun : ((TransitionSystem.runSteps
      (TransitionSystem.guardStep (ViewerWorld.step id) ViewerWorld.keepsViewers)
      (ViewerWorld.start tabIp 0) twoUsers).any fun w =>
        decide ((w.sockets true).base.link = .opened) &&
          decide ((w.sockets true).base.meta_ = some ⟨"r","v",true,true⟩) &&
          (w.sockets true).minting.isNone &&
          decide ((w.sockets true).viewerToken = some ⟨"t2",0⟩) && w.now == 0 &&
          (w.sockets true).clientIp == "10.0.0.2" &&
          decide (∀ s, ¬ (w.sockets s).Attends (trim "r",trim "u"))) = true := by
    decide +kernel
  obtain ⟨w,hw,hfacts⟩ := (Option.any_eq_true _ _).mp hrun
  simp only [Bool.and_eq_true,decide_eq_true_eq,beq_iff_eq,Option.isNone_iff_eq_none] at hfacts
  obtain ⟨⟨⟨⟨⟨⟨hopen,hmeta⟩,hminting⟩,htoken⟩,hnow⟩,hip⟩,hgone⟩ := hfacts
  have hr : ((viewerSystem id).restrict (ViewerWorld.keepsViewers (S := Bool))).Reachable w :=
    .of_guardSteps (fun _ _ _ => id) _ (.init ⟨tabIp,0,rfl⟩) hw
  obtain ⟨hheld,hvalid,hclosed⟩ := viewer_tokens_right hr
  obtain ⟨t,ht⟩ := hheld true ("r","v") ⟨hopen,⟨_,hmeta,rfl,rfl⟩,hminting⟩
  refine ⟨w,⟨t,ht,?_⟩,hclosed ("r","u") hgone "t1" "10.0.0.1"⟩
  rw [← hip]
  refine hvalid true ("r","v") t ht ?_
  rw [Option.some.inj (ht.2.2.symm.trans htoken),hnow]
  decide

/-- The second tab's token takes the place of the first tab's. -/
theorem viewer_token_lost_with_second_tab : ∃ w : ViewerWorld Bool,
    (viewerSystem id).Reachable w ∧ ∃ t : ViewerToken,
      (w.sockets false).Holds ("r","u") t ∧ w.now < t.mintedAt + roomStateTtlMs ∧
        w.validateViewerCapabilityToken id t.token ("r","u") (w.sockets false).clientIp = false := by
  have hrun : ((TransitionSystem.runSteps (ViewerWorld.step id) (ViewerWorld.start tabIp 0)
      twoTabs).any fun w =>
        decide ((w.sockets false).Holds ("r","u") ⟨"t1",0⟩) && w.now == 0 &&
          !w.validateViewerCapabilityToken id "t1" ("r","u") (w.sockets false).clientIp) =
      true := by
    decide +kernel
  obtain ⟨w,hw,hfacts⟩ := (Option.any_eq_true _ _).mp hrun
  simp only [Bool.and_eq_true,decide_eq_true_eq,beq_iff_eq,Bool.not_eq_true'] at hfacts
  obtain ⟨⟨hholds,hnow⟩,hlost⟩ := hfacts
  refine ⟨w,.of_runSteps (fun _ _ _ => id) _ (.init ⟨tabIp,0,rfl⟩) hw,⟨"t1",0⟩,hholds,?_,hlost⟩
  rw [hnow]
  decide

end Runs
end WebSyncPlay
