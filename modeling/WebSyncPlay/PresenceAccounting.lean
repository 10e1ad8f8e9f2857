import WebSyncPlay.RoomState
import WebSyncPlay.Library.RefCount
import WebSyncPlay.Library.TransitionSystem

/-! Presence references of one node: the socket registry (`server/ws/registry.ts`), the
join handler (`handlers/join.ts`, `handlers/join/`) and the close handler
(`services/disconnect.ts`), as far as they touch them. A socket handles one message at a
time; everything else interleaves at each await. -/
namespace WebSyncPlay

open Library

abbrev Membership := String × UserId

structure SocketMeta where
  roomId : String
  userId : UserId
  presenceTracked : Bool
  joinCommitted : Bool
  deriving DecidableEq

def SocketMeta.membership (meta_ : SocketMeta) : Membership := (meta_.roomId,meta_.userId)

/-- A registered socket keeps its presence flag; the new entry is not committed. -/
def addSocket (previousMeta : Option SocketMeta) (target : Membership) : SocketMeta where
  roomId := target.1
  userId := target.2
  presenceTracked := (previousMeta.map (·.presenceTracked)).getD false
  joinCommitted := false

def setSocketPresenceTracked (presenceTracked : Bool) (meta_ : Option SocketMeta) :
    Option SocketMeta :=
  meta_.map ({ · with presenceTracked := presenceTracked })

def setSocketJoinCommitted (joinCommitted : Bool) (meta_ : Option SocketMeta) :
    Option SocketMeta :=
  meta_.map ({ · with joinCommitted := joinCommitted })

inductive SocketLink
  | opened | closing | closed
  deriving DecidableEq

def shouldAddPresenceOnJoin (isPresenceAlreadyTracked : Bool) : Bool := !isPresenceAlreadyTracked

def canSetJoinCommitted (link : SocketLink) (meta_ : Option SocketMeta) : Bool :=
  link == .opened && meta_.isSome

/-- Where the join of a socket waits: `detaching`, `adding` and `aborting` for a command on
the presence hash, the stages after them for its reply. -/
inductive JoinStage
  | idle
  | admitting (target : Membership) (previousMeta : Option SocketMeta)
  | detaching (target previous : Membership)
  | detached (target : Membership)
  | committing (target : Membership) (isPresenceAlreadyTracked : Bool)
  | adding (target : Membership)
  | added (target : Membership)
  | aborting (target : Membership)
  | aborted (target : Membership)
  deriving DecidableEq

def JoinStage.target? : JoinStage → Option Membership
  | .idle => none
  | .admitting target _ => some target
  | .detaching target _ => some target
  | .detached target => some target
  | .committing target _ => some target
  | .adding target => some target
  | .added target => some target
  | .aborting target => some target
  | .aborted target => some target

/-- A socket: its link, its registry entry, its join, and the reference that its close
handler has still to remove. -/
structure PresenceSocket where
  link : SocketLink := .opened
  meta_ : Option SocketMeta := none
  stage : JoinStage := .idle
  leaving : Option Membership := none

inductive RefChange
  | keep
  | add (target : Membership)
  | remove (target : Membership)

/-- What can happen to a socket. `redis` carries out the command that its join waits for,
`commit` ends identity, session and room write, `leave` is the close handler's command. -/
inductive SocketEvent
  | join (target : Membership)
  | admission (ok : Bool)
  | redis
  | reply
  | commit (ok : Bool)
  | hangUp
  | close
  | leave

def stepSocket (k : PresenceSocket) : SocketEvent → Option (PresenceSocket × RefChange)
  | .join target =>
    match k.stage with
    | .idle => some ({ k with stage := .admitting target k.meta_ },.keep)
    | _ => none
  | .admission ok =>
    match k.stage with
    | .admitting target previousMeta =>
      if ok then
        match previousMeta with
        | none => some ({ k with stage := .committing target false },.keep)
        | some previous =>
          if previous.presenceTracked && previous.membership != target then
            some ({ k with stage := .detaching target previous.membership },.keep)
          else some ({ k with stage := .committing target previous.presenceTracked },.keep)
      else some ({ k with stage := .idle },.keep)
    | _ => none
  | .redis =>
    match k.stage with
    | .detaching target previous => some ({ k with stage := .detached target },.remove previous)
    | .adding target => some ({ k with stage := .added target },.add target)
    | .aborting target => some ({ k with stage := .aborted target },.remove target)
    | _ => none
  | .reply =>
    match k.stage with
    | .detached target =>
      -- The flag that the join goes on with is the one before the clean-up.
      some ({ k with
        meta_ := setSocketPresenceTracked false k.meta_
        stage := .committing target true },.keep)
    | .added target =>
      let tracked := setSocketPresenceTracked true k.meta_
      if canSetJoinCommitted k.link tracked then
        some ({ k with meta_ := setSocketJoinCommitted true tracked, stage := .idle },.keep)
      else some ({ k with meta_ := tracked, stage := .aborting target },.keep)
    | .aborted _ => some ({ k with meta_ := none, stage := .idle },.keep)
    | _ => none
  | .commit ok =>
    match k.stage with
    | .committing target isPresenceAlreadyTracked =>
      if !ok then some ({ k with stage := .idle },.keep)
      -- An abort that added no reference only removes the socket.
      else if k.link != .opened then some ({ k with meta_ := none, stage := .idle },.keep)
      else
        let entry := some (addSocket k.meta_ target)
        if shouldAddPresenceOnJoin isPresenceAlreadyTracked then
          some ({ k with meta_ := entry, stage := .adding target },.keep)
        else some ({ k with meta_ := setSocketJoinCommitted true entry, stage := .idle },.keep)
    | _ => none
  | .hangUp => if k.link = .opened then some ({ k with link := .closing },.keep) else none
  | .close =>
    if k.link = .closed then none
    else
      some ({ k with
        link := .closed
        meta_ := none
        leaving := (k.meta_.filter (·.presenceTracked)).map (·.membership) },.keep)
  | .leave =>
    match k.leaving with
    | some target => some ({ k with leaving := none },.remove target)
    | none => none

/-- A node: its sockets, and its counts in the presence hashes. -/
structure PresenceNode (S : Type*) where
  sockets : S → PresenceSocket
  refs : Membership → ℕ

/-- `PRESENCE_BUMP_SCRIPT` for this node: a count never falls below zero. -/
def bumpWsConnectionRef (refs : Membership → ℕ) : RefChange → Membership → ℕ
  | .keep => refs
  | .add target => Function.update refs target (refs target+1)
  | .remove target => Function.update refs target (refs target-1)

section System

variable {S : Type*} [DecidableEq S]

def stepPresence (n : PresenceNode S) (s : S) (event : SocketEvent) : Option (PresenceNode S) :=
  (stepSocket (n.sockets s) event).map fun result =>
    { sockets := Function.update n.sockets s result.1
      refs := bumpWsConnectionRef n.refs result.2 }

def presenceStart : PresenceNode S where
  sockets _ := {}
  refs _ := 0

def presenceSystem : TransitionSystem (PresenceNode S) (S × SocketEvent) where
  init n := n = presenceStart
  step n label n' := stepPresence n label.1 label.2 = some n'

/-- A step that moves no reference wrongly: an admitted join of a tracked socket stays with
its room and user; a socket that is tracked is still open when its rejoin is committed; no
socket closes while its join is being aborted. -/
def keepsRefs (k : PresenceSocket) : SocketEvent → Bool
  | .admission true =>
    match k.stage with
    | .admitting target (some previous) =>
      !previous.presenceTracked || previous.membership == target
    | _ => true
  | .commit true => k.link == .opened || k.meta_.all fun entry => !entry.presenceTracked
  | .close =>
    match k.stage with
    | .aborting _ => false
    | .aborted _ => false
    | _ => true
  | _ => true

def carefulPresence : TransitionSystem (PresenceNode S) (S × SocketEvent) :=
  presenceSystem.restrict fun n label => keepsRefs (n.sockets label.1) label.2 = true

/-- No join or close that concerns a room and a user is under way. -/
def Settled (n : PresenceNode S) (target : Membership) : Prop :=
  ∀ s, (n.sockets s).leaving ≠ some target ∧
    ((n.sockets s).stage = .idle ∨
      (n.sockets s).stage.target? ≠ some target ∧
        ∀ entry, (n.sockets s).meta_ = some entry → entry.membership ≠ target)

/-- A live socket that is committed to a room and a user. -/
def PresenceSocket.CommittedTo (k : PresenceSocket) (target : Membership) : Prop :=
  ∃ entry, k.meta_ = some entry ∧ entry.joinCommitted = true ∧ entry.membership = target

end System

section Step

/-- The ways through `stepSocket`, one constructor for each. -/
inductive SocketStep (k : PresenceSocket) : SocketEvent → PresenceSocket → RefChange → Prop
  | join {target : Membership} (hstage : k.stage = .idle) :
      SocketStep k (.join target) { k with stage := .admitting target k.meta_ } .keep
  | refuse {target : Membership} {previousMeta : Option SocketMeta}
      (hstage : k.stage = .admitting target previousMeta) :
      SocketStep k (.admission false) { k with stage := .idle } .keep
  | admitFirst {target : Membership} (hstage : k.stage = .admitting target none) :
      SocketStep k (.admission true) { k with stage := .committing target false } .keep
  | admitElsewhere {target : Membership} {previous : SocketMeta}
      (hstage : k.stage = .admitting target (some previous))
      (htracked : previous.presenceTracked = true) (hmoved : previous.membership ≠ target) :
      SocketStep k (.admission true)
        { k with stage := .detaching target previous.membership } .keep
  | admitAgain {target : Membership} {previous : SocketMeta}
      (hstage : k.stage = .admitting target (some previous))
      (hstays : previous.presenceTracked = true → previous.membership = target) :
      SocketStep k (.admission true)
        { k with stage := .committing target previous.presenceTracked } .keep
  | detach {target previous : Membership} (hstage : k.stage = .detaching target previous) :
      SocketStep k .redis { k with stage := .detached target } (.remove previous)
  | add {target : Membership} (hstage : k.stage = .adding target) :
      SocketStep k .redis { k with stage := .added target } (.add target)
  | abort {target : Membership} (hstage : k.stage = .aborting target) :
      SocketStep k .redis { k with stage := .aborted target } (.remove target)
  | detached {target : Membership} (hstage : k.stage = .detached target) :
      SocketStep k .reply { k with
        meta_ := setSocketPresenceTracked false k.meta_
        stage := .committing target true } .keep
  | added {target : Membership} (hstage : k.stage = .added target)
      (hset : canSetJoinCommitted k.link (setSocketPresenceTracked true k.meta_) = true) :
      SocketStep k .reply { k with
        meta_ := setSocketJoinCommitted true (setSocketPresenceTracked true k.meta_)
        stage := .idle } .keep
  | addedLate {target : Membership} (hstage : k.stage = .added target)
      (hset : canSetJoinCommitted k.link (setSocketPresenceTracked true k.meta_) ≠ true) :
      SocketStep k .reply { k with
        meta_ := setSocketPresenceTracked true k.meta_
        stage := .aborting target } .keep
  | aborted {target : Membership} (hstage : k.stage = .aborted target) :
      SocketStep k .reply { k with meta_ := none, stage := .idle } .keep
  | fail {target : Membership} {tracked : Bool} (hstage : k.stage = .committing target tracked) :
      SocketStep k (.commit false) { k with stage := .idle } .keep
  | drop {target : Membership} {tracked : Bool} (hstage : k.stage = .committing target tracked)
      (hlink : k.link ≠ .opened) :
      SocketStep k (.commit true) { k with meta_ := none, stage := .idle } .keep
  | enter {target : Membership} (hstage : k.stage = .committing target false)
      (hlink : k.link = .opened) :
      SocketStep k (.commit true) { k with
        meta_ := some (addSocket k.meta_ target)
        stage := .adding target } .keep
  | reenter {target : Membership} (hstage : k.stage = .committing target true)
      (hlink : k.link = .opened) :
      SocketStep k (.commit true) { k with
        meta_ := setSocketJoinCommitted true (some (addSocket k.meta_ target))
        stage := .idle } .keep
  | hangUp (hlink : k.link = .opened) : SocketStep k .hangUp { k with link := .closing } .keep
  | close (hlink : k.link ≠ .closed) :
      SocketStep k .close { k with
        link := .closed
        meta_ := none
        leaving := (k.meta_.filter (·.presenceTracked)).map (·.membership) } .keep
  | leave {target : Membership} (hleaving : k.leaving = some target) :
      SocketStep k .leave { k with leaving := none } (.remove target)

variable {k k' : PresenceSocket} {event : SocketEvent} {change : RefChange}

theorem stepSocket_cases (h : stepSocket k event = some (k',change)) :
    SocketStep k event k' change := by
  cases event with
  | join target =>
    simp only [stepSocket] at h
    split at h <;> cases h
    exact .join ‹_›
  | admission ok =>
    simp only [stepSocket] at h
    split at h
    · rename_i target previousMeta hstage
      cases ok with
      | false =>
        cases h
        exact .refuse hstage
      | true =>
        cases previousMeta with
        | none =>
          cases h
          exact .admitFirst hstage
        | some previous =>
          simp only [if_true] at h
          split at h <;> cases h
          · rename_i hmoved
            rw [Bool.and_eq_true,bne_iff_ne] at hmoved
            exact .admitElsewhere hstage hmoved.1 hmoved.2
          · rename_i hstays
            exact .admitAgain hstage fun htracked => by simpa [htracked] using hstays
    · cases h
  | redis =>
    simp only [stepSocket] at h
    split at h <;> cases h
    · exact .detach ‹_›
    · exact .add ‹_›
    · exact .abort ‹_›
  | reply =>
    simp only [stepSocket] at h
    split at h
    · cases h
      exact .detached ‹_›
    · split at h <;> cases h
      · exact .added ‹_› ‹_›
      · exact .addedLate ‹_› ‹_›
    · cases h
      exact .aborted ‹_›
    · cases h
  | commit ok =>
    simp only [stepSocket] at h
    split at h
    · rename_i target tracked hstage
      cases ok with
      | false =>
        cases h
        exact .fail hstage
      | true =>
        simp only [Bool.not_true,Bool.false_eq_true,if_false,bne_iff_ne,ne_eq] at h
        split at h
        · cases h
          exact .drop hstage ‹_›
        · rename_i hlink
          cases tracked <;> cases h
          · exact .enter hstage (not_not.mp hlink)
          · exact .reenter hstage (not_not.mp hlink)
    · cases h
  | hangUp =>
    simp only [stepSocket] at h
    split at h <;> cases h
    exact .hangUp ‹_›
  | close =>
    simp only [stepSocket] at h
    split at h <;> cases h
    exact .close ‹_›
  | leave =>
    simp only [stepSocket] at h
    split at h <;> cases h
    exact .leave ‹_›

end Step

section Invariant

def SocketOk (k : PresenceSocket) : Prop :=
  (k.link = .closed → k.meta_ = none) ∧ (k.leaving ≠ none → k.link = .closed) ∧
  match k.stage with
  | .idle => ∀ entry, k.meta_ = some entry → entry.presenceTracked ∧ entry.joinCommitted
  | .admitting _ previousMeta => (k.meta_ = previousMeta ∨ k.meta_ = none ∧ k.link = .closed) ∧
      ∀ entry, previousMeta = some entry → entry.presenceTracked ∧ entry.joinCommitted
  | .detaching .. => False
  | .detached _ => False
  | .committing target true => (k.meta_ = none → k.link = .closed) ∧
      ∀ entry, k.meta_ = some entry →
        entry.presenceTracked ∧ entry.joinCommitted ∧ entry.membership = target
  | .committing _ false => k.meta_ = none
  | .adding target => ∀ entry, k.meta_ = some entry →
      entry.presenceTracked = false ∧ entry.joinCommitted = false ∧ entry.membership = target
  | .added target => ∀ entry, k.meta_ = some entry →
      entry.presenceTracked = false ∧ entry.joinCommitted = false ∧ entry.membership = target
  | .aborting _ => ∀ entry, k.meta_ = some entry → entry.joinCommitted = false
  | .aborted _ => ∀ entry, k.meta_ = some entry → entry.joinCommitted = false

def refIf (p : Prop) [Decidable p] : ℕ := if p then 1 else 0

def entryRef (meta_ : Option SocketMeta) (target : Membership) : ℕ :=
  match meta_ with
  | some entry => refIf (entry.presenceTracked ∧ entry.membership = target)
  | none => 0

/-- The references that a socket stands for: its entry's, or the one that its join has added
and not yet entered, and the one that its close handler still has to remove. -/
def heldRefs (k : PresenceSocket) (target : Membership) : ℕ :=
  refIf (k.leaving = some target) +
    match k.stage with
    | .added added => refIf (added = target)
    | .aborting added => refIf (added = target)
    | .aborted _ => 0
    | _ => entryRef k.meta_ target

def RefChange.added (change : RefChange) (target : Membership) : ℕ :=
  match change with
  | .add m => refIf (m = target)
  | _ => 0

def RefChange.removed (change : RefChange) (target : Membership) : ℕ :=
  match change with
  | .remove m => refIf (m = target)
  | _ => 0

variable {k k' : PresenceSocket} {event : SocketEvent} {change : RefChange}

theorem entryRef_untracked {meta_ : Option SocketMeta}
    (h : ∀ entry, meta_ = some entry → entry.presenceTracked = false) (target : Membership) :
    entryRef meta_ target = 0 := by
  cases meta_ with
  | none => rfl
  | some entry =>
    have hfalse := h entry rfl
    simp only [entryRef,hfalse,Bool.false_eq_true,false_and,refIf,if_false]

/-- A socket in order, whose references moved as the counts did. -/
def StepOk (k k' : PresenceSocket) (change : RefChange) : Prop :=
  SocketOk k' ∧ ∀ target, heldRefs k' target+change.removed target =
    heldRefs k target+change.added target

theorem join_spec {target : Membership} (hok : SocketOk k)
    (h : stepSocket k (.join target) = some (k',change)) : StepOk k k' change := by
  obtain ⟨hclosed,hleaving,hstage⟩ := hok
  cases stepSocket_cases h with
  | join hk =>
    simp only [hk] at hstage
    exact ⟨⟨hclosed,hleaving,Or.inl rfl,hstage⟩,fun m => by
      simp only [heldRefs,hk,RefChange.removed,RefChange.added]⟩

theorem admission_spec {ok : Bool} (hok : SocketOk k) (hcareful : keepsRefs k (.admission ok) = true)
    (h : stepSocket k (.admission ok) = some (k',change)) : StepOk k k' change := by
  obtain ⟨hclosed,hleaving,hstage⟩ := hok
  -- The entry is the one the join began with, unless the socket has closed since.
  have hcurrent : ∀ {previousMeta : Option SocketMeta},
      k.meta_ = previousMeta ∨ k.meta_ = none ∧ k.link = .closed →
      ∀ entry, k.meta_ = some entry → previousMeta = some entry := by
    rintro previousMeta (hsame | ⟨hnone,-⟩) entry he
    · exact hsame.symm.trans he
    · rw [hnone] at he
      cases he
  cases stepSocket_cases h with
  | refuse hk =>
    simp only [hk] at hstage
    obtain ⟨hsame,hentry⟩ := hstage
    exact ⟨⟨hclosed,hleaving,fun entry he => hentry entry (hcurrent hsame entry he)⟩,fun m => by
      simp only [heldRefs,hk,RefChange.removed,RefChange.added]⟩
  | admitFirst hk =>
    simp only [hk] at hstage
    exact ⟨⟨hclosed,hleaving,hstage.1.elim id And.left⟩,fun m => by
      simp only [heldRefs,hk,RefChange.removed,RefChange.added]⟩
  | admitElsewhere hk htracked hmoved =>
    simp only [keepsRefs,hk,htracked,Bool.not_true,Bool.false_or,beq_iff_eq] at hcareful
    exact absurd hcareful hmoved
  | @admitAgain target previous hk hstays =>
    simp only [hk] at hstage
    obtain ⟨hsame,hentry⟩ := hstage
    obtain ⟨htracked,hcommitted⟩ := hentry previous rfl
    rw [htracked]
    refine ⟨⟨hclosed,hleaving,fun hnone => ?_,fun entry he => ?_⟩,fun m => by
      simp only [heldRefs,hk,RefChange.removed,RefChange.added]⟩
    · rcases hsame with hsame | ⟨-,hlink⟩
      · have hnone' : k.meta_ = none := hnone
        rw [hsame] at hnone'
        cases hnone'
      · exact hlink
    · cases hcurrent hsame entry he
      exact ⟨htracked,hcommitted,hstays htracked⟩

theorem redis_spec (hok : SocketOk k) (h : stepSocket k .redis = some (k',change)) :
    StepOk k k' change := by
  obtain ⟨hclosed,hleaving,hstage⟩ := hok
  cases stepSocket_cases h with
  | detach hk => simp only [hk] at hstage
  | add hk =>
    simp only [hk] at hstage
    refine ⟨⟨hclosed,hleaving,hstage⟩,fun m => ?_⟩
    have hzero := entryRef_untracked (fun entry he => (hstage entry he).1) m
    simp only [heldRefs,hk,RefChange.removed,RefChange.added,hzero]
    omega
  | abort hk =>
    simp only [hk] at hstage
    refine ⟨⟨hclosed,hleaving,hstage⟩,fun m => ?_⟩
    simp only [heldRefs,hk,RefChange.removed,RefChange.added]
    omega

theorem reply_spec (hok : SocketOk k) (h : stepSocket k .reply = some (k',change)) :
    StepOk k k' change := by
  obtain ⟨hclosed,hleaving,hstage⟩ := hok
  cases stepSocket_cases h with
  | detached hk => simp only [hk] at hstage
  | @added target hk hset =>
    simp only [hk] at hstage
    rw [canSetJoinCommitted,Bool.and_eq_true,beq_iff_eq] at hset
    obtain ⟨hopen,hsome⟩ := hset
    cases hmeta : k.meta_ with
    | none =>
      rw [hmeta] at hsome
      cases hsome
    | some entry =>
      obtain ⟨-,-,hmember⟩ := hstage entry hmeta
      refine ⟨⟨fun hlink => ?_,hleaving,fun e he => ?_⟩,fun m => ?_⟩
      · have hlink' : k.link = .closed := hlink
        rw [hopen] at hlink'
        cases hlink'
      · cases he
        exact ⟨rfl,rfl⟩
      · have hsame : (⟨entry.roomId,entry.userId⟩ : Membership) = target := hmember
        simp only [heldRefs,hk,RefChange.removed,RefChange.added,setSocketJoinCommitted,
          setSocketPresenceTracked,Option.map_some,entryRef,SocketMeta.membership,hsame,true_and]
  | addedLate hk =>
    simp only [hk] at hstage
    refine ⟨⟨fun hlink => ?_,hleaving,fun e he => ?_⟩,fun m => ?_⟩
    · have hnone : k.meta_ = none := hclosed hlink
      simp only [hnone,setSocketPresenceTracked,Option.map_none]
    · obtain ⟨entry,hmeta,rfl⟩ := Option.map_eq_some_iff.mp he
      exact (hstage entry hmeta).2.1
    · simp only [heldRefs,hk,RefChange.removed,RefChange.added]
  | aborted hk =>
    refine ⟨⟨fun _ => rfl,hleaving,fun entry he => by cases he⟩,fun m => ?_⟩
    simp only [heldRefs,hk,RefChange.removed,RefChange.added,entryRef]

theorem commit_spec {ok : Bool} (hok : SocketOk k) (hcareful : keepsRefs k (.commit ok) = true)
    (h : stepSocket k (.commit ok) = some (k',change)) : StepOk k k' change := by
  obtain ⟨hclosed,hleaving,hstage⟩ := hok
  have hentry : ∀ {target : Membership} {tracked : Bool}, k.stage = .committing target tracked →
      ∀ entry, k.meta_ = some entry → tracked = true ∧
        entry.presenceTracked = true ∧ entry.joinCommitted = true ∧ entry.membership = target := by
    intro target tracked hk entry he
    simp only [hk] at hstage
    cases tracked with
    | false =>
      rw [hstage] at he
      cases he
    | true => exact ⟨rfl,hstage.2 entry he⟩
  have hnever : k.link = .opened → k.link ≠ .closed := fun hopen => by
    rw [hopen]
    exact SocketLink.noConfusion
  cases stepSocket_cases h with
  | fail hk =>
    exact ⟨⟨hclosed,hleaving,fun entry he =>
      ⟨(hentry hk entry he).2.1,(hentry hk entry he).2.2.1⟩⟩,
      fun m => by simp only [heldRefs,hk,RefChange.removed,RefChange.added]⟩
  | drop hk hlink =>
    -- The socket is no longer open, so it is not tracked any more.
    have hnone : k.meta_ = none := by
      cases hmeta : k.meta_ with
      | none => rfl
      | some entry =>
        have hlink' : (k.link == .opened) = false := beq_false_of_ne hlink
        simp only [keepsRefs,hlink',hmeta,(hentry hk entry hmeta).2.1,Option.all_some,
          Bool.not_true,Bool.or_self,Bool.false_eq_true] at hcareful
    refine ⟨⟨fun _ => rfl,hleaving,fun entry he => by cases he⟩,fun m => ?_⟩
    simp only [heldRefs,hk,RefChange.removed,RefChange.added,hnone]
  | enter hk hopen =>
    simp only [hk] at hstage
    refine ⟨⟨fun hc => absurd hc (hnever hopen),hleaving,fun entry he => ?_⟩,fun m => ?_⟩
    · rw [hstage] at he
      cases he
      exact ⟨rfl,rfl,rfl⟩
    · simp only [heldRefs,hk,RefChange.removed,RefChange.added,hstage,addSocket,
        Option.map_none,Option.getD_none,entryRef,Bool.false_eq_true,false_and,refIf,if_false]
  | @reenter target hk hopen =>
    cases hmeta : k.meta_ with
    | none =>
      simp only [hk] at hstage
      exact absurd (hstage.1 hmeta) (hnever hopen)
    | some entry =>
      obtain ⟨-,htracked,-,hmember⟩ := hentry hk entry hmeta
      refine ⟨⟨fun hc => absurd hc (hnever hopen),hleaving,fun e he => ?_⟩,fun m => ?_⟩
      · simp only [addSocket,setSocketJoinCommitted,Option.map_some,Option.getD_some,
          Option.some.injEq] at he
        subst he
        exact ⟨htracked,rfl⟩
      · have hsame : (entry.roomId,entry.userId) = (target.1,target.2) := hmember
        simp only [heldRefs,hk,RefChange.removed,RefChange.added,hmeta,addSocket,
          setSocketJoinCommitted,Option.map_some,Option.getD_some,entryRef,htracked,hsame,
          SocketMeta.membership]

theorem close_spec (hok : SocketOk k) (hcareful : keepsRefs k .close = true)
    (h : stepSocket k .close = some (k',change)) : StepOk k k' change := by
  obtain ⟨hclosed,hleaving,hstage⟩ := hok
  cases stepSocket_cases h with
  | close hlink =>
    have hidle : k.leaving = none := by
      by_contra hne
      exact hlink (hleaving hne)
    -- The close handler takes over the reference of the entry.
    have hmoves : ∀ m, refIf ((k.meta_.filter (·.presenceTracked)).map (·.membership) = some m) =
        entryRef k.meta_ m := by
      intro m
      cases hmeta : k.meta_ with
      | none => rfl
      | some entry =>
        cases htracked : entry.presenceTracked with
        | false => simp only [Option.filter_some,htracked,Bool.false_eq_true,if_false,
            Option.map_none,reduceCtorEq,refIf,entryRef,false_and]
        | true => simp only [Option.filter_some,htracked,if_true,Option.map_some,
            Option.some.injEq,entryRef,true_and]
    have hnoEntry : ∀ m, entryRef none m = 0 := fun _ => rfl
    have hnoLeave : ∀ m : Membership, refIf (k.leaving = some m) = 0 := by
      intro m
      simp only [hidle,reduceCtorEq,refIf,if_false]
    refine ⟨⟨fun _ => rfl,fun _ => rfl,?_⟩,fun m => ?_⟩
    · cases hk : k.stage with
      | committing target tracked =>
        cases tracked with
        | false => rfl
        | true => exact ⟨fun _ => rfl,fun entry he => by cases he⟩
      | admitting target previousMeta =>
        simp only [hk] at hstage
        exact ⟨Or.inr ⟨rfl,rfl⟩,hstage.2⟩
      | detaching | detached => simp only [hk] at hstage
      | _ => exact fun entry he => by cases he
    · simp only [heldRefs,RefChange.removed,RefChange.added,hmoves,hnoLeave]
      cases hk : k.stage with
      | added target =>
        simp only [hk] at hstage
        rw [entryRef_untracked (fun entry he => (hstage entry he).1) m]
      | aborting => simp only [keepsRefs,hk,Bool.false_eq_true] at hcareful
      | aborted => simp only [keepsRefs,hk,Bool.false_eq_true] at hcareful
      | _ =>
        simp only [hnoEntry]
        omega

/-- A careful step keeps a socket in order, and moves its references as it moves the
counts. -/
theorem stepSocket_spec (hok : SocketOk k) (hcareful : keepsRefs k event = true)
    (h : stepSocket k event = some (k',change)) : StepOk k k' change := by
  cases event with
  | join target => exact join_spec hok h
  | admission ok => exact admission_spec hok hcareful h
  | redis => exact redis_spec hok h
  | reply => exact reply_spec hok h
  | commit ok => exact commit_spec hok hcareful h
  | hangUp =>
    obtain ⟨hclosed,hleaving,hstage⟩ := hok
    cases stepSocket_cases h with
    | hangUp hopen =>
      have hnever : k.link ≠ .closed := by
        rw [hopen]
        exact SocketLink.noConfusion
      refine ⟨⟨fun hlink => (by cases hlink),fun hleave => absurd (hleaving hleave) hnever,?_⟩,
        fun m => rfl⟩
      cases hk : k.stage with
      | admitting target previousMeta =>
        simp only [hk] at hstage
        exact ⟨Or.inl (hstage.1.resolve_right fun hgone => hnever hgone.2),hstage.2⟩
      | committing target tracked =>
        simp only [hk] at hstage
        cases tracked with
        | false => exact hstage
        | true => exact ⟨fun hnone => absurd (hstage.1 hnone) hnever,hstage.2⟩
      | detaching | detached => simp only [hk] at hstage
      | _ =>
        simp only [hk] at hstage
        exact hstage
  | close => exact close_spec hok hcareful h
  | leave =>
    obtain ⟨hclosed,hleaving,hstage⟩ := hok
    cases stepSocket_cases h with
    | leave hk =>
      refine ⟨⟨hclosed,fun hleave => absurd rfl hleave,hstage⟩,fun m => ?_⟩
      simp only [heldRefs,hk,RefChange.removed,RefChange.added,Option.some.injEq,reduceCtorEq,
        refIf,if_false]
      omega

end Invariant

section Run

variable {S : Type*} [DecidableEq S] {n n' : PresenceNode S}

/-- Every socket is in order, and the counts are the sums of the references. -/
structure PresenceInv (n : PresenceNode S) : Prop where
  socketOk : ∀ s, SocketOk (n.sockets s)
  balanced : Balanced n.refs fun s => heldRefs (n.sockets s)

omit [DecidableEq S] in
theorem presenceInv_start : PresenceInv (presenceStart : PresenceNode S) where
  socketOk _ := ⟨fun _ => rfl,fun h => absurd rfl h,fun _ he => by cases he⟩
  balanced := balanced_zero (fun _ _ => rfl) fun _ => rfl

theorem bumpWsConnectionRef_added (refs : Membership → ℕ) (change : RefChange) (m : Membership)
    (h : change.removed m ≤ refs m) :
    bumpWsConnectionRef refs change m+change.removed m = refs m+change.added m := by
  cases change with
  | keep => rfl
  | add target =>
    by_cases hm : target = m
    · subst hm
      simp only [bumpWsConnectionRef,Function.update_self,RefChange.removed,RefChange.added,refIf,
        if_true,Nat.add_zero]
    · simp only [bumpWsConnectionRef,Function.update_of_ne (Ne.symm hm),RefChange.removed,
        RefChange.added,refIf,hm,if_false]
  | remove target =>
    by_cases hm : target = m
    · subst hm
      simp only [RefChange.removed,refIf,if_true] at h
      simp only [bumpWsConnectionRef,Function.update_self,RefChange.removed,RefChange.added,refIf,
        if_true]
      omega
    · simp only [bumpWsConnectionRef,Function.update_of_ne (Ne.symm hm),RefChange.removed,
        RefChange.added,refIf,hm,if_false]

theorem PresenceInv.step (h : PresenceInv n) {s : S} {event : SocketEvent}
    (hcareful : keepsRefs (n.sockets s) event = true) (hstep : stepPresence n s event = some n') :
    PresenceInv n' := by
  obtain ⟨⟨k',change⟩,hsocket,rfl⟩ := Option.map_eq_some_iff.mp hstep
  obtain ⟨hok,hmoves⟩ := stepSocket_spec (h.socketOk s) hcareful hsocket
  refine ⟨fun t => ?_,h.balanced.update s (fun t ht m => ?_) fun m => ?_⟩
  · by_cases ht : t = s
    · subst ht
      simp only [Function.update_self]
      exact hok
    · simp only [Function.update_of_ne ht]
      exact h.socketOk t
  · simp only [Function.update_of_ne ht]
  · have hmove := hmoves m
    have hheld := h.balanced.le_count s m
    simp only [Function.update_self]
    have hremoved : change.removed m ≤ n.refs m := by
      cases change with
      | remove target =>
        have hadded : (RefChange.remove target).added m = 0 := rfl
        omega
      | _ => exact Nat.zero_le _
    have hbump := bumpWsConnectionRef_added n.refs change m hremoved
    omega

theorem presenceInv_of_careful (h : (carefulPresence (S := S)).Reachable n) : PresenceInv n := by
  apply h.invariant PresenceInv
  · rintro n rfl
    exact presenceInv_start
  · rintro n ⟨s,event⟩ n' - hi ⟨hcareful,hstep⟩
    exact hi.step hcareful hstep

theorem SocketOk.tracked {k : PresenceSocket} (h : SocketOk k) {entry : SocketMeta}
    (he : k.meta_ = some entry) (hcommitted : entry.joinCommitted = true) :
    entry.presenceTracked = true := by
  obtain ⟨-,-,hstage⟩ := h
  have hnot : entry.joinCommitted ≠ false := by
    rw [hcommitted]
    exact Bool.noConfusion
  cases hk : k.stage with
  | idle =>
    simp only [hk] at hstage
    exact (hstage entry he).1
  | admitting target previousMeta =>
    simp only [hk] at hstage
    rcases hstage.1 with hsame | ⟨hnone,-⟩
    · exact (hstage.2 entry (hsame.symm.trans he)).1
    · rw [hnone] at he
      cases he
  | detaching | detached => simp only [hk] at hstage
  | committing target tracked =>
    simp only [hk] at hstage
    cases tracked with
    | false =>
      rw [hstage] at he
      cases he
    | true => exact (hstage.2 entry he).1
  | adding | added =>
    simp only [hk] at hstage
    exact absurd (hstage entry he).2.1 hnot
  | aborting | aborted =>
    simp only [hk] at hstage
    exact absurd (hstage entry he) hnot

/-- Where nothing that concerns a room and a user is under way, a socket stands for the
reference of its entry. -/
theorem heldRefs_settled {k : PresenceSocket} {target : Membership}
    (hleaving : k.leaving ≠ some target)
    (hstage : k.stage = .idle ∨ k.stage.target? ≠ some target ∧
      ∀ entry, k.meta_ = some entry → entry.membership ≠ target) :
    heldRefs k target = entryRef k.meta_ target := by
  have hnoLeave : refIf (k.leaving = some target) = 0 := if_neg hleaving
  rcases hstage with hidle | ⟨hother,hentry⟩
  · simp only [heldRefs,hidle,hnoLeave,Nat.zero_add]
  · have hzero : entryRef k.meta_ target = 0 := by
      cases hmeta : k.meta_ with
      | none => rfl
      | some entry => exact if_neg fun hboth => hentry entry hmeta hboth.2
    have hadded : ∀ added, k.stage.target? = some added → refIf (added = target) = 0 := by
      intro added hadd
      refine if_neg fun heq => hother ?_
      rw [hadd,heq]
    cases hk : k.stage with
    | added added =>
      simp only [heldRefs,hk,hnoLeave,hzero,hadded added (by rw [hk]; rfl)]
    | aborting added =>
      simp only [heldRefs,hk,hnoLeave,hzero,hadded added (by rw [hk]; rfl)]
    | _ => simp only [heldRefs,hk,hnoLeave,hzero]

/-- In every careful run each committed socket is tracked, and where nothing that concerns
a room and a user is under way, this node's count of the user is the number of live sockets
committed to that room and user. -/
theorem presence_accounting {S : Type*} [DecidableEq S] {n : PresenceNode S}
    (h : (carefulPresence (S := S)).Reachable n) :
    (∀ s entry, (n.sockets s).meta_ = some entry → entry.joinCommitted = true →
      entry.presenceTracked = true) ∧
    ∀ target, Settled n target →
      n.refs target = Set.ncard {s | (n.sockets s).CommittedTo target} := by
  have hinv := presenceInv_of_careful h
  refine ⟨fun s entry he hc => (hinv.socketOk s).tracked he hc,fun target hsettled => ?_⟩
  have hheld : ∀ s, heldRefs (n.sockets s) target = entryRef (n.sockets s).meta_ target :=
    fun s => heldRefs_settled (hsettled s).1 (hsettled s).2
  apply hinv.balanced.count_eq_ncard
  · rintro s ⟨entry,he,hcommitted,hmember⟩
    rw [hheld,he]
    exact if_pos ⟨(hinv.socketOk s).tracked he hcommitted,hmember⟩
  · intro s hnot
    rw [hheld]
    cases he : (n.sockets s).meta_ with
    | none => rfl
    | some entry =>
      refine if_neg fun ⟨htracked,hmember⟩ => hnot ⟨entry,he,?_,hmember⟩
      rcases (hsettled s).2 with hidle | ⟨-,hother⟩
      · have hstage := (hinv.socketOk s).2.2
        simp only [hidle] at hstage
        exact (hstage entry he).2
      · exact absurd hmember (hother entry he)

end Run

section Scenario

variable {S : Type*} [DecidableEq S]

/-- Carry out steps one after another; `none` when one cannot happen or fails the test. -/
def runPresence (test : PresenceSocket → SocketEvent → Bool) :
    List (S × SocketEvent) → PresenceNode S → Option (PresenceNode S)
  | [],n => some n
  | (s,event)::steps,n =>
    if test (n.sockets s) event then (stepPresence n s event).bind (runPresence test steps) else none

theorem reachable_of_runPresence {test : PresenceSocket → SocketEvent → Bool}
    (steps : List (S × SocketEvent)) {n n' : PresenceNode S}
    (hr : (presenceSystem.restrict fun (n : PresenceNode S) label =>
      test (n.sockets label.1) label.2 = true).Reachable n)
    (h : runPresence test steps n = some n') :
    (presenceSystem.restrict fun (n : PresenceNode S) label =>
      test (n.sockets label.1) label.2 = true).Reachable n' := by
  induction steps generalizing n with
  | nil =>
    cases h
    exact hr
  | cons step steps ih =>
    obtain ⟨s,event⟩ := step
    unfold runPresence at h
    split at h
    · rename_i htest
      obtain ⟨mid,hmid,hrest⟩ := Option.bind_eq_some_iff.mp h
      exact ih (.step (a := (s,event)) hr ⟨htest,hmid⟩) hrest
    · cases h

def joinSteps (target : Membership) : List SocketEvent :=
  [.join target,.admission true,.commit true,.redis,.reply]

theorem presence_accounting_of_two_tabs : ∃ n : PresenceNode Bool, carefulPresence.Reachable n ∧
    n.refs ("room","ann") = 2 ∧
    Set.ncard {s | (n.sockets s).CommittedTo ("room","ann")} = 2 := by
  -- Two tabs join, the first of them twice.
  let steps : List (Bool × SocketEvent) :=
    (joinSteps ("room","ann")).map (true,·) ++ (joinSteps ("room","ann")).map (false,·) ++
      [(true,.join ("room","ann")),(true,.admission true),(true,.commit true)]
  have hrun : ((runPresence keepsRefs steps presenceStart).any fun n =>
      n.refs ("room","ann") == 2 &&
        [true,false].all fun s =>
          (n.sockets s).leaving == none && (n.sockets s).stage == .idle) = true := by
    decide +kernel
  obtain ⟨n,hn,hfacts⟩ := (Option.any_eq_true _ _).mp hrun
  simp only [Bool.and_eq_true,beq_iff_eq,List.all_cons,List.all_nil,Bool.and_true] at hfacts
  obtain ⟨hrefs,⟨hleft,hidle⟩,hleft',hidle'⟩ := hfacts
  have hr : carefulPresence.Reachable n := reachable_of_runPresence steps (.init rfl) hn
  have hsettled : Settled n ("room","ann") := by
    intro s
    cases s with
    | true => exact ⟨by rw [hleft]; exact Option.some_ne_none _ |>.symm,Or.inl hidle⟩
    | false => exact ⟨by rw [hleft']; exact Option.some_ne_none _ |>.symm,Or.inl hidle'⟩
  exact ⟨n,hr,hrefs,((presence_accounting hr).2 _ hsettled).symm.trans hrefs⟩

/-- A socket that switches to another room is committed there without a reference. -/
theorem switched_socket_untracked : ¬∀ n : PresenceNode Unit, presenceSystem.Reachable n →
    (∀ s, (n.sockets s).stage = .idle ∧ (n.sockets s).leaving = none) →
    (∀ s entry, (n.sockets s).meta_ = some entry → entry.joinCommitted = true →
      entry.presenceTracked = true) ∧
    ∀ target, n.refs target = Set.ncard {s | (n.sockets s).CommittedTo target} := by
  intro h
  let steps : List (Unit × SocketEvent) :=
    (joinSteps ("room","ann") ++
      [SocketEvent.join ("den","ann"),.admission true,.redis,.reply,.commit true]).map ((),·)
  have hrun : ((runPresence (fun _ _ => true) steps presenceStart).any fun n =>
      (n.sockets ()).stage == .idle && (n.sockets ()).leaving == none &&
        (n.sockets ()).meta_ == some ⟨"den","ann",false,true⟩) = true := by
    decide +kernel
  obtain ⟨n,hn,hfacts⟩ := (Option.any_eq_true _ _).mp hrun
  simp only [Bool.and_eq_true,beq_iff_eq] at hfacts
  obtain ⟨⟨hidle,hleft⟩,hentry⟩ := hfacts
  have hr := reachable_of_runPresence steps (.init rfl) hn
  have htracked := (h n (.of_restrict hr) fun _ => ⟨hidle,hleft⟩).1 () _ hentry rfl
  cases htracked

end Scenario

end WebSyncPlay
