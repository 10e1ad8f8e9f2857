import WebSyncPlay.Cluster
import WebSyncPlay.Authorization

/-! The eviction after a change of the password (`handlers/room-security.ts`,
`broadcast/bus-fanout.ts`) against joins under way: when every socket that stays was let in by
the settings that the room has now. -/
namespace WebSyncPlay

open Library TransitionSystem

section Versions

variable {env : Env} {state next : RoomState}

@[simp] theorem normalizeRoomSecurity_admissionVersion (current : RoomSecurityState) :
    (normalizeRoomSecurity current).admissionVersion = current.admissionVersion := by
  unfold normalizeRoomSecurity
  split <;> rfl

theorem defaultRoleSet_version {ctx : RoomMessageContext} {inp : MessageInputs}
    {role : DefaultJoinRole}
    (hc : processRoomMessage env ctx inp (.roomDefaultRoleSet role) state = some next) :
    next.roomSecurity.admissionVersion = state.roomSecurity.admissionVersion := by
  obtain ⟨participant,mutated,-,hb,rfl⟩ := mutateRoomMessage_eq_some hc
  obtain ⟨-,hb⟩ := mutateOwnerRoomMessage_body hb
  obtain ⟨result,hr,rfl⟩ := Option.map_eq_some_iff.mp hb
  have hfinished : (finishRoomMessage env ctx.userId inp.newOwnerId inp.now .snapshot
      (logRoomAction env ctx inp.now participant "room:default-role:set" none
        result)).roomSecurity = normalizeRoomSecurity result.roomSecurity :=
    applyRoomStateRepair_roomSecurity env inp.now inp.newOwnerId _
  simp only [setDefaultJoinRole] at hr
  split at hr
  · cases hr
  · cases hr
    change (finishRoomMessage env ctx.userId inp.newOwnerId inp.now .snapshot
      (logRoomAction env ctx inp.now participant "room:default-role:set" none
        _)).roomSecurity.admissionVersion = _
    rw [hfinished]
    simp

theorem MessageEffect.roomSecurity_eq {ctx : RoomMessageContext} {inp : MessageInputs}
    {participant : ParticipantState} {msg : RoomMessage}
    (he : MessageEffect env ctx inp state participant msg next)
    (hmsg : ¬((∃ password, msg = .roomPasswordSet password) ∨ msg = .roomPasswordClear ∨
      ∃ role, msg = .roomDefaultRoleSet role)) : next.roomSecurity = state.roomSecurity := by
  cases he with
  | security _ _ _ _ h => exact absurd h hmsg
  | select _ _ _ _ hs =>
    obtain ⟨-,rfl⟩ := applyPlaylistSelect_eq_some hs
    rfl
  | itemError _ _ _ _ _ _ he => exact (applyPlaylistItemError_roster he).roomSecurity
  | reorder _ _ _ _ _ hr =>
    obtain ⟨entry,-,-,rfl⟩ := applyPlaylistReorder_eq_some hr
    rfl
  | rename _ _ _ _ _ hr =>
    rw [applyPlaylistRename_eq_some hr]
    rfl
  | remove _ _ _ _ hr => exact (applyPlaylistRemove_roster hr).2.2
  | itemDuration _ _ _ hd =>
    rw [(applyPlaylistItemDuration_eq_some hd).2]
    rfl
  | itemTitle _ _ _ ht =>
    rw [(applyPlaylistItemTitle_eq_some ht).2]
    rfl
  | abrPublish _ _ _ _ _ _ _ ha =>
    obtain ⟨-,rfl⟩ := publishAbr_eq_some ha
    rfl
  | _ => rfl

theorem message_version {ctx : RoomMessageContext} {inp : MessageInputs} {msg : RoomMessage}
    {roomId : String} (hc : processRoomMessage env ctx inp msg state = some next)
    (hquiet : admissionChanged? roomId next (.message ctx inp msg) = none) :
    next.roomSecurity.admissionVersion = state.roomSecurity.admissionVersion := by
  by_cases hmsg : (∃ password, msg = .roomPasswordSet password) ∨ msg = .roomPasswordClear ∨
      ∃ role, msg = .roomDefaultRoleSet role
  · rcases hmsg with ⟨password,rfl⟩ | rfl | ⟨role,rfl⟩
    · cases hquiet
    · cases hquiet
    · exact defaultRoleSet_version hc
  · rcases processRoomMessage_cases hc with ⟨itemId,-,hr⟩ | ⟨p,mutated,hint,hp,he,rfl⟩
    · rw [(reresolveRemotePlaylistItem_eq_some hr).2]
      rfl
    · have hkept : mutated.roomSecurity = state.roomSecurity := he.roomSecurity_eq hmsg
      have hfinished : (finishRoomMessage env ctx.userId inp.newOwnerId inp.now hint
          mutated).roomSecurity = normalizeRoomSecurity mutated.roomSecurity :=
        applyRoomStateRepair_roomSecurity env inp.now inp.newOwnerId mutated
      rw [hfinished,normalizeRoomSecurity_admissionVersion,hkept]

theorem commit_version {op : RoomOp} {roomId : String} (hop : op.isJoin = false)
    (hc : op.commit env (some state) = some next)
    (hquiet : admissionChanged? roomId next op = none) :
    next.roomSecurity.admissionVersion = state.roomSecurity.admissionVersion := by
  cases op with
  | message ctx inp msg => exact message_version hc hquiet
  | join input => cases hop
  | disconnect roomId userId activeUsers now =>
    rw [(handleSocketDisconnect_eq_some hc).2]
    exact congrArg _ (applyUserWentOffline_roomSecurity env state roomId userId now)
  | abortJoin roomId userId now =>
    rw [abortJoinAfterCommit_eq_some hc]
    exact congrArg _ (applyUserWentOffline_roomSecurity env state roomId userId now)
  | cleanup activeConnections newOwnerId now =>
    have hswept : (transferOwnershipIfNeeded env now
        (sweepBase env activeConnections newOwnerId now state) .cleanup).1.roomSecurity =
          normalizeRoomSecurity state.roomSecurity :=
      transferOwnershipIfNeeded_roomSecurity env now _ .cleanup
    have hversion := congrArg RoomSecurityState.admissionVersion hswept
    rw [normalizeRoomSecurity_admissionVersion] at hversion
    rw [cleanupInactiveRoom_eq_some hc]
    exact hversion
  | prune userId now =>
    rw [(removeDisconnectedParticipant_eq_some hc).2]
    exact congrArg _ (transferOwnershipIfNeeded_roomSecurity env now
      { state with participants := state.participants.erase userId } .prune)
  | pruneFallback now =>
    rw [pruneByDisconnectedAtFallback_eq_some hc]
    exact congrArg _ (transferOwnershipIfNeeded_roomSecurity env now
      (pruneOfflineParticipants state now) .prune)
  | reresolve itemId now =>
    rw [(reresolveRemotePlaylistItem_eq_some hc).2]
    rfl
  | settleResolve itemId outcome retryUntilPresent now =>
    rcases commitResolvingItem_eq_some hc with rfl | ⟨-,rfl⟩ <;> rfl

/-- A join that finds the owner in the roster that it repairs, or is the owner's. -/
def findsOwner (env : Env) (input : JoinInput) (state : RoomState) : Bool :=
  input.userId == state.ownerId ||
    ((joinBase env input (some state)).participants.get? state.ownerId).isSome

theorem join_version {input : JoinInput} {existing : Option RoomState}
    (hc : commitJoinMembership env input existing = some next) :
    next.roomSecurity.admissionVersion =
      (existing.getD (createInitialRoomState env input)).roomSecurity.admissionVersion := by
  obtain ⟨log,generation,structuralRevision,rfl⟩ := commitJoinMembership_eq_some hc
  have hentered : (enterParticipant env input (joinBase env input existing)).1.roomSecurity =
      normalizeRoomSecurity (joinBase env input existing).roomSecurity :=
    transferOwnershipIfNeeded_roomSecurity env input.now _ .join
  have hbase : (joinBase env input existing).roomSecurity = normalizeRoomSecurity
      (existing.getD (createInitialRoomState env input)).roomSecurity :=
    applyRoomStateRepair_roomSecurity env input.now input.newOwnerId _
  rw [hbase,normalizeRoomSecurity_idem] at hentered
  have hversion := congrArg RoomSecurityState.admissionVersion hentered
  rw [normalizeRoomSecurity_admissionVersion] at hversion
  exact hversion

theorem join_ownerId {input : JoinInput} (hroster : RosterInv state)
    (hfinds : findsOwner env input state = true)
    (hc : commitJoinMembership env input (some state) = some next) :
    next.ownerId = state.ownerId := by
  obtain ⟨log,generation,structuralRevision,rfl⟩ := commitJoinMembership_eq_some hc
  have howner : (joinBase env input (some state)).ownerId = state.ownerId :=
    if_neg hroster.ownerId_ne
  have hseated : ((seatJoiner input (joinBase env input (some state))).participants.get?
      (joinBase env input (some state)).ownerId).isSome = true := by
    rw [howner,seatJoiner,Record.get?_set]
    simp only [findsOwner,Bool.or_eq_true,beq_iff_eq] at hfinds
    split
    · rfl
    · rename_i hne
      exact hfinds.resolve_left fun he => hne he.symm
  have hkeeps : transferOwnershipIfNeeded env input.now
      (seatJoiner input (joinBase env input (some state))) .join =
        (seatJoiner input (joinBase env input (some state)),false) := by
    unfold transferOwnershipIfNeeded
    exact if_pos hseated
  have hentered : (enterParticipant env input (joinBase env input (some state))).1.ownerId =
      (joinBase env input (some state)).ownerId := by
    rw [enterParticipant,hkeeps]
    rfl
  exact hentered.trans howner

end Versions

section System

variable {N S W : Type*} [DecidableEq N] [DecidableEq S] [DecidableEq W]

/-- A socket whose join was written under other settings than the room has now, while the
registry does not file it under the room yet. -/
def missedBy (c : Cluster N S W) (e : AdmissionChanged) (k : ClusterSocket) : Bool :=
  k.base.link == .opened && k.phase == .written && k.joining?.any fun target =>
    target.1 == e.roomId && target.2 != e.ownerId && (c.rooms.get? target.1).any fun state =>
      state.roomSecurity.admissionVersion != k.admittedVersion

/-- Somebody is in the room or past its room write. -/
def standsIn (roomId : String) (k : ClusterSocket) : Bool :=
  k.base.meta_.any (fun entry => entry.roomId == roomId) ||
    k.phase == .written && k.joining?.any fun target => target.1 == roomId

/-- The last eviction of a room on a node misses nobody. Besides, the owner stays the owner,
and a room is deleted when nobody stands in it and nobody is still to be evicted. -/
def keepsAdmission (env : Env) (home : S → N) (c : Cluster N S W) : ClusterEvent N S W → Prop
  | .evict n k => ∀ e ∈ (c.evictions n)[k]?,
      (((c.evictions n).eraseIdx k).any fun later => later.roomId == e.roomId) = true ∨
        ∀ s, home s = n → missedBy c e (c.sockets s) = false
  | .write s input => ((c.sockets s).joining?.all fun target =>
      (c.rooms.get? target.1).all (findsOwner env input)) = true
  | .op roomId op => ((c.rooms.get? roomId).all fun state =>
      (op.commit env (some state)).all fun next => next.ownerId == state.ownerId) = true
  | .destroy d _ =>
    match c.destroyers d with
    | .deleting roomId => (∀ s, standsIn roomId (c.sockets s) = false) ∧
        ∀ n, ((c.evictions n).any fun e => e.roomId == roomId) = false
    | _ => True
  | _ => True

def carefulAdmission (env : Env) (sha256 : String → String) (home : S → N) :
    TransitionSystem (Cluster N S W) (ClusterEvent N S W) :=
  (clusterSystem env sha256 home).restrict (keepsAdmission env home)

end System

section Registry

theorem setSocketPresenceTracked_membership (presenceTracked : Bool) (meta_ : Option SocketMeta) :
    (setSocketPresenceTracked presenceTracked meta_).map (·.membership) =
      meta_.map (·.membership) := by
  cases meta_ <;> rfl

theorem setSocketJoinCommitted_membership (joinCommitted : Bool) (meta_ : Option SocketMeta) :
    (setSocketJoinCommitted joinCommitted meta_).map (·.membership) =
      meta_.map (·.membership) := by
  cases meta_ <;> rfl

/-- What a step does to the registry entry of an open socket: it stays, up to its flags, or is
the one of a join that is registered. -/
theorem stepSocket_meta {k k' : PresenceSocket} {event : SocketEvent} {change : RefChange}
    (h : stepSocket k event = some (k',change)) (hopen : k'.link = .opened)
    (hcommit : event ≠ .commit false) :
    k.link = .opened ∧ ∀ entry', k'.meta_ = some entry' →
      event ≠ .commit true ∧ (k.meta_.map (·.membership)) = some entry'.membership ∨
      event = .commit true ∧ ∃ tracked, k.stage = .committing entry'.membership tracked := by
  cases stepSocket_cases h with
  | hangUp | close => cases hopen
  | join | refuse | admitFirst | admitElsewhere | admitAgain | detach | add | abort | leave =>
    exact ⟨hopen,fun entry' he => Or.inl ⟨by simp,congrArg (Option.map SocketMeta.membership) he⟩⟩
  | detached =>
    refine ⟨hopen,fun entry' he => Or.inl ⟨by simp,?_⟩⟩
    rw [← setSocketPresenceTracked_membership false]
    exact congrArg (Option.map SocketMeta.membership) he
  | added =>
    refine ⟨hopen,fun entry' he => Or.inl ⟨by simp,?_⟩⟩
    rw [← setSocketPresenceTracked_membership true,← setSocketJoinCommitted_membership true]
    exact congrArg (Option.map SocketMeta.membership) he
  | addedLate =>
    refine ⟨hopen,fun entry' he => Or.inl ⟨by simp,?_⟩⟩
    rw [← setSocketPresenceTracked_membership true]
    exact congrArg (Option.map SocketMeta.membership) he
  | aborted | drop => exact ⟨hopen,fun entry' he => by cases he⟩
  | fail => exact absurd rfl hcommit
  | enter hstage =>
    refine ⟨hopen,fun entry' he => Or.inr ⟨rfl,false,?_⟩⟩
    cases he
    exact hstage
  | reenter hstage =>
    refine ⟨hopen,fun entry' he => Or.inr ⟨rfl,true,?_⟩⟩
    cases he
    exact hstage

variable {k k' : ClusterSocket}

/-- What the registry does to a socket keeps whom it is registered for, unless the socket's
join is registered. -/
theorem plain_meta {event : SocketEvent} {change : RefChange}
    (h : stepClusterSocket k event = some (k',change)) (hplain : isPlainEvent k event = true)
    (hopen : k'.base.link = .opened) :
    k.base.link = .opened ∧ ∀ entry', k'.base.meta_ = some entry' →
      (k.base.meta_.map (·.membership) = some entry'.membership ∧
        k'.registeredVersion = k.registeredVersion) ∨
      k.joining? = some entry'.membership ∧ k.phase = .written ∧
        k'.registeredVersion = k.admittedVersion := by
  obtain ⟨⟨base,moved⟩,hstep,he⟩ := Option.map_eq_some_iff.mp h
  have hbase : k'.base = base := by
    cases he
    rfl
  have hversion : (event = .commit true → k'.registeredVersion = k.admittedVersion) ∧
      (event ≠ .commit true → k'.registeredVersion = k.registeredVersion) := by
    cases he
    constructor
    · rintro rfl
      rfl
    · intro hne
      dsimp only
      split
      · exact absurd rfl hne
      · rfl
  have hcommit : event ≠ .commit false := by
    rintro rfl
    cases hplain
  rw [hbase] at hopen ⊢
  obtain ⟨hlink,hentry⟩ := stepSocket_meta hstep hopen hcommit
  refine ⟨hlink,fun entry' he' => ?_⟩
  rcases hentry entry' he' with ⟨hne,hkept⟩ | ⟨rfl,hstage⟩
  · exact Or.inl ⟨hkept,hversion.2 hne⟩
  · have hwritten : k.phase = .written := by simpa [isPlainEvent] using hplain
    exact Or.inr ⟨ClusterSocket.joining?_eq_some.mpr hstage,hwritten,hversion.1 rfl⟩

end Registry

section Invariant

variable {N S W : Type*} [DecidableEq N] [DecidableEq S] [DecidableEq W]
variable {env : Env} {sha256 : String → String} {home : S → N} {c c' : Cluster N S W}

/-- The settings that let a socket in are the room's, or it is the owner's, or it is still to
be evicted. -/
def Admitted (home : S → N) (c : Cluster N S W) (s : S) (target : Membership) (version : ℕ) :
    Prop :=
  ∃ state, c.rooms.get? target.1 = some state ∧
    (version = state.roomSecurity.admissionVersion ∨ target.2 = state.ownerId ∨
      ∃ e ∈ c.evictions (home s), e.roomId = target.1)

structure AdmissionInv (home : S → N) (c : Cluster N S W) : Prop where
  phaseOk : ∀ s, PhaseOk (c.sockets s)
  roster : ∀ roomId state, c.rooms.get? roomId = some state → RosterInv state
  announced : ∀ n, ∀ e ∈ c.evictions n,
    ∃ state, c.rooms.get? e.roomId = some state ∧ e.ownerId = state.ownerId
  written : ∀ s target, (c.sockets s).base.link = .opened →
    (c.sockets s).joining? = some target → (c.sockets s).phase = .written →
    Admitted home c s target (c.sockets s).admittedVersion
  registered : ∀ s target, (c.sockets s).base.link = .opened →
    (c.sockets s).base.meta_.map (·.membership) = some target →
    Admitted home c s target (c.sockets s).registeredVersion

omit [DecidableEq N] [DecidableEq W] in
theorem AdmissionInv.of_socket (h : AdmissionInv home c) {s : S} {k' : ClusterSocket}
    (hsockets : c'.sockets = Function.update c.sockets s k') (hrooms : c'.rooms = c.rooms)
    (hevictions : c'.evictions = c.evictions) (hphase : PhaseOk k')
    (hwritten : ∀ target, k'.base.link = .opened → k'.joining? = some target →
      k'.phase = .written → Admitted home c s target k'.admittedVersion)
    (hregistered : ∀ target, k'.base.link = .opened →
      k'.base.meta_.map (·.membership) = some target →
      Admitted home c s target k'.registeredVersion) : AdmissionInv home c' := by
  have hadmitted : ∀ t target version, Admitted home c t target version →
      Admitted home c' t target version := by
    intro t target version hadmitted
    rw [Admitted,hrooms,hevictions]
    exact hadmitted
  constructor
  · intro t
    by_cases ht : t = s
    · subst ht
      rw [hsockets,Function.update_self]
      exact hphase
    · rw [hsockets,Function.update_of_ne ht]
      exact h.phaseOk t
  · rw [hrooms]
    exact h.roster
  · rw [hrooms,hevictions]
    exact h.announced
  · intro t target
    by_cases ht : t = s
    · subst ht
      rw [hsockets,Function.update_self]
      exact fun hl hj hw => hadmitted _ _ _ (hwritten target hl hj hw)
    · rw [hsockets,Function.update_of_ne ht]
      exact fun hl hj hw => hadmitted _ _ _ (h.written t target hl hj hw)
  · intro t target
    by_cases ht : t = s
    · subst ht
      rw [hsockets,Function.update_self]
      exact fun hl hm => hadmitted _ _ _ (hregistered target hl hm)
    · rw [hsockets,Function.update_of_ne ht]
      exact fun hl hm => hadmitted _ _ _ (h.registered t target hl hm)

omit [DecidableEq N] [DecidableEq W] in
theorem AdmissionInv.of_phase (h : AdmissionInv home c) {s : S} {k' : ClusterSocket}
    (hsockets : c'.sockets = Function.update c.sockets s k') (hrooms : c'.rooms = c.rooms)
    (hevictions : c'.evictions = c.evictions) (hphase : PhaseOk k')
    (hlink : k'.base.link = (c.sockets s).base.link)
    (hmeta : k'.base.meta_ = (c.sockets s).base.meta_)
    (hversion : k'.registeredVersion = (c.sockets s).registeredVersion)
    (hunwritten : k'.joining? = none ∨ k'.phase ≠ .written) : AdmissionInv home c' := by
  refine h.of_socket hsockets hrooms hevictions hphase (fun target _ hj hw => ?_)
    fun target hl hm => ?_
  · rcases hunwritten with hnone | hne
    · rw [hnone] at hj
      cases hj
    · exact absurd hw hne
  · rw [hversion]
    exact h.registered s target (hlink ▸ hl) (hmeta ▸ hm)

omit [DecidableEq N] [DecidableEq S] [DecidableEq W] in
theorem AdmissionInv.of_store (h : AdmissionInv home c) {roomId : String} {next : RoomState}
    (hsockets : c'.sockets = c.sockets) (hrooms : c'.rooms = c.rooms.set roomId next)
    (hroster : RosterInv next)
    (hkept : ∀ state, c.rooms.get? roomId = some state → next.ownerId = state.ownerId ∧
      (next.roomSecurity.admissionVersion = state.roomSecurity.admissionVersion ∨
        ∀ n, ∃ e ∈ c'.evictions n, e.roomId = roomId))
    (hold : ∀ n, ∀ e ∈ c.evictions n, e ∈ c'.evictions n)
    (hnew : ∀ n, ∀ e ∈ c'.evictions n, e ∈ c.evictions n ∨
      e.roomId = roomId ∧ e.ownerId = next.ownerId) : AdmissionInv home c' := by
  have hget : ∀ r, c'.rooms.get? r = if r = roomId then some next else c.rooms.get? r := by
    intro r
    rw [hrooms,Record.get?_set]
  have hadmitted : ∀ t target version, Admitted home c t target version →
      Admitted home c' t target version := by
    rintro t target version ⟨state,hstate,hwhy⟩
    by_cases hr : target.1 = roomId
    · obtain ⟨howner,hversion⟩ := hkept state (hr ▸ hstate)
      refine ⟨next,by rw [hget,if_pos hr],?_⟩
      rcases hwhy with hsame | hown | ⟨e,he,hroom⟩
      · rcases hversion with hversion | hannounced
        · exact Or.inl (hsame.trans hversion.symm)
        · obtain ⟨e,he,hroom⟩ := hannounced (home t)
          exact Or.inr (Or.inr ⟨e,he,hroom.trans hr.symm⟩)
      · exact Or.inr (Or.inl (hown.trans howner.symm))
      · exact Or.inr (Or.inr ⟨e,hold _ e he,hroom⟩)
    · refine ⟨state,by rw [hget,if_neg hr,hstate],?_⟩
      rcases hwhy with hsame | hown | ⟨e,he,hroom⟩
      · exact Or.inl hsame
      · exact Or.inr (Or.inl hown)
      · exact Or.inr (Or.inr ⟨e,hold _ e he,hroom⟩)
  constructor
  · rw [hsockets]
    exact h.phaseOk
  · intro r state hstate
    rw [hget] at hstate
    split at hstate
    · cases hstate
      exact hroster
    · exact h.roster r state hstate
  · intro n e he
    rcases hnew n e he with hbefore | ⟨hroom,howner⟩
    · obtain ⟨state,hstate,howner⟩ := h.announced n e hbefore
      by_cases hr : e.roomId = roomId
      · refine ⟨next,by rw [hget,if_pos hr],?_⟩
        rw [howner,(hkept state (hr ▸ hstate)).1]
      · exact ⟨state,by rw [hget,if_neg hr,hstate],howner⟩
    · exact ⟨next,by rw [hget,if_pos hroom],howner⟩
  · intro t target
    rw [hsockets]
    exact fun hl hj hw => hadmitted _ _ _ (h.written t target hl hj hw)
  · intro t target
    rw [hsockets]
    exact fun hl hm => hadmitted _ _ _ (h.registered t target hl hm)

omit [DecidableEq N] [DecidableEq S] [DecidableEq W] in
theorem admissionChanged?_eq_some {roomId : String} {next : RoomState} {op : RoomOp}
    {e : AdmissionChanged} (h : admissionChanged? roomId next op = some e) :
    e.roomId = roomId ∧ e.ownerId = next.ownerId := by
  unfold admissionChanged? at h
  split at h <;> cases h <;> exact ⟨rfl,rfl⟩

theorem not_standsIn {roomId : String} {k : ClusterSocket} (h : standsIn roomId k = false)
    {target : Membership} : (k.base.meta_.map (·.membership) = some target → target.1 ≠ roomId) ∧
      (k.phase = .written → k.joining? = some target → target.1 ≠ roomId) := by
  simp only [standsIn,Bool.or_eq_false_iff] at h
  constructor
  · rintro hm rfl
    obtain ⟨entry,he,rfl⟩ := Option.map_eq_some_iff.mp hm
    rw [he] at h
    exact absurd h.1 (by simp [SocketMeta.membership])
  · rintro hw hj rfl
    rw [hw,hj] at h
    exact absurd h.2 (by simp)

omit [DecidableEq N] [DecidableEq S] [DecidableEq W] in
theorem deleteRoom_admissionInv (h : AdmissionInv home c) {roomId : String}
    (hnobody : ∀ s, standsIn roomId (c.sockets s) = false)
    (hdone : ∀ n, ((c.evictions n).any fun e => e.roomId == roomId) = false) :
    AdmissionInv home (deleteRoom c roomId) := by
  have hget : ∀ r, r ≠ roomId → (deleteRoom c roomId).rooms.get? r = c.rooms.get? r := by
    intro r hr
    simp only [deleteRoom,Record.get?_erase,if_neg hr]
  have hadmitted : ∀ s target version, target.1 ≠ roomId → Admitted home c s target version →
      Admitted home (deleteRoom c roomId) s target version := by
    rintro s target version hr ⟨state,hstate,hwhy⟩
    exact ⟨state,by rw [hget _ hr,hstate],hwhy⟩
  constructor
  · exact h.phaseOk
  · intro r state hstate
    by_cases hr : r = roomId
    · subst hr
      simp [deleteRoom,Record.get?_erase] at hstate
    · exact h.roster r state (hget r hr ▸ hstate)
  · intro n e he
    obtain ⟨state,hstate,howner⟩ := h.announced n e he
    have hr : e.roomId ≠ roomId := by
      have hall := List.any_eq_false.mp (hdone n) e he
      simpa using hall
    exact ⟨state,by rw [hget _ hr,hstate],howner⟩
  · intro s target hl hj hw
    exact hadmitted _ _ _ ((not_standsIn (hnobody s)).2 hw hj) (h.written s target hl hj hw)
  · intro s target hl hm
    exact hadmitted _ _ _ ((not_standsIn (hnobody s)).1 hm) (h.registered s target hl hm)

omit [DecidableEq N] in
theorem evictions_eraseIdx {evictions : List AdmissionChanged} {k : ℕ} {e other : AdmissionChanged}
    (he : evictions[k]? = some e) (hother : other ∈ evictions) :
    other = e ∨ other ∈ evictions.eraseIdx k := by
  obtain ⟨i,hi⟩ := List.mem_iff_getElem?.mp hother
  by_cases hik : i = k
  · subst hik
    exact Or.inl (Option.some.inj (hi.symm.trans he))
  · exact Or.inr (List.mem_eraseIdx_iff_getElem?.mpr ⟨i,hik,hi⟩)

omit [DecidableEq S] [DecidableEq W] in
theorem evict_admissionInv (h : AdmissionInv home c) {n : N} {k : ℕ} {e : AdmissionChanged}
    (he : (c.evictions n)[k]? = some e)
    (hmissed : (((c.evictions n).eraseIdx k).any fun later => later.roomId == e.roomId) = true ∨
      ∀ s, home s = n → missedBy c e (c.sockets s) = false) :
    AdmissionInv home { c with
      sockets := fun s =>
        if home s = n ∧ isEvicted e (c.sockets s) then (c.sockets s).evict else c.sockets s
      evictions := Function.update c.evictions n ((c.evictions n).eraseIdx k) } := by
  -- Who is not closed is what they were.
  have hkept : ∀ s, (if home s = n ∧ isEvicted e (c.sockets s) then (c.sockets s).evict
      else c.sockets s).base.link = .opened →
      ¬(home s = n ∧ isEvicted e (c.sockets s) = true) := by
    intro s hl hev
    rw [if_pos hev,ClusterSocket.evict] at hl
    split at hl
    · cases hl
    · rename_i hclosed
      exact hclosed hl
  have hsubset : ∀ m, ∀ other ∈ Function.update c.evictions n ((c.evictions n).eraseIdx k) m,
      other ∈ c.evictions m := by
    intro m other hother
    by_cases hm : m = n
    · subst hm
      rw [Function.update_self] at hother
      exact List.mem_of_mem_eraseIdx hother
    · rwa [Function.update_of_ne hm] at hother
  -- An admission that waits for this eviction has another reason.
  have hadmitted : ∀ s target version, Admitted home c s target version →
      (home s = n → target.1 = e.roomId →
        (∃ state, c.rooms.get? target.1 = some state ∧
          (version = state.roomSecurity.admissionVersion ∨ target.2 = state.ownerId)) ∨
        (((c.evictions n).eraseIdx k).any fun later => later.roomId == e.roomId) = true) →
      ∃ state, c.rooms.get? target.1 = some state ∧
        (version = state.roomSecurity.admissionVersion ∨ target.2 = state.ownerId ∨
          ∃ other ∈ Function.update c.evictions n ((c.evictions n).eraseIdx k) (home s),
            other.roomId = target.1) := by
    rintro s target version ⟨state,hstate,hwhy⟩ hinstead
    rcases hwhy with hsame | hown | ⟨other,hother,hroom⟩
    · exact ⟨state,hstate,Or.inl hsame⟩
    · exact ⟨state,hstate,Or.inr (Or.inl hown)⟩
    · by_cases hn : home s = n
      · rw [hn,Function.update_self]
        rw [hn] at hother
        rcases evictions_eraseIdx he hother with rfl | hleft
        · rcases hinstead hn hroom.symm with ⟨state,hstate,hwhy⟩ | hlater
          · exact ⟨state,hstate,hwhy.imp_right Or.inl⟩
          · obtain ⟨later,hlater,hsame⟩ := List.any_eq_true.mp hlater
            exact ⟨state,hstate,Or.inr (Or.inr
              ⟨later,hlater,(beq_iff_eq.mp hsame).trans hroom⟩)⟩
        · exact ⟨state,hstate,Or.inr (Or.inr ⟨other,hleft,hroom⟩)⟩
      · rw [Function.update_of_ne hn]
        exact ⟨state,hstate,Or.inr (Or.inr ⟨other,hother,hroom⟩)⟩
  obtain ⟨room,hroom,howner⟩ := h.announced n e (List.mem_of_getElem? he)
  constructor
  · intro s
    dsimp only
    split
    · unfold ClusterSocket.evict
      split
      · exact h.phaseOk s
      · exact h.phaseOk s
    · exact h.phaseOk s
  · exact h.roster
  · intro m other hother
    exact h.announced m other (hsubset m other hother)
  · intro s target hl hj hw
    have hnot := hkept s hl
    dsimp only at hl hj hw ⊢
    rw [if_neg hnot] at hl hj hw ⊢
    refine hadmitted s target _ (h.written s target hl hj hw) fun hn hr => ?_
    rcases hmissed with hlater | hmissed
    · exact Or.inr hlater
    · left
      have hfalse := hmissed s hn
      simp only [missedBy,hl,hw,hj,hr,hroom,beq_self_eq_true,Bool.true_and,Option.any_some,
        Bool.and_eq_false_iff,bne_eq_false_iff_eq] at hfalse
      refine ⟨room,hr ▸ hroom,?_⟩
      rcases hfalse with hown | hversion
      · exact Or.inr (hown.trans howner)
      · exact Or.inl hversion.symm
  · intro s target hl hm
    have hnot := hkept s hl
    dsimp only at hl hm ⊢
    rw [if_neg hnot] at hl hm ⊢
    refine hadmitted s target _ (h.registered s target hl hm) fun hn hr => Or.inl ?_
    -- It is registered in the room and not evicted: it is the owner's.
    refine ⟨room,hr ▸ hroom,Or.inr ?_⟩
    by_contra hne
    refine hnot ⟨hn,?_⟩
    obtain ⟨entry,hentry,rfl⟩ := Option.map_eq_some_iff.mp hm
    have hroomId : entry.roomId = e.roomId := hr
    have huser : entry.userId ≠ e.ownerId := fun hsame => hne (hsame.trans howner)
    simp [isEvicted,hentry,hroomId,huser]

theorem step_admissionInv (h : AdmissionInv home c) {event : ClusterEvent N S W}
    (hcareful : keepsAdmission env home c event)
    (hs : stepCluster env sha256 home c event = some c') : AdmissionInv home c' := by
  cases event with
  | join s target secret =>
    obtain ⟨-,rfl⟩ := join_cases hs
    exact h.of_phase rfl rfl rfl rfl rfl rfl rfl (Or.inl rfl)
  | socket s event =>
    obtain ⟨hplain,k',change,destroyers,hstep,rfl⟩ := socket_cases hs
    obtain ⟨hok,hphase,-,hversion,hlead⟩ := plain_phase (h.phaseOk s) hstep hplain
    refine h.of_socket rfl rfl rfl hok (fun target hl hj hw => ?_) fun target hl hm => ?_
    · rcases hlead target hj with hclaiming | hbefore
      · rw [hclaiming] at hw
        cases hw
      · rw [hversion]
        exact h.written s target (plain_meta hstep hplain hl).1 hbefore (hphase ▸ hw)
    · obtain ⟨hopen,hentry⟩ := plain_meta hstep hplain hl
      obtain ⟨entry',he',rfl⟩ := Option.map_eq_some_iff.mp hm
      rcases hentry entry' he' with ⟨hmeta,hsame⟩ | ⟨hjoining,hwritten,hsame⟩
      · rw [hsame]
        exact h.registered s _ hopen hmeta
      · rw [hsame]
        exact h.written s _ hopen hjoining hwritten
  | claim s =>
    obtain ⟨target,hjoining,-,⟨-,rfl⟩ | rfl⟩ := claim_cases hs
    all_goals
      obtain ⟨tracked,hstage⟩ := ClusterSocket.joining?_eq_some.mp hjoining
      refine h.of_phase rfl rfl rfl ?_ rfl rfl rfl (Or.inr (by simp))
      simp only [PhaseOk,hstage]
  | verify s =>
    obtain ⟨target,hjoining,-,rfl | ⟨stored,-,-,rfl⟩⟩ := verify_cases hs
    · exact h.of_phase rfl rfl rfl trivial rfl rfl rfl (Or.inl rfl)
    · obtain ⟨tracked,hstage⟩ := ClusterSocket.joining?_eq_some.mp hjoining
      refine h.of_phase rfl rfl rfl ?_ rfl rfl rfl (Or.inr ?_)
      · simp only [PhaseOk,hstage]
      · dsimp only
        split <;> simp
  | migrate s =>
    obtain ⟨target,hjoining,-,rfl⟩ := migrate_cases hs
    obtain ⟨tracked,hstage⟩ := ClusterSocket.joining?_eq_some.mp hjoining
    refine h.of_phase rfl rfl rfl ?_ rfl rfl rfl (Or.inr (by simp))
    simp only [PhaseOk,hstage]
  | write s input =>
    obtain ⟨target,hjoining,-,rfl | ⟨next,-,hf,hc,rfl⟩⟩ := write_cases hs
    · exact h.of_phase rfl rfl rfl trivial rfl rfl rfl (Or.inl rfl)
    · obtain ⟨tracked,hstage⟩ := ClusterSocket.joining?_eq_some.mp hjoining
      have hversion := join_version hc
      have hroster := (RosterInv.join hf (h.roster target.1) hc).1
      have hstored : AdmissionInv home { c with
          rooms := c.rooms.set target.1 next
          joinedWith := Function.update c.joinedWith target (some (c.sockets s).secret) } := by
        refine h.of_store rfl rfl hroster (fun state hstate => ?_) (fun _ _ => id)
          fun _ _ he => Or.inl he
        simp only [keepsAdmission,hjoining,Option.all_some,hstate] at hcareful
        rw [hstate] at hc hversion
        exact ⟨join_ownerId (h.roster _ state hstate) hcareful hc,Or.inl hversion⟩
      refine hstored.of_socket rfl rfl rfl ?_ (fun goal _ hj _ => ?_) fun goal hl hm => ?_
      · simp only [PhaseOk,hstage]
      · have hgoal : target = goal := Option.some.inj (hjoining.symm.trans hj)
        subst hgoal
        exact ⟨next,(Record.get?_set _ _ _ _).trans (if_pos rfl),Or.inl hversion.symm⟩
      · exact hstored.registered s goal hl hm
  | destroy d draining =>
    obtain ⟨next,stage,hstep,rfl⟩ := destroy_cases hs
    rcases stepDestroy_cases hstep with ⟨emptyAt,rfl⟩ | ⟨roomId,hstage,rfl⟩
    · exact ⟨h.phaseOk,h.roster,h.announced,h.written,h.registered⟩
    · simp only [keepsAdmission,hstage] at hcareful
      have hdeleted := deleteRoom_admissionInv h hcareful.1 hcareful.2
      exact ⟨hdeleted.phaseOk,hdeleted.roster,hdeleted.announced,hdeleted.written,
        hdeleted.registered⟩
  | op roomId op =>
    obtain ⟨hop,hf,next,hc,rfl⟩ := op_cases hs
    have hroster := (RosterInv.step (h.roster roomId) hf hc).1
    refine h.of_store rfl rfl hroster (fun state hstate => ?_)
      (fun n e he => List.mem_append_left _ he) fun n e he => ?_
    · rw [hstate] at hc
      simp only [keepsAdmission,hstate,Option.all_some,hc,beq_iff_eq] at hcareful
      refine ⟨hcareful,?_⟩
      cases hannounced : admissionChanged? roomId next op with
      | none => exact Or.inl (commit_version hop hc hannounced)
      | some e =>
        refine Or.inr fun n => ⟨e,?_,?_⟩
        · simp
        · exact (admissionChanged?_eq_some hannounced).1
    · rcases List.mem_append.mp he with hbefore | hnow
      · exact Or.inl hbefore
      · exact Or.inr (admissionChanged?_eq_some (Option.mem_toList.mp hnow))
  | evict n k =>
    obtain ⟨e,he,rfl⟩ := evict_cases hs
    exact evict_admissionInv h he (hcareful e he)
  | clearMarker | startSweep | tick =>
    obtain ⟨hrooms,-,-,hevictions,-,hsockets⟩ := other_cases hs (by simp)
    have hadmitted : ∀ t target version, Admitted home c t target version →
        Admitted home c' t target version := by
      intro t target version hadmitted
      rw [Admitted,hrooms,hevictions]
      exact hadmitted
    refine ⟨fun t => ?_,?_,?_,fun t target => ?_,fun t target => ?_⟩
    · obtain ⟨clearing,ht⟩ := hsockets t
      rw [ht]
      exact h.phaseOk t
    · rw [hrooms]
      exact h.roster
    · rw [hrooms,hevictions]
      exact h.announced
    · obtain ⟨clearing,ht⟩ := hsockets t
      rw [ht]
      exact fun hl hj hw => hadmitted _ _ _ (h.written t target hl hj hw)
    · obtain ⟨clearing,ht⟩ := hsockets t
      rw [ht]
      exact fun hl hm => hadmitted _ _ _ (h.registered t target hl hm)

theorem admissionInv_of_careful (h : (carefulAdmission env sha256 home).Reachable c) :
    AdmissionInv home c := by
  apply Reachable.invariant (T := carefulAdmission env sha256 home) (AdmissionInv home) _ _ h
  · rintro c ⟨now,rfl⟩
    constructor
    · exact fun s => trivial
    · exact fun roomId state hroom => by cases hroom
    · exact fun n e he => by cases he
    · exact fun s target _ hjoining => by cases hjoining
    · exact fun s target _ hmeta => by cases hmeta
  · intro c event c' _ hinv hstep
    exact step_admissionInv hinv hstep.1 hstep.2

/-- In every careful run, once the evictions of a room are carried out on every node, each open
socket of a non-owner that is committed to the room was let in under the version that the room
has now. -/
theorem password_change_evicts (h : (carefulAdmission env sha256 home).Reachable c) {s : S}
    {target : Membership} {state : RoomState} (hopen : (c.sockets s).base.link = .opened)
    (hc : (c.sockets s).base.CommittedTo target)
    (hroom : c.rooms.get? target.1 = some state) (hnot : target.2 ≠ state.ownerId)
    (hdone : ∀ n, ∀ e ∈ c.evictions n, e.roomId ≠ target.1) :
    (c.sockets s).registeredVersion = state.roomSecurity.admissionVersion := by
  obtain ⟨entry,he,-,rfl⟩ := hc
  have hmeta : (c.sockets s).base.meta_.map (·.membership) = some entry.membership := by
    rw [he]
    rfl
  obtain ⟨found,hfound,hwhy⟩ := (admissionInv_of_careful h).registered s _ hopen hmeta
  rw [hroom] at hfound
  cases hfound
  rcases hwhy with hversion | howner | ⟨e,he,hsame⟩
  · exact hversion
  · exact absurd howner hnot
  · exact absurd hsame (hdone _ e he)

end Invariant

section Scenario

open ScenarioSocket

instance {N S W : Type*} [DecidableEq N] [Fintype N] [Fintype S] (env : Env) (home : S → N)
    (c : Cluster N S W) (event : ClusterEvent N S W) :
    Decidable (keepsAdmission env home c event) :=
  match event with
  | .evict _ _ => inferInstanceAs (Decidable (∀ e ∈ _, _))
  | .write _ _ => inferInstanceAs (Decidable (_ = true))
  | .op _ _ => inferInstanceAs (Decidable (_ = true))
  | .destroy d _ => decidable_of_iff _ (forall_deleting_iff (c.destroyers d) _)
  | .socket _ _ | .join _ _ _ | .claim _ | .verify _ | .migrate _ | .clearMarker _
  | .startSweep _ _ | .tick _ => inferInstanceAs (Decidable True)

def onTwoNodes (s : ScenarioSocket) : Bool := s != .first

def setsPassword : RoomOp :=
  .message (roomPage "ann")
    { now := 2000, activeConnections := {"ann","bob"}, newId := "new", salt := "salt" }
    (.roomPasswordSet "pw")

def evictedAndBack : List (ClusterEvent Bool ScenarioSocket Unit) :=
  joinUpToClaim first "ann" "secret" ++ joinFromWrite first "ann" 1000 ++
    joinUpToClaim second "bob" "secret" ++ joinFromWrite second "bob" 1000 ++
    [ClusterEvent.op "room" setsPassword,.evict false 0,.evict true 0,.socket second .close] ++
    joinUpToClaim third "bob" "secret" ++
    [ClusterEvent.verify third,
      .write third { joinInputOf "bob" 3000 with joinPassword := some "pw" }] ++
    joinFromCommit third

def evictedTooEarly : List (ClusterEvent Bool ScenarioSocket Unit) :=
  joinUpToClaim first "ann" "secret" ++ joinFromWrite first "ann" 1000 ++
    joinUpToClaim second "bob" "secret" ++
    [ClusterEvent.write second (joinInputOf "bob" 1000)] ++
    [ClusterEvent.op "room" setsPassword,.evict false 0,.evict true 0] ++ joinFromCommit second

/-- An open socket that is committed to the room for somebody else than its owner, with
nothing left to evict. -/
def staysIn (c : Cluster Bool ScenarioSocket Unit) (s : ScenarioSocket) (state : RoomState) : Bool :=
  decide ((c.sockets s).base.link = .opened) && isCommittedTo (c.sockets s).base ("room","bob") &&
    decide (state.ownerId = "ann") && (c.evictions false).isEmpty && (c.evictions true).isEmpty

theorem password_change_evicts_then_rejoin :
    ∃ (c : Cluster Bool ScenarioSocket Unit) (state : RoomState),
      (carefulAdmission scenarioEnv id onTwoNodes).Reachable c ∧
      (c.sockets .third).base.CommittedTo ("room","bob") ∧ c.rooms.get? "room" = some state ∧
      state.roomSecurity.admissionVersion = 1 ∧
      (c.sockets .third).registeredVersion = state.roomSecurity.admissionVersion := by
  have hrun : ((runSteps (guardStep (stepCluster scenarioEnv id onTwoNodes)
      (keepsAdmission scenarioEnv onTwoNodes)) (clusterStart 1000) evictedAndBack).any fun c =>
        (c.rooms.get? "room").any fun state => staysIn c .third state &&
          decide (state.roomSecurity.admissionVersion = 1)) = true := by
    decide +kernel
  obtain ⟨c,hc,hfacts⟩ := (Option.any_eq_true _ _).mp hrun
  obtain ⟨state,hroom,hfacts⟩ := (Option.any_eq_true _ _).mp hfacts
  simp only [staysIn,Bool.and_eq_true,decide_eq_true_eq,List.isEmpty_iff] at hfacts
  obtain ⟨⟨⟨⟨⟨hopen,hcommitted⟩,howner⟩,hhere⟩,hthere⟩,hversion⟩ := hfacts
  have hr : (carefulAdmission scenarioEnv id onTwoNodes).Reachable c :=
    .of_guardSteps (fun _ _ _ => id) _ (.init ⟨1000,rfl⟩) hc
  have hto := committedTo_of_isCommittedTo hcommitted
  have hnot : "bob" ≠ state.ownerId := by
    rw [howner]
    decide
  refine ⟨c,state,hr,hto,hroom,hversion,password_change_evicts hr hopen hto hroom hnot ?_⟩
  intro n e he
  cases n
  · rw [hhere] at he
    cases he
  · rw [hthere] at he
    cases he

/-- Bob stays in the room that he entered without the password. -/
theorem eviction_misses_join : ∃ (c : Cluster Bool ScenarioSocket Unit) (state : RoomState),
    (clusterSystem scenarioEnv id onTwoNodes).Reachable c ∧
    (c.sockets .second).base.link = .opened ∧ (c.sockets .second).base.CommittedTo ("room","bob") ∧
    c.rooms.get? "room" = some state ∧ "bob" ≠ state.ownerId ∧ (∀ n, c.evictions n = []) ∧
    (c.sockets .second).registeredVersion ≠ state.roomSecurity.admissionVersion := by
  have hrun : ((runSteps (stepCluster scenarioEnv id onTwoNodes) (clusterStart 1000)
      evictedTooEarly).any fun c => (c.rooms.get? "room").any fun state => staysIn c .second state &&
        decide ((c.sockets .second).registeredVersion ≠ state.roomSecurity.admissionVersion)) = true := by
    decide +kernel
  obtain ⟨c,hc,hfacts⟩ := (Option.any_eq_true _ _).mp hrun
  obtain ⟨state,hroom,hfacts⟩ := (Option.any_eq_true _ _).mp hfacts
  simp only [staysIn,Bool.and_eq_true,decide_eq_true_eq,List.isEmpty_iff] at hfacts
  obtain ⟨⟨⟨⟨⟨hopen,hcommitted⟩,howner⟩,hhere⟩,hthere⟩,hversion⟩ := hfacts
  refine ⟨c,state,.of_runSteps (fun _ _ _ => id) _ (.init ⟨1000,rfl⟩) hc,hopen,
    committedTo_of_isCommittedTo hcommitted,hroom,?_,fun n => ?_,hversion⟩
  · rw [howner]
    decide
  · cases n
    · exact hhere
    · exact hthere

end Scenario

end WebSyncPlay
