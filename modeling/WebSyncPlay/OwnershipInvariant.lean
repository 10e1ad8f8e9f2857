import WebSyncPlay.RoomFrames

/-! Who owns a stored room: the owner's role and the room's `ownerId` are one and the
same, and when the ownership may move. -/
namespace WebSyncPlay

open Library

/-- Participants are filed under their own id, and the owner is the one whose id the
room names. -/
structure RosterInv (state : RoomState) : Prop where
  key : ∀ userId p, state.participants.get? userId = some p → p.userId = userId ∧ userId ≠ ""
  owner : ∀ userId p, state.participants.get? userId = some p →
    (p.role = .owner ↔ userId = state.ownerId)
  ownerId_ne : state.ownerId ≠ ""

/-- Neither the participant nor their role has changed. -/
def SameRole (p p' : ParticipantState) : Prop := p'.userId = p.userId ∧ p'.role = p.role

theorem SameRole.refl (p : ParticipantState) : SameRole p p := ⟨rfl,rfl⟩

theorem SameRole.trans (a b c : ParticipantState) (h : SameRole a b) (h' : SameRole b c) :
    SameRole a c :=
  ⟨h'.1.trans h.1,h'.2.trans h.2⟩

theorem SameSeat.sameRole (p p' : ParticipantState) (h : SameSeat p p') : SameRole p p' :=
  ⟨h.userId,h.role⟩

/-- Participants may go; as long as roles and owner stay there is nothing to prove. -/
theorem RosterInv.of_derives {state next : RoomState} (h : RosterInv state)
    (hderives : state.participants.Derives SameRole next.participants)
    (ho : next.ownerId = state.ownerId) : RosterInv next where
  key userId p' hp' := by
    obtain ⟨p,hp,hsame⟩ := hderives userId p' hp'
    rw [hsame.1]
    exact h.key userId p hp
  owner userId p' hp' := by
    obtain ⟨p,hp,hsame⟩ := hderives userId p' hp'
    rw [hsame.2,ho]
    exact h.owner userId p hp
  ownerId_ne := ho ▸ h.ownerId_ne

theorem RosterInv.of_seats {state next : RoomState} (h : RosterInv state)
    (hseats : Seats state.participants next.participants) (ho : next.ownerId = state.ownerId) :
    RosterInv next :=
  h.of_derives (hseats.mono SameSeat.sameRole) ho

theorem RosterInv.congr {state next : RoomState} (h : RosterInv state)
    (hps : next.participants = state.participants) (ho : next.ownerId = state.ownerId) :
    RosterInv next :=
  h.of_seats (hps ▸ .refl SameSeat.refl _) ho

section Candidates

variable {role : RoomRole} {es : List (UserId × ParticipantState)} {e : UserId × ParticipantState}

theorem pickNextOwner_mem (h : pickNextOwner role es = some e) : e ∈ es ∧ e.2.role = role := by
  induction es generalizing e with
  | nil => cases h
  | cons d es ih =>
    unfold pickNextOwner at h
    split at h
    · rename_i hd
      split at h
      · cases h
        exact ⟨by simp,hd⟩
      · rename_i best hbest
        obtain ⟨hmem,hrole⟩ := ih hbest
        split at h
        · cases h
          exact ⟨by simp [hmem],hrole⟩
        · cases h
          exact ⟨by simp,hd⟩
    · obtain ⟨hmem,hrole⟩ := ih h
      exact ⟨by simp [hmem],hrole⟩

theorem pickNextOwner_eq_none (h : pickNextOwner role es = none) : ∀ e ∈ es, e.2.role ≠ role := by
  induction es with
  | nil => simp
  | cons d es ih =>
    unfold pickNextOwner at h
    split at h
    · split at h
      · cases h
      · split at h <;> cases h
    · rename_i hd
      intro e he
      rcases List.mem_cons.mp he with rfl | he
      · exact hd
      · exact ih h e he

variable {participants : Record UserId ParticipantState} {reason : TransferReason}

/-- The next owner is a participant; off the prune path a connected one who is not
the owner yet. -/
theorem nextOwnerEntry_mem (h : nextOwnerEntry participants reason = some e) :
    participants.get? e.1 = some e.2 ∧
      (reason ≠ .prune → e.2.connected = true ∧ e.2.role ≠ .owner) := by
  have hcandidate : ∀ role, pickNextOwner role (transferCandidates participants reason) = some e →
      e ∈ participants.entries ∧ e.2.role = role ∧ (reason ≠ .prune → e.2.connected = true) := by
    intro role hpick
    obtain ⟨hmem,hrole⟩ := pickNextOwner_mem hpick
    unfold transferCandidates at hmem
    dsimp only at hmem
    split at hmem
    · split at hmem
      · rename_i hprune
        exact ⟨hmem,hrole,fun hne => absurd hprune hne⟩
      · simp at hmem
    · rw [List.mem_filter] at hmem
      exact ⟨hmem.1,hrole,fun _ => hmem.2⟩
  have hfound : ∀ role, role ≠ .owner →
      pickNextOwner role (transferCandidates participants reason) = some e →
      participants.get? e.1 = some e.2 ∧
        (reason ≠ .prune → e.2.connected = true ∧ e.2.role ≠ .owner) := by
    intro role hne hpick
    obtain ⟨hmem,hrole,hconn⟩ := hcandidate role hpick
    exact ⟨(Record.get?_eq_some_iff _ _ _).mpr hmem,fun hr => ⟨hconn hr,hrole ▸ hne⟩⟩
  simp only [nextOwnerEntry,Option.orElse_eq_orElse,Option.orElse_eq_or,
    Option.or_eq_some_iff] at h
  rcases h with hmod | ⟨-,hguest | ⟨-,howner⟩⟩
  · exact hfound .moderator (by decide) hmod
  · exact hfound .guest (by decide) hguest
  · split at howner
    · rename_i hprune
      obtain ⟨hmem,-,-⟩ := hcandidate .owner howner
      exact ⟨(Record.get?_eq_some_iff _ _ _).mpr hmem,fun hr => absurd hprune hr⟩
    · cases howner

/-- Where nobody is picked, all connected participants are owners already, and on the
prune path nobody is left. -/
theorem nextOwnerEntry_eq_none (h : nextOwnerEntry participants reason = none) :
    (∀ userId p, participants.get? userId = some p → p.connected = true → p.role = .owner) ∧
      (reason = .prune → ∀ userId, participants.get? userId = none) := by
  simp only [nextOwnerEntry,Option.orElse_eq_orElse,Option.orElse_eq_or,
    Option.or_eq_none_iff] at h
  obtain ⟨hmod,hguest,howner⟩ := h
  have hrole : ∀ e ∈ transferCandidates participants reason, e.2.role = .owner := by
    intro e he
    have hm := pickNextOwner_eq_none hmod e he
    have hg := pickNextOwner_eq_none hguest e he
    cases hr : e.2.role with
    | owner => rfl
    | moderator => exact absurd hr hm
    | guest => exact absurd hr hg
  constructor
  · intro userId p hp hconn
    have hmem : (userId,p) ∈ participants.entries.filter fun e => e.2.connected :=
      List.mem_filter.mpr ⟨(Record.get?_eq_some_iff _ _ _).mp hp,hconn⟩
    refine hrole (userId,p) ?_
    unfold transferCandidates
    dsimp only
    rw [if_neg (List.ne_nil_of_mem hmem)]
    exact hmem
  · intro hprune userId
    rw [if_pos hprune] at howner
    have hempty : transferCandidates participants reason = [] := by
      by_contra hne
      obtain ⟨e,he⟩ := List.exists_mem_of_ne_nil _ hne
      exact pickNextOwner_eq_none howner e he (hrole e he)
    cases hget : participants.get? userId with
    | none => rfl
    | some p =>
      have hmem := (Record.get?_eq_some_iff _ _ _).mp hget
      unfold transferCandidates at hempty
      dsimp only at hempty
      split at hempty
      · rw [hempty] at hmem
        cases hmem
      · rename_i hconn
        exact absurd hempty hconn

end Candidates

section Transfer

variable (env : Env) {state : RoomState} (now : ℕ)

/-- The role that a transfer from `previous` to `next` leaves a participant. -/
def transferredRole (next previous userId : UserId) (p : ParticipantState) : ParticipantState :=
  if userId = next then { p with role := .owner }
  else if userId = previous then { p with role := .guest } else p

theorem transferredRole_next (next previous : UserId) :
    transferredRole next previous next = fun p => { p with role := .owner } := by
  funext p
  simp [transferredRole]

theorem transferredRole_previous {next previous : UserId} (h : previous ≠ next) :
    transferredRole next previous previous = fun p => { p with role := .guest } := by
  funext p
  simp [transferredRole,h]

theorem transferredRole_other {next previous userId : UserId} (hn : userId ≠ next)
    (hp : userId ≠ previous) : transferredRole next previous userId = id := by
  funext p
  simp [transferredRole,hn,hp]

theorem transferredRoster_get? (h : RosterInv state) {key : UserId} {nextOwner : ParticipantState}
    (hnext : state.participants.get? key = some nextOwner) (userId : UserId) :
    (transferredRoster state key nextOwner).get? userId =
      (state.participants.get? userId).map (transferredRole key state.ownerId userId) := by
  have hkey := (h.key key nextOwner hnext).1
  have hpromoted : ∀ userId,
      (state.participants.modify key fun p => { p with role := .owner }).get? userId =
        if userId = key then (state.participants.get? userId).map fun p => { p with role := .owner }
        else state.participants.get? userId :=
    fun userId => Record.get?_modify _ _ _ _
  -- A previous owner in the roster is demoted, unless they are the next one.
  have hrest : (∀ p, state.participants.get? state.ownerId = some p → state.ownerId = key) →
      (state.participants.modify key fun p => { p with role := .owner }).get? userId =
        (state.participants.get? userId).map (transferredRole key state.ownerId userId) := by
    intro hsame
    rw [hpromoted]
    split
    · rename_i hu
      rw [hu,transferredRole_next]
    · rename_i hu
      by_cases ho : userId = state.ownerId
      · cases hget : state.participants.get? userId with
        | none => rfl
        | some p => exact absurd (ho.trans (hsame p (ho ▸ hget))) hu
      · rw [transferredRole_other hu ho,Option.map_id_fun,id]
  unfold transferredRoster
  dsimp only
  split
  · rename_i previous hprevious
    have hprev : previous.userId = state.ownerId := by
      rw [hpromoted] at hprevious
      split at hprevious
      · obtain ⟨p,hp,rfl⟩ := Option.map_eq_some_iff.mp hprevious
        exact (h.key state.ownerId p hp).1
      · exact (h.key state.ownerId previous hprevious).1
    rw [hkey,hprev]
    split
    · rename_i hne
      rw [Record.get?_modify,hpromoted]
      by_cases ho : userId = state.ownerId
      · rw [if_pos ho,if_neg (ho ▸ hne),ho,transferredRole_previous hne]
      · rw [if_neg ho]
        split
        · rename_i hu
          rw [hu,transferredRole_next]
        · rename_i hu
          rw [transferredRole_other hu ho,Option.map_id_fun,id]
    · rename_i heq
      exact hrest fun _ _ => not_not.mp heq
  · rename_i hnone
    refine hrest fun p hp => ?_
    by_contra hne
    rw [hpromoted,if_neg hne,hp] at hnone
    cases hnone

/-- Refused, or the ownership has moved to a participant, and every seat but the roles
is as it was. -/
theorem RosterInv.transfer_cases (h : RosterInv state) (reason : TransferReason) :
    ((transferOwnershipIfNeeded env now state reason).1 = state ∧
      (keepsOwner (state.participants.get? state.ownerId) reason = true ∨
        nextOwnerEntry state.participants reason = none)) ∨
    ∃ key nextOwner, keepsOwner (state.participants.get? state.ownerId) reason = false ∧
      state.participants.get? key = some nextOwner ∧
      (reason ≠ .prune → nextOwner.connected = true) ∧
      (transferOwnershipIfNeeded env now state reason).1.ownerId = key ∧
      ∀ userId, (transferOwnershipIfNeeded env now state reason).1.participants.get? userId =
        (state.participants.get? userId).map (transferredRole key state.ownerId userId) := by
  rcases transferOwnershipIfNeeded_cases env now state reason with
    ⟨he,hwhy⟩ | ⟨key,nextOwner,hkeeps,hnext,-,hid,hps⟩
  · exact Or.inl ⟨by rw [he],hwhy⟩
  · obtain ⟨hget,hconn⟩ := nextOwnerEntry_mem hnext
    refine Or.inr ⟨key,nextOwner,hkeeps,hget,fun hr => (hconn hr).1,?_,fun userId => ?_⟩
    · rw [hid]
      exact (h.key key nextOwner hget).1
    · rw [hps]
      exact transferredRoster_get? h hget userId

theorem RosterInv.transfer (h : RosterInv state) (reason : TransferReason) :
    RosterInv (transferOwnershipIfNeeded env now state reason).1 := by
  rcases h.transfer_cases env now reason with
    ⟨he,-⟩ | ⟨key,nextOwner,-,hnext,-,hid,hps⟩
  · rw [he]
    exact h
  · constructor
    · intro userId p' hp'
      rw [hps] at hp'
      obtain ⟨p,hp,rfl⟩ := Option.map_eq_some_iff.mp hp'
      unfold transferredRole
      split
      · exact h.key userId p hp
      · split <;> exact h.key userId p hp
    · intro userId p' hp'
      rw [hps] at hp'
      obtain ⟨p,hp,rfl⟩ := Option.map_eq_some_iff.mp hp'
      rw [hid]
      unfold transferredRole
      split
      · rename_i hu
        simp [hu]
      · rename_i hu
        split
        · simp [hu]
        · rename_i ho
          simp only [h.owner userId p hp,hu,ho]
    · rw [hid]
      exact (h.key key nextOwner hnext).2

/-- After a prune the room's owner is a participant, unless nobody is left. -/
theorem RosterInv.transfer_prune (h : RosterInv state) {userId : UserId} {p : ParticipantState}
    (hp : (transferOwnershipIfNeeded env now state .prune).1.participants.get? userId = some p) :
    ∃ owner, (transferOwnershipIfNeeded env now state .prune).1.participants.get?
      (transferOwnershipIfNeeded env now state .prune).1.ownerId = some owner := by
  rcases h.transfer_cases env now .prune with
    ⟨he,hkeeps | hnone⟩ | ⟨key,nextOwner,-,hnext,-,hid,hps⟩
  · rw [he]
    cases hget : state.participants.get? state.ownerId with
    | none => simp [hget,keepsOwner] at hkeeps
    | some owner => exact ⟨owner,rfl⟩
  · rw [he] at hp
    rw [(nextOwnerEntry_eq_none hnone).2 rfl userId] at hp
    cases hp
  · rw [hid,hps,hnext]
    exact ⟨_,rfl⟩

theorem RosterInv.transfer_join (h : RosterInv state) {userId : UserId} {p : ParticipantState}
    (hp : state.participants.get? userId = some p) (hconn : p.connected = true) :
    ∃ owner, (transferOwnershipIfNeeded env now state .join).1.participants.get?
      (transferOwnershipIfNeeded env now state .join).1.ownerId = some owner := by
  rcases h.transfer_cases env now .join with
    ⟨he,hkeeps | hnone⟩ | ⟨key,nextOwner,-,hnext,-,hid,hps⟩
  · rw [he]
    exact Option.isSome_iff_exists.mp hkeeps
  · have howner := (nextOwnerEntry_eq_none hnone).1 userId p hp hconn
    rw [he,← (h.owner userId p hp).mp howner]
    exact ⟨p,hp⟩
  · rw [hid,hps,hnext]
    exact ⟨_,rfl⟩

end Transfer

section Steps

variable {env : Env} {state next : RoomState}

theorem pruneViewerMedia_sameRole (itemId : ItemId) (p : ParticipantState) :
    SameRole p (pruneViewerMedia itemId p) := by
  unfold pruneViewerMedia
  split
  · exact SameRole.refl p
  · split
    · exact SameRole.refl p
    · dsimp only
      split <;> exact ⟨rfl,rfl⟩

theorem applyViewerMediaPreferences_sameRole {p p' : ParticipantState} {item : PlaylistItem}
    {parsed : ViewerMediaPreferencesInput}
    (h : applyViewerMediaPreferences p item parsed = some p') : SameRole p p' := by
  obtain ⟨pref,-,rfl⟩ := Option.map_eq_some_iff.mp h
  exact ⟨rfl,rfl⟩

theorem RosterInv.replace (h : RosterInv state) {userId : UserId} {p p' : ParticipantState}
    (hp : state.participants.get? userId = some p) (hsame : SameRole p p')
    (hps : next.participants = state.participants.modify userId fun _ => p')
    (ho : next.ownerId = state.ownerId) : RosterInv next := by
  refine h.of_derives ?_ ho
  rw [hps]
  exact .modify _ userId SameRole.refl fun q hq => by
    rw [hp] at hq
    cases hq
    exact hsame

theorem RosterInv.effect {ctx : RoomMessageContext} {participant : ParticipantState}
    {msg : RoomMessage} (h : RosterInv state)
    (hp : state.participants.get? ctx.userId = some participant)
    (he : RosterEffect ctx state participant msg next) : RosterInv next := by
  cases he with
  | same hsame => exact h.congr hsame.participants hsame.ownerId
  | prune itemId _ hps ho =>
    refine h.of_derives ?_ ho
    rw [hps]
    exact .mapValues _ (pruneViewerMedia_sameRole itemId)
  | prefer parsed item p' _ hp' hps _ ho =>
    exact h.replace hp (applyViewerMediaPreferences_sameRole hp') hps ho
  | profile p' hseat hps ho => exact h.replace hp hseat.sameRole hps ho
  | role _ targetUserId role target ht howner hps ho =>
    -- The target is not the owner, and the new role is not the owner's either.
    have htarget : targetUserId ≠ state.ownerId := (h.key targetUserId target ht).1 ▸ howner
    constructor
    · intro userId p' hp'
      rw [hps,Record.get?_modify] at hp'
      split at hp'
      · obtain ⟨p,hget,rfl⟩ := Option.map_eq_some_iff.mp hp'
        exact h.key userId p hget
      · exact h.key userId p' hp'
    · intro userId p' hp'
      rw [hps,Record.get?_modify] at hp'
      rw [ho]
      split at hp'
      · rename_i hu
        obtain ⟨p,hget,rfl⟩ := Option.map_eq_some_iff.mp hp'
        rw [hu]
        cases role <;> simp [DefaultJoinRole.toRoomRole,htarget]
      · exact h.owner userId p' hp'
    · rw [ho]
      exact h.ownerId_ne
  | security _ hps ho => exact h.congr hps ho

theorem RosterInv.repair (h : RosterInv state) (now : ℕ) (newOwnerId : UserId) :
    RosterInv (applyRoomStateRepair env now newOwnerId state) :=
  h.of_seats (repairParticipants_seats env now state.participants) (by
    rw [applyRoomStateRepair_ownerId,if_neg h.ownerId_ne])

theorem RosterInv.reconcile (h : RosterInv state) (active : Finset UserId) (now : ℕ) :
    RosterInv (reconcileParticipantsConnectivity active now state) :=
  h.of_seats (reconcile_seats active now state) rfl

theorem RosterInv.finish (h : RosterInv state) (userId newOwnerId : UserId) (now : ℕ)
    (hint : RoomPublishHint) :
    RosterInv (finishRoomMessage env userId newOwnerId now hint state) := by
  have hrepaired : RosterInv (applyRoomStateRepair env now newOwnerId state) :=
    h.repair now newOwnerId
  refine hrepaired.of_seats ?_ rfl
  exact modify_seats _ userId (markSeen now) fun _ => ⟨rfl,rfl,rfl⟩

theorem RosterInv.message (h : RosterInv state) {ctx : RoomMessageContext} {inp : MessageInputs}
    {msg : RoomMessage} (hc : processRoomMessage env ctx inp msg state = some next) :
    RosterInv next := by
  rcases processRoomMessage_cases hc with ⟨itemId,-,hr⟩ | ⟨p,mutated,hint,hp,he,rfl⟩
  · rw [(reresolveRemotePlaylistItem_eq_some hr).2]
    exact h.congr rfl rfl
  · exact ((h.reconcile inp.activeConnections inp.now).effect hp he.roster).finish _ _ _ _

theorem RosterInv.offline (h : RosterInv state) (roomId : String) (userId : UserId) (now : ℕ) :
    RosterInv (bumpRoomRevisions (applyUserWentOffline env state roomId userId now).1) := by
  refine h.of_seats ?_ ?_
  · simp only [bumpRoomRevisions_participants,applyUserWentOffline_participants]
    exact modify_seats _ userId (markOffline now) fun _ => ⟨rfl,rfl,rfl⟩
  · simp only [bumpRoomRevisions_ownerId,applyUserWentOffline_ownerId]

/-- The joiner's entry has an owner's role just when the room names them. -/
theorem RosterInv.seat {input : JoinInput} (h : RosterInv state) (hne : input.userId ≠ "") :
    RosterInv (seatJoiner input state) where
  key userId p hp := by
    simp only [seatJoiner,Record.get?_set] at hp
    split at hp
    · rename_i hu
      cases hp
      exact ⟨hu.symm,hu ▸ hne⟩
    · exact h.key userId p hp
  owner userId p hp := by
    simp only [seatJoiner,Record.get?_set] at hp
    split at hp
    · rename_i hu
      cases hp
      cases hget : state.participants.get? input.userId with
      | some existing =>
        rw [hu]
        exact h.owner input.userId existing hget
      | none =>
        simp only [joinParticipant,joinRole,ensureRoomSecurity_ownerId,seatJoiner]
        rw [hu]
        split
        · rename_i howner
          simp [howner]
        · rename_i howner
          have hnot : input.userId ≠ state.ownerId := fun he => howner he.symm
          cases (normalizeRoomSecurity (ensureRoomSecurity state).roomSecurity).defaultJoinRole <;>
            simp [DefaultJoinRole.toRoomRole,hnot]
    · exact h.owner userId p hp
  ownerId_ne := h.ownerId_ne

theorem seatJoiner_get? (input : JoinInput) (base : RoomState) :
    ∃ p, (seatJoiner input base).participants.get? input.userId = some p ∧ p.connected = true :=
  ⟨_,(Record.get?_set _ input.userId _ input.userId).trans (if_pos rfl),rfl⟩

theorem createInitialRoomState_roster (env : Env) {input : JoinInput} (hne : input.userId ≠ "") :
    RosterInv (createInitialRoomState env input) where
  key _ _ hp := nomatch hp
  owner _ _ hp := nomatch hp
  ownerId_ne := hne

theorem joinBase_roster {input : JoinInput} {existing : Option RoomState}
    (hf : (RoomOp.join input).Fresh existing)
    (h : ∀ state, existing = some state → RosterInv state) :
    RosterInv (joinBase env input existing) := by
  have hstate : RosterInv (existing.getD (createInitialRoomState env input)) := by
    cases existing with
    | none => exact createInitialRoomState_roster env hf.1
    | some state => exact h state rfl
  exact (hstate.repair input.now input.newOwnerId).reconcile input.activeConnections input.now

theorem RosterInv.join {input : JoinInput} {existing : Option RoomState}
    (hf : (RoomOp.join input).Fresh existing)
    (h : ∀ state, existing = some state → RosterInv state)
    (hc : commitJoinMembership env input existing = some next) :
    RosterInv next ∧ ∃ owner, next.participants.get? next.ownerId = some owner := by
  have hbase : RosterInv (joinBase env input existing) := joinBase_roster hf h
  have hseated := hbase.seat hf.1
  obtain ⟨p,hp,hconn⟩ := seatJoiner_get? input (joinBase env input existing)
  have hinv := hseated.transfer env input.now .join
  have howner := hseated.transfer_join env input.now hp hconn
  obtain ⟨log,generation,structuralRevision,rfl⟩ := commitJoinMembership_eq_some hc
  unfold enterParticipant
  generalize (transferOwnershipIfNeeded env input.now
    (seatJoiner input (joinBase env input existing)) .join).1 = entered at hinv howner ⊢
  exact ⟨hinv.congr rfl rfl,howner⟩

theorem RosterInv.sweep (h : RosterInv state) {activeConnections : Finset UserId}
    {newOwnerId : UserId} {now : ℕ}
    (hc : cleanupInactiveRoom env activeConnections newOwnerId now state = some next) :
    RosterInv next := by
  rw [cleanupInactiveRoom_eq_some hc]
  have hbase : RosterInv (sweepBase env activeConnections newOwnerId now state) :=
    (h.repair now newOwnerId).reconcile activeConnections now
  have hinv := hbase.transfer env now .cleanup
  generalize transferOwnershipIfNeeded env now
    (sweepBase env activeConnections newOwnerId now state) .cleanup = swept at hinv ⊢
  exact hinv.congr rfl rfl

/-- A prune ends with the room's owner in the roster, unless nobody is left. -/
theorem RosterInv.prune {removed : RoomState} (h : RosterInv removed) (now : ℕ)
    (hn : next = { bumpRoomRevisions (transferOwnershipIfNeeded env now removed .prune).1 with
      updatedAt := now }) :
    RosterInv next ∧ ∀ userId p, next.participants.get? userId = some p →
      ∃ owner, next.participants.get? next.ownerId = some owner := by
  subst hn
  have hinv := h.transfer env now .prune
  exact ⟨hinv.congr rfl rfl,fun userId p hp => h.transfer_prune env now hp⟩

/-- The operations that end with an owner who is a participant. -/
def RoomOp.SettlesOwner : RoomOp → Prop
  | .join _ => True
  | .prune _ _ => True
  | .pruneFallback _ => True
  | _ => False

/-- Every operation keeps roles and owner in step. -/
theorem RosterInv.step {room : Option RoomState} {op : RoomOp}
    (h : ∀ state, room = some state → RosterInv state) (hf : op.Fresh room)
    (hc : op.commit env room = some next) :
    RosterInv next ∧ (op.SettlesOwner → ∀ userId p, next.participants.get? userId = some p →
      ∃ owner, next.participants.get? next.ownerId = some owner) := by
  cases op with
  | join input =>
    obtain ⟨hinv,howner⟩ := RosterInv.join hf h hc
    exact ⟨hinv,fun _ _ _ _ => howner⟩
  | message ctx inp msg =>
    cases room with
    | none => cases hc
    | some state => exact ⟨(h state rfl).message hc,nofun⟩
  | disconnect roomId userId activeUsers now =>
    cases room with
    | none => cases hc
    | some state =>
      rw [(handleSocketDisconnect_eq_some hc).2]
      exact ⟨(h state rfl).offline roomId userId now,nofun⟩
  | abortJoin roomId userId now =>
    cases room with
    | none => cases hc
    | some state =>
      rw [abortJoinAfterCommit_eq_some hc]
      exact ⟨(h state rfl).offline roomId userId now,nofun⟩
  | cleanup activeConnections newOwnerId now =>
    cases room with
    | none => cases hc
    | some state => exact ⟨(h state rfl).sweep hc,nofun⟩
  | prune userId now =>
    cases room with
    | none => cases hc
    | some state =>
      have hremoved : RosterInv { state with participants := state.participants.erase userId } :=
        (h state rfl).of_seats (.erase _ userId SameSeat.refl) rfl
      obtain ⟨hinv,howner⟩ := hremoved.prune now (removeDisconnectedParticipant_eq_some hc).2
      exact ⟨hinv,fun _ => howner⟩
  | pruneFallback now =>
    cases room with
    | none => cases hc
    | some state =>
      have hremoved : RosterInv (pruneOfflineParticipants state now) :=
        (h state rfl).of_seats (.foldl_erase _ SameSeat.refl SameSeat.trans _) rfl
      obtain ⟨hinv,howner⟩ := hremoved.prune now (pruneByDisconnectedAtFallback_eq_some hc)
      exact ⟨hinv,fun _ => howner⟩
  | reresolve itemId now =>
    cases room with
    | none => cases hc
    | some state =>
      rw [(reresolveRemotePlaylistItem_eq_some hc).2]
      exact ⟨(h state rfl).congr rfl rfl,nofun⟩
  | settleResolve itemId outcome retryUntilPresent now =>
    cases room with
    | none => cases hc
    | some state =>
      rcases commitResolvingItem_eq_some hc with rfl | ⟨-,rfl⟩
      · exact ⟨h _ rfl,nofun⟩
      · exact ⟨(h state rfl).congr rfl rfl,nofun⟩

end Steps

theorem Stored.rosterInv {env : Env} {state : RoomState} (h : Stored env state) :
    RosterInv state := by
  apply h.invariant RosterInv
  · intro input next hf hc
    exact (RosterInv.join hf (fun s hs => by cases hs) hc).1
  · intro state op next _ hi hf hc
    exact (RosterInv.step (fun s hs => by cases hs; exact hi) hf hc).1

/-- In every room that operations can reach, and so at every roster size, the owner's
role and the room's owner are the same thing, held by at most one participant; and a
committed join or prune that leaves anybody leaves the owner in the roster. -/
theorem room_ownership {env : Env} {room : Option RoomState}
    (h : (roomSystem env).Reachable room) :
    (∀ state userId p, room = some state → state.participants.get? userId = some p →
      p.userId = userId ∧ (p.role = .owner ↔ p.userId = state.ownerId)) ∧
    ∀ (op : RoomOp) (next : RoomState), op.Fresh room → op.commit env room = some next →
      op.SettlesOwner →
      (∃ userId p, next.participants.get? userId = some p) →
      ∃ owner, next.participants.get? next.ownerId = some owner ∧ owner.role = .owner := by
  have hinv : ∀ state, room = some state → RosterInv state := by
    rintro state rfl
    exact Stored.rosterInv h
  constructor
  · intro state userId p hs hp
    have hkey := ((hinv state hs).key userId p hp).1
    exact ⟨hkey,hkey ▸ (hinv state hs).owner userId p hp⟩
  · rintro op next hf hc hsettles ⟨userId,p,hp⟩
    obtain ⟨hnext,howner⟩ := RosterInv.step hinv hf hc
    obtain ⟨owner,hget⟩ := howner hsettles userId p hp
    exact ⟨owner,hget,(hnext.owner next.ownerId owner hget).mpr rfl⟩

/-- Two joins, and a prune of the owner who left. -/
theorem room_ownership_after_prune : ∃ state, Stored scenarioEnv state ∧
    state.ownerId = "bob" ∧ (∀ userId p, state.participants.get? userId = some p →
      (p.role = .owner ↔ p.userId = "bob")) := by
  obtain ⟨state,hstored,howner⟩ := exists_stored_of_runRoom scenarioEnv
    [joinAs "ann" 1000 {},joinAs "bob" 2000 {"ann"},.disconnect "room" "ann" {"bob"} 3000,
      .prune "ann" 63000]
    (fun state => state.ownerId = "bob") (by decide +kernel)
  refine ⟨state,hstored,howner,fun userId p hp => ?_⟩
  rw [← howner]
  exact ((room_ownership hstored).1 state userId p rfl hp).2

end WebSyncPlay
