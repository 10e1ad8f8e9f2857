import WebSyncPlay.Cluster

/-! Identity secrets (`services/identity-store.ts`) against joins and destroys: when the
user ids that a stored room names stay bound to the secret they were seated with. -/
namespace WebSyncPlay

open Library TransitionSystem

section Names

variable {env : Env} {state next : RoomState}

def RoomState.Names (state : RoomState) (userId : UserId) : Prop :=
  (∃ p, state.participants.get? userId = some p) ∨ userId = state.ownerId

abbrev NamesOnly (state next : RoomState) : Prop := ∀ userId, next.Names userId → state.Names userId

theorem NamesOnly.of_derives {R : ParticipantState → ParticipantState → Prop}
    (hderives : state.participants.Derives R next.participants)
    (ho : next.ownerId = state.ownerId) : NamesOnly state next := by
  rintro userId (⟨p',hp'⟩ | howner)
  · obtain ⟨p,hp,-⟩ := hderives userId p' hp'
    exact Or.inl ⟨p,hp⟩
  · exact Or.inr (howner.trans ho)

theorem RosterInv.repair_names (h : RosterInv state) (now : ℕ) (newOwnerId : UserId) :
    NamesOnly state (applyRoomStateRepair env now newOwnerId state) :=
  .of_derives (repairParticipants_seats env now state.participants) (by
    rw [applyRoomStateRepair_ownerId,if_neg h.ownerId_ne])

theorem RosterInv.transfer_names (h : RosterInv state) (now : ℕ) (reason : TransferReason) :
    NamesOnly state (transferOwnershipIfNeeded env now state reason).1 := by
  rcases h.transfer_cases env now reason with ⟨he,-⟩ | ⟨key,nextOwner,-,hnext,-,hid,hps⟩
  · rw [he]
    exact fun _ => id
  · rintro userId (⟨p',hp'⟩ | howner)
    · rw [hps] at hp'
      obtain ⟨p,hp,-⟩ := Option.map_eq_some_iff.mp hp'
      exact Or.inl ⟨p,hp⟩
    · exact Or.inl ⟨nextOwner,by rw [howner,hid,hnext]⟩

theorem RosterEffect.names {ctx : RoomMessageContext} {participant : ParticipantState}
    {msg : RoomMessage} (he : RosterEffect ctx state participant msg next) :
    NamesOnly state next := by
  have hmodify : ∀ userId f, next.participants = state.participants.modify userId f →
      next.ownerId = state.ownerId → NamesOnly state next := by
    intro userId f hps ho
    refine .of_derives (R := fun _ _ => True) ?_ ho
    rw [hps]
    exact .modify _ userId (fun _ => trivial) fun _ _ => trivial
  cases he with
  | same h =>
    refine .of_derives (R := fun _ _ => True) ?_ h.ownerId
    rw [h.participants]
    exact .refl (fun _ => trivial) _
  | prune itemId _ hps ho _ =>
    refine .of_derives (R := fun _ _ => True) ?_ ho
    rw [hps]
    exact .mapValues _ fun _ => trivial
  | prefer _ _ _ _ _ hps _ ho _ => exact hmodify _ _ hps ho
  | profile _ _ hps ho _ => exact hmodify _ _ hps ho
  | role _ _ _ _ _ _ hps ho _ => exact hmodify _ _ hps ho
  | security _ hps ho =>
    refine .of_derives (R := fun _ _ => True) ?_ ho
    rw [hps]
    exact .refl (fun _ => trivial) _

theorem RosterInv.message_names (h : RosterInv state) {ctx : RoomMessageContext}
    {inp : MessageInputs} {msg : RoomMessage}
    (hc : processRoomMessage env ctx inp msg state = some next) : NamesOnly state next := by
  rcases processRoomMessage_cases hc with ⟨itemId,-,hr⟩ | ⟨p,mutated,hint,hp,he,rfl⟩
  · rw [(reresolveRemotePlaylistItem_eq_some hr).2]
    exact fun _ => id
  · have hreconciled : NamesOnly state
        (reconcileParticipantsConnectivity inp.activeConnections inp.now state) :=
      .of_derives (reconcile_seats inp.activeConnections inp.now state) rfl
    have hroster : RosterInv mutated :=
      (h.reconcile inp.activeConnections inp.now).effect hp he.roster
    have hrepaired : NamesOnly mutated (applyRoomStateRepair env inp.now inp.newOwnerId mutated) :=
      hroster.repair_names inp.now inp.newOwnerId
    have hseen : NamesOnly (applyRoomStateRepair env inp.now inp.newOwnerId mutated)
        (finishRoomMessage env ctx.userId inp.newOwnerId inp.now hint mutated) :=
      .of_derives (modify_seats _ ctx.userId (markSeen inp.now) fun _ => ⟨rfl,rfl,rfl⟩) rfl
    exact fun userId hn =>
      hreconciled userId (he.roster.names userId (hrepaired userId (hseen userId hn)))

theorem offline_names (state : RoomState) (roomId : String) (userId : UserId) (now : ℕ) :
    NamesOnly state (bumpRoomRevisions (applyUserWentOffline env state roomId userId now).1) := by
  refine .of_derives (R := SameSeat) ?_ ?_
  · simp only [bumpRoomRevisions_participants,applyUserWentOffline_participants]
    exact modify_seats _ userId (markOffline now) fun _ => ⟨rfl,rfl,rfl⟩
  · simp only [bumpRoomRevisions_ownerId,applyUserWentOffline_ownerId]

theorem join_names {input : JoinInput} {existing : Option RoomState}
    (hf : (RoomOp.join input).Fresh existing)
    (h : ∀ state, existing = some state → RosterInv state)
    (hc : commitJoinMembership env input existing = some next) {userId : UserId}
    (hn : next.Names userId) :
    userId = input.userId ∨ ∃ state, existing = some state ∧ state.Names userId := by
  have hbase : RosterInv (joinBase env input existing) := joinBase_roster hf h
  have hmoved : NamesOnly (seatJoiner input (joinBase env input existing))
      (transferOwnershipIfNeeded env input.now
        (seatJoiner input (joinBase env input existing)) .join).1 :=
    (hbase.seat hf.1).transfer_names input.now .join
  obtain ⟨log,generation,structuralRevision,rfl⟩ := commitJoinMembership_eq_some hc
  have hentered : (transferOwnershipIfNeeded env input.now
      (seatJoiner input (joinBase env input existing)) .join).1.Names userId := hn
  by_cases hjoiner : userId = input.userId
  · exact Or.inl hjoiner
  right
  -- Everybody else in the seated room was in the repaired one.
  have hrepaired : (joinBase env input existing).Names userId := by
    rcases hmoved userId hentered with ⟨p,hp⟩ | howner
    · rw [seatJoiner,Record.get?_set,if_neg hjoiner] at hp
      exact Or.inl ⟨p,hp⟩
    · exact Or.inr howner
  have hstate : RosterInv (existing.getD (createInitialRoomState env input)) := by
    cases existing with
    | none => exact createInitialRoomState_roster env hf.1
    | some state => exact h state rfl
  have hreconciled := NamesOnly.of_derives
    (reconcile_seats input.activeConnections input.now (applyRoomStateRepair env input.now
      input.newOwnerId (existing.getD (createInitialRoomState env input)))) rfl userId hrepaired
  have hfound := hstate.repair_names input.now input.newOwnerId userId hreconciled
  cases existing with
  | none =>
    rcases hfound with ⟨p,hp⟩ | howner
    · cases hp
    · exact absurd howner hjoiner
  | some state => exact ⟨state,rfl,hfound⟩

/-- Nobody comes in without a join. -/
theorem commit_names {op : RoomOp} {existing : Option RoomState} (hop : op.isJoin = false)
    (h : ∀ state, existing = some state → RosterInv state)
    (hc : op.commit env existing = some next) :
    ∃ state, existing = some state ∧ NamesOnly state next := by
  cases existing with
  | none =>
    cases op with
    | join input => cases hop
    | _ => cases hc
  | some state =>
    refine ⟨state,rfl,?_⟩
    have hinv := h state rfl
    cases op with
    | message ctx inp msg => exact hinv.message_names hc
    | join input => cases hop
    | disconnect roomId userId activeUsers now =>
      rw [(handleSocketDisconnect_eq_some hc).2]
      exact offline_names state roomId userId now
    | abortJoin roomId userId now =>
      rw [abortJoinAfterCommit_eq_some hc]
      exact offline_names state roomId userId now
    | cleanup activeConnections newOwnerId now =>
      have hrepaired : RosterInv (sweepBase env activeConnections newOwnerId now state) :=
        (hinv.repair now newOwnerId).reconcile activeConnections now
      have hmoved := @RosterInv.transfer_names env _ hrepaired now .cleanup
      rw [cleanupInactiveRoom_eq_some hc]
      exact fun userId hn => hinv.repair_names now newOwnerId userId
        (NamesOnly.of_derives (reconcile_seats activeConnections now _) rfl userId
          (hmoved userId hn))
    | prune userId now =>
      have hremoved : RosterInv { state with participants := state.participants.erase userId } :=
        hinv.of_seats (.erase _ userId SameSeat.refl) rfl
      have hmoved := @RosterInv.transfer_names env _ hremoved now .prune
      have hless : NamesOnly state
          { state with participants := state.participants.erase userId } :=
        .of_derives (.erase _ userId SameSeat.refl) rfl
      rw [(removeDisconnectedParticipant_eq_some hc).2]
      exact fun other hn => hless other (hmoved other hn)
    | pruneFallback now =>
      have hremoved : RosterInv (pruneOfflineParticipants state now) :=
        hinv.of_seats (.foldl_erase _ SameSeat.refl SameSeat.trans _) rfl
      have hmoved := @RosterInv.transfer_names env _ hremoved now .prune
      have hless : NamesOnly state (pruneOfflineParticipants state now) :=
        .of_derives (.foldl_erase _ SameSeat.refl SameSeat.trans _) rfl
      rw [pruneByDisconnectedAtFallback_eq_some hc]
      exact fun other hn => hless other (hmoved other hn)
    | reresolve itemId now =>
      rw [(reresolveRemotePlaylistItem_eq_some hc).2]
      exact fun _ => id
    | settleResolve itemId outcome retryUntilPresent now =>
      rcases commitResolvingItem_eq_some hc with rfl | ⟨-,rfl⟩
      · exact fun _ => id
      · exact fun _ => id

end Names

section System

variable {N S W : Type*} [DecidableEq N] [DecidableEq S] [DecidableEq W]

/-- The claim has said yes, and the room is still to be written. -/
def AcceptedFor (k : ClusterSocket) (target : Membership) : Prop :=
  k.joining? = some target ∧ (k.phase = .migrating ∨ k.phase = .writing)

/-- A deletion that finds no join between its claim and its room write. -/
def keepsIdentities (c : Cluster N S W) : ClusterEvent N S W → Prop
  | .destroy d _ =>
    match c.destroyers d with
    | .deleting roomId => ∀ s, (c.sockets s).phase = .writing →
        ((c.sockets s).joining?.all fun target => target.1 != roomId) = true
    | _ => True
  | _ => True

def carefulIdentity (env : Env) (sha256 : String → String) (home : S → N) :
    TransitionSystem (Cluster N S W) (ClusterEvent N S W) :=
  (clusterSystem env sha256 home).restrict keepsIdentities

end System

section Secrets

variable {sha256 : String → String} {secret other : String}

theorem isHashedIdentitySecret_hash : isHashedIdentitySecret (hashIdentitySecret sha256 secret) = true := by
  simp [isHashedIdentitySecret,hashIdentitySecret,String.toList_append]

theorem secretsMatch_hash :
    secretsMatch sha256 (hashIdentitySecret sha256 secret) other = true ↔
      hashIdentitySecret sha256 secret = hashIdentitySecret sha256 other := by
  rw [secretsMatch,isHashedIdentitySecret_hash,if_pos rfl,beq_iff_eq]

theorem hashIdentitySecret_inj :
    hashIdentitySecret sha256 secret = hashIdentitySecret sha256 other ↔
      sha256 secret = sha256 other := by
  constructor
  · intro h
    have hlist := congrArg String.toList h
    simp only [hashIdentitySecret,String.toList_append,List.append_cancel_left_eq] at hlist
    exact String.toList_inj.mp hlist
  · exact congrArg _

end Secrets

section Invariant

variable {N S W : Type*} [DecidableEq N] [DecidableEq S] [DecidableEq W]
variable {env : Env} {sha256 : String → String} {home : S → N} {c c' : Cluster N S W}

/-- Each user id that a stored room names was seated with a secret whose hash is its entry. -/
structure IdentityInv (sha256 : String → String) (c : Cluster N S W) : Prop where
  phaseOk : ∀ s, PhaseOk (c.sockets s)
  roster : ∀ roomId state, c.rooms.get? roomId = some state → RosterInv state
  bound : ∀ roomId state userId, c.rooms.get? roomId = some state → state.Names userId →
    ∃ secret, c.joinedWith (roomId,userId) = some secret ∧
      c.identities roomId userId = some (hashIdentitySecret sha256 secret)
  claimed : ∀ s target, (c.sockets s).joining? = some target → (c.sockets s).phase = .writing →
    c.identities target.1 target.2 = some (hashIdentitySecret sha256 (c.sockets s).secret)
  hashed : ∀ roomId userId value, c.identities roomId userId = some value →
    ∃ secret, value = hashIdentitySecret sha256 secret
  migrated : ∀ s target, (c.sockets s).joining? = some target → (c.sockets s).phase ≠ .migrating

omit [DecidableEq N] [DecidableEq W] in
theorem IdentityInv.of_socket (h : IdentityInv sha256 c) {s : S} {k' : ClusterSocket}
    (hsockets : c'.sockets = Function.update c.sockets s k') (hrooms : c'.rooms = c.rooms)
    (hids : c'.identities = c.identities) (hwith : c'.joinedWith = c.joinedWith)
    (hphase : PhaseOk k')
    (hclaimed : ∀ target, k'.joining? = some target → k'.phase = .writing →
      c.identities target.1 target.2 = some (hashIdentitySecret sha256 k'.secret))
    (hmigrated : ∀ target, k'.joining? = some target → k'.phase ≠ .migrating) :
    IdentityInv sha256 c' := by
  constructor
  · intro t
    by_cases ht : t = s
    · subst ht
      rw [hsockets,Function.update_self]
      exact hphase
    · rw [hsockets,Function.update_of_ne ht]
      exact h.phaseOk t
  · intro roomId state hroom
    exact h.roster roomId state (hrooms ▸ hroom)
  · intro roomId state userId hroom
    rw [hwith,hids]
    exact h.bound roomId state userId (hrooms ▸ hroom)
  · intro t target
    rw [hids]
    by_cases ht : t = s
    · subst ht
      rw [hsockets,Function.update_self]
      exact hclaimed target
    · rw [hsockets,Function.update_of_ne ht]
      exact h.claimed t target
  · intro roomId userId value
    rw [hids]
    exact h.hashed roomId userId value
  · intro t target
    by_cases ht : t = s
    · subst ht
      rw [hsockets,Function.update_self]
      exact hmigrated target
    · rw [hsockets,Function.update_of_ne ht]
      exact h.migrated t target

omit [DecidableEq N] [DecidableEq W] in
theorem IdentityInv.claim (h : IdentityInv sha256 c) {s : S} {target : Membership}
    (hjoining : (c.sockets s).joining? = some target)
    (hnone : c.identities target.1 target.2 = none) :
    IdentityInv sha256 ((c.setIdentity target
      (hashIdentitySecret sha256 (c.sockets s).secret)).setSocket s
        { c.sockets s with phase := .writing }) := by
  have hids : ∀ roomId userId,
      ((c.setIdentity target (hashIdentitySecret sha256 (c.sockets s).secret)).setSocket s
        { c.sockets s with phase := .writing }).identities roomId userId =
      if roomId = target.1 ∧ userId = target.2 then
        some (hashIdentitySecret sha256 (c.sockets s).secret) else c.identities roomId userId :=
    identities_setIdentity c target _
  obtain ⟨tracked,hstage⟩ := ClusterSocket.joining?_eq_some.mp hjoining
  constructor
  · intro t
    by_cases ht : t = s
    · subst ht
      simp only [Cluster.setSocket,Function.update_self,PhaseOk,hstage]
    · simp only [Cluster.setSocket,Function.update_of_ne ht]
      exact h.phaseOk t
  · exact h.roster
  · intro roomId state userId hroom hn
    obtain ⟨secret,hwith,hentry⟩ := h.bound roomId state userId hroom hn
    refine ⟨secret,hwith,?_⟩
    rw [hids,if_neg ?_]
    · exact hentry
    · rintro ⟨rfl,rfl⟩
      rw [hnone] at hentry
      cases hentry
  · intro t goal
    rw [hids]
    by_cases ht : t = s
    · subst ht
      simp only [Cluster.setSocket,Function.update_self]
      intro hgoal _
      have he : target = goal := Option.some.inj (hjoining.symm.trans hgoal)
      rw [if_pos ⟨by rw [he],by rw [he]⟩]
    · simp only [Cluster.setSocket,Function.update_of_ne ht]
      intro hgoal hphase
      have hentry := h.claimed t goal hgoal hphase
      rw [if_neg ?_]
      · exact hentry
      · rintro ⟨hr,hu⟩
        rw [hr,hu,hnone] at hentry
        cases hentry
  · intro roomId userId value
    rw [hids]
    split
    · intro hvalue
      exact ⟨(c.sockets s).secret,(Option.some.inj hvalue).symm⟩
    · exact h.hashed roomId userId value
  · intro t goal
    by_cases ht : t = s
    · subst ht
      simp [Cluster.setSocket]
    · simp only [Cluster.setSocket,Function.update_of_ne ht]
      exact h.migrated t goal

omit [DecidableEq N] [DecidableEq W] in
theorem IdentityInv.write (h : IdentityInv sha256 c) {s : S} {target : Membership}
    {input : JoinInput} {next : RoomState} {version : ℕ}
    (hjoining : (c.sockets s).joining? = some target) (hphase : (c.sockets s).phase = .writing)
    (huser : input.userId = target.2)
    (hf : (RoomOp.join input).Fresh (c.rooms.get? target.1))
    (hc : commitJoinMembership env input (c.rooms.get? target.1) = some next) :
    IdentityInv sha256 { c.setSocket s { c.sockets s with
        phase := .written, admittedVersion := version } with
      rooms := c.rooms.set target.1 next
      joinedWith := Function.update c.joinedWith target (some (c.sockets s).secret) } := by
  have hentry := h.claimed s target hjoining hphase
  have hroster := (RosterInv.join hf (h.roster target.1) hc).1
  obtain ⟨tracked,hstage⟩ := ClusterSocket.joining?_eq_some.mp hjoining
  constructor
  · intro t
    by_cases ht : t = s
    · subst ht
      simp only [Cluster.setSocket,Function.update_self,PhaseOk,hstage]
    · simp only [Cluster.setSocket,Function.update_of_ne ht]
      exact h.phaseOk t
  · intro roomId state hroom
    simp only [Record.get?_set] at hroom
    split at hroom
    · cases hroom
      exact hroster
    · exact h.roster roomId state hroom
  · intro roomId state userId hroom hn
    by_cases he : (roomId,userId) = target
    · refine ⟨(c.sockets s).secret,?_,?_⟩
      · simp only [he,Function.update_self]
      · subst he
        exact hentry
    · simp only [Record.get?_set] at hroom
      dsimp only
      rw [Function.update_of_ne he]
      split at hroom
      · rename_i hr
        cases hroom
        subst hr
        -- Everybody but the joiner was in the room before.
        rcases join_names hf (h.roster target.1) hc hn with hjoiner | ⟨found,hfound,hwas⟩
        · have hsame : (target.1,userId) = target := by rw [hjoiner,huser]
          exact absurd hsame he
        · exact h.bound target.1 found userId hfound hwas
      · exact h.bound roomId state userId hroom hn
  · intro t goal
    by_cases ht : t = s
    · subst ht
      simp [Cluster.setSocket]
    · simp only [Cluster.setSocket,Function.update_of_ne ht]
      exact h.claimed t goal
  · exact h.hashed
  · intro t goal
    by_cases ht : t = s
    · subst ht
      simp [Cluster.setSocket]
    · simp only [Cluster.setSocket,Function.update_of_ne ht]
      exact h.migrated t goal

omit [DecidableEq N] [DecidableEq S] [DecidableEq W] in
theorem deleteRoom_identityInv (h : IdentityInv sha256 c) {roomId : String}
    (hwritten : ∀ s, (c.sockets s).phase = .writing →
      ((c.sockets s).joining?.all fun target => target.1 != roomId) = true) :
    IdentityInv sha256 (deleteRoom c roomId) := by
  have hroom : ∀ r state, (deleteRoom c roomId).rooms.get? r = some state →
      r ≠ roomId ∧ c.rooms.get? r = some state := by
    intro r state hget
    simp only [deleteRoom,Record.get?_erase] at hget
    split at hget
    · cases hget
    · rename_i hne
      exact ⟨hne,hget⟩
  constructor
  · exact h.phaseOk
  · intro r state hget
    exact h.roster r state (hroom r state hget).2
  · intro r state userId hget hn
    obtain ⟨hne,hget⟩ := hroom r state hget
    simp only [deleteRoom,Function.update_of_ne hne,if_neg hne]
    exact h.bound r state userId hget hn
  · intro s target hjoining hphase
    have hall := hwritten s hphase
    have hbefore : (c.sockets s).joining? = some target := hjoining
    rw [hbefore] at hall
    have hne : target.1 ≠ roomId := bne_iff_ne.mp hall
    simp only [deleteRoom,Function.update_of_ne hne]
    exact h.claimed s target hjoining hphase
  · intro r userId value
    simp only [deleteRoom]
    by_cases hr : r = roomId
    · subst hr
      rw [Function.update_self]
      intro hnone
      cases hnone
    · rw [Function.update_of_ne hr]
      exact h.hashed r userId value
  · exact h.migrated

theorem step_identityInv (h : IdentityInv sha256 c) {event : ClusterEvent N S W}
    (hcareful : keepsIdentities c event) (hs : stepCluster env sha256 home c event = some c') :
    IdentityInv sha256 c' := by
  cases event with
  | join s target secret =>
    obtain ⟨-,rfl⟩ := join_cases hs
    exact h.of_socket rfl rfl rfl rfl rfl (fun _ hj => by cases hj) fun _ hj => by cases hj
  | socket s event =>
    obtain ⟨hplain,k',change,destroyers,hstep,rfl⟩ := socket_cases hs
    obtain ⟨hok,hphase,hsecret,-,hlead⟩ := plain_phase (h.phaseOk s) hstep hplain
    refine h.of_socket rfl rfl rfl rfl hok (fun target hj hw => ?_) fun target hj hm => ?_
    · rcases hlead target hj with hclaiming | hbefore
      · rw [hclaiming] at hw
        cases hw
      · rw [hsecret]
        exact h.claimed s target hbefore (hphase ▸ hw)
    · rcases hlead target hj with hclaiming | hbefore
      · rw [hclaiming] at hm
        cases hm
      · exact h.migrated s target hbefore (hphase ▸ hm)
  | claim s =>
    obtain ⟨target,hjoining,-,⟨hnone,rfl⟩ | rfl⟩ := claim_cases hs
    · exact h.claim hjoining hnone
    · obtain ⟨tracked,hstage⟩ := ClusterSocket.joining?_eq_some.mp hjoining
      refine h.of_socket rfl rfl rfl rfl ?_ (fun _ _ hw => by cases hw) fun _ _ hm => by cases hm
      simp only [PhaseOk,hstage]
  | verify s =>
    obtain ⟨target,hjoining,-,rfl | ⟨stored,hstored,hmatch,rfl⟩⟩ := verify_cases hs
    · exact h.of_socket rfl rfl rfl rfl trivial (fun _ hj => by cases hj) fun _ hj => by cases hj
    · obtain ⟨tracked,hstage⟩ := ClusterSocket.joining?_eq_some.mp hjoining
      obtain ⟨secret,rfl⟩ := h.hashed target.1 target.2 stored hstored
      rw [isHashedIdentitySecret_hash,if_pos rfl]
      refine h.of_socket rfl rfl rfl rfl ?_ (fun goal hj _ => ?_) fun _ _ hm => by cases hm
      · simp only [PhaseOk,hstage]
      · have he : target = goal := Option.some.inj (hjoining.symm.trans hj)
        rw [← he,hstored,secretsMatch_hash.mp hmatch]
  | migrate s =>
    obtain ⟨target,hjoining,hphase,-⟩ := migrate_cases hs
    exact absurd hphase (h.migrated s target hjoining)
  | write s input =>
    obtain ⟨target,hjoining,hphase,rfl | ⟨next,huser,hf,hc,rfl⟩⟩ := write_cases hs
    · exact h.of_socket rfl rfl rfl rfl trivial (fun _ hj => by cases hj) fun _ hj => by cases hj
    · exact h.write hjoining hphase huser hf hc
  | destroy d draining =>
    obtain ⟨next,stage,hstep,rfl⟩ := destroy_cases hs
    rcases stepDestroy_cases hstep with ⟨emptyAt,rfl⟩ | ⟨roomId,hstage,rfl⟩
    · exact ⟨h.phaseOk,h.roster,h.bound,h.claimed,h.hashed,h.migrated⟩
    · simp only [keepsIdentities,hstage] at hcareful
      have hdeleted := deleteRoom_identityInv h hcareful
      exact ⟨hdeleted.phaseOk,hdeleted.roster,hdeleted.bound,hdeleted.claimed,hdeleted.hashed,
        hdeleted.migrated⟩
  | op roomId op =>
    obtain ⟨hop,hf,next,hc,rfl⟩ := op_cases hs
    have hinv := (RosterInv.step (h.roster roomId) hf hc).1
    obtain ⟨found,hfound,hnames⟩ := commit_names hop (h.roster roomId) hc
    refine ⟨h.phaseOk,?_,?_,h.claimed,h.hashed,h.migrated⟩
    · intro r state hroom
      simp only [Record.get?_set] at hroom
      split at hroom
      · cases hroom
        exact hinv
      · exact h.roster r state hroom
    · intro r state userId hroom hn
      simp only [Record.get?_set] at hroom
      split at hroom
      · rename_i hr
        cases hroom
        subst hr
        exact h.bound r found userId hfound (hnames userId hn)
      · exact h.bound r state userId hroom hn
  | evict n k =>
    obtain ⟨e,-,rfl⟩ := evict_cases hs
    have hsame : ∀ s, ((if home s = n ∧ isEvicted e (c.sockets s) then (c.sockets s).evict
          else c.sockets s).base.stage = (c.sockets s).base.stage) ∧
        (if home s = n ∧ isEvicted e (c.sockets s) then (c.sockets s).evict
          else c.sockets s).phase = (c.sockets s).phase ∧
        (if home s = n ∧ isEvicted e (c.sockets s) then (c.sockets s).evict
          else c.sockets s).secret = (c.sockets s).secret := by
      intro s
      unfold ClusterSocket.evict
      split
      · split <;> exact ⟨rfl,rfl,rfl⟩
      · exact ⟨rfl,rfl,rfl⟩
    refine ⟨fun s => ?_,h.roster,h.bound,fun s target => ?_,h.hashed,fun s target => ?_⟩
    · obtain ⟨hstage,hphase,-⟩ := hsame s
      simpa only [PhaseOk,hstage,hphase] using h.phaseOk s
    · obtain ⟨hstage,hphase,hsecret⟩ := hsame s
      simp only [ClusterSocket.joining?,hstage,hphase,hsecret]
      exact h.claimed s target
    · obtain ⟨hstage,hphase,-⟩ := hsame s
      simp only [ClusterSocket.joining?,hstage,hphase]
      exact h.migrated s target
  | clearMarker | startSweep | tick =>
    obtain ⟨hrooms,hids,-,-,hwith,hsockets⟩ := other_cases hs (by simp)
    have hsame : ∀ t, (c'.sockets t).base = (c.sockets t).base ∧
        (c'.sockets t).phase = (c.sockets t).phase ∧
        (c'.sockets t).secret = (c.sockets t).secret := by
      intro t
      obtain ⟨clearing,ht⟩ := hsockets t
      rw [ht]
      exact ⟨rfl,rfl,rfl⟩
    refine ⟨fun t => ?_,?_,?_,fun t target => ?_,?_,fun t target => ?_⟩
    · obtain ⟨hbase,hphase,-⟩ := hsame t
      simpa only [PhaseOk,hbase,hphase] using h.phaseOk t
    · rw [hrooms]
      exact h.roster
    · rw [hrooms,hids,hwith]
      exact h.bound
    · obtain ⟨hbase,hphase,hsecret⟩ := hsame t
      simp only [ClusterSocket.joining?,hbase,hphase,hsecret,hids]
      exact h.claimed t target
    · rw [hids]
      exact h.hashed
    · obtain ⟨hbase,hphase,-⟩ := hsame t
      simp only [ClusterSocket.joining?,hbase,hphase]
      exact h.migrated t target

theorem identityInv_of_careful (h : (carefulIdentity env sha256 home).Reachable c) :
    IdentityInv sha256 c := by
  apply Reachable.invariant (T := carefulIdentity env sha256 home) (IdentityInv sha256) _ _ h
  · rintro c ⟨now,rfl⟩
    constructor
    · exact fun s => trivial
    · exact fun roomId state hroom => by cases hroom
    · exact fun roomId state userId hroom => by cases hroom
    · exact fun s target hjoining => by cases hjoining
    · exact fun roomId userId value hvalue => by cases hvalue
    · exact fun s target hjoining => by cases hjoining
  · intro c event c' _ hinv hstep
    exact step_identityInv hinv hstep.1 hstep.2

/-- In every careful run each participant of a stored room has an identity entry, and no join
is accepted for a user id that the room names unless its secret has the hash of the one that
this user was seated with. -/
theorem identity_binding (h : (carefulIdentity env sha256 home).Reachable c) {roomId : String}
    {state : RoomState} (hroom : c.rooms.get? roomId = some state) :
    (∀ userId p, state.participants.get? userId = some p →
      c.identities roomId userId ≠ none) ∧
    ∀ userId, state.Names userId → ∃ secret, c.joinedWith (roomId,userId) = some secret ∧
      ∀ s, AcceptedFor (c.sockets s) (roomId,userId) →
        sha256 (c.sockets s).secret = sha256 secret := by
  have hinv := identityInv_of_careful h
  constructor
  · intro userId p hp
    obtain ⟨secret,-,hentry⟩ := hinv.bound roomId state userId hroom (Or.inl ⟨p,hp⟩)
    rw [hentry]
    exact Option.some_ne_none _
  · intro userId hn
    obtain ⟨secret,hwith,hentry⟩ := hinv.bound roomId state userId hroom hn
    refine ⟨secret,hwith,fun s hs => ?_⟩
    obtain ⟨hjoining,hmigrating | hwriting⟩ := hs
    · exact absurd hmigrating (hinv.migrated s _ hjoining)
    · have hclaimed := hinv.claimed s _ hjoining hwriting
      exact hashIdentitySecret_inj.mp (Option.some.inj (hclaimed.symm.trans hentry))

end Invariant

section Scenario

instance {N S W : Type*} [Fintype S] (c : Cluster N S W) (event : ClusterEvent N S W) :
    Decidable (keepsIdentities c event) :=
  match event with
  | .destroy d _ => decidable_of_iff _ (forall_deleting_iff (c.destroyers d) _)
  | .socket _ _ | .join _ _ _ | .claim _ | .verify _ | .migrate _ | .write _ _ | .clearMarker _
  | .startSweep _ _ | .op _ _ | .evict _ _ | .tick _ => inferInstanceAs (Decidable True)

/-- Eve sits in the room, and another of her sockets is let in. -/
def seatedAndBack : List (ClusterEvent Unit ScenarioSocket Unit) :=
  joinUpToClaim .second "eve" "secret" ++ joinFromWrite .second "eve" 1000 ++
    joinUpToClaim .third "eve" "secret" ++ [.verify .third]

/-- The room that a sweep is about to delete is claimed by Eve, deleted, and written by her. -/
def claimDeleteWrite : List (ClusterEvent Unit ScenarioSocket Unit) :=
  untilDelete .first () ++ joinUpToClaim .second "eve" "secret" ++
    [.destroy (.inr ()) false] ++ joinFromWrite .second "eve" 16000

theorem identity_binding_of_second_socket : ∃ (c : Cluster Unit ScenarioSocket Unit) (state : RoomState),
    (carefulIdentity scenarioEnv id fun _ => ()).Reachable c ∧
    c.rooms.get? "room" = some state ∧ state.Names "eve" ∧
    AcceptedFor (c.sockets .third) ("room","eve") ∧ c.identities "room" "eve" ≠ none ∧
    c.joinedWith ("room","eve") = some (c.sockets .third).secret := by
  have hrun : ((runSteps (guardStep (stepCluster scenarioEnv id fun _ => ()) keepsIdentities)
      (clusterStart 1000) seatedAndBack).any fun c =>
        (c.rooms.get? "room").any (fun state => (state.participants.get? "eve").isSome) &&
        decide ((c.sockets .third).joining? = some ("room","eve")) &&
        decide ((c.sockets .third).phase = .writing)) = true := by
    decide +kernel
  obtain ⟨c,hc,hfacts⟩ := (Option.any_eq_true _ _).mp hrun
  simp only [Bool.and_eq_true,decide_eq_true_eq] at hfacts
  obtain ⟨⟨hseated,hjoining⟩,hphase⟩ := hfacts
  obtain ⟨state,hroom,hp⟩ := (Option.any_eq_true _ _).mp hseated
  obtain ⟨p,hp⟩ := Option.isSome_iff_exists.mp hp
  have hr : (carefulIdentity scenarioEnv id fun _ => ()).Reachable c :=
    .of_guardSteps (fun _ _ _ => id) _ (.init ⟨1000,rfl⟩) hc
  obtain ⟨hentry,hbound⟩ := identity_binding hr hroom
  obtain ⟨secret,hwith,haccepted⟩ := hbound "eve" (Or.inl ⟨p,hp⟩)
  have hin : AcceptedFor (c.sockets .third) ("room","eve") := ⟨hjoining,Or.inr hphase⟩
  refine ⟨c,state,hr,hroom,Or.inl ⟨p,hp⟩,hin,hentry "eve" p hp,?_⟩
  rw [hwith]
  exact congrArg some (haccepted .third hin).symm

/-- Her entry went with the old room: she is the owner without one, and whoever comes next
takes her user id with another secret. -/
theorem delete_overtakes_claim : ∃ (c c' : Cluster Unit ScenarioSocket Unit) (state : RoomState),
    (clusterSystem scenarioEnv id fun _ => ()).Reachable c ∧
    c.rooms.get? "room" = some state ∧ (state.participants.get? "eve").isSome = true ∧
    state.ownerId = "eve" ∧ c.joinedWith ("room","eve") = some "secret" ∧
    c.identities "room" "eve" = none ∧
    (clusterSystem scenarioEnv id fun _ => ()).step c (.claim .third) c' ∧
    AcceptedFor (c'.sockets .third) ("room","eve") ∧ (c'.sockets .third).secret = "other" := by
  have hrun : ((runSteps (stepCluster scenarioEnv id fun _ => ()) (clusterStart 1000)
      (claimDeleteWrite ++ [.join .third ("room","eve") "other",.socket .third (.admission true)])).any
        fun c => (c.rooms.get? "room").any (fun state =>
            (state.participants.get? "eve").isSome && decide (state.ownerId = "eve")) &&
          decide (c.joinedWith ("room","eve") = some "secret") &&
          (c.identities "room" "eve").isNone &&
          (stepCluster scenarioEnv id (fun _ => ()) c (.claim .third)).any fun c' =>
            decide ((c'.sockets .third).joining? = some ("room","eve")) &&
            decide ((c'.sockets .third).phase = .writing) &&
            decide ((c'.sockets .third).secret = "other")) = true := by
    decide +kernel
  obtain ⟨c,hc,hfacts⟩ := (Option.any_eq_true _ _).mp hrun
  simp only [Bool.and_eq_true,decide_eq_true_eq,Option.isNone_iff_eq_none] at hfacts
  obtain ⟨⟨⟨hroom,hwith⟩,hnone⟩,hstep⟩ := hfacts
  obtain ⟨state,hget,hstate⟩ := (Option.any_eq_true _ _).mp hroom
  simp only [Bool.and_eq_true,decide_eq_true_eq] at hstate
  obtain ⟨c',hc',haccepted⟩ := (Option.any_eq_true _ _).mp hstep
  simp only [Bool.and_eq_true,decide_eq_true_eq] at haccepted
  obtain ⟨⟨hjoining,hphase⟩,hsecret⟩ := haccepted
  exact ⟨c,c',state,.of_runSteps (fun _ _ _ => id) _ (.init ⟨1000,rfl⟩) hc,hget,hstate.1,hstate.2,
    hwith,hnone,hc',⟨hjoining,Or.inr hphase⟩,hsecret⟩

end Scenario

end WebSyncPlay
