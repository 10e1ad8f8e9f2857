import WebSyncPlay.OwnershipInvariant

/-! The grace of an owner who went offline: which operations move the ownership within
it, and that no other one does. -/
namespace WebSyncPlay

open Library

/-- Less than the prune time has passed since the participant went offline. -/
def inGrace (p : ParticipantState) (now : ℕ) : Bool :=
  p.disconnectedAt.any fun disconnectedAt => decide (now < disconnectedAt+participantPruneMs)

/-- An owner who is in the roster and online, or within grace. -/
def ownerHeld (state : RoomState) (participants : Record UserId ParticipantState) (now : ℕ) :
    Bool :=
  (participants.get? state.ownerId).any fun p => p.connected || inGrace p now

def someOther (state : RoomState) (participants : Record UserId ParticipantState)
    (test : UserId → Bool) : Bool :=
  participants.keys.any fun userId => userId != state.ownerId && test userId

/-- The runs of an operation that leave a held owner in place: a sweep that reads the
owner as present, or nobody else; a prune of another participant while the owner is
online, or alone. -/
def RoomOp.leavesHeldOwner (env : Env) : RoomOp → RoomState → Bool
  | .cleanup activeConnections _ now, state =>
    let kept := (repairParticipants env now state.participants).1
    !(ownerHeld state kept now && !decide (state.ownerId ∈ activeConnections) &&
      someOther state kept fun userId => decide (userId ∈ activeConnections))
  | .prune userId now, state =>
    let kept := state.participants.erase userId
    !(ownerHeld state kept now && (kept.get? state.ownerId).any (fun p => !p.connected) &&
      someOther state kept fun _ => true)
  | .pruneFallback now, state =>
    let kept := (pruneOfflineParticipants state now).participants
    !(ownerHeld state kept now && (kept.get? state.ownerId).any (fun p => !p.connected) &&
      someOther state kept fun _ => true)
  | _, _ => true

section Grace

variable {env : Env} {state next : RoomState}

theorem reconcileParticipant_disconnectedAt {active : Finset UserId} {p : ParticipantState}
    (now : ℕ) (hc : p.connected = false) (ha : p.userId ∉ active) :
    (reconcileParticipant active now p).disconnectedAt = p.disconnectedAt := by
  simp [reconcileParticipant,hc,ha]

theorem transferredRole_frame (nextId previous userId : UserId) (p : ParticipantState) :
    (transferredRole nextId previous userId p).connected = p.connected ∧
      (transferredRole nextId previous userId p).disconnectedAt = p.disconnectedAt := by
  unfold transferredRole
  split
  · exact ⟨rfl,rfl⟩
  · split <;> exact ⟨rfl,rfl⟩

theorem mem_keys_of_get? {ps : Record UserId ParticipantState} {userId : UserId}
    {p : ParticipantState} (h : ps.get? userId = some p) : userId ∈ ps.keys :=
  (Record.mem_keys_iff _ _).mpr ⟨p,h⟩

/-- What a transfer away from a present owner says: the owner was offline, somebody
else was there, and the owner's entry keeps its stamps. -/
theorem transfer_away (env : Env) (h : RosterInv state) (now : ℕ) (reason : TransferReason)
    {p' : ParticipantState}
    (hmoved : (transferOwnershipIfNeeded env now state reason).1.ownerId ≠ state.ownerId)
    (hp' : (transferOwnershipIfNeeded env now state reason).1.participants.get? state.ownerId =
      some p') :
    ∃ owner key other, state.participants.get? state.ownerId = some owner ∧
      reason ≠ .join ∧ owner.connected = false ∧ p'.connected = false ∧
      p'.disconnectedAt = owner.disconnectedAt ∧ key ≠ state.ownerId ∧
      state.participants.get? key = some other ∧ (reason ≠ .prune → other.connected = true) := by
  rcases h.transfer_cases env now reason with
    ⟨he,-⟩ | ⟨key,other,hkeeps,hother,hconn,hid,hps⟩
  · exact absurd (by rw [he]) hmoved
  · rw [hps] at hp'
    obtain ⟨owner,howner,rfl⟩ := Option.map_eq_some_iff.mp hp'
    obtain ⟨hframe,hstamp⟩ := transferredRole_frame key state.ownerId state.ownerId owner
    rw [howner] at hkeeps
    have hoffline : reason ≠ .join ∧ owner.connected = false := by
      cases reason with
      | disconnect => cases hkeeps
      | join => cases hkeeps
      | cleanup => exact ⟨by decide,hkeeps⟩
      | prune => exact ⟨by decide,hkeeps⟩
    exact ⟨owner,key,other,howner,hoffline.1,hoffline.2,hframe.trans hoffline.2,hstamp,
      fun he => hmoved (hid.trans he),hother,hconn⟩

theorem inGrace_congr {p p' : ParticipantState} (h : p'.disconnectedAt = p.disconnectedAt)
    (now : ℕ) : inGrace p' now = inGrace p now := by
  rw [inGrace,h,inGrace]

theorem someOther_of_get? (test : UserId → Bool) {participants : Record UserId ParticipantState}
    {key : UserId} {p : ParticipantState} (hget : participants.get? key = some p)
    (hne : key ≠ state.ownerId) (htest : test key = true) :
    someOther state participants test = true := by
  unfold someOther
  rw [List.any_eq_true]
  exact ⟨key,mem_keys_of_get? hget,by simp [hne,htest]⟩

theorem ownerHeld_of_get? {participants : Record UserId ParticipantState} {p : ParticipantState}
    (hget : participants.get? state.ownerId = some p) (now : ℕ) :
    ownerHeld state participants now = (p.connected || inGrace p now) := by
  rw [ownerHeld,hget]
  rfl

theorem RosterEffect.ownerId {ctx : RoomMessageContext} {participant : ParticipantState}
    {msg : RoomMessage} (he : RosterEffect ctx state participant msg next) :
    next.ownerId = state.ownerId := by
  cases he with
  | same hsame => exact hsame.ownerId
  | prune _ _ _ ho => exact ho
  | prefer _ _ _ _ _ _ _ ho => exact ho
  | profile _ _ _ ho => exact ho
  | role _ _ _ _ _ _ _ ho => exact ho
  | security _ _ ho => exact ho

theorem processRoomMessage_ownerId (h : RosterInv state) {ctx : RoomMessageContext}
    {inp : MessageInputs} {msg : RoomMessage}
    (hc : processRoomMessage env ctx inp msg state = some next) :
    next.ownerId = state.ownerId := by
  rcases processRoomMessage_cases hc with ⟨itemId,-,hr⟩ | ⟨p,mutated,hint,hp,he,rfl⟩
  · rw [(reresolveRemotePlaylistItem_eq_some hr).2]
    rfl
  · have howner := he.roster.ownerId
    have hne : mutated.ownerId ≠ "" := howner ▸ h.ownerId_ne
    have hfinish : (finishRoomMessage env ctx.userId inp.newOwnerId inp.now hint mutated).ownerId =
        if mutated.ownerId = "" then inp.newOwnerId else mutated.ownerId := rfl
    rw [hfinish,if_neg hne,howner]
    rfl

/-- A sweep that moves the ownership off an owner in the roster and yet leaves a held
owner in place found the owner long gone. -/
theorem sweep_grace (h : RosterInv state) {activeConnections : Finset UserId}
    {newOwnerId : UserId} {now : ℕ} {p' : ParticipantState}
    (hg : (RoomOp.cleanup activeConnections newOwnerId now).leavesHeldOwner env state = true)
    (hc : cleanupInactiveRoom env activeConnections newOwnerId now state = some next)
    (hmoved : next.ownerId ≠ state.ownerId)
    (hp' : next.participants.get? state.ownerId = some p') :
    p'.connected = false ∧ inGrace p' now = false := by
  have hrepaired : RosterInv (applyRoomStateRepair env now newOwnerId state) :=
    h.repair now newOwnerId
  have hbase : RosterInv (sweepBase env activeConnections newOwnerId now state) :=
    hrepaired.reconcile activeConnections now
  have hid : (sweepBase env activeConnections newOwnerId now state).ownerId = state.ownerId :=
    if_neg h.ownerId_ne
  have hget : ∀ userId,
      (sweepBase env activeConnections newOwnerId now state).participants.get? userId =
        ((repairParticipants env now state.participants).1.get? userId).map
          (reconcileParticipant activeConnections now) :=
    fun userId => Record.get?_mapValues _ _ _
  rw [cleanupInactiveRoom_eq_some hc] at hmoved hp'
  obtain ⟨owner,key,other,howner,-,hoff,hoff',hstamp,hne,hother,hconn⟩ :=
    transfer_away env hbase now .cleanup (by rw [hid]; exact hmoved) (by rw [hid]; exact hp')
  rw [hid] at howner hne
  rw [hget] at howner hother
  obtain ⟨r,hr,rfl⟩ := Option.map_eq_some_iff.mp howner
  obtain ⟨r2,hr2,rfl⟩ := Option.map_eq_some_iff.mp hother
  have hconn := hconn (by decide)
  rw [reconcileParticipant_connected,decide_eq_true_iff,(hrepaired.key key r2 hr2).1] at hconn
  have habsent : state.ownerId ∉ activeConnections := by
    rw [reconcileParticipant_connected,decide_eq_false_iff_not] at hoff
    rwa [(hrepaired.key state.ownerId r hr).1] at hoff
  have hsome := someOther_of_get? (fun userId => decide (userId ∈ activeConnections)) hr2 hne
    (decide_eq_true hconn)
  simp only [RoomOp.leavesHeldOwner,ownerHeld_of_get? hr,hsome,habsent,decide_false,Bool.not_false,
    Bool.and_true,Bool.not_eq_true',Bool.or_eq_false_iff] at hg
  refine ⟨hoff',?_⟩
  have hrabsent : r.userId ∉ activeConnections := by
    rwa [(hrepaired.key state.ownerId r hr).1]
  rw [inGrace_congr (hstamp.trans (reconcileParticipant_disconnectedAt now hg.1 hrabsent))]
  exact hg.2

theorem prune_grace {removed : RoomState} (h : RosterInv removed) {now : ℕ}
    {p' : ParticipantState}
    (hg : (!(ownerHeld removed removed.participants now &&
      (removed.participants.get? removed.ownerId).any (fun p => !p.connected) &&
      someOther removed removed.participants fun _ => true)) = true)
    (hmoved : (transferOwnershipIfNeeded env now removed .prune).1.ownerId ≠ removed.ownerId)
    (hp' : (transferOwnershipIfNeeded env now removed .prune).1.participants.get? removed.ownerId =
      some p') :
    p'.connected = false ∧ inGrace p' now = false := by
  obtain ⟨owner,key,other,howner,-,hoff,hoff',hstamp,hne,hother,-⟩ :=
    transfer_away env h now .prune hmoved hp'
  have hsome := someOther_of_get? (fun _ => true) hother hne rfl
  simp only [ownerHeld_of_get? howner,howner,Option.any_some,hoff,hsome,Bool.not_false,
    Bool.and_true,Bool.false_or,Bool.not_eq_true'] at hg
  exact ⟨hoff',by rw [inGrace_congr hstamp]; exact hg⟩

/-- One step: the ownership leaves a participant only once the grace is over. -/
theorem commit_grace (h : RosterInv state) {op : RoomOp} {p' : ParticipantState}
    (hf : op.Fresh (some state)) (hg : op.leavesHeldOwner env state = true)
    (hc : op.commit env (some state) = some next) (hmoved : next.ownerId ≠ state.ownerId)
    (hp' : next.participants.get? state.ownerId = some p') :
    p'.connected = false ∧ inGrace p' op.now = false := by
  cases op with
  | message ctx inp msg => exact absurd (processRoomMessage_ownerId h hc) hmoved
  | join input =>
    obtain ⟨log,generation,structuralRevision,rfl⟩ := commitJoinMembership_eq_some hc
    have hbase : RosterInv (joinBase env input (some state)) :=
      joinBase_roster hf fun s hs => by cases hs; exact h
    have hid : (seatJoiner input (joinBase env input (some state))).ownerId = state.ownerId :=
      if_neg h.ownerId_ne
    obtain ⟨-,-,-,-,hjoin,-⟩ := transfer_away env (hbase.seat hf.1) input.now .join
      (by rw [hid]; exact hmoved) (by rw [hid]; exact hp')
    exact absurd rfl hjoin
  | disconnect roomId userId activeUsers now =>
    rw [(handleSocketDisconnect_eq_some hc).2] at hmoved
    exact absurd (applyUserWentOffline_ownerId env state roomId userId now) hmoved
  | abortJoin roomId userId now =>
    rw [abortJoinAfterCommit_eq_some hc] at hmoved
    exact absurd (applyUserWentOffline_ownerId env state roomId userId now) hmoved
  | cleanup activeConnections newOwnerId now => exact sweep_grace h hg hc hmoved hp'
  | prune userId now =>
    have hremoved : RosterInv { state with participants := state.participants.erase userId } :=
      h.of_seats (.erase _ userId SameSeat.refl) rfl
    rw [(removeDisconnectedParticipant_eq_some hc).2] at hmoved hp'
    exact prune_grace hremoved hg hmoved hp'
  | pruneFallback now =>
    have hremoved : RosterInv (pruneOfflineParticipants state now) :=
      h.of_seats (.foldl_erase _ SameSeat.refl SameSeat.trans _) rfl
    rw [pruneByDisconnectedAtFallback_eq_some hc] at hmoved hp'
    exact prune_grace hremoved hg hmoved hp'
  | reresolve itemId now =>
    rw [(reresolveRemotePlaylistItem_eq_some hc).2] at hmoved
    exact absurd rfl hmoved
  | settleResolve itemId outcome retryUntilPresent now =>
    rcases commitResolvingItem_eq_some hc with rfl | ⟨-,rfl⟩
    · exact absurd rfl hmoved
    · exact absurd rfl hmoved

end Grace

/-- In every run whose operations all leave a held owner in place, the ownership moves
away from a participant who stays only when they are offline and their grace is over. -/
theorem ownership_moves_after_grace {env : Env} {room next : Option RoomState}
    {action : RoomAction}
    (hr : (guardedRoomSystem env (RoomOp.leavesHeldOwner env)).Reachable room)
    (hs : (guardedRoomSystem env (RoomOp.leavesHeldOwner env)).step room action next) :
    ∀ (state state' : RoomState) (op : RoomOp) (p' : ParticipantState), room = some state →
      next = some state' → action = .write op → state'.ownerId ≠ state.ownerId →
      state'.participants.get? state.ownerId = some p' →
      p'.connected = false ∧ inGrace p' op.now = false := by
  rintro state state' op p' rfl rfl rfl hmoved hp'
  obtain ⟨hg,hf,result,hc,hn⟩ := hs
  cases hn
  exact commit_grace (Stored.of_guarded hr).rosterInv hf hg hc hmoved hp'

theorem ownership_moves_after_a_minute : ∃ state state' p',
    (RoomOp.cleanup {"bob"} "" 63000).commit scenarioEnv (some state) = some state' ∧
      state.ownerId = "ann" ∧ state'.ownerId = "bob" ∧
      state'.participants.get? state.ownerId = some p' ∧ inGrace p' 63000 = false := by
  let sweep := RoomOp.cleanup {"bob"} "" 63000
  obtain ⟨state,hr,howner,hguard,hsweep⟩ := exists_guarded_of_runRoom scenarioEnv
    (RoomOp.leavesHeldOwner scenarioEnv)
    [joinAs "ann" 1000 {},joinAs "bob" 2000 {"ann"},.disconnect "room" "ann" {"bob"} 3000]
    (fun state => state.ownerId = "ann" ∧ sweep.leavesHeldOwner scenarioEnv state = true ∧
      ((sweep.commit scenarioEnv (some state)).any fun state' =>
        state'.ownerId == "bob" && (state'.participants.get? "ann").isSome) = true)
    (by decide +kernel)
  obtain ⟨state',hc,hstate'⟩ := (Option.any_eq_true _ _).mp hsweep
  simp only [Bool.and_eq_true,beq_iff_eq,Option.isSome_iff_exists] at hstate'
  obtain ⟨hbob,p',hp'⟩ := hstate'
  have hmoved : state'.ownerId ≠ state.ownerId := by rw [hbob,howner]; decide
  rw [← howner] at hp'
  have hstep : (guardedRoomSystem scenarioEnv (RoomOp.leavesHeldOwner scenarioEnv)).step
      (some state) (.write sweep) (some state') := ⟨hguard,trivial,state',hc,rfl⟩
  exact ⟨state,state',p',hc,howner,hbob,hp',
    (ownership_moves_after_grace hr hstep state state' sweep p' rfl rfl rfl hmoved hp').2⟩

/-- Ann goes offline at 69000; a second and a half later Bob, offline for a minute, is
pruned, and the ownership goes from Ann to Cat. -/
theorem ownership_moves_within_grace : ¬∀ (env : Env) (state state' : RoomState) (op : RoomOp)
    (p' : ParticipantState), Stored env state → op.Fresh (some state) →
      op.commit env (some state) = some state' → state'.ownerId ≠ state.ownerId →
      state'.participants.get? state.ownerId = some p' → inGrace p' op.now = false := by
  intro h
  let prune := RoomOp.prune "bob" 70500
  obtain ⟨state,hstored,howner,hprune⟩ := exists_stored_of_runRoom scenarioEnv
    [joinAs "ann" 1000 {},joinAs "bob" 2000 {"ann"},joinAs "cat" 3000 {"ann","bob"},
      .disconnect "room" "bob" {"ann","cat"} 10000,.disconnect "room" "ann" {"cat"} 69000]
    (fun state => state.ownerId = "ann" ∧
      ((prune.commit scenarioEnv (some state)).any fun state' => state'.ownerId == "cat" &&
        (state'.participants.get? "ann").any fun p' => inGrace p' 70500) = true)
    (by decide +kernel)
  obtain ⟨state',hc,hstate'⟩ := (Option.any_eq_true _ _).mp hprune
  simp only [Bool.and_eq_true,beq_iff_eq,Option.any_eq_true] at hstate'
  obtain ⟨hcat,p',hp',hgrace⟩ := hstate'
  have hmoved : state'.ownerId ≠ state.ownerId := by rw [hcat,howner]; decide
  rw [← howner] at hp'
  have hover := h scenarioEnv state state' prune p' hstored trivial hc hmoved hp'
  exact absurd (hgrace.symm.trans hover) (by decide)

end WebSyncPlay
