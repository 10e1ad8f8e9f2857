import WebSyncPlay.OwnershipInvariant

/-! How many participants a stored room has, and who is dropped from it. Repair trims the
roster in property order, before a joiner is seated and after a message's body. -/
namespace WebSyncPlay

open Library

def RoomOp.prunes : RoomOp → Bool
  | .prune .. => true
  | .pruneFallback _ => true
  | _ => false

def RoomOp.repairs : RoomOp → Bool
  | .message _ _ (.playlistRetry _) => false
  | .message .. => true
  | .join _ => true
  | .cleanup .. => true
  | _ => false

/-- A joiner is in the roster already, or finds room in it. -/
def hasPlace (env : Env) : RoomOp → RoomState → Bool
  | .join input,state =>
    decide (input.userId ∈ state.participants.keys) ||
      decide (state.participants.size < env.roomParticipantsLimit)
  | _,_ => true

section Keys

variable {env : Env} {state next : RoomState}

abbrev SameKeys (state next : RoomState) : Prop :=
  next.participants.keys = state.participants.keys

theorem repairParticipants_keys (now : ℕ) {ps : Record UserId ParticipantState}
    (hnames : ∀ userId p, ps.get? userId = some p → userId ≠ "")
    (hsize : ps.size ≤ env.roomParticipantsLimit) :
    (repairParticipants env now ps).1.keys = ps.keys := by
  have hkept : (ps.filter fun userId _ => userId != "") = ps :=
    Record.filter_eq_self ps _ fun userId p hp => bne_iff_ne.mpr (hnames userId p hp)
  simp only [repairParticipants,hkept,Record.take_of_size_le ps _ hsize,Record.keys_mapValues]

theorem applyRoomStateRepair_keys (h : RosterInv state)
    (hsize : state.participants.size ≤ env.roomParticipantsLimit) (now : ℕ) (newOwnerId : UserId) :
    SameKeys state (applyRoomStateRepair env now newOwnerId state) := by
  rw [SameKeys,applyRoomStateRepair_participants]
  exact repairParticipants_keys now (fun userId p hp => (h.key userId p hp).2) hsize

theorem transferredRoster_keys (key : UserId) (nextOwner : ParticipantState) :
    (transferredRoster state key nextOwner).keys = state.participants.keys := by
  unfold transferredRoster
  dsimp only
  split
  · split
    · rw [Record.keys_modify,Record.keys_modify]
    · rw [Record.keys_modify]
  · rw [Record.keys_modify]

theorem transferOwnershipIfNeeded_keys (env : Env) (now : ℕ) (state : RoomState)
    (reason : TransferReason) :
    SameKeys state (transferOwnershipIfNeeded env now state reason).1 := by
  rcases transferOwnershipIfNeeded_cases env now state reason with ⟨he,-⟩ | ⟨key,owner,-,-,-,-,he⟩
  · rw [he]
  · rw [SameKeys,he]
    exact transferredRoster_keys key owner

theorem RosterEffect.keys {ctx : RoomMessageContext} {participant : ParticipantState}
    {msg : RoomMessage} (h : RosterEffect ctx state participant msg next) :
    SameKeys state next := by
  cases h with
  | same h => exact congrArg Record.keys h.participants
  | prune _ _ hps => rw [SameKeys,hps,Record.keys_mapValues]
  | prefer _ _ _ _ _ hps => rw [SameKeys,hps,Record.keys_modify]
  | profile _ _ hps => rw [SameKeys,hps,Record.keys_modify]
  | role _ _ _ _ _ _ hps => rw [SameKeys,hps,Record.keys_modify]
  | security _ hps => exact congrArg Record.keys hps

theorem MessageEffect.not_retry {ctx : RoomMessageContext} {inp : MessageInputs}
    {participant : ParticipantState} {msg : RoomMessage}
    (he : MessageEffect env ctx inp state participant msg next) (itemId : ItemId) :
    msg ≠ .playlistRetry itemId := by
  rintro rfl
  cases he with
  | setPaused _ _ _ _ hmsg => rcases hmsg with h | h <;> cases h
  | loop _ _ _ _ _ hmsg => rcases hmsg with h | h <;> cases h
  | security _ _ _ _ hmsg => rcases hmsg with ⟨_,h⟩ | h | ⟨_,h⟩ <;> cases h

theorem repairs_of_not_retry {ctx : RoomMessageContext} {inp : MessageInputs} {msg : RoomMessage}
    (hmsg : ∀ itemId, msg ≠ .playlistRetry itemId) : (RoomOp.message ctx inp msg).repairs = true := by
  cases msg with
  | playlistRetry itemId => exact absurd rfl (hmsg itemId)
  | _ => rfl

theorem message_keys (h : RosterInv state) {ctx : RoomMessageContext} {inp : MessageInputs}
    {msg : RoomMessage} (hsize : (RoomOp.message ctx inp msg).repairs = true →
      state.participants.size ≤ env.roomParticipantsLimit)
    (hc : processRoomMessage env ctx inp msg state = some next) :
    SameKeys state next ∧
      ((∀ itemId, msg ≠ .playlistRetry itemId) → ctx.userId ∈ next.participants.keys) := by
  rcases processRoomMessage_cases hc with ⟨itemId,hmsg,hr⟩ | ⟨p,mutated,hint,hp,he,rfl⟩
  · rw [(reresolveRemotePlaylistItem_eq_some hr).2]
    exact ⟨rfl,fun hother => absurd hmsg (hother itemId)⟩
  · have hreconciled : SameKeys state
        (reconcileParticipantsConnectivity inp.activeConnections inp.now state) :=
      Record.keys_mapValues _ _
    have hmutated : SameKeys state mutated := he.roster.keys.trans hreconciled
    have hroster : RosterInv mutated := (h.reconcile inp.activeConnections inp.now).effect hp he.roster
    have hrepaired : SameKeys mutated
        (applyRoomStateRepair env inp.now inp.newOwnerId mutated) := by
      refine applyRoomStateRepair_keys hroster ?_ inp.now inp.newOwnerId
      rw [Record.size_eq_of_keys hmutated]
      exact hsize (repairs_of_not_retry he.not_retry)
    have hfinished : SameKeys state
        (finishRoomMessage env ctx.userId inp.newOwnerId inp.now hint mutated) :=
      (Record.keys_modify _ _ _).trans (hrepaired.trans hmutated)
    refine ⟨hfinished,fun _ => ?_⟩
    rw [hfinished,← hreconciled]
    exact (Record.mem_keys_iff _ _).mpr ⟨p,hp⟩

theorem other_keys (h : RosterInv state) {op : RoomOp}
    (hsize : op.repairs = true → state.participants.size ≤ env.roomParticipantsLimit)
    (hop : op.prunes = false) (hjoin : ∀ input, op ≠ .join input)
    (hc : op.commit env (some state) = some next) : SameKeys state next := by
  cases op with
  | message ctx inp msg => exact (message_keys h hsize hc).1
  | join input => exact absurd rfl (hjoin input)
  | disconnect roomId userId activeUsers now =>
    rw [(handleSocketDisconnect_eq_some hc).2]
    exact (congrArg Record.keys (applyUserWentOffline_participants env state roomId userId now)).trans
      (Record.keys_modify _ _ _)
  | abortJoin roomId userId now =>
    rw [abortJoinAfterCommit_eq_some hc]
    exact (congrArg Record.keys (applyUserWentOffline_participants env state roomId userId now)).trans
      (Record.keys_modify _ _ _)
  | cleanup activeConnections newOwnerId now =>
    have hrepaired := applyRoomStateRepair_keys h (hsize rfl) now newOwnerId
    have hbase : SameKeys state (sweepBase env activeConnections newOwnerId now state) :=
      (Record.keys_mapValues _ _).trans hrepaired
    have hmoved := transferOwnershipIfNeeded_keys env now
      (sweepBase env activeConnections newOwnerId now state) .cleanup
    rw [cleanupInactiveRoom_eq_some hc]
    exact hmoved.trans hbase
  | prune => cases hop
  | pruneFallback => cases hop
  | reresolve itemId now =>
    rw [(reresolveRemotePlaylistItem_eq_some hc).2]
    rfl
  | settleResolve itemId outcome retryUntilPresent now =>
    rcases commitResolvingItem_eq_some hc with rfl | ⟨-,rfl⟩
    · rfl
    · rfl

theorem joinBase_keys {input : JoinInput} {existing : Option RoomState}
    (hf : (RoomOp.join input).Fresh existing) (h : ∀ state, existing = some state →
      RosterInv state ∧ state.participants.size ≤ env.roomParticipantsLimit) :
    (joinBase env input existing).participants.keys =
      ((existing.map (·.participants.keys)).getD []) := by
  cases existing with
  | none =>
    have hempty : RosterInv (createInitialRoomState env input) := createInitialRoomState_roster env hf.1
    exact (Record.keys_mapValues _ _).trans
      (applyRoomStateRepair_keys hempty (Nat.zero_le _) input.now input.newOwnerId)
  | some state =>
    obtain ⟨hinv,hsize⟩ := h state rfl
    exact (Record.keys_mapValues _ _).trans
      (applyRoomStateRepair_keys hinv hsize input.now input.newOwnerId)

theorem join_keys {input : JoinInput} {existing : Option RoomState}
    (hf : (RoomOp.join input).Fresh existing) (h : ∀ state, existing = some state →
      RosterInv state ∧ state.participants.size ≤ env.roomParticipantsLimit)
    (hc : commitJoinMembership env input existing = some next) :
    next.participants.size = (if input.userId ∈ (existing.map (·.participants.keys)).getD [] then
      ((existing.map (·.participants.keys)).getD []).length
      else ((existing.map (·.participants.keys)).getD []).length+1) ∧
    ∀ userId ∈ (existing.map (·.participants.keys)).getD [], userId ∈ next.participants.keys := by
  obtain ⟨log,generation,revision,rfl⟩ := commitJoinMembership_eq_some hc
  have hbase := joinBase_keys hf h
  have hmoved := transferOwnershipIfNeeded_keys env input.now
    (seatJoiner input (joinBase env input existing)) .join
  have hkeys : (enterParticipant env input (joinBase env input existing)).1.participants.keys =
      (seatJoiner input (joinBase env input existing)).participants.keys := hmoved
  rw [← hbase]
  generalize joinBase env input existing = base at hkeys ⊢
  have hlength : base.participants.keys.length = base.participants.size := List.length_map _
  constructor
  · refine (Record.size_eq_of_keys hkeys).trans ?_
    rw [hlength]
    split
    · rename_i hmem
      exact Record.size_set_of_mem _ _ _ hmem
    · rename_i hmem
      exact Record.size_set_of_not_mem _ _ _ hmem
  · intro userId hmem
    have hseated : userId ∈ (seatJoiner input base).participants.keys := by
      obtain ⟨p,hp⟩ := (Record.mem_keys_iff _ _).mp hmem
      rw [Record.mem_keys_iff]
      by_cases hsame : userId = input.userId
      · exact ⟨_,(Record.get?_set _ _ _ _).trans (if_pos hsame)⟩
      · exact ⟨p,(Record.get?_set _ _ _ _).trans ((if_neg hsame).trans hp)⟩
    exact hkeys ▸ hseated

end Keys

section Run

variable {env : Env} {state next : RoomState}

/-- The size of the roster after an operation is at most the limit exactly when a joiner
has a place in it. -/
theorem commit_size (h : RosterInv state)
    (hsize : state.participants.size ≤ env.roomParticipantsLimit) {op : RoomOp}
    (hf : op.Fresh (some state)) (hc : op.commit env (some state) = some next) :
    next.participants.size ≤ env.roomParticipantsLimit ↔ hasPlace env op state = true := by
  cases op with
  | join input =>
    obtain ⟨hnext,-⟩ := join_keys hf (fun s hs => by cases hs; exact ⟨h,hsize⟩) hc
    have hlength : state.participants.keys.length = state.participants.size := List.length_map _
    simp only [Option.map_some,Option.getD_some,hlength] at hnext
    simp only [hasPlace,Bool.or_eq_true,decide_eq_true_eq]
    split at hnext
    · rename_i hmem
      exact ⟨fun _ => Or.inl hmem,fun _ => hnext ▸ hsize⟩
    · rename_i hmem
      rw [hnext,Nat.succ_le_iff]
      exact ⟨Or.inr,fun hplace => hplace.resolve_left hmem⟩
  | prune userId now =>
    refine iff_of_true ?_ rfl
    rw [(removeDisconnectedParticipant_eq_some hc).2]
    have hmoved := transferOwnershipIfNeeded_keys env now
      { state with participants := state.participants.erase userId } .prune
    refine (Record.size_eq_of_keys hmoved).le.trans ?_
    exact (Record.size_filter_le _ _).trans hsize
  | pruneFallback now =>
    refine iff_of_true ?_ rfl
    rw [pruneByDisconnectedAtFallback_eq_some hc]
    have hmoved := transferOwnershipIfNeeded_keys env now (pruneOfflineParticipants state now) .prune
    refine (Record.size_eq_of_keys hmoved).le.trans ?_
    exact (Record.size_foldl_erase_le _ _).trans hsize
  | _ =>
    refine iff_of_true ?_ rfl
    rw [Record.size_eq_of_keys (other_keys h (fun _ => hsize) rfl (fun _ => by simp) hc)]
    exact hsize

theorem commit_drops_nobody (h : RosterInv state) {op : RoomOp}
    (hsize : op.repairs = true → state.participants.size ≤ env.roomParticipantsLimit)
    (hop : op.prunes = false) (hf : op.Fresh (some state))
    (hc : op.commit env (some state) = some next) :
    ∀ userId ∈ state.participants.keys, userId ∈ next.participants.keys := by
  by_cases hjoin : ∃ input, op = .join input
  · obtain ⟨input,rfl⟩ := hjoin
    exact (join_keys hf (fun s hs => by cases hs; exact ⟨h,hsize rfl⟩) hc).2
  · have hkeys := other_keys h hsize hop (fun input he => hjoin ⟨input,he⟩) hc
    intro userId hmem
    rw [hkeys]
    exact hmem

theorem size_of_hasPlace (h : (guardedRoomSystem env (hasPlace env)).Reachable (some state)) :
    state.participants.size ≤ env.roomParticipantsLimit := by
  apply guarded_invariant (fun state => state.participants.size ≤ env.roomParticipantsLimit) _ _ h
  · intro input next hf hc
    have hsize := (join_keys hf (fun s hs => by cases hs) hc).1
    simp only [Option.map_none,Option.getD_none,List.not_mem_nil,if_false,List.length_nil] at hsize
    rw [hsize]
    exact env.participants_pos
  · intro state op next hr hsize hplace hf hc
    exact (commit_size (Stored.of_guarded hr).rosterInv hsize hf hc).mpr hplace

/-- In every run in which every joiner is in the roster or finds room in it, the roster of
every committed room is within the limit, nobody who is connected or the owner is dropped
but by a prune, and the sender of a message is still there after it. The limit holds after
an operation only if the joiner had a place. -/
theorem room_capacity {env : Env} {state : RoomState}
    (h : (guardedRoomSystem env (hasPlace env)).Reachable (some state)) :
    state.participants.size ≤ env.roomParticipantsLimit ∧
    ∀ (op : RoomOp) (next : RoomState), op.Fresh (some state) →
      op.commit env (some state) = some next →
      (next.participants.size ≤ env.roomParticipantsLimit ↔ hasPlace env op state = true) ∧
      (op.prunes = false → ∀ userId p, state.participants.get? userId = some p →
        (p.connected = true ∨ userId = state.ownerId) →
        ∃ p', next.participants.get? userId = some p') ∧
      ∀ ctx inp msg, op = .message ctx inp msg → (∀ itemId, msg ≠ .playlistRetry itemId) →
        ∃ p, next.participants.get? ctx.userId = some p := by
  have hinv : RosterInv state := (Stored.of_guarded h).rosterInv
  have hsize := size_of_hasPlace h
  refine ⟨hsize,fun op next hf hc => ⟨commit_size hinv hsize hf hc,?_,?_⟩⟩
  · intro hop userId p hp _
    have hmem := commit_drops_nobody hinv (fun _ => hsize) hop hf hc userId
      ((Record.mem_keys_iff _ _).mpr ⟨p,hp⟩)
    exact (Record.mem_keys_iff _ _).mp hmem
  · rintro ctx inp msg rfl hother
    exact (Record.mem_keys_iff _ _).mp ((message_keys hinv (fun _ => hsize) hc).2 hother)

end Run

section Scenario

def smallEnv : Env :=
  { scenarioEnv with
    roomParticipantsLimit := 2
    participants_pos := by decide
    participants_le := by decide }

theorem room_capacity_of_two : ∃ state,
    (guardedRoomSystem smallEnv (hasPlace smallEnv)).Reachable (some state) ∧
    state.participants.keys = ["ann","bob"] ∧ state.participants.size ≤ 2 := by
  obtain ⟨state,hr,hkeys⟩ := exists_guarded_of_runRoom smallEnv (hasPlace smallEnv)
    [joinAs "ann" 1000 {},joinAs "bob" 2000 {"ann"},joinAs "ann" 3000 {"ann","bob"}]
    (fun state => state.participants.keys = ["ann","bob"]) (by decide +kernel)
  exact ⟨state,hr,hkeys,(room_capacity hr).1⟩

/-- A third participant gets into a room for two; the next message of the owner, whose name
comes after the names that are numbers, drops the owner. -/
theorem full_room_drops_owner :
    (¬∀ (env : Env) (state : RoomState), Stored env state →
      state.participants.size ≤ env.roomParticipantsLimit) ∧
    ¬∀ (env : Env) (state next : RoomState) (ctx : RoomMessageContext) (inp : MessageInputs)
      (p : ParticipantState), Stored env state →
      (RoomOp.message ctx inp .playbackPause).commit env (some state) = some next →
      state.participants.get? ctx.userId = some p → p.connected = true →
      ctx.userId = state.ownerId → ∃ p', next.participants.get? ctx.userId = some p' := by
  let run : List RoomOp :=
    [joinAs "ann" 1000 {},joinAs "1" 2000 {"ann"},joinAs "2" 3000 {"ann","1"}]
  constructor
  · intro h
    obtain ⟨state,hs,hsize⟩ := exists_stored_of_runRoom smallEnv run
      (fun state => state.participants.size = 3) (by decide +kernel)
    have hle : state.participants.size ≤ 2 := h smallEnv state hs
    omega
  · intro h
    let pause := messageFrom "ann" 4000 {"ann","1","2"} "new" .playbackPause
    obtain ⟨state,hs,howner,hann,hdropped⟩ := exists_stored_of_runRoom smallEnv run
      (fun state => state.ownerId = "ann" ∧
        ((state.participants.get? "ann").any fun p => p.connected) = true ∧
        ((pause.commit smallEnv (some state)).any fun next =>
          (next.participants.get? "ann").isNone) = true) (by decide +kernel)
    obtain ⟨p,hp,hconnected⟩ := (Option.any_eq_true _ _).mp hann
    obtain ⟨next,hc,hgone⟩ := (Option.any_eq_true _ _).mp hdropped
    obtain ⟨p',hp'⟩ := h smallEnv state next (roomPage "ann")
      { now := 4000, activeConnections := {"ann","1","2"}, newId := "new" } p hs hc hp hconnected
      howner.symm
    have hp'' : next.participants.get? "ann" = some p' := hp'
    rw [hp''] at hgone
    cases hgone

end Scenario

end WebSyncPlay
