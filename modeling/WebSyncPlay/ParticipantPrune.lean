import WebSyncPlay.Capacity
import WebSyncPlay.Library.TaskPool

/-! The prune index (`services/participants.ts`): what the room writes schedule and clear
there, and the sweep that removes participants. Every process sends one command at a time;
all else interleaves. -/
namespace WebSyncPlay

open Library TransitionSystem TaskPool

section Commands

def encodePruneMember (roomId : String) (userId : UserId) : String := roomId ++ "\t" ++ userId

/-- The member is split at its first tab. -/
def parsePruneMember (member : String) : Option (String × UserId) :=
  let roomId := member.toList.takeWhile (· != '\t')
  let rest := member.toList.dropWhile (· != '\t')
  if roomId = [] ∨ rest.length ≤ 1 then none
  else some (String.ofList roomId,String.ofList rest.tail)

def roomParticipantPruneKey (roomId : String) (userId : UserId) : String :=
  "room:" ++ roomId ++ ":prune:" ++ userId

def pendingPrunesTtlMs : ℕ := participantPruneMs*2

/-- The commands on the grace keys and on the index; the last three make up a sweep. -/
inductive PruneCommand
  | setGrace (key : String)
  | delGrace (key : String)
  | sAdd (member : String)
  | sRem (member : String)
  | refreshPendingPrunesTtl
  | sMembers
  | checkGrace (member : String)
  | remove (roomId : String) (userId : UserId)
  deriving DecidableEq

def clearPrune (roomId : String) (userId : UserId) : List PruneCommand :=
  [.delGrace (roomParticipantPruneKey roomId userId),.sRem (encodePruneMember roomId userId),
    .refreshPendingPrunesTtl]

def schedulePrune (roomId : String) (userId : UserId) : List PruneCommand :=
  [.setGrace (roomParticipantPruneKey roomId userId),.sAdd (encodePruneMember roomId userId),
    .refreshPendingPrunesTtl]

def schedulePruneDue (roomId : String) (userId : UserId) : List PruneCommand :=
  [.delGrace (roomParticipantPruneKey roomId userId),.sAdd (encodePruneMember roomId userId),
    .refreshPendingPrunesTtl]

def RoomOp.marksOffline (env : Env) : RoomOp → Option RoomState → List UserId
  | .message _ _ (.playlistRetry _),_ => []
  | .message _ inp _,some state => disconnectingUsers inp.activeConnections state
  | .join input,existing => disconnectingUsers input.activeConnections
      (applyRoomStateRepair env input.now input.newOwnerId
        (existing.getD (createInitialRoomState env input)))
  | .disconnect _ userId _ _,_ => [userId]
  | .abortJoin _ userId _,_ => [userId]
  | .cleanup activeConnections newOwnerId now,some state =>
    disconnectingUsers activeConnections (applyRoomStateRepair env now newOwnerId state)
  | _,_ => []

/-- The users that a room write marks online again, and a joiner. -/
def RoomOp.marksOnline (env : Env) : RoomOp → Option RoomState → List UserId
  | .message _ _ (.playlistRetry _),_ => []
  | .message _ inp _,some state => reconnectingUsers inp.activeConnections state
  | .join input,existing => input.userId :: reconnectingUsers input.activeConnections
      (applyRoomStateRepair env input.now input.newOwnerId
        (existing.getD (createInitialRoomState env input)))
  | .cleanup activeConnections newOwnerId now,some state =>
    reconnectingUsers activeConnections (applyRoomStateRepair env now newOwnerId state)
  | _,_ => []

/-- The users that the background sweep finds past their grace. -/
def RoomOp.pastGrace (env : Env) : RoomOp → Option RoomState → List UserId
  | .cleanup activeConnections newOwnerId now,some state =>
    (listParticipantsPastPruneGrace
      (sweepBase env activeConnections newOwnerId now state) now).filter fun userId =>
        !(disconnectingUsers activeConnections
          (applyRoomStateRepair env now newOwnerId state)).contains userId
  | _,_ => []

/-- What a process sends after a room write: nothing after a join that is aborted, and only
the sweep goes on after a write that was declined. -/
def pruneSideEffects (env : Env) (roomId : String) (op : RoomOp) (existing : Option RoomState)
    (committed aborted : Bool) : List PruneCommand :=
  if aborted then []
  else
    (if committed then
      (op.marksOnline env existing).flatMap (clearPrune roomId) ++
        (op.marksOffline env existing).flatMap (schedulePrune roomId)
    else []) ++
      (op.pastGrace env existing).flatMap (schedulePruneDue roomId)

end Commands

section System

/-- The rooms, the grace keys with their expiry, the index with its expiry, the clock; and,
for comparison, when each participant last went offline. -/
structure PruneWorld where
  rooms : Record String RoomState
  grace : Record String ℕ
  pending : List String
  pendingExpiresAt : Option ℕ
  now : ℕ
  wentOffline : String → UserId → ℕ

abbrev PruneState := TaskPool PruneWorld PruneCommand

def isOffline (state : RoomState) (userId : UserId) : Bool :=
  (state.participants.get? userId).any fun p => !p.connected

/-- The participant is in the stored roster, and not connected there. -/
def PruneWorld.offline (w : PruneWorld) (roomId : String) (userId : UserId) : Bool :=
  (w.rooms.get? roomId).any (isOffline · userId)

def PruneWorld.inRoster (w : PruneWorld) (roomId : String) (userId : UserId) : Bool :=
  (w.rooms.get? roomId).any fun state => (state.participants.get? userId).isSome

/-- A committed room; who goes offline with it goes offline now. -/
def PruneWorld.writeRoom (w : PruneWorld) (roomId : String) (next : RoomState) : PruneWorld :=
  { w with
    rooms := w.rooms.set roomId next
    wentOffline := fun r userId =>
      if r = roomId ∧ isOffline next userId ∧ w.offline r userId = false then w.now
      else w.wentOffline r userId }

def graceLive (w : PruneWorld) (key : String) : Bool :=
  (w.grace.get? key).any fun expiresAt => decide (w.now < expiresAt)

/-- One command at the store. An index without members is no key, and has no expiry. -/
def executePrune (env : Env) (w : PruneWorld) : PruneCommand → PruneWorld × List PruneCommand
  | .setGrace key => ({ w with grace := w.grace.set key (w.now+participantPruneMs) },[])
  | .delGrace key => ({ w with grace := w.grace.erase key },[])
  | .sAdd member =>
    ({ w with pending := if member ∈ w.pending then w.pending else w.pending ++ [member] },[])
  | .sRem member =>
    let pending := w.pending.filter (· != member)
    ({ w with
      pending := pending
      pendingExpiresAt := if pending = [] then none else w.pendingExpiresAt },[])
  | .refreshPendingPrunesTtl =>
    ({ w with
      pendingExpiresAt := if w.pending = [] then none else some (w.now+pendingPrunesTtlMs) },[])
  | .sMembers =>
    (w,w.pending.map .checkGrace ++
      if w.pending = [] then [] else [.refreshPendingPrunesTtl])
  | .checkGrace member =>
    match parsePruneMember member with
    | none => (w,[.sRem member])
    | some (roomId,userId) =>
      if graceLive w (roomParticipantPruneKey roomId userId) then (w,[])
      else (w,[.remove roomId userId,.sRem member])
  | .remove roomId userId =>
    match (w.rooms.get? roomId).bind (removeDisconnectedParticipant env userId w.now) with
    | none => (w,[])
    | some next => (w.writeRoom roomId next,[])

/-- A room write with what follows it, a sweep, the next command of a process, or time. -/
inductive PruneAction
  | write (roomId : String) (op : RoomOp) (aborted : Bool)
  | sweep
  | run (n : ℕ)
  | tick (now : ℕ)

def stepPrune (env : Env) (s : PruneState) : PruneAction → Option PruneState
  | .write roomId op aborted =>
    let existing := s.world.rooms.get? roomId
    if op.prunes = false ∧ op.now = s.world.now ∧ (aborted → op.isJoin) ∧ op.Fresh existing then
      match op.commit env existing with
      | none => some (s.spawn s.world (pruneSideEffects env roomId op existing false aborted))
      | some next => some (s.spawn (s.world.writeRoom roomId next)
          (pruneSideEffects env roomId op existing true aborted))
    else none
  | .sweep => some (s.spawn s.world [.sMembers])
  | .run n => s.run (fun w command => some (executePrune env w command)) n
  | .tick now =>
    if s.world.now ≤ now then
      let expired := s.world.pendingExpiresAt.any fun expiresAt => decide (expiresAt ≤ now)
      some { s with world := { s.world with
        now := now
        pending := if expired then [] else s.world.pending
        pendingExpiresAt := if expired then none else s.world.pendingExpiresAt } }
    else none

def pruneStart (now : ℕ) : PruneState where
  world := {
    rooms := .empty, grace := .empty, pending := [], pendingExpiresAt := none, now := now
    wentOffline := fun _ _ => 0 }
  tasks := []

def pruneSystem (env : Env) : TransitionSystem PruneState PruneAction where
  init s := ∃ now, s = pruneStart now
  step s action s' := stepPrune env s action = some s'

/-- The participants that are offline in the stored rooms. -/
def PruneWorld.offlineUsers (w : PruneWorld) : List (String × UserId) :=
  w.rooms.entries.flatMap fun e =>
    (e.2.participants.keys.filter (isOffline e.2)).map fun userId => (e.1,userId)

/-- The command comes in time for everybody it concerns who is offline: a removal while no
grace runs or is still to be set; the end of a grace after its minute, or before it is set
anew; the end of a membership of the index before it is added anew. -/
def timely (s : PruneState) : PruneCommand → Bool
  | .delGrace key => s.world.offlineUsers.all fun x =>
      roomParticipantPruneKey x.1 x.2 != key ||
        decide (s.world.wentOffline x.1 x.2+participantPruneMs ≤ s.world.now) ||
        decide (s.Pending (.setGrace key))
  | .sRem member => s.world.offlineUsers.all fun x =>
      encodePruneMember x.1 x.2 != member || decide (s.Pending (.sAdd member))
  | .remove roomId userId => !s.world.offline roomId userId ||
      !graceLive s.world (roomParticipantPruneKey roomId userId) &&
        !decide (s.Pending (.setGrace (roomParticipantPruneKey roomId userId)))
  | _ => true

/-- Besides, a write that repairs the room finds its roster within the limit, an aborted join
has marked nobody offline, and the index does not expire. -/
def keepsGrace (env : Env) (s : PruneState) : PruneAction → Bool
  | .write roomId op aborted =>
    let existing := s.world.rooms.get? roomId
    (op.commit env existing).isNone ||
      (!op.repairs || existing.all fun state =>
        decide (state.participants.size ≤ env.roomParticipantsLimit)) &&
        (!aborted || (op.marksOffline env existing).isEmpty)
  | .sweep => true
  | .run n => ((s.tasks[n]?.bind List.head?).all (timely s))
  | .tick now => s.world.pending.isEmpty ||
      s.world.pendingExpiresAt.all fun expiresAt => decide (now < expiresAt)

def carefulPrune (env : Env) : TransitionSystem PruneState PruneAction :=
  (pruneSystem env).restrict fun s action => keepsGrace env s action = true

end System

section Connectivity

variable {env : Env} {state next : RoomState} {userId : UserId}

def SameLink (p p' : ParticipantState) : Prop := p'.userId = p.userId ∧ p'.connected = p.connected

theorem SameLink.refl (p : ParticipantState) : SameLink p p := ⟨rfl,rfl⟩

theorem SameLink.trans (a b c : ParticipantState) (h : SameLink a b) (h' : SameLink b c) :
    SameLink a c :=
  ⟨h'.1.trans h.1,h'.2.trans h.2⟩

/-- Nobody's connection has changed, though participants may have gone. -/
abbrev Links (ps ps' : Record UserId ParticipantState) : Prop := ps.Derives SameLink ps'

theorem isOffline_eq_true : isOffline state userId = true ↔
    ∃ p, state.participants.get? userId = some p ∧ p.connected = false := by
  simp [isOffline,Option.any_eq_true]

theorem Links.isOffline (h : Links state.participants next.participants)
    (hoffline : isOffline next userId = true) : isOffline state userId = true := by
  obtain ⟨p',hp',hconnected⟩ := isOffline_eq_true.mp hoffline
  obtain ⟨p,hp,-,hsame⟩ := h userId p' hp'
  exact isOffline_eq_true.mpr ⟨p,hp,hsame ▸ hconnected⟩

theorem transfer_links (env : Env) (now : ℕ) (state : RoomState) (reason : TransferReason) :
    Links state.participants (transferOwnershipIfNeeded env now state reason).1.participants :=
  transferOwnershipIfNeeded_derives env now state reason SameLink.refl SameLink.trans
    fun _ _ => ⟨rfl,rfl⟩

theorem repair_links (env : Env) (now : ℕ) (newOwnerId : UserId) (state : RoomState) :
    Links state.participants (applyRoomStateRepair env now newOwnerId state).participants :=
  repairParticipants_derives SameLink.refl SameLink.trans env now (fun _ => ⟨rfl,rfl⟩)
    state.participants

def KeysMatch (ps : Record UserId ParticipantState) : Prop :=
  ∀ userId p, ps.get? userId = some p → p.userId = userId

theorem KeysMatch.of_links {ps ps' : Record UserId ParticipantState} (hk : KeysMatch ps)
    (h : Links ps ps') : KeysMatch ps' := by
  intro userId p' hp'
  obtain ⟨p,hp,hsame⟩ := h userId p' hp'
  exact hsame.1.trans (hk userId p hp)

/-- A reconcile marks offline exactly those that it lists. -/
theorem reconcile_offline (hk : KeysMatch state.participants) {active : Finset UserId} {now : ℕ}
    (h : isOffline (reconcileParticipantsConnectivity active now state) userId = true) :
    isOffline state userId = true ∨ userId ∈ disconnectingUsers active state := by
  obtain ⟨p',hp',hconnected⟩ := isOffline_eq_true.mp h
  obtain ⟨p,hp,rfl⟩ := Option.map_eq_some_iff.mp ((Record.get?_mapValues _ _ _).symm.trans hp')
  rw [reconcileParticipant_connected,decide_eq_false_iff_not] at hconnected
  cases hc : p.connected with
  | false => exact Or.inl (isOffline_eq_true.mpr ⟨p,hp,hc⟩)
  | true =>
    right
    have hmem : p ∈ state.participants.values := (Record.mem_values_iff _ _).mpr ⟨userId,hp⟩
    refine List.mem_map.mpr ⟨p,List.mem_filter.mpr ⟨hmem,?_⟩,hk userId p hp⟩
    simp [hc,hconnected]

theorem pruneViewerMedia_sameLink (itemId : ItemId) (p : ParticipantState) :
    SameLink p (pruneViewerMedia itemId p) := by
  unfold pruneViewerMedia
  split
  · exact SameLink.refl p
  · split
    · exact SameLink.refl p
    · dsimp only
      split <;> exact ⟨rfl,rfl⟩

theorem RosterEffect.offline {ctx : RoomMessageContext} {participant : ParticipantState}
    {msg : RoomMessage} (he : RosterEffect ctx state participant msg next)
    (hsender : userId ≠ ctx.userId) (h : isOffline next userId = true) :
    isOffline state userId = true := by
  have hmodify : ∀ f, next.participants = state.participants.modify ctx.userId f →
      isOffline state userId = true := by
    intro f hps
    rw [isOffline,hps,Record.get?_modify,if_neg hsender] at h
    exact h
  cases he with
  | same hsame =>
    rw [isOffline,hsame.participants] at h
    exact h
  | prune itemId _ hps =>
    have hlinks : Links state.participants next.participants := by
      rw [hps]
      exact .mapValues _ (pruneViewerMedia_sameLink itemId)
    exact hlinks.isOffline h
  | prefer _ _ _ _ _ hps => exact hmodify _ hps
  | profile _ _ hps => exact hmodify _ hps
  | role _ _ _ _ _ _ hps =>
    have hlinks : Links state.participants next.participants := by
      rw [hps]
      exact .modify _ _ SameLink.refl fun _ _ => ⟨rfl,rfl⟩
    exact hlinks.isOffline h
  | security _ hps =>
    rw [isOffline,hps] at h
    exact h

theorem message_offline (hk : KeysMatch state.participants) {ctx : RoomMessageContext}
    {inp : MessageInputs} {msg : RoomMessage}
    (hc : processRoomMessage env ctx inp msg state = some next)
    (h : isOffline next userId = true) : isOffline state userId = true ∨
      userId ∈ (RoomOp.message ctx inp msg).marksOffline env (some state) := by
  rcases processRoomMessage_cases hc with ⟨itemId,hmsg,hr⟩ | ⟨p,mutated,hint,hp,he,rfl⟩
  · rw [(reresolveRemotePlaylistItem_eq_some hr).2] at h
    exact Or.inl h
  · -- The sender is marked as seen at the end.
    have hsender : userId ≠ ctx.userId := by
      rintro rfl
      obtain ⟨p',hp',hconnected⟩ := isOffline_eq_true.mp h
      have hget : (finishRoomMessage env ctx.userId inp.newOwnerId inp.now hint
          mutated).participants.get? ctx.userId = _ := Record.get?_modify _ _ _ _
      rw [hget,if_pos rfl] at hp'
      obtain ⟨q,-,rfl⟩ := Option.map_eq_some_iff.mp hp'
      cases hconnected
    have hrepaired : isOffline (applyRoomStateRepair env inp.now inp.newOwnerId mutated) userId =
        true := by
      obtain ⟨p',hp',hconnected⟩ := isOffline_eq_true.mp h
      have hget : (finishRoomMessage env ctx.userId inp.newOwnerId inp.now hint
          mutated).participants.get? userId = _ := Record.get?_modify _ _ _ _
      rw [hget,if_neg hsender] at hp'
      exact isOffline_eq_true.mpr ⟨p',hp',hconnected⟩
    have hmutated := (repair_links env inp.now inp.newOwnerId mutated).isOffline hrepaired
    have hreconciled := he.roster.offline hsender hmutated
    refine (reconcile_offline hk hreconciled).imp_right fun hmem => ?_
    cases msg with
    | playlistRetry itemId => exact absurd rfl (he.not_retry itemId)
    | _ => exact hmem

theorem join_offline {input : JoinInput} {existing : Option RoomState}
    (hk : ∀ state, existing = some state → KeysMatch state.participants)
    (hc : commitJoinMembership env input existing = some next) (h : isOffline next userId = true) :
    (∃ state, existing = some state ∧ isOffline state userId = true) ∨
      userId ∈ (RoomOp.join input).marksOffline env existing := by
  obtain ⟨log,generation,revision,rfl⟩ := commitJoinMembership_eq_some hc
  have hentered : isOffline (enterParticipant env input (joinBase env input existing)).1 userId =
      true := h
  have hseated := (transfer_links env input.now
    (seatJoiner input (joinBase env input existing)) .join).isOffline hentered
  obtain ⟨p',hp',hconnected⟩ := isOffline_eq_true.mp hseated
  have hget : (seatJoiner input (joinBase env input existing)).participants.get? userId = _ :=
    Record.get?_set _ _ _ _
  rw [hget] at hp'
  split at hp'
  · cases hp'
    cases hconnected
  · have hbase : isOffline (joinBase env input existing) userId = true :=
      isOffline_eq_true.mpr ⟨p',hp',hconnected⟩
    have hlinks := repair_links env input.now input.newOwnerId
      (existing.getD (createInitialRoomState env input))
    have hmatch : KeysMatch (existing.getD (createInitialRoomState env input)).participants := by
      cases existing with
      | none => exact fun _ _ hp => by cases hp
      | some state => exact hk state rfl
    rcases reconcile_offline (hmatch.of_links hlinks) hbase with hrepaired | hmem
    · have hfound := hlinks.isOffline hrepaired
      cases existing with
      | none => cases hfound
      | some state => exact Or.inl ⟨state,rfl,hfound⟩
    · exact Or.inr hmem

/-- After a room write, who is offline was so before, or is one whom it marks offline. -/
theorem commit_offline {op : RoomOp} {existing : Option RoomState}
    (hk : ∀ state, existing = some state → KeysMatch state.participants)
    (hc : op.commit env existing = some next) (h : isOffline next userId = true) :
    (∃ state, existing = some state ∧ isOffline state userId = true) ∨
      userId ∈ op.marksOffline env existing := by
  have hwent : ∀ state roomId other now, isOffline
      (bumpRoomRevisions (applyUserWentOffline env state roomId other now).1) userId = true →
      isOffline state userId = true ∨ userId = other := by
    intro state roomId other now h
    have hps : (bumpRoomRevisions (applyUserWentOffline env state roomId other now).1).participants
        = state.participants.modify other (markOffline now) :=
      applyUserWentOffline_participants env state roomId other now
    rw [isOffline,hps,Record.get?_modify] at h
    split at h
    · exact Or.inr ‹_›
    · exact Or.inl h
  cases existing with
  | none =>
    cases op with
    | join input => exact join_offline hk hc h
    | _ => cases hc
  | some state =>
    have hstate := hk state rfl
    have hsame : isOffline state userId = true →
        (∃ s, some state = some s ∧ isOffline s userId = true) ∨
          userId ∈ op.marksOffline env (some state) := fun h => Or.inl ⟨state,rfl,h⟩
    cases op with
    | message ctx inp msg =>
      exact (message_offline hstate hc h).elim hsame Or.inr
    | join input => exact join_offline hk hc h
    | disconnect roomId other activeUsers now =>
      rw [(handleSocketDisconnect_eq_some hc).2] at h
      exact (hwent state roomId other now h).elim hsame fun he => Or.inr (by simp [RoomOp.marksOffline,he])
    | abortJoin roomId other now =>
      rw [abortJoinAfterCommit_eq_some hc] at h
      exact (hwent state roomId other now h).elim hsame fun he => Or.inr (by simp [RoomOp.marksOffline,he])
    | cleanup activeConnections newOwnerId now =>
      rw [cleanupInactiveRoom_eq_some hc] at h
      have hlinks := repair_links env now newOwnerId state
      have hbase := (transfer_links env now
        (sweepBase env activeConnections newOwnerId now state) .cleanup).isOffline h
      rcases reconcile_offline (hstate.of_links hlinks) hbase with hrepaired | hmem
      · exact hsame (hlinks.isOffline hrepaired)
      · exact Or.inr hmem
    | prune other now =>
      rw [(removeDisconnectedParticipant_eq_some hc).2] at h
      have hremoved := (transfer_links env now
        { state with participants := state.participants.erase other } .prune).isOffline h
      have hlinks : Links state.participants (state.participants.erase other) :=
        .erase _ _ SameLink.refl
      exact hsame (hlinks.isOffline hremoved)
    | pruneFallback now =>
      rw [pruneByDisconnectedAtFallback_eq_some hc] at h
      have hremoved := (transfer_links env now (pruneOfflineParticipants state now) .prune).isOffline h
      have hlinks : Links state.participants (pruneOfflineParticipants state now).participants :=
        .foldl_erase _ SameLink.refl SameLink.trans _
      exact hsame (hlinks.isOffline hremoved)
    | reresolve itemId now =>
      rw [(reresolveRemotePlaylistItem_eq_some hc).2] at h
      exact hsame h
    | settleResolve itemId outcome retryUntilPresent now =>
      rcases commitResolvingItem_eq_some hc with rfl | ⟨-,rfl⟩
      · exact hsame h
      · exact hsame h

theorem prune_drops {other : UserId} {now : ℕ}
    (hc : removeDisconnectedParticipant env other now state = some next)
    (hbefore : (state.participants.get? userId).isSome = true)
    (hafter : (next.participants.get? userId).isSome = false) :
    userId = other ∧ isOffline state userId = true := by
  obtain ⟨⟨p,hp,hconnected⟩,rfl⟩ := removeDisconnectedParticipant_eq_some hc
  have hkeys := transferOwnershipIfNeeded_keys env now
    { state with participants := state.participants.erase other } .prune
  by_cases hsame : userId = other
  · subst hsame
    exact ⟨rfl,isOffline_eq_true.mpr ⟨p,hp,hconnected⟩⟩
  · obtain ⟨q,hq⟩ := Option.isSome_iff_exists.mp hbefore
    have hkept : userId ∈ (state.participants.erase other).keys := by
      rw [Record.mem_keys_iff]
      exact ⟨q,by rw [Record.get?_erase,if_neg hsame,hq]⟩
    have hmem : userId ∈ (transferOwnershipIfNeeded env now
        { state with participants := state.participants.erase other } .prune).1.participants.keys := by
      rw [hkeys]
      exact hkept
    obtain ⟨r,hr⟩ := (Record.mem_keys_iff _ _).mp hmem
    have hsome : (bumpRoomRevisions (transferOwnershipIfNeeded env now
        { state with participants := state.participants.erase other }
        .prune).1).participants.get? userId = some r := hr
    rw [Option.isSome_eq_false_iff,Option.isNone_iff_eq_none] at hafter
    cases hafter.symm.trans hsome

end Connectivity

section Invariant

variable {env : Env} {s s' : PruneState}

theorem PruneWorld.offline_eq_true {w : PruneWorld} {roomId : String} {userId : UserId} :
    w.offline roomId userId = true ↔
      ∃ state, w.rooms.get? roomId = some state ∧ isOffline state userId = true := by
  simp [PruneWorld.offline,Option.any_eq_true]

theorem PruneWorld.mem_offlineUsers {w : PruneWorld} {roomId : String} {userId : UserId}
    (h : w.offline roomId userId = true) : (roomId,userId) ∈ w.offlineUsers := by
  obtain ⟨state,hstate,hoffline⟩ := offline_eq_true.mp h
  obtain ⟨p,hp,-⟩ := isOffline_eq_true.mp hoffline
  refine List.mem_flatMap.mpr ⟨(roomId,state),(Record.get?_eq_some_iff _ _ _).mp hstate,?_⟩
  exact List.mem_map.mpr ⟨userId,
    List.mem_filter.mpr ⟨(Record.mem_keys_iff _ _).mpr ⟨p,hp⟩,hoffline⟩,rfl⟩

theorem PruneWorld.writeRoom_offline (w : PruneWorld) (roomId : String) (next : RoomState)
    (r : String) (userId : UserId) : (w.writeRoom roomId next).offline r userId =
      if r = roomId then isOffline next userId else w.offline r userId := by
  simp only [offline,writeRoom,Record.get?_set]
  by_cases h : r = roomId
  · simp [h]
  · simp [h]

/-- The minute since a participant went offline is over, or its grace runs until then, or is
still to be set. -/
def Graced (s : PruneState) (roomId : String) (userId : UserId) : Prop :=
  s.world.wentOffline roomId userId+participantPruneMs ≤ s.world.now ∨
  (∃ expiresAt, s.world.grace.get? (roomParticipantPruneKey roomId userId) = some expiresAt ∧
    s.world.wentOffline roomId userId+participantPruneMs ≤ expiresAt) ∨
  s.Pending (.setGrace (roomParticipantPruneKey roomId userId))

def Indexed (s : PruneState) (roomId : String) (userId : UserId) : Prop :=
  encodePruneMember roomId userId ∈ s.world.pending ∨
    s.Pending (.sAdd (encodePruneMember roomId userId))

structure PruneInv (env : Env) (s : PruneState) : Prop where
  stored : ∀ roomId state, s.world.rooms.get? roomId = some state → Stored env state
  past : ∀ roomId userId, s.world.offline roomId userId = true →
    s.world.wentOffline roomId userId ≤ s.world.now
  graced : ∀ roomId userId, s.world.offline roomId userId = true → Graced s roomId userId
  indexed : ∀ roomId userId, s.world.offline roomId userId = true → Indexed s roomId userId

theorem PruneInv.of_frame (h : PruneInv env s) (hrooms : s'.world.rooms = s.world.rooms)
    (hwent : s'.world.wentOffline = s.world.wentOffline) (hnow : s.world.now ≤ s'.world.now)
    (hgraced : ∀ roomId userId, s.world.offline roomId userId = true → Graced s roomId userId →
      Graced s' roomId userId)
    (hindexed : ∀ roomId userId, s.world.offline roomId userId = true →
      Indexed s roomId userId → Indexed s' roomId userId) : PruneInv env s' := by
  have hoffline : ∀ roomId userId, s'.world.offline roomId userId = s.world.offline roomId userId := by
    intro roomId userId
    rw [PruneWorld.offline,PruneWorld.offline,hrooms]
  constructor
  · intro roomId state hstate
    exact h.stored roomId state (hrooms ▸ hstate)
  · intro roomId userId ho
    rw [hwent]
    exact (h.past roomId userId (hoffline roomId userId ▸ ho)).trans hnow
  · intro roomId userId ho
    rw [hoffline] at ho
    exact hgraced roomId userId ho (h.graced roomId userId ho)
  · intro roomId userId ho
    rw [hoffline] at ho
    exact hindexed roomId userId ho (h.indexed roomId userId ho)

theorem PruneInv.writeRoom (h : PruneInv env s) {roomId : String} {next : RoomState}
    (hworld : s'.world = s.world.writeRoom roomId next) (hstored : Stored env next)
    (hgrace : ∀ key, s.Pending (.setGrace key) → s'.Pending (.setGrace key))
    (hadd : ∀ member, s.Pending (.sAdd member) → s'.Pending (.sAdd member))
    (hnew : ∀ userId, isOffline next userId = true → s.world.offline roomId userId = true ∨
      s'.Pending (.setGrace (roomParticipantPruneKey roomId userId)) ∧
        s'.Pending (.sAdd (encodePruneMember roomId userId))) : PruneInv env s' := by
  -- Who was offline before keeps the time; the others go offline now and are scheduled.
  have hcases : ∀ r userId, s'.world.offline r userId = true →
      (s.world.offline r userId = true ∧
        s'.world.wentOffline r userId = s.world.wentOffline r userId) ∨
      s'.world.wentOffline r userId = s.world.now ∧
        s'.Pending (.setGrace (roomParticipantPruneKey r userId)) ∧
        s'.Pending (.sAdd (encodePruneMember r userId)) := by
    intro r userId ho
    rw [hworld,PruneWorld.writeRoom_offline] at ho
    simp only [hworld,PruneWorld.writeRoom]
    by_cases hr : r = roomId
    · subst hr
      rw [if_pos rfl] at ho
      cases hbefore : s.world.offline r userId with
      | true => simp
      | false =>
        have hsched := (hnew userId ho).resolve_left (by rw [hbefore]; exact Bool.false_ne_true)
        right
        exact ⟨if_pos ⟨rfl,ho,rfl⟩,hsched⟩
    · rw [if_neg hr] at ho
      left
      exact ⟨ho,if_neg fun hall => hr hall.1⟩
  have hsame : s'.world.grace = s.world.grace ∧ s'.world.pending = s.world.pending ∧
      s'.world.now = s.world.now := by
    rw [hworld]
    exact ⟨rfl,rfl,rfl⟩
  constructor
  · intro r state hstate
    rw [hworld] at hstate
    have hget : (s.world.rooms.set roomId next).get? r = some state := hstate
    rw [Record.get?_set] at hget
    split at hget
    · cases hget
      exact hstored
    · exact h.stored r state hget
  · intro r userId ho
    rw [hsame.2.2]
    rcases hcases r userId ho with ⟨hbefore,hw⟩ | ⟨hw,-⟩
    · rw [hw]
      exact h.past r userId hbefore
    · exact hw.le
  · intro r userId ho
    rcases hcases r userId ho with ⟨hbefore,hw⟩ | ⟨-,hset,-⟩
    · have hgraced := h.graced r userId hbefore
      simp only [Graced,hw,hsame] at hgraced ⊢
      exact hgraced.imp_right (Or.imp_right (hgrace _))
    · exact Or.inr (Or.inr hset)
  · intro r userId ho
    rcases hcases r userId ho with ⟨hbefore,-⟩ | ⟨-,-,hmember⟩
    · have hindexed := h.indexed r userId hbefore
      simp only [Indexed,hsame] at hindexed ⊢
      exact hindexed.imp_right (hadd _)
    · exact Or.inr hmember

/-- Everybody whom a committed write marks offline is scheduled, unless it is an aborted join. -/
theorem mem_pruneSideEffects {roomId : String} {op : RoomOp} {existing : Option RoomState}
    {userId : UserId} (h : userId ∈ op.marksOffline env existing) :
    .setGrace (roomParticipantPruneKey roomId userId) ∈
      pruneSideEffects env roomId op existing true false ∧
    .sAdd (encodePruneMember roomId userId) ∈
      pruneSideEffects env roomId op existing true false := by
  have hmem : ∀ command ∈ schedulePrune roomId userId,
      command ∈ pruneSideEffects env roomId op existing true false := by
    intro command hcommand
    refine List.mem_append_left _ (List.mem_append_right _ ?_)
    exact List.mem_flatMap.mpr ⟨userId,h,hcommand⟩
  exact ⟨hmem _ (by simp [schedulePrune]),hmem _ (by simp [schedulePrune])⟩

theorem PruneInv.keysMatch (h : PruneInv env s) (roomId : String) :
    ∀ state, s.world.rooms.get? roomId = some state → KeysMatch state.participants :=
  fun state hstate userId p hp => ((h.stored roomId state hstate).rosterInv.key userId p hp).1

theorem PruneInv.commit (h : PruneInv env s) {roomId : String} {op : RoomOp} {next : RoomState}
    (hfresh : op.Fresh (s.world.rooms.get? roomId))
    (hc : op.commit env (s.world.rooms.get? roomId) = some next) : Stored env next := by
  have hbefore : (roomSystem env).Reachable (s.world.rooms.get? roomId) := by
    cases hroom : s.world.rooms.get? roomId with
    | none => exact .init rfl
    | some state => exact h.stored roomId state hroom
  exact .step (a := .write op) hbefore ⟨hfresh,next,hc,rfl⟩

theorem write_inv (h : PruneInv env s) {roomId : String} {op : RoomOp} {aborted : Bool}
    (hguard : keepsGrace env s (.write roomId op aborted) = true)
    (hs : stepPrune env s (.write roomId op aborted) = some s') : PruneInv env s' := by
  simp only [stepPrune] at hs
  split at hs
  · rename_i hop
    split at hs
    · cases hs
      exact h.of_frame rfl rfl le_rfl
        (fun _ _ _ => Or.imp_right (Or.imp_right fun hp => hp.spawn _ _))
        fun _ _ _ => Or.imp_right fun hp => hp.spawn _ _
    · rename_i next hc
      cases hs
      refine h.writeRoom rfl (h.commit hop.2.2.2 hc) (fun _ hp => hp.spawn _ _)
        (fun _ hp => hp.spawn _ _) fun userId ho => ?_
      rcases commit_offline (h.keysMatch roomId) hc ho with ⟨state,hstate,hbefore⟩ | hmarks
      · exact Or.inl (PruneWorld.offline_eq_true.mpr ⟨state,hstate,hbefore⟩)
      · right
        cases aborted with
        | false =>
          obtain ⟨hset,hmember⟩ := @mem_pruneSideEffects env roomId _ _ _ hmarks
          exact ⟨pending_spawn_of_mem _ _ hset,pending_spawn_of_mem _ _ hmember⟩
        | true =>
          simp only [keepsGrace,hc,Option.isNone_some,Bool.and_eq_true,Bool.not_true,
            Bool.false_or,List.isEmpty_iff] at hguard
          rw [hguard.2] at hmarks
          cases hmarks
  · cases hs

theorem run_inv (h : PruneInv env s) {n : ℕ} (hguard : keepsGrace env s (.run n) = true)
    (hs : stepPrune env s (.run n) = some s') : PruneInv env s' := by
  have hrun : s.run (fun w command => some (executePrune env w command)) n = some s' := hs
  obtain ⟨command,more,hhead,hexec,hkeep,-,-⟩ := run_spec hrun
  have htimely : timely s command = true := by
    simpa [keepsGrace,hhead] using hguard
  have hworld : (executePrune env s.world command).1 = s'.world :=
    congrArg Prod.fst (Option.some.inj hexec)
  -- No command but the one that ran has gone.
  have hgrace : ∀ key, command ≠ .setGrace key → s.Pending (.setGrace key) →
      s'.Pending (.setGrace key) := fun key hne hp => hkeep _ hp hne.symm
  have hadd : ∀ member, command ≠ .sAdd member → s.Pending (.sAdd member) →
      s'.Pending (.sAdd member) := fun member hne hp => hkeep _ hp hne.symm
  have hsame : s'.world = s.world → (∀ key, command ≠ .setGrace key) →
      (∀ member, command ≠ .sAdd member) → PruneInv env s' := by
    intro hw hne hne'
    refine h.of_frame (by rw [hw]) (by rw [hw]) (by rw [hw]) (fun r u _ hg => ?_) fun r u _ hi => ?_
    · simp only [Graced,hw] at hg ⊢
      exact hg.imp_right (Or.imp_right (hgrace _ (hne _)))
    · simp only [Indexed,hw] at hi ⊢
      exact hi.imp_right (hadd _ (hne' _))
  cases command with
  | setGrace key =>
    simp only [executePrune] at hworld
    refine h.of_frame (by rw [← hworld]) (by rw [← hworld]) (by rw [← hworld])
      (fun r u ho hg => ?_) fun r u _ hi => ?_
    · have hpast := h.past r u ho
      simp only [Graced,← hworld,Record.get?_set] at hg ⊢
      by_cases hk : roomParticipantPruneKey r u = key
      · right
        left
        exact ⟨_,if_pos hk,by omega⟩
      · rw [if_neg hk]
        refine hg.imp_right (Or.imp_right (hgrace _ ?_))
        rintro ⟨⟩
        exact hk rfl
    · simp only [Indexed,← hworld] at hi ⊢
      exact hi.imp_right (hadd _ (by simp))
  | delGrace key =>
    simp only [executePrune] at hworld
    refine h.of_frame (by rw [← hworld]) (by rw [← hworld]) (by rw [← hworld])
      (fun r u ho hg => ?_) fun r u _ hi => ?_
    · have hsafe := List.all_eq_true.mp htimely _ (PruneWorld.mem_offlineUsers ho)
      simp only [Bool.or_eq_true,bne_iff_ne,decide_eq_true_eq] at hsafe
      simp only [Graced,← hworld,Record.get?_erase] at hg ⊢
      rcases hsafe with (hk | hover) | hset
      · rw [if_neg hk]
        exact hg.imp_right (Or.imp_right (hgrace _ (by simp)))
      · exact Or.inl hover
      · by_cases hk : roomParticipantPruneKey r u = key
        · rw [hk]
          exact Or.inr (Or.inr (hgrace _ (by simp) hset))
        · rw [if_neg hk]
          exact hg.imp_right (Or.imp_right (hgrace _ (by simp)))
    · simp only [Indexed,← hworld] at hi ⊢
      exact hi.imp_right (hadd _ (by simp))
  | sAdd member =>
    simp only [executePrune] at hworld
    refine h.of_frame (by rw [← hworld]) (by rw [← hworld]) (by rw [← hworld])
      (fun r u ho hg => ?_) fun r u _ hi => ?_
    · simp only [Graced,← hworld] at hg ⊢
      exact hg.imp_right (Or.imp_right (hgrace _ (by simp)))
    · simp only [Indexed,← hworld] at hi ⊢
      have hold : ∀ m ∈ s.world.pending,
          m ∈ if member ∈ s.world.pending then s.world.pending else s.world.pending ++ [member] := by
        intro m hm
        split
        · exact hm
        · exact List.mem_append_left _ hm
      rcases hi with hi | hi
      · exact Or.inl (hold _ hi)
      · by_cases hm : member = encodePruneMember r u
        · left
          split
          · rename_i hmem
            exact hm ▸ hmem
          · exact List.mem_append_right _ (List.mem_singleton.mpr hm.symm)
        · refine Or.inr (hadd _ ?_ hi)
          rintro ⟨⟩
          exact hm rfl
  | sRem member =>
    simp only [executePrune] at hworld
    refine h.of_frame (by rw [← hworld]) (by rw [← hworld]) (by rw [← hworld])
      (fun r u ho hg => ?_) fun r u ho hi => ?_
    · simp only [Graced,← hworld] at hg ⊢
      exact hg.imp_right (Or.imp_right (hgrace _ (by simp)))
    · have hsafe := List.all_eq_true.mp htimely _ (PruneWorld.mem_offlineUsers ho)
      simp only [Bool.or_eq_true,bne_iff_ne,decide_eq_true_eq] at hsafe
      simp only [Indexed,← hworld] at hi ⊢
      by_cases hm : encodePruneMember r u = member
      · rw [hm]
        exact Or.inr (hadd _ (by simp) (hsafe.resolve_left fun hne => hne hm))
      · refine hi.imp (fun hi => List.mem_filter.mpr ⟨hi,by simpa using hm⟩) (hadd _ (by simp))
  | refreshPendingPrunesTtl =>
    simp only [executePrune] at hworld
    refine h.of_frame (by rw [← hworld]) (by rw [← hworld]) (by rw [← hworld])
      (fun r u ho hg => ?_) fun r u ho hi => ?_
    · simp only [Graced,← hworld] at hg ⊢
      exact hg.imp_right (Or.imp_right (hgrace _ (by simp)))
    · simp only [Indexed,← hworld] at hi ⊢
      exact hi.imp_right (hadd _ (by simp))
  | sMembers => exact hsame hworld.symm (by simp) (by simp)
  | checkGrace member =>
    refine hsame ?_ (by simp) (by simp)
    rw [← hworld]
    simp only [executePrune]
    split
    · rfl
    · split <;> rfl
  | remove roomId userId =>
    simp only [executePrune] at hworld
    split at hworld
    · exact hsame hworld.symm (by simp) (by simp)
    · rename_i next hnext
      obtain ⟨state,hstate,hc⟩ := Option.bind_eq_some_iff.mp hnext
      have hcommit : (RoomOp.prune userId s.world.now).commit env (s.world.rooms.get? roomId) =
          some next := by
        rw [hstate]
        exact hc
      have hstored : Stored env next := by
        refine h.commit ?_ hcommit
        exact trivial
      refine h.writeRoom hworld.symm hstored (fun key => hgrace key (by simp))
        (fun member => hadd member (by simp)) fun u ho => Or.inl ?_
      rcases commit_offline (h.keysMatch roomId) hcommit ho with ⟨found,hfound,hbefore⟩ | hmarks
      · exact PruneWorld.offline_eq_true.mpr ⟨found,hfound,hbefore⟩
      · cases hmarks

theorem step_inv (h : PruneInv env s) {action : PruneAction} (hguard : keepsGrace env s action = true)
    (hs : stepPrune env s action = some s') : PruneInv env s' := by
  cases action with
  | write roomId op aborted => exact write_inv h hguard hs
  | sweep =>
    cases hs
    exact h.of_frame rfl rfl le_rfl
      (fun _ _ _ => Or.imp_right (Or.imp_right fun hp => hp.spawn _ _))
      fun _ _ _ => Or.imp_right fun hp => hp.spawn _ _
  | run n => exact run_inv h hguard hs
  | tick now =>
    simp only [stepPrune] at hs
    split at hs
    · rename_i hnow
      cases hs
      refine h.of_frame rfl rfl hnow (fun r u _ hg => ?_) fun r u _ hi => ?_
      · simp only [Graced] at hg ⊢
        exact hg.imp_left (·.trans hnow)
      · refine hi.imp_left fun hmem => ?_
        simp only [keepsGrace,Bool.or_eq_true,List.isEmpty_iff] at hguard
        rcases hguard with hempty | halive
        · rw [hempty] at hmem
          cases hmem
        · cases hexpires : s.world.pendingExpiresAt with
          | none => exact hmem
          | some expiresAt =>
            rw [hexpires] at halive
            have hlt : now < expiresAt := of_decide_eq_true halive
            simp only [Option.any_some,decide_eq_true_eq,if_neg (not_le.mpr hlt)]
            exact hmem
    · cases hs

theorem careful_pruneInv (h : (carefulPrune env).Reachable s) : PruneInv env s := by
  apply Reachable.invariant (T := carefulPrune env) (PruneInv env) _ _ h
  · rintro s ⟨now,rfl⟩
    have hnobody : ∀ roomId userId, (pruneStart now).world.offline roomId userId ≠ true := by
      intro roomId userId ho
      cases ho
    constructor
    · intro roomId state hstate
      cases hstate
    · exact fun roomId userId ho => absurd ho (hnobody roomId userId)
    · exact fun roomId userId ho => absurd ho (hnobody roomId userId)
    · exact fun roomId userId ho => absurd ho (hnobody roomId userId)
  · intro s action s' _ hinv hstep
    exact step_inv hinv hstep.1 hstep.2

/-- A participant that a careful step takes out of a stored roster was offline there, and has
been for the whole grace. -/
theorem removed_after_grace (h : PruneInv env s) {action : PruneAction}
    (hguard : keepsGrace env s action = true) (hs : stepPrune env s action = some s')
    {roomId : String} {userId : UserId} (hin : s.world.inRoster roomId userId = true)
    (hout : s'.world.inRoster roomId userId = false) :
    s.world.offline roomId userId = true ∧
      s.world.wentOffline roomId userId+participantPruneMs ≤ s.world.now := by
  have hgone : s'.world.rooms ≠ s.world.rooms := by
    intro hrooms
    rw [PruneWorld.inRoster,hrooms] at hout
    rw [PruneWorld.inRoster,hout] at hin
    cases hin
  -- Only the room that is written loses anybody.
  have hwritten : ∀ r next, s'.world = s.world.writeRoom r next → roomId = r ∧
      (next.participants.get? userId).isSome = false := by
    intro r next hw
    have hget : s'.world.rooms.get? roomId =
        if roomId = r then some next else s.world.rooms.get? roomId := by
      rw [hw]
      exact Record.get?_set _ _ _ _
    rw [PruneWorld.inRoster,hget] at hout
    split at hout
    · rename_i hr
      exact ⟨hr,hout⟩
    · rw [PruneWorld.inRoster,hout] at hin
      cases hin
  obtain ⟨state,hstate,hbefore⟩ := (Option.any_eq_true _ _).mp hin
  cases action with
  | write r op aborted =>
    simp only [stepPrune] at hs
    split at hs
    · rename_i hop
      split at hs
      · cases hs
        exact absurd rfl hgone
      · rename_i next hc
        cases hs
        obtain ⟨rfl,hlost⟩ := hwritten r next rfl
        rw [hstate] at hop hc
        simp only [keepsGrace,hstate,hc,Option.isNone_some,Bool.false_or,Bool.and_eq_true,
          Option.all_some] at hguard
        have hsize : op.repairs = true →
            state.participants.size ≤ env.roomParticipantsLimit := by
          intro hrepairs
          simpa [hrepairs] using hguard.1
        have hkept := commit_drops_nobody (h.stored roomId state hstate).rosterInv hsize hop.1
          hop.2.2.2 hc userId
          ((Record.mem_keys_iff _ _).mpr (Option.isSome_iff_exists.mp hbefore))
        rw [Option.isSome_iff_exists.mpr ((Record.mem_keys_iff _ _).mp hkept)] at hlost
        cases hlost
    · cases hs
  | sweep =>
    cases hs
    exact absurd rfl hgone
  | tick now =>
    simp only [stepPrune] at hs
    split at hs
    · cases hs
      exact absurd rfl hgone
    · cases hs
  | run n =>
    have hrun : s.run (fun w command => some (executePrune env w command)) n = some s' := hs
    obtain ⟨command,more,hhead,hexec,-⟩ := run_spec hrun
    have hworld : (executePrune env s.world command).1 = s'.world :=
      congrArg Prod.fst (Option.some.inj hexec)
    have htimely : timely s command = true := by
      simpa [keepsGrace,hhead] using hguard
    cases command with
    | remove r u =>
      simp only [executePrune] at hworld
      split at hworld
      · exact absurd (by rw [← hworld]) hgone
      · rename_i next hnext
        obtain ⟨found,hfound,hc⟩ := Option.bind_eq_some_iff.mp hnext
        obtain ⟨rfl,hlost⟩ := hwritten r next hworld.symm
        cases hstate.symm.trans hfound
        obtain ⟨rfl,hoffline⟩ := prune_drops hc hbefore hlost
        have ho : s.world.offline roomId userId = true :=
          PruneWorld.offline_eq_true.mpr ⟨state,hstate,hoffline⟩
        refine ⟨ho,?_⟩
        simp only [timely,ho,Bool.not_true,Bool.false_or,Bool.and_eq_true,Bool.not_eq_true',
          decide_eq_false_iff_not] at htimely
        rcases h.graced roomId userId ho with hover | ⟨expiresAt,hkey,hle⟩ | hset
        · exact hover
        · have hexpired := htimely.1
          rw [graceLive,hkey,Option.any_some,decide_eq_false_iff_not] at hexpired
          omega
        · exact absurd hset htimely.2
    | checkGrace member =>
      refine absurd ?_ hgone
      rw [← hworld]
      simp only [executePrune]
      split
      · rfl
      · split <;> rfl
    | _ => exact absurd (by rw [← hworld]; rfl) hgone

/-- In every careful run, a participant is removed only when offline for the whole grace, and
whoever stays offline is in the index, or about to be added by the process that noticed. -/
theorem pruned_after_grace (h : (carefulPrune env).Reachable s) :
    (∀ action s' roomId userId, (carefulPrune env).step s action s' →
      s.world.inRoster roomId userId = true → s'.world.inRoster roomId userId = false →
      s.world.offline roomId userId = true ∧
        s.world.wentOffline roomId userId+participantPruneMs ≤ s.world.now) ∧
    ∀ roomId userId, s.world.offline roomId userId = true →
      encodePruneMember roomId userId ∈ s.world.pending ∨
        s.Pending (.sAdd (encodePruneMember roomId userId)) := by
  have hinv := careful_pruneInv h
  exact ⟨fun action s' roomId userId hstep hin hout =>
    removed_after_grace hinv hstep.1 hstep.2 hin hout,hinv.indexed⟩

end Invariant

section Scenario

def stepPruneTested (env : Env) (test : PruneState → PruneAction → Bool) (s : PruneState)
    (action : PruneAction) : Option PruneState :=
  if test s action then stepPrune env s action else none

theorem restrict_of_stepPruneTested {env : Env} {test : PruneState → PruneAction → Bool}
    (s : PruneState) (action : PruneAction) (s' : PruneState)
    (h : stepPruneTested env test s action = some s') :
    ((pruneSystem env).restrict fun s action => test s action = true).step s action s' := by
  rw [stepPruneTested] at h
  split at h
  · rename_i htest
    exact ⟨htest,h⟩
  · cases h

/-- Ann and Bob join; Ann leaves at 2000; a minute later a sweep finds that no grace runs. -/
def untilSweep : List PruneAction :=
  [.write "room" (joinAs "ann" 1000 {}) false,.run 0,.run 0,.run 0,
    .write "room" (joinAs "bob" 1000 {"ann"}) false,.run 1,.run 1,.run 1,.tick 2000,
    .write "room" (.disconnect "room" "ann" {"bob"} 2000) false,.run 2,.run 2,.run 2,
    .tick 62000,.sweep,.run 3,.run 3]

def backAndGone : List PruneAction :=
  [.write "room" (joinAs "ann" 62000 {"bob"}) false,.run 4,.run 4,.run 4]

def goneAgain : List PruneAction :=
  [.write "room" (.disconnect "room" "ann" {"bob"} 62000) false,.run 5,.run 5,.run 5]

theorem pruned_after_a_minute : ∃ s s' : PruneState,
    (carefulPrune scenarioEnv).Reachable s ∧
    (carefulPrune scenarioEnv).step s (.run 3) s' ∧
    s.world.inRoster "room" "ann" = true ∧ s'.world.inRoster "room" "ann" = false ∧
    s.world.wentOffline "room" "ann"+participantPruneMs ≤ s.world.now := by
  have hrun : ((runSteps (stepPruneTested scenarioEnv (keepsGrace scenarioEnv)) (pruneStart 1000)
      untilSweep).any fun s => s.world.inRoster "room" "ann" &&
        (stepPruneTested scenarioEnv (keepsGrace scenarioEnv) s (.run 3)).any fun s' =>
          !s'.world.inRoster "room" "ann") = true := by
    decide +kernel
  obtain ⟨s,hs,hfacts⟩ := (Option.any_eq_true _ _).mp hrun
  rw [Bool.and_eq_true] at hfacts
  obtain ⟨s',hs',hout⟩ := (Option.any_eq_true _ _).mp hfacts.2
  rw [Bool.not_eq_true'] at hout
  have hr : (carefulPrune scenarioEnv).Reachable s :=
    .of_runSteps restrict_of_stepPruneTested untilSweep (.init ⟨1000,rfl⟩) hs
  have hstep := restrict_of_stepPruneTested s (.run 3) s' hs'
  exact ⟨s,s',hr,hstep,hfacts.1,hout,
    ((pruned_after_grace hr).1 (.run 3) s' "room" "ann" hstep hfacts.1 hout).2⟩

/-- The sweep removes Ann right after she left again; or, if it comes while she is back, it
drops the membership of the index that she gets when she leaves again. -/
theorem sweep_overtakes_return :
    (¬∀ (s s' : PruneState) (action : PruneAction) (roomId : String) (userId : UserId),
      (pruneSystem scenarioEnv).Reachable s → (pruneSystem scenarioEnv).step s action s' →
      s.world.inRoster roomId userId = true → s'.world.inRoster roomId userId = false →
      s.world.wentOffline roomId userId+participantPruneMs ≤ s.world.now) ∧
    ¬∀ (s : PruneState) (roomId : String) (userId : UserId),
      (pruneSystem scenarioEnv).Reachable s → s.tasks.flatten = [] →
      s.world.offline roomId userId = true →
      encodePruneMember roomId userId ∈ s.world.pending := by
  constructor
  · intro h
    have hrun : ((runSteps (stepPruneTested scenarioEnv fun _ _ => true) (pruneStart 1000)
        (untilSweep ++ backAndGone ++ goneAgain)).any fun s =>
          s.world.inRoster "room" "ann" && decide (s.world.now = 62000) &&
          decide (s.world.wentOffline "room" "ann" = 62000) &&
          (stepPrune scenarioEnv s (.run 3)).any fun s' =>
            !s'.world.inRoster "room" "ann") = true := by
      decide +kernel
    obtain ⟨s,hs,hfacts⟩ := (Option.any_eq_true _ _).mp hrun
    simp only [Bool.and_eq_true,decide_eq_true_eq] at hfacts
    obtain ⟨⟨⟨hin,hnow⟩,hwent⟩,hout⟩ := hfacts
    obtain ⟨s',hs',hout⟩ := (Option.any_eq_true _ _).mp hout
    rw [Bool.not_eq_true'] at hout
    have hr := Reachable.of_runSteps restrict_of_stepPruneTested _ (.init ⟨1000,rfl⟩) hs
    have hle := h s s' (.run 3) "room" "ann" (.of_restrict hr) hs' hin hout
    rw [hwent,hnow] at hle
    exact absurd hle (by decide)
  · intro h
    have hrun : ((runSteps (stepPruneTested scenarioEnv fun _ _ => true) (pruneStart 1000)
        (untilSweep ++ backAndGone ++ [.run 3] ++ goneAgain ++ [.run 3,.run 3])).any fun s =>
          decide (s.tasks.flatten = []) && s.world.offline "room" "ann" &&
          s.world.pending.isEmpty) = true := by
      decide +kernel
    obtain ⟨s,hs,hfacts⟩ := (Option.any_eq_true _ _).mp hrun
    simp only [Bool.and_eq_true,decide_eq_true_eq,List.isEmpty_iff] at hfacts
    obtain ⟨⟨hdone,hoffline⟩,hempty⟩ := hfacts
    have hr := Reachable.of_runSteps restrict_of_stepPruneTested _ (.init ⟨1000,rfl⟩) hs
    have hmem := h s "room" "ann" (.of_restrict hr) hdone hoffline
    rw [hempty] at hmem
    cases hmem

end Scenario

end WebSyncPlay
