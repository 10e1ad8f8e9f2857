import WebSyncPlay.MessageEffects
import WebSyncPlay.RoomSystem

/-! What holds of a stored room, aspect by aspect, and what the passes shared by the
operations leave alone: reconciling, repair, transfer and going offline. -/
namespace WebSyncPlay

open Library

/-- Nothing that rights or preferences rest on has changed. -/
structure SameSeat (p p' : ParticipantState) : Prop where
  userId : p'.userId = p.userId
  role : p'.role = p.role
  viewerMedia : p'.viewerMedia = p.viewerMedia

theorem SameSeat.refl (p : ParticipantState) : SameSeat p p := ⟨rfl,rfl,rfl⟩

theorem SameSeat.trans (a b c : ParticipantState) (h : SameSeat a b) (h' : SameSeat b c) :
    SameSeat a c :=
  ⟨h'.userId.trans h.userId,h'.role.trans h.role,h'.viewerMedia.trans h.viewerMedia⟩

theorem reconcileParticipant_sameSeat (activeUserIds : Finset UserId) (now : ℕ)
    (p : ParticipantState) : SameSeat p (reconcileParticipant activeUserIds now p) := by
  unfold reconcileParticipant
  dsimp only
  split
  · exact ⟨rfl,rfl,rfl⟩
  · split <;> exact ⟨rfl,rfl,rfl⟩

theorem reconcileParticipant_connected (active : Finset UserId) (now : ℕ) (p : ParticipantState) :
    (reconcileParticipant active now p).connected = decide (p.userId ∈ active) := by
  unfold reconcileParticipant
  cases hc : p.connected <;> by_cases ha : p.userId ∈ active <;> simp [ha]

abbrev Seats (ps ps' : Record UserId ParticipantState) : Prop := ps.Derives SameSeat ps'

theorem reconcile_seats (activeUserIds : Finset UserId) (now : ℕ) (state : RoomState) :
    Seats state.participants
      (reconcileParticipantsConnectivity activeUserIds now state).participants :=
  .mapValues _ (reconcileParticipant_sameSeat activeUserIds now)

theorem modify_seats (ps : Record UserId ParticipantState) (userId : UserId)
    (f : ParticipantState → ParticipantState) (hf : ∀ p, SameSeat p (f p)) :
    Seats ps (ps.modify userId f) :=
  .modify ps userId SameSeat.refl fun p _ => hf p

theorem repairParticipants_derives {R : ParticipantState → ParticipantState → Prop}
    (hrefl : ∀ p, R p p) (htrans : ∀ a b c, R a b → R b c → R a c) (env : Env) (now : ℕ)
    (hjoined : ∀ p, R p (repairJoinedAt now p)) (ps : Record UserId ParticipantState) :
    ps.Derives R (repairParticipants env now ps).1 := by
  have hfilter := Record.Derives.filter ps (fun userId _ => userId != "") hrefl
  have htake := Record.Derives.take (ps.filter fun userId _ => userId != "")
    env.roomParticipantsLimit hrefl
  have hmap : ((ps.filter fun userId _ => userId != "").take env.roomParticipantsLimit).Derives R
      (repairParticipants env now ps).1 := .mapValues _ hjoined
  exact (hfilter.trans htrans htake).trans htrans hmap

theorem repairParticipants_seats (env : Env) (now : ℕ) (ps : Record UserId ParticipantState) :
    Seats ps (repairParticipants env now ps).1 :=
  repairParticipants_derives SameSeat.refl SameSeat.trans env now (fun _ => ⟨rfl,rfl,rfl⟩) ps

section Repair

variable (env : Env) (now : ℕ) (newOwnerId : UserId) (state : RoomState)

@[simp] theorem applyRoomStateRepair_roomId :
    (applyRoomStateRepair env now newOwnerId state).roomId = state.roomId := rfl

@[simp] theorem applyRoomStateRepair_playback :
    (applyRoomStateRepair env now newOwnerId state).playback = sanitizePlayback state.playback := rfl

@[simp] theorem applyRoomStateRepair_roomSecurity :
    (applyRoomStateRepair env now newOwnerId state).roomSecurity =
      normalizeRoomSecurity state.roomSecurity := rfl

@[simp] theorem applyRoomStateRepair_ownerId :
    (applyRoomStateRepair env now newOwnerId state).ownerId =
      if state.ownerId = "" then newOwnerId else state.ownerId := rfl

@[simp] theorem applyRoomStateRepair_participants :
    (applyRoomStateRepair env now newOwnerId state).participants =
      (repairParticipants env now state.participants).1 := rfl

@[simp] theorem applyRoomStateRepair_revisions :
    (applyRoomStateRepair env now newOwnerId state).generation = state.generation ∧
      (applyRoomStateRepair env now newOwnerId state).structuralRevision =
        state.structuralRevision :=
  ⟨rfl,rfl⟩

end Repair

section Transfer

variable (env : Env) (now : ℕ) (state : RoomState) (reason : TransferReason)

/-- A transfer writes the owner, roles and the log; every other part reads the same. -/
theorem transferOwnershipIfNeeded_frame {α : Type*} (f : RoomState → α)
    (hf : ∀ s o ps l, f { s with ownerId := o, participants := ps, actionLog := l } = f s) :
    f (transferOwnershipIfNeeded env now state reason).1 = f state := by
  unfold transferOwnershipIfNeeded
  split
  · rfl
  · split
    · rfl
    · exact hf state _ _ _

@[simp] theorem transferOwnershipIfNeeded_playlist :
    (transferOwnershipIfNeeded env now state reason).1.playlist = state.playlist :=
  transferOwnershipIfNeeded_frame env now state reason (·.playlist) fun _ _ _ _ => rfl

@[simp] theorem transferOwnershipIfNeeded_currentIndex :
    (transferOwnershipIfNeeded env now state reason).1.currentIndex = state.currentIndex :=
  transferOwnershipIfNeeded_frame env now state reason (·.currentIndex) fun _ _ _ _ => rfl

@[simp] theorem transferOwnershipIfNeeded_playback :
    (transferOwnershipIfNeeded env now state reason).1.playback = state.playback :=
  transferOwnershipIfNeeded_frame env now state reason (·.playback) fun _ _ _ _ => rfl

@[simp] theorem transferOwnershipIfNeeded_roomSecurity :
    (transferOwnershipIfNeeded env now state reason).1.roomSecurity = state.roomSecurity :=
  transferOwnershipIfNeeded_frame env now state reason (·.roomSecurity) fun _ _ _ _ => rfl

/-- The roster after a transfer to the property `key`. -/
def transferredRoster (state : RoomState) (key : UserId) (nextOwner : ParticipantState) :
    Record UserId ParticipantState :=
  let promoted := state.participants.modify key fun p => { p with role := .owner }
  match promoted.get? state.ownerId with
  | some previousOwner =>
    if previousOwner.userId ≠ nextOwner.userId then
      promoted.modify state.ownerId fun p => { p with role := .guest }
    else promoted
  | none => promoted

/-- A transfer is refused and changes nothing, or makes the chosen entry the owner. -/
theorem transferOwnershipIfNeeded_cases :
    (transferOwnershipIfNeeded env now state reason = (state,false) ∧
      (keepsOwner (state.participants.get? state.ownerId) reason = true ∨
        nextOwnerEntry state.participants reason = none)) ∨
    ∃ key nextOwner, keepsOwner (state.participants.get? state.ownerId) reason = false ∧
      nextOwnerEntry state.participants reason = some (key,nextOwner) ∧
      (transferOwnershipIfNeeded env now state reason).2 = true ∧
      (transferOwnershipIfNeeded env now state reason).1.ownerId = nextOwner.userId ∧
      (transferOwnershipIfNeeded env now state reason).1.participants =
        transferredRoster state key nextOwner := by
  unfold transferOwnershipIfNeeded
  split
  · rename_i hkeeps
    exact Or.inl ⟨rfl,Or.inl hkeeps⟩
  · rename_i hkeeps
    split
    · rename_i hnone
      exact Or.inl ⟨rfl,Or.inr hnone⟩
    · rename_i key nextOwner hnext
      exact Or.inr ⟨key,nextOwner,by simpa using hkeeps,hnext,rfl,rfl,rfl⟩

theorem transferredRoster_derives {R : ParticipantState → ParticipantState → Prop}
    (hrefl : ∀ p, R p p) (htrans : ∀ a b c, R a b → R b c → R a c)
    (hrole : ∀ p role, R p { p with role := role }) (key : UserId) (nextOwner : ParticipantState) :
    state.participants.Derives R (transferredRoster state key nextOwner) := by
  have hpromoted : state.participants.Derives R
      (state.participants.modify key fun p => { p with role := .owner }) :=
    .modify _ key hrefl fun p _ => hrole p .owner
  unfold transferredRoster
  dsimp only
  split
  · split
    · exact hpromoted.trans htrans (.modify _ _ hrefl fun p _ => hrole p .guest)
    · exact hpromoted
  · exact hpromoted

theorem transferOwnershipIfNeeded_derives {R : ParticipantState → ParticipantState → Prop}
    (hrefl : ∀ p, R p p) (htrans : ∀ a b c, R a b → R b c → R a c)
    (hrole : ∀ p role, R p { p with role := role }) :
    state.participants.Derives R
      (transferOwnershipIfNeeded env now state reason).1.participants := by
  rcases transferOwnershipIfNeeded_cases env now state reason with ⟨he,-⟩ | ⟨key,next,-,-,-,-,he⟩
  · rw [he]
    exact .refl hrefl _
  · rw [he]
    exact transferredRoster_derives state hrefl htrans hrole key next

end Transfer

section Offline

variable (env : Env) (state : RoomState) (roomId : String) (userId : UserId) (nowMs : ℕ)

theorem applyUserWentOffline_frame {α : Type*} (f : RoomState → α)
    (hf : ∀ s l u, f { s with actionLog := l, updatedAt := u } = f s) :
    f (applyUserWentOffline env state roomId userId nowMs).1 =
      f (invalidateLocalMediaForOwner
        { state with participants := state.participants.modify userId (markOffline nowMs) } userId
        nowMs).1 := by
  let invalidated := (invalidateLocalMediaForOwner
    { state with participants := state.participants.modify userId (markOffline nowMs) } userId
    nowMs).1
  unfold applyUserWentOffline
  dsimp only
  split <;> split
  · exact hf invalidated invalidated.actionLog nowMs
  · exact hf invalidated _ nowMs
  · rfl
  · exact hf invalidated _ invalidated.updatedAt

@[simp] theorem applyUserWentOffline_playlist :
    (applyUserWentOffline env state roomId userId nowMs).1.playlist =
      state.playlist.map (blockLocalItem userId) :=
  applyUserWentOffline_frame env state roomId userId nowMs (·.playlist) fun _ _ _ => rfl

@[simp] theorem applyUserWentOffline_currentIndex :
    (applyUserWentOffline env state roomId userId nowMs).1.currentIndex = state.currentIndex :=
  applyUserWentOffline_frame env state roomId userId nowMs (·.currentIndex) fun _ _ _ => rfl

@[simp] theorem applyUserWentOffline_participants :
    (applyUserWentOffline env state roomId userId nowMs).1.participants =
      state.participants.modify userId (markOffline nowMs) :=
  applyUserWentOffline_frame env state roomId userId nowMs (·.participants) fun _ _ _ => rfl

@[simp] theorem applyUserWentOffline_ownerId :
    (applyUserWentOffline env state roomId userId nowMs).1.ownerId = state.ownerId :=
  applyUserWentOffline_frame env state roomId userId nowMs (·.ownerId) fun _ _ _ => rfl

@[simp] theorem applyUserWentOffline_roomSecurity :
    (applyUserWentOffline env state roomId userId nowMs).1.roomSecurity = state.roomSecurity :=
  applyUserWentOffline_frame env state roomId userId nowMs (·.roomSecurity) fun _ _ _ => rfl

theorem applyUserWentOffline_playback :
    (applyUserWentOffline env state roomId userId nowMs).1.playback =
      if invalidatesCurrent state userId && !state.playback.paused then
        { state.playback with
          paused := true
          serverNowMs := nextMonotonicMs state.playback.serverNowMs nowMs }
      else state.playback :=
  applyUserWentOffline_frame env state roomId userId nowMs (·.playback) fun _ _ _ => rfl

end Offline

theorem blockLocalItem_id (userId : UserId) (item : PlaylistItem) :
    (blockLocalItem userId item).id = item.id := by
  unfold blockLocalItem
  split <;> rfl

/-- What a socket's closing or an aborted join writes is the offline room with its
revisions bumped. -/
theorem handleSocketDisconnect_eq_some {env : Env} {roomId : String} {userId : UserId}
    {activeUsers : Finset UserId} {nowMs : ℕ} {state next : RoomState}
    (h : handleSocketDisconnect env roomId userId activeUsers nowMs state = some next) :
    userId ∉ activeUsers ∧
      next = bumpRoomRevisions (applyUserWentOffline env state roomId userId nowMs).1 := by
  unfold handleSocketDisconnect at h
  split at h
  · rename_i hempty
    cases h
    exact ⟨by simp [hempty],rfl⟩
  · split at h
    · cases h
    · rename_i hnot
      cases h
      exact ⟨hnot,rfl⟩

theorem abortJoinAfterCommit_eq_some {env : Env} {roomId : String} {userId : UserId} {nowMs : ℕ}
    {state next : RoomState}
    (h : abortJoinAfterCommit env roomId userId nowMs state = some next) :
    next = bumpRoomRevisions (applyUserWentOffline env state roomId userId nowMs).1 := by
  simp only [abortJoinAfterCommit] at h
  split at h
  · cases h
    rfl
  · cases h

theorem removeDisconnectedParticipant_eq_some {env : Env} {userId : UserId} {now : ℕ}
    {state next : RoomState} (h : removeDisconnectedParticipant env userId now state = some next) :
    (∃ p, state.participants.get? userId = some p ∧ p.connected = false) ∧
      next = { bumpRoomRevisions (transferOwnershipIfNeeded env now
        { state with participants := state.participants.erase userId } .prune).1 with
        updatedAt := now } := by
  unfold removeDisconnectedParticipant at h
  split at h
  · cases h
  · rename_i p hp
    split at h
    · cases h
    · rename_i hc
      cases h
      exact ⟨⟨p,hp,by simpa using hc⟩,rfl⟩

theorem pruneByDisconnectedAtFallback_eq_some {env : Env} {nowMs : ℕ} {state next : RoomState}
    (h : pruneByDisconnectedAtFallback env nowMs state = some next) :
    next = { bumpRoomRevisions (transferOwnershipIfNeeded env nowMs
      (pruneOfflineParticipants state nowMs) .prune).1 with updatedAt := nowMs } := by
  unfold pruneByDisconnectedAtFallback at h
  split at h
  · cases h
  · cases h
    rfl

/-- The state that the sweep transfers from: repaired and reconciled. -/
def sweepBase (env : Env) (activeConnections : Finset UserId) (newOwnerId : UserId) (now : ℕ)
    (current : RoomState) : RoomState :=
  reconcileParticipantsConnectivity activeConnections now
    (applyRoomStateRepair env now newOwnerId current)

theorem cleanupInactiveRoom_eq_some {env : Env} {activeConnections : Finset UserId}
    {newOwnerId : UserId} {now : ℕ} {current next : RoomState}
    (h : cleanupInactiveRoom env activeConnections newOwnerId now current = some next) :
    next = bumpRoomRevisions { (transferOwnershipIfNeeded env now
      (sweepBase env activeConnections newOwnerId now current) .cleanup).1 with
      updatedAt := now } := by
  simp only [cleanupInactiveRoom] at h
  split at h
  · cases h
    rfl
  · cases h

/-- Nothing outside the playlist and the playback has changed. -/
structure SameRoster (state next : RoomState) : Prop where
  participants : next.participants = state.participants
  ownerId : next.ownerId = state.ownerId
  roomSecurity : next.roomSecurity = state.roomSecurity

section Items

variable {env : Env} {state next : RoomState} {itemId : ItemId}

theorem applyPlaylistSelect_eq_some {index now : ℕ}
    (h : applyPlaylistSelect state index now = some next) :
    index < state.playlist.length ∧
      next = resetPlaybackTimeline { state with currentIndex := index } now false := by
  unfold applyPlaylistSelect at h
  split at h
  · cases h
  · rename_i hlt
    cases h
    exact ⟨not_le.mp hlt,rfl⟩

theorem applyPlaylistReorder_eq_some {from_ to_ : ℕ}
    (h : applyPlaylistReorder state from_ to_ = some next) :
    ∃ entry, state.playlist[from_]? = some entry ∧ to_ < state.playlist.length ∧
      next = { state with
        playlist := (state.playlist.eraseIdx from_).insertIdx to_ entry
        currentIndex := followCurrentMedia state
          ((state.playlist.eraseIdx from_).insertIdx to_ entry) } := by
  unfold applyPlaylistReorder at h
  split at h
  · cases h
  · rename_i entry hentry
    split at h
    · cases h
    · rename_i hto
      cases h
      exact ⟨entry,hentry,not_le.mp hto,rfl⟩

/-- An error report clears an item, finds it failed already, or fails it; a current
item that fails gives way to the next one, if there is one. -/
theorem applyPlaylistItemError_cases {error : Option String} {cleared : Bool} {now : ℕ}
    (h : applyPlaylistItemError state itemId error now = some (next,cleared)) :
    ∃ (index : ℕ) (item : PlaylistItem), state.playlist[index]? = some item ∧ item.id = itemId ∧
      ((error = none ∧ cleared = true ∧ next = updateItem state itemId fun item =>
          { item with ingestStatus := some .ready, ingestError := none }) ∨
        next = state ∨
        ∃ message failed, failed = (updateItem state itemId fun item =>
            { item with ingestStatus := some .error, ingestError := some message }) ∧
          (next = failed ∨
            state.currentIndex = (index : ℤ) ∧ index+1 < state.playlist.length ∧
              next = resetPlaybackTimeline { failed with currentIndex := (index+1 : ℕ) } now
                false)) := by
  unfold applyPlaylistItemError at h
  split at h
  · cases h
  · rename_i index hindex
    obtain ⟨hlt,hpos,-⟩ := List.findIdx?_eq_some_iff_getElem.mp hindex
    split at h
    · cases h
    · rename_i item hitem
      have hid : item.id = itemId := by
        obtain ⟨_,rfl⟩ := List.getElem?_eq_some_iff.mp hitem
        simpa using hpos
      refine ⟨index,item,hitem,hid,?_⟩
      dsimp only at h
      split at h
      · split at h
        · cases h
        · cases h
          exact Or.inl ⟨rfl,rfl,rfl⟩
      · rename_i message
        split at h
        · cases h
          exact Or.inr (Or.inl rfl)
        · refine Or.inr (Or.inr ⟨message,_,rfl,?_⟩)
          split at h
          · rename_i hadvance
            obtain ⟨hcur,-,hmin⟩ := hadvance
            have hnext : min (state.playlist.length-1) (index+1) = index+1 := by omega
            cases h
            exact Or.inr ⟨hcur,by omega,by rw [hnext]⟩
          · cases h
            exact Or.inl rfl

theorem publishAbr_eq_some {userId : UserId} {parentId : String} {durationSec : ℚ}
    {streams : List PlaylistMediaStream} {default : PlaylistMediaStream}
    (h : publishAbr userId parentId durationSec streams default state = some next) :
    (∃ item, state.playlist.find? (fun item => item.localMediaId == some parentId) = some item ∧
      item.localOriginUserId = some userId) ∧
      next = { state with
        playlist := modifyFirst (fun item => item.localMediaId == some parentId) (fun item =>
          { item with
            playableUrl := default.src
            sourceUrl := default.src
            durationSeconds := some durationSec
            mediaStreams := some (streams ++ [autoStream parentId])
            defaultStreamId := some default.id
            ingestStatus := some .ready }) state.playlist } := by
  simp only [publishAbr] at h
  split at h
  · cases h
  · rename_i item hitem
    split at h
    · cases h
    · rename_i howner
      cases h
      exact ⟨⟨item,hitem,not_not.mp howner⟩,rfl⟩

theorem applyPlaylistRename_eq_some {rawName : String}
    (h : applyPlaylistRename state itemId rawName = some next) :
    next = updateItem state itemId fun item => { item with name := trim rawName } := by
  simp only [applyPlaylistRename] at h
  split at h
  · cases h
  · split at h
    · cases h
    · cases h
      rfl

theorem applyPlaylistItemDuration_eq_some {durationSeconds : ℚ}
    (h : applyPlaylistItemDuration state itemId durationSeconds = some next) :
    (∃ item, findItem state itemId = some item ∧ item.durationSeconds.getD 0 ≤ 0) ∧
      next = updateItem state itemId fun item =>
        { item with durationSeconds := some (roundHalfUp durationSeconds) } := by
  unfold applyPlaylistItemDuration at h
  split at h
  · cases h
  · rename_i item hitem
    split at h
    · cases h
    · split at h
      · cases h
      · rename_i hknown
        cases h
        exact ⟨⟨item,hitem,not_lt.mp hknown⟩,rfl⟩

theorem applyPlaylistItemTitle_eq_some {rawName : String}
    (h : applyPlaylistItemTitle state itemId rawName = some next) :
    (∃ item, findItem state itemId = some item ∧ trim item.name = trim item.sourceUrl) ∧
      next = updateItem state itemId fun item => { item with name := trim rawName } := by
  simp only [applyPlaylistItemTitle] at h
  split at h
  · cases h
  · rename_i item hitem
    split at h
    · cases h
    · rename_i hnot
      cases h
      push Not at hnot
      exact ⟨⟨item,hitem,by simpa [isPlaylistItemNamePlaceholder] using hnot.1⟩,rfl⟩

theorem reresolveRemotePlaylistItem_eq_some {now : ℕ}
    (h : reresolveRemotePlaylistItem itemId now state = some next) :
    (∃ item, findItem state itemId = some item ∧ item.sourceKind = .remoteUrl ∧
      item.blockedReason ≠ some .localOwnerOffline) ∧
      next = touchRoomStructural (updateItem state itemId fun item =>
        { item with ingestStatus := some .resolving, ingestError := none }) now := by
  unfold reresolveRemotePlaylistItem at h
  split at h
  · cases h
  · rename_i item hitem
    split at h
    · cases h
    · rename_i hnot
      cases h
      push Not at hnot
      exact ⟨⟨item,hitem,hnot.1,hnot.2.1⟩,rfl⟩

theorem commitResolvingItem_eq_some {outcome : ResolveOutcome} {retryUntilPresent : Bool} {now : ℕ}
    (h : commitResolvingItem env itemId outcome retryUntilPresent now state = some next) :
    next = state ∨
      (∃ item, findItem state itemId = some item ∧ item.ingestStatus = some .resolving) ∧
        next = touchRoomStructural (updateItem state itemId (outcome.mutateItem env)) now := by
  unfold commitResolvingItem at h
  split at h
  · rename_i item hitem
    split at h
    · rename_i hwaits
      cases h
      exact Or.inr ⟨⟨item,hitem,hwaits⟩,rfl⟩
    · split at h
      · cases h
        exact Or.inl rfl
      · cases h
  · split at h
    · cases h
      exact Or.inl rfl
    · cases h

end Items

section Join

variable {env : Env} {input : JoinInput} {existing : Option RoomState} {next : RoomState}

/-- A finished join is the entered room, up to the log, the media mark, the activity
stamp and the revisions. -/
theorem finishJoin_eq (existingParticipant : Option ParticipantState) (priorOwnerId : UserId)
    (entered : RoomState × Bool) :
    ∃ log generation structuralRevision,
      finishJoin env input existingParticipant priorOwnerId entered =
        { markCurrentMedia entered.1 with
          actionLog := log
          updatedAt := input.now
          generation := generation
          structuralRevision := structuralRevision } := by
  obtain ⟨state,transferred⟩ := entered
  unfold finishJoin
  dsimp only
  split <;> split <;> exact ⟨_,_,_,rfl⟩

theorem commitJoinMembership_eq_some (h : commitJoinMembership env input existing = some next) :
    ∃ log generation structuralRevision, next =
      { markCurrentMedia (enterParticipant env input (joinBase env input existing)).1 with
        actionLog := log
        updatedAt := input.now
        generation := generation
        structuralRevision := structuralRevision } := by
  unfold commitJoinMembership at h
  dsimp only at h
  split at h
  · cases h
  · cases h
    exact finishJoin_eq _ _ _

theorem enterParticipant_frame (env : Env) (input : JoinInput) {α : Type*} (f : RoomState → α)
    (hf : ∀ s o ps l sec, f { s with
      ownerId := o, participants := ps, actionLog := l, roomSecurity := sec } = f s)
    (base : RoomState) : f (enterParticipant env input base).1 = f base :=
  (transferOwnershipIfNeeded_frame env input.now (seatJoiner input base) .join f
    fun s o ps l => hf s o ps l s.roomSecurity).trans
    (hf base base.ownerId (seatJoiner input base).participants base.actionLog
      (seatJoiner input base).roomSecurity)

end Join

/-- What a message does to the roster, the owner and the security settings. -/
inductive RosterEffect (ctx : RoomMessageContext) (state : RoomState)
    (participant : ParticipantState) (msg : RoomMessage) (next : RoomState) : Prop
  | same (h : SameRoster state next)
  | prune (itemId : ItemId) (hmsg : msg = .playlistRemove itemId)
      (hps : next.participants = state.participants.mapValues (pruneViewerMedia itemId))
      (ho : next.ownerId = state.ownerId) (hs : next.roomSecurity = state.roomSecurity)
  | prefer (parsed : ViewerMediaPreferencesInput) (item : PlaylistItem) (p' : ParticipantState)
      (hitem : findItem state parsed.itemId = some item)
      (hp' : applyViewerMediaPreferences participant item parsed = some p')
      (hps : next.participants = state.participants.modify ctx.userId fun _ => p')
      (hplaylist : next.playlist = state.playlist)
      (ho : next.ownerId = state.ownerId) (hs : next.roomSecurity = state.roomSecurity)
  | profile (p' : ParticipantState) (hseat : SameSeat participant p')
      (hps : next.participants = state.participants.modify ctx.userId fun _ => p')
      (ho : next.ownerId = state.ownerId) (hs : next.roomSecurity = state.roomSecurity)
  | role (hm : canManageRoomSecurityFromConnectionContext state ctx.userId ctx.auth = true)
      (targetUserId : UserId) (role : DefaultJoinRole) (target : ParticipantState)
      (ht : state.participants.get? targetUserId = some target)
      (howner : target.userId ≠ state.ownerId)
      (hps : next.participants = state.participants.modify targetUserId fun p =>
        { p with role := role.toRoomRole })
      (ho : next.ownerId = state.ownerId) (hs : next.roomSecurity = state.roomSecurity)
  | security (hm : canManageRoomSecurityFromConnectionContext state ctx.userId ctx.auth = true)
      (hps : next.participants = state.participants) (ho : next.ownerId = state.ownerId)

theorem applyPlaylistItemError_roster {state next : RoomState} {itemId : ItemId}
    {error : Option String} {cleared : Bool} {now : ℕ}
    (h : applyPlaylistItemError state itemId error now = some (next,cleared)) :
    SameRoster state next := by
  obtain ⟨index,item,-,-,⟨-,-,rfl⟩ | rfl | ⟨message,failed,rfl,rfl | ⟨-,-,rfl⟩⟩⟩ :=
    applyPlaylistItemError_cases h
  all_goals exact ⟨rfl,rfl,rfl⟩

theorem applyPlaylistRemove_roster {state next : RoomState} {itemId : ItemId} {now : ℕ}
    (h : applyPlaylistRemove state itemId now = some next) :
    next.participants = state.participants.mapValues (pruneViewerMedia itemId) ∧
      next.ownerId = state.ownerId ∧ next.roomSecurity = state.roomSecurity := by
  unfold applyPlaylistRemove at h
  split at h
  · cases h
  · cases h
    dsimp only
    split
    · exact ⟨rfl,rfl,rfl⟩
    · split
      · exact ⟨rfl,rfl,rfl⟩
      · split <;> exact ⟨rfl,rfl,rfl⟩

theorem MessageEffect.roster {env : Env} {ctx : RoomMessageContext} {inp : MessageInputs}
    {state next : RoomState} {participant : ParticipantState} {msg : RoomMessage}
    (he : MessageEffect env ctx inp state participant msg next) :
    RosterEffect ctx state participant msg next := by
  cases he with
  | seek => exact .same ⟨rfl,rfl,rfl⟩
  | setPaused => exact .same ⟨rfl,rfl,rfl⟩
  | rate => exact .same ⟨rfl,rfl,rfl⟩
  | loop => exact .same ⟨rfl,rfl,rfl⟩
  | select _ _ _ _ hs =>
    obtain ⟨-,rfl⟩ := applyPlaylistSelect_eq_some hs
    exact .same ⟨rfl,rfl,rfl⟩
  | addUrl => exact .same ⟨rfl,rfl,rfl⟩
  | addLocal => exact .same ⟨rfl,rfl,rfl⟩
  | itemError _ _ _ _ _ _ he =>
    obtain ⟨hps,ho,hs⟩ := applyPlaylistItemError_roster he
    exact .same ⟨hps,ho,hs⟩
  | reorder _ _ _ _ _ hr =>
    obtain ⟨entry,-,-,rfl⟩ := applyPlaylistReorder_eq_some hr
    exact .same ⟨rfl,rfl,rfl⟩
  | rename _ _ _ _ _ hr =>
    rw [applyPlaylistRename_eq_some hr]
    exact .same ⟨rfl,rfl,rfl⟩
  | remove _ itemId _ _ hr =>
    obtain ⟨hps,ho,hs⟩ := applyPlaylistRemove_roster hr
    exact .prune itemId rfl hps ho hs
  | itemDuration _ _ _ hd =>
    rw [(applyPlaylistItemDuration_eq_some hd).2]
    exact .same ⟨rfl,rfl,rfl⟩
  | itemTitle _ _ _ ht =>
    rw [(applyPlaylistItemTitle_eq_some ht).2]
    exact .same ⟨rfl,rfl,rfl⟩
  | localReady => exact .same ⟨rfl,rfl,rfl⟩
  | abrPublish _ _ _ _ _ _ _ ha =>
    obtain ⟨-,rfl⟩ := publishAbr_eq_some ha
    exact .same ⟨rfl,rfl,rfl⟩
  | viewerMedia parsed item p' hitem hp' => exact .prefer parsed item p' hitem hp' rfl rfl rfl rfl
  | profile _ username avatarStyle localPlayback =>
    exact .profile { participant with
      username := username, avatarStyle := avatarStyle, localPlayback := localPlayback }
      ⟨rfl,rfl,rfl⟩ rfl rfl rfl
  | sameRole => exact .same ⟨rfl,rfl,rfl⟩
  | role hm targetUserId role target _ ht howner =>
    exact .role hm targetUserId role target ht howner rfl rfl rfl
  | security hm => exact .security hm rfl rfl

end WebSyncPlay
