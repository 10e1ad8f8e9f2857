import WebSyncPlay.OwnershipInvariant
import WebSyncPlay.Playhead

/-! What a message may change without the right to control the room, without owning
it, and through the two reports that need no right at all. -/
namespace WebSyncPlay

open Library

/-- A player page, a control page without its token, or a guest. -/
def lacksControl (state : RoomState) (ctx : RoomMessageContext) : Prop :=
  ctx.auth.sessionKind = .player ∨
    (ctx.auth.isControlSession = true ∧ ctx.auth.controlAuthorized = false) ∨
    ∃ p, state.participants.get? ctx.userId = some p ∧ p.role = .guest

/-- The transport, the current index and the order of the items are as before. -/
structure ControlFrame (state next : RoomState) : Prop where
  playback : next.playback = state.playback
  currentIndex : next.currentIndex = state.currentIndex
  itemIds : itemIds next = itemIds state

/-- The security settings, the owner and every kept participant's role are as before,
and nobody has entered. -/
structure RightsFrame (state next : RoomState) : Prop where
  roomSecurity : next.roomSecurity = state.roomSecurity
  ownerId : next.ownerId = state.ownerId
  roles : state.participants.Derives SameRole next.participants

section Gates

variable {state : RoomState} {ctx : RoomMessageContext}

theorem lacksControl.not_control (h : lacksControl state ctx) :
    canControlFromConnectionContext state ctx.userId ctx.auth = false := by
  unfold canControlFromConnectionContext
  rcases h with hplayer | ⟨hsession,htoken⟩ | ⟨p,hp,hguest⟩
  · simp [passesSessionGate,hplayer]
  · have hgate : passesSessionGate ctx.auth = false := by
      simp [passesSessionGate,hsession,htoken]
    rw [hgate,Bool.false_and]
  · have hrole : hasPlaybackAndPlaylistControl state ctx.userId = false := by
      simp [hasPlaybackAndPlaylistControl,hp,hguest,canMutateByRole]
    rw [hrole,Bool.and_false]

theorem not_manage (h : ctx.userId ≠ state.ownerId ∨ passesSessionGate ctx.auth = false) :
    canManageRoomSecurityFromConnectionContext state ctx.userId ctx.auth = false := by
  unfold canManageRoomSecurityFromConnectionContext
  rcases h with hother | hgate
  · have hne : (state.ownerId == ctx.userId) = false := by simpa using hother.symm
    rw [hne,Bool.and_false]
  · rw [hgate,Bool.false_and]

theorem lacksControl.not_owner (h : lacksControl state ctx) (hroster : RosterInv state) :
    ctx.userId ≠ state.ownerId ∨ passesSessionGate ctx.auth = false := by
  rcases h with hplayer | ⟨hsession,htoken⟩ | ⟨p,hp,hguest⟩
  · exact Or.inr (by simp [passesSessionGate,hplayer])
  · exact Or.inr (by simp [passesSessionGate,hsession,htoken])
  · refine Or.inl fun howner => ?_
    have hrole := (hroster.owner ctx.userId p hp).mpr howner
    rw [hguest] at hrole
    cases hrole

/-- Presence has no say in who may control. -/
theorem canControl_reconcile (active : Finset UserId) (now : ℕ) (userId : UserId)
    (auth : ConnectionAuthContext) :
    canControlFromConnectionContext (reconcileParticipantsConnectivity active now state) userId
      auth = canControlFromConnectionContext state userId auth := by
  have hget : (reconcileParticipantsConnectivity active now state).participants.get? userId =
      (state.participants.get? userId).map (reconcileParticipant active now) :=
    Record.get?_mapValues _ _ _
  unfold canControlFromConnectionContext hasPlaybackAndPlaylistControl
  rw [hget]
  cases state.participants.get? userId with
  | none => rfl
  | some p =>
    have hrole := (reconcileParticipant_sameSeat active now p).role
    simp only [Option.map_some,hrole]

end Gates

section Security

variable {env : Env} {state next : RoomState}

/-- A repair finds the settings as they should be. -/
abbrev SecurityInv (state : RoomState) : Prop :=
  normalizeRoomSecurity state.roomSecurity = state.roomSecurity

theorem SecurityInv.of_normalized {security : RoomSecurityState}
    (h : next.roomSecurity = normalizeRoomSecurity security) : SecurityInv next := by
  rw [SecurityInv,h,normalizeRoomSecurity_idem]

theorem SecurityInv.congr (h : SecurityInv state) (hs : next.roomSecurity = state.roomSecurity) :
    SecurityInv next := by
  rw [SecurityInv,hs,h]

theorem join_security {input : JoinInput} {existing : Option RoomState}
    (hc : commitJoinMembership env input existing = some next) : SecurityInv next := by
  obtain ⟨log,generation,structuralRevision,rfl⟩ := commitJoinMembership_eq_some hc
  have hentered : (enterParticipant env input (joinBase env input existing)).1.roomSecurity =
      normalizeRoomSecurity (joinBase env input existing).roomSecurity :=
    transferOwnershipIfNeeded_roomSecurity env input.now _ .join
  generalize (enterParticipant env input (joinBase env input existing)).1 = entered at hentered ⊢
  exact .of_normalized hentered

theorem SecurityInv.step {op : RoomOp} (h : SecurityInv state)
    (hc : op.commit env (some state) = some next) : SecurityInv next := by
  cases op with
  | message ctx inp msg =>
    rcases processRoomMessage_cases hc with ⟨itemId,-,hr⟩ | ⟨p,mutated,hint,hp,he,rfl⟩
    · rw [(reresolveRemotePlaylistItem_eq_some hr).2]
      exact h.congr rfl
    · exact .of_normalized rfl
  | join input => exact join_security hc
  | disconnect roomId userId activeUsers now =>
    rw [(handleSocketDisconnect_eq_some hc).2]
    exact h.congr (applyUserWentOffline_roomSecurity env state roomId userId now)
  | abortJoin roomId userId now =>
    rw [abortJoinAfterCommit_eq_some hc]
    exact h.congr (applyUserWentOffline_roomSecurity env state roomId userId now)
  | cleanup activeConnections newOwnerId now =>
    have hswept : (transferOwnershipIfNeeded env now
        (sweepBase env activeConnections newOwnerId now state) .cleanup).1.roomSecurity =
          normalizeRoomSecurity state.roomSecurity :=
      transferOwnershipIfNeeded_roomSecurity env now _ .cleanup
    rw [cleanupInactiveRoom_eq_some hc]
    generalize transferOwnershipIfNeeded env now
      (sweepBase env activeConnections newOwnerId now state) .cleanup = swept at hswept ⊢
    exact .of_normalized hswept
  | prune userId now =>
    have hmoved := transferOwnershipIfNeeded_roomSecurity env now
      { state with participants := state.participants.erase userId } .prune
    rw [(removeDisconnectedParticipant_eq_some hc).2]
    generalize transferOwnershipIfNeeded env now
      { state with participants := state.participants.erase userId } .prune = moved at hmoved ⊢
    exact h.congr hmoved
  | pruneFallback now =>
    have hmoved := transferOwnershipIfNeeded_roomSecurity env now
      (pruneOfflineParticipants state now) .prune
    rw [pruneByDisconnectedAtFallback_eq_some hc]
    generalize transferOwnershipIfNeeded env now (pruneOfflineParticipants state now) .prune =
      moved at hmoved ⊢
    exact h.congr hmoved
  | reresolve itemId now =>
    rw [(reresolveRemotePlaylistItem_eq_some hc).2]
    exact h.congr rfl
  | settleResolve itemId outcome retryUntilPresent now =>
    rcases commitResolvingItem_eq_some hc with rfl | ⟨-,rfl⟩
    · exact h
    · exact h.congr rfl

theorem Stored.securityInv (h : Stored env state) : SecurityInv state := by
  apply h.invariant SecurityInv
  · intro input next _ hc
    exact join_security hc
  · intro state op next _ hi _ hc
    exact hi.step hc

end Security

section Frames

variable {env : Env} {ctx : RoomMessageContext} {inp : MessageInputs} {state next : RoomState}
    {participant : ParticipantState} {msg : RoomMessage}

theorem MessageEffect.controlFrame (he : MessageEffect env ctx inp state participant msg next)
    (hpl : PlaylistInv env state)
    (hc : canControlFromConnectionContext state ctx.userId ctx.auth = false) :
    ControlFrame state next := by
  have habsurd : ∀ {P : Prop}, canControlFromConnectionContext state ctx.userId ctx.auth = true →
      P := by
    intro P hcan
    rw [hc] at hcan
    cases hcan
  cases he with
  | seek hcan => exact habsurd hcan
  | setPaused hcan => exact habsurd hcan
  | rate hcan => exact habsurd hcan
  | loop hcan => exact habsurd hcan
  | select hcan => exact habsurd hcan
  | addUrl hcan => exact habsurd hcan
  | addLocal hcan => exact habsurd hcan
  | itemError hcan => exact habsurd hcan
  | reorder hcan => exact habsurd hcan
  | rename hcan => exact habsurd hcan
  | remove hcan => exact habsurd hcan
  | itemDuration _ _ _ hd =>
    rw [(applyPlaylistItemDuration_eq_some hd).2]
    exact ⟨rfl,rfl,updateItem_ids state _ fun _ => rfl⟩
  | itemTitle _ _ _ ht =>
    rw [(applyPlaylistItemTitle_eq_some ht).2]
    exact ⟨rfl,rfl,updateItem_ids state _ fun _ => rfl⟩
  | localReady localMediaId =>
    obtain ⟨-,hids⟩ : PlaylistInv env { state with
        playlist := state.playlist.map (readyLocalItem ctx.userId localMediaId) } ∧ _ :=
      hpl.map rfl rfl (readyLocalItem_id ctx.userId localMediaId)
        fun _ hi => hi.ready ctx.userId localMediaId
    exact ⟨rfl,rfl,hids⟩
  | abrPublish _ _ _ _ _ _ _ ha =>
    have hids := (hpl.publishAbr ha).2
    obtain ⟨-,rfl⟩ := publishAbr_eq_some ha
    exact ⟨rfl,rfl,hids⟩
  | viewerMedia => exact ⟨rfl,rfl,rfl⟩
  | profile => exact ⟨rfl,rfl,rfl⟩
  | sameRole => exact ⟨rfl,rfl,rfl⟩
  | role => exact ⟨rfl,rfl,rfl⟩
  | security => exact ⟨rfl,rfl,rfl⟩

theorem RosterEffect.rightsFrame (he : RosterEffect ctx state participant msg next)
    (hp : state.participants.get? ctx.userId = some participant)
    (hm : canManageRoomSecurityFromConnectionContext state ctx.userId ctx.auth = false) :
    RightsFrame state next := by
  have hreplaced : ∀ q, SameRole participant q →
      state.participants.Derives SameRole (state.participants.modify ctx.userId fun _ => q) := by
    intro q hq
    refine .modify _ ctx.userId SameRole.refl fun p hget => ?_
    have hsame : p = participant := Option.some.inj (hget.symm.trans hp)
    exact hsame ▸ hq
  cases he with
  | same hsame =>
    exact ⟨hsame.roomSecurity,hsame.ownerId,by
      rw [hsame.participants]
      exact .refl SameRole.refl _⟩
  | prune itemId _ hps ho hs =>
    exact ⟨hs,ho,by
      rw [hps]
      exact .mapValues _ (pruneViewerMedia_sameRole itemId)⟩
  | prefer parsed item p' _ hp' hps _ ho hs =>
    exact ⟨hs,ho,by
      rw [hps]
      exact hreplaced p' (applyViewerMediaPreferences_sameRole hp')⟩
  | profile p' hseat hps ho hs =>
    exact ⟨hs,ho,by
      rw [hps]
      exact hreplaced p' hseat.sameRole⟩
  | role hcan =>
    rw [hm] at hcan
    cases hcan
  | security hcan =>
    rw [hm] at hcan
    cases hcan

theorem RightsFrame.finish {mutated : RoomState} (h : RightsFrame state mutated)
    (hsecurity : SecurityInv state) (howner : state.ownerId ≠ "") (userId newOwnerId : UserId)
    (now : ℕ) (hint : RoomPublishHint) :
    RightsFrame state (finishRoomMessage env userId newOwnerId now hint mutated) := by
  have hseen : (repairParticipants env now mutated.participants).1.Derives SameRole
      ((repairParticipants env now mutated.participants).1.modify userId (markSeen now)) :=
    .modify _ userId SameRole.refl fun _ _ => ⟨rfl,rfl⟩
  refine ⟨?_,?_,?_⟩
  · exact (congrArg normalizeRoomSecurity h.roomSecurity).trans hsecurity
  · exact (if_neg (h.ownerId ▸ howner)).trans h.ownerId
  · exact (h.roles.trans SameRole.trans (repairParticipants_derives SameRole.refl SameRole.trans env
      now (fun _ => ⟨rfl,rfl⟩) _)).trans SameRole.trans hseen

theorem ControlFrame.finish {mutated : RoomState} (h : ControlFrame state mutated)
    (hok : PlaylistOk env state) (hpb : PlaybackInv state.playback) (hpl : PlaylistInv env mutated)
    (userId newOwnerId : UserId) (now : ℕ) (hint : RoomPublishHint) :
    ControlFrame state (finishRoomMessage env userId newOwnerId now hint mutated) := by
  obtain ⟨hplaylist,hindex⟩ := finishRoomMessage_playlist hpl userId newOwnerId now hint
  have hcur : getCurrentMediaId (finishRoomMessage env userId newOwnerId now hint mutated) =
      getCurrentMediaId state :=
    (getCurrentMediaId_congr hplaylist hindex).trans
      (getCurrentMediaId_of_ids h.itemIds h.currentIndex)
  refine ⟨?_,hindex.trans h.currentIndex,?_⟩
  · have hfinish : (finishRoomMessage env userId newOwnerId now hint mutated).playback =
        { sanitizePlayback mutated.playback with
          mediaId := getCurrentMediaId
            (finishRoomMessage env userId newOwnerId now hint mutated) } := rfl
    rw [hfinish,hcur,← hok.media,h.playback,sanitizePlayback_eq hpb]
  · rw [WebSyncPlay.itemIds,hplaylist]
    exact h.itemIds

/-- Every message keeps transport and order from those who cannot control the room, and
the rights from those who do not own it. -/
theorem message_frames (hs : Stored env state) (hf : (RoomOp.message ctx inp msg).Fresh (some state))
    (hc : processRoomMessage env ctx inp msg state = some next) :
    (lacksControl state ctx → ControlFrame state next) ∧
      (ctx.userId ≠ state.ownerId ∨ passesSessionGate ctx.auth = false → RightsFrame state next) := by
  rcases processRoomMessage_cases hc with ⟨itemId,-,hr⟩ | ⟨p,mutated,hint,hp,he,rfl⟩
  · have hids := reresolve_ids hr
    rw [(reresolveRemotePlaylistItem_eq_some hr).2] at hids ⊢
    exact ⟨fun _ => ⟨rfl,rfl,hids⟩,fun _ => ⟨rfl,rfl,.refl SameRole.refl _⟩⟩
  · have hinv : PlaylistInv env
        (reconcileParticipantsConnectivity inp.activeConnections inp.now state) :=
      hs.playlistOk.inv.congr rfl rfl
    have hmutated := (he.playlistInv hinv hf.1 hf.2).1
    constructor
    · intro hlacks
      have hnot := (canControl_reconcile inp.activeConnections inp.now ctx.userId ctx.auth).trans
        hlacks.not_control
      obtain ⟨hplayback,hindex,hids⟩ := he.controlFrame hinv hnot
      have hframe : ControlFrame state mutated := ⟨hplayback,hindex,hids⟩
      exact hframe.finish hs.playlistOk hs.timelineInv.playback hmutated _ _ _ _
    · intro hother
      obtain ⟨hsecurity,howner,hroles⟩ := he.roster.rightsFrame hp (not_manage hother)
      have hreconciled : state.participants.Derives SameRole
          (reconcileParticipantsConnectivity inp.activeConnections inp.now state).participants :=
        (reconcile_seats inp.activeConnections inp.now state).mono SameSeat.sameRole
      have hframe : RightsFrame state mutated :=
        ⟨hsecurity,howner,hreconciled.trans SameRole.trans hroles⟩
      exact hframe.finish hs.securityInv hs.rosterInv.ownerId_ne _ _ _ _

theorem MessageEffect.of_itemDuration {itemId : ItemId} {durationSeconds : ℚ}
    (he : MessageEffect env ctx inp state participant
      (.playlistItemDuration itemId durationSeconds) next) :
    applyPlaylistItemDuration state itemId durationSeconds = some next := by
  cases he with
  | itemDuration _ _ _ hd => exact hd
  | setPaused _ _ _ _ hmsg => rcases hmsg with hmsg | hmsg <;> cases hmsg
  | loop _ _ _ _ _ hmsg => rcases hmsg with hmsg | hmsg <;> cases hmsg
  | security _ _ _ _ hmsg => rcases hmsg with ⟨_,hmsg⟩ | hmsg | ⟨_,hmsg⟩ <;> cases hmsg

theorem MessageEffect.of_itemTitle {itemId : ItemId} {name : String}
    (he : MessageEffect env ctx inp state participant (.playlistItemTitle itemId name) next) :
    applyPlaylistItemTitle state itemId name = some next := by
  cases he with
  | itemTitle _ _ _ ht => exact ht
  | setPaused _ _ _ _ hmsg => rcases hmsg with hmsg | hmsg <;> cases hmsg
  | loop _ _ _ _ _ hmsg => rcases hmsg with hmsg | hmsg <;> cases hmsg
  | security _ _ _ _ hmsg => rcases hmsg with ⟨_,hmsg⟩ | hmsg | ⟨_,hmsg⟩ <;> cases hmsg

theorem report_playlist (hs : Stored env state)
    (hf : (RoomOp.message ctx inp msg).Fresh (some state))
    (hc : processRoomMessage env ctx inp msg state = some next)
    (hmsg : ∀ itemId, msg ≠ .playlistRetry itemId) :
    ∃ participant mutated, MessageEffect env ctx inp
      (reconcileParticipantsConnectivity inp.activeConnections inp.now state) participant msg
        mutated ∧ next.playlist = mutated.playlist := by
  rcases processRoomMessage_cases hc with ⟨itemId,hretry,-⟩ | ⟨p,mutated,hint,hp,he,rfl⟩
  · exact absurd hretry (hmsg itemId)
  · have hinv : PlaylistInv env
        (reconcileParticipantsConnectivity inp.activeConnections inp.now state) :=
      hs.playlistOk.inv.congr rfl rfl
    have hmutated := (he.playlistInv hinv hf.1 hf.2).1
    exact ⟨p,mutated,he,(finishRoomMessage_playlist hmutated _ _ _ _).1⟩

theorem durationReport_playlist (hs : Stored env state) {itemId : ItemId} {durationSeconds : ℚ}
    (hf : (RoomOp.message ctx inp (.playlistItemDuration itemId durationSeconds)).Fresh (some state))
    (hc : processRoomMessage env ctx inp (.playlistItemDuration itemId durationSeconds) state =
      some next) :
    ∃ item, findItem state itemId = some item ∧ item.durationSeconds.getD 0 ≤ 0 ∧
      next.playlist = (updateItem state itemId fun item =>
        { item with durationSeconds := some (roundHalfUp durationSeconds) }).playlist := by
  obtain ⟨p,mutated,he,hplaylist⟩ := report_playlist hs hf hc nofun
  obtain ⟨⟨item,hitem,hmissing⟩,rfl⟩ := applyPlaylistItemDuration_eq_some he.of_itemDuration
  exact ⟨item,hitem,hmissing,hplaylist⟩

theorem titleReport_playlist (hs : Stored env state) {itemId : ItemId} {name : String}
    (hf : (RoomOp.message ctx inp (.playlistItemTitle itemId name)).Fresh (some state))
    (hc : processRoomMessage env ctx inp (.playlistItemTitle itemId name) state = some next) :
    ∃ item, findItem state itemId = some item ∧ trim item.name = trim item.sourceUrl ∧
      next.playlist = (updateItem state itemId fun item =>
        { item with name := trim name }).playlist := by
  obtain ⟨p,mutated,he,hplaylist⟩ := report_playlist hs hf hc nofun
  obtain ⟨⟨item,hitem,hplaceholder⟩,rfl⟩ := applyPlaylistItemTitle_eq_some he.of_itemTitle
  exact ⟨item,hitem,hplaceholder,hplaylist⟩

end Frames

/-- A message of somebody who cannot control the room leaves the transport, the order
of the playlist and all rights as they were, one of somebody who does not own it the
rights; a duration report fills in one that is missing or not positive, a title report
one that is the source URL up to white space around it. -/
theorem message_authorization {env : Env} {state next : RoomState} {ctx : RoomMessageContext}
    {inp : MessageInputs} {msg : RoomMessage} (hs : Stored env state)
    (hf : (RoomOp.message ctx inp msg).Fresh (some state))
    (hc : processRoomMessage env ctx inp msg state = some next) :
    (lacksControl state ctx → ControlFrame state next ∧ RightsFrame state next) ∧
      (ctx.userId ≠ state.ownerId ∨ passesSessionGate ctx.auth = false →
        RightsFrame state next) ∧
      (∀ itemId durationSeconds, msg = .playlistItemDuration itemId durationSeconds →
        ∃ item, findItem state itemId = some item ∧ item.durationSeconds.getD 0 ≤ 0 ∧
          next.playlist = (updateItem state itemId fun item =>
            { item with durationSeconds := some (roundHalfUp durationSeconds) }).playlist) ∧
      (∀ itemId name, msg = .playlistItemTitle itemId name →
        ∃ item, findItem state itemId = some item ∧ trim item.name = trim item.sourceUrl ∧
          next.playlist = (updateItem state itemId fun item =>
            { item with name := trim name }).playlist) := by
  obtain ⟨hcontrol,hrights⟩ := message_frames hs hf hc
  refine ⟨fun h => ⟨hcontrol h,hrights (h.not_owner hs.rosterInv)⟩,hrights,?_,?_⟩
  · rintro itemId durationSeconds rfl
    exact durationReport_playlist hs hf hc
  · rintro itemId name rfl
    exact titleReport_playlist hs hf hc

section Scenarios

def reportFrom (userId : UserId) (msg : RoomMessage) : RoomOp :=
  messageFrom userId 9000 {"ann","bob","cat"} "new" msg

/-- Bob, a guest, names Ann's item. -/
theorem message_authorization_of_guest : ∃ state next : RoomState,
    (reportFrom "bob" (.playlistItemTitle "item" "Film")).commit scenarioEnv (some state) =
      some next ∧ ControlFrame state next ∧ RightsFrame state next := by
  let report := reportFrom "bob" (.playlistItemTitle "item" "Film")
  obtain ⟨state,hs,hf,hguest,hreport⟩ := exists_stored_of_runRoom scenarioEnv
    [joinAs "ann" 1000 {},joinAs "bob" 2000 {"ann"},
      messageFrom "ann" 3000 {"ann","bob"} "item" (.playlistAddUrl "https://film.example")]
    (fun state => report.Fresh (some state) ∧
      ((state.participants.get? "bob").any fun p => p.role == .guest) = true ∧
        (report.commit scenarioEnv (some state)).isSome = true)
    (by decide +kernel)
  obtain ⟨next,hc⟩ := Option.isSome_iff_exists.mp hreport
  obtain ⟨p,hp,hrole⟩ := (Option.any_eq_true _ _).mp hguest
  exact ⟨state,next,hc,(message_authorization hs hf hc).1
    (Or.inr (Or.inr ⟨p,hp,beq_iff_eq.mp hrole⟩))⟩

/-- A duration of zero is overwritten, as is a title that differs from the URL in its
white space; and a guest's message drops the newest of too many participants. -/
theorem reports_overwrite :
    (¬∀ (env : Env) (state next : RoomState) (ctx : RoomMessageContext) (inp : MessageInputs)
      (itemId : ItemId) (durationSeconds : ℚ), Stored env state →
        processRoomMessage env ctx inp (.playlistItemDuration itemId durationSeconds) state =
          some next →
        ∀ item, findItem state itemId = some item → item.durationSeconds = none) ∧
    (¬∀ (env : Env) (state next : RoomState) (ctx : RoomMessageContext) (inp : MessageInputs)
      (itemId : ItemId) (name : String), Stored env state →
        processRoomMessage env ctx inp (.playlistItemTitle itemId name) state = some next →
        ∀ item, findItem state itemId = some item → item.name = item.sourceUrl) ∧
    ¬∀ (env : Env) (state next : RoomState) (ctx : RoomMessageContext) (inp : MessageInputs)
      (msg : RoomMessage), Stored env state → lacksControl state ctx →
        processRoomMessage env ctx inp msg state = some next →
        ∀ userId p, state.participants.get? userId = some p →
          ∃ p', next.participants.get? userId = some p' ∧ p'.role = p.role := by
  refine ⟨fun h => ?_,fun h => ?_,fun h => ?_⟩
  · let report := reportFrom "ann" (.playlistItemDuration "item" 100)
    obtain ⟨state,hs,hreport,hitem⟩ := exists_stored_of_runRoom scenarioEnv
      [joinAs "ann" 1000 {},
        messageFrom "ann" 2000 {"ann"} "item" (.playlistAddLocal (videoFile "film" (some (1/5))))]
      (fun state => (report.commit scenarioEnv (some state)).isSome = true ∧
        ((findItem state "item").any fun item => item.durationSeconds == some 0) = true)
      (by decide +kernel)
    obtain ⟨next,hc⟩ := Option.isSome_iff_exists.mp hreport
    obtain ⟨item,hfound,hzero⟩ := (Option.any_eq_true _ _).mp hitem
    have hnone := h scenarioEnv state next _ _ "item" 100 hs hc item hfound
    rw [hnone] at hzero
    cases hzero
  · let report := reportFrom "ann" (.playlistItemTitle "item" "Film")
    obtain ⟨state,hs,hreport,hitem⟩ := exists_stored_of_runRoom scenarioEnv
      [.join {
        now := 1000, roomId := "room", userId := "ann", username := "ann",
        avatarStyle := defaultAvatarStyle, activeConnections := {},
        dailyDefaults := [⟨"https://film.example ","https://film.example"⟩],
        newIds := ["item"] }]
      (fun state => (report.commit scenarioEnv (some state)).isSome = true ∧
        ((findItem state "item").any fun item => item.name != item.sourceUrl) = true)
      (by decide +kernel)
    obtain ⟨next,hc⟩ := Option.isSome_iff_exists.mp hreport
    obtain ⟨item,hfound,hdiffer⟩ := (Option.any_eq_true _ _).mp hitem
    have hsame := h scenarioEnv state next _ _ "item" "Film" hs hc item hfound
    exact absurd hsame (bne_iff_ne.mp hdiffer)
  · let small : Env :=
      { scenarioEnv with
        roomParticipantsLimit := 2
        participants_pos := by decide
        participants_le := by decide }
    let report := reportFrom "bob" (.playlistItemDuration "item" 100)
    obtain ⟨state,hs,hreport,hcat,hguest⟩ := exists_stored_of_runRoom small
      [joinAs "ann" 1000 {},
        messageFrom "ann" 2000 {"ann"} "item" (.playlistAddUrl "https://film.example"),
        joinAs "bob" 3000 {"ann"},joinAs "cat" 4000 {"ann","bob"}]
      (fun state => ((report.commit small (some state)).any fun next =>
          (next.participants.get? "cat").isNone) = true ∧
        (state.participants.get? "cat").isSome = true ∧
        ((state.participants.get? "bob").any fun p => p.role == .guest) = true)
      (by decide +kernel)
    obtain ⟨next,hc,hgone⟩ := (Option.any_eq_true _ _).mp hreport
    obtain ⟨cat,hget⟩ := Option.isSome_iff_exists.mp hcat
    obtain ⟨p,hp,hrole⟩ := (Option.any_eq_true _ _).mp hguest
    have hlacks : lacksControl state (roomPage "bob") :=
      Or.inr (Or.inr ⟨p,hp,beq_iff_eq.mp hrole⟩)
    obtain ⟨p',hp',-⟩ := h small state next (roomPage "bob")
      { now := 9000, activeConnections := {"ann","bob","cat"}, newId := "new" }
      (.playlistItemDuration "item" 100) hs hlacks hc "cat" cat hget
    rw [hp'] at hgone
    cases hgone

end Scenarios

end WebSyncPlay
