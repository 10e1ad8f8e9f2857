import WebSyncPlay.RoomMessages

/-! What a committed room message does, up to the action log: one effect for each
kind of body, with the gate that let it run. -/
namespace WebSyncPlay

open Library

@[simps] def RoomState.withLog (state : RoomState) (log : List ActionLogEntry) : RoomState :=
  { state with actionLog := log }

/-- The message, what its body makes of the room, and the gate. -/
inductive MessageEffect (env : Env) (ctx : RoomMessageContext) (inp : MessageInputs)
    (state : RoomState) (participant : ParticipantState) : RoomMessage → RoomState → Prop
  | seek (hc : canControlFromConnectionContext state ctx.userId ctx.auth = true)
      (targetMs : ℚ) (log : List ActionLogEntry) :
      MessageEffect env ctx inp state participant (.playbackSeek targetMs)
        ((commitPlaybackSeek state targetMs inp.now).withLog log)
  | setPaused (hc : canControlFromConnectionContext state ctx.userId ctx.auth = true)
      (msg : RoomMessage) (paused : Bool) (log : List ActionLogEntry)
      (hmsg : msg = .playbackPlay ∨ msg = .playbackPause) :
      MessageEffect env ctx inp state participant msg
        (RoomState.withLog { state with
          playback := { state.playback with
            timelineAnchorMs := max 0 (resolveCurrentTimelineMs state inp.now)
            paused := paused
            serverNowMs := nextMonotonicMs state.playback.serverNowMs inp.now } } log)
  | rate (hc : canControlFromConnectionContext state ctx.userId ctx.auth = true)
      (playbackRate : ℚ) (log : List ActionLogEntry) :
      MessageEffect env ctx inp state participant (.playbackRate playbackRate)
        (RoomState.withLog { reanchorPlaybackAtNow state inp.now with
          playback := { (reanchorPlaybackAtNow state inp.now).playback with
            playbackRate := playbackRate } } log)
  | loop (hc : canControlFromConnectionContext state ctx.userId ctx.auth = true)
      (msg : RoomMessage) (mode : LoopMode) (scope : LoopScope) (log : List ActionLogEntry)
      (hmsg : msg = .playbackLoopVideo mode ∨ msg = .playbackLoopPlaylist mode) :
      MessageEffect env ctx inp state participant msg
        (RoomState.withLog { state with playback := state.playback.setLoopMode mode scope } log)
  | select (hc : canControlFromConnectionContext state ctx.userId ctx.auth = true)
      (index : ℕ) (next : RoomState) (log : List ActionLogEntry)
      (h : applyPlaylistSelect state index inp.now = some next) :
      MessageEffect env ctx inp state participant (.playlistSelect index) (next.withLog log)
  | addUrl (hc : canControlFromConnectionContext state ctx.userId ctx.auth = true)
      (url : String) (log : List ActionLogEntry)
      (hlimit : isPlaylistAtLimit state env.roomPlaylistLimit = false) :
      MessageEffect env ctx inp state participant (.playlistAddUrl url)
        (RoomState.withLog { state with
          playlist := state.playlist ++
            [buildRemoteUrlPlaylistItem inp.newId url ctx.userId inp.now] } log)
  | addLocal (hc : canControlFromConnectionContext state ctx.userId ctx.auth = true)
      (parsed : AddLocalInput) (log : List ActionLogEntry)
      (hlimit : isPlaylistAtLimit state env.roomPlaylistLimit = false) :
      MessageEffect env ctx inp state participant (.playlistAddLocal parsed)
        (RoomState.withLog { state with
          playlist := state.playlist ++
            [buildLocalFilePlaylistItem inp.newId parsed.name parsed.localMediaId parsed.mimeType
              parsed.sizeBytes ctx.userId inp.now parsed.durationSeconds]
          currentIndex := if state.playlist.length = 0 then 0 else state.currentIndex
          playback := if state.playlist.length = 0 then { state.playback with paused := false }
            else state.playback } log)
  | itemError (hc : canControlFromConnectionContext state ctx.userId ctx.auth = true)
      (itemId : ItemId) (error : Option String) (next : RoomState) (cleared : Bool)
      (log : List ActionLogEntry)
      (h : applyPlaylistItemError state itemId error inp.now = some (next,cleared)) :
      MessageEffect env ctx inp state participant (.playlistItemError itemId error)
        (next.withLog log)
  | reorder (hc : canControlFromConnectionContext state ctx.userId ctx.auth = true)
      (from_ to_ : ℕ) (next : RoomState) (log : List ActionLogEntry)
      (h : applyPlaylistReorder state from_ to_ = some next) :
      MessageEffect env ctx inp state participant (.playlistReorder from_ to_) (next.withLog log)
  | rename (hc : canControlFromConnectionContext state ctx.userId ctx.auth = true)
      (itemId : ItemId) (name : String) (next : RoomState) (log : List ActionLogEntry)
      (h : applyPlaylistRename state itemId name = some next) :
      MessageEffect env ctx inp state participant (.playlistRename itemId name) (next.withLog log)
  | remove (hc : canControlFromConnectionContext state ctx.userId ctx.auth = true)
      (itemId : ItemId) (next : RoomState) (log : List ActionLogEntry)
      (h : applyPlaylistRemove state itemId inp.now = some next) :
      MessageEffect env ctx inp state participant (.playlistRemove itemId) (next.withLog log)
  | itemDuration (itemId : ItemId) (durationSeconds : ℚ) (next : RoomState)
      (h : applyPlaylistItemDuration state itemId durationSeconds = some next) :
      MessageEffect env ctx inp state participant (.playlistItemDuration itemId durationSeconds) next
  | itemTitle (itemId : ItemId) (name : String) (next : RoomState)
      (h : applyPlaylistItemTitle state itemId name = some next) :
      MessageEffect env ctx inp state participant (.playlistItemTitle itemId name) next
  | localReady (localMediaId : String) (ready : Bool) :
      MessageEffect env ctx inp state participant (.localMediaReady localMediaId ready)
        { state with playlist := state.playlist.map (readyLocalItem ctx.userId localMediaId) }
  | abrPublish (durationSec : ℚ) (variants : List AbrVariant) (parent : LocalMediaEntry)
      (streams : List PlaylistMediaStream) (default : PlaylistMediaStream) (next : RoomState)
      (hparent : inp.localMediaEntry = some parent)
      (h : publishAbr ctx.userId parent.id durationSec streams default state = some next) :
      MessageEffect env ctx inp state participant (.localMediaAbrPublish durationSec variants) next
  | viewerMedia (parsed : ViewerMediaPreferencesInput) (item : PlaylistItem)
      (next : ParticipantState) (hitem : findItem state parsed.itemId = some item)
      (h : applyViewerMediaPreferences participant item parsed = some next) :
      MessageEffect env ctx inp state participant (.viewerMediaPreferences parsed)
        { state with
          participants := state.participants.modify ctx.userId fun _ => next
          updatedAt := inp.now }
  | profile (patch : ParticipantUpdateInput) (username avatarStyle : String)
      (localPlayback : ParticipantLocalPlayback) (log : List ActionLogEntry) :
      MessageEffect env ctx inp state participant (.participantUpdate patch)
        (RoomState.withLog { state with
          participants := state.participants.modify ctx.userId fun _ =>
            { participant with
              username := username
              avatarStyle := avatarStyle
              localPlayback := localPlayback } } log)
  | sameRole (hm : canManageRoomSecurityFromConnectionContext state ctx.userId ctx.auth = true)
      (targetUserId : UserId) (role : DefaultJoinRole) :
      MessageEffect env ctx inp state participant (.participantRoleUpdate targetUserId role) state
  | role (hm : canManageRoomSecurityFromConnectionContext state ctx.userId ctx.auth = true)
      (targetUserId : UserId) (role : DefaultJoinRole) (target : ParticipantState)
      (log : List ActionLogEntry) (ht : state.participants.get? targetUserId = some target)
      (howner : target.userId ≠ state.ownerId) :
      MessageEffect env ctx inp state participant (.participantRoleUpdate targetUserId role)
        (RoomState.withLog { state with
          participants := state.participants.modify targetUserId fun p =>
            { p with role := role.toRoomRole } } log)
  | security (hm : canManageRoomSecurityFromConnectionContext state ctx.userId ctx.auth = true)
      (msg : RoomMessage) (roomSecurity : RoomSecurityState) (log : List ActionLogEntry)
      (hmsg : (∃ password, msg = .roomPasswordSet password) ∨ msg = .roomPasswordClear ∨
        ∃ role, msg = .roomDefaultRoleSet role) :
      MessageEffect env ctx inp state participant msg
        (RoomState.withLog { state with roomSecurity := roomSecurity } log)

section Gates

variable {ctx : RoomMessageContext} {hint : RoomPublishHint} {state next : RoomState}
    {participant : ParticipantState} {body : RoomState → ParticipantState → Option RoomState}

theorem mutateControlledRoomMessage_body
    (h : (mutateControlledRoomMessage ctx hint body).body state participant = some next) :
    canControlFromConnectionContext state ctx.userId ctx.auth = true ∧
      body state participant = some next := by
  simp only [mutateControlledRoomMessage] at h
  split at h
  · rename_i hc
    exact ⟨hc,h⟩
  · cases h

theorem mutateOwnerRoomMessage_body
    (h : (mutateOwnerRoomMessage ctx body).body state participant = some next) :
    canManageRoomSecurityFromConnectionContext state ctx.userId ctx.auth = true ∧
      body state participant = some next := by
  simp only [mutateOwnerRoomMessage] at h
  split at h
  · rename_i hm
    exact ⟨hm,h⟩
  · cases h

end Gates

section Bodies

variable {env : Env} {ctx : RoomMessageContext} {inp : MessageInputs} {state next : RoomState}
    {participant : ParticipantState} {mutation : RoomMutation}

theorem setPlaybackPausedState_effect {paused : Bool} {msg : RoomMessage}
    (hmsg : msg = .playbackPlay ∨ msg = .playbackPause)
    (hw : setPlaybackPausedState env ctx inp paused = .mutate mutation)
    (h : mutation.body state participant = some next) :
    MessageEffect env ctx inp state participant msg next := by
  cases hw
  obtain ⟨hc,hb⟩ := mutateControlledRoomMessage_body h
  cases hb
  exact .setPaused hc msg paused _ hmsg

theorem setPlaybackLoopMode_effect {mode : LoopMode} {scope : LoopScope} {msg : RoomMessage}
    (hmsg : msg = .playbackLoopVideo mode ∨ msg = .playbackLoopPlaylist mode)
    (hw : setPlaybackLoopMode env ctx inp mode scope = .mutate mutation)
    (h : mutation.body state participant = some next) :
    MessageEffect env ctx inp state participant msg next := by
  cases hw
  obtain ⟨hc,hb⟩ := mutateControlledRoomMessage_body h
  dsimp only at hb
  split at hb
  · cases hb
    exact .loop hc msg mode scope state.actionLog hmsg
  · cases hb
    exact .loop hc msg mode scope _ hmsg

theorem handlePlaylistAddUrl_effect {url : String}
    (hw : handlePlaylistAddUrl env ctx inp url = .mutate mutation)
    (h : mutation.body state participant = some next) :
    MessageEffect env ctx inp state participant (.playlistAddUrl url) next := by
  unfold handlePlaylistAddUrl at hw
  split at hw
  · cases hw
  · cases hw
    obtain ⟨hc,hb⟩ := mutateControlledRoomMessage_body h
    split at hb
    · cases hb
    · rename_i hlimit
      cases hb
      exact .addUrl hc url _ (by simpa using hlimit)

theorem handlePlaylistAddLocal_effect {parsed : AddLocalInput}
    (hw : handlePlaylistAddLocal env ctx inp parsed = .mutate mutation)
    (h : mutation.body state participant = some next) :
    MessageEffect env ctx inp state participant (.playlistAddLocal parsed) next := by
  unfold handlePlaylistAddLocal at hw
  split at hw
  · cases hw
  · cases hw
    obtain ⟨hc,hb⟩ := mutateControlledRoomMessage_body h
    split at hb
    · cases hb
    · rename_i hlimit
      cases hb
      exact .addLocal hc parsed _ (by simpa using hlimit)

theorem handlePlaylistItemError_effect {itemId : ItemId} {error : Option String}
    (hw : handlePlaylistItemError env ctx inp itemId error = .mutate mutation)
    (h : mutation.body state participant = some next) :
    MessageEffect env ctx inp state participant (.playlistItemError itemId error) next := by
  cases hw
  obtain ⟨hc,hb⟩ := mutateControlledRoomMessage_body h
  split at hb
  · cases hb
  · rename_i reported cleared he
    split at hb
    · cases hb
      exact .itemError hc itemId error next cleared next.actionLog he
    · cases hb
      exact .itemError hc itemId error reported cleared _ he

theorem mutateControlledRoomMessage_map {hint : RoomPublishHint} {action : String}
    {op : RoomState → Option RoomState}
    (h : (mutateControlledRoomMessage ctx hint fun state participant =>
      (op state).map (logRoomAction env ctx inp.now participant action none)).body state participant =
        some next) :
    canControlFromConnectionContext state ctx.userId ctx.auth = true ∧
      ∃ result log, op state = some result ∧ next = result.withLog log := by
  obtain ⟨hc,hb⟩ := mutateControlledRoomMessage_body h
  obtain ⟨result,hr,rfl⟩ := Option.map_eq_some_iff.mp hb
  exact ⟨hc,result,_,hr,rfl⟩

theorem handleLocalMediaReady_effect {localMediaId : String} {ready : Bool}
    (hw : handleLocalMediaReady ctx inp localMediaId ready = .mutate mutation)
    (h : mutation.body state participant = some next) :
    MessageEffect env ctx inp state participant (.localMediaReady localMediaId ready) next := by
  unfold handleLocalMediaReady at hw
  split at hw
  · cases hw
    dsimp only at h
    split at h
    · cases h
      exact .localReady localMediaId ready
    · cases h
  · cases hw

theorem handleLocalMediaAbrPublish_effect {durationSec : ℚ} {variants : List AbrVariant}
    (hw : handleLocalMediaAbrPublish ctx inp durationSec variants = .mutate mutation)
    (h : mutation.body state participant = some next) :
    MessageEffect env ctx inp state participant (.localMediaAbrPublish durationSec variants)
      next := by
  unfold handleLocalMediaAbrPublish at hw
  split at hw
  · cases hw
  · rename_i parent hparent
    split at hw
    · cases hw
    · split at hw
      · cases hw
      · cases hw
        exact .abrPublish durationSec variants parent _ _ next hparent h

theorem handleViewerMediaPreferences_effect {parsed : ViewerMediaPreferencesInput}
    (hw : handleViewerMediaPreferences ctx inp parsed = .mutate mutation)
    (h : mutation.body state participant = some next) :
    MessageEffect env ctx inp state participant (.viewerMediaPreferences parsed) next := by
  cases hw
  dsimp only at h
  split at h
  · cases h
  · rename_i item hitem
    obtain ⟨p,hp,rfl⟩ := Option.map_eq_some_iff.mp h
    exact .viewerMedia parsed item p hitem hp

theorem ite_appendActionLog_eq (env : Env) (c : Prop) [Decidable c] (entry : ActionLogEntry)
    (state : RoomState) :
    ∃ log, (if c then appendActionLog env state entry else state) = state.withLog log := by
  by_cases hc : c
  · exact ⟨_,by rw [if_pos hc]; rfl⟩
  · exact ⟨state.actionLog,by rw [if_neg hc]; rfl⟩

theorem persistParticipantUpdate_eq (env : Env) (ctx : RoomMessageContext) (inp : MessageInputs)
    (patch : ParticipantUpdateInput) (update : ParticipantUpdate) (room : RoomState)
    (p : ParticipantState) :
    ∃ log, persistParticipantUpdate env ctx inp patch update room p =
      RoomState.withLog { room with
        participants := room.participants.modify ctx.userId fun _ =>
          update.apply (aggregatedPlayback ctx inp update) p } log := by
  unfold persistParticipantUpdate logRoomAction
  dsimp only
  obtain ⟨log,hlog⟩ := ite_appendActionLog_eq env
    (update.identityDirty = true ∧
      (update.apply (aggregatedPlayback ctx inp update) p).username ≠ update.previousUsername)
    { at_ := inp.now, roomId := ctx.roomId, actorUserId := ctx.userId,
      actorUsername := some (update.apply (aggregatedPlayback ctx inp update) p).username,
      action := "participant:username" }
    { room with
      participants := room.participants.modify ctx.userId fun _ =>
        update.apply (aggregatedPlayback ctx inp update) p }
  rw [hlog]
  split
  · split
    · exact ⟨_,rfl⟩
    · exact ⟨log,rfl⟩
  · exact ⟨log,rfl⟩

theorem handleParticipantUpdate_effect {patch : ParticipantUpdateInput}
    (hw : handleParticipantUpdate env ctx inp patch = .mutate mutation)
    (h : mutation.body state participant = some next) :
    MessageEffect env ctx inp state participant (.participantUpdate patch) next := by
  unfold handleParticipantUpdate at hw
  split at hw
  · cases hw
  · dsimp only at hw
    split at hw
    · cases hw
      obtain ⟨log,hlog⟩ := persistParticipantUpdate_eq env ctx inp patch _ state participant
      cases h
      rw [hlog]
      exact .profile patch _ _ _ log
    · cases hw

theorem handleParticipantRoleUpdate_effect {targetUserId : UserId} {role : DefaultJoinRole}
    (hw : handleParticipantRoleUpdate env ctx inp targetUserId role = .mutate mutation)
    (h : mutation.body state participant = some next) :
    MessageEffect env ctx inp state participant (.participantRoleUpdate targetUserId role) next := by
  cases hw
  obtain ⟨hm,hb⟩ := mutateOwnerRoomMessage_body h
  split at hb
  · cases hb
  · rename_i target ht
    split at hb
    · cases hb
    · rename_i howner
      split at hb
      · cases hb
        exact .sameRole hm targetUserId role
      · cases hb
        exact .role hm targetUserId role target _ ht howner

theorem handleRoomPasswordClear_effect
    (hw : handleRoomPasswordClear env ctx inp = .mutate mutation)
    (h : mutation.body state participant = some next) :
    MessageEffect env ctx inp state participant .roomPasswordClear next := by
  cases hw
  obtain ⟨hm,hb⟩ := mutateOwnerRoomMessage_body h
  obtain ⟨result,hr,rfl⟩ := Option.map_eq_some_iff.mp hb
  simp only [clearJoinPassword] at hr
  split at hr
  · cases hr
    exact .security hm _ _ _ (Or.inr (Or.inl rfl))
  · cases hr

theorem handleRoomDefaultRoleSet_effect {role : DefaultJoinRole}
    (hw : handleRoomDefaultRoleSet env ctx inp role = .mutate mutation)
    (h : mutation.body state participant = some next) :
    MessageEffect env ctx inp state participant (.roomDefaultRoleSet role) next := by
  cases hw
  obtain ⟨hm,hb⟩ := mutateOwnerRoomMessage_body h
  obtain ⟨result,hr,rfl⟩ := Option.map_eq_some_iff.mp hb
  simp only [setDefaultJoinRole] at hr
  split at hr
  · cases hr
  · cases hr
    exact .security hm _ _ _ (Or.inr (Or.inr ⟨role,rfl⟩))

/-- Every body of the handler table has one of the effects. -/
theorem messageEffect_of_body {msg : RoomMessage}
    (hw : roomMessageHandlers env ctx inp msg = .mutate mutation)
    (h : mutation.body state participant = some next) :
    MessageEffect env ctx inp state participant msg next := by
  cases msg with
  | playbackSeek targetMs =>
    cases hw
    obtain ⟨hc,hb⟩ := mutateControlledRoomMessage_body h
    cases hb
    exact .seek hc targetMs _
  | playbackPlay => exact setPlaybackPausedState_effect (Or.inl rfl) hw h
  | playbackPause => exact setPlaybackPausedState_effect (Or.inr rfl) hw h
  | playbackRate playbackRate =>
    cases hw
    obtain ⟨hc,hb⟩ := mutateControlledRoomMessage_body h
    cases hb
    exact .rate hc playbackRate _
  | playbackLoopVideo mode => exact setPlaybackLoopMode_effect (Or.inl rfl) hw h
  | playbackLoopPlaylist mode => exact setPlaybackLoopMode_effect (Or.inr rfl) hw h
  | playlistAddUrl url => exact handlePlaylistAddUrl_effect hw h
  | playlistAddLocal parsed => exact handlePlaylistAddLocal_effect hw h
  | playlistSelect index =>
    cases hw
    obtain ⟨hc,result,log,hr,rfl⟩ := mutateControlledRoomMessage_map h
    exact .select hc index result log hr
  | playlistReorder from_ to_ =>
    cases hw
    obtain ⟨hc,result,log,hr,rfl⟩ := mutateControlledRoomMessage_map h
    exact .reorder hc from_ to_ result log hr
  | playlistRename itemId name =>
    cases hw
    obtain ⟨hc,result,log,hr,rfl⟩ := mutateControlledRoomMessage_map h
    exact .rename hc itemId name result log hr
  | playlistRemove itemId =>
    cases hw
    obtain ⟨hc,result,log,hr,rfl⟩ := mutateControlledRoomMessage_map h
    exact .remove hc itemId result log hr
  | playlistRetry itemId =>
    simp only [roomMessageHandlers,handlePlaylistRetry] at hw
    split at hw
    · split at hw
      · cases hw
      · split at hw
        · cases hw
        · split at hw <;> cases hw
    · cases hw
  | playlistItemError itemId error => exact handlePlaylistItemError_effect hw h
  | playlistItemDuration itemId durationSeconds =>
    cases hw
    exact .itemDuration itemId durationSeconds next h
  | playlistItemTitle itemId name =>
    cases hw
    exact .itemTitle itemId name next h
  | localMediaReady localMediaId ready => exact handleLocalMediaReady_effect hw h
  | localMediaAbrPublish durationSec variants => exact handleLocalMediaAbrPublish_effect hw h
  | viewerMediaPreferences parsed => exact handleViewerMediaPreferences_effect hw h
  | participantUpdate patch => exact handleParticipantUpdate_effect hw h
  | participantRoleUpdate targetUserId role => exact handleParticipantRoleUpdate_effect hw h
  | roomPasswordSet password =>
    cases hw
    obtain ⟨hm,hb⟩ := mutateOwnerRoomMessage_body h
    cases hb
    exact .security hm _ _ _ (Or.inl ⟨password,rfl⟩)
  | roomPasswordClear => exact handleRoomPasswordClear_effect hw h
  | roomDefaultRoleSet role => exact handleRoomDefaultRoleSet_effect hw h
  | localMediaChunk => cases hw
  | localMediaWebrtcSignal => cases hw
  | localMediaSfuCapabilities => cases hw
  | localMediaSfuCreateTransport => cases hw
  | localMediaSfuConnectTransport => cases hw
  | localMediaSfuProduceData => cases hw
  | localMediaSfuConsumeData => cases hw
  | seekPreview => cases hw

theorem playlistRetry_of_update {msg : RoomMessage} {f : RoomState → Option RoomState}
    (hw : roomMessageHandlers env ctx inp msg = .update f) :
    ∃ itemId, msg = .playlistRetry itemId ∧ f = reresolveRemotePlaylistItem itemId inp.now := by
  cases msg with
  | playlistRetry itemId =>
    simp only [roomMessageHandlers,handlePlaylistRetry] at hw
    split at hw
    · split at hw
      · cases hw
      · split at hw
        · cases hw
        · split at hw
          · cases hw
            exact ⟨itemId,rfl,rfl⟩
          · cases hw
    · cases hw
  | playlistAddUrl url =>
    simp only [roomMessageHandlers,handlePlaylistAddUrl] at hw
    split at hw <;> cases hw
  | playlistAddLocal parsed =>
    simp only [roomMessageHandlers,handlePlaylistAddLocal] at hw
    split at hw <;> cases hw
  | localMediaReady localMediaId ready =>
    simp only [roomMessageHandlers,handleLocalMediaReady] at hw
    split at hw <;> cases hw
  | localMediaAbrPublish durationSec variants =>
    simp only [roomMessageHandlers,handleLocalMediaAbrPublish] at hw
    split at hw
    · cases hw
    · split at hw
      · cases hw
      · split at hw <;> cases hw
  | participantUpdate patch =>
    simp only [roomMessageHandlers,handleParticipantUpdate] at hw
    split at hw
    · cases hw
    · split at hw <;> cases hw
  | _ => cases hw

/-- A message that commits is a retry, or an effect on the reconciled room followed by
the finish. -/
theorem processRoomMessage_cases {msg : RoomMessage}
    (h : processRoomMessage env ctx inp msg state = some next) :
    (∃ itemId, msg = .playlistRetry itemId ∧
      reresolveRemotePlaylistItem itemId inp.now state = some next) ∨
    ∃ participant mutated hint,
      (reconcileParticipantsConnectivity inp.activeConnections inp.now state).participants.get?
        ctx.userId = some participant ∧
      MessageEffect env ctx inp
        (reconcileParticipantsConnectivity inp.activeConnections inp.now state) participant msg
        mutated ∧
      next = finishRoomMessage env ctx.userId inp.newOwnerId inp.now hint mutated := by
  unfold processRoomMessage at h
  split at h
  · cases h
  · rename_i mutation hw
    obtain ⟨participant,mutated,hp,hb,hn⟩ := mutateRoomMessage_eq_some h
    exact Or.inr ⟨participant,mutated,mutation.hint,hp,messageEffect_of_body hw hb,hn⟩
  · rename_i f hw
    obtain ⟨itemId,rfl,rfl⟩ := playlistRetry_of_update hw
    exact Or.inl ⟨itemId,rfl,h⟩

end Bodies

end WebSyncPlay
