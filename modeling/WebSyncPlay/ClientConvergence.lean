import WebSyncPlay.ClientMerge

/-! What a client's copy holds after broadcasts in any order: the playback of the newest
generation always, the structure and the connectivity only as long as no snapshot comes
late. -/
namespace WebSyncPlay

open Library

section Preview

variable {env : Env} {state next : RoomState}

theorem applyPlaylistRemove_preview {itemId : ItemId} {now : ℕ}
    (h : applyPlaylistRemove state itemId now = some next) :
    next.playback.seekPreview = state.playback.seekPreview := by
  unfold applyPlaylistRemove at h
  split at h
  · cases h
  · cases h
    dsimp only
    split
    · rfl
    · split
      · rfl
      · split <;> rfl

theorem MessageEffect.preview {ctx : RoomMessageContext} {inp : MessageInputs}
    {participant : ParticipantState} {msg : RoomMessage}
    (he : MessageEffect env ctx inp state participant msg next)
    (h : state.playback.seekPreview = none) : next.playback.seekPreview = none := by
  cases he with
  | seek => rfl
  | loop _ _ _ scope => cases scope <;> exact h
  | select _ _ _ _ hs =>
    obtain ⟨-,rfl⟩ := applyPlaylistSelect_eq_some hs
    exact h
  | addLocal =>
    simp only [RoomState.withLog_playback]
    split <;> exact h
  | itemError _ _ _ _ _ _ he =>
    obtain ⟨index,item,-,-,⟨-,-,rfl⟩ | rfl | ⟨message,failed,hf,rfl | ⟨-,-,rfl⟩⟩⟩ :=
      applyPlaylistItemError_cases he
    · exact h
    · exact h
    · rw [hf]
      exact h
    · rw [hf]
      exact h
  | reorder _ _ _ _ _ hr =>
    obtain ⟨-,-,-,rfl⟩ := applyPlaylistReorder_eq_some hr
    exact h
  | rename _ _ _ _ _ hr =>
    rw [applyPlaylistRename_eq_some hr]
    exact h
  | remove _ _ _ _ hr => exact (applyPlaylistRemove_preview hr).trans h
  | itemDuration _ _ _ hd =>
    rw [(applyPlaylistItemDuration_eq_some hd).2]
    exact h
  | itemTitle _ _ _ ht =>
    rw [(applyPlaylistItemTitle_eq_some ht).2]
    exact h
  | abrPublish _ _ _ _ _ _ _ ha =>
    obtain ⟨-,rfl⟩ := publishAbr_eq_some ha
    exact h
  | _ => exact h

theorem wentOffline_preview {roomId : String} {userId : UserId} {now : ℕ}
    (h : state.playback.seekPreview = none) :
    (applyUserWentOffline env state roomId userId now).1.playback.seekPreview = none := by
  rw [applyUserWentOffline_playback]
  split <;> exact h

theorem commit_preview {op : RoomOp} (h : state.playback.seekPreview = none)
    (hc : op.commit env (some state) = some next) : next.playback.seekPreview = none := by
  cases op with
  | message ctx inp msg =>
    rcases processRoomMessage_cases hc with ⟨itemId,-,hr⟩ | ⟨p,mutated,hint,hp,he,rfl⟩
    · rw [(reresolveRemotePlaylistItem_eq_some hr).2]
      exact h
    · exact he.preview h
  | join input => rw [(join_playback hc),Option.getD_some]; exact h
  | disconnect roomId userId activeUsers now =>
    rw [(handleSocketDisconnect_eq_some hc).2]
    exact wentOffline_preview h
  | abortJoin roomId userId now =>
    rw [abortJoinAfterCommit_eq_some hc]
    exact wentOffline_preview h
  | cleanup activeConnections newOwnerId now =>
    have hswept := transferOwnershipIfNeeded_playback env now
      (sweepBase env activeConnections newOwnerId now state) .cleanup
    rw [cleanupInactiveRoom_eq_some hc]
    exact (congrArg PlaybackState.seekPreview hswept).trans h
  | prune userId now =>
    have hmoved := transferOwnershipIfNeeded_playback env now
      { state with participants := state.participants.erase userId } .prune
    rw [(removeDisconnectedParticipant_eq_some hc).2]
    exact (congrArg PlaybackState.seekPreview hmoved).trans h
  | pruneFallback now =>
    have hmoved := transferOwnershipIfNeeded_playback env now
      (pruneOfflineParticipants state now) .prune
    rw [pruneByDisconnectedAtFallback_eq_some hc]
    exact (congrArg PlaybackState.seekPreview hmoved).trans h
  | reresolve itemId now =>
    rw [(reresolveRemotePlaylistItem_eq_some hc).2]
    exact h
  | settleResolve itemId outcome retryUntilPresent now =>
    rcases commitResolvingItem_eq_some hc with rfl | ⟨-,rfl⟩
    · exact h
    · exact h

theorem Stored.no_preview (h : Stored env state) : state.playback.seekPreview = none := by
  apply h.invariant fun state => state.playback.seekPreview = none
  · intro input next _ hc
    rw [join_playback hc]
    rfl
  · intro state op next _ hi _ hc
    exact commit_preview hi hc

end Preview

structure RoomStructure where
  playlist : List PlaylistItem
  roles : Record UserId RoomRole
  ownerId : UserId
  roomSecurity : PublicRoomSecurityState
  deriving DecidableEq

def RoomState.structuralPart (state : RoomState) : RoomStructure where
  playlist := state.playlist
  roles := state.participants.mapValues (·.role)
  ownerId := state.ownerId
  roomSecurity := publicRoomSecurity (normalizeRoomSecurity state.roomSecurity)

def RoomSnapshotPayload.structuralPart (payload : RoomSnapshotPayload) : RoomStructure where
  playlist := payload.playlist
  roles := payload.participants.mapValues (·.role)
  ownerId := payload.ownerId
  roomSecurity := payload.roomSecurity

theorem mergeParticipantPresence_roles (prev : Record UserId ParticipantState)
    (patches : Record UserId PresencePatch) :
    (mergeParticipantPresence prev patches).mapValues (·.role) = prev.mapValues (·.role) := by
  unfold mergeParticipantPresence
  induction patches.entries generalizing prev with
  | nil => rfl
  | cons e es ih =>
    rw [List.foldl_cons,ih]
    exact Record.mapValues_modify prev e.1 fun _ => rfl

@[simp] theorem buildSanitizedSnapshot_structuralPart (state : RoomState)
    (overlay : Record UserId PresencePatch) (presenceRevision : ℕ) :
    (buildSanitizedSnapshot state overlay presenceRevision).structuralPart =
      state.structuralPart := by
  have hroles := mergeParticipantPresence_roles state.participants overlay
  simp only [RoomSnapshotPayload.structuralPart,RoomState.structuralPart,buildSanitizedSnapshot,
    applyPresenceOverlay,hroles]

/-- A later write has a new generation when it changes the playback, and a new structural
revision when it changes the structure. -/
structure CommittedAfter (s t : RoomState) : Prop where
  generation : s.generation ≤ t.generation
  playback : t.generation = s.generation → t.playback = s.playback
  structuralRevision : s.structuralRevision ≤ t.structuralRevision
  structuralPart : t.structuralRevision = s.structuralRevision →
    t.structuralPart = s.structuralPart

/-- The states that a run of the room commits, each with its new pair of revisions. -/
structure ServerRun (env : Env) (states : List RoomState) : Prop where
  stored : ∀ s ∈ states, Stored env s
  later : states.Pairwise CommittedAfter

/-- A broadcast built from one of the states; presence comes with any content. -/
def BuiltFrom (states : List RoomState) : ServerMessage → Prop
  | .control payload => ∃ s ∈ states, payload = controlPayloadFromState s
  | .snapshot payload => ∃ s ∈ states, ∃ overlay presenceRevision,
      payload = buildSanitizedSnapshot s overlay presenceRevision
  | .presence _ => True

/-- A client's copy and the messages that it was merged from, the last one first. -/
structure ClientRun where
  roomState : Option ClientRoomState
  received : List ServerMessage

/-- Broadcasts reach a client that holds a snapshot in any order, any number of times. -/
def mergeSystem (states : List RoomState) : TransitionSystem ClientRun ServerMessage where
  init c := ∃ payload, BuiltFrom states (.snapshot payload) ∧
    c = ⟨some payload,[.snapshot payload]⟩
  step c message c' := BuiltFrom states message ∧
    c' = ⟨applyMessage c.roomState message,message::c.received⟩

/-- A snapshot is not behind the copy, neither in structure nor in presence. -/
def arrivesInOrder : Option ClientRoomState → ServerMessage → Bool
  | some prev, .snapshot payload =>
    decide (prev.structuralRevision ≤ payload.structuralRevision) &&
      decide (presenceWatermark prev ≤ presenceWatermark payload)
  | _, _ => true

/-- The runs in which no snapshot comes late. -/
def orderedMergeSystem (states : List RoomState) : TransitionSystem ClientRun ServerMessage :=
  (mergeSystem states).restrict fun c message => arrivesInOrder c.roomState message = true

namespace ServerMessage

def structural? : ServerMessage → Option (Versioned ℕ RoomStructure)
  | .snapshot payload => some ⟨payload.structuralRevision,payload.structuralPart⟩
  | _ => none

def playback? : ServerMessage → Option (Versioned ℕ PlaybackState)
  | .control payload => some ⟨payload.generation,payload.playback⟩
  | .snapshot payload => some ⟨payload.generation,payload.playback⟩
  | .presence _ => none

def presenceRevision? : ServerMessage → Option ℕ
  | .control _ => none
  | .snapshot payload => some (presenceWatermark payload)
  | .presence payload => some payload.presenceRevision

end ServerMessage

section Messages

variable {env : Env} {states : List RoomState}

theorem ServerRun.eq_or_after (h : ServerRun env states) {s t : RoomState} (hs : s ∈ states)
    (ht : t ∈ states) : s = t ∨ CommittedAfter s t ∨ CommittedAfter t s := by
  obtain ⟨i,hi,rfl⟩ := List.getElem_of_mem hs
  obtain ⟨j,hj,rfl⟩ := List.getElem_of_mem ht
  have hpair := List.pairwise_iff_getElem.mp h.later
  rcases Nat.lt_trichotomy i j with hlt | rfl | hlt
  · exact Or.inr (Or.inl (hpair i j hi hj hlt))
  · exact Or.inl rfl
  · exact Or.inr (Or.inr (hpair j i hj hi hlt))

theorem ServerRun.playback_inj (h : ServerRun env states) {s t : RoomState} (hs : s ∈ states)
    (ht : t ∈ states) (hgen : s.generation = t.generation) : s.playback = t.playback := by
  rcases h.eq_or_after hs ht with rfl | hafter | hafter
  · rfl
  · exact (hafter.playback hgen.symm).symm
  · exact hafter.playback hgen

theorem ServerRun.structural_inj (h : ServerRun env states) {s t : RoomState} (hs : s ∈ states)
    (ht : t ∈ states) (hrev : s.structuralRevision = t.structuralRevision) :
    s.structuralPart = t.structuralPart := by
  rcases h.eq_or_after hs ht with rfl | hafter | hafter
  · rfl
  · exact (hafter.structuralPart hrev.symm).symm
  · exact hafter.structuralPart hrev

theorem BuiltFrom.structural {message : ServerMessage} (h : BuiltFrom states message)
    {v : Versioned ℕ RoomStructure} (hv : message.structural? = some v) :
    ∃ s ∈ states, v = ⟨s.structuralRevision,s.structuralPart⟩ := by
  cases message with
  | snapshot payload =>
    obtain ⟨s,hs,overlay,presenceRevision,rfl⟩ := h
    cases hv
    exact ⟨s,hs,by rw [buildSanitizedSnapshot_structuralPart]; rfl⟩
  | _ => cases hv

theorem BuiltFrom.playback (hrun : ServerRun env states) {message : ServerMessage}
    (h : BuiltFrom states message) {v : Versioned ℕ PlaybackState}
    (hv : message.playback? = some v) : ∃ s ∈ states, v = ⟨s.generation,s.playback⟩ := by
  cases message with
  | control payload =>
    obtain ⟨s,hs,rfl⟩ := h
    cases hv
    exact ⟨s,hs,rfl⟩
  | snapshot payload =>
    obtain ⟨s,hs,overlay,presenceRevision,rfl⟩ := h
    cases hv
    have hpreview := (hrun.stored s hs).no_preview
    have hsame : { s.playback with seekPreview := none } = s.playback := by rw [← hpreview]
    exact ⟨s,hs,congrArg (Versioned.mk s.generation) hsame⟩
  | presence => cases hv

end Messages

structure PlaybackMerged (states : List RoomState) (c : ClientRun) (s : ClientRoomState) :
    Prop where
  copy : c.roomState = some s
  built : ∀ message ∈ c.received, BuiltFrom states message
  playback : Versioned.Newest (c.received.filterMap ServerMessage.playback?)
    ⟨s.generation,s.playback⟩

def StructureMerged (c : ClientRun) (s : ClientRoomState) : Prop :=
  Versioned.Newest (c.received.filterMap ServerMessage.structural?)
    ⟨s.structuralRevision,s.structuralPart⟩

section Merge

variable {env : Env} {states : List RoomState} {c : ClientRun} {s : ClientRoomState}

theorem PlaybackMerged.no_preview (h : PlaybackMerged states c s) (hrun : ServerRun env states) :
    previewActive s.playback = false := by
  obtain ⟨message,hm,hv⟩ := List.mem_filterMap.mp h.playback.mem
  obtain ⟨state,hs,he⟩ := (h.built message hm).playback hrun hv
  have hplayback : s.playback = state.playback := congrArg Versioned.content he
  rw [previewActive,hplayback,(hrun.stored state hs).no_preview]
  rfl

theorem applyRoomSnapshot_playback {payload : RoomSnapshotPayload}
    (h : previewActive s.playback = false) :
    (⟨(applyRoomSnapshot (some s) payload).generation,
      (applyRoomSnapshot (some s) payload).playback⟩ : Versioned ℕ PlaybackState) =
      Versioned.offer ⟨s.generation,s.playback⟩ ⟨payload.generation,payload.playback⟩ := by
  simp only [applyRoomSnapshot,h,Bool.and_false,Bool.false_and,Bool.false_eq_true,if_false,
    decide_eq_true_eq,Versioned.offer]
  split
  · rename_i hle
    rw [max_eq_right hle]
  · rename_i hnot
    rw [max_eq_left (not_le.mp hnot).le]

theorem applyRoomControl_playback (s : ClientRoomState) (payload : RoomControlPayload) :
    ∃ next, applyRoomControl (some s) payload = some next ∧
      next.structuralRevision = s.structuralRevision ∧ next.structuralPart = s.structuralPart ∧
      next.participants = s.participants ∧ next.presenceRevision = s.presenceRevision ∧
      (⟨next.generation,next.playback⟩ : Versioned ℕ PlaybackState) =
        Versioned.offer ⟨s.generation,s.playback⟩ ⟨payload.generation,payload.playback⟩ := by
  simp only [applyRoomControl,Option.map_some,Versioned.offer]
  split
  · rename_i hlt
    exact ⟨s,rfl,rfl,rfl,rfl,rfl,by rw [if_neg (not_le.mpr hlt)]⟩
  · rename_i hnot
    exact ⟨_,rfl,rfl,rfl,rfl,rfl,by rw [if_pos (not_lt.mp hnot)]⟩

theorem applyPresenceBatch_frame (s : ClientRoomState) (payload : PresenceBatchPayload) :
    ∃ next, applyPresenceBatch (some s) payload = some next ∧
      next.structuralRevision = s.structuralRevision ∧ next.structuralPart = s.structuralPart ∧
      next.generation = s.generation ∧ next.playback = s.playback := by
  simp only [applyPresenceBatch,Option.map_some]
  split
  · exact ⟨s,rfl,rfl,rfl,rfl,rfl⟩
  · have hroles := mergeParticipantPresence_roles s.participants payload.participants
    exact ⟨_,rfl,rfl,by simp only [RoomSnapshotPayload.structuralPart,hroles],rfl,rfl⟩

theorem PlaybackMerged.step (h : PlaybackMerged states c s) (hrun : ServerRun env states)
    {message : ServerMessage} (hm : BuiltFrom states message) :
    ∃ next, PlaybackMerged states ⟨applyMessage c.roomState message,message::c.received⟩ next := by
  have hbuilt : ∀ m ∈ message::c.received, BuiltFrom states m := by
    intro m hmem
    rcases List.mem_cons.mp hmem with rfl | hmem
    · exact hm
    · exact h.built m hmem
  cases message with
  | control payload =>
    obtain ⟨next,hnext,-,-,-,-,hplayback⟩ := applyRoomControl_playback s payload
    refine ⟨next,by rw [h.copy]; exact hnext,hbuilt,?_⟩
    rw [hplayback]
    exact h.playback.offer
  | snapshot payload =>
    refine ⟨applyRoomSnapshot (some s) payload,by rw [h.copy]; rfl,hbuilt,?_⟩
    rw [applyRoomSnapshot_playback (h.no_preview hrun)]
    exact h.playback.offer
  | presence payload =>
    obtain ⟨next,hnext,-,-,hgeneration,hplayback⟩ :=
      applyPresenceBatch_frame s payload
    refine ⟨next,by rw [h.copy]; exact hnext,hbuilt,?_⟩
    rw [hgeneration,hplayback]
    exact h.playback

theorem StructureMerged.step (h : StructureMerged c s) (hcopy : c.roomState = some s)
    {message : ServerMessage} (horder : arrivesInOrder c.roomState message = true)
    {next : ClientRoomState} (hnext : applyMessage c.roomState message = some next) :
    StructureMerged ⟨some next,message::c.received⟩ next := by
  unfold StructureMerged at h ⊢
  rw [hcopy] at horder hnext
  cases message with
  | control payload =>
    obtain ⟨state,hstate,hrevision,hpart,-⟩ := applyRoomControl_playback s payload
    have hsame : state = next := Option.some.inj (hstate.symm.trans hnext)
    rw [← hsame,hrevision,hpart]
    exact h
  | snapshot payload =>
    simp only [arrivesInOrder,Bool.and_eq_true,decide_eq_true_eq] at horder
    cases hnext
    have hrevision : (applyRoomSnapshot (some s) payload).structuralRevision =
        payload.structuralRevision := max_eq_right horder.1
    have hpart : (applyRoomSnapshot (some s) payload).structuralPart = payload.structuralPart := rfl
    rw [hrevision,hpart]
    exact h.accept horder.1
  | presence payload =>
    obtain ⟨state,hstate,hrevision,hpart,-⟩ := applyPresenceBatch_frame s payload
    have hsame : state = next := Option.some.inj (hstate.symm.trans hnext)
    rw [← hsame,hrevision,hpart]
    exact h

theorem playbackMerged_of_reachable (hrun : ServerRun env states)
    (hr : (mergeSystem states).Reachable c) : ∃ s, PlaybackMerged states c s := by
  apply hr.invariant fun c => ∃ s, PlaybackMerged states c s
  · rintro c ⟨payload,hbuilt,rfl⟩
    refine ⟨payload,rfl,fun message hm => ?_,Versioned.newest_single _⟩
    rw [List.mem_singleton.mp hm]
    exact hbuilt
  · rintro c message c' - ⟨s,h⟩ ⟨hm,rfl⟩
    exact h.step hrun hm

theorem structureMerged_of_ordered (hrun : ServerRun env states)
    (hr : (orderedMergeSystem states).Reachable c) :
    ∃ s, PlaybackMerged states c s ∧ StructureMerged c s := by
  apply hr.invariant fun c => ∃ s, PlaybackMerged states c s ∧ StructureMerged c s
  · rintro c ⟨payload,hbuilt,rfl⟩
    refine ⟨payload,⟨rfl,fun message hm => ?_,Versioned.newest_single _⟩,
      Versioned.newest_single _⟩
    rw [List.mem_singleton.mp hm]
    exact hbuilt
  · rintro c message c' - ⟨s,h,hstructure⟩ ⟨horder,hm,rfl⟩
    obtain ⟨next,hnext⟩ := h.step hrun hm
    have hmerged := hstructure.step h.copy horder hnext.copy
    have hcopy : applyMessage c.roomState message = some next := hnext.copy
    exact ⟨next,hnext,by rw [hcopy]; exact hmerged⟩

def connectivity (s : ClientRoomState) (userId : UserId) : Option (Bool × Option ℕ × Option ℕ) :=
  (s.participants.get? userId).map fun p => (p.connected,p.lastSeenAt,p.disconnectedAt)

theorem PlaybackMerged.playback_eq (h : PlaybackMerged states c s) (hrun : ServerRun env states)
    {message : ServerMessage} (hm : message ∈ c.received) {v : Versioned ℕ PlaybackState}
    (hv : message.playback? = some v)
    (hhighest : ∀ other ∈ c.received, ∀ w, other.playback? = some w → w.version ≤ v.version) :
    s.playback = v.content := by
  refine h.playback.content_eq ?_ (List.mem_filterMap.mpr ⟨message,hm,hv⟩) ?_
  · intro w hw hversion
    obtain ⟨other,ho,how⟩ := List.mem_filterMap.mp hw
    obtain ⟨held,hh,hhv⟩ := List.mem_filterMap.mp h.playback.mem
    obtain ⟨s₁,hs₁,rfl⟩ := (h.built other ho).playback hrun how
    obtain ⟨s₂,hs₂,he⟩ := (h.built held hh).playback hrun hhv
    rw [he] at hversion ⊢
    exact hrun.playback_inj hs₁ hs₂ hversion
  · intro w hw
    obtain ⟨other,ho,how⟩ := List.mem_filterMap.mp hw
    exact hhighest other ho w how

theorem StructureMerged.part_eq (h : StructureMerged c s) (hrun : ServerRun env states)
    (hplayback : PlaybackMerged states c s) {payload : RoomSnapshotPayload}
    (hmem : ServerMessage.snapshot payload ∈ c.received)
    (hhighest : ∀ other, ServerMessage.snapshot other ∈ c.received →
      other.structuralRevision ≤ payload.structuralRevision) :
    s.structuralPart = payload.structuralPart := by
  refine h.content_eq ?_ (List.mem_filterMap.mpr ⟨_,hmem,rfl⟩) ?_
  · intro v hv hversion
    obtain ⟨message,hm,hmv⟩ := List.mem_filterMap.mp hv
    obtain ⟨held,hh,hhv⟩ := List.mem_filterMap.mp h.mem
    obtain ⟨s₁,hs₁,rfl⟩ := (hplayback.built message hm).structural hmv
    obtain ⟨s₂,hs₂,he⟩ := (hplayback.built held hh).structural hhv
    rw [he] at hversion ⊢
    exact hrun.structural_inj hs₁ hs₂ hversion
  · intro w hw
    obtain ⟨message,hm,hmw⟩ := List.mem_filterMap.mp hw
    cases message with
    | snapshot other =>
      cases hmw
      exact hhighest other hm
    | _ => cases hmw

theorem connectivity_of_behind {message : ServerMessage} {next : ClientRoomState}
    (horder : arrivesInOrder (some s) message = true)
    (hnext : applyMessage (some s) message = some next)
    (hbehind : ∀ revision, message.presenceRevision? = some revision →
      revision < presenceWatermark s) (userId : UserId) :
    connectivity next userId = connectivity s userId := by
  cases message with
  | control payload =>
    obtain ⟨state,hstate,-,-,hparticipants,-⟩ := applyRoomControl_playback s payload
    have hsame : state = next := Option.some.inj (hstate.symm.trans hnext)
    rw [← hsame,connectivity,hparticipants,connectivity]
  | snapshot payload =>
    simp only [arrivesInOrder,Bool.and_eq_true,decide_eq_true_eq] at horder
    exact absurd (hbehind _ rfl) (not_lt.mpr horder.2)
  | presence payload =>
    have hle : payload.presenceRevision ≤ presenceWatermark s := (hbehind _ rfl).le
    simp only [applyMessage,applyPresenceBatch,Option.map_some,hle,if_true,
      Option.some.injEq] at hnext
    rw [hnext]

end Merge

/-- In every run in which no snapshot comes late, a client's copy has the structure of
the received snapshot with the highest structural revision and the playback of the
received message with the highest generation, and no message that is behind in presence
changes anybody's connectivity. -/
theorem client_converges {env : Env} {states : List RoomState} {c : ClientRun}
    (hrun : ServerRun env states) (hr : (orderedMergeSystem states).Reachable c) :
    ∃ s, c.roomState = some s ∧
      (∀ payload, ServerMessage.snapshot payload ∈ c.received →
        (∀ other, ServerMessage.snapshot other ∈ c.received →
          other.structuralRevision ≤ payload.structuralRevision) →
        s.structuralPart = payload.structuralPart) ∧
      (∀ message ∈ c.received, ∀ v, message.playback? = some v →
        (∀ other ∈ c.received, ∀ w, other.playback? = some w → w.version ≤ v.version) →
        s.playback = v.content) ∧
      ∀ message c', (orderedMergeSystem states).step c message c' →
        (∀ revision, message.presenceRevision? = some revision → revision < presenceWatermark s) →
        ∃ s', c'.roomState = some s' ∧ ∀ userId, connectivity s' userId = connectivity s userId := by
  obtain ⟨s,hplayback,hstructure⟩ := structureMerged_of_ordered hrun hr
  refine ⟨s,hplayback.copy,?_,?_,?_⟩
  · exact fun payload hmem hhighest => hstructure.part_eq hrun hplayback hmem hhighest
  · exact fun message hm v hv hhighest => hplayback.playback_eq hrun hm hv hhighest
  · rintro message c' ⟨horder,hbuilt,rfl⟩ hbehind
    obtain ⟨next,hnext⟩ := hplayback.step hrun hbuilt
    have hcopy : applyMessage c.roomState message = some next := hnext.copy
    rw [hplayback.copy] at horder
    refine ⟨next,hcopy,connectivity_of_behind horder ?_ hbehind⟩
    rw [← hplayback.copy]
    exact hcopy

section Dispatch

/-- A socket and the messages it took since its first snapshot, the last one first. -/
structure DispatchRun where
  client : RoomSocketClient
  seen : List ServerMessage

inductive DispatchEvent
  | receive (message : ServerMessage)
  | frame

/-- A socket takes broadcasts, and flushes waiting presence on some frames. No
snapshot comes late. -/
def dispatchSystem (states : List RoomState) : TransitionSystem DispatchRun DispatchEvent where
  init d := d = ⟨{},[]⟩
  step d event d' :=
    match event with
    | .receive message => BuiltFrom states message ∧
        arrivesInOrder d.client.roomState message = true ∧
        d' = ⟨dispatchRoomSocketEnvelope d.client message,
          if (dispatchRoomSocketEnvelope d.client message).hasReceivedState then message::d.seen
          else d.seen⟩
    | .frame => d' = ⟨flushPresence d.client,d.seen⟩

/-- The copy is one that merging gives; what was not merged yet waits for a frame. -/
structure Dispatched (states : List RoomState) (d : DispatchRun) : Prop where
  received_iff : d.client.hasReceivedState = d.client.roomState.isSome
  merged : ∀ s, d.client.roomState = some s →
    ∃ received, (orderedMergeSystem states).Reachable ⟨some s,received⟩ ∧
      (∀ message ∈ d.seen, message ∈ received ∨
        ∃ payload ∈ d.client.pending, message = .presence payload) ∧
      ∀ message ∈ received, message ∈ d.seen ∨ ∃ payload, message = .presence payload
  unseen : d.client.roomState = none → d.seen = []

variable {states : List RoomState} {d d' : DispatchRun}

theorem applyPresenceBatches_reachable (payloads : List PresenceBatchPayload)
    {s : ClientRoomState} {received : List ServerMessage}
    (hr : (orderedMergeSystem states).Reachable ⟨some s,received⟩) :
    ∃ next all, applyPresenceBatches (some s) payloads = some next ∧
      (orderedMergeSystem states).Reachable ⟨some next,all⟩ ∧ (∀ message ∈ received, message ∈ all) ∧
      (∀ payload ∈ payloads, ServerMessage.presence payload ∈ all) ∧
      ∀ message ∈ all, message ∈ received ∨ ∃ payload, message = .presence payload := by
  induction payloads generalizing s received with
  | nil =>
    exact ⟨s,received,rfl,hr,fun _ h => h,fun _ h => absurd h List.not_mem_nil,fun _ h => .inl h⟩
  | cons payload payloads ih =>
    obtain ⟨mid,hmid,-⟩ := applyPresenceBatch_frame s payload
    have hstep : (orderedMergeSystem states).Reachable
        ⟨some mid,.presence payload::received⟩ :=
      .step (a := .presence payload) hr ⟨rfl,trivial,congrArg (ClientRun.mk · _) hmid.symm⟩
    obtain ⟨next,all,hnext,hreach,hmem,hall,honly⟩ := ih hstep
    refine ⟨next,all,?_,hreach,fun m hm => hmem m (List.mem_cons_of_mem _ hm),?_,?_⟩
    · rw [applyPresenceBatches,List.foldl_cons,hmid]
      exact hnext
    · intro p hp
      rcases List.mem_cons.mp hp with rfl | hp
      · exact hmem _ List.mem_cons_self
      · exact hall p hp
    · intro m hm
      rcases honly m hm with hm | hm
      · exact (List.mem_cons.mp hm).symm.imp_right fun heq => ⟨payload,heq⟩
      · exact .inr hm

theorem Dispatched.receive (h : Dispatched states d) {message : ServerMessage}
    (hbuilt : BuiltFrom states message) (horder : arrivesInOrder d.client.roomState message = true)
    (hstep : (dispatchSystem states).step d (.receive message) d') : Dispatched states d' := by
  obtain ⟨-,-,rfl⟩ := hstep
  have hheld := h.received_iff
  cases message with
  | snapshot payload =>
    refine ⟨rfl,?_,fun hnone => by cases hnone⟩
    rintro s hs
    cases hs
    cases hroom : d.client.roomState with
    | none =>
      refine ⟨[.snapshot payload],.init ⟨payload,hbuilt,rfl⟩,fun m hm => Or.inl ?_,
        fun m hm => Or.inl ?_⟩
      · simpa only [dispatchRoomSocketEnvelope,if_true,h.unseen hroom] using hm
      · simpa only [dispatchRoomSocketEnvelope,if_true,h.unseen hroom] using hm
    | some prev =>
      obtain ⟨received,hr,hmem,honly⟩ := h.merged prev hroom
      rw [hroom] at horder
      refine ⟨.snapshot payload::received,
        .step (a := .snapshot payload) hr ⟨horder,hbuilt,rfl⟩,fun m hm => ?_,fun m hm => ?_⟩
      · rcases List.mem_cons.mp hm with rfl | hm
        · exact Or.inl List.mem_cons_self
        · exact (hmem m hm).imp_left (List.mem_cons_of_mem _)
      · rcases List.mem_cons.mp hm with rfl | hm
        · exact Or.inl List.mem_cons_self
        · exact (honly m hm).imp_left (List.mem_cons_of_mem _)
  | control payload =>
    cases hroom : d.client.roomState with
    | none =>
      rw [hroom,Option.isSome_none] at hheld
      simp only [dispatchRoomSocketEnvelope,hheld,Bool.false_eq_true,if_false]
      exact h
    | some prev =>
      rw [hroom,Option.isSome_some] at hheld
      obtain ⟨received,hr,hmem,honly⟩ := h.merged prev hroom
      obtain ⟨next,hnext,-⟩ := applyRoomControl_playback prev payload
      simp only [dispatchRoomSocketEnvelope,hheld,if_true,hroom,hnext]
      refine ⟨rfl,?_,fun hnone => by cases hnone⟩
      rintro s hs
      cases hs
      refine ⟨.control payload::received,.step (a := .control payload) hr
        ⟨rfl,hbuilt,congrArg (ClientRun.mk · _) hnext.symm⟩,fun m hm => ?_,fun m hm => ?_⟩
      · rcases List.mem_cons.mp hm with rfl | hm
        · exact Or.inl List.mem_cons_self
        · exact (hmem m hm).imp_left (List.mem_cons_of_mem _)
      · rcases List.mem_cons.mp hm with rfl | hm
        · exact Or.inl List.mem_cons_self
        · exact (honly m hm).imp_left (List.mem_cons_of_mem _)
  | presence payload =>
    refine ⟨hheld,?_,?_⟩
    · intro s hs
      obtain ⟨received,hr,hmem,honly⟩ := h.merged s hs
      refine ⟨received,hr,fun m hm => ?_,fun m hm => (honly m hm).imp_left fun hseen => ?_⟩
      · have hcases : m = .presence payload ∨ m ∈ d.seen := by
          dsimp only at hm
          split at hm
          · exact List.mem_cons.mp hm
          · exact Or.inr hm
        rcases hcases with rfl | hm
        · exact Or.inr ⟨payload,List.mem_append_right _ List.mem_cons_self,rfl⟩
        · refine (hmem m hm).imp_right ?_
          rintro ⟨p,hp,rfl⟩
          exact ⟨p,List.mem_append_left _ hp,rfl⟩
      · dsimp only
        split
        · exact List.mem_cons_of_mem _ hseen
        · exact hseen
    · intro hnone
      have hroom : d.client.roomState = none := hnone
      rw [hroom,Option.isSome_none] at hheld
      simp only [dispatchRoomSocketEnvelope,hheld,Bool.false_eq_true,if_false]
      exact h.unseen hroom

theorem Dispatched.frame (h : Dispatched states d)
    (hstep : (dispatchSystem states).step d .frame d') : Dispatched states d' := by
  obtain rfl : d' = _ := hstep
  have hheld := h.received_iff
  cases hroom : d.client.roomState with
  | none =>
    have hnone : ∀ payloads, applyPresenceBatches none payloads = none := by
      intro payloads
      induction payloads with
      | nil => rfl
      | cons payload payloads ih => exact ih
    simp only [flushPresence,hroom,hnone] at hheld ⊢
    exact ⟨hheld,fun s hs => (by cases hs),fun _ => h.unseen hroom⟩
  | some prev =>
    obtain ⟨received,hr,hmem,honly⟩ := h.merged prev hroom
    obtain ⟨next,all,hnext,hreach,hkept,hflushed,hnew⟩ :=
      applyPresenceBatches_reachable d.client.pending hr
    simp only [flushPresence,hroom,hnext] at hheld ⊢
    refine ⟨hheld,?_,fun hnone => by cases hnone⟩
    rintro s hs
    cases hs
    refine ⟨all,hreach,fun m hm => Or.inl ?_,fun m hm => (hnew m hm).elim (honly m) Or.inr⟩
    rcases hmem m hm with hm | ⟨payload,hp,rfl⟩
    · exact hkept m hm
    · exact hflushed payload hp

theorem dispatched_of_reachable (hr : (dispatchSystem states).Reachable d) :
    Dispatched states d := by
  apply hr.invariant (Dispatched states)
  · rintro d rfl
    exact ⟨rfl,fun s hs => (by cases hs),fun _ => rfl⟩
  · rintro d (message | _) d' - ih hstep
    · exact ih.receive hstep.1 hstep.2.1 hstep
    · exact ih.frame hstep

end Dispatch

section Scenario

theorem exists_two_commits : ∃ empty filled, ServerRun scenarioEnv [empty,filled] ∧
    empty.structuralRevision ≤ filled.structuralRevision ∧
    empty.playlist = [] ∧ filled.playlist ≠ [] := by
  let addFile := messageFrom "ann" 1001 {"ann"} "item"
    (.playlistAddLocal (videoFile "film" (some 60)))
  obtain ⟨empty,hempty,hfresh,hnil,hcommit⟩ := exists_stored_of_runRoom scenarioEnv
    [joinAs "ann" 1000 {}]
    (fun empty => addFile.Fresh (some empty) ∧ empty.playlist = [] ∧
      ((addFile.commit scenarioEnv (some empty)).any fun filled =>
        empty.generation < filled.generation &&
          empty.structuralRevision < filled.structuralRevision && filled.playlist != []) = true)
    (by decide +kernel)
  obtain ⟨filled,hc,hfacts⟩ := (Option.any_eq_true _ _).mp hcommit
  simp only [Bool.and_eq_true,decide_eq_true_eq,bne_iff_ne,ne_eq] at hfacts
  obtain ⟨⟨hgeneration,hrevision⟩,hne⟩ := hfacts
  have hfilled : Stored scenarioEnv filled :=
    .step (a := .write addFile) hempty ⟨hfresh,filled,hc,rfl⟩
  have hafter : CommittedAfter empty filled := by
    refine ⟨hgeneration.le,fun heq => ?_,hrevision.le,fun heq => ?_⟩
    · omega
    · omega
  refine ⟨empty,filled,⟨?_,?_⟩,hrevision.le,hnil,hne⟩
  · intro s hs
    rcases List.mem_pair.mp hs with rfl | rfl
    · exact hempty
    · exact hfilled
  · exact List.pairwise_pair.mpr hafter

theorem client_converges_of_two_snapshots : ∃ empty filled c s,
    ServerRun scenarioEnv [empty,filled] ∧
    (orderedMergeSystem [empty,filled]).Reachable c ∧ c.roomState = some s ∧
    s.structuralPart = filled.structuralPart := by
  obtain ⟨empty,filled,hrun,hrevision,-,-⟩ := exists_two_commits
  let first := buildSanitizedSnapshot empty Record.empty 0
  let second := buildSanitizedSnapshot filled Record.empty 1
  have hfirst : BuiltFrom [empty,filled] (.snapshot first) :=
    ⟨empty,List.mem_cons_self,Record.empty,0,rfl⟩
  have hsecond : BuiltFrom [empty,filled] (.snapshot second) :=
    ⟨filled,List.mem_cons_of_mem _ List.mem_cons_self,Record.empty,1,rfl⟩
  have hinOrder : arrivesInOrder (some first) (.snapshot second) = true := by
    rw [arrivesInOrder,Bool.and_eq_true,decide_eq_true_eq,decide_eq_true_eq]
    exact ⟨hrevision,Nat.zero_le 1⟩
  have hr : (orderedMergeSystem [empty,filled]).Reachable
      ⟨some (applyRoomSnapshot (some first) second),[.snapshot second,.snapshot first]⟩ :=
    .step (a := .snapshot second) (.init ⟨first,hfirst,rfl⟩) ⟨hinOrder,hsecond,rfl⟩
  obtain ⟨s,hs,hstructure,-,-⟩ := client_converges hrun hr
  refine ⟨empty,filled,_,s,hrun,hr,hs,?_⟩
  rw [hstructure second List.mem_cons_self ?_,buildSanitizedSnapshot_structuralPart]
  intro other hother
  simp only [List.mem_cons,ServerMessage.snapshot.injEq,List.not_mem_nil,or_false] at hother
  rcases hother with rfl | rfl
  · exact le_rfl
  · exact hrevision

/-- An older snapshot that arrives late takes the playlist back. -/
theorem late_snapshot_wins : ¬∀ (env : Env) (states : List RoomState) (c : ClientRun)
    (s : ClientRoomState) (payload : RoomSnapshotPayload), ServerRun env states →
    (mergeSystem states).Reachable c → c.roomState = some s →
    ServerMessage.snapshot payload ∈ c.received →
    (∀ other, ServerMessage.snapshot other ∈ c.received →
      other.structuralRevision ≤ payload.structuralRevision) →
    s.playlist = payload.playlist := by
  intro h
  obtain ⟨empty,filled,hrun,hrevision,hnil,hne⟩ := exists_two_commits
  let late := buildSanitizedSnapshot empty Record.empty 0
  let first := buildSanitizedSnapshot filled Record.empty 1
  have hlate : BuiltFrom [empty,filled] (.snapshot late) :=
    ⟨empty,List.mem_cons_self,Record.empty,0,rfl⟩
  have hfirst : BuiltFrom [empty,filled] (.snapshot first) :=
    ⟨filled,List.mem_cons_of_mem _ List.mem_cons_self,Record.empty,1,rfl⟩
  have hr : (mergeSystem [empty,filled]).Reachable
      ⟨some (applyRoomSnapshot (some first) late),[.snapshot late,.snapshot first]⟩ :=
    .step (a := .snapshot late) (.init ⟨first,hfirst,rfl⟩) ⟨hlate,rfl⟩
  have hplaylist := h scenarioEnv [empty,filled] _ _ first hrun hr rfl
    (List.mem_cons_of_mem _ List.mem_cons_self) fun other hother => by
      simp only [List.mem_cons,ServerMessage.snapshot.injEq,List.not_mem_nil,or_false] at hother
      rcases hother with rfl | rfl
      · exact hrevision
      · exact le_rfl
  have hempty : empty.playlist = filled.playlist := hplaylist
  exact hne (hempty.symm.trans hnil)

end Scenario

end WebSyncPlay
