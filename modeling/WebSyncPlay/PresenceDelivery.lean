import WebSyncPlay.ClientMerge
import WebSyncPlay.RoomSystem

/-! Presence batches in any order and number of copies (`client/realtime/room-state-merge.ts`):
what the client's one watermark for the whole room lets through. -/
namespace WebSyncPlay

open Library

section Fields

inductive PresenceField
  | connected | lastSeenAt | disconnectedAt | username | avatarStyle | localPlayback
  deriving DecidableEq

namespace PresenceField

abbrev Value : PresenceField → Type
  | .connected => Bool
  | .lastSeenAt => Option ℕ
  | .disconnectedAt => Option ℕ
  | .username => String
  | .avatarStyle => String
  | .localPlayback => ParticipantLocalPlayback

def value : (f : PresenceField) → ParticipantState → f.Value
  | .connected, p => p.connected
  | .lastSeenAt, p => p.lastSeenAt
  | .disconnectedAt, p => p.disconnectedAt
  | .username, p => p.username
  | .avatarStyle, p => p.avatarStyle
  | .localPlayback, p => p.localPlayback

def patched : (f : PresenceField) → PresencePatch → Option f.Value
  | .connected, patch => patch.connected
  | .lastSeenAt, patch => patch.lastSeenAt.map some
  | .disconnectedAt, patch => patch.disconnectedAt.map some
  | .username, patch => patch.username
  | .avatarStyle, patch => patch.avatarStyle
  | .localPlayback, patch => patch.localPlayback

theorem value_mergePresencePatch (f : PresenceField) (patch : PresencePatch)
    (p : ParticipantState) :
    f.value (mergePresencePatch patch p) = (f.patched patch).getD (f.value p) := by
  cases f with
  | lastSeenAt => cases h : patch.lastSeenAt <;> simp [value,patched,mergePresencePatch,h]
  | disconnectedAt => cases h : patch.disconnectedAt <;> simp [value,patched,mergePresencePatch,h]
  | _ => rfl

end PresenceField

def batchPatch (batch : PresenceBatchPayload) (userId : UserId) (f : PresenceField) :
    Option f.Value :=
  (batch.participants.get? userId).bind f.patched

def withoutPresence (p : ParticipantState) :=
  (p.userId,p.role,p.joinedAt,p.connectedAt,p.viewerMedia)

end Fields

section Delivery

/-- The batches that arrive above the copy's revision and before every batch of the same or a
higher number. -/
def arrivedInTime (s : ClientRoomState) (received : List PresenceBatchPayload) :
    List PresenceBatchPayload :=
  ascents PresenceBatchPayload.presenceRevision (presenceWatermark s) received

def patchedValue (userId : UserId) (f : PresenceField) (batches : List PresenceBatchPayload)
    (v : f.Value) : f.Value :=
  batches.foldl (fun v batch => (batchPatch batch userId f).getD v) v

/-- Of the batches above the copy's revision, one of the highest number that patch the field. -/
structure NewestPatch (s : ClientRoomState) (received : List PresenceBatchPayload)
    (userId : UserId) (f : PresenceField) (batch : PresenceBatchPayload) (v : f.Value) : Prop where
  mem : batch ∈ received
  above : presenceWatermark s < batch.presenceRevision
  patch : batchPatch batch userId f = some v
  highest : ∀ other ∈ received, (batchPatch other userId f).isSome = true →
    other.presenceRevision ≤ batch.presenceRevision

/-- No presence is lost between two copies: each field of each participant is worth what the
newest batch that patches it says, or else what it was. -/
def LosesNothing (s : ClientRoomState) (received : List PresenceBatchPayload)
    (s' : ClientRoomState) : Prop :=
  ∀ userId p, s.participants.get? userId = some p →
    ∃ p', s'.participants.get? userId = some p' ∧ withoutPresence p' = withoutPresence p ∧
      ∀ f : PresenceField,
        (∀ batch v, NewestPatch s received userId f batch v → f.value p' = v) ∧
        ((∀ batch ∈ received, presenceWatermark s < batch.presenceRevision →
          batchPatch batch userId f = none) → f.value p' = f.value p)

/-- The newest patch of each field comes in time, or says what the field is worth anyway. -/
def NewestInTime (s : ClientRoomState) (received : List PresenceBatchPayload) : Prop :=
  ∀ userId p, s.participants.get? userId = some p → ∀ (f : PresenceField) batch v,
    NewestPatch s received userId f batch v →
    batch ∈ arrivedInTime s received ∨
      patchedValue userId f (arrivedInTime s received) (f.value p) = v

def takeBatch (s : ClientRoomState) (batch : PresenceBatchPayload) : ClientRoomState :=
  { s with
    participants := mergeParticipantPresence s.participants batch.participants
    presenceRevision := some batch.presenceRevision }

theorem applyPresenceBatches_eq (s : ClientRoomState) (received : List PresenceBatchPayload) :
    applyPresenceBatches (some s) received =
      some ((arrivedInTime s received).foldl takeBatch s) := by
  have hgate : applyPresenceBatches (some s) received = some (received.foldl
      (fun s batch => if batch.presenceRevision ≤ presenceWatermark s then s
        else takeBatch s batch) s) := by
    unfold applyPresenceBatches
    induction received generalizing s with
    | nil => rfl
    | cons batch received ih =>
      rw [List.foldl_cons,List.foldl_cons]
      exact ih _
  have hmark : ∀ s batch, presenceWatermark (takeBatch s batch) = batch.presenceRevision :=
    fun _ _ => rfl
  rw [hgate,arrivedInTime,← foldl_gate (fun _ _ => rfl) hmark received s]

theorem takeBatch_get? (s : ClientRoomState) (batch : PresenceBatchPayload) (userId : UserId) :
    (takeBatch s batch).participants.get? userId = (s.participants.get? userId).map fun p =>
      (batch.participants.get? userId).elim p fun patch => mergePresencePatch patch p :=
  Record.get?_foldl_modify batch.participants s.participants userId

theorem takeBatches_get? (batches : List PresenceBatchPayload) {s : ClientRoomState}
    {userId : UserId} {p : ParticipantState} (hp : s.participants.get? userId = some p) :
    ∃ p', (batches.foldl takeBatch s).participants.get? userId = some p' ∧
      withoutPresence p' = withoutPresence p ∧
      ∀ f : PresenceField, f.value p' = patchedValue userId f batches (f.value p) := by
  induction batches generalizing s p with
  | nil => exact ⟨p,hp,rfl,fun _ => rfl⟩
  | cons batch batches ih =>
    have hstep := takeBatch_get? s batch userId
    rw [hp,Option.map_some] at hstep
    obtain ⟨p',hp',hrest,hvalue⟩ := ih hstep
    refine ⟨p',hp',hrest.trans ?_,fun f => (hvalue f).trans ?_⟩
    · cases batch.participants.get? userId <;> rfl
    · rw [patchedValue,patchedValue,List.foldl_cons]
      congr 1
      unfold batchPatch
      cases batch.participants.get? userId with
      | none => rfl
      | some patch => exact f.value_mergePresencePatch patch p

theorem newestInTime_of_ascending {s : ClientRoomState} {received : List PresenceBatchPayload}
    (h : received.Pairwise fun a b => a.presenceRevision < b.presenceRevision) :
    NewestInTime s received := fun _ _ _ _ _ _ hnewest =>
  Or.inl (mem_ascents_of_pairwise h hnewest.mem hnewest.above)

/-- In any order and number of copies, the batches lose nothing if and only if the newest patch
of each field comes before every batch of the same or a higher number, or changes nothing; in the
order of their numbers they lose nothing. -/
theorem presence_delivery (s : ClientRoomState) (received : List PresenceBatchPayload) :
    ((∃ s', applyPresenceBatches (some s) received = some s' ∧ LosesNothing s received s') ↔
      NewestInTime s received) ∧
    ((received.Pairwise fun a b => a.presenceRevision < b.presenceRevision) →
      NewestInTime s received) := by
  have happlied := applyPresenceBatches_eq s received
  refine ⟨?_,newestInTime_of_ascending⟩
  constructor
  · rintro ⟨s',hs',hloses⟩ userId p hp f batch v hnewest
    cases happlied.symm.trans hs'
    obtain ⟨p',hp',-,hfields⟩ := hloses userId p hp
    obtain ⟨q,hq,-,hvalue⟩ := takeBatches_get? (arrivedInTime s received) hp
    cases hq.symm.trans hp'
    exact Or.inr ((hvalue f).symm.trans ((hfields f).1 batch v hnewest))
  · intro hcondition
    refine ⟨_,happlied,fun userId p hp => ?_⟩
    obtain ⟨p',hp',hrest,hvalue⟩ := takeBatches_get? (arrivedInTime s received) hp
    refine ⟨p',hp',hrest,fun f => ⟨fun batch v hnewest => ?_,fun hnone => ?_⟩⟩
    · rw [hvalue]
      rcases hcondition userId p hp f batch v hnewest with hmem | hsame
      · exact foldl_patch_of_top _ (ascents_pairwise _ _) hmem hnewest.patch fun other hother =>
          hnewest.highest other (mem_of_mem_ascents hother).1
      · exact hsame
    · rw [hvalue]
      exact foldl_patch_of_none _ fun batch hbatch =>
        hnone batch (mem_of_mem_ascents hbatch).1 (mem_of_mem_ascents hbatch).2

end Delivery

section Scenario

def annOffline : PresenceBatchPayload where
  presenceRevision := 5
  participants := Record.empty.set "ann"
    { connected := some false, lastSeenAt := some 4000, disconnectedAt := some 4000 }

def bobActive : PresenceBatchPayload where
  presenceRevision := 6
  participants := Record.empty.set "bob" { connected := some true, lastSeenAt := some 5000 }

/-- The later batch comes first, and Ann stays connected in the copy. -/
theorem later_batch_drops_offline : ∃ state, Stored scenarioEnv state ∧
    ¬∃ s', applyPresenceBatches (some (buildSanitizedSnapshot state Record.empty 4))
        [bobActive,annOffline] = some s' ∧
      LosesNothing (buildSanitizedSnapshot state Record.empty 4) [bobActive,annOffline] s' := by
  obtain ⟨state,hstored,hbefore,hafter⟩ := exists_stored_of_runRoom scenarioEnv
    [joinAs "ann" 1000 {"ann"},joinAs "bob" 2000 {"ann","bob"}]
    (fun state =>
      ((buildSanitizedSnapshot state Record.empty 4).participants.get? "ann").isSome = true ∧
      ((applyPresenceBatches (some (buildSanitizedSnapshot state Record.empty 4))
        [bobActive,annOffline]).all fun s' =>
          (s'.participants.get? "ann").all fun p' => p'.connected) = true)
    (by decide +kernel)
  refine ⟨state,hstored,?_⟩
  rintro ⟨s',hs',hloses⟩
  obtain ⟨p,hp⟩ := Option.isSome_iff_exists.mp hbefore
  obtain ⟨p',hp',-,hfields⟩ := hloses "ann" p hp
  have hnewest : NewestPatch (buildSanitizedSnapshot state Record.empty 4) [bobActive,annOffline]
      "ann" .connected annOffline false := by
    refine ⟨by simp,?_,by decide +kernel,?_⟩
    · change 4 < 5
      decide
    · intro other hother hpatched
      rcases List.mem_pair.mp hother with rfl | rfl
      · exact absurd hpatched (by decide +kernel)
      · exact le_rfl
  have hgone : p'.connected = false := (hfields .connected).1 annOffline false hnewest
  rw [hs',Option.all_some,hp',Option.all_some,hgone] at hafter
  cases hafter

end Scenario

end WebSyncPlay
