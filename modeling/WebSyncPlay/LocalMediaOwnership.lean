import WebSyncPlay.LocalMediaStore
import WebSyncPlay.Authorization

/-! Who may change a local media entry, and what a denied message leaves behind. -/
namespace WebSyncPlay

open Library

section Denial

/-- The question that a handler asks before its body runs, if it asks one. -/
inductive MessageGate
  | control | owner | controlOnSeen
  deriving DecidableEq

/-- A message that is over before the question is not denied: one with a file that does not
play, one whose entry was not saved, one that the rate limiter stops. -/
def messageGate (inp : MessageInputs) : RoomMessage → Option MessageGate
  | .playbackSeek _ => some .control
  | .playbackPlay => some .control
  | .playbackPause => some .control
  | .playbackRate _ => some .control
  | .playbackLoopVideo _ => some .control
  | .playbackLoopPlaylist _ => some .control
  | .playlistAddUrl _ => if inp.resolveAllowed then some .control else none
  | .playlistAddLocal parsed =>
    if isProgressiveMediaMime parsed.mimeType && inp.localMediaSaved then some .control else none
  | .playlistSelect _ => some .control
  | .playlistReorder _ _ => some .control
  | .playlistRename _ _ => some .control
  | .playlistRemove _ => some .control
  | .playlistRetry _ => if inp.resolveAllowed then some .controlOnSeen else none
  | .playlistItemError _ _ => some .control
  | .participantRoleUpdate _ _ => some .owner
  | .roomPasswordSet _ => some .owner
  | .roomPasswordClear => some .owner
  | .roomDefaultRoleSet _ => some .owner
  | _ => none

/-- The sender gets the `unauthorized` nack. Nobody is denied in a room they are not in:
the write ends before the gate. -/
def endsUnauthorized (ctx : RoomMessageContext) (inp : MessageInputs) (msg : RoomMessage)
    (state : RoomState) : Prop :=
  let reconciled := reconcileParticipantsConnectivity inp.activeConnections inp.now state
  match messageGate inp msg with
  | none => False
  | some .control =>
    (reconciled.participants.get? ctx.userId).isSome = true ∧
      canControlFromConnectionContext reconciled ctx.userId ctx.auth = false
  | some .owner =>
    (reconciled.participants.get? ctx.userId).isSome = true ∧
      canManageRoomSecurityFromConnectionContext reconciled ctx.userId ctx.auth = false
  | some .controlOnSeen =>
    ∃ seen, inp.seen = some seen ∧
      canControlFromConnectionContext seen ctx.userId ctx.auth = false

variable {env : Env} {ctx : RoomMessageContext} {inp : MessageInputs} {msg : RoomMessage}
    {state : RoomState}

theorem handler_of_control (h : messageGate inp msg = some .control) :
    ∃ hint body, roomMessageHandlers env ctx inp msg =
      .mutate (mutateControlledRoomMessage ctx hint body) := by
  cases msg with
  | playlistAddUrl url =>
    have hallowed : inp.resolveAllowed = true := by
      by_contra hno
      simp [messageGate,hno] at h
    exact ⟨_,_,if_neg (by simp [hallowed])⟩
  | playlistAddLocal parsed =>
    have hgate : (isProgressiveMediaMime parsed.mimeType && inp.localMediaSaved) = true := by
      by_contra hno
      simp [messageGate,hno] at h
    obtain ⟨hmime,hsaved⟩ := Bool.and_eq_true_iff.mp hgate
    exact ⟨_,_,if_neg (by simp [hmime,hsaved])⟩
  | playlistRetry itemId =>
    by_cases hallowed : inp.resolveAllowed <;> simp [messageGate,hallowed] at h
  | playbackSeek | playbackPlay | playbackPause | playbackRate | playbackLoopVideo
  | playbackLoopPlaylist | playlistSelect | playlistReorder | playlistRename | playlistRemove
  | playlistItemError => exact ⟨_,_,rfl⟩
  | _ => cases h

theorem handler_of_owner (h : messageGate inp msg = some .owner) :
    ∃ body, roomMessageHandlers env ctx inp msg = .mutate (mutateOwnerRoomMessage ctx body) := by
  cases msg with
  | playlistAddUrl url =>
    by_cases hallowed : inp.resolveAllowed <;> simp [messageGate,hallowed] at h
  | playlistAddLocal parsed =>
    by_cases hgate : (isProgressiveMediaMime parsed.mimeType && inp.localMediaSaved) = true <;>
      simp [messageGate,hgate] at h
  | playlistRetry itemId =>
    by_cases hallowed : inp.resolveAllowed <;> simp [messageGate,hallowed] at h
  | participantRoleUpdate | roomPasswordSet | roomPasswordClear | roomDefaultRoleSet =>
    exact ⟨_,rfl⟩
  | _ => cases h

theorem message_of_controlOnSeen (h : messageGate inp msg = some .controlOnSeen) :
    ∃ itemId, msg = .playlistRetry itemId ∧ inp.resolveAllowed = true := by
  cases msg with
  | playlistAddUrl url =>
    by_cases hallowed : inp.resolveAllowed <;> simp [messageGate,hallowed] at h
  | playlistAddLocal parsed =>
    by_cases hgate : (isProgressiveMediaMime parsed.mimeType && inp.localMediaSaved) = true <;>
      simp [messageGate,hgate] at h
  | playlistRetry itemId =>
    refine ⟨itemId,rfl,?_⟩
    by_contra hno
    simp [messageGate,hno] at h
  | _ => cases h

theorem mutateRoomMessage_none {userId newOwnerId : UserId} {active : Finset UserId} {now : ℕ}
    {mutation : RoomMutation}
    (h : ∀ p, mutation.body (reconcileParticipantsConnectivity active now state) p = none) :
    mutateRoomMessage env userId newOwnerId active now mutation state = none := by
  rw [mutateRoomMessage]
  split
  · rfl
  · rename_i p hp
    rw [h p]
    rfl

theorem denied_leaves_room (h : endsUnauthorized ctx inp msg state) :
    processRoomMessage env ctx inp msg state = none := by
  unfold endsUnauthorized at h
  dsimp only at h
  split at h
  · exact h.elim
  · rename_i hgate
    obtain ⟨hint,body,hhandler⟩ := @handler_of_control env ctx _ _ hgate
    rw [processRoomMessage,hhandler]
    exact mutateRoomMessage_none fun p => if_neg (by simp [h.2])
  · rename_i hgate
    obtain ⟨body,hhandler⟩ := @handler_of_owner env ctx _ _ hgate
    rw [processRoomMessage,hhandler]
    exact mutateRoomMessage_none fun p => if_neg (by simp [h.2])
  · rename_i hgate
    obtain ⟨itemId,rfl,hallowed⟩ := message_of_controlOnSeen hgate
    obtain ⟨seen,hseen,hcontrol⟩ := h
    have hskip : handlePlaylistRetry ctx inp itemId = .skip := by
      unfold handlePlaylistRetry
      rw [hallowed,hseen]
      exact if_pos (by simp [hcontrol])
    rw [processRoomMessage,roomMessageHandlers,hskip]

/-- What a room message does to the store of local media. A published ladder is not among
them, its ids are no part of the room message; its handler asks for no right to control. -/
def localMediaCommands (ctx : RoomMessageContext) (nodeId : String) :
    RoomMessage → List LocalMediaCommand
  | .playlistAddLocal parsed => (MediaMessage.playlistAddLocal parsed).commands ctx nodeId
  | .localMediaReady localMediaId ready =>
    (MediaMessage.localMediaReady localMediaId ready).commands ctx nodeId
  | _ => []

def addedEntry (ctx : RoomMessageContext) (nodeId : String) (now : ℕ) (parsed : AddLocalInput) :
    LocalMediaRecord :=
  createLocalMediaEntry nodeId now {
    id := parsed.localMediaId, roomId := ctx.roomId, ownerUserId := ctx.userId,
    filename := parsed.name, mimeType := parsed.mimeType, sizeBytes := parsed.sizeBytes,
    providerReady := true }

def drainMessage (ctx : RoomMessageContext) (nodeId : String) (msg : RoomMessage)
    (w : MediaWorld) : Option MediaWorld :=
  TaskPool.drain SentCommand.execute 8 w
    ((localMediaCommands ctx nodeId msg).map (SentCommand.mk (some ctx.userId)))

theorem drainMessage_denied (h : endsUnauthorized ctx inp msg state) (nodeId : String)
    (w : MediaWorld) :
    (drainMessage ctx nodeId msg w = some w ∧ ∀ parsed, msg ≠ .playlistAddLocal parsed) ∨
      ∃ parsed, msg = .playlistAddLocal parsed ∧
        drainMessage ctx nodeId msg w = some (w.put (addedEntry ctx nodeId w.now parsed)) := by
  cases msg with
  | playlistAddLocal parsed =>
    have hmime : isProgressiveMediaMime parsed.mimeType = true := by
      by_contra hno
      simp [endsUnauthorized,messageGate,hno] at h
    refine Or.inr ⟨parsed,rfl,?_⟩
    have hcommands : localMediaCommands ctx nodeId (.playlistAddLocal parsed) =
        [.create nodeId {
          id := parsed.localMediaId, roomId := ctx.roomId, ownerUserId := ctx.userId,
          filename := parsed.name, mimeType := parsed.mimeType, sizeBytes := parsed.sizeBytes,
          providerReady := true }] := if_pos hmime
    rw [drainMessage,hcommands]
    rfl
  | localMediaReady => exact h.elim
  | _ => exact Or.inl ⟨rfl,nofun⟩

theorem addedEntry_id (nodeId : String) (now : ℕ) (parsed : AddLocalInput) :
    (addedEntry ctx nodeId now parsed).id = parsed.localMediaId := rfl

theorem MediaWorld.put_media_eq_iff (w : MediaWorld) (entry : LocalMediaRecord) :
    (w.put entry).media = w.media ↔ w.media entry.id = some entry := by
  constructor
  · intro h
    rw [← h]
    exact w.put_media_same entry
  · intro h
    funext id
    by_cases hid : id = entry.id
    · subst hid
      rw [w.put_media_same,h]
    · exact w.put_media_of_ne entry hid

/-- A denied message writes no room, and it leaves the store as it was unless it adds a file
whose entry is not there yet. -/
theorem denied_leaves_media (h : endsUnauthorized ctx inp msg state) (nodeId : String)
    (w : MediaWorld) : ∃ w', drainMessage ctx nodeId msg w = some w' ∧
      (w'.media = w.media ↔ ∀ parsed, msg = .playlistAddLocal parsed →
        w.media parsed.localMediaId = some (addedEntry ctx nodeId w.now parsed)) := by
  rcases drainMessage_denied h nodeId w with ⟨hdrain,hmsg⟩ | ⟨parsed,rfl,hdrain⟩
  · exact ⟨w,hdrain,fun _ parsed heq => absurd heq (hmsg parsed),fun _ => rfl⟩
  · refine ⟨_,hdrain,?_⟩
    rw [w.put_media_eq_iff,addedEntry_id]
    constructor
    · rintro hstored other hother
      cases hother
      exact hstored
    · intro hall
      exact hall parsed rfl

end Denial

section Owner

/-- The entries that a command of a user's message may store are the user's. -/
def LocalMediaCommand.Of (userId : UserId) : LocalMediaCommand → Prop
  | .create _ input => input.ownerUserId = userId
  | .set entry => entry.ownerUserId = userId
  | .edit _ (.providerReady _ ownerUserId _) => ownerUserId = some userId
  | .edit _ (.abr _ ownerUserId) => ownerUserId = some userId
  | .edit _ .touch => False
  | .announce ctx _ _ => ctx.userId = userId
  | .recreate ctx _ _ => ctx.userId = userId
  | .publish ctx _ _ => ctx.userId = userId
  | _ => True

theorem owner_of_accepted {userId : UserId} {entry : LocalMediaRecord} (huser : userId ≠ "")
    (h : ¬refusesOwner (some userId) entry = true) : entry.ownerUserId = userId := by
  by_contra hne
  have hblank : isBlank (some userId) = false := by simp [isBlank,huser]
  have hother : (some userId != some entry.ownerUserId) = true :=
    bne_iff_ne.mpr fun heq => hne (Option.some.inj heq).symm
  exact h (by rw [refusesOwner,hblank,hother]; rfl)

theorem LocalMediaEdit.apply_owner {userId : UserId} {now : ℕ} {entry next : LocalMediaRecord}
    {id : String} {edit : LocalMediaEdit} (huser : userId ≠ "")
    (hof : (LocalMediaCommand.edit id edit).Of userId) (h : edit.apply now entry = some next) :
    next.ownerUserId = userId := by
  cases edit with
  | providerReady ready ownerUserId nodeId =>
    obtain rfl : ownerUserId = some userId := hof
    simp only [LocalMediaEdit.apply] at h
    split at h
    · cases h
    · rename_i haccepted
      by_cases hsame : entry.providerReady = ready ∧
          entry.providerNodeId = if ready then some nodeId else none
      · rw [if_pos hsame] at h
        cases h
      · rw [if_neg hsame] at h
        cases h
        exact owner_of_accepted huser haccepted
  | abr abr ownerUserId =>
    obtain rfl : ownerUserId = some userId := hof
    simp only [LocalMediaEdit.apply] at h
    split at h
    · cases h
    · rename_i haccepted
      cases h
      exact owner_of_accepted huser haccepted
  | touch => exact hof.elim

theorem LocalMediaCommand.Of.execute {userId : UserId} {c : LocalMediaCommand} (huser : userId ≠ "")
    (h : c.Of userId) (w : MediaWorld) :
    ∀ other ∈ (WebSyncPlay.execute w c).2, other.Of userId := by
  intro other hmem
  cases c with
  | create nodeId input =>
    obtain rfl := List.mem_singleton.mp hmem
    exact h
  | set entry => cases hmem
  | del id => cases hmem
  | get id retries =>
    simp only [WebSyncPlay.execute] at hmem
    split at hmem
    · obtain rfl := List.mem_singleton.mp hmem
      trivial
    · obtain rfl := List.mem_singleton.mp hmem
      trivial
    · rcases List.mem_pair.mp hmem with rfl | rfl <;> trivial
    · cases hmem
  | edit id edit =>
    simp only [WebSyncPlay.execute] at hmem
    cases hread : w.read id with
    | missing =>
      rw [hread] at hmem
      cases hmem
    | expired =>
      rw [hread] at hmem
      obtain rfl := List.mem_singleton.mp hmem
      trivial
    | found entry =>
      rw [hread,continueEdit,Option.mem_toList,Option.map_eq_some_iff] at hmem
      obtain ⟨next,hnext,rfl⟩ := hmem
      exact LocalMediaEdit.apply_owner huser h hnext
  | delete id =>
    rcases List.mem_append.mp hmem with hmem | hmem
    · obtain ⟨child,-,rfl⟩ := List.mem_map.mp hmem
      trivial
    · obtain rfl := List.mem_singleton.mp hmem
      trivial
  | announce ctx nodeId localMediaId =>
    simp only [WebSyncPlay.execute] at hmem
    cases hread : w.read localMediaId with
    | missing =>
      rw [hread] at hmem
      obtain rfl := List.mem_singleton.mp hmem
      exact h
    | expired =>
      rw [hread] at hmem
      rcases List.mem_pair.mp hmem with rfl | rfl
      · trivial
      · exact h
    | found entry =>
      rw [hread] at hmem
      obtain rfl := List.mem_singleton.mp hmem
      exact congrArg some h
  | recreate ctx nodeId localMediaId =>
    simp only [WebSyncPlay.execute,continueRecreate] at hmem
    split at hmem
    · obtain rfl := List.mem_singleton.mp hmem
      trivial
    · split at hmem
      · rcases List.mem_pair.mp hmem with rfl | rfl
        · exact h
        · trivial
      · obtain rfl := List.mem_singleton.mp hmem
        trivial
  | publish ctx nodeId parsed =>
    simp only [WebSyncPlay.execute] at hmem
    cases hread : w.read parsed.parentLocalMediaId with
    | missing =>
      rw [hread] at hmem
      cases hmem
    | expired =>
      rw [hread] at hmem
      obtain rfl := List.mem_singleton.mp hmem
      trivial
    | found parent =>
      rw [hread,continuePublish] at hmem
      split at hmem
      · cases hmem
      · rcases List.mem_append.mp hmem with hmem | hmem
        · rcases List.mem_append.mp hmem with hmem | hmem
          · obtain ⟨child,-,rfl⟩ := List.mem_map.mp hmem
            trivial
          · obtain ⟨v,-,rfl⟩ := List.mem_map.mp hmem
            exact h
        · obtain rfl := List.mem_singleton.mp hmem
          exact congrArg some h

theorem MediaMessage.commands_of {ctx : RoomMessageContext} {nodeId : String} {msg : MediaMessage}
    {c : LocalMediaCommand} (h : c ∈ msg.commands ctx nodeId) : c.Of ctx.userId := by
  cases msg with
  | playlistAddLocal parsed =>
    simp only [MediaMessage.commands] at h
    split at h
    · obtain rfl := List.mem_singleton.mp h
      rfl
    · cases h
  | localMediaReady localMediaId ready =>
    cases ready <;>
    · obtain rfl := List.mem_singleton.mp h
      rfl
  | localMediaAbrPublish parsed =>
    obtain rfl := List.mem_singleton.mp h
    rfl

/-- Whatever the messages of a user are still to do, they store the user's own entries. -/
def SendersInv (s : MediaState) : Prop :=
  ∀ c userId, s.Pending c → c.sender = some userId → userId ≠ "" ∧ c.command.Of userId

theorem SendersInv.step {env : Env} {s s' : MediaState} {a : MediaAction} (hi : SendersInv s)
    (h : mediaStep env s a = some s') : SendersInv s' := by
  intro other userId hother hsender
  rcases mediaStep_cases h with ⟨n,rfl,hrun⟩ | ⟨-,-,hpending⟩
  · obtain ⟨c,hnext,-,-,hold⟩ := run_sent_spec hrun
    rcases hold other hother with hother | ⟨hsame,hmem⟩
    · exact hi other userId hother hsender
    · obtain ⟨huser,hof⟩ := hi c userId (pending_of_next hnext) (hsame.symm.trans hsender)
      exact ⟨huser,hof.execute huser s.world _ hmem⟩
  · rcases hpending other hother with hother | ⟨hnone,-⟩ | ⟨ctx,nodeId,msg,huser,hsome,hmem⟩
    · exact hi other userId hother hsender
    · rw [hsender] at hnone
      cases hnone
    · obtain rfl : ctx.userId = userId := Option.some.inj (hsome.symm.trans hsender)
      exact ⟨huser,MediaMessage.commands_of hmem⟩

/-- A command of a user's message leaves owner and room of everybody else's undeleted and
unexpired entries alone. -/
def KeepsOthers (s : MediaState) (a : MediaAction) (s' : MediaState) : Prop :=
  ∀ n userId command, a = .run n → nextCommand s n = some ⟨some userId,command⟩ →
    ∀ id entry entry', s.world.live id = some entry → entry.ownerUserId ≠ userId →
      s'.world.media id = some entry' →
        entry'.ownerUserId = entry.ownerUserId ∧ entry'.roomId = entry.roomId

/-- What a user's message is about to store is under no id of somebody else's undeleted and
unexpired entry. -/
def setsNoOthers (s : MediaState) : MediaAction → Bool
  | .run n =>
    match nextCommand s n with
    | some ⟨some userId,.set entry⟩ =>
      (s.world.live entry.id).all fun stored => stored.ownerUserId == userId
    | _ => true
  | _ => true

abbrev SetsNoOthers (s : MediaState) (a : MediaAction) (_ : MediaState) : Prop :=
  setsNoOthers s a = true

theorem setsNoOthers_run {s : MediaState} {n : ℕ} : setsNoOthers s (.run n) = true ↔
    ∀ userId entry, nextCommand s n = some ⟨some userId,.set entry⟩ →
      ∀ stored, s.world.live entry.id = some stored → stored.ownerUserId = userId := by
  rw [setsNoOthers]
  split
  · rename_i userId entry hnext
    constructor
    · rintro hall userId' entry' hnext' stored hlive
      rw [hnext] at hnext'
      cases hnext'
      rw [hlive] at hall
      simpa using hall
    · intro hall
      cases hlive : s.world.live entry.id with
      | none => rfl
      | some stored => simpa using hall userId entry hnext stored hlive
  · rename_i hother
    exact ⟨fun _ userId entry hnext => absurd hnext (hother userId entry),fun _ => rfl⟩

theorem keepsOthers_iff {env : Env} {s s' : MediaState} {a : MediaAction} (hi : SendersInv s)
    (h : mediaStep env s a = some s') : KeepsOthers s a s' ↔ SetsNoOthers s a s' := by
  rcases mediaStep_cases h with ⟨n,rfl,hrun⟩ | ⟨-,hno,-⟩
  · obtain ⟨c,hnext,hworld,-,-⟩ := run_sent_spec hrun
    constructor
    · -- An entry that is stored has the sender for its owner.
      intro hkeeps
      refine setsNoOthers_run.mpr fun userId entry hset stored hlive => ?_
      by_contra hother
      obtain rfl : c = ⟨some userId,.set entry⟩ := Option.some.inj (hnext.symm.trans hset)
      obtain ⟨-,howner⟩ := hi _ userId (pending_of_next hnext) rfl
      have hstored : s'.world.media entry.id = some entry := by
        rw [hworld]
        exact s.world.put_media_same entry
      have hsame := (hkeeps n userId _ rfl hset entry.id stored entry hlive hother hstored).1
      exact hother (hsame.symm.trans howner)
    · intro hsets m userId command hm hcommand id entry entry' hlive hother hstored
      cases hm
      obtain rfl : c = ⟨some userId,command⟩ := Option.some.inj (hnext.symm.trans hcommand)
      have hentry := (MediaWorld.live_eq_some.mp hlive).1
      have hkept : s'.world.media id = s.world.media id → entry' = entry := by
        intro hsame
        rw [hsame,hentry] at hstored
        exact (Option.some.inj hstored).symm
      rcases execute_world s.world command with ⟨set,rfl⟩ | ⟨gone,rfl⟩ | hworld'
      · by_cases hid : id = set.id
        · subst hid
          exact absurd (setsNoOthers_run.mp hsets userId set hcommand entry hlive) hother
        · have hsame : s'.world.media id = s.world.media id := by
            rw [hworld]
            exact s.world.put_media_of_ne set hid
          rw [hkept hsame]
          exact ⟨rfl,rfl⟩
      · by_cases hid : id = gone
        · subst hid
          have hnone : s'.world.media id = none := by
            rw [hworld]
            exact s.world.drop_media_same id
          rw [hnone] at hstored
          cases hstored
        · have hsame : s'.world.media id = s.world.media id := by
            rw [hworld]
            exact s.world.drop_media_of_ne hid
          rw [hkept hsame]
          exact ⟨rfl,rfl⟩
      · have hsame : s'.world.media id = s.world.media id := by
          rw [hworld,hworld']
        rw [hkept hsame]
        exact ⟨rfl,rfl⟩
  · constructor
    · intro _
      cases a with
      | run n => exact absurd rfl (hno n)
      | _ => rfl
    · rintro - n userId command rfl
      exact absurd rfl (hno n)

theorem sendersInv_empty : SendersInv emptyMedia := by
  rintro c userId ⟨task,htask,-⟩
  cases htask

end Owner

/-- A denied message writes no room; it leaves local media alone unless it adds a file whose
entry is not there yet. And a run leaves everybody's entries to their owners exactly when
nothing that its messages store lands on the id of somebody else's live entry. -/
theorem local_media_owners (env : Env) (ctx : RoomMessageContext) (inp : MessageInputs)
    (msg : RoomMessage) (state : RoomState) (nodeId : String) (w : MediaWorld)
    (run : List MediaAction) :
    (endsUnauthorized ctx inp msg state →
      processRoomMessage env ctx inp msg state = none ∧
      ∃ w', drainMessage ctx nodeId msg w = some w' ∧
        (w'.media = w.media ↔ ∀ parsed, msg = .playlistAddLocal parsed →
          w.media parsed.localMediaId = some (addedEntry ctx nodeId w.now parsed))) ∧
    (EachStep (mediaStep env) KeepsOthers emptyMedia run ↔
      EachStep (mediaStep env) SetsNoOthers emptyMedia run) := by
  refine ⟨fun h => ⟨denied_leaves_room h,denied_leaves_media h nodeId w⟩,?_⟩
  exact eachStep_iff SendersInv (fun s a s' hi (h : mediaStep env s a = some s') =>
    keepsOthers_iff hi h) (fun s a s' hi h _ => hi.step h) run sendersInv_empty

section Scenarios

def film : AddLocalInput where
  localMediaId := "film"
  name := "Film"
  mimeType := "video/mp4"
  sizeBytes := 1000

def annAddsFilm : List MediaAction :=
  [.message (roomPage "ann") "node" (.playlistAddLocal film),.run 0,.run 0]

/-- Bob sends the same id, and his entry replaces hers. -/
def bobAddsFilm : List MediaAction :=
  [.message (roomPage "bob") "node" (.playlistAddLocal film),.run 1,.run 1]

def bobsInputs : MessageInputs where
  now := 9000
  activeConnections := {"ann","bob"}

theorem exists_guest_room : ∃ state, Stored scenarioEnv state ∧
    endsUnauthorized (roomPage "bob") bobsInputs (.playlistAddLocal film) state ∧
    endsUnauthorized (roomPage "bob") bobsInputs .playbackPlay state := by
  obtain ⟨state,hs,hthere,hdenied⟩ := exists_stored_of_runRoom scenarioEnv
    [joinAs "ann" 1000 {},joinAs "bob" 2000 {"ann"}]
    (fun state =>
      ((reconcileParticipantsConnectivity {"ann","bob"} 9000 state).participants.get? "bob").isSome
        = true ∧
      canControlFromConnectionContext (reconcileParticipantsConnectivity {"ann","bob"} 9000 state)
        "bob" (roomPage "bob").auth = false)
    (by decide +kernel)
  have hmime : isProgressiveMediaMime film.mimeType = true := by decide +kernel
  refine ⟨state,hs,?_,hthere,hdenied⟩
  simp only [endsUnauthorized,messageGate,hmime,bobsInputs]
  exact ⟨hthere,hdenied⟩

def eachAddsFile : List MediaAction :=
  [.message (roomPage "ann") "node" (.playlistAddLocal film),
    .message (roomPage "bob") "other" (.playlistAddLocal { film with localMediaId := "song" }),
    .run 0,.run 1,.run 1,.run 0]

/-- Bob's denied playback command, and a file of each of them. -/
theorem local_media_owners_of_guest : ∃ state,
    processRoomMessage scenarioEnv (roomPage "bob") bobsInputs .playbackPlay state = none ∧
      EachStep (mediaStep scenarioEnv) KeepsOthers emptyMedia eachAddsFile := by
  obtain ⟨state,-,-,hdenied⟩ := exists_guest_room
  have h := local_media_owners scenarioEnv (roomPage "bob") bobsInputs .playbackPlay state "node"
    emptyMedia.world eachAddsFile
  exact ⟨state,(h.1 hdenied).1,h.2.mpr (by decide +kernel)⟩

/-- A guest's denied message stores an entry all the same, and with the id of Ann's file it
makes the entry the guest's. -/
theorem denied_file_replaces_entry :
    (¬∀ (env : Env) (ctx : RoomMessageContext) (inp : MessageInputs) (msg : RoomMessage)
      (state : RoomState), Stored env state → endsUnauthorized ctx inp msg state →
        ∀ nodeId w w', drainMessage ctx nodeId msg w = some w' → w'.media = w.media) ∧
    ¬∀ (env : Env) (run : List MediaAction), EachStep (mediaStep env) KeepsOthers emptyMedia run := by
  constructor
  · intro h
    obtain ⟨state,hs,hdenied,-⟩ := exists_guest_room
    have hmime : isProgressiveMediaMime film.mimeType = true := by decide +kernel
    have hdrain : drainMessage (roomPage "bob") "node" (.playlistAddLocal film) emptyMedia.world =
        some (emptyMedia.world.put (addedEntry (roomPage "bob") "node" 0 film)) := by
      rw [drainMessage,localMediaCommands,MediaMessage.commands,if_pos hmime]
      rfl
    have hsame := h scenarioEnv (roomPage "bob") bobsInputs (.playlistAddLocal film) state hs hdenied
      "node" emptyMedia.world _ hdrain
    have hstored := (MediaWorld.put_media_eq_iff _ _).mp hsame
    cases hstored
  · intro h
    have hsets := (eachStep_iff SendersInv (fun s a s' hi (hs : mediaStep scenarioEnv s a = some s') =>
      keepsOthers_iff hi hs) (fun s a s' hi hs _ => hi.step hs) _ sendersInv_empty).mp
        (h scenarioEnv (annAddsFilm ++ bobAddsFilm))
    revert hsets
    decide +kernel

end Scenarios

end WebSyncPlay
