import WebSyncPlay.LocalPlayback
import WebSyncPlay.PresenceDelivery
import WebSyncPlay.Library.OnceTimer

/-! What one node collects before it broadcasts (`broadcast/room-broadcast-bus.ts`,
`broadcast/presence-publisher.ts`): marks, the timers that they set, and the flushes. -/
namespace WebSyncPlay

open Library

def PRESENCE_BATCH_INTERVAL_MS : ℕ := 250
def SNAPSHOT_COALESCE_MS : ℕ := 100
def ACTION_LOG_SNAPSHOT_MAX_MS : ℕ := 2000

/-- A patch object of the server: a property is missing, or there, perhaps with `undefined`. -/
structure DirtyPatch where
  connected : Option (Option Bool) := none
  lastSeenAt : Option (Option ℕ) := none
  disconnectedAt : Option (Option ℕ) := none
  username : Option (Option String) := none
  avatarStyle : Option (Option String) := none
  localPlayback : Option (Option ParticipantLocalPlayback) := none
  localPlaybackReports : Option (Record String LocalPlaybackReport) := none
  deriving DecidableEq

namespace DirtyPatch

/-- What `JSON.stringify` leaves of a patch without reports. -/
def wire (patch : DirtyPatch) : PresencePatch where
  connected := patch.connected.join
  lastSeenAt := patch.lastSeenAt.join
  disconnectedAt := patch.disconnectedAt.join
  username := patch.username.join
  avatarStyle := patch.avatarStyle.join
  localPlayback := patch.localPlayback.join

/-- Spread over another patch; a missing playback is taken from it. -/
def spreadOver (patch prev : DirtyPatch) : DirtyPatch where
  connected := patch.connected <|> prev.connected
  lastSeenAt := patch.lastSeenAt <|> prev.lastSeenAt
  disconnectedAt := patch.disconnectedAt <|> prev.disconnectedAt
  username := patch.username <|> prev.username
  avatarStyle := patch.avatarStyle <|> prev.avatarStyle
  localPlayback := some (patch.localPlayback.join <|> prev.localPlayback.join)

/-- No property but the playback is there with `undefined`. -/
structure Plain (patch : DirtyPatch) : Prop where
  connected : patch.connected ≠ some none
  lastSeenAt : patch.lastSeenAt ≠ some none
  disconnectedAt : patch.disconnectedAt ≠ some none
  username : patch.username ≠ some none
  avatarStyle : patch.avatarStyle ≠ some none

instance (patch : DirtyPatch) : Decidable patch.Plain :=
  decidable_of_iff (patch.connected ≠ some none ∧ patch.lastSeenAt ≠ some none ∧
      patch.disconnectedAt ≠ some none ∧ patch.username ≠ some none ∧
      patch.avatarStyle ≠ some none)
    ⟨fun h => ⟨h.1,h.2.1,h.2.2.1,h.2.2.2.1,h.2.2.2.2⟩,
      fun h => ⟨h.connected,h.lastSeenAt,h.disconnectedAt,h.username,h.avatarStyle⟩⟩

end DirtyPatch

/-- Merge a presence patch into the dirty map, without reports. -/
def mergePresenceDirty (dirty : Record UserId DirtyPatch) (userId : UserId) (patch : DirtyPatch) :
    Record UserId DirtyPatch :=
  dirty.set userId (patch.spreadOver ((dirty.get? userId).getD {}))

/-- What waits to be broadcast for a room. What was marked and handed over since the room was last
cleared is kept besides. -/
structure RoomDirty where
  presence : Record UserId DirtyPatch := .empty
  snapshot : Bool := false
  actionLog : Bool := false
  presenceTimer : OnceTimer := {}
  snapshotTimer : OnceTimer := {}
  actionLogTimer : OnceTimer := {}
  marked : List (UserId × DirtyPatch) := []
  handed : List (Record UserId DirtyPatch) := []

structure BusState where
  nowMs : ℕ := 0
  rooms : String → Option RoomDirty := fun _ => none

namespace BusState

def ensure (s : BusState) (roomId : String) : RoomDirty := (s.rooms roomId).getD {}

def setRoom (s : BusState) (roomId : String) (dirty : Option RoomDirty) : BusState :=
  { s with rooms := Function.update s.rooms roomId dirty }

end BusState

namespace RoomDirty

def markPresenceDirty (dirty : RoomDirty) (nowMs : ℕ) (userId : UserId) (patch : DirtyPatch) :
    RoomDirty :=
  { dirty with
    presence := mergePresenceDirty dirty.presence userId patch
    presenceTimer := dirty.presenceTimer.schedule nowMs PRESENCE_BATCH_INTERVAL_MS
    marked := dirty.marked ++ [(userId,patch)] }

def markSnapshotDirty (dirty : RoomDirty) (nowMs : ℕ) : RoomDirty :=
  { dirty with
    snapshot := true
    snapshotTimer := dirty.snapshotTimer.schedule nowMs SNAPSHOT_COALESCE_MS }

def markActionLogDirty (dirty : RoomDirty) (nowMs : ℕ) : RoomDirty :=
  { dirty with
    actionLog := true
    actionLogTimer := dirty.actionLogTimer.schedule nowMs ACTION_LOG_SNAPSHOT_MAX_MS }

/-- Hand the dirty map to `flushPresenceBatch`. -/
def flushPresence (dirty : RoomDirty) : RoomDirty :=
  if dirty.presence.size = 0 then dirty
  else
    { dirty with
      presence := .empty
      presenceTimer := dirty.presenceTimer.serve
      handed := dirty.handed ++ [dirty.presence] }

/-- A snapshot has all that was marked, the action log included. The snapshot timer runs on. -/
def flushSnapshot (dirty : RoomDirty) : RoomDirty :=
  { dirty with
    snapshot := false
    actionLog := false
    snapshotTimer := dirty.snapshotTimer.serve
    actionLogTimer := dirty.actionLogTimer.clear.serve }

def firePresence (dirty : RoomDirty) : RoomDirty :=
  { dirty with presenceTimer := dirty.presenceTimer.clear }.flushPresence

def fireSnapshot (dirty : RoomDirty) : RoomDirty :=
  { dirty with snapshotTimer := dirty.snapshotTimer.clear }.flushSnapshot

def fireActionLog (dirty : RoomDirty) : RoomDirty :=
  let cleared := { dirty with actionLogTimer := dirty.actionLogTimer.clear }
  if dirty.actionLog then
    { cleared with actionLog := false, snapshot := true }.flushSnapshot
  else cleared

end RoomDirty

inductive BusTimer
  | presence | snapshot | actionLog
  deriving DecidableEq

inductive BusAction
  | tick (ms : ℕ)
  | markPresence (roomId : String) (userId : UserId) (patch : DirtyPatch)
  | markSnapshot (roomId : String)
  | markActionLog (roomId : String)
  | fire (roomId : String) (timer : BusTimer)
  | clearRoom (roomId : String)

namespace RoomDirty

def timer (dirty : RoomDirty) : BusTimer → OnceTimer
  | .presence => dirty.presenceTimer
  | .snapshot => dirty.snapshotTimer
  | .actionLog => dirty.actionLogTimer

def fire (dirty : RoomDirty) : BusTimer → RoomDirty
  | .presence => dirty.firePresence
  | .snapshot => dirty.fireSnapshot
  | .actionLog => dirty.fireActionLog

end RoomDirty

def BusTimer.delayMs : BusTimer → ℕ
  | .presence => PRESENCE_BATCH_INTERVAL_MS
  | .snapshot => SNAPSHOT_COALESCE_MS
  | .actionLog => ACTION_LOG_SNAPSHOT_MAX_MS

/-- A timer fires at its deadline or later. -/
def busStep (s : BusState) : BusAction → Option BusState
  | .tick ms => some { s with nowMs := s.nowMs+ms }
  | .markPresence roomId userId patch =>
    some (s.setRoom roomId (some ((s.ensure roomId).markPresenceDirty s.nowMs userId patch)))
  | .markSnapshot roomId =>
    some (s.setRoom roomId (some ((s.ensure roomId).markSnapshotDirty s.nowMs)))
  | .markActionLog roomId =>
    some (s.setRoom roomId (some ((s.ensure roomId).markActionLogDirty s.nowMs)))
  | .fire roomId timer =>
    (s.rooms roomId).bind fun dirty =>
      if (dirty.timer timer).deadline.any (fun d => decide (d ≤ s.nowMs)) then
        some (s.setRoom roomId (some (dirty.fire timer)))
      else none
  | .clearRoom roomId => some (s.setRoom roomId none)

def busSystem : TransitionSystem BusState BusAction where
  init s := s = {}
  step s a s' := busStep s a = some s'

section Patches

/-- A property that is there wins, unless it is there with `undefined`. -/
theorem getD_join_orElse {α : Type*} {o o' : Option (Option α)} (h : o ≠ some none) (v : α) :
    (o <|> o').join.getD v = o.join.getD (o'.join.getD v) := by
  cases o with
  | none => simp
  | some inner =>
    cases inner with
    | none => exact absurd rfl h
    | some w => simp

theorem join_orElse {α : Type*} {o o' : Option (Option α)} (h : o ≠ some none) (v : Option α) :
    ((o <|> o').join <|> v) = (o.join <|> (o'.join <|> v)) := by
  cases o with
  | none => simp
  | some inner =>
    cases inner with
    | none => exact absurd rfl h
    | some w => simp

theorem mergePresencePatch_spreadOver {patch : DirtyPatch} (h : patch.Plain) (prev : DirtyPatch)
    (p : ParticipantState) :
    mergePresencePatch (patch.spreadOver prev).wire p =
      mergePresencePatch patch.wire (mergePresencePatch prev.wire p) := by
  have hplayback : (patch.spreadOver prev).wire.localPlayback.getD p.localPlayback =
      patch.wire.localPlayback.getD (prev.wire.localPlayback.getD p.localPlayback) := by
    show (patch.localPlayback.join <|> prev.localPlayback.join).getD _ = _
    cases hlocal : patch.localPlayback.join <;> simp [DirtyPatch.wire,hlocal]
  simp only [mergePresencePatch,hplayback]
  simp only [DirtyPatch.wire,DirtyPatch.spreadOver,getD_join_orElse h.connected,
    getD_join_orElse h.username,getD_join_orElse h.avatarStyle,join_orElse h.lastSeenAt,
    join_orElse h.disconnectedAt]

end Patches

section Timers

def RoomDirty.dirtied (dirty : RoomDirty) : BusTimer → Bool
  | .presence => dirty.presence.size != 0
  | .snapshot => dirty.snapshot
  | .actionLog => dirty.actionLog

/-- What is dirty has been marked, and its timer is set in time for each mark. -/
structure RoomDirty.Timely (nowMs : ℕ) (dirty : RoomDirty) : Prop where
  timer : ∀ timer : BusTimer, (dirty.timer timer).Timely timer.delayMs nowMs
  waits : ∀ timer : BusTimer, dirty.dirtied timer = false ↔ (dirty.timer timer).waiting = []

namespace RoomDirty.Timely

variable {nowMs : ℕ} {dirty : RoomDirty}

theorem fresh : RoomDirty.Timely nowMs {} where
  timer timer := by cases timer <;> exact OnceTimer.timely_unset
  waits timer := by cases timer <;> exact ⟨fun _ => rfl,fun _ => rfl⟩

theorem later (h : dirty.Timely nowMs) {laterMs : ℕ} (hle : nowMs ≤ laterMs) :
    dirty.Timely laterMs where
  timer timer := (h.timer timer).later hle
  waits := h.waits

theorem markPresenceDirty (h : dirty.Timely nowMs) (userId : UserId) (patch : DirtyPatch) :
    (dirty.markPresenceDirty nowMs userId patch).Timely nowMs where
  timer timer := by
    cases timer with
    | presence => exact (h.timer .presence).schedule
    | snapshot => exact h.timer .snapshot
    | actionLog => exact h.timer .actionLog
  waits timer := by
    cases timer with
    | presence =>
      have hsize : (mergePresenceDirty dirty.presence userId patch).size ≠ 0 := by
        intro hzero
        have hnone := (Record.size_eq_zero_iff _).mp hzero userId
        simp [mergePresenceDirty] at hnone
      simpa [RoomDirty.dirtied,RoomDirty.markPresenceDirty,RoomDirty.timer,
        OnceTimer.schedule] using hsize
    | snapshot => exact h.waits .snapshot
    | actionLog => exact h.waits .actionLog

theorem markSnapshotDirty (h : dirty.Timely nowMs) :
    (dirty.markSnapshotDirty nowMs).Timely nowMs where
  timer timer := by
    cases timer with
    | presence => exact h.timer .presence
    | snapshot => exact (h.timer .snapshot).schedule
    | actionLog => exact h.timer .actionLog
  waits timer := by
    cases timer with
    | presence => exact h.waits .presence
    | snapshot => simp [RoomDirty.dirtied,RoomDirty.markSnapshotDirty,RoomDirty.timer,
        OnceTimer.schedule]
    | actionLog => exact h.waits .actionLog

theorem markActionLogDirty (h : dirty.Timely nowMs) :
    (dirty.markActionLogDirty nowMs).Timely nowMs where
  timer timer := by
    cases timer with
    | presence => exact h.timer .presence
    | snapshot => exact h.timer .snapshot
    | actionLog => exact (h.timer .actionLog).schedule
  waits timer := by
    cases timer with
    | presence => exact h.waits .presence
    | snapshot => exact h.waits .snapshot
    | actionLog => simp [RoomDirty.dirtied,RoomDirty.markActionLogDirty,RoomDirty.timer,
        OnceTimer.schedule]

theorem firePresence (h : dirty.Timely nowMs) : dirty.firePresence.Timely nowMs := by
  unfold RoomDirty.firePresence RoomDirty.flushPresence
  by_cases hsize : dirty.presence.size = 0
  · have hwaiting : dirty.presenceTimer.waiting = [] :=
      (h.waits .presence).mp (by simp [RoomDirty.dirtied,hsize])
    rw [if_pos hsize]
    constructor
    · intro timer
      cases timer with
      | presence => exact OnceTimer.timely_of_waiting hwaiting
      | snapshot => exact h.timer .snapshot
      | actionLog => exact h.timer .actionLog
    · intro timer
      cases timer with
      | presence => exact h.waits .presence
      | snapshot => exact h.waits .snapshot
      | actionLog => exact h.waits .actionLog
  · rw [if_neg hsize]
    constructor
    · intro timer
      cases timer with
      | presence => exact OnceTimer.timely_of_waiting (t := dirty.presenceTimer.serve) rfl
      | snapshot => exact h.timer .snapshot
      | actionLog => exact h.timer .actionLog
    · intro timer
      cases timer with
      | presence => exact ⟨fun _ => rfl,fun _ => rfl⟩
      | snapshot => exact h.waits .snapshot
      | actionLog => exact h.waits .actionLog

theorem flushSnapshot (h : dirty.Timely nowMs) (timer : OnceTimer)
    (htimer : timer = dirty.snapshotTimer ∨ timer = dirty.snapshotTimer.clear) (snapshot : Bool) :
    ({ dirty with snapshotTimer := timer, snapshot := snapshot }.flushSnapshot).Timely nowMs where
  timer which := by
    cases which with
    | presence => exact h.timer .presence
    | snapshot =>
      rcases htimer with rfl | rfl
      · exact (h.timer .snapshot).serve
      · exact OnceTimer.timely_of_waiting (t := dirty.snapshotTimer.serve) rfl
    | actionLog => exact OnceTimer.timely_of_waiting (t := dirty.actionLogTimer.serve) rfl
  waits which := by
    cases which with
    | presence => exact h.waits .presence
    | snapshot => exact ⟨fun _ => rfl,fun _ => rfl⟩
    | actionLog => exact ⟨fun _ => rfl,fun _ => rfl⟩

theorem fire (h : dirty.Timely nowMs) (timer : BusTimer) : (dirty.fire timer).Timely nowMs := by
  cases timer with
  | presence => exact h.firePresence
  | snapshot => exact h.flushSnapshot dirty.snapshotTimer.clear (.inr rfl) dirty.snapshot
  | actionLog =>
    show (RoomDirty.fireActionLog dirty).Timely nowMs
    unfold RoomDirty.fireActionLog
    by_cases hlog : dirty.actionLog = true
    · rw [if_pos hlog]
      exact h.flushSnapshot dirty.snapshotTimer (.inl rfl) true
    · have hoff : dirty.actionLog = false := by simpa using hlog
      rw [if_neg hlog]
      constructor
      · intro which
        cases which with
        | presence => exact h.timer .presence
        | snapshot => exact h.timer .snapshot
        | actionLog => exact OnceTimer.timely_of_waiting ((h.waits .actionLog).mp hoff)
      · intro which
        cases which with
        | presence => exact h.waits .presence
        | snapshot => exact h.waits .snapshot
        | actionLog => exact h.waits .actionLog

/-- What is dirty is flushed at most the delay from now on. -/
theorem deadline (h : dirty.Timely nowMs) {timer : BusTimer}
    (hdirty : dirty.dirtied timer = true) :
    ∃ d, (dirty.timer timer).deadline = some d ∧ d ≤ nowMs+timer.delayMs := by
  have hwaiting : (dirty.timer timer).waiting ≠ [] := by
    intro hnil
    simp [(h.waits timer).mpr hnil] at hdirty
  obtain ⟨moment,hmem⟩ := List.exists_mem_of_ne_nil _ hwaiting
  obtain ⟨d,hd,-⟩ := (h.timer timer).waits moment hmem
  exact ⟨d,hd,(h.timer timer).near d hd⟩

end RoomDirty.Timely

end Timers

section Coalescing

/-- A participant after the batch of some patches. -/
def patchedBy (userId : UserId) (batch : Record UserId DirtyPatch) (p : ParticipantState) :
    ParticipantState :=
  (batch.get? userId).elim p fun patch => mergePresencePatch patch.wire p

def mergedBatches (participants : Record UserId ParticipantState)
    (batches : List (Record UserId DirtyPatch)) : Record UserId ParticipantState :=
  batches.foldl (fun next batch => mergeParticipantPresence next (batch.mapValues DirtyPatch.wire))
    participants

def batchOf (mark : UserId × DirtyPatch) : Record UserId DirtyPatch :=
  Record.empty.set mark.1 mark.2

theorem mergedBatches_get? (batches : List (Record UserId DirtyPatch))
    (participants : Record UserId ParticipantState) (userId : UserId) :
    (mergedBatches participants batches).get? userId =
      (participants.get? userId).map fun p =>
        batches.foldl (fun p batch => patchedBy userId batch p) p := by
  induction batches generalizing participants with
  | nil => simp [mergedBatches]
  | cons batch batches ih =>
    have hone := Record.get?_foldl_modify (f := mergePresencePatch)
      (batch.mapValues DirtyPatch.wire) participants userId
    rw [mergedBatches,List.foldl_cons]
    refine (ih _).trans ?_
    rw [mergeParticipantPresence,hone,Option.map_map]
    congr 1
    funext p
    show batches.foldl _ _ = batches.foldl _ (patchedBy userId batch p)
    congr 1
    rw [patchedBy,Record.get?_mapValues]
    cases batch.get? userId <;> rfl

theorem patchedBy_batchOf (userId : UserId) (mark : UserId × DirtyPatch) (p : ParticipantState) :
    patchedBy userId (batchOf mark) p =
      if userId = mark.1 then mergePresencePatch mark.2.wire p else p := by
  unfold patchedBy batchOf
  rw [Record.get?_set]
  split <;> rfl

theorem patchedBy_mergePresenceDirty {patch : DirtyPatch} (hplain : patch.Plain)
    (batch : Record UserId DirtyPatch) (userId other : UserId) (p : ParticipantState) :
    patchedBy userId (mergePresenceDirty batch other patch) p =
      patchedBy userId (batchOf (other,patch)) (patchedBy userId batch p) := by
  rw [patchedBy_batchOf,patchedBy,mergePresenceDirty,Record.get?_set]
  by_cases heq : userId = other
  · subst heq
    rw [if_pos rfl,if_pos rfl,Option.elim_some,mergePresencePatch_spreadOver hplain,patchedBy]
    cases batch.get? userId <;> rfl
  · rw [if_neg heq,if_neg heq,patchedBy]

/-- What was handed over and what is dirty make of a participant what the marks make of it one by
one; and no batch has reports in it. -/
structure RoomDirty.Coalesced (dirty : RoomDirty) : Prop where
  agrees : (∀ mark ∈ dirty.marked, mark.2.Plain) → ∀ userId p,
    (dirty.handed ++ [dirty.presence]).foldl (fun p batch => patchedBy userId batch p) p =
      (dirty.marked.map batchOf).foldl (fun p batch => patchedBy userId batch p) p
  silent : ∀ batch ∈ dirty.handed ++ [dirty.presence], ∀ userId patch,
    batch.get? userId = some patch → patch.localPlaybackReports = none

namespace RoomDirty.Coalesced

variable {nowMs : ℕ} {dirty : RoomDirty}

theorem fresh : RoomDirty.Coalesced {} where
  agrees _ userId p := rfl
  silent batch hbatch userId patch hpatch := by
    simp only [List.nil_append,List.mem_singleton] at hbatch
    simp [hbatch] at hpatch

theorem markPresenceDirty (h : dirty.Coalesced) (userId : UserId) (patch : DirtyPatch) :
    (dirty.markPresenceDirty nowMs userId patch).Coalesced where
  agrees hplain other p := by
    have hold := h.agrees (fun mark hmark => hplain mark (List.mem_append_left _ hmark)) other p
    have hnew : patch.Plain := hplain (userId,patch) (by simp [RoomDirty.markPresenceDirty])
    show (dirty.handed ++ [mergePresenceDirty dirty.presence userId patch]).foldl _ p =
      ((dirty.marked ++ [(userId,patch)]).map batchOf).foldl _ p
    rw [List.foldl_append] at hold
    rw [List.map_append,List.foldl_append,List.foldl_append,← hold]
    exact patchedBy_mergePresenceDirty hnew dirty.presence other userId _
  silent batch hbatch other found hfound := by
    rcases List.mem_append.mp hbatch with hhanded | hdirty
    · exact h.silent batch (List.mem_append_left _ hhanded) other found hfound
    · rw [List.mem_singleton.mp hdirty] at hfound
      change (mergePresenceDirty dirty.presence userId patch).get? other = some found at hfound
      rw [mergePresenceDirty,Record.get?_set] at hfound
      split at hfound
      · cases hfound
        rfl
      · exact h.silent dirty.presence (by simp) other found hfound

theorem firePresence (h : dirty.Coalesced) : dirty.firePresence.Coalesced := by
  unfold RoomDirty.firePresence RoomDirty.flushPresence
  by_cases hsize : dirty.presence.size = 0
  · rw [if_pos hsize]
    exact ⟨h.agrees,h.silent⟩
  · rw [if_neg hsize]
    constructor
    · intro hplain userId p
      rw [List.foldl_append]
      exact h.agrees hplain userId p
    · intro batch hbatch userId patch hpatch
      rcases List.mem_append.mp hbatch with hhanded | hempty
      · exact h.silent batch hhanded userId patch hpatch
      · rw [List.mem_singleton.mp hempty] at hpatch
        cases hpatch

theorem fire (h : dirty.Coalesced) (timer : BusTimer) : (dirty.fire timer).Coalesced := by
  cases timer with
  | presence => exact h.firePresence
  | snapshot => exact ⟨h.agrees,h.silent⟩
  | actionLog =>
    show (RoomDirty.fireActionLog dirty).Coalesced
    unfold RoomDirty.fireActionLog
    split <;> exact ⟨h.agrees,h.silent⟩

end RoomDirty.Coalesced

end Coalescing

section Run

variable {s s' : BusState}

structure BusInvariant (s : BusState) : Prop where
  timely : ∀ roomId dirty, s.rooms roomId = some dirty → dirty.Timely s.nowMs
  coalesced : ∀ roomId dirty, s.rooms roomId = some dirty → dirty.Coalesced

namespace BusInvariant

theorem setRoom (h : BusInvariant s) {roomId : String} {room : Option RoomDirty}
    (hroom : ∀ dirty, room = some dirty → dirty.Timely s.nowMs ∧ dirty.Coalesced) :
    BusInvariant (s.setRoom roomId room) := by
  have hall : ∀ other dirty, (s.setRoom roomId room).rooms other = some dirty →
      dirty.Timely s.nowMs ∧ dirty.Coalesced := by
    intro other dirty hdirty
    by_cases heq : other = roomId
    · subst heq
      exact hroom dirty (by simpa [BusState.setRoom] using hdirty)
    · have hold : s.rooms other = some dirty := by simpa [BusState.setRoom,heq] using hdirty
      exact ⟨h.timely other dirty hold,h.coalesced other dirty hold⟩
  exact ⟨fun other dirty hdirty => (hall other dirty hdirty).1,
    fun other dirty hdirty => (hall other dirty hdirty).2⟩

theorem ensure (h : BusInvariant s) (roomId : String) :
    (s.ensure roomId).Timely s.nowMs ∧ (s.ensure roomId).Coalesced := by
  unfold BusState.ensure
  cases hroom : s.rooms roomId with
  | none => exact ⟨.fresh,.fresh⟩
  | some dirty => exact ⟨h.timely roomId dirty hroom,h.coalesced roomId dirty hroom⟩

theorem step (h : BusInvariant s) {a : BusAction} (hs : busStep s a = some s') :
    BusInvariant s' := by
  cases a with
  | tick ms =>
    cases hs
    exact ⟨fun roomId dirty hroom => (h.timely roomId dirty hroom).later (Nat.le_add_right _ _),
      h.coalesced⟩
  | markPresence roomId userId patch =>
    cases hs
    obtain ⟨htimely,hcoalesced⟩ := h.ensure roomId
    refine h.setRoom fun dirty hdirty => ?_
    cases hdirty
    exact ⟨htimely.markPresenceDirty userId patch,hcoalesced.markPresenceDirty userId patch⟩
  | markSnapshot roomId =>
    cases hs
    obtain ⟨htimely,hcoalesced⟩ := h.ensure roomId
    refine h.setRoom fun dirty hdirty => ?_
    cases hdirty
    exact ⟨htimely.markSnapshotDirty,hcoalesced.agrees,hcoalesced.silent⟩
  | markActionLog roomId =>
    cases hs
    obtain ⟨htimely,hcoalesced⟩ := h.ensure roomId
    refine h.setRoom fun dirty hdirty => ?_
    cases hdirty
    exact ⟨htimely.markActionLogDirty,hcoalesced.agrees,hcoalesced.silent⟩
  | fire roomId timer =>
    obtain ⟨dirty,hroom,hs⟩ := Option.bind_eq_some_iff.mp hs
    obtain ⟨-,hs⟩ := Option.ite_none_right_eq_some.mp hs
    cases hs
    refine h.setRoom fun fired hfired => ?_
    cases hfired
    exact ⟨(h.timely roomId dirty hroom).fire timer,(h.coalesced roomId dirty hroom).fire timer⟩
  | clearRoom roomId =>
    cases hs
    exact h.setRoom fun dirty hdirty => by cases hdirty

theorem of_reachable (h : busSystem.Reachable s) : BusInvariant s := by
  refine h.invariant BusInvariant ?_ fun s a s' _ hs hstep => hs.step hstep
  intro s hs
  cases hs
  constructor <;> intro roomId dirty hroom <;> cases hroom

end BusInvariant

theorem applyPresenceBatches_of_ascending {received : List PresenceBatchPayload}
    {client : ClientRoomState}
    (hascending : received.Pairwise fun a b => a.presenceRevision < b.presenceRevision)
    (habove : ∀ batch ∈ received, presenceWatermark client < batch.presenceRevision) :
    applyPresenceBatches (some client) received = some (received.foldl takeBatch client) := by
  rw [applyPresenceBatches_eq,arrivedInTime,ascents_eq_self hascending habove]

theorem takeBatches_participants (received : List PresenceBatchPayload)
    (client : ClientRoomState) :
    (received.foldl takeBatch client).participants =
      (received.map (·.participants)).foldl mergeParticipantPresence client.participants := by
  induction received generalizing client with
  | nil => rfl
  | cons batch received ih => exact ih (takeBatch client batch)

/-- The broadcast bus over every run: what is dirty has its timer set, for no later than the delay
of any mark; no batch carries a report; and a client that gets the batches in the order of their
numbers comes to the roster that broadcasting each mark alone would give. -/
theorem broadcast_coalescing (h : busSystem.Reachable s) {roomId : String} {dirty : RoomDirty}
    (hroom : s.rooms roomId = some dirty) :
    (∀ timer, (dirty.dirtied timer = true → ∃ d, (dirty.timer timer).deadline = some d ∧
        d ≤ s.nowMs+timer.delayMs) ∧
      ∀ moment ∈ (dirty.timer timer).waiting, ∃ d, (dirty.timer timer).deadline = some d ∧
        d ≤ moment+timer.delayMs) ∧
    (∀ batch ∈ dirty.handed, ∀ userId patch, batch.get? userId = some patch →
      patch.localPlaybackReports = none) ∧
    ((∀ mark ∈ dirty.marked, mark.2.Plain) →
      ∀ (client : ClientRoomState) (received : List PresenceBatchPayload),
      received.map (·.participants) = dirty.handed.map (·.mapValues DirtyPatch.wire) →
      (received.Pairwise fun a b => a.presenceRevision < b.presenceRevision) →
      (∀ batch ∈ received, presenceWatermark client < batch.presenceRevision) →
      ∃ client', applyPresenceBatches (some client) received = some client' ∧ ∀ userId,
        (mergeParticipantPresence client'.participants
          (dirty.presence.mapValues DirtyPatch.wire)).get? userId =
        (mergedBatches client.participants (dirty.marked.map batchOf)).get? userId) := by
  have hinv := BusInvariant.of_reachable h
  have htimely := hinv.timely roomId dirty hroom
  have hcoalesced := hinv.coalesced roomId dirty hroom
  refine ⟨fun timer => ⟨htimely.deadline,(htimely.timer timer).waits⟩,?_,?_⟩
  · intro batch hbatch
    exact hcoalesced.silent batch (List.mem_append_left _ hbatch)
  · intro hplain client received hreceived hascending habove
    refine ⟨_,applyPresenceBatches_of_ascending hascending habove,fun userId => ?_⟩
    have hroster : mergeParticipantPresence (received.foldl takeBatch client).participants
        (dirty.presence.mapValues DirtyPatch.wire) =
        mergedBatches client.participants (dirty.handed ++ [dirty.presence]) := by
      rw [takeBatches_participants,hreceived,mergedBatches,List.foldl_append,List.foldl_map]
      rfl
    rw [hroster,mergedBatches_get?,mergedBatches_get?]
    congr 1
    funext p
    exact hcoalesced.agrees hplain userId p

/-- Ann joins and reports her playhead within one interval; Bob is marked after the flush. -/
def annThenBob : List BusAction :=
  let joined : DirtyPatch := { connected := some (some true), lastSeenAt := some (some 40) }
  let report : ParticipantLocalPlayback :=
    { paused := false, currentTimeMs := 7, loading := false, updatedAt := 140 }
  [.markPresence "film" "ann" joined,.tick 100,
    .markPresence "film" "ann"
      { lastSeenAt := some (some 140), localPlayback := some (some report) },
    .tick 160,.fire "film" .presence,.tick 30,.markPresence "film" "bob" joined]

theorem broadcast_coalescing_of_two_users : ∃ s dirty state, busSystem.Reachable s ∧
    s.rooms "film" = some dirty ∧ Stored scenarioEnv state ∧ dirty.handed.length = 1 ∧
    (∃ d, dirty.presenceTimer.deadline = some d ∧ d ≤ s.nowMs+PRESENCE_BATCH_INTERVAL_MS) ∧
    ∃ client', applyPresenceBatches (some (buildSanitizedSnapshot state Record.empty 0))
        (dirty.handed.map fun batch => ⟨1,batch.mapValues DirtyPatch.wire⟩) = some client' ∧
      ∀ userId, (mergeParticipantPresence client'.participants
          (dirty.presence.mapValues DirtyPatch.wire)).get? userId =
        (mergedBatches (buildSanitizedSnapshot state Record.empty 0).participants
          (dirty.marked.map batchOf)).get? userId := by
  obtain ⟨state,hstored,-⟩ := exists_stored_of_runRoom scenarioEnv
    [joinAs "ann" 1000 {"ann"},joinAs "bob" 2000 {"ann","bob"}] (fun _ => True) (by decide +kernel)
  have hrun : ((TransitionSystem.runSteps busStep {} annThenBob).any fun s =>
      (s.rooms "film").any fun dirty => decide (dirty.handed.length = 1 ∧
        dirty.dirtied .presence = true ∧ ∀ mark ∈ dirty.marked, mark.2.Plain)) = true := by
    decide +kernel
  obtain ⟨s,hs,hdirty⟩ := (Option.any_eq_true _ _).mp hrun
  obtain ⟨dirty,hroom,hfacts⟩ := (Option.any_eq_true _ _).mp hdirty
  obtain ⟨hlength,hdirtied,hplain⟩ := of_decide_eq_true hfacts
  have hreach : busSystem.Reachable s := .of_runSteps (fun _ _ _ h => h) _ (.init rfl) hs
  obtain ⟨htimers,-,hroster⟩ := broadcast_coalescing hreach hroom
  refine ⟨s,dirty,state,hreach,hroom,hstored,hlength,(htimers .presence).1 hdirtied,?_⟩
  obtain ⟨batch,hbatch⟩ := List.length_eq_one_iff.mp hlength
  exact hroster hplain _ _ (by simp [hbatch]) (by simp [hbatch]) (by simp [hbatch]; rfl)

end Run

end WebSyncPlay
