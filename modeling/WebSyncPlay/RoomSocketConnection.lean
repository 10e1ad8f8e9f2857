import WebSyncPlay.Library.Lists
import WebSyncPlay.Library.TransitionSystem

/-! The life of a client connection (`client/realtime/room-socket/room-socket-connection.ts` and
the admission part of `room-socket-dispatcher.ts`): its sockets, its timers, and who may start
another socket. -/
namespace WebSyncPlay

open Library
open TransitionSystem

section Parts

inductive ReadyState
  | connecting | opened | closing | closed
  deriving DecidableEq

namespace ReadyState

/-- Neither closing nor closed. -/
def isLive : ReadyState → Bool
  | .connecting => true
  | .opened => true
  | .closing => false
  | .closed => false

/-- The close event is still to come. -/
def isUnclosed : ReadyState → Bool
  | .closed => false
  | _ => true

theorem isUnclosed_of_isLive {s : ReadyState} (h : s.isLive = true) : s.isUnclosed = true := by
  cases s <;> simp_all [isLive,isUnclosed]

end ReadyState

inductive JoinRejectedReason
  | password_required | invalid_password | rate_limited | media_url_unsupported
  | identity_mismatch | connection_closed
  deriving DecidableEq

def shouldPauseAutoReconnect : Option JoinRejectedReason → Bool
  | some .password_required => true
  | some .invalid_password => true
  | some .rate_limited => true
  | some .identity_mismatch => true
  | some .media_url_unsupported => true
  | none => true
  | some .connection_closed => false

def isTerminalJoinRejection (reason : Option JoinRejectedReason) : Bool :=
  reason = some .media_url_unsupported || reason = some .identity_mismatch

def MAX_JOIN_ATTEMPTS : ℕ := 3

/-- What the callback of a timer does; `i` is the socket of the closure that set it. -/
inductive TimerTask
  | reconnect
  | rateLimitedReconnect
  | sendJoin (i : ℕ)
  | stateTimeout (i : ℕ)
  deriving DecidableEq

/-- The timers that `reconnectTimer` holds: both connect when they fire. -/
def TimerTask.reconnects : TimerTask → Bool
  | .reconnect => true
  | .rateLimitedReconnect => true
  | .sendJoin _ => false
  | .stateTimeout _ => false

/-- A socket with the variables that its part of `connect` closes over. -/
structure ClientSocket where
  readyState : ReadyState
  joinRetryTimer : Option ℕ
  joinAttempts : ℕ
  deriving DecidableEq

/-- The variables of a controller, the refs it writes, the timers of the window that it set, the
sockets it created and the `fetchWsInit` calls it waits for. -/
structure RoomConnection where
  cancelled : Bool
  disposed : Bool
  pauseAutoReconnect : Bool
  reconnectTimer : Option ℕ
  stateTimeoutRef : Option ℕ
  wsRef : Option ℕ
  sendJoinRef : Option ℕ
  hasReceivedState : Bool
  sockets : List ClientSocket
  timers : List (ℕ × TimerTask)
  nextTimer : ℕ
  fetches : ℕ
  deriving DecidableEq

def createRoomSocketConnection : RoomConnection where
  cancelled := false
  disposed := false
  pauseAutoReconnect := false
  reconnectTimer := none
  stateTimeoutRef := none
  wsRef := none
  sendJoinRef := none
  hasReceivedState := false
  sockets := []
  timers := []
  nextTimer := 0
  fetches := 0

/-- The server messages that the life of the connection depends on. -/
inductive AdmissionMessage
  | snapshot
  | control
  | admissionChanged (joinPasswordEnabled : Bool)
  | joinRejected (reason : Option JoinRejectedReason)
  | other

inductive ConnectionEvent
  | connect
  | initDone (ok : Bool)
  | opened (i : ℕ)
  | message (i : ℕ) (m : AdmissionMessage)
  | error (i : ℕ)
  | closing (i : ℕ)
  | closed (i : ℕ)
  | timer (id : ℕ)
  | submitPassword
  | reminted
  | dispose

end Parts

namespace RoomConnection

section Code

def readyStates (c : RoomConnection) : List ReadyState := c.sockets.map ClientSocket.readyState

def modifySocket (c : RoomConnection) (i : ℕ) (f : ClientSocket → ClientSocket) :
    RoomConnection :=
  { c with sockets := c.sockets.modify i f }

def setReadyState (c : RoomConnection) (i : ℕ) (s : ReadyState) : RoomConnection :=
  c.modifySocket i fun ws => { ws with readyState := s }

/-- `WebSocket.close`: nothing happens on a socket that is closing or closed. -/
def close (c : RoomConnection) (i : ℕ) : RoomConnection :=
  if c.readyStates[i]?.any ReadyState.isLive then c.setReadyState i .closing else c

/-- `options.wsRef.current?.close()`. -/
def closeCurrent (c : RoomConnection) : RoomConnection :=
  match c.wsRef with
  | some i => c.close i
  | none => c

def clearTimeout (c : RoomConnection) (id : Option ℕ) : RoomConnection :=
  { c with timers := c.timers.filter fun t => decide (some t.1 ≠ id) }

/-- The new timer's id is the old `nextTimer`. -/
def setTimeout (c : RoomConnection) (task : TimerTask) : RoomConnection :=
  { c with
    timers := c.timers ++ [(c.nextTimer,task)]
    nextTimer := c.nextTimer + 1 }

def clearStateTimeout (c : RoomConnection) : RoomConnection :=
  { c.clearTimeout c.stateTimeoutRef with stateTimeoutRef := none }

def scheduleStateTimeout (c : RoomConnection) (i : ℕ) : RoomConnection :=
  { c.clearStateTimeout.setTimeout (.stateTimeout i) with stateTimeoutRef := some c.nextTimer }

/-- The timer whose id is in the ref; an id that was written over before is not known here. -/
def clearReconnectTimers (c : RoomConnection) : RoomConnection :=
  { c.clearTimeout c.reconnectTimer with reconnectTimer := none }

def scheduleReconnect (c : RoomConnection) (task : TimerTask) : RoomConnection :=
  { c.setTimeout task with reconnectTimer := some c.nextTimer }

def joinRetryTimer (c : RoomConnection) (i : ℕ) : Option ℕ :=
  c.sockets[i]?.bind ClientSocket.joinRetryTimer

def clearJoinRetry (c : RoomConnection) (i : ℕ) : RoomConnection :=
  (c.clearTimeout (c.joinRetryTimer i)).modifySocket i fun ws => { ws with joinRetryTimer := none }

/-- The part of `connect` before it waits for `fetchWsInit`. The ref of the state timeout keeps
its id. -/
def connect (c : RoomConnection) : RoomConnection :=
  { c.clearTimeout c.stateTimeoutRef with
    pauseAutoReconnect := false
    hasReceivedState := false
    fetches := c.fetches + 1 }

/-- A call of `fetchWsInit` is answered. -/
def fetched (c : RoomConnection) : RoomConnection := { c with fetches := c.fetches - 1 }

/-- The part of `connect` after `fetchWsInit`. -/
def initDone (c : RoomConnection) (ok : Bool) : RoomConnection :=
  if c.cancelled then c
  else if ok then
    { c with
      sockets := c.sockets ++
        [{ readyState := .connecting, joinRetryTimer := none, joinAttempts := 0 }]
      wsRef := some c.sockets.length
      sendJoinRef := some c.sockets.length }
  else c.scheduleReconnect .reconnect

/-- The part of `sendJoin` that sends `room:join`. -/
def sendJoinEnvelope (c : RoomConnection) (i : ℕ) : RoomConnection :=
  let c := (c.modifySocket i fun ws => { ws with joinAttempts := ws.joinAttempts + 1 })
    |>.scheduleStateTimeout i
  if c.sockets[i]?.any (fun ws => decide (ws.joinAttempts < MAX_JOIN_ATTEMPTS)) then
    (c.setTimeout (.sendJoin i)).modifySocket i
      fun ws => { ws with joinRetryTimer := some c.nextTimer }
  else c

/-- `sendJoin` in the closure of socket `i`. -/
def sendJoin (c : RoomConnection) (i : ℕ) : RoomConnection :=
  if c.cancelled then c
  else if c.readyStates[i]? ≠ some .opened then c.connect
  else if c.hasReceivedState then c
  else c.sendJoinEnvelope i

def handleSnapshot (c : RoomConnection) : RoomConnection :=
  { c with hasReceivedState := true, pauseAutoReconnect := false }.clearStateTimeout

def handleControl (c : RoomConnection) : RoomConnection :=
  if c.hasReceivedState then { c with pauseAutoReconnect := false }.clearStateTimeout else c

def handleAdmissionChanged (c : RoomConnection) (i : ℕ) (joinPasswordEnabled : Bool) :
    RoomConnection :=
  let c := { (c.clearJoinRetry i).clearStateTimeout with hasReceivedState := false }
  if joinPasswordEnabled then { c.clearReconnectTimers with pauseAutoReconnect := true } else c

def handleJoinRejected (c : RoomConnection) (i : ℕ) (reason : Option JoinRejectedReason) :
    RoomConnection :=
  let c := (c.clearJoinRetry i).clearStateTimeout
  if shouldPauseAutoReconnect reason then
    let c := { c.clearReconnectTimers with pauseAutoReconnect := true }
    if isTerminalJoinRejection reason then { c with cancelled := true }.closeCurrent
    else if reason = some .rate_limited then
      if c.closeCurrent.cancelled then c.closeCurrent
      else c.closeCurrent.scheduleReconnect .rateLimitedReconnect
    else c
  else c

def dispatchRoomSocketEnvelope (c : RoomConnection) (i : ℕ) : AdmissionMessage → RoomConnection
  | .snapshot => c.handleSnapshot
  | .control => c.handleControl
  | .admissionChanged joinPasswordEnabled => c.handleAdmissionChanged i joinPasswordEnabled
  | .joinRejected reason => c.handleJoinRejected i reason
  | .other => c

def onclose (c : RoomConnection) (i : ℕ) : RoomConnection :=
  let c := (c.clearTimeout (c.joinRetryTimer i)).clearStateTimeout
  if c.cancelled || c.pauseAutoReconnect then c else c.scheduleReconnect .reconnect

def onStateTimeout (c : RoomConnection) (i : ℕ) : RoomConnection :=
  if c.cancelled then c
  else if c.readyStates[i]? = some .opened ∧ c.hasReceivedState = false then c.close i
  else c

def dispose (c : RoomConnection) : RoomConnection :=
  let c := { c with
    cancelled := true
    pauseAutoReconnect := false
    hasReceivedState := false
    sendJoinRef := none }
  { c.clearReconnectTimers.clearStateTimeout.closeCurrent with disposed := true }

def runTimer (c : RoomConnection) : TimerTask → RoomConnection
  | .reconnect => c.connect
  | .rateLimitedReconnect => { c with pauseAutoReconnect := false }.connect
  | .sendJoin i => c.sendJoin i
  | .stateTimeout i => c.onStateTimeout i

def submitJoinPassword (c : RoomConnection) : RoomConnection :=
  match c.sendJoinRef with
  | some i => c.sendJoin i
  | none => c

def onMinted (c : RoomConnection) : RoomConnection :=
  if c.cancelled then c else c.closeCurrent

def task? (c : RoomConnection) (id : ℕ) : Option TimerTask :=
  (c.timers.find? fun t => decide (t.1 = id)).map Prod.snd

/-- One event. A message arrives at an open socket only; a socket closes once. -/
def step (c : RoomConnection) : ConnectionEvent → Option RoomConnection
  | .connect => some c.connect
  | .initDone ok =>
    if c.fetches = 0 then none else some (c.fetched.initDone ok)
  | .opened i =>
    if c.readyStates[i]? = some .connecting then some ((c.setReadyState i .opened).sendJoin i)
    else none
  | .message i m =>
    if c.readyStates[i]? = some .opened then some (c.dispatchRoomSocketEnvelope i m) else none
  | .error i => if c.readyStates[i]?.any ReadyState.isUnclosed then some (c.close i) else none
  | .closing i =>
    if c.readyStates[i]? = some .opened then some (c.setReadyState i .closing) else none
  | .closed i =>
    if c.readyStates[i]?.any ReadyState.isUnclosed then
      some ((c.setReadyState i .closed).onclose i)
    else none
  | .timer id => (c.task? id).map fun task => (c.clearTimeout (some id)).runTimer task
  | .submitPassword => some c.submitJoinPassword
  | .reminted => some c.onMinted
  | .dispose => some c.dispose

end Code

section Counts

/-- Socket `i` is neither closing nor closed. -/
def IsLive (c : RoomConnection) (i : ℕ) : Prop := c.readyStates[i]?.any ReadyState.isLive = true

def liveSockets (c : RoomConnection) : ℕ := c.readyStates.countP ReadyState.isLive

def unclosedSockets (c : RoomConnection) : ℕ := c.readyStates.countP ReadyState.isUnclosed

def pendingReconnects (c : RoomConnection) : List (ℕ × TimerTask) :=
  c.timers.filter fun t => t.2.reconnects

theorem liveSockets_le_unclosedSockets (c : RoomConnection) :
    c.liveSockets ≤ c.unclosedSockets :=
  List.countP_mono_left fun _ _ h => ReadyState.isUnclosed_of_isLive h

theorem liveSockets_eq_zero_iff (c : RoomConnection) :
    c.liveSockets = 0 ↔ ∀ i, ¬ c.IsLive i := by
  unfold liveSockets IsLive
  rw [List.countP_eq_zero]
  constructor
  · intro h i hi
    obtain ⟨s,hs,hlive⟩ := (Option.any_eq_true _ _).mp hi
    exact h s (List.mem_of_getElem? hs) hlive
  · intro h s hs hlive
    obtain ⟨i,hi⟩ := List.mem_iff_getElem?.mp hs
    exact h i (by rw [hi]; exact hlive)

theorem IsLive.unclosed_pos {c : RoomConnection} {i : ℕ} (h : c.IsLive i) :
    0 < c.unclosedSockets := by
  obtain ⟨s,hs,hlive⟩ := (Option.any_eq_true _ _).mp h
  exact List.countP_pos_iff.mpr
    ⟨s,List.mem_of_getElem? hs,ReadyState.isUnclosed_of_isLive hlive⟩

theorem readyStates_modifySocket (c : RoomConnection) (i : ℕ) {f : ClientSocket → ClientSocket}
    (hf : ∀ ws, (f ws).readyState = ws.readyState) :
    (c.modifySocket i f).readyStates = c.readyStates := by
  apply List.ext_getElem?
  intro j
  unfold readyStates modifySocket
  simp only [List.getElem?_map,List.getElem?_modify]
  by_cases hij : i = j
  · subst hij
    cases c.sockets[i]? <;> simp [hf]
  · simp [hij]

theorem readyStates_setReadyState (c : RoomConnection) (i : ℕ) (s : ReadyState) :
    (c.setReadyState i s).readyStates = c.readyStates.set i s := by
  apply List.ext_getElem?
  intro j
  unfold readyStates setReadyState modifySocket
  simp only [List.getElem?_map,List.getElem?_modify,List.getElem?_set,List.length_map]
  by_cases hij : i = j
  · subst hij
    by_cases hlt : i < c.sockets.length
    · simp [hlt]
    · simp [hlt]
  · simp [hij]

theorem isLive_setReadyState (c : RoomConnection) (i : ℕ) {s : ReadyState} {j : ℕ}
    (h : (c.setReadyState i s).IsLive j) : j ≠ i ∧ c.IsLive j ∨ j = i ∧ s.isLive = true := by
  unfold IsLive at h ⊢
  rw [readyStates_setReadyState,List.getElem?_set] at h
  by_cases hij : i = j
  · subst hij
    rw [if_pos rfl] at h
    split at h
    · exact Or.inr ⟨rfl,h⟩
    · simp at h
  · rw [if_neg hij] at h
    exact Or.inl ⟨fun hji => hij hji.symm,h⟩

end Counts

section Calms

/-- From `c` to `c'` nothing new begins: sockets only close, the timers that connect are only
cleared, and whether the close event reconnects changes only while a socket is live. -/
structure Calms (c c' : RoomConnection) : Prop where
  cancelled : c'.cancelled = c.cancelled
  disposed : c'.disposed = c.disposed
  wsRef : c'.wsRef = c.wsRef
  fetches : c'.fetches = c.fetches
  pause : c'.pauseAutoReconnect = c.pauseAutoReconnect ∨ ∃ i, c.IsLive i
  pending : c'.pendingReconnects.Sublist c.pendingReconnects
  live : ∀ i, c'.IsLive i → c.IsLive i
  unclosed : c'.unclosedSockets ≤ c.unclosedSockets

theorem Calms.refl (c : RoomConnection) : Calms c c where
  cancelled := rfl
  disposed := rfl
  wsRef := rfl
  fetches := rfl
  pause := .inl rfl
  pending := .refl _
  live := fun _ h => h
  unclosed := le_refl _

theorem Calms.trans {c d e : RoomConnection} (h : Calms c d) (h' : Calms d e) : Calms c e where
  cancelled := h'.cancelled.trans h.cancelled
  disposed := h'.disposed.trans h.disposed
  wsRef := h'.wsRef.trans h.wsRef
  fetches := h'.fetches.trans h.fetches
  pause := by
    rcases h'.pause with hp' | ⟨i,hi⟩
    · rcases h.pause with hp | hlive
      · exact Or.inl (hp'.trans hp)
      · exact Or.inr hlive
    · exact Or.inr ⟨i,h.live i hi⟩
  pending := h'.pending.trans h.pending
  live := fun i hi => h.live i (h'.live i hi)
  unclosed := h'.unclosed.trans h.unclosed

theorem clearTimeout_calms (c : RoomConnection) (id : Option ℕ) : Calms c (c.clearTimeout id) :=
  { Calms.refl c with pending := List.filter_sublist.filter _ }

theorem setTimeout_calms (c : RoomConnection) {task : TimerTask} (h : task.reconnects = false) :
    Calms c (c.setTimeout task) := by
  have hpending : (c.setTimeout task).pendingReconnects = c.pendingReconnects := by
    simp [pendingReconnects,setTimeout,h]
  exact { Calms.refl c with pending := by rw [hpending] }

theorem modifySocket_calms (c : RoomConnection) (i : ℕ) {f : ClientSocket → ClientSocket}
    (hf : ∀ ws, (f ws).readyState = ws.readyState) : Calms c (c.modifySocket i f) := by
  have hstates := readyStates_modifySocket c i hf
  exact { Calms.refl c with
    live := fun j hj => by rwa [IsLive,hstates] at hj
    unclosed := by rw [unclosedSockets,hstates]; rfl }

theorem setReadyState_calms (c : RoomConnection) {i : ℕ} {s old : ReadyState}
    (hi : c.readyStates[i]? = some old) (hlive : s.isLive = true → old.isLive = true)
    (hunclosed : s.isUnclosed = true → old.isUnclosed = true) : Calms c (c.setReadyState i s) := by
  have hstates := readyStates_setReadyState c i s
  have hle := countP_set_le hi hunclosed
  exact { Calms.refl c with
    live := by
      intro j hj
      rcases isLive_setReadyState c i hj with ⟨_,hj⟩ | ⟨rfl,hs⟩
      · exact hj
      · rw [IsLive,hi]
        exact hlive hs
    unclosed := by rwa [unclosedSockets,hstates] }

theorem close_calms (c : RoomConnection) (i : ℕ) : Calms c (c.close i) := by
  unfold close
  split
  · rename_i h
    obtain ⟨s,hs,hlive⟩ := (Option.any_eq_true _ _).mp h
    exact setReadyState_calms c hs (by simp [ReadyState.isLive])
      fun _ => ReadyState.isUnclosed_of_isLive hlive
  · exact .refl c

theorem closeCurrent_calms (c : RoomConnection) : Calms c c.closeCurrent := by
  unfold closeCurrent
  split
  · exact close_calms c _
  · exact .refl c

theorem closeCurrent_pause (c : RoomConnection) :
    c.closeCurrent.pauseAutoReconnect = c.pauseAutoReconnect := by
  unfold closeCurrent close
  split
  · split <;> rfl
  · rfl

theorem clearStateTimeout_calms (c : RoomConnection) : Calms c c.clearStateTimeout :=
  { clearTimeout_calms c c.stateTimeoutRef with }

theorem clearReconnectTimers_calms (c : RoomConnection) : Calms c c.clearReconnectTimers :=
  { clearTimeout_calms c c.reconnectTimer with }

theorem scheduleStateTimeout_calms (c : RoomConnection) (i : ℕ) :
    Calms c (c.scheduleStateTimeout i) := by
  have hset : Calms c (c.clearStateTimeout.setTimeout (.stateTimeout i)) :=
    (clearStateTimeout_calms c).trans (setTimeout_calms _ rfl)
  exact { hset with }

theorem clearJoinRetry_calms (c : RoomConnection) (i : ℕ) : Calms c (c.clearJoinRetry i) :=
  (clearTimeout_calms c _).trans (modifySocket_calms _ i fun _ => rfl)

theorem setPause_calms (c : RoomConnection) {i : ℕ} (h : c.IsLive i) (pause : Bool) :
    Calms c { c with pauseAutoReconnect := pause } :=
  { Calms.refl c with pause := .inr ⟨i,h⟩ }

theorem sendJoinEnvelope_calms (c : RoomConnection) (i : ℕ) : Calms c (c.sendJoinEnvelope i) := by
  have hsent : Calms c
      ((c.modifySocket i fun ws => { ws with joinAttempts := ws.joinAttempts + 1 })
        |>.scheduleStateTimeout i) := by
    refine .trans ?_ (scheduleStateTimeout_calms _ i)
    exact modifySocket_calms c i fun _ => rfl
  unfold sendJoinEnvelope
  dsimp only
  split
  · exact (hsent.trans (setTimeout_calms _ rfl)).trans (modifySocket_calms _ i fun _ => rfl)
  · exact hsent

theorem onStateTimeout_calms (c : RoomConnection) (i : ℕ) : Calms c (c.onStateTimeout i) := by
  unfold onStateTimeout
  split
  · exact .refl c
  · split
    · exact close_calms c i
    · exact .refl c

theorem onMinted_calms (c : RoomConnection) : Calms c c.onMinted := by
  unfold onMinted
  split
  · exact .refl c
  · exact closeCurrent_calms c

end Calms

section OneSocket

/-- Nothing is left of an attempt to connect: no call of `fetchWsInit`, no timer that connects, no
socket whose close event is to come. -/
def Idle (c : RoomConnection) : Prop :=
  c.fetches = 0 ∧ c.pendingReconnects = [] ∧ c.unclosedSockets = 0

instance (c : RoomConnection) : Decidable c.Idle :=
  inferInstanceAs (Decidable (_ ∧ _ ∧ _))

/-- At most one attempt to connect is under way. -/
def Exclusive (c : RoomConnection) : Prop :=
  c.fetches + c.pendingReconnects.length + c.unclosedSockets ≤ 1

/-- After `rate_limited`: the timer of the next attempt is already set while the last socket is
still closing. -/
structure CoolingDown (c : RoomConnection) : Prop where
  pause : c.pauseAutoReconnect = true
  fetches : c.fetches = 0
  pending : c.pendingReconnects.length ≤ 1
  cooldown : ∀ t ∈ c.pendingReconnects, t.2 = .rateLimitedReconnect
  unclosed : c.unclosedSockets ≤ 1
  live : ∀ i, ¬ c.IsLive i

structure ConnectionInv (c : RoomConnection) : Prop where
  attempt : c.cancelled = false → c.Exclusive ∨ c.CoolingDown
  current : ∀ i, c.IsLive i → c.wsRef = some i
  ended : c.cancelled = true → ∀ i, ¬ c.IsLive i
  disposed : c.disposed = true → c.cancelled = true

theorem connectionInv_init : ConnectionInv createRoomSocketConnection where
  attempt := fun _ => .inl (by simp [Exclusive,createRoomSocketConnection,pendingReconnects,
    unclosedSockets,readyStates])
  current := fun i hi => by simp [IsLive,readyStates,createRoomSocketConnection] at hi
  ended := fun h => by cases h
  disposed := fun h => by cases h

theorem Exclusive.calms {c c' : RoomConnection} (h : c.Exclusive) (hc : Calms c c') :
    c'.Exclusive := by
  have hle := hc.pending.length_le
  have hun := hc.unclosed
  have hf := hc.fetches
  unfold Exclusive at *
  omega

theorem ConnectionInv.calms {c c' : RoomConnection} (h : ConnectionInv c) (hc : Calms c c') :
    ConnectionInv c' where
  attempt := by
    intro hcan
    rw [hc.cancelled] at hcan
    rcases h.attempt hcan with hex | hcool
    · exact Or.inl (hex.calms hc)
    · refine Or.inr ⟨?_,?_,?_,?_,?_,?_⟩
      · rcases hc.pause with hp | ⟨i,hi⟩
        · rw [hp]
          exact hcool.pause
        · exact absurd hi (hcool.live i)
      · rw [hc.fetches]
        exact hcool.fetches
      · exact hc.pending.length_le.trans hcool.pending
      · exact fun t ht => hcool.cooldown t (hc.pending.subset ht)
      · exact hc.unclosed.trans hcool.unclosed
      · exact fun i hi => hcool.live i (hc.live i hi)
  current := fun i hi => by
    rw [hc.wsRef]
    exact h.current i (hc.live i hi)
  ended := fun hcan i hi => h.ended (hc.cancelled ▸ hcan) i (hc.live i hi)
  disposed := fun hd => by
    rw [hc.cancelled]
    exact h.disposed (hc.disposed ▸ hd)

theorem ConnectionInv.of_isLive {c : RoomConnection} (h : ConnectionInv c) {i : ℕ}
    (hi : c.IsLive i) :
    c.cancelled = false ∧ c.wsRef = some i ∧ c.fetches = 0 ∧ c.pendingReconnects = [] ∧
      c.unclosedSockets = 1 := by
  have hcan : c.cancelled = false := by
    cases hcan : c.cancelled with
    | false => rfl
    | true => exact absurd hi (h.ended hcan i)
  have hpos := hi.unclosed_pos
  rcases h.attempt hcan with hex | hcool
  · unfold Exclusive at hex
    refine ⟨hcan,h.current i hi,by omega,?_,by omega⟩
    exact List.length_eq_zero_iff.mp (by omega)
  · exact absurd hi (hcool.live i)

theorem connect_inv {c : RoomConnection} (h : ConnectionInv c)
    (hidle : c.cancelled = false → c.Idle) : ConnectionInv c.connect := by
  have hc := h.calms (clearTimeout_calms c c.stateTimeoutRef)
  refine ⟨?_,hc.current,hc.ended,hc.disposed⟩
  intro hcan
  obtain ⟨hf,hp,hu⟩ := hidle hcan
  have hcalm := clearTimeout_calms c c.stateTimeoutRef
  have hp' : (c.clearTimeout c.stateTimeoutRef).pendingReconnects = [] :=
    List.sublist_nil.mp (hp ▸ hcalm.pending)
  refine Or.inl ?_
  change c.fetches + 1 + (c.clearTimeout c.stateTimeoutRef).pendingReconnects.length +
    c.unclosedSockets ≤ 1
  rw [hf,hp',hu]
  simp

/-- `sendJoin` of the socket would connect. -/
def JoinConnects (c : RoomConnection) (i : ℕ) : Prop :=
  c.cancelled = false ∧ c.readyStates[i]? ≠ some .opened

instance (c : RoomConnection) (i : ℕ) : Decidable (c.JoinConnects i) :=
  inferInstanceAs (Decidable (_ ∧ _))

theorem sendJoin_inv {c : RoomConnection} (h : ConnectionInv c) (i : ℕ)
    (hidle : c.JoinConnects i → c.Idle) : ConnectionInv (c.sendJoin i) := by
  unfold sendJoin
  split
  · exact h
  · rename_i hcan
    split
    · rename_i hopen
      exact connect_inv h fun hfalse => hidle ⟨hfalse,hopen⟩
    · split
      · exact h
      · exact h.calms (sendJoinEnvelope_calms c i)

theorem scheduleReconnect_pending (c : RoomConnection) (task : TimerTask)
    (h : task.reconnects = true) : (c.scheduleReconnect task).pendingReconnects =
      c.pendingReconnects ++ [(c.nextTimer,task)] := by
  simp [pendingReconnects,scheduleReconnect,setTimeout,h]

theorem scheduleReconnect_inv {c : RoomConnection} (h : ConnectionInv c) (hidle : c.Idle) :
    ConnectionInv (c.scheduleReconnect .reconnect) := by
  obtain ⟨hf,hp,hu⟩ := hidle
  have hpending := scheduleReconnect_pending c .reconnect rfl
  refine ⟨fun _ => .inl ?_,h.current,h.ended,h.disposed⟩
  unfold Exclusive
  rw [hpending,hp]
  change c.fetches + 1 + c.unclosedSockets ≤ 1
  omega

theorem Idle.exclusive {c : RoomConnection} (h : c.Idle) : c.Exclusive := by
  obtain ⟨hf,hp,hu⟩ := h
  unfold Exclusive
  rw [hf,hp,hu]
  simp

theorem fetched_idle {c : RoomConnection} (h : ConnectionInv c) (hcan : c.cancelled = false)
    (hf : c.fetches ≠ 0) : c.fetched.Idle := by
  rcases h.attempt hcan with hex | hcool
  · unfold Exclusive at hex
    refine ⟨?_,List.length_eq_zero_iff.mp ?_,?_⟩
    · change c.fetches - 1 = 0
      omega
    · change c.pendingReconnects.length = 0
      omega
    · change c.unclosedSockets = 0
      omega
  · exact absurd hcool.fetches hf

theorem fetched_inv {c : RoomConnection} (h : ConnectionInv c) (hf : c.fetches ≠ 0) :
    ConnectionInv c.fetched :=
  ⟨fun hcan => .inl (fetched_idle h hcan hf).exclusive,h.current,h.ended,h.disposed⟩

theorem initDone_inv {c : RoomConnection} (h : ConnectionInv c)
    (hidle : c.cancelled = false → c.Idle) (ok : Bool) : ConnectionInv (c.initDone ok) := by
  cases hcan : c.cancelled with
  | true =>
    unfold initDone
    rw [if_pos hcan]
    exact h
  | false =>
    obtain ⟨hf,hp,hu⟩ := hidle hcan
    have hnone : ∀ i, ¬ c.IsLive i := fun i hi => by
      have hpos := hi.unclosed_pos
      omega
    cases ok with
    | false =>
      unfold initDone
      rw [if_neg (by simp [hcan])]
      exact scheduleReconnect_inv h (hidle hcan)
    | true =>
      have hstates : (c.initDone true).readyStates = c.readyStates ++ [.connecting] := by
        simp [initDone,hcan,readyStates]
      have hsame : (c.initDone true).cancelled = false ∧ (c.initDone true).disposed = c.disposed ∧
          (c.initDone true).wsRef = some c.readyStates.length ∧
          (c.initDone true).fetches = c.fetches ∧
          (c.initDone true).pendingReconnects = c.pendingReconnects := by
        simp [initDone,hcan,readyStates,pendingReconnects]
      obtain ⟨hcan',hdis,hws,hfetch,hpend⟩ := hsame
      have hunclosed : (c.initDone true).unclosedSockets = c.unclosedSockets + 1 := by
        simp [unclosedSockets,hstates,ReadyState.isUnclosed]
      refine ⟨fun _ => .inl ?_,?_,?_,?_⟩
      · unfold Exclusive
        rw [hfetch,hpend,hunclosed,hf,hp,hu]
        simp
      · intro i hi
        by_cases hlt : i < c.readyStates.length
        · unfold IsLive at hi
          rw [hstates,List.getElem?_append_left hlt] at hi
          exact absurd hi (hnone i)
        · have hbound : i < (c.initDone true).readyStates.length := by
            obtain ⟨s,hs,_⟩ := (Option.any_eq_true _ _).mp hi
            exact (List.getElem?_eq_some_iff.mp hs).1
          rw [hstates,List.length_append,List.length_singleton] at hbound
          rw [hws]
          congr 1
          omega
      · intro hfalse
        rw [hcan'] at hfalse
        cases hfalse
      · intro hd
        rw [hdis] at hd
        rw [h.disposed hd] at hcan
        cases hcan

/-- Closing the current socket leaves no other where only the current one is live. -/
theorem closeCurrent_not_live {c : RoomConnection} (h : ∀ i, c.IsLive i → c.wsRef = some i)
    (i : ℕ) : ¬ c.closeCurrent.IsLive i := by
  intro hi
  have hlive := (closeCurrent_calms c).live i hi
  have hclose : c.closeCurrent = c.setReadyState i .closing := by
    simp only [closeCurrent,h i hlive,close]
    exact if_pos hlive
  rw [hclose] at hi
  rcases isLive_setReadyState c i hi with ⟨hne,_⟩ | ⟨_,hclosing⟩
  · exact hne rfl
  · cases hclosing

theorem connectionInv_of_cancelled {c : RoomConnection} (hcan : c.cancelled = true)
    (hlive : ∀ i, ¬ c.IsLive i) : ConnectionInv c where
  attempt := fun hfalse => by
    rw [hcan] at hfalse
    cases hfalse
  current := fun i hi => absurd hi (hlive i)
  ended := fun _ => hlive
  disposed := fun _ => hcan

theorem dispose_inv {c : RoomConnection} (h : ConnectionInv c) : ConnectionInv c.dispose := by
  let d : RoomConnection := { c with
    cancelled := true
    pauseAutoReconnect := false
    hasReceivedState := false
    sendJoinRef := none }
  have hcalm : Calms d d.clearReconnectTimers.clearStateTimeout :=
    (clearReconnectTimers_calms d).trans (clearStateTimeout_calms _)
  have hcurrent : ∀ i, d.clearReconnectTimers.clearStateTimeout.IsLive i →
      d.clearReconnectTimers.clearStateTimeout.wsRef = some i := by
    intro i hi
    rw [hcalm.wsRef]
    exact h.current i (hcalm.live i hi)
  have hcan : d.clearReconnectTimers.clearStateTimeout.closeCurrent.cancelled = true :=
    (closeCurrent_calms _).cancelled
  exact connectionInv_of_cancelled hcan fun i => closeCurrent_not_live hcurrent i

/-- The socket that closes was all that was under way, unless the reconnect is paused. -/
theorem closed_idle {c : RoomConnection} (h : ConnectionInv c) {i : ℕ}
    (hi : c.readyStates[i]?.any ReadyState.isUnclosed = true) (hcan : c.cancelled = false)
    (hpause : c.pauseAutoReconnect = false) : (c.setReadyState i .closed).Idle := by
  obtain ⟨s,hs,hunclosed⟩ := (Option.any_eq_true _ _).mp hi
  have hcount : (c.setReadyState i .closed).unclosedSockets + 1 = c.unclosedSockets := by
    unfold unclosedSockets
    rw [readyStates_setReadyState]
    exact countP_set_succ hs hunclosed rfl
  rcases h.attempt hcan with hex | hcool
  · unfold Exclusive at hex
    refine ⟨?_,List.length_eq_zero_iff.mp ?_,?_⟩
    · change c.fetches = 0
      omega
    · change c.pendingReconnects.length = 0
      omega
    · omega
  · rw [hcool.pause] at hpause
    cases hpause

theorem Idle.calms {c c' : RoomConnection} (h : c.Idle) (hc : Calms c c') : c'.Idle := by
  obtain ⟨hf,hp,hu⟩ := h
  have hpending := hc.pending
  have hun := hc.unclosed
  rw [hp] at hpending
  exact ⟨hc.fetches.trans hf,List.sublist_nil.mp hpending,by omega⟩

theorem onclose_inv {c : RoomConnection} (h : ConnectionInv c) (i : ℕ)
    (hidle : c.cancelled = false → c.pauseAutoReconnect = false → c.Idle) :
    ConnectionInv (c.onclose i) := by
  have hcalm : Calms c (c.clearTimeout (c.joinRetryTimer i)).clearStateTimeout :=
    (clearTimeout_calms c _).trans (clearStateTimeout_calms _)
  unfold onclose
  dsimp only
  split
  · exact h.calms hcalm
  · rename_i hopen
    have hopen : c.cancelled = false ∧ c.pauseAutoReconnect = false := by
      simpa [clearStateTimeout,clearTimeout] using hopen
    exact scheduleReconnect_inv (h.calms hcalm) ((hidle hopen.1 hopen.2).calms hcalm)

theorem coolDown_inv {c : RoomConnection} (h : ConnectionInv c) (hf : c.fetches = 0)
    (hp : c.pendingReconnects = []) (hu : c.unclosedSockets ≤ 1)
    (hpause : c.pauseAutoReconnect = true) (hlive : ∀ i, ¬ c.IsLive i) :
    ConnectionInv (c.scheduleReconnect .rateLimitedReconnect) := by
  have hpending := scheduleReconnect_pending c .rateLimitedReconnect rfl
  rw [hp,List.nil_append] at hpending
  refine ⟨fun _ => .inr ⟨hpause,hf,?_,?_,hu,hlive⟩,h.current,h.ended,h.disposed⟩
  · rw [hpending]
    simp
  · rw [hpending]
    simp

theorem handleAdmissionChanged_calms (c : RoomConnection) {i : ℕ} (hi : c.IsLive i)
    (joinPasswordEnabled : Bool) :
    Calms c (c.handleAdmissionChanged i joinPasswordEnabled) := by
  have hjoin : Calms c { (c.clearJoinRetry i).clearStateTimeout with hasReceivedState := false } :=
    { (clearJoinRetry_calms c i).trans (clearStateTimeout_calms _) with }
  unfold handleAdmissionChanged
  dsimp only
  split
  · exact { hjoin.trans (clearReconnectTimers_calms _) with pause := .inr ⟨i,hi⟩ }
  · exact hjoin

theorem handleJoinRejected_inv {c : RoomConnection} (h : ConnectionInv c) {i : ℕ}
    (hi : c.IsLive i) (reason : Option JoinRejectedReason) :
    ConnectionInv (c.handleJoinRejected i reason) := by
  have hjoin : Calms c (c.clearJoinRetry i).clearStateTimeout :=
    (clearJoinRetry_calms c i).trans (clearStateTimeout_calms _)
  have hpaused : Calms c { (c.clearJoinRetry i).clearStateTimeout.clearReconnectTimers with
      pauseAutoReconnect := true } :=
    { hjoin.trans (clearReconnectTimers_calms _) with pause := .inr ⟨i,hi⟩ }
  have hinv := h.calms hpaused
  unfold handleJoinRejected
  dsimp only
  split
  · split
    · -- A terminal rejection ends the connection before it closes the socket.
      refine connectionInv_of_cancelled ?_ (closeCurrent_not_live hinv.current)
      exact (closeCurrent_calms _).cancelled
    · split
      · have hclosed := closeCurrent_calms { (c.clearJoinRetry i).clearStateTimeout.clearReconnectTimers with
          pauseAutoReconnect := true }
        have hall := hpaused.trans hclosed
        obtain ⟨_,_,hf,hp,hu⟩ := h.of_isLive hi
        split
        · exact hinv.calms hclosed
        · have hp' := hall.pending
          rw [hp] at hp'
          refine coolDown_inv (hinv.calms hclosed) (hall.fetches.trans hf) (List.sublist_nil.mp hp')
            (hu ▸ hall.unclosed) ?_ (closeCurrent_not_live hinv.current)
          rw [closeCurrent_pause]
      · exact hinv
  · exact h.calms hjoin

theorem dispatchRoomSocketEnvelope_inv {c : RoomConnection} (h : ConnectionInv c) {i : ℕ}
    (hi : c.IsLive i) (m : AdmissionMessage) :
    ConnectionInv (c.dispatchRoomSocketEnvelope i m) := by
  cases m with
  | snapshot =>
    have hcalm : Calms c { c with hasReceivedState := true, pauseAutoReconnect := false } :=
      { Calms.refl c with pause := .inr ⟨i,hi⟩ }
    exact h.calms (hcalm.trans (clearStateTimeout_calms _))
  | control =>
    change ConnectionInv c.handleControl
    unfold handleControl
    split
    · exact h.calms ((setPause_calms c hi false).trans (clearStateTimeout_calms _))
    · exact h
  | admissionChanged joinPasswordEnabled =>
    exact h.calms (handleAdmissionChanged_calms c hi joinPasswordEnabled)
  | joinRejected reason => exact handleJoinRejected_inv h hi reason
  | other => exact h

end OneSocket

section Runs

/-- A step that starts a connection attempt finds nothing left of an earlier one; the timer that
`rate_limited` set finds every socket closed. -/
def ConnectsAlone (c : RoomConnection) : ConnectionEvent → Prop
  | .connect => c.cancelled = false → c.Idle
  | .submitPassword => ∀ i ∈ c.sendJoinRef, c.JoinConnects i → c.Idle
  | .timer id =>
    match c.task? id with
    | some (.sendJoin i) => c.JoinConnects i → c.Idle
    | some .rateLimitedReconnect => c.cancelled = false → c.unclosedSockets = 0
    | _ => True
  | _ => True

instance (c : RoomConnection) (event : ConnectionEvent) : Decidable (c.ConnectsAlone event) := by
  unfold ConnectsAlone
  split
  · infer_instance
  · infer_instance
  · split <;> infer_instance
  · infer_instance

theorem task?_mem {c : RoomConnection} {id : ℕ} {task : TimerTask} (h : c.task? id = some task) :
    (id,task) ∈ c.timers := by
  obtain ⟨t,ht,rfl⟩ := Option.map_eq_some_iff.mp h
  have hid := List.find?_some ht
  have hmem := List.mem_of_find?_eq_some ht
  rw [decide_eq_true_eq] at hid
  rwa [← hid]

theorem pendingReconnects_fired {c : RoomConnection} (hp : c.pendingReconnects.length ≤ 1)
    {id : ℕ} {task : TimerTask} (h : c.task? id = some task) (htask : task.reconnects = true) :
    c.pendingReconnects.length = 1 ∧ (c.clearTimeout (some id)).pendingReconnects = [] := by
  have hmem : (id,task) ∈ c.pendingReconnects := List.mem_filter.mpr ⟨task?_mem h,htask⟩
  obtain ⟨t,ht⟩ : ∃ t, c.pendingReconnects = [t] := by
    have hpos := List.length_pos_of_mem hmem
    exact List.length_eq_one_iff.mp (by omega)
  rw [ht,List.mem_singleton] at hmem
  have hcomm : (c.clearTimeout (some id)).pendingReconnects =
      c.pendingReconnects.filter fun t => decide (some t.1 ≠ some id) := by
    unfold pendingReconnects clearTimeout
    rw [List.filter_filter,List.filter_filter]
    congr 1
    funext t
    exact Bool.and_comm _ _
  refine ⟨by rw [ht]; rfl,?_⟩
  rw [hcomm,ht,← hmem]
  simp

theorem runTimer_inv {c : RoomConnection} (h : ConnectionInv c) {id : ℕ} {task : TimerTask}
    (htask : c.task? id = some task) (halone : c.ConnectsAlone (.timer id)) :
    ConnectionInv ((c.clearTimeout (some id)).runTimer task) := by
  have hcalm := clearTimeout_calms c (some id)
  have hinv := h.calms hcalm
  cases task with
  | reconnect =>
    refine connect_inv hinv fun hcan => ?_
    rcases h.attempt hcan with hex | hcool
    · unfold Exclusive at hex
      obtain ⟨hone,hnone⟩ := pendingReconnects_fired (by omega) htask rfl
      have hf : c.fetches = 0 := by omega
      have hu : c.unclosedSockets = 0 := by omega
      exact ⟨hf,hnone,hu⟩
    · have hmem : (id,TimerTask.reconnect) ∈ c.pendingReconnects :=
        List.mem_filter.mpr ⟨task?_mem htask,rfl⟩
      cases hcool.cooldown _ hmem
  | rateLimitedReconnect =>
    simp only [ConnectsAlone,htask] at halone
    -- `connect` sets the pause again.
    change ConnectionInv (c.clearTimeout (some id)).connect
    refine connect_inv hinv fun hcan => ?_
    have hu := halone hcan
    rcases h.attempt hcan with hex | hcool
    · unfold Exclusive at hex
      obtain ⟨hone,hnone⟩ := pendingReconnects_fired (by omega) htask rfl
      have hf : c.fetches = 0 := by omega
      exact ⟨hf,hnone,hu⟩
    · exact ⟨hcool.fetches,(pendingReconnects_fired hcool.pending htask rfl).2,hu⟩
  | sendJoin i =>
    simp only [ConnectsAlone,htask] at halone
    exact sendJoin_inv hinv i fun hjoin => (halone hjoin).calms hcalm
  | stateTimeout i => exact hinv.calms (onStateTimeout_calms _ i)

theorem step_inv {c c' : RoomConnection} {event : ConnectionEvent} (h : ConnectionInv c)
    (halone : c.ConnectsAlone event) (hstep : c.step event = some c') : ConnectionInv c' := by
  cases event with
  | connect =>
    cases hstep
    exact connect_inv h halone
  | initDone ok =>
    simp only [step,Option.ite_none_left_eq_some,Option.some.injEq] at hstep
    obtain ⟨hf,rfl⟩ := hstep
    exact initDone_inv (fetched_inv h hf) (fun hcan => fetched_idle h hcan hf) ok
  | opened i =>
    simp only [step,Option.ite_none_right_eq_some,Option.some.injEq] at hstep
    obtain ⟨hi,rfl⟩ := hstep
    have hinv := h.calms (setReadyState_calms c hi (s := .opened) (fun _ => rfl) fun _ => rfl)
    refine sendJoin_inv hinv i fun hjoin => absurd ?_ hjoin.2
    have hlt : i < c.readyStates.length := (List.getElem?_eq_some_iff.mp hi).1
    rw [readyStates_setReadyState]
    exact List.getElem?_set_self hlt
  | message i m =>
    simp only [step,Option.ite_none_right_eq_some,Option.some.injEq] at hstep
    obtain ⟨hi,rfl⟩ := hstep
    exact dispatchRoomSocketEnvelope_inv h (by simp [IsLive,hi,ReadyState.isLive]) m
  | error i =>
    simp only [step,Option.ite_none_right_eq_some,Option.some.injEq] at hstep
    obtain ⟨_,rfl⟩ := hstep
    exact h.calms (close_calms c i)
  | closing i =>
    simp only [step,Option.ite_none_right_eq_some,Option.some.injEq] at hstep
    obtain ⟨hi,rfl⟩ := hstep
    exact h.calms (setReadyState_calms c hi (by simp [ReadyState.isLive]) fun _ => rfl)
  | closed i =>
    simp only [step,Option.ite_none_right_eq_some,Option.some.injEq] at hstep
    obtain ⟨hi,rfl⟩ := hstep
    obtain ⟨s,hs,_⟩ := (Option.any_eq_true _ _).mp hi
    have hcalm := setReadyState_calms c hs (s := .closed) (by simp [ReadyState.isLive])
      (by simp [ReadyState.isUnclosed])
    exact onclose_inv (h.calms hcalm) i fun hcan hpause => closed_idle h hi hcan hpause
  | timer id =>
    obtain ⟨task,htask,rfl⟩ := Option.map_eq_some_iff.mp hstep
    exact runTimer_inv h htask halone
  | submitPassword =>
    cases hstep
    unfold submitJoinPassword
    split
    · rename_i i hi
      exact sendJoin_inv h i (halone i hi)
    · exact h
  | reminted =>
    cases hstep
    exact h.calms (onMinted_calms c)
  | dispose =>
    cases hstep
    exact dispose_inv h

def connectionSystem : TransitionSystem RoomConnection ConnectionEvent where
  init c := c = createRoomSocketConnection
  step c event c' := c.step event = some c'

/-- No second socket is live; after `dispose` none is. -/
def OneLiveSocket (c : RoomConnection) : Prop :=
  c.liveSockets ≤ 1 ∧ (c.disposed = true → c.liveSockets = 0)

theorem ConnectionInv.oneLiveSocket {c : RoomConnection} (h : ConnectionInv c) :
    c.OneLiveSocket := by
  have hle := c.liveSockets_le_unclosedSockets
  have hended : c.cancelled = true → c.liveSockets = 0 := fun hcan =>
    c.liveSockets_eq_zero_iff.mpr (h.ended hcan)
  refine ⟨?_,fun hd => hended (h.disposed hd)⟩
  cases hcan : c.cancelled with
  | true =>
    rw [hended hcan]
    simp
  | false =>
    rcases h.attempt hcan with hex | hcool
    · unfold Exclusive at hex
      omega
    · exact hle.trans hcool.unclosed

/-- In the runs where each attempt to connect begins alone, whatever the order of the events, at
most one socket is live, and after `dispose` none. -/
theorem one_live_socket {c : RoomConnection}
    (hrun : Reachable (connectionSystem.restrict ConnectsAlone) c) : c.OneLiveSocket := by
  refine ConnectionInv.oneLiveSocket (hrun.invariant ConnectionInv ?_ ?_)
  · rintro _ rfl
    exact connectionInv_init
  · intro c event c' _ hinv hstep
    exact step_inv hinv hstep.1 hstep.2

theorem reachable_of_events (events : List ConnectionEvent) {c : RoomConnection}
    (h : runSteps step createRoomSocketConnection events = some c) :
    Reachable connectionSystem c :=
  .of_runSteps (fun _ _ _ hs => hs) events (.init rfl) h

/-- A socket that is rejected, closes and is followed by another; the controller is disposed. -/
def reconnectRun : List ConnectionEvent :=
  [.connect,.initDone true,.opened 0,.message 0 (.joinRejected (some .rate_limited)),.closed 0,
    .timer 2,.initDone false,.timer 3,.initDone true,.opened 1,.message 1 .snapshot,.dispose]

theorem one_live_socket_of_reconnect :
    ∃ c, runSteps (guardStep step ConnectsAlone) createRoomSocketConnection reconnectRun = some c ∧
      c.sockets.length = 2 ∧ c.disposed = true ∧ c.OneLiveSocket := by
  obtain ⟨c,hc,hlen,hdis⟩ : ∃ c, runSteps (guardStep step ConnectsAlone)
      createRoomSocketConnection reconnectRun = some c ∧ c.sockets.length = 2 ∧
      c.disposed = true := by
    refine ⟨_,rfl,?_,?_⟩ <;> decide +kernel
  exact ⟨c,hc,hlen,hdis,one_live_socket
    (.of_guardSteps (fun _ _ _ hs => hs) _ (.init rfl) hc)⟩

/-- The password is submitted between a close and the reconnect that it scheduled. -/
def doubleRun : List ConnectionEvent :=
  [.connect,.initDone true,.opened 0,.closed 0,.submitPassword,.timer 2,.initDone true,
    .initDone true]

/-- Two sockets are live, and `dispose` closes the second one only: the first opens after it. -/
theorem submission_doubles_socket :
    (∃ c, Reachable connectionSystem c ∧ c.liveSockets = 2) ∧
      ∃ c, Reachable connectionSystem c ∧ c.disposed = true ∧
        c.readyStates[1]? = some .opened := by
  constructor
  · obtain ⟨c,hc,hlive⟩ : ∃ c, runSteps step createRoomSocketConnection doubleRun = some c ∧
        c.liveSockets = 2 := ⟨_,rfl,by decide +kernel⟩
    exact ⟨c,reachable_of_events _ hc,hlive⟩
  · obtain ⟨c,hc,hdis,hopen⟩ : ∃ c, runSteps step createRoomSocketConnection
        (doubleRun ++ [.dispose,.opened 1]) = some c ∧ c.disposed = true ∧
        c.readyStates[1]? = some .opened :=
      ⟨_,rfl,by decide +kernel,by decide +kernel⟩
    exact ⟨c,reachable_of_events _ hc,hdis,hopen⟩

end Runs

end RoomConnection
end WebSyncPlay
