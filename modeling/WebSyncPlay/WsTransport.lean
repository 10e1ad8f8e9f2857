import WebSyncPlay.RoomSocketConnection
import WebSyncPlay.Library.TransitionSystem

/-! The heartbeat of a node's WebSockets (`server/ws/transport.ts`,
`server/ws/transport-helpers.ts`, `server/ws/heartbeat.ts`, `server/lifecycle.ts`): it ends the
sockets that fall silent and no others. -/
namespace WebSyncPlay

open Library TransitionSystem

section Transport

def WS_HEARTBEAT_INTERVAL_MS : ℕ := 5000

def WS_HEARTBEAT_TIMEOUT_MS : ℕ := WS_HEARTBEAT_INTERVAL_MS*3

def isWsApiUpgradeUrl (url : Option (List Char)) : Bool :=
  url.any fun url => url == "/api/ws".toList || "/api/ws?".toList.isPrefixOf url ||
    "/api/ws/".toList.isPrefixOf url

def shouldTerminateForMissedHeartbeat (nowMs : ℕ) (lastPongAtMs : Option ℕ)
    (heartbeatTimeoutMs : ℕ) : Bool :=
  heartbeatTimeoutMs < nowMs-lastPongAtMs.getD nowMs

/-- A `session:clock` message, with the time of the ping that its pong answered, which the message
itself does not carry. -/
structure SessionClock where
  serverNowMs : ℕ
  rttMs : ℕ
  pingSentAt : Option ℕ
  deriving DecidableEq

/-- A socket of a `WebSocketServer`, with what the slot holds for it. -/
structure ServerSocket where
  wss : ℕ
  readyState : ReadyState := .opened
  lastPongAt : Option ℕ
  lastPingAt : Option ℕ := none
  /-- When the pings were sent that the peer has not answered, oldest first. -/
  pings : List ℕ := []
  clocks : List SessionClock := []
  terminated : Bool := false
  deriving DecidableEq

/-- A `setInterval` over the sockets of one server, and when it was set or last called. -/
structure WsHeartbeat where
  wss : ℕ
  firedAt : ℕ
  deriving DecidableEq

structure WsTransport where
  nowMs : ℕ := 0
  draining : Bool := false
  shutdownRegistered : Bool := false
  /-- The shutdown handlers have started, and this one's turn has not come. -/
  shutdownPending : Bool := false
  wss : Option ℕ := none
  wssClosing : Bool := false
  wssCount : ℕ := 0
  heartbeat : Option WsHeartbeat := none
  sockets : List ServerSocket := []

namespace ServerSocket

def beat (ws : ServerSocket) (nowMs wss : ℕ) : ServerSocket :=
  if ws.wss = wss ∧ ws.readyState = .opened then
    if shouldTerminateForMissedHeartbeat nowMs ws.lastPongAt WS_HEARTBEAT_TIMEOUT_MS then
      { ws with readyState := .closing, terminated := true }
    else { ws with lastPingAt := some nowMs, pings := ws.pings ++ [nowMs] }
  else ws

/-- A pong that answers a ping, or none: the protocol lets a peer send one unasked. -/
def onPong (ws : ServerSocket) (nowMs : ℕ) (pingSentAt : Option ℕ) : ServerSocket :=
  { ws with
    lastPongAt := some nowMs
    pings := if pingSentAt.isSome then ws.pings.tail else ws.pings
    clocks :=
      match ws.lastPingAt with
      | some pingAt =>
        if ws.readyState = .opened then
          ws.clocks ++ [⟨nowMs,max 0 (nowMs-pingAt),pingSentAt⟩]
        else ws.clocks
      | none => ws.clocks }

def startClosing (ws : ServerSocket) : ServerSocket :=
  if ws.readyState = .opened then { ws with readyState := .closing } else ws

def onClose (ws : ServerSocket) : ServerSocket :=
  { ws with readyState := .closed, lastPongAt := none, lastPingAt := none, pings := [] }

end ServerSocket

inductive TransportAction
  | tick (ms : ℕ)
  /-- A signal starts the shutdown handlers. -/
  | signal
  | attachWebSocketTransport
  | upgrade (url : Option (List Char))
  | beat
  | pong (k : ℕ)
  | unaskedPong (k : ℕ)
  | startClosing (k : ℕ)
  | closed (k : ℕ)
  | shutdown
  | serverClosed

namespace WsTransport

def setSocket (t : WsTransport) (k : ℕ) (ws : ServerSocket) : WsTransport :=
  { t with sockets := t.sockets.set k ws }

def attachWebSocketTransport (t : WsTransport) : WsTransport :=
  match t.wss with
  | some _ => t
  | none => { t with
      wss := some t.wssCount
      wssCount := t.wssCount+1
      shutdownRegistered := true
      heartbeat := some ⟨t.wssCount,t.nowMs⟩ }

def upgrade (t : WsTransport) (url : Option (List Char)) : WsTransport :=
  if isWsApiUpgradeUrl url then
    if t.draining then t
    else
      match t.wss with
      | none => t
      | some wss => { t with sockets := t.sockets ++ [{ wss := wss, lastPongAt := some t.nowMs }] }
  else t

/-- The shutdown handler up to its `await`. -/
def shutdown (t : WsTransport) : WsTransport :=
  match t.wss with
  | some wss => { t with
      heartbeat := none
      shutdownPending := false
      wssClosing := true
      sockets := t.sockets.map fun ws => if ws.wss = wss then ws.startClosing else ws }
  | none => { t with heartbeat := none, shutdownPending := false }

def step (t : WsTransport) : TransportAction → Option WsTransport
  | .tick ms => some { t with nowMs := t.nowMs+ms }
  | .signal =>
    if t.draining then none
    else some { t with draining := true, shutdownPending := t.shutdownRegistered }
  | .attachWebSocketTransport => some t.attachWebSocketTransport
  | .upgrade url => some (t.upgrade url)
  | .beat => t.heartbeat.bind fun heartbeat =>
    if heartbeat.firedAt+WS_HEARTBEAT_INTERVAL_MS ≤ t.nowMs then
      some { t with
        heartbeat := some ⟨heartbeat.wss,t.nowMs⟩
        sockets := t.sockets.map fun ws => ws.beat t.nowMs heartbeat.wss }
    else none
  | .pong k => t.sockets[k]?.bind fun ws =>
    if ws.readyState ≠ .closed ∧ ws.pings ≠ [] then
      some (t.setSocket k (ws.onPong t.nowMs ws.pings.head?))
    else none
  | .unaskedPong k => t.sockets[k]?.bind fun ws =>
    if ws.readyState ≠ .closed then some (t.setSocket k (ws.onPong t.nowMs none)) else none
  | .startClosing k => t.sockets[k]?.map fun ws => t.setSocket k ws.startClosing
  | .closed k => t.sockets[k]?.map fun ws => t.setSocket k ws.onClose
  | .shutdown => if t.shutdownPending then some t.shutdown else none
  | .serverClosed => t.wss.bind fun wss =>
    if t.wssClosing ∧ ∀ ws ∈ t.sockets, ws.wss = wss → ws.readyState = .closed then
      some { t with wss := none, wssClosing := false, heartbeat := none }
    else none

end WsTransport

def transportSystem : TransitionSystem WsTransport TransportAction where
  init t := t = {}
  step t a t' := t.step a = some t'

/-- The timer of the heartbeat is not late by more than some slack. -/
def TimerInTime (slackMs : ℕ) (t : WsTransport) : TransportAction → Prop
  | .tick ms => ∀ heartbeat ∈ t.heartbeat,
      t.nowMs+ms ≤ heartbeat.firedAt+WS_HEARTBEAT_INTERVAL_MS+slackMs
  | _ => True

/-- In such runs one peer answers each ping in time. -/
def PeerAnswers (slackMs replyMs k : ℕ) (t : WsTransport) (a : TransportAction) : Prop :=
  TimerInTime slackMs t a ∧
    match a with
    | .tick ms => ∀ ws ∈ t.sockets[k]?, ws.readyState = .opened →
        ∀ sentAt ∈ ws.pings, t.nowMs+ms ≤ sentAt+replyMs
    | _ => True

instance (slackMs : ℕ) (t : WsTransport) : DecidablePred (TimerInTime slackMs t) := fun a =>
  match a with
  | .tick ms => inferInstanceAs (Decidable (∀ heartbeat ∈ t.heartbeat,
      t.nowMs+ms ≤ heartbeat.firedAt+WS_HEARTBEAT_INTERVAL_MS+slackMs))
  | .signal | .attachWebSocketTransport | .upgrade _ | .beat | .pong _ | .unaskedPong _
  | .startClosing _ | .closed _ | .shutdown | .serverClosed => inferInstanceAs (Decidable True)

instance (slackMs replyMs k : ℕ) (t : WsTransport) :
    DecidablePred (PeerAnswers slackMs replyMs k t) := fun a =>
  match a with
  | .tick ms => inferInstanceAs (Decidable (TimerInTime slackMs t (.tick ms) ∧
      ∀ ws ∈ t.sockets[k]?, ws.readyState = .opened →
        ∀ sentAt ∈ ws.pings, t.nowMs+ms ≤ sentAt+replyMs))
  | .signal | .attachWebSocketTransport | .upgrade _ | .beat | .pong _ | .unaskedPong _
  | .startClosing _ | .closed _ | .shutdown | .serverClosed =>
    inferInstanceAs (Decidable (_ ∧ True))

end Transport

section Draining

variable {t t' : WsTransport} {a : TransportAction} {ws ws' : ServerSocket}

theorem ServerSocket.beat_same (ws : ServerSocket) (nowMs wss : ℕ) :
    (ws.beat nowMs wss).wss = ws.wss ∧
      ((ws.beat nowMs wss).readyState = .opened → ws.readyState = .opened) := by
  unfold ServerSocket.beat
  split
  · rename_i hopen
    split
    · exact ⟨rfl,fun hclosing => by cases hclosing⟩
    · exact ⟨rfl,fun _ => hopen.2⟩
  · exact ⟨rfl,id⟩

theorem ServerSocket.startClosing_not_opened (ws : ServerSocket) :
    ws.startClosing.readyState ≠ .opened := by
  unfold ServerSocket.startClosing
  split
  · exact fun hclosing => by cases hclosing
  · assumption

/-- Open sockets belong to the current server, and the shutdown handler leaves none. -/
structure DrainOk (t : WsTransport) : Prop where
  unregistered : t.shutdownRegistered = false → t.wss = none ∧ t.sockets = []
  opened : ∀ ws ∈ t.sockets, ws.readyState = .opened → t.wss = some ws.wss
  pending : t.shutdownPending = true → t.draining = true
  drained : t.draining = true → t.shutdownPending = false →
    ∀ ws ∈ t.sockets, ws.readyState ≠ .opened

theorem DrainOk.of_sockets (h : DrainOk t) {nowMs : ℕ} {heartbeat : Option WsHeartbeat}
    {sockets : List ServerSocket} (hnil : t.sockets = [] → sockets = [])
    (hopened : ∀ ws' ∈ sockets, ws'.readyState = .opened →
      ∃ ws ∈ t.sockets, ws.readyState = .opened ∧ ws'.wss = ws.wss) :
    DrainOk { t with nowMs := nowMs, heartbeat := heartbeat, sockets := sockets } where
  unregistered hfalse := ⟨(h.unregistered hfalse).1,hnil (h.unregistered hfalse).2⟩
  opened ws' hmem hopen := by
    obtain ⟨ws,hws,hbefore,hsame⟩ := hopened ws' hmem hopen
    rw [hsame]
    exact h.opened ws hws hbefore
  pending := h.pending
  drained hdraining hpending ws' hmem hopen := by
    obtain ⟨ws,hws,hbefore,-⟩ := hopened ws' hmem hopen
    exact h.drained hdraining hpending ws hws hbefore

theorem DrainOk.setSocket (h : DrainOk t) {k : ℕ} (hws : ws ∈ t.sockets)
    (hopened : ws'.readyState = .opened → ws.readyState = .opened ∧ ws'.wss = ws.wss) :
    DrainOk (t.setSocket k ws') := by
  refine h.of_sockets (fun hnil => by rw [hnil]; rfl) fun other hmem hopen => ?_
  rcases List.mem_or_eq_of_mem_set hmem with hold | rfl
  · exact ⟨other,hold,hopen,rfl⟩
  · exact ⟨ws,hws,hopened hopen⟩

theorem DrainOk.none_opened (h : DrainOk t) (hnone : t.wss = none) :
    ∀ ws ∈ t.sockets, ws.readyState ≠ .opened := by
  intro ws hmem hopen
  rw [h.opened ws hmem hopen] at hnone
  cases hnone

/-- The handler closes every socket of the server, and no other is open. -/
theorem DrainOk.shutdown_none_opened (h : DrainOk t) :
    ∀ ws ∈ t.shutdown.sockets, ws.readyState ≠ .opened := by
  unfold WsTransport.shutdown
  split
  · rename_i wss hwss
    intro ws' hmem hopen
    obtain ⟨ws,hws,rfl⟩ := List.mem_map.mp hmem
    split at hopen
    · exact ws.startClosing_not_opened hopen
    · rename_i hother
      rw [h.opened ws hws hopen] at hwss
      exact hother (Option.some.inj hwss)
  · rename_i hnone
    exact h.none_opened hnone

theorem shutdown_same (t : WsTransport) :
    t.shutdown.shutdownPending = false ∧ t.shutdown.heartbeat = none ∧
      t.shutdown.draining = t.draining ∧ t.shutdown.wss = t.wss ∧
      t.shutdown.shutdownRegistered = t.shutdownRegistered := by
  unfold WsTransport.shutdown
  split
  · exact ⟨rfl,rfl,rfl,rfl,rfl⟩
  · exact ⟨rfl,rfl,rfl,rfl,rfl⟩

theorem DrainOk.step (h : DrainOk t) (hstep : t.step a = some t') : DrainOk t' := by
  cases a with
  | tick ms =>
    cases hstep
    exact h.of_sockets id fun ws hmem hopen => ⟨ws,hmem,hopen,rfl⟩
  | signal =>
    rw [WsTransport.step] at hstep
    split at hstep
    · cases hstep
    · cases hstep
      refine ⟨h.unregistered,h.opened,fun _ => rfl,fun _ hpending ws hmem => ?_⟩
      dsimp only at hpending hmem
      rw [(h.unregistered hpending).2] at hmem
      cases hmem
  | attachWebSocketTransport =>
    cases hstep
    unfold WsTransport.attachWebSocketTransport
    split
    · exact h
    · rename_i hnone
      exact ⟨fun hfalse => (by cases hfalse),
        fun ws hmem hopen => absurd hopen (h.none_opened hnone ws hmem),h.pending,
        fun _ _ => h.none_opened hnone⟩
  | upgrade url =>
    cases hstep
    unfold WsTransport.upgrade
    split
    · split
      · exact h
      · rename_i hdraining
        split
        · exact h
        · rename_i wss hwss
          refine ⟨fun hfalse => ?_,fun ws hmem hopen => ?_,h.pending,
            fun hdrain => absurd hdrain hdraining⟩
          · rw [(h.unregistered hfalse).1] at hwss
            cases hwss
          · rcases List.mem_append.mp hmem with hold | hnew
            · exact h.opened ws hold hopen
            · rw [List.mem_singleton.mp hnew]
              exact hwss
    · exact h
  | beat =>
    obtain ⟨heartbeat,-,hstep⟩ := Option.bind_eq_some_iff.mp hstep
    split at hstep
    · cases hstep
      refine h.of_sockets (fun hnil => by rw [hnil]; rfl) fun ws' hmem hopen => ?_
      obtain ⟨ws,hws,rfl⟩ := List.mem_map.mp hmem
      have hsame := ws.beat_same t.nowMs heartbeat.wss
      exact ⟨ws,hws,hsame.2 hopen,hsame.1⟩
    · cases hstep
  | pong k =>
    obtain ⟨ws,hget,hstep⟩ := Option.bind_eq_some_iff.mp hstep
    split at hstep
    · cases hstep
      exact h.setSocket (List.mem_of_getElem? hget) fun hopen => ⟨hopen,rfl⟩
    · cases hstep
  | unaskedPong k =>
    obtain ⟨ws,hget,hstep⟩ := Option.bind_eq_some_iff.mp hstep
    split at hstep
    · cases hstep
      exact h.setSocket (List.mem_of_getElem? hget) fun hopen => ⟨hopen,rfl⟩
    · cases hstep
  | startClosing k =>
    obtain ⟨ws,hget,rfl⟩ := Option.map_eq_some_iff.mp hstep
    exact h.setSocket (List.mem_of_getElem? hget) fun hopen =>
      absurd hopen ws.startClosing_not_opened
  | closed k =>
    obtain ⟨ws,hget,rfl⟩ := Option.map_eq_some_iff.mp hstep
    exact h.setSocket (List.mem_of_getElem? hget) fun hopen => (by cases hopen)
  | shutdown =>
    rw [WsTransport.step] at hstep
    split at hstep
    · cases hstep
      obtain ⟨hover,-,hdraining,hwss,hregistered⟩ := shutdown_same t
      refine ⟨fun hfalse => ?_,fun ws hmem hopen => ?_,fun hpending => ?_,
        fun _ _ => h.shutdown_none_opened⟩
      · obtain ⟨hnone,hnil⟩ := h.unregistered (hregistered ▸ hfalse)
        refine ⟨hwss.trans hnone,?_⟩
        simp [WsTransport.shutdown,hnone,hnil]
      · exact absurd hopen (h.shutdown_none_opened ws hmem)
      · rw [hover] at hpending
        cases hpending
    · cases hstep
  | serverClosed =>
    obtain ⟨wss,hwss,hstep⟩ := Option.bind_eq_some_iff.mp hstep
    split at hstep
    · rename_i hall
      cases hstep
      have hclosed : ∀ ws ∈ t.sockets, ws.readyState ≠ .opened := by
        intro ws hmem hopen
        have hsame := (h.opened ws hmem hopen).symm.trans hwss
        have hstate := hall.2 ws hmem (Option.some.inj hsame)
        rw [hopen] at hstate
        cases hstate
      exact ⟨fun hfalse => ⟨rfl,(h.unregistered hfalse).2⟩,
        fun ws hmem hopen => absurd hopen (hclosed ws hmem),h.pending,fun _ _ => hclosed⟩
    · cases hstep

theorem drainOk_of_reachable (h : transportSystem.Reachable t) : DrainOk t := by
  refine h.invariant DrainOk ?_ fun _ _ _ _ hs hstep => hs.step hstep
  rintro _ rfl
  exact ⟨fun _ => ⟨rfl,rfl⟩,fun _ hmem => (by cases hmem),fun hfalse => (by cases hfalse),
    fun _ _ _ hmem => (by cases hmem)⟩

/-- A process that drains stays so, and takes no more sockets. -/
theorem step_of_draining (hdraining : t.draining = true) (hstep : t.step a = some t') :
    t'.draining = true ∧ t'.sockets.length = t.sockets.length := by
  cases a with
  | tick ms =>
    cases hstep
    exact ⟨hdraining,rfl⟩
  | signal => simp [WsTransport.step,hdraining] at hstep
  | attachWebSocketTransport =>
    cases hstep
    unfold WsTransport.attachWebSocketTransport
    split
    · exact ⟨hdraining,rfl⟩
    · exact ⟨hdraining,rfl⟩
  | upgrade url =>
    cases hstep
    unfold WsTransport.upgrade
    rw [if_pos hdraining]
    split
    · exact ⟨hdraining,rfl⟩
    · exact ⟨hdraining,rfl⟩
  | beat =>
    obtain ⟨heartbeat,-,hstep⟩ := Option.bind_eq_some_iff.mp hstep
    split at hstep
    · cases hstep
      exact ⟨hdraining,List.length_map _⟩
    · cases hstep
  | pong k =>
    obtain ⟨ws,-,hstep⟩ := Option.bind_eq_some_iff.mp hstep
    split at hstep
    · cases hstep
      exact ⟨hdraining,List.length_set⟩
    · cases hstep
  | unaskedPong k =>
    obtain ⟨ws,-,hstep⟩ := Option.bind_eq_some_iff.mp hstep
    split at hstep
    · cases hstep
      exact ⟨hdraining,List.length_set⟩
    · cases hstep
  | startClosing k =>
    obtain ⟨ws,-,rfl⟩ := Option.map_eq_some_iff.mp hstep
    exact ⟨hdraining,List.length_set⟩
  | closed k =>
    obtain ⟨ws,-,rfl⟩ := Option.map_eq_some_iff.mp hstep
    exact ⟨hdraining,List.length_set⟩
  | shutdown =>
    rw [WsTransport.step] at hstep
    split at hstep
    · cases hstep
      unfold WsTransport.shutdown
      split
      · exact ⟨hdraining,List.length_map _⟩
      · exact ⟨hdraining,rfl⟩
    · cases hstep
  | serverClosed =>
    obtain ⟨wss,-,hstep⟩ := Option.bind_eq_some_iff.mp hstep
    split at hstep
    · cases hstep
      exact ⟨hdraining,rfl⟩
    · cases hstep

theorem run_of_draining (hdraining : t.draining = true) (as : List TransportAction)
    (hrun : runSteps WsTransport.step t as = some t') :
    t'.sockets.length = t.sockets.length := by
  induction as generalizing t with
  | nil =>
    cases hrun
    rfl
  | cons a as ih =>
    obtain ⟨after,hstep,hrest⟩ := Option.bind_eq_some_iff.mp hrun
    obtain ⟨hstill,hlength⟩ := step_of_draining hdraining hstep
    rw [ih hstill hrest,hlength]

end Draining

section Live

variable {slackMs replyMs nowMs firedAt heard k : ℕ} {t t' : WsTransport} {a : TransportAction}
  {ws ws' : ServerSocket} {heartbeat : Option WsHeartbeat} {timer : WsHeartbeat}
  {pingSentAt : Option ℕ} {clock : SessionClock}

/-- An open socket whose peer was last heard from at a time that the last beat let pass. -/
structure Heard (heartbeat : Option WsHeartbeat) (nowMs : ℕ) (ws : ServerSocket)
    (firedAt heard : ℕ) : Prop where
  heartbeat : heartbeat = some ⟨ws.wss,firedAt⟩
  lastPongAt : ws.lastPongAt = some heard
  past : heard ≤ nowMs
  kept : firedAt ≤ heard+WS_HEARTBEAT_TIMEOUT_MS
  lastPingAt : ∀ pingAt ∈ ws.lastPingAt, pingAt = firedAt
  pings : ∀ sentAt ∈ ws.pings, sentAt ≤ firedAt

/-- A round trip is never reported as longer than it was, nor as longer than an interval. -/
def ClockOk (slackMs : ℕ) (clock : SessionClock) : Prop :=
  clock.rttMs ≤ WS_HEARTBEAT_INTERVAL_MS+slackMs ∧
    ∀ sentAt ∈ clock.pingSentAt, sentAt+clock.rttMs ≤ clock.serverNowMs

structure LiveSocket (slackMs : ℕ) (heartbeat : Option WsHeartbeat) (nowMs : ℕ)
    (ws : ServerSocket) : Prop where
  opened : ws.readyState = .opened → ∃ firedAt heard, Heard heartbeat nowMs ws firedAt heard
  clocks : ∀ clock ∈ ws.clocks, ClockOk slackMs clock

def TimerOk (slackMs nowMs : ℕ) (heartbeat : Option WsHeartbeat) : Prop :=
  ∀ timer ∈ heartbeat, timer.firedAt ≤ nowMs ∧
    nowMs ≤ timer.firedAt+WS_HEARTBEAT_INTERVAL_MS+slackMs

structure LiveOk (slackMs : ℕ) (t : WsTransport) : Prop where
  timer : TimerOk slackMs t.nowMs t.heartbeat
  beating : t.draining = false → ∀ wss ∈ t.wss, ∃ firedAt, t.heartbeat = some ⟨wss,firedAt⟩
  sockets : ∀ ws ∈ t.sockets, LiveSocket slackMs t.heartbeat t.nowMs ws

/-- A peer that answers in time was heard from an interval before the ping that it owes an answer
for. -/
structure Answering (slackMs replyMs nowMs : ℕ) (ws : ServerSocket) (firedAt heard : ℕ) :
    Prop where
  idle : ws.pings = [] → firedAt ≤ heard
  oldest : ∀ sentAt ∈ ws.pings.head?, sentAt ≤ heard+WS_HEARTBEAT_INTERVAL_MS+slackMs
  recent : ∀ sentAt ∈ ws.pings, nowMs ≤ sentAt+replyMs
  single : replyMs < WS_HEARTBEAT_INTERVAL_MS → ∀ sentAt ∈ ws.pings, sentAt = firedAt

structure PeerOk (slackMs replyMs : ℕ) (heartbeat : Option WsHeartbeat) (nowMs : ℕ)
    (ws : ServerSocket) : Prop where
  opened : ws.readyState = .opened → ∀ firedAt heard, heartbeat = some ⟨ws.wss,firedAt⟩ →
    ws.lastPongAt = some heard → Answering slackMs replyMs nowMs ws firedAt heard
  spared : replyMs+WS_HEARTBEAT_INTERVAL_MS+slackMs ≤ WS_HEARTBEAT_TIMEOUT_MS →
    ws.terminated = false
  measured : replyMs < WS_HEARTBEAT_INTERVAL_MS → ∀ clock ∈ ws.clocks,
    ∀ sentAt ∈ clock.pingSentAt, sentAt+clock.rttMs = clock.serverNowMs

def PeerAt (slackMs replyMs k : ℕ) (t : WsTransport) : Prop :=
  ∀ ws ∈ t.sockets[k]?, PeerOk slackMs replyMs t.heartbeat t.nowMs ws

theorem shouldTerminate_iff (h : ws.lastPongAt = some heard) :
    shouldTerminateForMissedHeartbeat nowMs ws.lastPongAt WS_HEARTBEAT_TIMEOUT_MS = true ↔
      heard+WS_HEARTBEAT_TIMEOUT_MS < nowMs := by
  simp only [shouldTerminateForMissedHeartbeat,h,Option.getD_some,decide_eq_true_eq]
  omega

theorem LiveSocket.of_not_opened (h : LiveSocket slackMs heartbeat nowMs ws)
    (hclosed : ws'.readyState ≠ .opened) (hclocks : ws'.clocks = ws.clocks)
    (heartbeat' : Option WsHeartbeat) (nowMs' : ℕ) :
    LiveSocket slackMs heartbeat' nowMs' ws' :=
  ⟨fun hopen => absurd hopen hclosed,fun clock hmem => h.clocks clock (hclocks ▸ hmem)⟩

theorem PeerOk.of_not_opened (h : PeerOk slackMs replyMs heartbeat nowMs ws)
    (hclosed : ws'.readyState ≠ .opened) (hclocks : ws'.clocks = ws.clocks)
    (hterminated : ws'.terminated = ws.terminated) (heartbeat' : Option WsHeartbeat)
    (nowMs' : ℕ) : PeerOk slackMs replyMs heartbeat' nowMs' ws' :=
  ⟨fun hopen => absurd hopen hclosed,fun hbound => hterminated ▸ h.spared hbound,
    fun hreply clock hmem => h.measured hreply clock (hclocks ▸ hmem)⟩

theorem startClosing_same (ws : ServerSocket) :
    ws.startClosing.clocks = ws.clocks ∧ ws.startClosing.terminated = ws.terminated := by
  unfold ServerSocket.startClosing
  split
  · exact ⟨rfl,rfl⟩
  · exact ⟨rfl,rfl⟩

theorem mem_onPong_pings {sentAt : ℕ} (h : sentAt ∈ (ws.onPong nowMs pingSentAt).pings) :
    sentAt ∈ ws.pings := by
  unfold ServerSocket.onPong at h
  dsimp only at h
  split at h
  · exact List.mem_of_mem_tail h
  · exact h

theorem mem_onPong_clocks (h : clock ∈ (ws.onPong nowMs pingSentAt).clocks) :
    clock ∈ ws.clocks ∨ ∃ pingAt ∈ ws.lastPingAt, ws.readyState = .opened ∧
      clock = ⟨nowMs,nowMs-pingAt,pingSentAt⟩ := by
  unfold ServerSocket.onPong at h
  dsimp only at h
  split at h
  · rename_i pingAt hping
    split at h
    · rename_i hopen
      rcases List.mem_append.mp h with hold | hnew
      · exact .inl hold
      · refine .inr ⟨pingAt,hping,hopen,?_⟩
        rw [List.mem_singleton.mp hnew,Nat.zero_max]
    · exact .inl h
  · exact .inl h

section Beat

theorem LiveSocket.beat (h : LiveSocket slackMs (some timer) nowMs ws)
    (htimer : timer.firedAt ≤ nowMs) :
    LiveSocket slackMs (some ⟨timer.wss,nowMs⟩) nowMs (ws.beat nowMs timer.wss) := by
  by_cases hopen : ws.readyState = .opened
  · obtain ⟨firedAt,heard,hheard⟩ := h.opened hopen
    obtain rfl : timer = ⟨ws.wss,firedAt⟩ := Option.some.inj hheard.heartbeat
    unfold ServerSocket.beat
    rw [if_pos ⟨rfl,hopen⟩]
    split
    · exact ⟨fun hclosing => (by cases hclosing),h.clocks⟩
    · rename_i hkept
      rw [shouldTerminate_iff hheard.lastPongAt] at hkept
      refine ⟨fun _ => ⟨nowMs,heard,rfl,hheard.lastPongAt,hheard.past,by omega,
        fun pingAt hping => (Option.some.inj hping).symm,fun sentAt hsent => ?_⟩,h.clocks⟩
      rcases List.mem_append.mp hsent with hold | hnew
      · exact (hheard.pings sentAt hold).trans htimer
      · exact (List.mem_singleton.mp hnew).le
  · unfold ServerSocket.beat
    rw [if_neg fun hboth => hopen hboth.2]
    exact h.of_not_opened hopen rfl _ _

theorem Answering.bound (h : Answering slackMs replyMs nowMs ws firedAt heard)
    (htimer : nowMs ≤ firedAt+WS_HEARTBEAT_INTERVAL_MS+slackMs) :
    nowMs ≤ heard+(replyMs+WS_HEARTBEAT_INTERVAL_MS+slackMs) := by
  cases hpings : ws.pings with
  | nil =>
    have hidle := h.idle hpings
    omega
  | cons sentAt rest =>
    have holdest := h.oldest sentAt (by rw [hpings]; rfl)
    have hrecent := h.recent sentAt (by simp [hpings])
    omega

theorem Answering.ping (h : Answering slackMs replyMs nowMs ws firedAt heard)
    (htimer : nowMs ≤ firedAt+WS_HEARTBEAT_INTERVAL_MS+slackMs)
    (hdue : firedAt+WS_HEARTBEAT_INTERVAL_MS ≤ nowMs) :
    Answering slackMs replyMs nowMs
      { ws with lastPingAt := some nowMs, pings := ws.pings ++ [nowMs] } nowMs heard where
  idle hnil := absurd hnil (by simp)
  oldest sentAt hhead := by
    cases hpings : ws.pings with
    | nil =>
      have hidle := h.idle hpings
      have hsame : nowMs = sentAt := by simpa [hpings] using hhead
      omega
    | cons first rest =>
      refine h.oldest sentAt ?_
      simpa [hpings] using hhead
  recent sentAt hmem := by
    rcases List.mem_append.mp hmem with hold | hnew
    · exact h.recent sentAt hold
    · rw [List.mem_singleton.mp hnew]
      exact Nat.le_add_right _ _
  single hreply sentAt hmem := by
    rcases List.mem_append.mp hmem with hold | hnew
    · have hrecent := h.recent sentAt hold
      have hsame := h.single hreply sentAt hold
      omega
    · exact List.mem_singleton.mp hnew

theorem PeerOk.beat (h : PeerOk slackMs replyMs (some timer) nowMs ws)
    (hlive : LiveSocket slackMs (some timer) nowMs ws)
    (htimer : nowMs ≤ timer.firedAt+WS_HEARTBEAT_INTERVAL_MS+slackMs)
    (hdue : timer.firedAt+WS_HEARTBEAT_INTERVAL_MS ≤ nowMs) :
    PeerOk slackMs replyMs (some ⟨timer.wss,nowMs⟩) nowMs (ws.beat nowMs timer.wss) := by
  by_cases hopen : ws.readyState = .opened
  · obtain ⟨firedAt,heard,hheard⟩ := hlive.opened hopen
    obtain rfl : timer = ⟨ws.wss,firedAt⟩ := Option.some.inj hheard.heartbeat
    have hanswering := h.opened hopen firedAt heard rfl hheard.lastPongAt
    have hbound := hanswering.bound htimer
    unfold ServerSocket.beat
    rw [if_pos ⟨rfl,hopen⟩]
    split
    · rename_i hended
      rw [shouldTerminate_iff hheard.lastPongAt] at hended
      exact ⟨fun hclosing => (by cases hclosing),fun hle => (by omega),h.measured⟩
    · refine ⟨fun _ fired last hfired hlast => ?_,h.spared,h.measured⟩
      cases hfired
      obtain rfl : heard = last := Option.some.inj (hheard.lastPongAt.symm.trans hlast)
      exact hanswering.ping htimer hdue
  · unfold ServerSocket.beat
    rw [if_neg fun hboth => hopen hboth.2]
    exact h.of_not_opened hopen rfl rfl _ _

end Beat

section Pong

theorem LiveSocket.onPong (h : LiveSocket slackMs heartbeat nowMs ws)
    (htimer : TimerOk slackMs nowMs heartbeat)
    (hsent : ∀ sentAt ∈ pingSentAt, sentAt ∈ ws.pings) :
    LiveSocket slackMs heartbeat nowMs (ws.onPong nowMs pingSentAt) := by
  refine ⟨fun hopen => ?_,fun clock hmem => ?_⟩
  · obtain ⟨firedAt,heard,hheard⟩ := h.opened hopen
    have hfired : firedAt ≤ nowMs := (htimer _ hheard.heartbeat).1
    exact ⟨firedAt,nowMs,hheard.heartbeat,rfl,le_refl _,by omega,hheard.lastPingAt,
      fun sentAt hmem => hheard.pings sentAt (mem_onPong_pings hmem)⟩
  · rcases mem_onPong_clocks hmem with hold | ⟨pingAt,hping,hopen,rfl⟩
    · exact h.clocks clock hold
    · obtain ⟨firedAt,heard,hheard⟩ := h.opened hopen
      obtain ⟨hfired,hlate⟩ : firedAt ≤ nowMs ∧
          nowMs ≤ firedAt+WS_HEARTBEAT_INTERVAL_MS+slackMs := htimer _ hheard.heartbeat
      obtain rfl := hheard.lastPingAt pingAt hping
      refine ⟨?_,fun sentAt hanswered => ?_⟩
      · dsimp only
        omega
      · have hbefore := hheard.pings sentAt (hsent sentAt hanswered)
        dsimp only
        omega

theorem PeerOk.onPong (h : PeerOk slackMs replyMs heartbeat nowMs ws)
    (hlive : LiveSocket slackMs heartbeat nowMs ws) (htimer : TimerOk slackMs nowMs heartbeat)
    (hsent : ∀ sentAt ∈ pingSentAt, sentAt ∈ ws.pings) :
    PeerOk slackMs replyMs heartbeat nowMs (ws.onPong nowMs pingSentAt) := by
  refine ⟨fun hopen fired last hfired hlast => ?_,h.spared,fun hreply clock hmem => ?_⟩
  · obtain ⟨firedAt,heard,hheard⟩ := hlive.opened hopen
    have hle : fired ≤ nowMs := (htimer _ hfired).1
    have hsame : firedAt = fired :=
      congrArg WsHeartbeat.firedAt (Option.some.inj (hheard.heartbeat.symm.trans hfired))
    obtain rfl : nowMs = last := Option.some.inj hlast
    have hanswering := h.opened hopen fired heard hfired hheard.lastPongAt
    refine ⟨fun _ => hle,fun sentAt hhead => ?_,
      fun sentAt hmem => hanswering.recent sentAt (mem_onPong_pings hmem),
      fun hreply sentAt hmem => hanswering.single hreply sentAt (mem_onPong_pings hmem)⟩
    have hbefore := hheard.pings sentAt (mem_onPong_pings (List.mem_of_mem_head? hhead))
    omega
  · rcases mem_onPong_clocks hmem with hold | ⟨pingAt,hping,hopen,rfl⟩
    · exact h.measured hreply clock hold
    · intro sentAt hanswered
      obtain ⟨firedAt,heard,hheard⟩ := hlive.opened hopen
      have hfired : firedAt ≤ nowMs := (htimer _ hheard.heartbeat).1
      have hsingle := (h.opened hopen firedAt heard hheard.heartbeat hheard.lastPongAt).single
        hreply sentAt (hsent sentAt hanswered)
      have hlast := hheard.lastPingAt pingAt hping
      dsimp only
      omega

end Pong

section Steps

theorem LiveOk.setSocket (h : LiveOk slackMs t)
    (hws : LiveSocket slackMs t.heartbeat t.nowMs ws) : LiveOk slackMs (t.setSocket k ws) where
  timer := h.timer
  beating := h.beating
  sockets other hmem := by
    rcases List.mem_or_eq_of_mem_set hmem with hold | rfl
    · exact h.sockets other hold
    · exact hws

theorem PeerAt.setSocket (h : PeerAt slackMs replyMs k t) {m : ℕ}
    (hws : m = k → PeerOk slackMs replyMs t.heartbeat t.nowMs ws) :
    PeerAt slackMs replyMs k (t.setSocket m ws) := by
  intro other hother
  by_cases hk : m = k
  · obtain rfl := hk
    have hsome : (t.sockets.set m ws)[m]? = some other := hother
    rw [List.getElem?_set_self'] at hsome
    obtain ⟨before,-,rfl⟩ := Option.map_eq_some_iff.mp hsome
    exact hws rfl
  · have hsome : (t.sockets.set m ws)[k]? = some other := hother
    rw [List.getElem?_set_ne hk] at hsome
    exact h other hsome

/-- After such a step no socket is open, and what was measured stays. -/
def NoneOpen (t t' : WsTransport) : Prop :=
  ∀ (k : ℕ) (ws' : ServerSocket), ws' ∈ t'.sockets[k]? → ws'.readyState ≠ .opened ∧
    ∃ ws : ServerSocket, ws ∈ t.sockets[k]? ∧ ws'.clocks = ws.clocks ∧
      ws'.terminated = ws.terminated

theorem NoneOpen.of_same (hclosed : ∀ ws ∈ t'.sockets, ws.readyState ≠ .opened)
    (hsame : t'.sockets = t.sockets) : NoneOpen t t' := by
  intro k ws hws
  exact ⟨hclosed ws (List.mem_of_getElem? hws),ws,hsame ▸ hws,rfl,rfl⟩

theorem noneOpen_attach (hdrain : DrainOk t) (hnone : t.wss = none) :
    NoneOpen t t.attachWebSocketTransport := by
  simp only [WsTransport.attachWebSocketTransport,hnone]
  exact NoneOpen.of_same (hdrain.none_opened hnone) rfl

theorem noneOpen_shutdown (hdrain : DrainOk t) : NoneOpen t t.shutdown := by
  intro k ws' hws'
  refine ⟨hdrain.shutdown_none_opened ws' (List.mem_of_getElem? hws'),?_⟩
  unfold WsTransport.shutdown at hws'
  split at hws'
  · rename_i wss _
    dsimp only at hws'
    rw [List.getElem?_map] at hws'
    obtain ⟨ws,hws,rfl⟩ := Option.map_eq_some_iff.mp hws'
    refine ⟨ws,hws,?_⟩
    split
    · exact startClosing_same ws
    · exact ⟨rfl,rfl⟩
  · exact ⟨ws',hws',rfl,rfl⟩

theorem noneOpen_serverClosed (hdrain : DrainOk t) (hstep : t.step .serverClosed = some t') :
    NoneOpen t t' ∧ t'.heartbeat = none ∧ t'.wss = none := by
  have hdrain' := hdrain.step hstep
  obtain ⟨wss,-,hstep⟩ := Option.bind_eq_some_iff.mp hstep
  split at hstep
  · cases hstep
    exact ⟨NoneOpen.of_same (hdrain'.none_opened rfl) rfl,rfl,rfl⟩
  · cases hstep

theorem LiveOk.of_noneOpen (h : LiveOk slackMs t) (hnoneOpen : NoneOpen t t')
    (htimer : TimerOk slackMs t'.nowMs t'.heartbeat)
    (hbeating : t'.draining = false → ∀ wss ∈ t'.wss,
      ∃ firedAt, t'.heartbeat = some ⟨wss,firedAt⟩) : LiveOk slackMs t' := by
  refine ⟨htimer,hbeating,fun ws' hmem => ?_⟩
  obtain ⟨k,hk⟩ := List.mem_iff_getElem?.mp hmem
  obtain ⟨hclosed,ws,hws,hclocks,-⟩ := hnoneOpen k ws' hk
  exact (h.sockets ws (List.mem_of_getElem? hws)).of_not_opened hclosed hclocks _ _

theorem PeerAt.of_noneOpen (h : PeerAt slackMs replyMs k t) (hnoneOpen : NoneOpen t t') :
    PeerAt slackMs replyMs k t' := by
  intro ws' hws'
  obtain ⟨hclosed,ws,hws,hclocks,hterminated⟩ := hnoneOpen k ws' hws'
  exact (h ws hws).of_not_opened hclosed hclocks hterminated _ _

theorem LiveOk.step (h : LiveOk slackMs t) (hdrain : DrainOk t)
    (hguard : TimerInTime slackMs t a) (hstep : t.step a = some t') : LiveOk slackMs t' := by
  cases a with
  | tick ms =>
    cases hstep
    refine ⟨fun timer htimer => ⟨(h.timer timer htimer).1.trans (Nat.le_add_right _ _),
      hguard timer htimer⟩,h.beating,fun ws hmem => ?_⟩
    refine ⟨fun hopen => ?_,(h.sockets ws hmem).clocks⟩
    obtain ⟨firedAt,heard,hheard⟩ := (h.sockets ws hmem).opened hopen
    exact ⟨firedAt,heard,{ hheard with past := hheard.past.trans (Nat.le_add_right _ _) }⟩
  | signal =>
    rw [WsTransport.step] at hstep
    split at hstep
    · cases hstep
    · cases hstep
      exact ⟨h.timer,fun hfalse => (by cases hfalse),h.sockets⟩
  | attachWebSocketTransport =>
    cases hstep
    cases hnone : t.wss with
    | some wss =>
      simp only [WsTransport.attachWebSocketTransport,hnone]
      exact h
    | none =>
      have hnoneOpen := noneOpen_attach hdrain hnone
      simp only [WsTransport.attachWebSocketTransport,hnone] at hnoneOpen ⊢
      refine h.of_noneOpen hnoneOpen (fun timer htimer => ?_) fun _ wss hmem => ?_
      · cases htimer
        dsimp only
        omega
      · cases hmem
        exact ⟨_,rfl⟩
  | upgrade url =>
    cases hstep
    unfold WsTransport.upgrade
    split
    · split
      · exact h
      · rename_i hdraining
        split
        · exact h
        · rename_i wss hwss
          refine ⟨h.timer,h.beating,fun ws hmem => ?_⟩
          rcases List.mem_append.mp hmem with hold | hnew
          · exact h.sockets ws hold
          · obtain ⟨firedAt,hbeating⟩ := h.beating (by simpa using hdraining) wss hwss
            have hfired : firedAt ≤ t.nowMs := (h.timer _ hbeating).1
            rw [List.mem_singleton.mp hnew]
            exact ⟨fun _ => ⟨firedAt,t.nowMs,hbeating,rfl,le_refl _,by omega,
              fun _ hnone => (by cases hnone),fun _ hnil => (by cases hnil)⟩,
              fun _ hnil => (by cases hnil)⟩
    · exact h
  | beat =>
    obtain ⟨timer,hbeating,hstep⟩ := Option.bind_eq_some_iff.mp hstep
    split at hstep
    · cases hstep
      have hfired := h.timer timer hbeating
      refine ⟨fun other hother => ?_,fun hfalse wss hwss => ?_,fun ws' hmem => ?_⟩
      · cases hother
        dsimp only
        omega
      · obtain ⟨firedAt,hsame⟩ := h.beating hfalse wss hwss
        rw [hbeating] at hsame
        cases hsame
        exact ⟨_,rfl⟩
      · obtain ⟨ws,hws,rfl⟩ := List.mem_map.mp hmem
        have hlive := h.sockets ws hws
        rw [hbeating] at hlive
        exact hlive.beat hfired.1
    · cases hstep
  | pong m =>
    obtain ⟨ws,hget,hstep⟩ := Option.bind_eq_some_iff.mp hstep
    split at hstep
    · cases hstep
      exact h.setSocket ((h.sockets ws (List.mem_of_getElem? hget)).onPong h.timer
        fun sentAt hsent => List.mem_of_mem_head? hsent)
    · cases hstep
  | unaskedPong m =>
    obtain ⟨ws,hget,hstep⟩ := Option.bind_eq_some_iff.mp hstep
    split at hstep
    · cases hstep
      exact h.setSocket ((h.sockets ws (List.mem_of_getElem? hget)).onPong h.timer
        fun _ hnone => (by cases hnone))
    · cases hstep
  | startClosing m =>
    obtain ⟨ws,hget,rfl⟩ := Option.map_eq_some_iff.mp hstep
    exact h.setSocket ((h.sockets ws (List.mem_of_getElem? hget)).of_not_opened
      ws.startClosing_not_opened (startClosing_same ws).1 _ _)
  | closed m =>
    obtain ⟨ws,hget,rfl⟩ := Option.map_eq_some_iff.mp hstep
    have hclosed : ws.onClose.readyState ≠ .opened := fun hopen => by cases hopen
    exact h.setSocket ((h.sockets ws (List.mem_of_getElem? hget)).of_not_opened hclosed rfl _ _)
  | shutdown =>
    rw [WsTransport.step] at hstep
    split at hstep
    · rename_i hpending
      cases hstep
      obtain ⟨-,hheartbeat,hdraining,-⟩ := shutdown_same t
      refine h.of_noneOpen (noneOpen_shutdown hdrain) (fun timer htimer => ?_) fun hfalse => ?_
      · rw [hheartbeat] at htimer
        cases htimer
      · rw [hdraining,hdrain.pending hpending] at hfalse
        cases hfalse
    · cases hstep
  | serverClosed =>
    obtain ⟨hnoneOpen,hheartbeat,hwss⟩ := noneOpen_serverClosed hdrain hstep
    refine h.of_noneOpen hnoneOpen (fun timer htimer => ?_) fun _ wss hmem => ?_
    · rw [hheartbeat] at htimer
      cases htimer
    · rw [hwss] at hmem
      cases hmem

theorem PeerAt.step (h : PeerAt slackMs replyMs k t) (hlive : LiveOk slackMs t)
    (hdrain : DrainOk t) (hguard : PeerAnswers slackMs replyMs k t a)
    (hstep : t.step a = some t') : PeerAt slackMs replyMs k t' := by
  cases a with
  | tick ms =>
    cases hstep
    intro ws hws
    refine ⟨fun hopen fired last hfired hlast => ?_,(h ws hws).spared,(h ws hws).measured⟩
    have hanswering := (h ws hws).opened hopen fired last hfired hlast
    exact { hanswering with recent := fun sentAt hmem => hguard.2 ws hws hopen sentAt hmem }
  | signal =>
    rw [WsTransport.step] at hstep
    split at hstep
    · cases hstep
    · cases hstep
      exact h
  | attachWebSocketTransport =>
    cases hstep
    cases hnone : t.wss with
    | some wss =>
      simp only [WsTransport.attachWebSocketTransport,hnone]
      exact h
    | none => exact h.of_noneOpen (noneOpen_attach hdrain hnone)
  | upgrade url =>
    cases hstep
    unfold WsTransport.upgrade
    split
    · split
      · exact h
      · split
        · exact h
        · intro ws hws
          dsimp only at hws
          rw [List.getElem?_append] at hws
          split at hws
          · exact h ws hws
          · have hnew := List.mem_of_getElem? hws
            rw [List.mem_singleton.mp hnew]
            refine ⟨fun _ fired last hfired hlast => ?_,fun _ => rfl,
              fun _ _ hnil => (by cases hnil)⟩
            cases hlast
            have hle : fired ≤ t.nowMs := (hlive.timer _ hfired).1
            exact ⟨fun _ => hle,fun _ hnone => (by cases hnone),fun _ hnil => (by cases hnil),
              fun _ _ hnil => (by cases hnil)⟩
    · exact h
  | beat =>
    obtain ⟨timer,hbeating,hstep⟩ := Option.bind_eq_some_iff.mp hstep
    split at hstep
    · rename_i hdue
      cases hstep
      have hfired := hlive.timer timer hbeating
      intro ws' hws'
      dsimp only at hws'
      rw [List.getElem?_map] at hws'
      obtain ⟨ws,hws,rfl⟩ := Option.map_eq_some_iff.mp hws'
      have hpeer := h ws hws
      have hsocket := hlive.sockets ws (List.mem_of_getElem? hws)
      rw [hbeating] at hpeer hsocket
      exact hpeer.beat hsocket hfired.2 hdue
    · cases hstep
  | pong m =>
    obtain ⟨ws,hget,hstep⟩ := Option.bind_eq_some_iff.mp hstep
    split at hstep
    · cases hstep
      refine h.setSocket fun hm => ?_
      exact (h ws (hm ▸ hget)).onPong (hlive.sockets ws (List.mem_of_getElem? hget)) hlive.timer
        fun sentAt hsent => List.mem_of_mem_head? hsent
    · cases hstep
  | unaskedPong m =>
    obtain ⟨ws,hget,hstep⟩ := Option.bind_eq_some_iff.mp hstep
    split at hstep
    · cases hstep
      refine h.setSocket fun hm => ?_
      exact (h ws (hm ▸ hget)).onPong (hlive.sockets ws (List.mem_of_getElem? hget)) hlive.timer
        fun _ hnone => (by cases hnone)
    · cases hstep
  | startClosing m =>
    obtain ⟨ws,hget,rfl⟩ := Option.map_eq_some_iff.mp hstep
    refine h.setSocket fun hm => ?_
    have hsame := startClosing_same ws
    exact (h ws (hm ▸ hget)).of_not_opened ws.startClosing_not_opened hsame.1 hsame.2 _ _
  | closed m =>
    obtain ⟨ws,hget,rfl⟩ := Option.map_eq_some_iff.mp hstep
    refine h.setSocket fun hm => ?_
    have hclosed : ws.onClose.readyState ≠ .opened := fun hopen => by cases hopen
    exact (h ws (hm ▸ hget)).of_not_opened hclosed rfl rfl _ _
  | shutdown =>
    rw [WsTransport.step] at hstep
    split at hstep
    · cases hstep
      exact h.of_noneOpen (noneOpen_shutdown hdrain)
    · cases hstep
  | serverClosed => exact h.of_noneOpen (noneOpen_serverClosed hdrain hstep).1

theorem liveOk_of_reachable (h : (transportSystem.restrict (TimerInTime slackMs)).Reachable t) :
    LiveOk slackMs t := by
  refine h.invariant (LiveOk slackMs) ?_ fun s _ _ hs hok hstep =>
    hok.step (drainOk_of_reachable hs.of_restrict) hstep.1 hstep.2
  rintro _ rfl
  exact ⟨fun _ hnone => (by cases hnone),fun _ _ hnone => (by cases hnone),
    fun _ hmem => (by cases hmem)⟩

/-- A run in which a peer answers is a run of the timer too. -/
theorem reachable_of_peerAnswers
    (h : (transportSystem.restrict (PeerAnswers slackMs replyMs k)).Reachable t) :
    (transportSystem.restrict (TimerInTime slackMs)).Reachable t := by
  induction h with
  | init h => exact .init h
  | step _ h ih => exact .step ih ⟨h.1.1,h.2⟩

theorem peerAt_of_reachable
    (h : (transportSystem.restrict (PeerAnswers slackMs replyMs k)).Reachable t) :
    PeerAt slackMs replyMs k t := by
  refine h.invariant (PeerAt slackMs replyMs k) ?_ fun s _ _ hs hok hstep =>
    hok.step (liveOk_of_reachable (reachable_of_peerAnswers hs))
      (drainOk_of_reachable hs.of_restrict) hstep.1 hstep.2
  rintro _ rfl
  exact fun _ hnone => (by cases hnone)

end Steps

end Live

section Heartbeat

/-- The heartbeat of a node. An open socket was heard from within a timeout and an interval,
a round trip is not reported as longer than it was or than an interval, and a peer that answers
in time is never dropped; if it answers within an interval, its round trips are reported as they
were. A process that drains takes no more sockets, and its shutdown handler leaves none open. -/
theorem heartbeat_ends_silent_sockets (slackMs : ℕ) :
    (∀ t, (transportSystem.restrict (TimerInTime slackMs)).Reachable t → ∀ ws ∈ t.sockets,
      (ws.readyState = .opened → ∃ heard, ws.lastPongAt = some heard ∧ heard ≤ t.nowMs ∧
        t.nowMs ≤ heard+WS_HEARTBEAT_TIMEOUT_MS+WS_HEARTBEAT_INTERVAL_MS+slackMs) ∧
      ∀ clock ∈ ws.clocks, clock.rttMs ≤ WS_HEARTBEAT_INTERVAL_MS+slackMs ∧
        ∀ sentAt ∈ clock.pingSentAt, sentAt+clock.rttMs ≤ clock.serverNowMs) ∧
    (∀ replyMs k t, (transportSystem.restrict (PeerAnswers slackMs replyMs k)).Reachable t →
      ∀ ws ∈ t.sockets[k]?,
        (replyMs+WS_HEARTBEAT_INTERVAL_MS+slackMs ≤ WS_HEARTBEAT_TIMEOUT_MS →
          ws.terminated = false) ∧
        (replyMs < WS_HEARTBEAT_INTERVAL_MS → ∀ clock ∈ ws.clocks,
          ∀ sentAt ∈ clock.pingSentAt, sentAt+clock.rttMs = clock.serverNowMs)) ∧
    ∀ t, transportSystem.Reachable t → t.draining = true →
      (t.shutdownPending = false → ∀ ws ∈ t.sockets, ws.readyState ≠ .opened) ∧
      ∀ as t', runSteps WsTransport.step t as = some t' →
        t'.sockets.length = t.sockets.length := by
  refine ⟨fun t ht ws hmem => ?_,fun replyMs k t ht ws hws => ?_,fun t ht hdraining => ?_⟩
  · have hok := liveOk_of_reachable ht
    refine ⟨fun hopen => ?_,(hok.sockets ws hmem).clocks⟩
    obtain ⟨firedAt,heard,hheard⟩ := (hok.sockets ws hmem).opened hopen
    have hlate : t.nowMs ≤ firedAt+WS_HEARTBEAT_INTERVAL_MS+slackMs :=
      (hok.timer _ hheard.heartbeat).2
    have hkept := hheard.kept
    exact ⟨heard,hheard.lastPongAt,hheard.past,by omega⟩
  · have hpeer := peerAt_of_reachable ht ws hws
    exact ⟨hpeer.spared,hpeer.measured⟩
  · have hok := drainOk_of_reachable ht
    exact ⟨hok.drained hdraining,fun as t' => run_of_draining hdraining as⟩

/-- The first peer answers its pings after a while, the second never does and is dropped at the
fourth beat. -/
def oneSilentPeer : List TransportAction :=
  [.attachWebSocketTransport,.upgrade (some "/api/ws?room=kino".toList),
    .upgrade (some "/api/ws".toList),.tick 5000,.beat,.tick 40,.pong 0,.tick 4960,.beat,.tick 70,
    .pong 0,.tick 4930,.beat,.tick 20,.pong 0,.tick 4980,.beat]

theorem heartbeat_ends_silent_sockets_of_two :
    ∃ t, (transportSystem.restrict (PeerAnswers 0 100 0)).Reachable t ∧
      (∃ ws ∈ t.sockets[0]?, ws.readyState = .opened ∧ ws.terminated = false ∧
        ws.clocks.map (·.rttMs) = [40,70,20] ∧
        ∀ clock ∈ ws.clocks, ∀ sentAt ∈ clock.pingSentAt,
          sentAt+clock.rttMs = clock.serverNowMs) ∧
      ∃ ws ∈ t.sockets[1]?, ws.terminated = true := by
  have hrun : ((runSteps (guardStep WsTransport.step (PeerAnswers 0 100 0)) {} oneSilentPeer).any
      fun t => decide ((∃ ws ∈ t.sockets[0]?, ws.readyState = .opened ∧
        ws.clocks.map (·.rttMs) = [40,70,20]) ∧
        ∃ ws ∈ t.sockets[1]?, ws.terminated = true)) = true := by decide +kernel
  obtain ⟨t,ht,hfound⟩ := (Option.any_eq_true _ _).mp hrun
  obtain ⟨⟨ws,hws,hopen,hclocks⟩,hsilent⟩ := of_decide_eq_true hfound
  have hreach : (transportSystem.restrict (PeerAnswers 0 100 0)).Reachable t :=
    Reachable.of_guardSteps (fun _ _ _ hstep => hstep) oneSilentPeer (.init rfl) ht
  obtain ⟨hspared,hmeasured⟩ := (heartbeat_ends_silent_sockets 0).2.1 100 0 t hreach ws hws
  exact ⟨t,hreach,⟨ws,hws,hopen,hspared (by decide),hclocks,hmeasured (by decide)⟩,hsilent⟩

end Heartbeat

end WebSyncPlay
