import WebSyncPlay.RoomSystem

/-! The resolver calls of one playlist item (`services/playlist-resolve.ts`) and what Redis keeps of
them (`yt-dlp/resolve-lease.ts`): processes that crash, a lease, and the set of pending resolves that
the sweeps go through. -/
namespace WebSyncPlay
namespace PendingResolves

open Library TransitionSystem

/-- What a call does next. A sweep looks at the lease, claims the item and writes the room; a join
that has written the room admits its socket; every resolver call enters the inflight set, adds its
member, takes the lease, resolves, commits (again, if the commit throws; first in the `catch`, if the
resolver does), leaves the inflight set and gives up the lease and the member. -/
inductive ResolverPhase
  | listed | unleased | reresolving | admitting
  | enqueued | adding | leasing | resolving | catching | retrying | finishing
  | releasing | removing | ended
  deriving DecidableEq

namespace ResolverPhase

/-- A resolver call, or the handler about to make it, that has not yet attempted its commit. -/
@[simp] def uncommitted : ResolverPhase → Bool
  | .admitting | .enqueued | .adding | .leasing | .resolving | .catching => true
  | _ => false

@[simp] def inflight : ResolverPhase → Bool
  | .adding | .leasing | .resolving | .catching | .retrying | .finishing => true
  | _ => false

/-- The call has its commit behind it, or gives up, and will remove the member. -/
@[simp] def leaving : ResolverPhase → Bool
  | .retrying | .finishing | .releasing | .removing => true
  | _ => false

end ResolverPhase

structure ResolverCall where
  process : ℕ
  retryUntilPresent : Bool
  phase : ResolverPhase
  deriving DecidableEq

def crashed (process : ℕ) (call : ResolverCall) : ResolverCall :=
  if call.process = process then { call with phase := .ended } else call

/-- The stored room; the processes whose inflight set has the item; whether the pending set has it,
who holds the lease, and whether a sweep has claimed it. -/
structure ResolverState where
  room : Option RoomState
  inflight : List ℕ
  pending : Bool
  lease : Option ℕ
  claimed : Bool
  calls : List ResolverCall
  deriving DecidableEq

inductive ResolverEvent
  | proceeds
  | abandons
  | writes (now : ℕ)
  | commits (outcome : ResolveOutcome) (now : ℕ)
  | updateThrows
  | resolverThrows
  deriving DecidableEq

variable (env : Env) (itemId : ItemId)

def waiting (room : Option RoomState) : Bool :=
  (room.bind fun state => findItem state itemId).any fun item =>
    item.sourceKind == .remoteUrl && item.ingestStatus == some .resolving

/-- The room has the item, and it may be resolved again. -/
def resolvable (room : Option RoomState) : Bool :=
  (room.bind fun state => findItem state itemId).any canRetryRemotePlaylistItem

namespace ResolverState

variable (s : ResolverState)

def setPhase (n : ℕ) (call : ResolverCall) (phase : ResolverPhase) : ResolverState :=
  { s with calls := s.calls.set n { call with phase } }

def reresolved (now : ℕ) : Option RoomState :=
  (s.room.bind (reresolveRemotePlaylistItem itemId now)).or s.room

def committed (call : ResolverCall) (outcome : ResolveOutcome) (now : ℕ) : Option RoomState :=
  (s.room.bind (commitResolvingItem env itemId outcome call.retryUntilPresent now)).or s.room

def runCall (n : ℕ) (call : ResolverCall) (event : ResolverEvent) : Option ResolverState :=
  match call.phase, event with
  | .listed, .proceeds =>
    some (s.setPhase n call (if s.lease.isSome then .ended else .unleased))
  | .unleased, .proceeds =>
    if s.claimed then some (s.setPhase n call .ended)
    else some { s.setPhase n call .reresolving with claimed := true }
  | .reresolving, .writes now =>
    if resolvable itemId s.room then
      some { s.setPhase n call .enqueued with room := s.reresolved itemId now }
    else some (s.setPhase n call .releasing)
  | .reresolving, .updateThrows => some (s.setPhase n call .releasing)
  | .admitting, .proceeds => some (s.setPhase n call .enqueued)
  | .admitting, .abandons => some (s.setPhase n call .ended)
  | .enqueued, .proceeds =>
    if call.process ∈ s.inflight then some (s.setPhase n call .ended)
    else some { s.setPhase n call .adding with inflight := call.process :: s.inflight }
  | .adding, .proceeds => some { s.setPhase n call .leasing with pending := true }
  | .leasing, .proceeds => some { s.setPhase n call .resolving with lease := some n }
  | .resolving, .resolverThrows => some (s.setPhase n call .catching)
  | .resolving, .commits outcome now =>
    some { s.setPhase n call .finishing with room := s.committed env itemId call outcome now }
  | .resolving, .updateThrows => some (s.setPhase n call .retrying)
  | .catching, .commits outcome now =>
    some { s.setPhase n call .finishing with room := s.committed env itemId call outcome now }
  | .catching, .updateThrows => some (s.setPhase n call .finishing)
  | .retrying, .commits outcome now =>
    some { s.setPhase n call .finishing with room := s.committed env itemId call outcome now }
  | .retrying, .updateThrows => some (s.setPhase n call .finishing)
  | .finishing, .proceeds =>
    some { s.setPhase n call .releasing with
      inflight := s.inflight.filter fun process => process ≠ call.process }
  | .releasing, .proceeds => some { s.setPhase n call .removing with lease := none }
  | .removing, .proceeds => some { s.setPhase n call .ended with pending := false }
  | _, _ => none

def spawn (process : ℕ) (retryUntilPresent : Bool) (phase : ResolverPhase) : ResolverState :=
  { s with calls := s.calls++[⟨process,retryUntilPresent,phase⟩] }

end ResolverState

/-- A handler of a process writes the room, or calls the resolver for an item that it has seen
waiting; a sweep sees the member; a call goes on; a process crashes; keys expire. -/
inductive ResolverAction
  | write (process : ℕ) (op : RoomOp)
  | destroy
  | kick (process : ℕ) (retryUntilPresent : Bool)
  | sweep (process : ℕ)
  | run (n : ℕ) (event : ResolverEvent)
  | crash (process : ℕ)
  | leaseExpires
  | claimExpires

/-- The write that makes an item wait is that of a handler (an added URL, a new room, a retry, a stale
upstream), which goes on to resolve it; a join does so once its socket is admitted, or is aborted. -/
def resolverStep (s : ResolverState) : ResolverAction → Option ResolverState
  | .write process op =>
    if op.Fresh s.room then
      (op.commit env s.room).map fun next =>
        if !waiting itemId s.room && waiting itemId (some next) then
          { s.spawn process op.isJoin (if op.isJoin then .admitting else .enqueued) with
            room := some next }
        else { s with room := some next }
    else none
  | .destroy => some { s with room := none }
  | .kick process retryUntilPresent => some (s.spawn process retryUntilPresent .enqueued)
  | .sweep process => if s.pending then some (s.spawn process false .listed) else none
  | .run n event => s.calls[n]?.bind fun call => s.runCall env itemId n call event
  | .crash process =>
    some { s with
      inflight := s.inflight.filter fun p => p ≠ process
      calls := s.calls.map (crashed process) }
  | .leaseExpires => some { s with lease := none }
  | .claimExpires => some { s with claimed := false }

/-- An item from before it is added. -/
def resolverSystem : TransitionSystem ResolverState ResolverAction where
  init s := s = ⟨none,[],false,none,false,[]⟩
  step s action s' := resolverStep env itemId s action = some s'

/-- An item that waits has a resolver call that has still to attempt its commit, or a member for the
sweeps. -/
def NotLost (s : ResolverState) : Prop :=
  waiting itemId s.room = true →
    (∃ call ∈ s.calls, call.phase.uncommitted = true) ∨ s.pending = true

def Released (s : ResolverState) : Prop := ∀ call ∈ s.calls, call.phase.leaving = false

/-- A write makes the item wait only when no member is still to be removed; a sweep gives up on no item
that waits; a join is aborted on one only if there is the member or another call; and a commit throws
on none, unless it will be tried again and the member is there. -/
def CarefulRun (s : ResolverState) (call : ResolverCall) : ResolverEvent → Prop
  | .writes _ =>
    if resolvable itemId s.room then waiting itemId s.room = false → Released s
    else waiting itemId s.room = false
  | .updateThrows =>
    waiting itemId s.room = true → call.phase = .resolving ∧ s.pending = true
  | .abandons => waiting itemId s.room = true → s.pending = true ∨
    ∃ other ∈ s.calls, other ≠ call ∧ other.phase.uncommitted = true
  | _ => True

/-- Also, a crash ends no call that has still to attempt its commit while the item waits without a
member. -/
def Careful (s : ResolverState) : ResolverAction → Prop
  | .write _ op => ∀ next ∈ op.commit env s.room, waiting itemId s.room = false →
      waiting itemId (some next) = true → Released s
  | .run n event => ∀ call ∈ s.calls[n]?, CarefulRun itemId s call event
  | .crash process => waiting itemId s.room = true →
      (∃ call ∈ s.calls, call.process = process ∧ call.phase.uncommitted = true) → s.pending = true
  | _ => True

section Item

variable {env} {itemId} {room : Option RoomState} {now : ℕ}

theorem findItem_touch_update (state : RoomState) (f : PlaylistItem → PlaylistItem)
    (hid : ∀ item, (f item).id = item.id) :
    findItem (touchRoomStructural (updateItem state itemId f) now) itemId =
      (findItem state itemId).map f := by
  rw [findItem,touchRoomStructural_playlist,updateItem_playlist]
  apply find?_modifyFirst
  intro item hitem
  rw [hid]
  exact hitem

theorem mutateItem_settles (outcome : ResolveOutcome) (item : PlaylistItem) :
    (outcome.mutateItem env item).ingestStatus ≠ some .resolving := by
  cases outcome with
  | resolved media preferredTitle => simp [ResolveOutcome.mutateItem]
  | failed message => simp [ResolveOutcome.mutateItem]

theorem waiting_some (state : RoomState) :
    waiting itemId (some state) = (findItem state itemId).any fun item =>
      item.sourceKind == .remoteUrl && item.ingestStatus == some .resolving := rfl

theorem waiting_committed (s : ResolverState) (call : ResolverCall) (outcome : ResolveOutcome)
    (now : ℕ) : waiting itemId (s.committed env itemId call outcome now) = false := by
  rw [ResolverState.committed]
  cases s.room with
  | none => rfl
  | some state =>
    rw [Option.bind_some,commitResolvingItem]
    cases hfind : findItem state itemId with
    | none =>
      cases call.retryUntilPresent <;> simp [waiting_some,hfind]
    | some item =>
      by_cases hstatus : item.ingestStatus = some .resolving
      · simp only [hstatus,if_true,Option.some_or]
        rw [waiting_some,findItem_touch_update state (outcome.mutateItem env)
          fun item => (outcome.mutateItem_frame env item).1,hfind]
        simp [mutateItem_settles]
      · cases call.retryUntilPresent <;> simp [waiting_some,hfind,hstatus]

end Item

section Invariant

variable {env} {itemId} {s s' : ResolverState}

/-- An item that waits is covered, and of the calls that will remove its member there are only such as
will commit once more before, with the member there. -/
structure ResolveInvariant (itemId : ItemId) (s : ResolverState) : Prop where
  covered : NotLost itemId s
  settled : waiting itemId s.room = true → ∀ call ∈ s.calls, call.phase.leaving = true →
    call.phase = .retrying ∧ s.pending = true
  inflight : ∀ process ∈ s.inflight, ∃ call ∈ s.calls,
    call.process = process ∧ call.phase.inflight = true

theorem ResolveInvariant.advance (h : ResolveInvariant itemId s) {n : ℕ} {call : ResolverCall}
    {phase : ResolverPhase} (hcall : s.calls[n]? = some call)
    (hcalls : s'.calls = s.calls.set n { call with phase })
    (hwaiting : waiting itemId s'.room = true → waiting itemId s.room = true)
    (hpending : waiting itemId s'.room = true → s.pending = true → s'.pending = true)
    (hcovered : waiting itemId s'.room = true → call.phase.uncommitted = true →
      phase.uncommitted = true ∨ s'.pending = true ∨
        ∃ other ∈ s.calls, other ≠ call ∧ other.phase.uncommitted = true)
    (hleaving : waiting itemId s'.room = true → phase.leaving = true →
      phase = .retrying ∧ s'.pending = true)
    (hinflight : ∀ process ∈ s'.inflight, (call.process = process ∧ phase.inflight = true) ∨
      process ∈ s.inflight ∧ ¬(call.process = process ∧ call.phase.inflight = true)) :
    ResolveInvariant itemId s' := by
  have hlt : n < s.calls.length := (List.getElem?_eq_some_iff.mp hcall).1
  have hself : { call with phase } ∈ s'.calls := by
    rw [hcalls]
    exact List.mem_set hlt _
  have hother : ∀ other ∈ s.calls, other ≠ call → other ∈ s'.calls := by
    intro other hmem hne
    rw [hcalls]
    exact (eq_or_mem_set hcall hmem).resolve_left hne
  constructor
  · intro hwaits
    cases h.covered (hwaiting hwaits) with
    | inl hlive =>
      obtain ⟨other,hmem,huncommitted⟩ := hlive
      by_cases heq : other = call
      · subst heq
        rcases hcovered hwaits huncommitted with hphase | hmember | ⟨third,hthird,hne,hlive⟩
        · exact .inl ⟨{ other with phase },hself,hphase⟩
        · exact .inr hmember
        · exact .inl ⟨third,hother third hthird hne,hlive⟩
      · exact .inl ⟨other,hother other hmem heq,huncommitted⟩
    | inr hmember => exact .inr (hpending hwaits hmember)
  · intro hwaits other hmem hleaves
    rw [hcalls] at hmem
    cases List.mem_or_eq_of_mem_set hmem with
    | inl hold =>
      obtain ⟨hretrying,hmember⟩ := h.settled (hwaiting hwaits) other hold hleaves
      exact ⟨hretrying,hpending hwaits hmember⟩
    | inr heq =>
      subst heq
      exact hleaving hwaits hleaves
  · intro process hprocess
    cases hinflight process hprocess with
    | inl hsame => exact ⟨{ call with phase },hself,hsame⟩
    | inr hold =>
      obtain ⟨other,hmem,hinside⟩ := h.inflight process hold.1
      have hne : other ≠ call := by
        intro heq
        exact hold.2 (heq ▸ hinside)
      exact ⟨other,hother other hmem hne,hinside⟩

theorem resolveInvariant_arise (hreleased : Released s)
    (hcovered : ∃ call ∈ s'.calls, call.phase.uncommitted = true)
    (hnew : ∀ call ∈ s'.calls, call ∈ s.calls ∨ call.phase.leaving = false)
    (hinflight : ∀ process ∈ s'.inflight, ∃ call ∈ s'.calls,
      call.process = process ∧ call.phase.inflight = true) :
    ResolveInvariant itemId s' := by
  constructor
  · intro _
    exact .inl hcovered
  · intro _ call hmem hleaves
    cases hnew call hmem with
    | inl hold =>
      rw [hreleased call hold] at hleaves
      cases hleaves
    | inr hbegins =>
      rw [hbegins] at hleaves
      cases hleaves
  · exact hinflight

theorem ResolveInvariant.quiet (h : ResolveInvariant itemId s) {n : ℕ} {call : ResolverCall}
    {phase : ResolverPhase} (hcall : s.calls[n]? = some call)
    (hcalls : s'.calls = s.calls.set n { call with phase }) (hroom : s'.room = s.room)
    (hpending : s'.pending = s.pending) (hinflight : s'.inflight = s.inflight)
    (hcovered : waiting itemId s.room = true → call.phase.uncommitted = true →
      phase.uncommitted = true ∨ s.pending = true ∨
        ∃ other ∈ s.calls, other ≠ call ∧ other.phase.uncommitted = true)
    (hleaving : waiting itemId s.room = true → phase.leaving = true →
      phase = .retrying ∧ s.pending = true)
    (hinside : call.phase.inflight = true → phase.inflight = true) :
    ResolveInvariant itemId s' := by
  refine h.advance hcall hcalls ?_ ?_ ?_ ?_ ?_
  · rw [hroom]
    exact id
  · rw [hpending]
    exact fun _ hmember => hmember
  · rw [hroom,hpending]
    exact hcovered
  · rw [hroom,hpending]
    exact hleaving
  · rw [hinflight]
    intro process hprocess
    by_cases hcaller : call.process = process ∧ call.phase.inflight = true
    · exact .inl ⟨hcaller.1,hinside hcaller.2⟩
    · exact .inr ⟨hprocess,hcaller⟩

theorem ResolveInvariant.commit (h : ResolveInvariant itemId s) {n : ℕ} {call : ResolverCall}
    (hcall : s.calls[n]? = some call) (outcome : ResolveOutcome) (now : ℕ) :
    ResolveInvariant itemId { s.setPhase n call .finishing with
      room := s.committed env itemId call outcome now } := by
  have hsettled : ¬waiting itemId (s.committed env itemId call outcome now) = true := by
    rw [waiting_committed]
    exact Bool.false_ne_true
  refine h.advance hcall rfl (fun hwaits => absurd hwaits hsettled)
    (fun hwaits => absurd hwaits hsettled) (fun hwaits => absurd hwaits hsettled)
    (fun hwaits => absurd hwaits hsettled) ?_
  intro process hprocess
  by_cases hcaller : call.process = process
  · exact .inl ⟨hcaller,rfl⟩
  · exact .inr ⟨hprocess,fun hboth => hcaller hboth.1⟩

theorem ResolveInvariant.dedupe (h : ResolveInvariant itemId s) {call : ResolverCall}
    (hphase : call.phase = .enqueued) (hinside : call.process ∈ s.inflight)
    (hwaits : waiting itemId s.room = true) :
    s.pending = true ∨ ∃ other ∈ s.calls, other ≠ call ∧ other.phase.uncommitted = true := by
  obtain ⟨other,hmem,-,hinflight⟩ := h.inflight call.process hinside
  have hne : other ≠ call := by
    intro heq
    rw [heq,hphase] at hinflight
    cases hinflight
  cases hleaving : other.phase.leaving with
  | true => exact .inl (h.settled hwaits other hmem hleaving).2
  | false =>
    refine .inr ⟨other,hmem,hne,?_⟩
    revert hinflight hleaving
    cases other.phase <;> simp [ResolverPhase.inflight,ResolverPhase.leaving,
      ResolverPhase.uncommitted]

theorem ResolveInvariant.reresolve (h : ResolveInvariant itemId s) {n : ℕ} {call : ResolverCall}
    (hcall : s.calls[n]? = some call) (hphase : call.phase = .reresolving)
    (hcareful : waiting itemId s.room = false → Released s) (now : ℕ) :
    ResolveInvariant itemId { s.setPhase n call .enqueued with room := s.reresolved itemId now } := by
  have hlt : n < s.calls.length := (List.getElem?_eq_some_iff.mp hcall).1
  have hkept : ∀ process ∈ s.inflight, (call.process = process ∧ ResolverPhase.enqueued.inflight = true) ∨
      process ∈ s.inflight ∧ ¬(call.process = process ∧ call.phase.inflight = true) := by
    intro process hprocess
    refine .inr ⟨hprocess,?_⟩
    simp [hphase]
  cases hwaits : waiting itemId s.room with
  | true =>
    refine h.advance hcall rfl (fun _ => hwaits) (fun _ hmember => hmember) ?_ ?_ hkept
    · intro _ _
      exact .inl rfl
    · intro _ hleaves
      cases hleaves
  | false =>
    refine resolveInvariant_arise (hcareful hwaits) ?_ ?_ ?_
    · exact ⟨{ call with phase := .enqueued },List.mem_set hlt _,rfl⟩
    · intro other hmem
      cases List.mem_or_eq_of_mem_set hmem with
      | inl hold => exact .inl hold
      | inr heq =>
        rw [heq]
        exact .inr rfl
    · intro process hprocess
      obtain ⟨other,hmem,hcaller,hinside⟩ := h.inflight process hprocess
      refine ⟨other,(eq_or_mem_set hcall hmem).resolve_left ?_,hcaller,hinside⟩
      rintro rfl
      rw [hphase] at hinside
      cases hinside

theorem inflight_kept {call : ResolverCall} {phase : ResolverPhase}
    (hinflight : s'.inflight = s.inflight) (hinside : call.phase.inflight = true → phase.inflight = true) :
    ∀ process ∈ s'.inflight, (call.process = process ∧ phase.inflight = true) ∨
      process ∈ s.inflight ∧ ¬(call.process = process ∧ call.phase.inflight = true) := by
  intro process hprocess
  rw [hinflight] at hprocess
  by_cases hcaller : call.process = process ∧ call.phase.inflight = true
  · exact .inl ⟨hcaller.1,hinside hcaller.2⟩
  · exact .inr ⟨hprocess,hcaller⟩

theorem ResolveInvariant.run (h : ResolveInvariant itemId s) {n : ℕ} {call : ResolverCall}
    {event : ResolverEvent} (hcall : s.calls[n]? = some call)
    (hcareful : CarefulRun itemId s call event)
    (hstep : s.runCall env itemId n call event = some s') : ResolveInvariant itemId s' := by
  have hmem : call ∈ s.calls := List.mem_of_getElem? hcall
  have hsettled := fun hwaits => h.settled hwaits call hmem
  obtain ⟨caller,retryUntilPresent,phase⟩ := call
  cases phase with
  | listed =>
    cases event with
    | proceeds =>
      cases hstep
      refine h.quiet hcall rfl rfl rfl rfl (by simp) ?_ (by simp)
      intro _ hleaves
      split at hleaves
      · cases hleaves
      · cases hleaves
    | _ => cases hstep
  | unleased =>
    cases event with
    | proceeds =>
      simp only [ResolverState.runCall] at hstep
      split at hstep
      · cases hstep
        exact h.quiet hcall rfl rfl rfl rfl (by simp) (by simp) (by simp)
      · cases hstep
        exact h.quiet hcall rfl rfl rfl rfl (by simp) (by simp) (by simp)
    | _ => cases hstep
  | reresolving =>
    cases event with
    | writes now =>
      simp only [ResolverState.runCall] at hstep
      rw [CarefulRun] at hcareful
      split at hstep
      · rename_i hresolvable
        rw [if_pos hresolvable] at hcareful
        cases hstep
        exact h.reresolve hcall rfl hcareful now
      · rename_i hresolvable
        rw [if_neg hresolvable] at hcareful
        cases hstep
        exact h.quiet hcall rfl rfl rfl rfl (by simp) (by simp [hcareful]) (by simp)
    | updateThrows =>
      cases hstep
      refine h.quiet hcall rfl rfl rfl rfl (by simp) ?_ (by simp)
      intro hwaits _
      cases (hcareful hwaits).1
    | _ => cases hstep
  | admitting =>
    cases event with
    | proceeds =>
      cases hstep
      exact h.quiet hcall rfl rfl rfl rfl (by simp) (by simp) (by simp)
    | abandons =>
      cases hstep
      exact h.quiet hcall rfl rfl rfl rfl (fun hwaits _ => .inr (hcareful hwaits)) (by simp)
        (by simp)
    | _ => cases hstep
  | enqueued =>
    cases event with
    | proceeds =>
      simp only [ResolverState.runCall] at hstep
      split at hstep
      · rename_i hinside
        cases hstep
        refine h.quiet hcall rfl rfl rfl rfl ?_ (by simp) (by simp)
        intro hwaits _
        exact .inr (h.dedupe rfl hinside hwaits)
      · cases hstep
        refine h.advance hcall rfl id (fun _ hmember => hmember) (by simp) (by simp) ?_
        intro process hprocess
        cases List.mem_cons.mp hprocess with
        | inl heq => exact .inl ⟨heq.symm,rfl⟩
        | inr hold => exact .inr ⟨hold,by simp⟩
    | _ => cases hstep
  | adding =>
    cases event with
    | proceeds =>
      cases hstep
      refine h.advance hcall rfl id (fun _ _ => rfl) (by simp) (by simp) ?_
      exact inflight_kept rfl fun _ => rfl
    | _ => cases hstep
  | leasing =>
    cases event with
    | proceeds =>
      cases hstep
      exact h.quiet hcall rfl rfl rfl rfl (by simp) (by simp) (by simp)
    | _ => cases hstep
  | resolving =>
    cases event with
    | resolverThrows =>
      cases hstep
      exact h.quiet hcall rfl rfl rfl rfl (by simp) (by simp) (by simp)
    | commits outcome now =>
      cases hstep
      exact h.commit hcall outcome now
    | updateThrows =>
      cases hstep
      refine h.quiet hcall rfl rfl rfl rfl ?_ ?_ (by simp)
      · intro hwaits _
        exact .inr (.inl (hcareful hwaits).2)
      · intro hwaits _
        exact ⟨rfl,(hcareful hwaits).2⟩
    | _ => cases hstep
  | catching =>
    cases event with
    | commits outcome now =>
      cases hstep
      exact h.commit hcall outcome now
    | updateThrows =>
      cases hstep
      refine h.quiet hcall rfl rfl rfl rfl ?_ ?_ (by simp)
      · intro hwaits _
        cases (hcareful hwaits).1
      · intro hwaits _
        cases (hcareful hwaits).1
    | _ => cases hstep
  | retrying =>
    cases event with
    | commits outcome now =>
      cases hstep
      exact h.commit hcall outcome now
    | updateThrows =>
      cases hstep
      refine h.quiet hcall rfl rfl rfl rfl (by simp) ?_ (by simp)
      intro hwaits _
      cases (hcareful hwaits).1
    | _ => cases hstep
  | finishing =>
    cases event with
    | proceeds =>
      cases hstep
      refine h.advance hcall rfl id (fun _ hmember => hmember) (by simp) ?_ ?_
      · intro hwaits _
        cases (hsettled hwaits rfl).1
      · intro process hprocess
        obtain ⟨hold,hne⟩ := List.mem_filter.mp hprocess
        refine .inr ⟨hold,?_⟩
        rintro ⟨rfl,-⟩
        simp at hne
    | _ => cases hstep
  | releasing =>
    cases event with
    | proceeds =>
      cases hstep
      refine h.quiet hcall rfl rfl rfl rfl (by simp) ?_ (by simp)
      intro hwaits _
      cases (hsettled hwaits rfl).1
    | _ => cases hstep
  | removing =>
    cases event with
    | proceeds =>
      cases hstep
      refine h.advance hcall rfl id ?_ (by simp) (by simp) (inflight_kept rfl (by simp))
      intro hwaits _
      cases (hsettled hwaits rfl).1
    | _ => cases hstep
  | ended => cases event with
    | _ => cases hstep

theorem ResolveInvariant.of_same (h : ResolveInvariant itemId s) (hcalls : s'.calls = s.calls)
    (hinflight : s'.inflight = s.inflight) (hpending : s'.pending = s.pending)
    (hwaiting : waiting itemId s'.room = true → waiting itemId s.room = true) :
    ResolveInvariant itemId s' := by
  constructor
  · intro hwaits
    rw [hcalls,hpending]
    exact h.covered (hwaiting hwaits)
  · intro hwaits
    rw [hcalls,hpending]
    exact h.settled (hwaiting hwaits)
  · rw [hcalls,hinflight]
    exact h.inflight

theorem ResolveInvariant.spawn (h : ResolveInvariant itemId s) (process : ℕ)
    (retryUntilPresent : Bool) {phase : ResolverPhase} (hphase : phase.leaving = false) :
    ResolveInvariant itemId (s.spawn process retryUntilPresent phase) := by
  have hold : ∀ call ∈ s.calls, call ∈ (s.spawn process retryUntilPresent phase).calls :=
    fun call hmem => List.mem_append_left _ hmem
  constructor
  · intro hwaits
    cases h.covered hwaits with
    | inl hlive =>
      obtain ⟨call,hmem,huncommitted⟩ := hlive
      exact .inl ⟨call,hold call hmem,huncommitted⟩
    | inr hmember => exact .inr hmember
  · intro hwaits call hmem hleaves
    cases List.mem_append.mp hmem with
    | inl hcall => exact h.settled hwaits call hcall hleaves
    | inr hnew =>
      rw [List.mem_singleton.mp hnew] at hleaves
      rw [hphase] at hleaves
      cases hleaves
  · intro p hp
    obtain ⟨call,hmem,hinside⟩ := h.inflight p hp
    exact ⟨call,hold call hmem,hinside⟩

theorem ResolveInvariant.enqueue (h : ResolveInvariant itemId s) (hreleased : Released s)
    (process : ℕ) (retryUntilPresent : Bool) {phase : ResolverPhase}
    (hphase : phase.uncommitted = true) (hleaves : phase.leaving = false) (next : RoomState) :
    ResolveInvariant itemId { s.spawn process retryUntilPresent phase with
      room := some next } := by
  refine resolveInvariant_arise hreleased ?_ ?_ ?_
  · exact ⟨⟨process,retryUntilPresent,phase⟩,
      List.mem_append_right _ (List.mem_singleton.mpr rfl),hphase⟩
  · intro call hmem
    cases List.mem_append.mp hmem with
    | inl hold => exact .inl hold
    | inr hnew =>
      rw [List.mem_singleton.mp hnew]
      exact .inr hleaves
  · intro p hp
    obtain ⟨call,hmem,hinside⟩ := h.inflight p hp
    exact ⟨call,List.mem_append_left _ hmem,hinside⟩

theorem crashed_of_phase {process : ℕ} {call : ResolverCall}
    (h : (crashed process call).phase ≠ .ended) :
    call.process ≠ process ∧ crashed process call = call := by
  unfold crashed at h ⊢
  split
  · rename_i heq
    rw [if_pos heq] at h
    exact absurd rfl h
  · rename_i hne
    exact ⟨hne,rfl⟩

theorem ResolveInvariant.crash (h : ResolveInvariant itemId s) (process : ℕ)
    (hcareful : waiting itemId s.room = true →
      (∃ call ∈ s.calls, call.process = process ∧ call.phase.uncommitted = true) →
        s.pending = true) :
    ResolveInvariant itemId { s with
      inflight := s.inflight.filter fun p => p ≠ process
      calls := s.calls.map (crashed process) } := by
  have hkept : ∀ call ∈ s.calls, call.process ≠ process → call ∈ s.calls.map (crashed process) := by
    intro call hmem hne
    have hsame : crashed process call = call := if_neg hne
    exact hsame ▸ List.mem_map_of_mem hmem
  constructor
  · intro hwaits
    cases h.covered hwaits with
    | inl hlive =>
      obtain ⟨call,hmem,huncommitted⟩ := hlive
      by_cases hcaller : call.process = process
      · exact .inr (hcareful hwaits ⟨call,hmem,hcaller,huncommitted⟩)
      · exact .inl ⟨call,hkept call hmem hcaller,huncommitted⟩
    | inr hmember => exact .inr hmember
  · intro hwaits call hmem hleaves
    obtain ⟨old,hold,rfl⟩ := List.mem_map.mp hmem
    have hne : (crashed process old).phase ≠ .ended := by
      intro hended
      rw [hended] at hleaves
      cases hleaves
    rw [(crashed_of_phase hne).2] at hleaves ⊢
    exact h.settled hwaits old hold hleaves
  · intro p hp
    obtain ⟨hinside,hne⟩ := List.mem_filter.mp hp
    obtain ⟨call,hmem,rfl,hphase⟩ := h.inflight p hinside
    exact ⟨call,hkept call hmem (of_decide_eq_true hne),rfl,hphase⟩

theorem ResolveInvariant.step (h : ResolveInvariant itemId s) {action : ResolverAction}
    (hcareful : Careful env itemId s action) (hstep : resolverStep env itemId s action = some s') :
    ResolveInvariant itemId s' := by
  cases action with
  | write process op =>
    rw [resolverStep] at hstep
    split at hstep
    · obtain ⟨next,hcommit,hnext⟩ := Option.map_eq_some_iff.mp hstep
      split at hnext
      · rename_i harises
        rw [Bool.and_eq_true,Bool.not_eq_true'] at harises
        subst hnext
        have hreleased := hcareful next hcommit harises.1 harises.2
        cases hjoin : op.isJoin with
        | true => exact h.enqueue hreleased process true rfl rfl next
        | false => exact h.enqueue hreleased process false rfl rfl next
      · rename_i hquiet
        subst hnext
        refine h.of_same rfl rfl rfl fun hwaits => ?_
        by_contra hnot
        rw [Bool.and_eq_true,Bool.not_eq_true'] at hquiet
        exact hquiet ⟨Bool.eq_false_iff.mpr hnot,hwaits⟩
    · cases hstep
  | destroy =>
    cases hstep
    exact h.of_same rfl rfl rfl fun hwaits => absurd hwaits Bool.false_ne_true
  | kick process retryUntilPresent =>
    cases hstep
    exact h.spawn process retryUntilPresent rfl
  | sweep process =>
    rw [resolverStep] at hstep
    split at hstep
    · cases hstep
      exact h.spawn process false rfl
    · cases hstep
  | run n event =>
    obtain ⟨call,hcall,hrun⟩ := Option.bind_eq_some_iff.mp hstep
    exact h.run hcall (hcareful call hcall) hrun
  | crash process =>
    cases hstep
    exact h.crash process hcareful
  | leaseExpires =>
    cases hstep
    exact h.of_same rfl rfl rfl id
  | claimExpires =>
    cases hstep
    exact h.of_same rfl rfl rfl id

end Invariant

section Runs

instance (s : ResolverState) : Decidable (Released s) :=
  inferInstanceAs (Decidable (∀ call ∈ s.calls, call.phase.leaving = false))

instance (s : ResolverState) (call : ResolverCall) (event : ResolverEvent) :
    Decidable (CarefulRun itemId s call event) := by
  cases event <;> unfold CarefulRun <;> infer_instance

instance (s : ResolverState) (action : ResolverAction) : Decidable (Careful env itemId s action) := by
  cases action <;> unfold Careful <;> infer_instance

def filmRoom : RoomOp := .join {
  now := 1000, roomId := "room", userId := "ann", username := "ann",
  avatarStyle := defaultAvatarStyle, activeConnections := {},
  dailyDefaults := [⟨"Film","https://film.example"⟩], newIds := ["film"] }

def crashedRun : List ResolverAction :=
  [.write 1 filmRoom,.run 0 .proceeds,.run 0 .proceeds,.run 0 .proceeds,.run 0 .proceeds,.crash 1]

/-- A film that was not found is tried again on another process before the first call has removed the
member; then that process crashes. -/
def lostRun : List ResolverAction :=
  [.write 1 filmRoom,.run 0 .proceeds,.run 0 .proceeds,.run 0 .proceeds,.run 0 .proceeds,
    .run 0 (.commits (.failed "Failed to resolve metadata") 2000),
    .write 2 (.reresolve "film" 3000),.run 1 .proceeds,.run 1 .proceeds,.run 1 .proceeds,
    .run 0 .proceeds,.run 0 .proceeds,.run 0 .proceeds,.crash 2]

end Runs

end PendingResolves
end WebSyncPlay
