import WebSyncPlay.Cluster

/-! Destruction of empty rooms (`services/empty-room.ts`) against joins under way: when a
committed socket keeps its room, its identity entry and its reference. -/
namespace WebSyncPlay

open Library TransitionSystem

section Needs

/-- The identity that a join has claimed before its reference is added. -/
def ClusterSocket.claimed? (k : ClusterSocket) : Option Membership :=
  match k.base.stage, k.phase with
  | .committing _ _, .claiming => none
  | .committing _ _, .verifying => none
  | .committing target _, _ => some target
  | .adding target, _ => some target
  | _, _ => none

/-- A socket that stands for an identity entry: from the claim on. -/
def NeedsIdentity (k : ClusterSocket) (target : Membership) : Prop :=
  k.claimed? = some target ∨ k.base.stage = .added target ∨ k.base.CommittedTo target

/-- A socket that stands for a stored room: from the room write on. -/
def NeedsRoom (k : ClusterSocket) (target : Membership) : Prop :=
  k.joining? = some target ∧ k.phase = .written ∨ k.base.stage = .adding target ∨
    k.base.stage = .added target ∨ k.base.CommittedTo target

variable {k k' : ClusterSocket} {target : Membership}

theorem heldRefs_of_added {k : PresenceSocket} (h : k.stage = .added target) :
    1 ≤ heldRefs k target := by
  simp only [heldRefs,h,refIf,if_true]
  omega

theorem heldRefs_of_committed {k : PresenceSocket} (hok : SocketOk k) (h : k.CommittedTo target) :
    1 ≤ heldRefs k target := by
  obtain ⟨entry,he,hcommitted,hmember⟩ := h
  have htracked := hok.tracked he hcommitted
  have hentry : entryRef k.meta_ target = 1 := by
    rw [he]
    exact if_pos ⟨htracked,hmember⟩
  obtain ⟨-,-,hstage⟩ := hok
  have hnot : entry.joinCommitted ≠ false := by
    rw [hcommitted]
    exact Bool.noConfusion
  cases hk : k.stage with
  | added | aborting | aborted =>
    simp only [hk] at hstage
    have hfalse := hstage entry he
    first | exact absurd hfalse hnot | exact absurd hfalse.2.1 hnot
  | _ =>
    simp only [heldRefs,hk]
    omega

theorem CommittedTo.of_meta {k k' : PresenceSocket} (h : k'.CommittedTo target)
    (hmeta : k'.meta_ = k.meta_) : k.CommittedTo target := by
  obtain ⟨entry,he,hrest⟩ := h
  exact ⟨entry,hmeta ▸ he,hrest⟩

theorem CommittedTo.of_tracked {k k' : PresenceSocket} {presenceTracked : Bool}
    (h : k'.CommittedTo target)
    (hmeta : k'.meta_ = setSocketPresenceTracked presenceTracked k.meta_) :
    k.CommittedTo target := by
  obtain ⟨entry',he',hcommitted,hmember⟩ := h
  obtain ⟨entry,he,rfl⟩ := Option.map_eq_some_iff.mp (hmeta.symm.trans he')
  exact ⟨entry,he,hcommitted,hmember⟩

def Quiet (k : ClusterSocket) : Prop :=
  match k.base.stage with
  | .committing _ _ => k.phase = .claiming
  | .adding _ => False
  | .added _ => False
  | _ => True

theorem Quiet.committed (h : Quiet k) : (NeedsIdentity k target → k.base.CommittedTo target) ∧
    (NeedsRoom k target → k.base.CommittedTo target) := by
  cases hk : k.base.stage with
  | committing goal tracked =>
    have hclaiming : k.phase = .claiming := by simpa only [Quiet,hk] using h
    simp [NeedsIdentity,NeedsRoom,ClusterSocket.claimed?,ClusterSocket.joining?,hk,hclaiming]
  | adding | added =>
    simp only [Quiet,hk] at h
  | _ => simp [NeedsIdentity,NeedsRoom,ClusterSocket.claimed?,ClusterSocket.joining?,hk]

theorem needs_of_committed (h : k.base.CommittedTo target) :
    NeedsIdentity k target ∧ NeedsRoom k target :=
  ⟨Or.inr (Or.inr h),Or.inr (Or.inr (Or.inr h))⟩

theorem plain_needs {event : SocketEvent} {change : RefChange} (hok : SocketOk k.base)
    (hphase : PhaseOk k) (hplain : isPlainEvent k event = true)
    (h : stepClusterSocket k event = some (k',change)) :
    (NeedsIdentity k' target → NeedsIdentity k target) ∧
      (NeedsRoom k' target → NeedsRoom k target) := by
  obtain ⟨⟨base,_⟩,hstep,he⟩ := Option.map_eq_some_iff.mp h
  have hbase : k'.base = base := by
    cases he
    rfl
  have hsame : k'.phase = k.phase := by
    cases he
    rfl
  clear he h
  -- Where stage and registry entry are kept, all is kept.
  have hkeep : base.stage = k.base.stage → (base.meta_ = k.base.meta_ ∨ base.meta_ = none) →
      (NeedsIdentity k' target → NeedsIdentity k target) ∧
      (NeedsRoom k' target → NeedsRoom k target) := by
    intro hstage hmeta
    have hc : k'.base.CommittedTo target → k.base.CommittedTo target := by
      rintro ⟨entry,he,hrest⟩
      rw [hbase] at he
      rcases hmeta with hmeta | hmeta
      · exact ⟨entry,hmeta ▸ he,hrest⟩
      · rw [hmeta] at he
        cases he
    rw [← hbase] at hstage
    constructor
    · simp only [NeedsIdentity,ClusterSocket.claimed?,hstage,hsame]
      exact Or.imp_right (Or.imp_right hc)
    · simp only [NeedsRoom,ClusterSocket.joining?,hstage,hsame]
      exact Or.imp_right (Or.imp_right (Or.imp_right hc))
  -- Where nothing is claimed afterwards, only what the registry holds counts.
  have hquiet : Quiet k' →
      (k'.base.CommittedTo target → NeedsIdentity k target ∧ NeedsRoom k target) →
      (NeedsIdentity k' target → NeedsIdentity k target) ∧
      (NeedsRoom k' target → NeedsRoom k target) := fun hq hc =>
    ⟨fun hn => (hc (hq.committed.1 hn)).1,fun hn => (hc (hq.committed.2 hn)).2⟩
  have hmeta : base.meta_ = k.base.meta_ →
      (k'.base.CommittedTo target → NeedsIdentity k target ∧ NeedsRoom k target) := by
    intro hmeta hc
    exact needs_of_committed (CommittedTo.of_meta hc (by rw [hbase,hmeta]))
  have htracked : ∀ tracked, base.meta_ = setSocketPresenceTracked tracked k.base.meta_ →
      (k'.base.CommittedTo target → NeedsIdentity k target ∧ NeedsRoom k target) := by
    intro tracked hmeta hc
    exact needs_of_committed (CommittedTo.of_tracked hc (by rw [hbase,hmeta]))
  have hgone : base.meta_ = none →
      (k'.base.CommittedTo target → NeedsIdentity k target ∧ NeedsRoom k target) := by
    rintro hmeta ⟨entry,he,-⟩
    rw [hbase,hmeta] at he
    cases he
  have hclaiming : (∃ t previousMeta, k.base.stage = .admitting t previousMeta) ∨
      (∃ t, k.base.stage = .detached t) → k'.phase = .claiming := by
    rintro (⟨t,previousMeta,hs⟩ | ⟨t,hs⟩) <;>
      exact hsame.trans (by simpa only [PhaseOk,hs] using hphase)
  have hneeds : ∀ {goal tracked}, isPlainEvent k (.commit true) = true →
      k.base.stage = .committing goal tracked → goal = target →
      NeedsIdentity k target ∧ NeedsRoom k target := by
    rintro goal tracked hplain hs rfl
    have hwritten : k.phase = .written := by simpa [isPlainEvent] using hplain
    refine ⟨Or.inl ?_,Or.inl ⟨?_,hwritten⟩⟩
    · simp only [ClusterSocket.claimed?,hs,hwritten]
    · simp only [ClusterSocket.joining?,hs]
  cases stepSocket_cases hstep with
  | join => cases hplain
  | hangUp | leave => exact hkeep rfl (Or.inl rfl)
  | close => exact hkeep rfl (Or.inr rfl)
  | refuse | admitElsewhere | detach | abort => exact hquiet (by simp [Quiet,hbase]) (hmeta rfl)
  | admitFirst hs | admitAgain hs =>
    exact hquiet (by simp [Quiet,hbase,hclaiming (Or.inl ⟨_,_,hs⟩)]) (hmeta rfl)
  | add hs =>
    have hc : k'.base.CommittedTo target → k.base.CommittedTo target := fun hc =>
      CommittedTo.of_meta hc (by rw [hbase])
    constructor
    · simp only [NeedsIdentity,ClusterSocket.claimed?,hbase,hs,reduceCtorEq,false_or,
        Option.some.injEq,JoinStage.added.injEq]
      exact Or.imp_right fun h => hc (hbase ▸ h)
    · simp only [NeedsRoom,ClusterSocket.joining?,hbase,hs,reduceCtorEq,false_or,false_and,
        JoinStage.adding.injEq,JoinStage.added.injEq]
      exact Or.imp_right fun h => hc (hbase ▸ h)
  | detached hs =>
    exact hquiet (by simp [Quiet,hbase,hclaiming (Or.inr ⟨_,hs⟩)]) (htracked false rfl)
  | @added goal hs =>
    have hentry : ∀ entry, k.base.meta_ = some entry → entry.membership = goal := by
      have hstage := hok.2.2
      simp only [hs] at hstage
      exact fun entry he => (hstage entry he).2.2
    -- The join ends: the socket is committed to what was added.
    refine hquiet (by simp [Quiet,hbase]) ?_
    rintro ⟨entry',he',-,hmember⟩
    rw [hbase] at he'
    obtain ⟨mid,hmid,rfl⟩ := Option.map_eq_some_iff.mp he'
    obtain ⟨entry,he,rfl⟩ := Option.map_eq_some_iff.mp hmid
    have hadded : k.base.stage = .added target := by
      rw [hs,← hentry entry he]
      exact congrArg JoinStage.added hmember
    exact ⟨Or.inr (Or.inl hadded),Or.inr (Or.inr (Or.inl hadded))⟩
  | addedLate => exact hquiet (by simp [Quiet,hbase]) (htracked true rfl)
  | aborted | drop => exact hquiet (by simp [Quiet,hbase]) (hgone rfl)
  | fail => cases hplain
  | @enter goal hs =>
    -- The socket is registered without being committed.
    have hc : ¬k'.base.CommittedTo target := by
      rintro ⟨entry,he,hcommitted,-⟩
      rw [hbase] at he
      cases he
      cases hcommitted
    have hadding : k'.base.stage = .adding target → goal = target := by
      rw [hbase]
      exact fun h => JoinStage.adding.inj h
    constructor
    · rintro (hclaimed | hadded | hcommitted)
      · simp only [ClusterSocket.claimed?,hbase,Option.some.injEq] at hclaimed
        exact (hneeds hplain hs hclaimed).1
      · rw [hbase] at hadded
        cases hadded
      · exact absurd hcommitted hc
    · rintro (⟨hjoining,-⟩ | hstage | hadded | hcommitted)
      · simp only [ClusterSocket.joining?,hbase,reduceCtorEq] at hjoining
      · exact (hneeds hplain hs (hadding hstage)).2
      · rw [hbase] at hadded
        cases hadded
      · exact absurd hcommitted hc
  | reenter hs =>
    refine hquiet (by simp [Quiet,hbase]) ?_
    rintro ⟨entry,he,-,hmember⟩
    rw [hbase] at he
    cases he
    exact hneeds hplain hs hmember

end Needs

section System

variable {N S W : Type*} [DecidableEq N] [DecidableEq S] [DecidableEq W]

/-- A deletion that finds no reference to the room and no join between its claim and its
reference; and steps of sockets that move the references right. -/
def keepsLiveRooms (c : Cluster N S W) : ClusterEvent N S W → Prop
  | .socket s event => keepsRefs (c.sockets s).base event = true
  | .destroy d _ =>
    match c.destroyers d with
    | .deleting roomId => hasPresence c roomId = false ∧
        ∀ s, ((c.sockets s).claimed?.all fun target => target.1 != roomId) = true
    | _ => True
  | _ => True

def carefulDestroy (env : Env) (sha256 : String → String) (home : S → N) :
    TransitionSystem (Cluster N S W) (ClusterEvent N S W) :=
  (clusterSystem env sha256 home).restrict keepsLiveRooms

end System

section Invariant

variable {N S W : Type*} [DecidableEq N] [DecidableEq S] [DecidableEq W]
variable {env : Env} {sha256 : String → String} {home : S → N} {c c' : Cluster N S W}

/-- The references that a socket stands for at each node: only at its own. -/
def nodeRefs (home : S → N) (c : Cluster N S W) (s : S) (ref : N × Membership) : ℕ :=
  if home s = ref.1 then heldRefs (c.sockets s).base ref.2 else 0

structure LiveInv (home : S → N) (c : Cluster N S W) : Prop where
  socketOk : ∀ s, SocketOk (c.sockets s).base
  phaseOk : ∀ s, PhaseOk (c.sockets s)
  balanced : Balanced (fun ref => c.refs.count ref) (nodeRefs home c)
  identified : ∀ s target, NeedsIdentity (c.sockets s) target →
    c.identities target.1 target.2 ≠ none
  stored : ∀ s target, NeedsRoom (c.sockets s) target → (c.rooms.get? target.1).isSome = true

omit [DecidableEq S] [DecidableEq W] in
theorem LiveInv.of_frame (h : LiveInv home c) (hrefs : c'.refs = c.refs)
    (hids : ∀ r u, c.identities r u ≠ none → c'.identities r u ≠ none)
    (hrooms : ∀ r, (c.rooms.get? r).isSome = true → (c'.rooms.get? r).isSome = true)
    (hok : ∀ s, SocketOk (c'.sockets s).base ∧ PhaseOk (c'.sockets s) ∧
      ∀ m, heldRefs (c'.sockets s).base m = heldRefs (c.sockets s).base m)
    (hidentity : ∀ s target, NeedsIdentity (c'.sockets s) target →
      NeedsIdentity (c.sockets s) target ∨ c'.identities target.1 target.2 ≠ none)
    (hroom : ∀ s target, NeedsRoom (c'.sockets s) target →
      NeedsRoom (c.sockets s) target ∨ (c'.rooms.get? target.1).isSome = true) :
    LiveInv home c' where
  socketOk s := (hok s).1
  phaseOk s := (hok s).2.1
  balanced := by
    have hheld : nodeRefs home c' = nodeRefs home c := by
      funext s ref
      rw [nodeRefs,nodeRefs,(hok s).2.2]
    rw [hheld,hrefs]
    exact h.balanced
  identified s target hneeds := by
    rcases hidentity s target hneeds with hbefore | hnow
    · exact hids _ _ (h.identified s target hbefore)
    · exact hnow
  stored s target hneeds := by
    rcases hroom s target hneeds with hbefore | hnow
    · exact hrooms _ (h.stored s target hbefore)
    · exact hnow

omit [DecidableEq W] in
theorem LiveInv.of_socket (h : LiveInv home c) {s : S} {k' : ClusterSocket}
    (hsockets : c'.sockets = Function.update c.sockets s k') (hrefs : c'.refs = c.refs)
    (hids : ∀ r u, c.identities r u ≠ none → c'.identities r u ≠ none)
    (hrooms : ∀ r, (c.rooms.get? r).isSome = true → (c'.rooms.get? r).isSome = true)
    (hok : SocketOk k'.base) (hphase : PhaseOk k')
    (hheld : ∀ m, heldRefs k'.base m = heldRefs (c.sockets s).base m)
    (hidentity : ∀ target, NeedsIdentity k' target →
      NeedsIdentity (c.sockets s) target ∨ c'.identities target.1 target.2 ≠ none)
    (hroom : ∀ target, NeedsRoom k' target →
      NeedsRoom (c.sockets s) target ∨ (c'.rooms.get? target.1).isSome = true) :
    LiveInv home c' := by
  have hself : c'.sockets s = k' := by rw [hsockets,Function.update_self]
  have hother : ∀ t, t ≠ s → c'.sockets t = c.sockets t := by
    intro t ht
    rw [hsockets,Function.update_of_ne ht]
  refine h.of_frame hrefs hids hrooms (fun t => ?_) (fun t target => ?_) fun t target => ?_
  · by_cases ht : t = s
    · subst ht
      rw [hself]
      exact ⟨hok,hphase,hheld⟩
    · rw [hother t ht]
      exact ⟨h.socketOk t,h.phaseOk t,fun _ => rfl⟩
  · by_cases ht : t = s
    · subst ht
      rw [hself]
      exact hidentity target
    · rw [hother t ht]
      exact Or.inl
  · by_cases ht : t = s
    · subst ht
      rw [hself]
      exact hroom target
    · rw [hother t ht]
      exact Or.inl

omit [DecidableEq S] [DecidableEq W] in
theorem count_bumpRefs (n : N) (refs : List (N × Membership)) (change : RefChange)
    (ref : N × Membership) (h : n = ref.1 → change.removed ref.2 ≤ refs.count ref) :
    (bumpRefs n refs change).count ref+(if n = ref.1 then change.removed ref.2 else 0) =
      refs.count ref+(if n = ref.1 then change.added ref.2 else 0) := by
  obtain ⟨node,m⟩ := ref
  cases change with
  | keep => simp [bumpRefs,RefChange.removed,RefChange.added]
  | add target =>
    simp only [bumpRefs,List.count_cons,RefChange.removed,RefChange.added,refIf]
    by_cases hn : n = node
    · by_cases hm : target = m
      · simp [hn,hm]
      · simp [hn,hm]
    · simp [hn]
  | remove target =>
    simp only [bumpRefs,List.count_erase,RefChange.removed,RefChange.added,refIf] at h ⊢
    by_cases hn : n = node
    · by_cases hm : target = m
      · have hpos : 1 ≤ refs.count (node,m) := by simpa [hm] using h hn
        have hrest : refs.count (node,m)-1+1 = refs.count (node,m) := Nat.sub_add_cancel hpos
        simpa [hn,hm] using hrest
      · simp [hn,hm]
    · simp [hn]

omit [DecidableEq W] in
theorem LiveInv.reject (h : LiveInv home c) {s : S} {target : Membership}
    (hjoining : (c.sockets s).joining? = some target) :
    LiveInv home (c.setSocket s (c.sockets s).reject) := by
  obtain ⟨tracked,hstage⟩ := ClusterSocket.joining?_eq_some.mp hjoining
  have hstep : stepSocket (c.sockets s).base (.commit false) =
      some ((c.sockets s).reject.base,.keep) := by
    simp only [stepSocket,hstage,Bool.not_false,if_true,ClusterSocket.reject]
  obtain ⟨hok,hmoves⟩ := commit_spec (h.socketOk s) rfl hstep
  have hquiet : Quiet (c.sockets s).reject := trivial
  have hc : ∀ t, (c.sockets s).reject.base.CommittedTo t → (c.sockets s).base.CommittedTo t :=
    fun t hc => CommittedTo.of_meta hc rfl
  refine h.of_socket rfl rfl (fun _ _ => id) (fun _ => id) hok trivial (fun m => ?_)
    (fun t hn => ?_) fun t hn => ?_
  · exact hmoves m
  · exact Or.inl (needs_of_committed (hc t (hquiet.committed.1 hn))).1
  · exact Or.inl (needs_of_committed (hc t (hquiet.committed.2 hn))).2

omit [DecidableEq W] in
theorem LiveInv.advance (h : LiveInv home c) {s : S} {target : Membership} {phase : JoinPhase}
    (hjoining : (c.sockets s).joining? = some target)
    (hsockets : c'.sockets = Function.update c.sockets s { c.sockets s with phase := phase })
    (hrefs : c'.refs = c.refs) (hrooms : c'.rooms = c.rooms) (hwritten : phase ≠ .written)
    (hids : ∀ r u, c.identities r u ≠ none → c'.identities r u ≠ none)
    (hentry : phase = .verifying ∨ c'.identities target.1 target.2 ≠ none) : LiveInv home c' := by
  obtain ⟨tracked,hstage⟩ := ClusterSocket.joining?_eq_some.mp hjoining
  have hphase : PhaseOk { c.sockets s with phase := phase } := by
    simp only [PhaseOk,hstage]
  refine h.of_socket hsockets hrefs hids (fun r => by rw [hrooms]; exact id) (h.socketOk s) hphase
    (fun _ => rfl) (fun t hn => ?_) fun t hn => Or.inl ?_
  · rcases hn with hclaimed | hadded | hc
    · right
      have ht : target = t ∧ phase ≠ .verifying := by
        cases phase <;> simp only [ClusterSocket.claimed?,hstage,reduceCtorEq] at hclaimed <;>
          exact ⟨Option.some.inj hclaimed,by simp⟩
      rw [← ht.1]
      exact hentry.resolve_left ht.2
    · exact Or.inl (Or.inr (Or.inl hadded))
    · exact Or.inl (Or.inr (Or.inr hc))
  · rcases hn with ⟨-,hdone⟩ | hrest
    · exact absurd hdone hwritten
    · exact Or.inr hrest

theorem socket_liveInv (h : LiveInv home c) {s : S} {event : SocketEvent}
    (hcareful : keepsRefs (c.sockets s).base event = true)
    (hs : stepCluster env sha256 home c (.socket s event) = some c') : LiveInv home c' := by
  obtain ⟨hplain,k',change,destroyers,hstep,rfl⟩ := socket_cases hs
  have hneeds := fun target =>
    @plain_needs _ _ target _ _ (h.socketOk s) (h.phaseOk s) hplain hstep
  obtain ⟨⟨base,moved⟩,hbase,he⟩ := Option.map_eq_some_iff.mp hstep
  obtain ⟨hok,hmoves⟩ := stepSocket_spec (h.socketOk s) hcareful hbase
  obtain ⟨hk,hmoved⟩ := Prod.mk.inj he
  subst hmoved
  have hk' : k'.base = base := by rw [← hk]
  constructor
  · intro t
    by_cases ht : t = s
    · subst ht
      simp only [Cluster.setSocket,Function.update_self,hk']
      exact hok
    · simp only [Cluster.setSocket,Function.update_of_ne ht]
      exact h.socketOk t
  · intro t
    by_cases ht : t = s
    · subst ht
      simp only [Cluster.setSocket,Function.update_self]
      exact (plain_phase (h.phaseOk t) hstep hplain).1
    · simp only [Cluster.setSocket,Function.update_of_ne ht]
      exact h.phaseOk t
  · refine h.balanced.update s (fun t ht ref => ?_) fun ref => ?_
    · simp only [nodeRefs,Cluster.setSocket,Function.update_of_ne ht]
    · have hheld := h.balanced.le_count s ref
      have hmove := hmoves ref.2
      simp only [nodeRefs,Cluster.setSocket,Function.update_self,hk'] at hheld ⊢
      have hcount := count_bumpRefs (home s) c.refs moved ref fun hn => by
        rw [if_pos hn] at hheld
        cases moved with
        | remove target =>
          have hadded : (RefChange.remove target).added ref.2 = 0 := rfl
          omega
        | _ => exact Nat.zero_le _
      by_cases hn : home s = ref.1
      · simp only [if_pos hn] at hheld hcount ⊢
        omega
      · simp only [if_neg hn] at hheld hcount ⊢
        omega
  · intro t target hn
    by_cases ht : t = s
    · subst ht
      simp only [Cluster.setSocket,Function.update_self] at hn
      exact h.identified t target ((hneeds target).1 hn)
    · simp only [Cluster.setSocket,Function.update_of_ne ht] at hn
      exact h.identified t target hn
  · intro t target hn
    by_cases ht : t = s
    · subst ht
      simp only [Cluster.setSocket,Function.update_self] at hn
      exact h.stored t target ((hneeds target).2 hn)
    · simp only [Cluster.setSocket,Function.update_of_ne ht] at hn
      exact h.stored t target hn

omit [DecidableEq S] [DecidableEq W] in
/-- The deletion of a room that nobody stands for. -/
theorem deleteRoom_liveInv (h : LiveInv home c) {roomId : String}
    (hpresence : hasPresence c roomId = false)
    (hclaimed : ∀ s, ((c.sockets s).claimed?.all fun target => target.1 != roomId) = true) :
    LiveInv home (deleteRoom c roomId) := by
  have hnone : ∀ ref ∈ c.refs, ref.2.1 ≠ roomId := by
    intro ref href hroom
    have hany : hasPresence c roomId = true :=
      List.any_eq_true.mpr ⟨ref,href,beq_iff_eq.mpr hroom⟩
    rw [hpresence] at hany
    cases hany
  have hrefs : (deleteRoom c roomId).refs = c.refs :=
    List.filter_eq_self.mpr fun ref href => bne_iff_ne.mpr (hnone ref href)
  -- A held reference is counted, so there is none to this room.
  have hheld : ∀ s target, 1 ≤ heldRefs (c.sockets s).base target → target.1 ≠ roomId := by
    intro s target hpos
    have hcount := h.balanced.le_count s (home s,target)
    simp only [nodeRefs,if_true] at hcount
    exact hnone (home s,target) (List.count_pos_iff.mp (by omega))
  have hidentity : ∀ s target, NeedsIdentity (c.sockets s) target → target.1 ≠ roomId := by
    rintro s target (hclaim | hadded | hc)
    · have hall := hclaimed s
      rw [hclaim] at hall
      exact bne_iff_ne.mp hall
    · exact hheld s target (heldRefs_of_added hadded)
    · exact hheld s target (heldRefs_of_committed (h.socketOk s) hc)
  have hroom : ∀ s target, NeedsRoom (c.sockets s) target → NeedsIdentity (c.sockets s) target := by
    rintro s target (⟨hjoining,hwritten⟩ | hadding | hadded | hc)
    · obtain ⟨tracked,hstage⟩ := ClusterSocket.joining?_eq_some.mp hjoining
      exact Or.inl (by simp only [ClusterSocket.claimed?,hstage,hwritten])
    · exact Or.inl (by simp only [ClusterSocket.claimed?,hadding])
    · exact Or.inr (Or.inl hadded)
    · exact Or.inr (Or.inr hc)
  constructor
  · exact h.socketOk
  · exact h.phaseOk
  · have hsame : nodeRefs home (deleteRoom c roomId) = nodeRefs home c := rfl
    rw [hsame,hrefs]
    exact h.balanced
  · intro s target hn
    have hne := hidentity s target hn
    simp only [deleteRoom,Function.update_of_ne hne]
    exact h.identified s target hn
  · intro s target hn
    have hne := hidentity s target (hroom s target hn)
    have hget : (c.rooms.erase roomId).get? target.1 = c.rooms.get? target.1 := by
      rw [Record.get?_erase,if_neg hne]
    simp only [deleteRoom,hget]
    exact h.stored s target hn

omit [DecidableEq N] [DecidableEq S] [DecidableEq W] in
theorem isSome_set {rooms : Record String RoomState} {roomId r : String} {next : RoomState}
    (h : (rooms.get? r).isSome = true) : ((rooms.set roomId next).get? r).isSome = true := by
  rw [Record.get?_set]
  split
  · rfl
  · exact h

theorem evict_base (k : ClusterSocket) (hok : SocketOk k.base) :
    SocketOk k.evict.base ∧ (∀ m, heldRefs k.evict.base m = heldRefs k.base m) ∧
      k.evict.base.stage = k.base.stage ∧ k.evict.base.meta_ = k.base.meta_ ∧
      k.evict.phase = k.phase := by
  unfold ClusterSocket.evict
  split
  · rename_i hopen
    have hstep : stepSocket k.base .hangUp = some ({ k.base with link := .closing },.keep) := by
      simp only [stepSocket,hopen,if_true]
    obtain ⟨hok',hmoves⟩ := stepSocket_spec hok rfl hstep
    exact ⟨hok',fun m => hmoves m,rfl,rfl,rfl⟩
  · exact ⟨hok,fun _ => rfl,rfl,rfl,rfl⟩

theorem step_liveInv (h : LiveInv home c) {event : ClusterEvent N S W}
    (hcareful : keepsLiveRooms c event) (hs : stepCluster env sha256 home c event = some c') :
    LiveInv home c' := by
  cases event with
  | join s target secret =>
    obtain ⟨hidle,rfl⟩ := join_cases hs
    have hstep : stepSocket (c.sockets s).base (.join target) = some ({ (c.sockets s).base with
        stage := .admitting target (c.sockets s).base.meta_ },.keep) := by
      simp only [stepSocket,hidle]
    obtain ⟨hok,hmoves⟩ := join_spec (h.socketOk s) hstep
    have hquiet : Quiet { c.sockets s with
        base := { (c.sockets s).base with stage := .admitting target (c.sockets s).base.meta_ }
        secret := secret, phase := .claiming } := trivial
    have hc : ∀ t, (c.sockets s).base.CommittedTo t →
        NeedsIdentity (c.sockets s) t ∧ NeedsRoom (c.sockets s) t := fun t => needs_of_committed
    refine h.of_socket rfl rfl (fun _ _ => id) (fun _ => id) hok rfl (fun m => hmoves m)
      (fun t hn => ?_) fun t hn => ?_
    · exact Or.inl (hc t (CommittedTo.of_meta (hquiet.committed.1 hn) rfl)).1
    · exact Or.inl (hc t (CommittedTo.of_meta (hquiet.committed.2 hn) rfl)).2
  | socket s event => exact socket_liveInv h hcareful hs
  | claim s =>
    obtain ⟨target,hjoining,-,⟨-,rfl⟩ | rfl⟩ := claim_cases hs
    · refine h.advance hjoining rfl rfl rfl (by simp) (fun r u hru => ?_) (Or.inr ?_)
      · change (c.setIdentity target _).identities r u ≠ none
        rw [identities_setIdentity]
        split
        · simp
        · exact hru
      · change (c.setIdentity target _).identities target.1 target.2 ≠ none
        rw [identities_setIdentity]
        simp
    · exact h.advance hjoining rfl rfl rfl (by simp) (fun _ _ => id) (Or.inl rfl)
  | verify s =>
    obtain ⟨target,hjoining,-,rfl | ⟨stored,hstored,-,rfl⟩⟩ := verify_cases hs
    · exact h.reject hjoining
    · have hentry : c.identities target.1 target.2 ≠ none := by
        rw [hstored]
        exact Option.some_ne_none _
      exact h.advance hjoining rfl rfl rfl (by split <;> simp) (fun _ _ => id) (Or.inr hentry)
  | migrate s =>
    obtain ⟨target,hjoining,-,rfl⟩ := migrate_cases hs
    refine h.advance hjoining rfl rfl rfl (by simp) (fun r u hru => ?_) (Or.inr ?_)
    · change (c.setIdentity target _).identities r u ≠ none
      rw [identities_setIdentity]
      split
      · simp
      · exact hru
    · change (c.setIdentity target _).identities target.1 target.2 ≠ none
      rw [identities_setIdentity]
      simp
  | write s input =>
    obtain ⟨target,hjoining,hphase,rfl | ⟨next,-,-,-,rfl⟩⟩ := write_cases hs
    · exact h.reject hjoining
    · obtain ⟨tracked,hstage⟩ := ClusterSocket.joining?_eq_some.mp hjoining
      refine h.of_socket rfl rfl (fun _ _ => id) (fun r hr => isSome_set hr) (h.socketOk s) ?_
        (fun _ => rfl) (fun t hn => Or.inl ?_) fun t hn => ?_
      · simp only [PhaseOk,hstage]
      · rcases hn with hclaimed | hrest
        · refine Or.inl ?_
          simp only [ClusterSocket.claimed?,hstage,hphase] at hclaimed ⊢
          exact hclaimed
        · exact Or.inr hrest
      · rcases hn with ⟨hsame,-⟩ | hrest
        · right
          have ht : target = t := by
            simp only [ClusterSocket.joining?,hstage] at hsame
            exact Option.some.inj hsame
          change ((c.rooms.set target.1 next).get? t.1).isSome = true
          rw [Record.get?_set,if_pos (by rw [ht])]
          rfl
        · exact Or.inl (Or.inr hrest)
  | destroy d draining =>
    obtain ⟨next,stage,hstep,rfl⟩ := destroy_cases hs
    rcases stepDestroy_cases hstep with ⟨emptyAt,rfl⟩ | ⟨roomId,hstage,rfl⟩
    · exact ⟨h.socketOk,h.phaseOk,h.balanced,h.identified,h.stored⟩
    · simp only [keepsLiveRooms,hstage] at hcareful
      have hdeleted := deleteRoom_liveInv h hcareful.1 hcareful.2
      exact ⟨hdeleted.socketOk,hdeleted.phaseOk,hdeleted.balanced,hdeleted.identified,
        hdeleted.stored⟩
  | op roomId op =>
    obtain ⟨-,-,next,-,rfl⟩ := op_cases hs
    exact ⟨h.socketOk,h.phaseOk,h.balanced,h.identified,fun s target hn =>
      isSome_set (h.stored s target hn)⟩
  | evict n k =>
    obtain ⟨e,-,rfl⟩ := evict_cases hs
    refine h.of_frame rfl (fun _ _ => id) (fun _ => id) (fun s => ?_) (fun s target hn => Or.inl ?_)
      fun s target hn => Or.inl ?_
    · obtain ⟨hok,hheld,hstage,-,hphase⟩ := evict_base (c.sockets s) (h.socketOk s)
      dsimp only
      split
      · refine ⟨hok,?_,hheld⟩
        simpa only [PhaseOk,hstage,hphase] using h.phaseOk s
      · exact ⟨h.socketOk s,h.phaseOk s,fun _ => rfl⟩
    · obtain ⟨-,-,hstage,hmeta,hphase⟩ := evict_base (c.sockets s) (h.socketOk s)
      dsimp only at hn
      split at hn
      · simpa only [NeedsIdentity,ClusterSocket.claimed?,PresenceSocket.CommittedTo,hstage,hmeta,
          hphase] using hn
      · exact hn
    · obtain ⟨-,-,hstage,hmeta,hphase⟩ := evict_base (c.sockets s) (h.socketOk s)
      dsimp only at hn
      split at hn
      · simpa only [NeedsRoom,ClusterSocket.joining?,PresenceSocket.CommittedTo,hstage,hmeta,
          hphase] using hn
      · exact hn
  | clearMarker | startSweep | tick =>
    obtain ⟨hrooms,hids,hrefs,-,-,hsockets⟩ := other_cases hs (by simp)
    refine h.of_frame hrefs (fun r u => by rw [hids]; exact id) (fun r => by rw [hrooms]; exact id)
      (fun t => ?_) (fun t target hn => Or.inl ?_) fun t target hn => Or.inl ?_
    all_goals obtain ⟨clearing,ht⟩ := hsockets t
    · rw [ht]
      exact ⟨h.socketOk t,h.phaseOk t,fun _ => rfl⟩
    · rw [ht] at hn
      exact hn
    · rw [ht] at hn
      exact hn

theorem liveInv_of_careful (h : (carefulDestroy env sha256 home).Reachable c) : LiveInv home c := by
  apply Reachable.invariant (T := carefulDestroy env sha256 home) (LiveInv home) _ _ h
  · rintro c ⟨now,rfl⟩
    have hnobody : ∀ target, ¬PresenceSocket.CommittedTo {} target := by
      rintro target ⟨entry,he,-⟩
      cases he
    have hquiet : Quiet {} := trivial
    constructor
    · exact fun s => ⟨fun _ => rfl,fun h => absurd rfl h,fun entry he => by cases he⟩
    · exact fun s => trivial
    · refine balanced_zero (fun s ref => ?_) fun ref => rfl
      simp only [nodeRefs]
      split <;> rfl
    · exact fun s target hn => absurd (hquiet.committed.1 hn) (hnobody target)
    · exact fun s target hn => absurd (hquiet.committed.2 hn) (hnobody target)
  · intro c event c' _ hinv hstep
    exact step_liveInv hinv hstep.1 hstep.2

/-- In every careful run, each committed socket has its room, its identity entry and its
reference in the store, at every moment. -/
theorem empty_room_destroy (h : (carefulDestroy env sha256 home).Reachable c) (s : S)
    (target : Membership) (hc : (c.sockets s).base.CommittedTo target) :
    (c.rooms.get? target.1).isSome = true ∧ c.identities target.1 target.2 ≠ none ∧
      (home s,target) ∈ c.refs := by
  have hinv := liveInv_of_careful h
  have hneeds := needs_of_committed hc
  refine ⟨hinv.stored s target hneeds.2,hinv.identified s target hneeds.1,?_⟩
  have hheld := heldRefs_of_committed (hinv.socketOk s) hc
  have hcount := hinv.balanced.le_count s (home s,target)
  simp only [nodeRefs,if_true] at hcount
  exact List.count_pos_iff.mp (by omega)

end Invariant

section Scenario

instance {N S W : Type*} [Fintype S] (c : Cluster N S W) (event : ClusterEvent N S W) :
    Decidable (keepsLiveRooms c event) :=
  match event with
  | .socket _ _ => inferInstanceAs (Decidable (_ = true))
  | .destroy d _ => decidable_of_iff _ (forall_deleting_iff (c.destroyers d) _)
  | .join _ _ _ | .claim _ | .verify _ | .migrate _ | .write _ _ | .clearMarker _
  | .startSweep _ _ | .op _ _ | .evict _ _ | .tick _ => inferInstanceAs (Decidable True)

def Cluster.settled {N S W : Type*} [Fintype S] [Fintype W] (c : Cluster N S W) : Bool :=
  decide (∀ s, (c.sockets s).base.stage = .idle ∧ (c.sockets s).base.leaving = none ∧
    (c.sockets s).clearing = none) && decide (∀ d, c.destroyers d = .idle)

/-- The room of Ann is deleted, and then Bob joins. -/
def deleteThenJoin : List (ClusterEvent Unit Bool Unit) :=
  untilDelete false () ++ [.destroy (.inr ()) false] ++ joinUpToClaim true "bob" "secret" ++
    joinFromWrite true "bob" 16000

/-- Bob joins between the last check of the sweep and its deletion. -/
def joinThenDelete : List (ClusterEvent Unit Bool Unit) :=
  untilDelete false () ++ joinUpToClaim true "bob" "secret" ++ joinFromWrite true "bob" 16000 ++
    [.destroy (.inr ()) false]

theorem empty_room_destroy_then_join : ∃ c : Cluster Unit Bool Unit,
    (carefulDestroy scenarioEnv id fun _ => ()).Reachable c ∧
    (c.sockets true).base.CommittedTo ("room","bob") ∧
    (c.rooms.get? "room").isSome = true ∧ c.identities "room" "bob" ≠ none ∧
      ((),("room","bob")) ∈ c.refs := by
  have hrun : ((runSteps (guardStep (stepCluster scenarioEnv id fun _ => ()) keepsLiveRooms)
      (clusterStart 1000) deleteThenJoin).any fun c =>
        isCommittedTo (c.sockets true).base ("room","bob")) = true := by
    decide +kernel
  obtain ⟨c,hc,hcommitted⟩ := (Option.any_eq_true _ _).mp hrun
  have hr : (carefulDestroy scenarioEnv id fun _ => ()).Reachable c :=
    .of_guardSteps (fun _ _ _ => id) _ (.init ⟨1000,rfl⟩) hc
  have hto := committedTo_of_isCommittedTo hcommitted
  exact ⟨c,hr,hto,empty_room_destroy hr true ("room","bob") hto⟩

/-- The deletion takes the room, the identity and the reference of a committed socket. -/
theorem delete_overtakes_join : ∃ c : Cluster Unit Bool Unit,
    (clusterSystem scenarioEnv id fun _ => ()).Reachable c ∧ c.settled = true ∧
    (c.sockets true).base.link = .opened ∧ (c.sockets true).base.CommittedTo ("room","bob") ∧
    c.rooms.get? "room" = none ∧ c.identities "room" "bob" = none ∧
      ((),("room","bob")) ∉ c.refs := by
  have hrun : ((runSteps (stepCluster scenarioEnv id fun _ => ()) (clusterStart 1000)
      joinThenDelete).any fun c => c.settled && decide ((c.sockets true).base.link = .opened) &&
        isCommittedTo (c.sockets true).base ("room","bob") && (c.rooms.get? "room").isNone &&
        (c.identities "room" "bob").isNone && c.refs.isEmpty) = true := by
    decide +kernel
  obtain ⟨c,hc,hfacts⟩ := (Option.any_eq_true _ _).mp hrun
  simp only [Bool.and_eq_true,decide_eq_true_eq,Option.isNone_iff_eq_none,List.isEmpty_iff]
    at hfacts
  obtain ⟨⟨⟨⟨⟨hsettled,hopen⟩,hcommitted⟩,hroom⟩,hidentity⟩,hrefs⟩ := hfacts
  refine ⟨c,.of_runSteps (fun _ _ _ => id) _ (.init ⟨1000,rfl⟩) hc,hsettled,hopen,
    committedTo_of_isCommittedTo hcommitted,hroom,hidentity,?_⟩
  rw [hrefs]
  exact List.not_mem_nil

end Scenario

end WebSyncPlay
