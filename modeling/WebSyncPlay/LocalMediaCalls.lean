import WebSyncPlay.LocalMediaStore
import WebSyncPlay.Library.Linearization
import WebSyncPlay.Library.TransitionSystem

/-! Overlapping calls on one id of `media/local-media-store.ts`. No call locks the entry: an update
reads it, and later stores all of it. -/
namespace WebSyncPlay
namespace LocalMediaCalls

open Library TransitionSystem

/-- A call on the id; the last one is by Redis, which lets an expired key go. -/
inductive EntryOp
  | create (nodeId : String) (input : CreateLocalMediaInput)
  | edit (edit : LocalMediaEdit)
  | delete
  | expire
  deriving DecidableEq

/-- What the call does to the entry when nothing comes between its commands. -/
def EntryOp.effect (clock : ℕ) (stored : Option LocalMediaRecord) :
    EntryOp → Option LocalMediaRecord
  | .create nodeId input => some (createLocalMediaEntry nodeId clock input)
  | .edit update =>
    match getLocalMediaEntry clock stored with
    | .missing => stored
    | .expired => none
    | .found entry => (update.apply clock entry).or stored
  | .delete => none
  | .expire => stored.filter fun entry => decide (clock < entry.expiresAt)

/-- The next command of a call: its first one, the write that an update owes to its read, the DEL of a
deletion, or those that write the owner index. -/
inductive EntryPhase
  | started
  | writing (seen next : Option LocalMediaRecord)
  | dropping
  | settled
  | returned
  | failed
  deriving DecidableEq

def EntryPhase.pending : EntryPhase → Bool
  | .started | .writing _ _ | .dropping => true
  | .settled | .returned | .failed => false

def EntryPhase.ended : EntryPhase → Bool
  | .returned | .failed => true
  | .started | .writing _ _ | .dropping | .settled => false

theorem EntryPhase.ended_of_pending {phase : EntryPhase} (h : phase.pending = true) :
    phase.ended = false := by
  cases phase with
  | returned => cases h
  | failed => cases h
  | _ => rfl

/-- The clock is the one its process read; `after` are the calls that had ended when it began. -/
structure EntryCall where
  op : EntryOp
  clock : ℕ
  after : List ℕ
  phase : EntryPhase
  deriving DecidableEq

structure EntryState where
  now : ℕ
  entry : Option LocalMediaRecord
  calls : List EntryCall
  deriving DecidableEq

namespace EntryState

variable (s : EntryState)

def ended (n : ℕ) : Bool := s.calls[n]?.any fun call => call.phase.ended

def setCall (n : ℕ) (call : EntryCall) : EntryState := { s with calls := s.calls.set n call }

def runCall (n : ℕ) (call : EntryCall) : Option EntryState :=
  match call.phase with
  | .started =>
    match call.op with
    | .create nodeId input =>
      some { s.setCall n { call with phase := .settled } with
        entry := some (createLocalMediaEntry nodeId call.clock input) }
    | .edit update =>
      match getLocalMediaEntry s.now s.entry with
      | .missing => some (s.setCall n { call with clock := s.now, phase := .settled })
      | .expired => some (s.setCall n { call with clock := s.now, phase := .writing s.entry none })
      | .found entry =>
        match update.apply s.now entry with
        | none => some (s.setCall n { call with clock := s.now, phase := .settled })
        | some next =>
          some (s.setCall n { call with clock := s.now, phase := .writing s.entry (some next) })
    | .delete => some (s.setCall n { call with phase := .dropping })
    | .expire =>
      some { s.setCall n { call with clock := s.now, phase := .settled } with
        entry := s.entry.filter fun entry => decide (s.now < entry.expiresAt) }
  | .writing _ next => some { s.setCall n { call with phase := .settled } with entry := next }
  | .dropping => some { s.setCall n { call with phase := .settled } with entry := none }
  | .settled => some (s.setCall n { call with phase := .returned })
  | .returned | .failed => none

end EntryState

/-- A call begins, carries out a command, or ends by a crash or an error; time passes. -/
inductive EntryAction
  | begin (op : EntryOp)
  | run (n : ℕ)
  | fail (n : ℕ)
  | tick (now : ℕ)
  deriving DecidableEq

def entryStep (s : EntryState) : EntryAction → Option EntryState
  | .begin op =>
    some { s with calls := s.calls++[⟨op,s.now,(List.range s.calls.length).filter s.ended,.started⟩] }
  | .run n => s.calls[n]?.bind (s.runCall n)
  | .fail n =>
    s.calls[n]?.bind fun call =>
      if call.phase.ended then none else some (s.setCall n { call with phase := .failed })
  | .tick now => if s.now ≤ now then some { s with now } else none

/-- The calls on one id, from any processes, on an entry that is there before. -/
def entrySystem (initial : Option LocalMediaRecord) : TransitionSystem EntryState EntryAction where
  init s := s.entry = initial ∧ s.calls = []
  step s action s' := entryStep s action = some s'

section Order

variable (initial : Option LocalMediaRecord) (s : EntryState)

def effectOf (n : ℕ) (stored : Option LocalMediaRecord) : Option LocalMediaRecord :=
  (s.calls[n]?.map fun call => call.op.effect call.clock stored).getD stored

/-- The first call had ended when the second one began. -/
def Precedes (m n : ℕ) : Prop := ∃ call, s.calls[n]? = some call ∧ m ∈ call.after

/-- The stored entry is what calls leave that are carried out one after another: all that have
returned are among them, and none comes before one that had ended when it began. -/
def Sequential : Prop :=
  ∃ order : List ℕ,
    Linearizes (effectOf s) (Precedes s) initial s.entry order ∧
      (∀ n ∈ order, n < s.calls.length) ∧
      ∀ n call, s.calls[n]? = some call → call.phase = .returned → n ∈ order

end Order

/-- What an update that is about to write has read. -/
def EntryCall.seen (call : EntryCall) : Option (Option LocalMediaRecord) :=
  match call.phase with
  | .writing seen _ => some seen
  | _ => none

/-- An update that writes does to the entry that it finds what it does to the one that it read. -/
def ActsAsRead (s : EntryState) : EntryAction → Prop
  | .run n => ∀ call ∈ s.calls[n]?, ∀ seen ∈ call.seen,
      call.op.effect call.clock s.entry = call.op.effect call.clock seen
  | _ => True

theorem ActsAsRead.effect_seen {s : EntryState} {n : ℕ} {call : EntryCall}
    (h : ActsAsRead s (.run n)) (hcall : s.calls[n]? = some call)
    (seen next : Option LocalMediaRecord) (hphase : call.phase = .writing seen next) :
    call.op.effect call.clock s.entry = call.op.effect call.clock seen := by
  apply h call hcall
  simp [EntryCall.seen,hphase]

section Steps

variable {s s' : EntryState}

@[simp] theorem entry_setCall (n : ℕ) (call : EntryCall) : (s.setCall n call).entry = s.entry := rfl

@[simp] theorem calls_setCall (n : ℕ) (call : EntryCall) :
    (s.setCall n call).calls = s.calls.set n call := rfl

/-- A command after which the entry is as before, and the call as far as it was or returned. -/
structure Quiet (s s' : EntryState) (n : ℕ) (call call' : EntryCall) : Prop where
  calls : s'.calls = s.calls.set n call'
  entry : s'.entry = s.entry
  op : call'.op = call.op
  after : call'.after = call.after
  phase : call.phase.pending = true ∧ call'.phase.pending = true ∨
    call.phase = .settled ∧ call'.phase = .returned ∧ call'.clock = call.clock

structure TakesEffect (s s' : EntryState) (n : ℕ) (call call' : EntryCall) : Prop where
  calls : s'.calls = s.calls.set n call'
  op : call'.op = call.op
  after : call'.after = call.after
  pending : call.phase.pending = true
  settled : call'.phase = .settled
  entry : s'.entry = call'.op.effect call'.clock s.entry

/-- What a call has still to write is what it does to the entry that it read. -/
structure Owes (call : EntryCall) : Prop where
  write : ∀ seen next, call.phase = .writing seen next → next = call.op.effect call.clock seen
  drop : call.phase = .dropping → call.op = .delete

theorem owes_of_not_pending {call : EntryCall} (h : call.phase.pending = false) : Owes call := by
  constructor
  · intro seen next hwriting
    rw [hwriting] at h
    cases h
  · intro hdropping
    rw [hdropping] at h
    cases h

theorem owes_started {call : EntryCall} (h : call.phase = .started) : Owes call := by
  constructor
  · intro seen next hwriting
    rw [h] at hwriting
    cases hwriting
  · intro hdropping
    rw [h] at hdropping
    cases hdropping

theorem runCall_cases {n : ℕ} {call : EntryCall} (howes : Owes call)
    (hacts : ∀ seen next, call.phase = .writing seen next →
      call.op.effect call.clock s.entry = call.op.effect call.clock seen)
    (h : s.runCall n call = some s') :
    ∃ call', (Quiet s s' n call call' ∨ TakesEffect s s' n call call') ∧ Owes call' := by
  obtain ⟨op,clock,after,phase⟩ := call
  cases phase with
  | started =>
    cases op with
    | create nodeId input =>
      cases h
      exact ⟨⟨.create nodeId input,clock,after,.settled⟩,.inr ⟨rfl,rfl,rfl,rfl,rfl,rfl⟩,
        owes_of_not_pending rfl⟩
    | edit update =>
      cases hread : getLocalMediaEntry s.now s.entry with
      | missing =>
        simp only [EntryState.runCall,hread] at h
        cases h
        refine ⟨⟨.edit update,s.now,after,.settled⟩,.inr ?_,owes_of_not_pending rfl⟩
        exact ⟨rfl,rfl,rfl,rfl,rfl,by simp [EntryOp.effect,hread]⟩
      | expired =>
        simp only [EntryState.runCall,hread] at h
        cases h
        refine ⟨⟨.edit update,s.now,after,.writing s.entry none⟩,.inl ?_,?_,by simp⟩
        · exact ⟨rfl,rfl,rfl,rfl,.inl ⟨rfl,rfl⟩⟩
        · intro seen next hwriting
          cases hwriting
          simp [EntryOp.effect,hread]
      | found entry =>
        cases happly : update.apply s.now entry with
        | none =>
          simp only [EntryState.runCall,hread,happly] at h
          cases h
          refine ⟨⟨.edit update,s.now,after,.settled⟩,.inr ?_,owes_of_not_pending rfl⟩
          exact ⟨rfl,rfl,rfl,rfl,rfl,by simp [EntryOp.effect,hread,happly]⟩
        | some stored =>
          simp only [EntryState.runCall,hread,happly] at h
          cases h
          refine ⟨⟨.edit update,s.now,after,.writing s.entry (some stored)⟩,.inl ?_,?_,by simp⟩
          · exact ⟨rfl,rfl,rfl,rfl,.inl ⟨rfl,rfl⟩⟩
          · intro seen next hwriting
            cases hwriting
            simp [EntryOp.effect,hread,happly]
    | delete =>
      cases h
      refine ⟨⟨.delete,clock,after,.dropping⟩,.inl ?_,by simp,fun _ => rfl⟩
      exact ⟨rfl,rfl,rfl,rfl,.inl ⟨rfl,rfl⟩⟩
    | expire =>
      cases h
      exact ⟨⟨.expire,s.now,after,.settled⟩,.inr ⟨rfl,rfl,rfl,rfl,rfl,rfl⟩,owes_of_not_pending rfl⟩
  | writing seen next =>
    cases h
    refine ⟨⟨op,clock,after,.settled⟩,.inr ?_,owes_of_not_pending rfl⟩
    refine ⟨rfl,rfl,rfl,rfl,rfl,?_⟩
    exact (howes.write seen next rfl).trans (hacts seen next rfl).symm
  | dropping =>
    obtain rfl := howes.drop rfl
    cases h
    exact ⟨⟨.delete,clock,after,.settled⟩,.inr ⟨rfl,rfl,rfl,rfl,rfl,rfl⟩,owes_of_not_pending rfl⟩
  | settled =>
    cases h
    refine ⟨⟨op,clock,after,.returned⟩,.inl ?_,owes_of_not_pending rfl⟩
    exact ⟨rfl,rfl,rfl,rfl,.inr ⟨rfl,rfl,rfl⟩⟩
  | returned => cases h
  | failed => cases h

end Steps

section Orders

variable {s s' : EntryState} {initial : Option LocalMediaRecord} {order : List ℕ}

structure Ordered (initial : Option LocalMediaRecord) (s : EntryState) (order : List ℕ) : Prop where
  linearizes : Linearizes (effectOf s) (Precedes s) initial s.entry order
  taken : ∀ (n : ℕ) call, s.calls[n]? = some call →
    call.phase = .settled ∨ call.phase = .returned → n ∈ order
  mem : ∀ n ∈ order, ∃ call, s.calls[n]? = some call ∧ call.phase.pending = false

/-- What holds in every run whose writes act as their reads said. -/
structure CallInvariant (initial : Option LocalMediaRecord) (s : EntryState) : Prop where
  ordered : ∃ order, Ordered initial s order
  owes : ∀ (n : ℕ) call, s.calls[n]? = some call → Owes call
  after : ∀ (n : ℕ) call, s.calls[n]? = some call → ∀ m ∈ call.after, s.ended m = true

def SameCall (call call' : EntryCall) : Prop :=
  call'.op = call.op ∧ call'.after = call.after ∧
    (call.phase.pending = true ∨ call'.clock = call.clock)

theorem Ordered.transport (h : Ordered initial s order)
    (hcalls : ∀ n ∈ order, ∀ call, s.calls[n]? = some call → ∃ call',
      s'.calls[n]? = some call' ∧ SameCall call call') :
    Linearizes (effectOf s') (Precedes s') initial s.entry order := by
  apply h.linearizes.congr
  · intro n hn
    obtain ⟨call,hcall,hdone⟩ := h.mem n hn
    obtain ⟨call',hcall',hop,-,hclock⟩ := hcalls n hn call hcall
    have hsame : call'.clock = call.clock := by
      cases hclock with
      | inl hpending =>
        rw [hdone] at hpending
        cases hpending
      | inr hsame => exact hsame
    funext stored
    simp [effectOf,hcall,hcall',hop,hsame]
  · intro m _ n hn hprecedes
    obtain ⟨call,hcall,-⟩ := h.mem n hn
    obtain ⟨call',hcall',-,hafter,-⟩ := hcalls n hn call hcall
    obtain ⟨found,hfound,hm⟩ := hprecedes
    rw [hcall'] at hfound
    cases hfound
    exact ⟨call,hcall,hafter ▸ hm⟩

theorem Ordered.commit (h : Ordered initial s order) (hafter : ∀ (n : ℕ) call, s.calls[n]? = some call →
      ∀ m ∈ call.after, s.ended m = true) {n : ℕ} {call call' : EntryCall}
    (hcall : s.calls[n]? = some call) (htakes : TakesEffect s s' n call call') :
    Ordered initial s' (order++[n]) := by
  have hlt : n < s.calls.length := (List.getElem?_eq_some_iff.mp hcall).1
  have hself : s'.calls[n]? = some call' := by
    rw [htakes.calls,List.getElem?_set_self hlt]
  have hother : ∀ m, m ≠ n → s'.calls[m]? = s.calls[m]? := by
    intro m hne
    rw [htakes.calls,List.getElem?_set_ne (Ne.symm hne)]
  have hnew : n ∉ order := by
    intro hn
    obtain ⟨found,hfound,hdone⟩ := h.mem n hn
    rw [hcall] at hfound
    cases hfound
    rw [htakes.pending] at hdone
    cases hdone
  have hne : ∀ m ∈ order, m ≠ n := fun m hm heq => hnew (heq ▸ hm)
  have hold : Linearizes (effectOf s') (Precedes s') initial s.entry order := by
    apply h.transport
    intro m hm found hfound
    exact ⟨found,by rw [hother m (hne m hm),hfound],rfl,rfl,.inr rfl⟩
  have hlast : ∀ m ∈ order, ¬Precedes s' n m := by
    rintro m hm ⟨found,hfound,hmem⟩
    rw [hother m (hne m hm)] at hfound
    have hended : s.ended n = true := hafter m found hfound n hmem
    have hphase : call.phase.ended = true := by
      rw [EntryState.ended,hcall] at hended
      exact hended
    rw [EntryPhase.ended_of_pending htakes.pending] at hphase
    cases hphase
  have heffect : effectOf s' n s.entry = s'.entry := by
    rw [htakes.entry,effectOf,hself]
    rfl
  constructor
  · rw [← heffect]
    exact hold.append hnew hlast
  · intro m found hfound hphase
    by_cases heq : m = n
    · exact List.mem_append_right _ (List.mem_singleton.mpr heq)
    · rw [hother m heq] at hfound
      exact List.mem_append_left _ (h.taken m found hfound hphase)
  · intro m hm
    by_cases heq : m = n
    · refine ⟨call',heq ▸ hself,?_⟩
      rw [htakes.settled]
      rfl
    · have hmem : m ∈ order := by simpa [heq] using hm
      rw [hother m heq]
      exact h.mem m hmem

theorem Ordered.advance (h : Ordered initial s order) {n : ℕ} {call call' : EntryCall}
    (hcall : s.calls[n]? = some call) (hcalls : s'.calls = s.calls.set n call')
    (hentry : s'.entry = s.entry) (hsame : SameCall call call')
    (hpending : call.phase.pending = false → call'.phase.pending = false)
    (htaken : call'.phase = .settled ∨ call'.phase = .returned →
      call.phase = .settled ∨ call.phase = .returned) :
    Ordered initial s' order := by
  have hlt : n < s.calls.length := (List.getElem?_eq_some_iff.mp hcall).1
  have hself : s'.calls[n]? = some call' := by
    rw [hcalls,List.getElem?_set_self hlt]
  have hother : ∀ m, m ≠ n → s'.calls[m]? = s.calls[m]? := by
    intro m hne
    rw [hcalls,List.getElem?_set_ne (Ne.symm hne)]
  constructor
  · rw [hentry]
    apply h.transport
    intro m _ found hfound
    by_cases heq : m = n
    · subst heq
      rw [hcall] at hfound
      cases hfound
      exact ⟨call',hself,hsame⟩
    · exact ⟨found,by rw [hother m heq,hfound],rfl,rfl,.inr rfl⟩
  · intro m found hfound hphase
    by_cases heq : m = n
    · subst heq
      rw [hself] at hfound
      cases hfound
      exact h.taken m call hcall (htaken hphase)
    · rw [hother m heq] at hfound
      exact h.taken m found hfound hphase
  · intro m hm
    by_cases heq : m = n
    · subst heq
      obtain ⟨found,hfound,hdone⟩ := h.mem m hm
      rw [hcall] at hfound
      cases hfound
      exact ⟨call',hself,hpending hdone⟩
    · rw [hother m heq]
      exact h.mem m hm

theorem Ordered.quiet (h : Ordered initial s order) {n : ℕ} {call call' : EntryCall}
    (hcall : s.calls[n]? = some call) (hquiet : Quiet s s' n call call') :
    Ordered initial s' order := by
  cases hquiet.phase with
  | inl hboth =>
    refine h.advance hcall hquiet.calls hquiet.entry ⟨hquiet.op,hquiet.after,.inl hboth.1⟩ ?_ ?_
    · intro hdone
      rw [hboth.1] at hdone
      cases hdone
    · intro hphase
      have hpending := hboth.2
      cases hphase with
      | inl hsettled =>
        rw [hsettled] at hpending
        cases hpending
      | inr hreturned =>
        rw [hreturned] at hpending
        cases hpending
  | inr hreturns =>
    obtain ⟨hsettled,hreturned,hclock⟩ := hreturns
    refine h.advance hcall hquiet.calls hquiet.entry ⟨hquiet.op,hquiet.after,.inr hclock⟩ ?_ ?_
    · intro _
      rw [hreturned]
      rfl
    · intro _
      exact .inl hsettled

theorem Ordered.fail (h : Ordered initial s order) {n : ℕ} {call : EntryCall}
    (hcall : s.calls[n]? = some call) :
    Ordered initial (s.setCall n { call with phase := .failed }) order := by
  refine h.advance hcall rfl rfl ⟨rfl,rfl,.inr rfl⟩ (fun _ => rfl) ?_
  intro hphase
  cases hphase with
  | inl hsettled => cases hsettled
  | inr hreturned => cases hreturned

theorem Ordered.begin (h : Ordered initial s order) {call : EntryCall} (hphase : call.phase = .started)
    (hcalls : s'.calls = s.calls++[call]) (hentry : s'.entry = s.entry) :
    Ordered initial s' order := by
  have hold : ∀ (m : ℕ) found, s.calls[m]? = some found → s'.calls[m]? = some found := by
    intro m found hfound
    rw [hcalls,List.getElem?_append_left (List.getElem?_eq_some_iff.mp hfound).1,hfound]
  constructor
  · rw [hentry]
    apply h.transport
    intro m _ found hfound
    exact ⟨found,hold m found hfound,rfl,rfl,.inr rfl⟩
  · intro m found hfound htaken
    rw [hcalls,List.getElem?_append] at hfound
    split at hfound
    · exact h.taken m found hfound htaken
    · have hlast : found = call := by
        have hmem := List.mem_of_getElem? hfound
        exact List.mem_singleton.mp hmem
      rw [hlast,hphase] at htaken
      cases htaken with
      | inl hsettled => cases hsettled
      | inr hreturned => cases hreturned
  · intro m hm
    obtain ⟨found,hfound,hdone⟩ := h.mem m hm
    exact ⟨found,hold m found hfound,hdone⟩

end Orders

section Runs

variable {s s' : EntryState} {initial : Option LocalMediaRecord}

theorem ended_set {n m : ℕ} {call call' : EntryCall} (hcall : s.calls[n]? = some call)
    (hcalls : s'.calls = s.calls.set n call')
    (hkeeps : call.phase.ended = true → call'.phase.ended = true) (h : s.ended m = true) :
    s'.ended m = true := by
  have hlt : n < s.calls.length := (List.getElem?_eq_some_iff.mp hcall).1
  rw [EntryState.ended] at h ⊢
  rw [hcalls]
  by_cases heq : m = n
  · subst heq
    rw [List.getElem?_set_self hlt]
    rw [hcall] at h
    exact hkeeps h
  · rw [List.getElem?_set_ne (Ne.symm heq)]
    exact h

theorem CallInvariant.set (h : CallInvariant initial s) {n : ℕ} {call call' : EntryCall}
    (hcall : s.calls[n]? = some call) (hcalls : s'.calls = s.calls.set n call')
    (hafter : call'.after = call.after) (howes : Owes call')
    (hkeeps : call.phase.ended = true → call'.phase.ended = true)
    (hordered : ∃ order, Ordered initial s' order) : CallInvariant initial s' := by
  have hlt : n < s.calls.length := (List.getElem?_eq_some_iff.mp hcall).1
  constructor
  · exact hordered
  · intro m found hfound
    rw [hcalls] at hfound
    by_cases heq : m = n
    · subst heq
      rw [List.getElem?_set_self hlt] at hfound
      cases hfound
      exact howes
    · rw [List.getElem?_set_ne (Ne.symm heq)] at hfound
      exact h.owes m found hfound
  · intro m found hfound k hk
    rw [hcalls] at hfound
    refine ended_set hcall hcalls hkeeps ?_
    by_cases heq : m = n
    · subst heq
      rw [List.getElem?_set_self hlt] at hfound
      cases hfound
      exact h.after m call hcall k (hafter ▸ hk)
    · rw [List.getElem?_set_ne (Ne.symm heq)] at hfound
      exact h.after m found hfound k hk

theorem CallInvariant.run (h : CallInvariant initial s) {n : ℕ} {call : EntryCall}
    (hcall : s.calls[n]? = some call)
    (hacts : ∀ seen next, call.phase = .writing seen next →
      call.op.effect call.clock s.entry = call.op.effect call.clock seen)
    (hstep : s.runCall n call = some s') : CallInvariant initial s' := by
  obtain ⟨call',hcase,howes⟩ := runCall_cases (h.owes n call hcall) hacts hstep
  obtain ⟨order,hordered⟩ := h.ordered
  cases hcase with
  | inl hquiet =>
    refine h.set hcall hquiet.calls hquiet.after howes ?_ ⟨order,hordered.quiet hcall hquiet⟩
    intro hended
    cases hquiet.phase with
    | inl hboth =>
      rw [EntryPhase.ended_of_pending hboth.1] at hended
      cases hended
    | inr hreturns =>
      rw [hreturns.1] at hended
      cases hended
  | inr htakes =>
    refine h.set hcall htakes.calls htakes.after howes ?_
      ⟨order++[n],hordered.commit h.after hcall htakes⟩
    intro hended
    rw [EntryPhase.ended_of_pending htakes.pending] at hended
    cases hended

theorem CallInvariant.begin (h : CallInvariant initial s) (op : EntryOp) :
    CallInvariant initial { s with
      calls := s.calls++[⟨op,s.now,(List.range s.calls.length).filter s.ended,.started⟩] } := by
  obtain ⟨order,hordered⟩ := h.ordered
  have hended : ∀ m, s.ended m = true → EntryState.ended { s with
      calls := s.calls++[⟨op,s.now,(List.range s.calls.length).filter s.ended,.started⟩] } m =
        true := by
    intro m hm
    rw [EntryState.ended] at hm ⊢
    obtain ⟨call,hcall,hphase⟩ := (Option.any_eq_true _ _).mp hm
    rw [List.getElem?_append_left (List.getElem?_eq_some_iff.mp hcall).1,hcall]
    exact hphase
  constructor
  · exact ⟨order,hordered.begin rfl rfl rfl⟩
  · intro n call hcall
    rw [List.getElem?_append] at hcall
    split at hcall
    · exact h.owes n call hcall
    · rw [List.mem_singleton.mp (List.mem_of_getElem? hcall)]
      exact owes_started rfl
  · intro n call hcall m hm
    apply hended
    rw [List.getElem?_append] at hcall
    split at hcall
    · exact h.after n call hcall m hm
    · rw [List.mem_singleton.mp (List.mem_of_getElem? hcall)] at hm
      exact (List.mem_filter.mp hm).2

theorem CallInvariant.step (h : CallInvariant initial s) {action : EntryAction}
    (hacts : ActsAsRead s action) (hstep : entryStep s action = some s') :
    CallInvariant initial s' := by
  cases action with
  | begin op =>
    cases hstep
    exact h.begin op
  | run n =>
    obtain ⟨call,hcall,hrun⟩ := Option.bind_eq_some_iff.mp hstep
    exact h.run hcall (hacts.effect_seen hcall) hrun
  | fail n =>
    obtain ⟨call,hcall,hfail⟩ := Option.bind_eq_some_iff.mp hstep
    obtain ⟨order,hordered⟩ := h.ordered
    split at hfail
    · cases hfail
    · cases hfail
      exact h.set hcall rfl rfl (owes_of_not_pending rfl) (fun _ => rfl)
        ⟨order,hordered.fail hcall⟩
  | tick now =>
    rw [entryStep] at hstep
    split at hstep
    · cases hstep
      obtain ⟨order,hordered⟩ := h.ordered
      exact ⟨⟨order,hordered.linearizes,hordered.taken,hordered.mem⟩,h.owes,h.after⟩
    · cases hstep

theorem callInvariant_of_reachable
    (h : ((entrySystem initial).restrict ActsAsRead).Reachable s) : CallInvariant initial s := by
  refine h.invariant (CallInvariant initial) ?_ ?_
  · rintro s ⟨hentry,hcalls⟩
    have hnone : ∀ n : ℕ, s.calls[n]? = none := by
      intro n
      rw [hcalls]
      rfl
    refine ⟨⟨[],?_,?_,?_⟩,?_,?_⟩
    · rw [← hentry]
      exact linearizes_nil
    · intro n call hcall
      rw [hnone] at hcall
      cases hcall
    · intro n hn
      cases hn
    · intro n call hcall
      rw [hnone] at hcall
      cases hcall
    · intro n call hcall
      rw [hnone] at hcall
      cases hcall
  · intro s action s' _ hinv hstep
    exact hinv.step hstep.1 hstep.2

end Runs

section Atomic

theorem effect_none (op : EntryOp) (clock : ℕ) (hcreate : ∀ nodeId input, op ≠ .create nodeId input) :
    op.effect clock none = none := by
  cases op with
  | create nodeId input => exact absurd rfl (hcreate nodeId input)
  | edit update => rfl
  | delete => rfl
  | expire => rfl

/-- A command with which an entry is there again that was not. -/
def Revives (s : EntryState) (action : EntryAction) (s' : EntryState) : Prop :=
  entryStep s action = some s' ∧ s.entry = none ∧ s'.entry ≠ none

def Creates (s : EntryState) (action : EntryAction) : Prop :=
  ∃ n call nodeId input, action = .run n ∧ s.calls[n]? = some call ∧
    call.op = .create nodeId input

theorem creates_of_revives {initial : Option LocalMediaRecord} {s s' : EntryState}
    {action : EntryAction} (hinv : CallInvariant initial s) (hacts : ActsAsRead s action)
    (h : Revives s action s') : Creates s action := by
  obtain ⟨hstep,hgone,hback⟩ := h
  cases action with
  | begin op =>
    cases hstep
    exact absurd hgone hback
  | run n =>
    obtain ⟨call,hcall,hrun⟩ := Option.bind_eq_some_iff.mp hstep
    obtain ⟨call',hcase,-⟩ := runCall_cases (hinv.owes n call hcall) (hacts.effect_seen hcall) hrun
    cases hcase with
    | inl hquiet =>
      rw [hquiet.entry] at hback
      exact absurd hgone hback
    | inr htakes =>
      by_contra hnot
      have hcreate : ∀ nodeId input, call'.op ≠ .create nodeId input := by
        intro nodeId input hop
        exact hnot ⟨n,call,nodeId,input,rfl,hcall,htakes.op ▸ hop⟩
      rw [htakes.entry,hgone] at hback
      exact hback (effect_none call'.op call'.clock hcreate)
  | fail n =>
    obtain ⟨call,-,hfail⟩ := Option.bind_eq_some_iff.mp hstep
    split at hfail
    · cases hfail
    · cases hfail
      exact absurd hgone hback
  | tick now =>
    rw [entryStep] at hstep
    split at hstep
    · cases hstep
      exact absurd hgone hback
    · cases hstep

/-- As long as each update that writes does to the entry that it finds what it does to the one that
it read, the calls leave what they leave one after another, and only a creation brings an entry
back. -/
theorem entry_calls_atomic (initial : Option LocalMediaRecord) (s : EntryState)
    (h : ((entrySystem initial).restrict ActsAsRead).Reachable s) :
    Sequential initial s ∧
      ∀ action s', ActsAsRead s action → Revives s action s' → Creates s action := by
  have hinv := callInvariant_of_reachable h
  constructor
  · obtain ⟨order,hordered⟩ := hinv.ordered
    refine ⟨order,hordered.linearizes,?_,?_⟩
    · intro n hn
      obtain ⟨call,hcall,-⟩ := hordered.mem n hn
      exact (List.getElem?_eq_some_iff.mp hcall).1
    · intro n call hcall hreturned
      exact hordered.taken n call hcall (.inr hreturned)
  · intro action s' hacts hrevives
    exact creates_of_revives hinv hacts hrevives

end Atomic

section Overlaps

def filmInput : CreateLocalMediaInput where
  id := "film"
  roomId := "room"
  ownerUserId := "ann"
  filename := "film.mp4"
  mimeType := "video/mp4"
  sizeBytes := 1000

instance (s : EntryState) : DecidablePred (ActsAsRead s) := fun action =>
  match action with
  | .run n => inferInstanceAs (Decidable (∀ call ∈ s.calls[n]?, ∀ seen ∈ call.seen, _ = _))
  | .begin _ => inferInstanceAs (Decidable True)
  | .fail _ => inferInstanceAs (Decidable True)
  | .tick _ => inferInstanceAs (Decidable True)

/-- A creation, and then two touches that overlap. -/
def touchedRun : List EntryAction :=
  [.begin (.create "node" filmInput),.run 0,.run 0,.begin (.edit .touch),.begin (.edit .touch),
    .tick 1000,.run 1,.tick 2000,.run 2,.run 1,.run 2,.run 1,.run 2]

def touched : EntryState where
  now := 2000
  entry := some { createLocalMediaEntry "node" 0 filmInput with expiresAt := 2000+LOCAL_MEDIA_TTL_MS }
  calls := [⟨.create "node" filmInput,0,[],.returned⟩,⟨.edit .touch,1000,[0],.returned⟩,
    ⟨.edit .touch,2000,[0],.returned⟩]

theorem entry_calls_atomic_touched : Sequential none touched := by
  have hreach : ((entrySystem none).restrict ActsAsRead).Reachable touched :=
    .of_guardSteps (fun _ _ _ hstep => hstep) touchedRun
      (.init (show (EntryState.mk 0 none []).entry = none ∧ (EntryState.mk 0 none []).calls = [] from
        ⟨rfl,rfl⟩)) (by decide +kernel)
  exact (entry_calls_atomic none touched hreach).1

/-- A touch reads the entry before it is deleted, and stores it afterwards. -/
def revivedRun : List EntryAction :=
  [.begin (.create "node" filmInput),.run 0,.run 0,.begin (.edit .touch),.run 1,.begin .delete,.run 2,
    .run 2,.run 2,.run 1,.run 1]

def revived : EntryState where
  now := 0
  entry := some (createLocalMediaEntry "node" 0 filmInput)
  calls := [⟨.create "node" filmInput,0,[],.returned⟩,⟨.edit .touch,0,[0],.returned⟩,
    ⟨.delete,0,[0],.returned⟩]

theorem revived_not_sequential : ¬Sequential none revived := by
  rintro ⟨order,hlinearizes,hlt,hreturned⟩
  have hdelete : 2 ∈ order := hreturned 2 ⟨.delete,0,[0],.returned⟩ rfl rfl
  have hgone : revived.entry = none := by
    apply hlinearizes.final_of (fun stored => stored = none) hdelete
    · intro stored
      rfl
    · intro n hn hnot stored hstored
      have hcases : n = 0 ∨ n = 1 ∨ n = 2 := by
        have hbound : n < 3 := hlt n hn
        omega
      rcases hcases with rfl | rfl | rfl
      · exact absurd ⟨⟨.delete,0,[0],.returned⟩,rfl,List.mem_singleton.mpr rfl⟩ hnot
      · rw [hstored]
        rfl
      · rfl
  cases hgone

theorem overlapping_touch_revives :
    ¬∀ (initial : Option LocalMediaRecord) (s : EntryState),
      (entrySystem initial).Reachable s → Sequential initial s := by
  intro h
  have hreach : (entrySystem none).Reachable revived :=
    .of_runSteps (fun _ _ _ hstep => hstep) revivedRun
      (.init (show (EntryState.mk 0 none []).entry = none ∧ (EntryState.mk 0 none []).calls = [] from
        ⟨rfl,rfl⟩)) (by decide +kernel)
  exact revived_not_sequential (h none revived hreach)

end Overlaps

end LocalMediaCalls
end WebSyncPlay
