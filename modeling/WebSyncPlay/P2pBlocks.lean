import WebSyncPlay.BlockProtocol
import WebSyncPlay.Library.TransitionSystem

/-! Blocks over one peer connection: a channel that keeps order and loses nothing, on which the
bytes of a block have no label and follow the meta that announces them. -/
namespace WebSyncPlay

open Library

structure PendingRange where
  requestId : String
  expectBinary : Bool := false

structure P2pState where
  /-- `peer.pending`, in the order of insertion. -/
  pending : List PendingRange
  toProvider : List BlockRequest
  serving : List BlockRequest
  toViewer : List ChannelFrame
  calls : String → Option (ℚ × ℚ)
  reads : String → List BlockRead
  settled : String → Option (Option (List UInt8))
  /-- The call that the frame delivered last announced, and the calls that were announced
  without their bytes: nothing in the code reads these two. -/
  announced : Option String
  halfSent : List String

namespace P2pState

def forget (s : P2pState) (requestId : String) : P2pState :=
  { s with pending := s.pending.filter fun p => p.requestId != requestId }

/-- A promise keeps the value it was settled with first. -/
def resolve (s : P2pState) (requestId : String) (value : Option (List UInt8)) : P2pState :=
  { s with settled :=
      Function.update s.settled requestId (some ((s.settled requestId).getD value)) }

def expectBinary (s : P2pState) (requestId : String) : P2pState :=
  { s with pending := s.pending.map fun p =>
      if p.requestId = requestId then { p with expectBinary := true } else p }

def call (s : P2pState) (request : BlockRequest) : P2pState :=
  { s with
    calls := Function.update s.calls request.requestId (some (request.start,request.stop))
    pending := s.pending ++ [⟨request.requestId,false⟩] }

def sendToViewer (s : P2pState) (frames : List ChannelFrame) : P2pState :=
  { s with toViewer := s.toViewer ++ frames }

def noteRead (s : P2pState) (request : BlockRequest) (bytes : List UInt8) : P2pState :=
  { s with
    reads := Function.update s.reads request.requestId
      (⟨request.start,request.stop,bytes⟩ :: s.reads request.requestId) }

def noteHalfSent (s : P2pState) (requestId : String) : P2pState :=
  { s with halfSent := requestId :: s.halfSent }

end P2pState

section Viewer

def handleMetaFrame (s : P2pState) (requestId : String) (ok : Bool) : P2pState :=
  if requestId = "" ∨ ∀ p ∈ s.pending, p.requestId ≠ requestId then s
  else if ok then s.expectBinary requestId
  else (s.forget requestId).resolve requestId none

/-- Match the oldest pending waiting for binary. -/
def handleBinaryFrame (s : P2pState) (bytes : List UInt8) : P2pState :=
  match s.pending.find? PendingRange.expectBinary with
  | some p => (s.forget p.requestId).resolve p.requestId (some bytes)
  | none => s

def handleChannelFrame (s : P2pState) : ChannelFrame → P2pState
  | .text (.blockMeta (some requestId) ok _ _) => handleMetaFrame s requestId ok
  | .text _ => s
  | .binary bytes => handleBinaryFrame s bytes

/-- The call whose bytes a frame announces. -/
def announces : ChannelFrame → Option String
  | .text (.blockMeta (some requestId) true _ _) => some requestId
  | _ => none

end Viewer

inductive P2pStep
  | fetch (request : BlockRequest) (sent : Bool)
  | timeout (requestId : String)
  | receive
  | serve (i : ℕ) (hasFile : Bool) (read : ReadOutcome) (metaSent bytesSent : Bool)
  | deliver

/-- `fetchLocalMediaRangeViaWebrtc` on an open channel, with an id that no call had; a send
that throws rejects the promise and leaves the entry to its timer. -/
def fetchViaWebrtc (s : P2pState) (request : BlockRequest) (sent : Bool) : Option P2pState :=
  if (s.calls request.requestId).isSome then none
  else
    some (if sent then { s.call request with toProvider := s.toProvider ++ [request] }
      else (s.call request).resolve request.requestId none)

/-- A request that is being served, in any order, has its answer. The two sends of a block
are one after the other, and what throws ends the handler. -/
def answerRequest (s : P2pState) (i : ℕ) (hasFile : Bool) (read : ReadOutcome)
    (metaSent bytesSent : Bool) : Option P2pState :=
  match s.serving[i]? with
  | none => none
  | some request =>
    let rest := { s with serving := s.serving.eraseIdx i }
    match serveLocalMediaRange hasFile false request read with
    | .error code =>
      some (if metaSent then
        rest.sendToViewer [encodeLocalMediaBlockMetaError request.requestId code.text] else rest)
    | .ok bytes =>
      let blockMeta := encodeLocalMediaBlockMetaOk request.requestId bytes.length
      some (if metaSent then
          if bytesSent then
            (rest.noteRead request bytes).sendToViewer [blockMeta,.binary bytes]
          else
            ((rest.noteRead request bytes).noteHalfSent request.requestId).sendToViewer [blockMeta]
        else rest.noteRead request bytes)

def p2pStep (s : P2pState) : P2pStep → Option P2pState
  | .fetch request sent => fetchViaWebrtc s request sent
  | .timeout requestId =>
    if ∃ p ∈ s.pending, p.requestId = requestId then
      some ((s.forget requestId).resolve requestId none)
    else none
  | .receive =>
    match s.toProvider with
    | request :: rest => some { s with toProvider := rest, serving := s.serving ++ [request] }
    | [] => none
  | .serve i hasFile read metaSent bytesSent => answerRequest s i hasFile read metaSent bytesSent
  | .deliver =>
    match s.toViewer with
    | frame :: rest =>
      some { handleChannelFrame s frame with toViewer := rest, announced := announces frame }
    | [] => none

def P2pState.idle : P2pState where
  pending := []
  toProvider := []
  serving := []
  toViewer := []
  calls _ := none
  reads _ := []
  settled _ := none
  announced := none
  halfSent := []

def p2pSystem : TransitionSystem P2pState P2pStep where
  init s := s = .idle
  step s a s' := p2pStep s a = some s'

/-- When bytes arrive, the oldest call that waits for some is not one whose own bytes were
never sent. -/
def OldestServed (s : P2pState) (a : P2pStep) : Prop :=
  ∀ bytes rest p, a = .deliver → s.toViewer = .binary bytes :: rest →
    s.pending.find? PendingRange.expectBinary = some p → p.requestId ∉ s.halfSent

instance (s : P2pState) (a : P2pStep) : Decidable (OldestServed s a) :=
  match a,hframes : s.toViewer,hfind : s.pending.find? PendingRange.expectBinary with
  | .deliver,.binary bytes :: rest,some p =>
    decidable_of_iff (p.requestId ∉ s.halfSent) (by simp [OldestServed,hframes,hfind])
  | .deliver,.binary bytes :: rest,none => isTrue (by simp [OldestServed,hfind])
  | .deliver,.text message :: rest,_ | .deliver,[],_ => isTrue (by simp [OldestServed,hframes])
  | .fetch ..,_,_ | .timeout _,_,_ | .receive,_,_ | .serve ..,_,_ => isTrue nofun

section Labels

variable {s s' : P2pState}

/-- Bytes on the channel are behind the meta of the call they were read for; a meta without
its bytes is that of a call whose send threw. -/
def Labelled (reads : String → List BlockRead) (halfSent : List String) :
    Option String → List ChannelFrame → Prop
  | _,[] => True
  | before,frame :: rest =>
    (∀ bytes, frame = .binary bytes → ∃ id read, before = some id ∧ id ∉ halfSent ∧
      reads id = [read] ∧ read.bytes = bytes) ∧
    (∀ id, announces frame = some id → reads id ≠ [] ∧
      (id ∈ halfSent ∨ ∃ bytes more, rest = .binary bytes :: more)) ∧
    Labelled reads halfSent (announces frame) rest

variable {reads reads' : String → List BlockRead} {halfSent halfSent' : List String}

theorem Labelled.append_text {frames more : List ChannelFrame} {message : BlockMessage}
    {before : Option String} (h : Labelled reads halfSent before frames)
    (hmore : Labelled reads halfSent none (.text message :: more)) :
    Labelled reads halfSent before (frames ++ .text message :: more) := by
  induction frames generalizing before with
  | nil => exact ⟨nofun,hmore.2⟩
  | cons frame frames ih =>
    obtain ⟨hbytes,hannounce,hrest⟩ := h
    refine ⟨hbytes,fun id hid => ?_,ih hrest⟩
    obtain ⟨hread,hnext⟩ := hannounce id hid
    refine ⟨hread,hnext.imp_right ?_⟩
    rintro ⟨bytes,rest,rfl⟩
    exact ⟨bytes,rest ++ .text message :: more,rfl⟩

theorem Labelled.served {frames : List ChannelFrame} {before : Option String}
    (h : Labelled reads halfSent before frames) {served : String} (hfresh : reads served = [])
    (hreads : ∀ id, id ≠ served → reads' id = reads id)
    (hhalf : ∀ id, id ≠ served → (id ∈ halfSent' ↔ id ∈ halfSent)) :
    Labelled reads' halfSent' before frames := by
  have hne : ∀ id, reads id ≠ [] → id ≠ served := by
    rintro id hid rfl
    exact hid hfresh
  induction frames generalizing before with
  | nil => trivial
  | cons frame frames ih =>
    obtain ⟨hbytes,hannounce,hrest⟩ := h
    refine ⟨fun bytes hframe => ?_,fun id hid => ?_,ih hrest⟩
    · obtain ⟨id,read,hbefore,hid,hread,hsame⟩ := hbytes bytes hframe
      have hids : id ≠ served := hne id (by simp [hread])
      refine ⟨id,read,hbefore,?_,?_,hsame⟩
      · rwa [hhalf id hids]
      · rw [hreads id hids,hread]
    · obtain ⟨hread,hnext⟩ := hannounce id hid
      have hids : id ≠ served := hne id hread
      rw [hreads id hids,hhalf id hids]
      exact ⟨hread,hnext⟩

end Labels

section Invariant

variable {s s' : P2pState} {id : String}

/-- What holds in between as well: each request is served once, bytes on the channel are
labelled by the frame before, and calls that got bytes got their own. -/
structure P2pBase (s : P2pState) : Prop where
  called : ∀ p ∈ s.pending, s.calls p.requestId ≠ none
  uncalled : ∀ id, s.calls id = none → s.settled id = none
  nodup : ((s.toProvider ++ s.serving).map BlockRequest.requestId).Nodup
  waiting : ∀ request ∈ s.toProvider ++ s.serving,
    s.calls request.requestId = some (request.start,request.stop) ∧
      s.reads request.requestId = []
  read : ∀ id, s.reads id = [] ∨ ∃ read, s.calls id = some (read.start,read.stop) ∧
    s.reads id = [read]
  half : ∀ id ∈ s.halfSent, s.reads id ≠ []
  labelled : Labelled s.reads s.halfSent s.announced s.toViewer
  unsettled : ∀ p ∈ s.pending, s.settled p.requestId ≠ none → s.reads p.requestId = [] ∧
    ∀ request ∈ s.toProvider ++ s.serving, request.requestId ≠ p.requestId
  resolved : ∀ id bytes, s.settled id = some (some bytes) →
    ∃ read, s.reads id = [read] ∧ read.bytes = bytes

/-- A call that waits for bytes was announced just now, or its bytes were never sent. -/
def MarksRight (s : P2pState) : Prop :=
  ∀ p ∈ s.pending, p.expectBinary = true → s.reads p.requestId ≠ [] ∧
    (p.requestId ∈ s.halfSent ∨
      s.announced = some p.requestId ∧ ∃ bytes rest, s.toViewer = .binary bytes :: rest)

theorem p2pBase_idle : P2pBase .idle :=
  ⟨nofun,fun _ _ => rfl,List.nodup_nil,nofun,fun _ => Or.inl rfl,nofun,trivial,nofun,nofun⟩

theorem P2pBase.settle (h : P2pBase s) (hcalled : s.calls id ≠ none)
    {value : Option (List UInt8)} (hvalue : ∀ bytes, value = some bytes →
      ∃ read, s.reads id = [read] ∧ read.bytes = bytes) :
    P2pBase ((s.forget id).resolve id value) := by
  have hmem : ∀ p ∈ ((s.forget id).resolve id value).pending, p ∈ s.pending ∧ p.requestId ≠ id := by
    intro p hp
    obtain ⟨hp,hne⟩ := List.mem_filter.mp hp
    exact ⟨hp,by simpa using hne⟩
  have hsettled : ∀ other, other ≠ id →
      ((s.forget id).resolve id value).settled other = s.settled other := by
    intro other hother
    simp [P2pState.resolve,P2pState.forget,hother]
  have hsettled_id : ((s.forget id).resolve id value).settled id =
      some ((s.settled id).getD value) := by
    simp [P2pState.resolve,P2pState.forget]
  constructor
  case called => exact fun p hp => h.called p (hmem p hp).1
  case uncalled =>
    intro other hother
    have hne : other ≠ id := by
      rintro rfl
      exact hcalled hother
    rw [hsettled other hne]
    exact h.uncalled other hother
  case nodup => exact h.nodup
  case waiting => exact h.waiting
  case read => exact h.read
  case half => exact h.half
  case labelled => exact h.labelled
  case unsettled =>
    intro p hp hsome
    obtain ⟨hp,hne⟩ := hmem p hp
    rw [hsettled _ hne] at hsome
    exact h.unsettled p hp hsome
  case resolved =>
    intro other bytes hbytes
    by_cases hother : other = id
    · subst hother
      rw [hsettled_id] at hbytes
      cases hold : s.settled other with
      | none =>
        rw [hold] at hbytes
        exact hvalue bytes (Option.some.inj hbytes)
      | some old =>
        rw [hold] at hbytes
        exact h.resolved other bytes (hold.trans hbytes)
    · rw [hsettled other hother] at hbytes
      exact h.resolved other bytes hbytes

theorem P2pBase.mark (h : P2pBase s) (id : String) : P2pBase (s.expectBinary id) := by
  have hmem : ∀ p ∈ (s.expectBinary id).pending,
      ∃ old ∈ s.pending, old.requestId = p.requestId := by
    intro p hp
    obtain ⟨old,hold,rfl⟩ := List.mem_map.mp hp
    refine ⟨old,hold,?_⟩
    by_cases hid : old.requestId = id <;> simp [hid]
  constructor
  case called =>
    intro p hp
    obtain ⟨old,hold,hsame⟩ := hmem p hp
    rw [← hsame]
    exact h.called old hold
  case uncalled => exact h.uncalled
  case nodup => exact h.nodup
  case waiting => exact h.waiting
  case read => exact h.read
  case half => exact h.half
  case labelled => exact h.labelled
  case unsettled =>
    intro p hp hsome
    obtain ⟨old,hold,hsame⟩ := hmem p hp
    rw [← hsame] at hsome ⊢
    exact h.unsettled old hold hsome
  case resolved => exact h.resolved

theorem P2pBase.pop (h : P2pBase s) {frame : ChannelFrame} {rest : List ChannelFrame}
    (hframe : s.toViewer = frame :: rest) :
    P2pBase { s with toViewer := rest, announced := announces frame } := by
  have hlabelled := h.labelled
  rw [hframe] at hlabelled
  exact ⟨h.called,h.uncalled,h.nodup,h.waiting,h.read,h.half,hlabelled.2.2,h.unsettled,h.resolved⟩

theorem P2pBase.call (h : P2pBase s) {request : BlockRequest}
    (hfresh : s.calls request.requestId = none) : P2pBase (s.call request) := by
  have hsome : ∀ other called, s.calls other = some called →
      (s.call request).calls other = some called := by
    intro other called hcalled
    have hne : other ≠ request.requestId := by
      rintro rfl
      simp [hfresh] at hcalled
    simpa [P2pState.call,hne] using hcalled
  constructor
  case called =>
    intro p hp
    rcases List.mem_append.mp hp with hp | hp
    · obtain ⟨called,hcalled⟩ := Option.ne_none_iff_exists'.mp (h.called p hp)
      rw [hsome _ called hcalled]
      simp
    · rw [List.mem_singleton.mp hp]
      simp [P2pState.call]
  case uncalled =>
    intro other hnone
    refine h.uncalled other ?_
    by_contra hother
    obtain ⟨called,hcalled⟩ := Option.ne_none_iff_exists'.mp hother
    simp [hsome other called hcalled] at hnone
  case nodup => exact h.nodup
  case waiting =>
    intro r hr
    obtain ⟨hcall,hread⟩ := h.waiting r hr
    exact ⟨hsome _ _ hcall,hread⟩
  case read =>
    intro other
    refine (h.read other).imp_right ?_
    rintro ⟨read,hcall,hread⟩
    exact ⟨read,hsome _ _ hcall,hread⟩
  case half => exact h.half
  case labelled => exact h.labelled
  case unsettled =>
    intro p hp hsettled
    rcases List.mem_append.mp hp with hp | hp
    · exact h.unsettled p hp hsettled
    · rw [List.mem_singleton.mp hp] at hsettled
      exact absurd (h.uncalled _ hfresh) hsettled
  case resolved => exact h.resolved

theorem P2pBase.fresh (h : P2pBase s) (hfresh : s.calls id = none) : s.reads id = [] ∧
    ∀ request ∈ s.toProvider ++ s.serving, request.requestId ≠ id := by
  refine ⟨?_,fun request hrequest hsame => ?_⟩
  · rcases h.read id with hread | ⟨read,hcall,-⟩
    · exact hread
    · simp [hfresh] at hcall
  · have hcall := (h.waiting request hrequest).1
    simp [hsame,hfresh] at hcall

theorem P2pBase.ask (h : P2pBase s) {request : BlockRequest}
    (hcall : s.calls request.requestId = some (request.start,request.stop))
    (hread : s.reads request.requestId = [])
    (hnew : ∀ other ∈ s.toProvider ++ s.serving, other.requestId ≠ request.requestId)
    (hopen : s.settled request.requestId = none) :
    P2pBase { s with toProvider := s.toProvider ++ [request] } := by
  have hperm : (s.toProvider ++ [request] ++ s.serving).Perm
      (request :: (s.toProvider ++ s.serving)) := by
    rw [List.append_assoc]
    exact List.perm_middle
  constructor
  case called => exact h.called
  case uncalled => exact h.uncalled
  case nodup =>
    rw [(hperm.map BlockRequest.requestId).nodup_iff,List.map_cons,List.nodup_cons]
    refine ⟨fun hmem => ?_,h.nodup⟩
    obtain ⟨other,hother,hsame⟩ := List.mem_map.mp hmem
    exact hnew other hother hsame
  case waiting =>
    intro other hother
    rcases List.mem_cons.mp (hperm.subset hother) with rfl | hother
    · exact ⟨hcall,hread⟩
    · exact h.waiting other hother
  case read => exact h.read
  case half => exact h.half
  case labelled => exact h.labelled
  case unsettled =>
    intro p hp hsome
    obtain ⟨hnil,hnone⟩ := h.unsettled p hp hsome
    refine ⟨hnil,fun other hother hsame => ?_⟩
    rcases List.mem_cons.mp (hperm.subset hother) with rfl | hother
    · rw [← hsame] at hsome
      exact hsome hopen
    · exact hnone other hother hsame
  case resolved => exact h.resolved

theorem P2pBase.reject (h : P2pBase s) (hcalled : s.calls id ≠ none) (hread : s.reads id = [])
    (hnone : ∀ request ∈ s.toProvider ++ s.serving, request.requestId ≠ id)
    (hopen : s.settled id = none) : P2pBase (s.resolve id none) := by
  have hsettled : ∀ other, other ≠ id → (s.resolve id none).settled other = s.settled other := by
    intro other hother
    simp [P2pState.resolve,hother]
  have hsettled_id : (s.resolve id none).settled id = some none := by
    simp [P2pState.resolve,hopen]
  constructor
  case called => exact h.called
  case uncalled =>
    intro other hother
    have hne : other ≠ id := by
      rintro rfl
      exact hcalled hother
    rw [hsettled other hne]
    exact h.uncalled other hother
  case nodup => exact h.nodup
  case waiting => exact h.waiting
  case read => exact h.read
  case half => exact h.half
  case labelled => exact h.labelled
  case unsettled =>
    intro p hp hsome
    by_cases hp' : p.requestId = id
    · rw [hp']
      exact ⟨hread,hnone⟩
    · rw [hsettled _ hp'] at hsome
      exact h.unsettled p hp hsome
  case resolved =>
    intro other bytes hbytes
    by_cases hother : other = id
    · subst hother
      rw [hsettled_id] at hbytes
      cases hbytes
    · rw [hsettled other hother] at hbytes
      exact h.resolved other bytes hbytes

theorem P2pBase.of_requests (h : P2pBase s) {toProvider serving : List BlockRequest}
    (hnodup : ((toProvider ++ serving).map BlockRequest.requestId).Nodup)
    (hsub : ∀ request ∈ toProvider ++ serving, request ∈ s.toProvider ++ s.serving) :
    P2pBase { s with toProvider := toProvider, serving := serving } := by
  refine ⟨h.called,h.uncalled,hnodup,fun request hrequest => ?_,h.read,h.half,h.labelled,
    fun p hp hsome => ?_,h.resolved⟩
  · exact h.waiting request (hsub request hrequest)
  · obtain ⟨hnil,hnone⟩ := h.unsettled p hp hsome
    exact ⟨hnil,fun request hrequest => hnone request (hsub request hrequest)⟩

theorem P2pBase.sendText (h : P2pBase s) {message : BlockMessage} {more : List ChannelFrame}
    (hmore : Labelled s.reads s.halfSent none (.text message :: more)) :
    P2pBase (s.sendToViewer (.text message :: more)) :=
  ⟨h.called,h.uncalled,h.nodup,h.waiting,h.read,h.half,h.labelled.append_text hmore,h.unsettled,
    h.resolved⟩

theorem P2pBase.readBytes (h : P2pBase s) {request : BlockRequest} {halfSent : List String}
    (bytes : List UInt8) (hcall : s.calls request.requestId = some (request.start,request.stop))
    (hread : s.reads request.requestId = [])
    (hnone : ∀ other ∈ s.toProvider ++ s.serving, other.requestId ≠ request.requestId)
    (hopen : ∀ p ∈ s.pending, s.settled p.requestId ≠ none → p.requestId ≠ request.requestId)
    (hhalf : halfSent = s.halfSent ∨ halfSent = request.requestId :: s.halfSent) :
    P2pBase { s.noteRead request bytes with halfSent := halfSent } := by
  have hreads : ∀ id, id ≠ request.requestId →
      (s.noteRead request bytes).reads id = s.reads id := by
    intro id hid
    simp [P2pState.noteRead,hid]
  have hself : (s.noteRead request bytes).reads request.requestId =
      [⟨request.start,request.stop,bytes⟩] := by
    simp [P2pState.noteRead,hread]
  have hhalf' : ∀ id, id ≠ request.requestId → (id ∈ halfSent ↔ id ∈ s.halfSent) := by
    intro id hid
    rcases hhalf with rfl | rfl
    · exact Iff.rfl
    · simp [hid]
  constructor
  case called => exact h.called
  case uncalled => exact h.uncalled
  case nodup => exact h.nodup
  case waiting =>
    intro other hother
    obtain ⟨hcall',hread'⟩ := h.waiting other hother
    exact ⟨hcall',(hreads _ (hnone other hother)).trans hread'⟩
  case read =>
    intro id
    by_cases hid : id = request.requestId
    · subst hid
      exact Or.inr ⟨⟨request.start,request.stop,bytes⟩,hcall,hself⟩
    · refine (h.read id).imp (fun hnil => (hreads id hid).trans hnil) ?_
      rintro ⟨read,hcall',hread'⟩
      exact ⟨read,hcall',(hreads id hid).trans hread'⟩
  case half =>
    intro id hmem
    by_cases hid : id = request.requestId
    · subst hid
      exact hself ▸ by simp
    · exact (hreads id hid).symm ▸ h.half id ((hhalf' id hid).mp hmem)
  case labelled => exact h.labelled.served hread hreads hhalf'
  case unsettled =>
    intro p hp hsome
    obtain ⟨hnil,hnone'⟩ := h.unsettled p hp hsome
    exact ⟨(hreads _ (hopen p hp hsome)).trans hnil,hnone'⟩
  case resolved =>
    intro id bytes' hbytes
    obtain ⟨read,hread',hsame⟩ := h.resolved id bytes' hbytes
    have hid : id ≠ request.requestId := by
      rintro rfl
      simp [hread] at hread'
    exact ⟨read,(hreads id hid).trans hread',hsame⟩

theorem marksRight_idle : MarksRight .idle := nofun

theorem MarksRight.mono (h : MarksRight s)
    (hpending : ∀ p ∈ s'.pending, p.expectBinary = true → p ∈ s.pending)
    (hreads : ∀ id, s.reads id ≠ [] → s'.reads id ≠ []) (hhalf : s.halfSent ⊆ s'.halfSent)
    (hannounced : s'.announced = s.announced)
    (hviewer : ∃ more, s'.toViewer = s.toViewer ++ more) : MarksRight s' := by
  intro p hp hmark
  obtain ⟨hread,hnext⟩ := h p (hpending p hp hmark) hmark
  refine ⟨hreads _ hread,hnext.imp (fun hmem => hhalf hmem) ?_⟩
  rintro ⟨hid,bytes,rest,hrest⟩
  obtain ⟨more,hmore⟩ := hviewer
  exact ⟨hannounced.trans hid,bytes,rest ++ more,by rw [hmore,hrest]; rfl⟩

theorem handleChannelFrame_frame (s : P2pState) (frame : ChannelFrame)
    (rest : List ChannelFrame) (announced : Option String) :
    { handleChannelFrame s frame with toViewer := rest, announced := announced } =
      handleChannelFrame { s with toViewer := rest, announced := announced } frame := by
  cases frame with
  | text message =>
    cases message with
    | blockMeta id ok byteLength error =>
      cases id with
      | none => rfl
      | some id =>
        simp only [handleChannelFrame,handleMetaFrame]
        split
        · rfl
        · split <;> rfl
    | request id start stop => rfl
    | readyAck producerId => rfl
  | binary bytes =>
    simp only [handleChannelFrame,handleBinaryFrame]
    split <;> rfl

theorem P2pBase.next_bytes (h : P2pBase s) {bytes : List UInt8} {rest : List ChannelFrame}
    (hframe : s.toViewer = .binary bytes :: rest) : ∃ id read, s.announced = some id ∧
      id ∉ s.halfSent ∧ s.reads id = [read] ∧ read.bytes = bytes := by
  have hlabelled := h.labelled
  rw [hframe] at hlabelled
  exact hlabelled.1 bytes rfl

/-- The oldest call that waits is the one that the bytes are for. -/
theorem MarksRight.oldest (h : MarksRight s) {p : PendingRange} {id : String}
    (hp : s.pending.find? PendingRange.expectBinary = some p) (hhalf : p.requestId ∉ s.halfSent)
    (hid : s.announced = some id) : p.requestId = id := by
  have hmark : p.expectBinary = true := List.find?_some hp
  obtain ⟨-,hmem | ⟨hannounced,-⟩⟩ := h p (List.mem_of_find?_eq_some hp) hmark
  · exact absurd hmem hhalf
  · exact Option.some.inj (hannounced.symm.trans hid)

theorem deliver_binary (h : P2pBase s) (hmarked : MarksRight s) {bytes : List UInt8}
    {rest : List ChannelFrame} (hframe : s.toViewer = .binary bytes :: rest)
    (hguard : OldestServed s .deliver) :
    P2pBase (handleChannelFrame { s with toViewer := rest, announced := none } (.binary bytes)) ∧
      MarksRight (handleChannelFrame { s with toViewer := rest, announced := none }
        (.binary bytes)) := by
  have hpop : P2pBase { s with toViewer := rest, announced := none } := h.pop hframe
  obtain ⟨id,read,hannounced,hid,hread,hbytes⟩ := h.next_bytes hframe
  rw [handleChannelFrame,handleBinaryFrame]
  cases hfind : s.pending.find? PendingRange.expectBinary with
  | none =>
    dsimp only
    refine ⟨hpop,fun p hp hmark => ?_⟩
    have hnone := List.find?_eq_none.mp hfind p hp
    exact absurd hmark hnone
  | some p =>
    dsimp only
    have hp : p.requestId = id := hmarked.oldest hfind (hguard bytes rest p rfl hframe hfind)
      hannounced
    have hmem : p ∈ s.pending := List.mem_of_find?_eq_some hfind
    refine ⟨hpop.settle (h.called p hmem) fun bytes' hbytes' => ?_,fun q hq hmark => ?_⟩
    · cases hbytes'
      rw [hp]
      exact ⟨read,hread,hbytes⟩
    · obtain ⟨hq,hne⟩ := List.mem_filter.mp hq
      obtain ⟨hqread,hqhalf | ⟨hsame,-⟩⟩ := hmarked q hq hmark
      · exact ⟨hqread,Or.inl hqhalf⟩
      · have hsame' : q.requestId = p.requestId :=
          (Option.some.inj (hsame.symm.trans hannounced)).trans hp.symm
        simp [hsame'] at hne

theorem deliver_text (h : P2pBase s) (hmarked : MarksRight s) {message : BlockMessage}
    {rest : List ChannelFrame} (hframe : s.toViewer = .text message :: rest) :
    P2pBase (handleChannelFrame { s with
      toViewer := rest, announced := announces (.text message) } (.text message)) ∧
      MarksRight (handleChannelFrame { s with
        toViewer := rest, announced := announces (.text message) } (.text message)) := by
  have hpop := h.pop hframe
  -- Whoever waited before this frame waits for bytes that were never sent.
  have hwaited : ∀ p ∈ s.pending, p.expectBinary = true →
      s.reads p.requestId ≠ [] ∧ p.requestId ∈ s.halfSent := by
    intro p hp hmark
    obtain ⟨hread,hmem | ⟨-,bytes,more,hmore⟩⟩ := hmarked p hp hmark
    · exact ⟨hread,hmem⟩
    · rw [hframe] at hmore
      cases hmore
  have hkeep : MarksRight { s with toViewer := rest, announced := announces (.text message) } := by
    intro p hp hmark
    obtain ⟨hread,hhalf⟩ := hwaited p hp hmark
    exact ⟨hread,Or.inl hhalf⟩
  cases message with
  | request id start stop => exact ⟨hpop,hkeep⟩
  | readyAck producerId => exact ⟨hpop,hkeep⟩
  | blockMeta id? ok byteLength error =>
    cases id? with
    | none => exact ⟨hpop,hkeep⟩
    | some id =>
      rw [handleChannelFrame,handleMetaFrame]
      split
      · exact ⟨hpop,hkeep⟩
      rename_i hknown
      push Not at hknown
      obtain ⟨-,p,hp,rfl⟩ := hknown
      cases ok with
      | true =>
        refine ⟨hpop.mark _,fun q hq hmark => ?_⟩
        have hlabelled := h.labelled
        rw [hframe] at hlabelled
        obtain ⟨hread,hnext⟩ := hlabelled.2.1 p.requestId rfl
        obtain ⟨old,hold,rfl⟩ := List.mem_map.mp hq
        by_cases hsame : old.requestId = p.requestId
        · simp only [hsame,if_true]
          exact ⟨hread,hnext.imp_right fun hbytes => ⟨rfl,hbytes⟩⟩
        · simp only [hsame,if_false] at hmark ⊢
          obtain ⟨hread',hhalf⟩ := hwaited old hold hmark
          exact ⟨hread',Or.inl hhalf⟩
      | false =>
        refine ⟨hpop.settle (h.called p hp) nofun,fun q hq hmark => ?_⟩
        exact hkeep q (List.mem_filter.mp hq).1 hmark

theorem answer_step (h : P2pBase s) (hmarked : MarksRight s) {i : ℕ} {hasFile : Bool}
    {read : ReadOutcome} {metaSent bytesSent : Bool}
    (hs' : answerRequest s i hasFile read metaSent bytesSent = some s') :
    P2pBase s' ∧ MarksRight s' := by
  unfold answerRequest at hs'
  split at hs'
  · cases hs'
  rename_i request hrequest
  have hmem : request ∈ s.serving := List.mem_of_getElem? hrequest
  obtain ⟨hcall,hread⟩ := h.waiting request (List.mem_append_right _ hmem)
  obtain ⟨hlt,hith⟩ := List.getElem?_eq_some_iff.mp hrequest
  have hsub : (s.toProvider ++ s.serving.eraseIdx i).Sublist (s.toProvider ++ s.serving) :=
    (List.Sublist.refl _).append (List.eraseIdx_sublist _ _)
  have hrest := h.of_requests (h.nodup.sublist (hsub.map _)) fun r hr => hsub.subset hr
  have hnone : ∀ other ∈ s.toProvider ++ s.serving.eraseIdx i,
      other.requestId ≠ request.requestId := by
    have hsplit : s.serving = s.serving.take i ++ request :: s.serving.drop (i+1) := by
      rw [← hith,List.getElem_cons_drop hlt,List.take_append_drop]
    have hperm : (s.toProvider ++ s.serving).Perm
        (request :: (s.toProvider ++ s.serving.eraseIdx i)) := by
      rw [List.eraseIdx_eq_take_drop_succ]
      nth_rewrite 1 [hsplit]
      rw [← List.append_assoc,← List.append_assoc]
      exact List.perm_middle
    have hcons := (hperm.map BlockRequest.requestId).nodup_iff.mp h.nodup
    rw [List.map_cons,List.nodup_cons] at hcons
    intro other hother hsame
    exact hcons.1 (hsame ▸ List.mem_map_of_mem hother)
  have hopen : ∀ p ∈ s.pending, s.settled p.requestId ≠ none →
      p.requestId ≠ request.requestId := fun p hp hsome =>
    ((h.unsettled p hp hsome).2 request (List.mem_append_right _ hmem)).symm
  have hreads : ∀ bytes id, s.reads id ≠ [] → (s.noteRead request bytes).reads id ≠ [] := by
    intro bytes id hid
    have hne : id ≠ request.requestId := by
      rintro rfl
      exact hid hread
    simpa [P2pState.noteRead,hne] using hid
  cases hresult : serveLocalMediaRange hasFile false request read with
  | error code =>
    rw [hresult] at hs'
    cases metaSent with
    | true =>
      cases hs'
      exact ⟨hrest.sendText ⟨nofun,nofun,trivial⟩,hmarked.mono (fun p hp _ => hp)
        (fun _ hid => hid) (fun _ hid => hid) rfl ⟨_,rfl⟩⟩
    | false =>
      cases hs'
      exact ⟨hrest,hmarked⟩
  | ok bytes =>
    rw [hresult] at hs'
    have hself : (s.noteRead request bytes).reads request.requestId =
        [⟨request.start,request.stop,bytes⟩] := by
      simp [P2pState.noteRead,hread]
    have hnew : request.requestId ∉ s.halfSent := fun hid => h.half _ hid hread
    cases metaSent with
    | false =>
      cases hs'
      exact ⟨hrest.readBytes bytes hcall hread hnone hopen (Or.inl rfl),
        hmarked.mono (fun p hp _ => hp) (hreads bytes) (fun _ hid => hid) rfl
          ⟨[],(List.append_nil _).symm⟩⟩
    | true =>
      cases bytesSent with
      | true =>
        cases hs'
        have hbase := hrest.readBytes bytes hcall hread hnone hopen (Or.inl rfl)
        refine ⟨hbase.sendText ⟨nofun,fun id hid => ?_,fun bytes' hbytes' => ?_,nofun,trivial⟩,
          hmarked.mono (fun p hp _ => hp) (hreads bytes) (fun _ hid => hid) rfl ⟨_,rfl⟩⟩
        · obtain rfl : request.requestId = id := Option.some.inj hid
          exact ⟨hself ▸ List.cons_ne_nil _ _,Or.inr ⟨bytes,[],rfl⟩⟩
        · cases hbytes'
          exact ⟨request.requestId,_,rfl,hnew,hself,rfl⟩
      | false =>
        cases hs'
        have hbase := hrest.readBytes bytes hcall hread hnone hopen (Or.inr rfl)
        refine ⟨hbase.sendText ⟨nofun,fun id hid => ?_,trivial⟩,
          hmarked.mono (fun p hp _ => hp) (hreads bytes)
            (fun _ hid => List.mem_cons_of_mem _ hid) rfl ⟨_,rfl⟩⟩
        obtain rfl : request.requestId = id := Option.some.inj hid
        exact ⟨hself ▸ List.cons_ne_nil _ _,Or.inl List.mem_cons_self⟩

theorem fetch_step (h : P2pBase s) (hmarked : MarksRight s) {request : BlockRequest} {sent : Bool}
    (hs' : fetchViaWebrtc s request sent = some s') : P2pBase s' ∧ MarksRight s' := by
  unfold fetchViaWebrtc at hs'
  split at hs'
  · cases hs'
  rename_i hnew
  have hfresh : s.calls request.requestId = none := by simpa using hnew
  obtain ⟨hread,hnone⟩ := h.fresh hfresh
  have hcall : (s.call request).calls request.requestId = some (request.start,request.stop) :=
    Function.update_self ..
  have hbase := h.call hfresh
  have hmark : MarksRight (s.call request) := by
    refine hmarked.mono (fun p hp hmark => ?_) (fun _ hid => hid) (fun _ hid => hid) rfl
      ⟨[],(List.append_nil _).symm⟩
    refine (List.mem_append.mp hp).resolve_right fun hlast => ?_
    rw [List.mem_singleton.mp hlast] at hmark
    cases hmark
  cases sent with
  | true =>
    cases hs'
    exact ⟨hbase.ask hcall hread hnone (h.uncalled _ hfresh),hmark⟩
  | false =>
    cases hs'
    refine ⟨hbase.reject ?_ hread hnone (h.uncalled _ hfresh),hmark⟩
    rw [hcall]
    simp

theorem p2p_step (h : P2pBase s) (hmarked : MarksRight s) {a : P2pStep} (hguard : OldestServed s a)
    (hs' : p2pStep s a = some s') : P2pBase s' ∧ MarksRight s' := by
  cases a with
  | fetch request sent => exact fetch_step h hmarked hs'
  | timeout id =>
    rw [p2pStep] at hs'
    split at hs'
    · rename_i hex
      obtain ⟨p,hp,rfl⟩ := hex
      cases hs'
      refine ⟨h.settle (h.called p hp) nofun,fun q hq hmark => ?_⟩
      exact hmarked q (List.mem_filter.mp hq).1 hmark
    · cases hs'
  | receive =>
    rw [p2pStep] at hs'
    split at hs'
    · rename_i request rest hqueue
      cases hs'
      have hperm : (rest ++ (s.serving ++ [request])).Perm (s.toProvider ++ s.serving) := by
        rw [hqueue,List.cons_append,← List.append_assoc]
        exact List.perm_append_singleton _ _
      exact ⟨h.of_requests ((hperm.map BlockRequest.requestId).nodup_iff.mpr h.nodup)
        (fun _ hr => hperm.subset hr),hmarked⟩
    · cases hs'
  | serve i hasFile read metaSent bytesSent => exact answer_step h hmarked hs'
  | deliver =>
    rw [p2pStep] at hs'
    split at hs'
    · rename_i frame rest hframe
      cases hs'
      rw [handleChannelFrame_frame]
      cases frame with
      | text message => exact deliver_text h hmarked hframe
      | binary bytes => exact deliver_binary h hmarked hframe hguard
    · cases hs'

end Invariant

section Answers

theorem handleChannelFrame_reads (s : P2pState) (frame : ChannelFrame) :
    (handleChannelFrame s frame).reads = s.reads := by
  cases frame with
  | text message =>
    cases message with
    | blockMeta id ok byteLength error =>
      cases id with
      | none => rfl
      | some id =>
        simp only [handleChannelFrame,handleMetaFrame]
        split
        · rfl
        · split <;> rfl
    | request id start stop => rfl
    | readyAck producerId => rfl
  | binary bytes =>
    simp only [handleChannelFrame,handleBinaryFrame]
    split <;> rfl

theorem p2p_reads_of_step {s s' : P2pState} {a : P2pStep} (h : p2pStep s a = some s')
    {id : String} {read : BlockRead} (hread : read ∈ s'.reads id) : read ∈ s.reads id ∨
      ∃ i hasFile bytes metaSent bytesSent,
        a = .serve i hasFile (.bytes bytes) metaSent bytesSent ∧
          ∃ request ∈ s.serving[i]?, read = ⟨request.start,request.stop,bytes⟩ := by
  cases a with
  | fetch request sent =>
    rw [p2pStep,fetchViaWebrtc] at h
    refine .inl ?_
    split at h
    · cases h
    · cases sent <;> cases h <;> exact hread
  | timeout requestId =>
    rw [p2pStep] at h
    split at h
    · cases h
      exact .inl hread
    · cases h
  | receive =>
    rw [p2pStep] at h
    split at h
    · cases h
      exact .inl hread
    · cases h
  | serve i hasFile outcome metaSent bytesSent =>
    rw [p2pStep,answerRequest] at h
    split at h
    · cases h
    · rename_i request hserving
      split at h
      · cases metaSent <;> cases h <;> exact .inl hread
      · rename_i bytes hserved
        have hnoted : read ∈ Function.update s.reads request.requestId
            (⟨request.start,request.stop,bytes⟩ :: s.reads request.requestId) id := by
          cases metaSent <;> cases bytesSent <;> cases h <;> exact hread
        refine (mem_noted hnoted).imp_right fun heq => ?_
        exact ⟨i,hasFile,bytes,metaSent,bytesSent,by rw [read_of_served hserved],request,
          hserving,heq⟩
  | deliver =>
    rw [p2pStep] at h
    split at h
    · rename_i frame rest _
      cases h
      dsimp only at hread
      rw [handleChannelFrame_reads] at hread
      exact .inl hread
    · cases h


theorem p2p_reachable {s : P2pState} (h : (p2pSystem.restrict OldestServed).Reachable s) :
    P2pBase s ∧ MarksRight s := by
  refine h.invariant (fun s => P2pBase s ∧ MarksRight s) ?_ ?_
  · rintro s rfl
    exact ⟨p2pBase_idle,marksRight_idle⟩
  · rintro s a s' - ⟨hbase,hmarked⟩ ⟨hguard,hstep⟩
    exact p2p_step hbase hmarked hguard hstep

theorem settled_step {s s' : P2pState} {a : P2pStep} (h : p2pStep s a = some s') {id : String}
    {value : Option (List UInt8)} (hid : s.settled id = some value) :
    s'.settled id = some value := by
  have hresolve : ∀ (t : P2pState) other value', t.settled id = some value →
      (t.resolve other value').settled id = some value := by
    intro t other value' ht
    by_cases hother : id = other
    · subst hother
      simp [P2pState.resolve,ht]
    · simpa [P2pState.resolve,hother] using ht
  cases a with
  | fetch request sent =>
    rw [p2pStep,fetchViaWebrtc] at h
    split at h
    · cases h
    · cases sent with
      | true =>
        cases h
        exact hid
      | false =>
        cases h
        exact hresolve _ _ _ hid
  | timeout other =>
    rw [p2pStep] at h
    split at h
    · cases h
      exact hresolve _ _ _ hid
    · cases h
  | receive =>
    rw [p2pStep] at h
    split at h
    · cases h
      exact hid
    · cases h
  | serve i hasFile read metaSent bytesSent =>
    rw [p2pStep,answerRequest] at h
    split at h
    · cases h
    · split at h
      · cases metaSent <;> cases h <;> exact hid
      · cases metaSent <;> cases bytesSent <;> cases h <;> exact hid
  | deliver =>
    rw [p2pStep] at h
    split at h
    · rename_i frame rest hframe
      cases h
      cases frame with
      | text message =>
        cases message with
        | request other start stop => exact hid
        | readyAck producerId => exact hid
        | blockMeta other? ok byteLength error =>
          cases other? with
          | none => exact hid
          | some other =>
            simp only [handleChannelFrame,handleMetaFrame]
            split
            · exact hid
            · split
              · exact hid
              · exact hresolve _ _ _ hid
      | binary bytes =>
        simp only [handleChannelFrame,handleBinaryFrame]
        split
        · exact hresolve _ _ _ hid
        · exact hid
    · cases h

/-- Where the oldest call that waits is one whose own bytes were never sent, it gets the bytes
of another call. -/
theorem wrong_bytes_of_halfSent {s : P2pState} (hbase : P2pBase s) (hmarked : MarksRight s)
    (hguard : ¬OldestServed s .deliver) : ∃ s' id other read,
      p2pStep s .deliver = some s' ∧ s'.settled id = some (some read.bytes) ∧ other ≠ id ∧
        s.reads other = [read] := by
  unfold OldestServed at hguard
  push Not at hguard
  obtain ⟨bytes,rest,p,-,hframe,hfind,hhalf⟩ := hguard
  obtain ⟨id,read,-,hid,hread,rfl⟩ := hbase.next_bytes hframe
  have hmem : p ∈ s.pending := List.mem_of_find?_eq_some hfind
  have hopen : s.settled p.requestId = none := by
    by_contra hsome
    exact (hmarked p hmem (List.find?_some hfind)).1 (hbase.unsettled p hmem hsome).1
  refine ⟨_,p.requestId,id,read,by rw [p2pStep,hframe],?_,?_,hread⟩
  · simp [handleChannelFrame,handleBinaryFrame,hfind,P2pState.resolve,P2pState.forget,hopen]
  · rintro rfl
    exact hid hhalf

/-- Calls that get bytes get those the provider read for them, as long as no call waits, older
than the others, for bytes whose send threw; where one does, it gets the bytes of another. -/
theorem p2p_blocks_right (s : P2pState) :
    ((p2pSystem.restrict OldestServed).Reachable s → ∀ id bytes,
      s.settled id = some (some bytes) → ∃ start stop, s.calls id = some (start,stop) ∧
        s.reads id = [⟨start,stop,bytes⟩]) ∧
    ((p2pSystem.restrict OldestServed).Reachable s → ¬OldestServed s .deliver →
      ∃ s' id other read, p2pStep s .deliver = some s' ∧
        s'.settled id = some (some read.bytes) ∧ other ≠ id ∧ s.reads other = [read]) ∧
    ∀ a s', p2pStep s a = some s' → ∀ id value, s.settled id = some value →
      s'.settled id = some value := by
  refine ⟨fun h id bytes hbytes => ?_,fun h hguard => ?_,
    fun a s' h id value hid => settled_step h hid⟩
  · obtain ⟨hbase,-⟩ := p2p_reachable h
    obtain ⟨read,hread,rfl⟩ := hbase.resolved id bytes hbytes
    rcases hbase.read id with hnil | ⟨read',hcall,hread'⟩
    · simp [hread] at hnil
    · obtain rfl : read = read' := by simpa using hread.symm.trans hread'
      exact ⟨read.start,read.stop,hcall,hread⟩
  · obtain ⟨hbase,hmarked⟩ := p2p_reachable h
    exact wrong_bytes_of_halfSent hbase hmarked hguard

/-- The second of two calls is served first, and both get their own bytes. -/
theorem p2p_blocks_right_two_calls : ∃ s,
    TransitionSystem.runSteps (TransitionSystem.guardStep p2pStep OldestServed) .idle
      [.fetch ⟨"a",0,1⟩ true,.fetch ⟨"b",2,3⟩ true,.receive,.receive,
        .serve 1 true (.bytes [3,4]) true true,.serve 0 true (.bytes [1,2]) true true,
        .deliver,.deliver,.deliver,.deliver] = some s ∧
      (∃ start stop, s.calls "a" = some (start,stop) ∧ s.reads "a" = [⟨start,stop,[1,2]⟩]) ∧
      ∃ start stop, s.calls "b" = some (start,stop) ∧ s.reads "b" = [⟨start,stop,[3,4]⟩] := by
  have hrun : (TransitionSystem.runSteps (TransitionSystem.guardStep p2pStep OldestServed) .idle
      [.fetch ⟨"a",0,1⟩ true,.fetch ⟨"b",2,3⟩ true,.receive,.receive,
        .serve 1 true (.bytes [3,4]) true true,.serve 0 true (.bytes [1,2]) true true,
        .deliver,.deliver,.deliver,.deliver]).map (fun s => (s.settled "a",s.settled "b")) =
          some (some (some [1,2]),some (some [3,4])) := by
    decide +kernel
  obtain ⟨s,hs,hpair⟩ := Option.map_eq_some_iff.mp hrun
  obtain ⟨ha,hb⟩ := Prod.mk.inj hpair
  have hreachable : (p2pSystem.restrict OldestServed).Reachable s :=
    .of_guardSteps (fun _ _ _ hstep => hstep) _ (.init rfl) hs
  have hright := (p2p_blocks_right s).1 hreachable
  exact ⟨s,hs,hright "a" [1,2] ha,hright "b" [3,4] hb⟩

/-- The send of the first block throws after its meta, and its call gets the second block. -/
theorem thrown_send_shifts_blocks : ¬∀ s, p2pSystem.Reachable s → ∀ id bytes,
    s.settled id = some (some bytes) → ∃ start stop, s.calls id = some (start,stop) ∧
      s.reads id = [⟨start,stop,bytes⟩] := by
  intro h
  have hrun : (TransitionSystem.runSteps p2pStep .idle
      [.fetch ⟨"a",0,1⟩ true,.fetch ⟨"b",2,3⟩ true,.receive,.receive,
        .serve 0 true (.bytes [1,2]) true false,.serve 0 true (.bytes [3,4]) true true,
        .deliver,.deliver,.deliver]).map (fun s => (s.settled "a",s.reads "a")) =
          some (some (some [3,4]),[⟨0,1,[1,2]⟩]) := by
    decide +kernel
  obtain ⟨s,hs,hpair⟩ := Option.map_eq_some_iff.mp hrun
  obtain ⟨hsettled,hreads⟩ := Prod.mk.inj hpair
  have hreachable : p2pSystem.Reachable s :=
    .of_runSteps (fun _ _ _ hstep => hstep) _ (.init rfl) hs
  obtain ⟨start,stop,-,hread⟩ := h s hreachable "a" [3,4] hsettled
  rw [hreads] at hread
  cases hread

end Answers

end WebSyncPlay
