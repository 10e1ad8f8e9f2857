import WebSyncPlay.LocalPlayback
import WebSyncPlay.ClientMerge
import WebSyncPlay.PresenceCodec
import WebSyncPlay.Library.TransitionSystem

/-! The playback reports of one user's connections in Redis: `participant:update` messages
(`handlers/participant.ts`) and the removals of closed connections
(`services/local-playback-report-lifecycle.ts`), one Redis command at a time. -/
namespace WebSyncPlay

open Library

def removeLocalPlaybackReport (reports : Record String LocalPlaybackReport)
    (connectionId : String) (now : ℕ) : Record String LocalPlaybackReport :=
  match reports.get? connectionId with
  | none => pruneLocalPlaybackReports reports now
  | some _ => pruneLocalPlaybackReports (reports.erase connectionId) now

structure StoredPresence extends PresencePatch where
  localPlaybackReports : Option (Record String LocalPlaybackReport) := none
  deriving DecidableEq

/-- What `cjson.encode` leaves of a time stamp. -/
def printedStamp (ms : ℕ) : ℕ := (PresenceCodec.luaPrint ms).value

/-- What `cjson.encode` leaves of a position. -/
def printedTime (ms : ℚ) : ℚ := significant PresenceCodec.luaDigits ms

def ParticipantLocalPlayback.printed (playback : ParticipantLocalPlayback) :
    ParticipantLocalPlayback :=
  { playback with
    currentTimeMs := printedTime playback.currentTimeMs
    updatedAt := printedStamp playback.updatedAt }

def LocalPlaybackReport.printed (report : LocalPlaybackReport) : LocalPlaybackReport :=
  { report with
    currentTimeMs := printedTime report.currentTimeMs
    updatedAt := printedStamp report.updatedAt }

def printedReports (reports : Record String LocalPlaybackReport) :
    Record String LocalPlaybackReport :=
  reports.mapValues LocalPlaybackReport.printed

/-- `PRESENCE_MERGE_SCRIPT`: a field that the patch leaves out stays, and all that is stored is
printed again. -/
def mergePresenceData (existing : Option StoredPresence) (patch : StoredPresence) :
    StoredPresence :=
  let existing := existing.getD {}
  { connected := patch.connected <|> existing.connected
    lastSeenAt := (patch.lastSeenAt <|> existing.lastSeenAt).map printedStamp
    disconnectedAt := (patch.disconnectedAt <|> existing.disconnectedAt).map printedStamp
    username := patch.username <|> existing.username
    avatarStyle := patch.avatarStyle <|> existing.avatarStyle
    localPlayback :=
      (patch.localPlayback <|> existing.localPlayback).map ParticipantLocalPlayback.printed
    localPlaybackReports :=
      (patch.localPlaybackReports <|> existing.localPlaybackReports).map printedReports }

def storedReports (presence : Option StoredPresence) : Record String LocalPlaybackReport :=
  (presence.bind StoredPresence.localPlaybackReports).getD Record.empty

def previousPlayback (reports : Record String LocalPlaybackReport) (connectionId : String)
    (participant : ParticipantState) : ParticipantLocalPlayback :=
  match reports.get? connectionId with
  | some report =>
    { paused := report.paused, currentTimeMs := report.currentTimeMs, loading := report.loading,
      error := report.error, updatedAt := report.updatedAt }
  | none => participant.localPlayback

def reportOf (sessionKind : SessionKind) (snapshot : ParticipantLocalPlayback) :
    LocalPlaybackReport where
  sessionKind := sessionKind
  paused := snapshot.paused
  currentTimeMs := snapshot.currentTimeMs
  loading := snapshot.loading
  error := snapshot.error
  updatedAt := snapshot.updatedAt

def presencePatchFromAggregated (now : ℕ) (username avatarStyle : String)
    (localPlayback : ParticipantLocalPlayback)
    (localPlaybackReports : Record String LocalPlaybackReport) : StoredPresence where
  connected := some true
  lastSeenAt := some now
  localPlayback := some localPlayback
  localPlaybackReports := some localPlaybackReports
  username := some username
  avatarStyle := some avatarStyle

/-- Where a `participant:update` handler stands. -/
inductive UpdatePhase
  | received
  | seen (participant : ParticipantState)
  | read (participant : ParticipantState) (presence : Option StoredPresence)
  /-- The merge is on its way, of the report and the reports that were read. -/
  | merging (reports : Record String LocalPlaybackReport) (report : LocalPlaybackReport)
    (patch : StoredPresence)
  | finished
  deriving DecidableEq

def UpdatePhase.isMerging : UpdatePhase → Bool
  | .merging .. => true
  | _ => false

def UpdatePhase.readReports : UpdatePhase → Option (Record String LocalPlaybackReport)
  | .read _ presence => some (storedReports presence)
  | .merging reports _ _ => some reports
  | _ => none

structure ReportUpdate where
  connectionId : String
  sessionKind : SessionKind
  patch : ParticipantUpdateInput
  phase : UpdatePhase
  deriving DecidableEq

inductive RemovalPhase
  | started
  | read (presence : Option StoredPresence)
  | merging (reports : Record String LocalPlaybackReport) (patch : StoredPresence)
  | removed
  deriving DecidableEq

def RemovalPhase.isMerging : RemovalPhase → Bool
  | .merging .. => true
  | _ => false

def RemovalPhase.readReports : RemovalPhase → Option (Record String LocalPlaybackReport)
  | .read presence => some (storedReports presence)
  | .merging reports _ => some reports
  | _ => none

structure ReportState where
  /-- The clock of the node that is furthest ahead. -/
  moment : ℕ
  presence : Option StoredPresence
  received : ℕ
  updates : ℕ → Option ReportUpdate
  /-- The removal of a connection that was closed. -/
  removals : String → Option RemovalPhase
  /-- The report of each connection's latest message, and its number; nothing reads it. -/
  lastReport : String → Option (ℕ × LocalPlaybackReport)

namespace ReportState

def reports (s : ReportState) : Record String LocalPlaybackReport := storedReports s.presence

def setPhase (s : ReportState) (n : ℕ) (update : ReportUpdate) (phase : UpdatePhase) :
    ReportState :=
  { s with updates := Function.update s.updates n (some { update with phase := phase }) }

def setRemoval (s : ReportState) (connectionId : String) (phase : RemovalPhase) : ReportState :=
  { s with removals := Function.update s.removals connectionId (some phase) }

/-- The script stores the properties of the reports in an order of its own. -/
def merge (s : ReportState) (patch : StoredPresence)
    (order : Record String LocalPlaybackReport) : ReportState :=
  { s with
    presence := some (mergePresenceData s.presence
      { patch with localPlaybackReports := some order }) }

def noteReport (s : ReportState) (connectionId : String) (n : ℕ) (report : LocalPlaybackReport) :
    ReportState :=
  match s.lastReport connectionId with
  | some (k,_) =>
    if n < k then s
    else { s with lastReport := Function.update s.lastReport connectionId (some (n,report)) }
  | none => { s with lastReport := Function.update s.lastReport connectionId (some (n,report)) }

def start (presence : Option StoredPresence) : ReportState where
  moment := 0
  presence := presence
  received := 0
  updates _ := none
  removals _ := none
  lastReport _ := none

end ReportState

inductive ReportUpdateStep
  /-- `store.get`: the participant, if the room has one. -/
  | seeRoom (participant : Option ParticipantState)
  | readPresence
  | resolve (now : ℕ)
  | merge (order : Record String LocalPlaybackReport)

inductive ReportRemovalStep
  | readPresence
  | remove (now : ℕ)
  | merge (order : Record String LocalPlaybackReport)

inductive ReportStep
  | receive (connectionId : String) (sessionKind : SessionKind) (patch : ParticipantUpdateInput)
  | update (n : ℕ) (a : ReportUpdateStep)
  | close (connectionId : String)
  | removal (connectionId : String) (a : ReportRemovalStep)
  | tick (ms : ℕ)

/-- What the handler computes from what it read: the report and the patch. -/
def resolveReport (update : ReportUpdate) (participant : ParticipantState)
    (reports : Record String LocalPlaybackReport) (now : ℕ) :
    Option (LocalPlaybackReport × StoredPresence) :=
  let previous := previousPlayback reports update.connectionId participant
  let resolved := resolveParticipantUpdate { participant with localPlayback := previous }
    update.patch now
  let isHeartbeat := !resolved.identityDirty && !resolved.playbackDirty
  if (resolved.playbackDirty || isHeartbeat) = true then
    let next := upsertLocalPlaybackReport reports update.connectionId update.sessionKind
      resolved.localPlayback
    let aggregated := (aggregateLocalPlaybackReports next now).getD resolved.localPlayback
    some (reportOf update.sessionKind resolved.localPlayback,presencePatchFromAggregated now
      resolved.nextUsername resolved.nextAvatarStyle aggregated next)
  else none

namespace ReportState

def resolve (s : ReportState) (n : ℕ) (update : ReportUpdate) (now : ℕ) : Option ReportState :=
  match update.phase with
  | .read participant presence =>
    if s.moment < now then none
    else
      match resolveReport update participant (storedReports presence) now with
      | none => some (s.setPhase n update .finished)
      | some next =>
        some (s.setPhase n update (.merging (storedReports presence) next.1 next.2))
  | _ => none

def mergeUpdate (s : ReportState) (n : ℕ) (update : ReportUpdate)
    (order : Record String LocalPlaybackReport) : Option ReportState :=
  match update.phase with
  | .merging _ report patch =>
    if order.entries.Perm (storedReports (some patch)).entries then
      some (((s.merge patch order).noteReport update.connectionId n report).setPhase n update
        .finished)
    else none
  | _ => none

/-- What a removal computes from the presence that it read. -/
def remove (s : ReportState) (connectionId : String) (presence : Option StoredPresence)
    (now : ℕ) : Option ReportState :=
  if s.moment < now then none
  else
    match presence with
    | none => some (s.setRemoval connectionId .removed)
    | some existing =>
      match (storedReports presence).get? connectionId with
      | none => some (s.setRemoval connectionId .removed)
      | some _ =>
        let next := removeLocalPlaybackReport (storedReports presence) connectionId now
        let aggregated := aggregateLocalPlaybackReports next now <|> existing.localPlayback
        some (s.setRemoval connectionId (.merging (storedReports presence) { existing with
          lastSeenAt := some now
          localPlayback := aggregated
          localPlaybackReports := some next }))

def mergeRemoval (s : ReportState) (connectionId : String) (patch : StoredPresence)
    (order : Record String LocalPlaybackReport) : Option ReportState :=
  if order.entries.Perm (storedReports (some patch)).entries then
    some ((s.merge patch order).setRemoval connectionId .removed)
  else none

end ReportState

def reportUpdateStep (s : ReportState) (n : ℕ) (update : ReportUpdate) :
    ReportUpdateStep → Option ReportState
  | .seeRoom participant =>
    match update.phase with
    | .received =>
      match participant with
      | none => some (s.setPhase n update .finished)
      | some participant => some (s.setPhase n update (.seen participant))
    | _ => none
  | .readPresence =>
    match update.phase with
    | .seen participant => some (s.setPhase n update (.read participant s.presence))
    | _ => none
  | .resolve now => s.resolve n update now
  | .merge order => s.mergeUpdate n update order

def reportRemovalStep (s : ReportState) (connectionId : String) (phase : RemovalPhase) :
    ReportRemovalStep → Option ReportState
  | .readPresence =>
    match phase with
    | .started => some (s.setRemoval connectionId (.read s.presence))
    | _ => none
  | .remove now =>
    match phase with
    | .read presence => s.remove connectionId presence now
    | _ => none
  | .merge order =>
    match phase with
    | .merging _ patch => s.mergeRemoval connectionId patch order
    | _ => none

def reportStep (s : ReportState) : ReportStep → Option ReportState
  | .receive connectionId sessionKind patch =>
    match s.removals connectionId with
    | some _ => none
    | none =>
      some { s with
        received := s.received+1
        updates := Function.update s.updates s.received
          (some ⟨connectionId,sessionKind,patch,.received⟩) }
  | .update n a => (s.updates n).bind fun update => reportUpdateStep s n update a
  | .close connectionId =>
    match s.removals connectionId with
    | some _ => none
    | none => some (s.setRemoval connectionId .started)
  | .removal connectionId a =>
    (s.removals connectionId).bind fun phase => reportRemovalStep s connectionId phase a
  | .tick ms => some { s with moment := s.moment+ms }

/-- At first nothing has been reported. -/
def reportSystem : TransitionSystem ReportState ReportStep where
  init s := ∃ presence, storedReports presence = Record.empty ∧ s = .start presence
  step s a s' := reportStep s a = some s'

section Guard

namespace ReportState

/-- The stored reports of the other connections are these. -/
def AgreesOff (s : ReportState) (connectionId : String)
    (reports : Record String LocalPlaybackReport) : Prop :=
  ∀ c, c ≠ connectionId → s.reports.get? c = reports.get? c

/-- Of a connection that is not removed, the last report as long as it is not stale. -/
def LastReports (s : ReportState) : Prop :=
  ∀ c n report, s.removals c ≠ some .removed → s.lastReport c = some (n,report) →
    s.moment ≤ report.updatedAt+localPlaybackReportStaleMs →
      s.reports.get? c = some report.printed

def NoneRemoved (s : ReportState) : Prop :=
  ∀ c, s.removals c = some .removed → s.reports.get? c = none

/-- If there are reports, `localPlayback` is their aggregate at the write, when none was stale. -/
def Aggregated (s : ReportState) : Prop :=
  s.reports.size ≠ 0 → ∃ order now, order.entries.Perm s.reports.entries ∧
    pruneLocalPlaybackReports order now = order ∧
      s.presence.bind (·.localPlayback) = aggregateLocalPlaybackReports order now

def Settled (s : ReportState) : Prop :=
  (∀ n < s.received, (s.updates n).map (·.phase) = some .finished) ∧
    ∀ c phase, s.removals c = some phase → phase = .removed

end ReportState

/-- What a step must find so that no report is lost and none comes back. -/
def ReportGuard (s : ReportState) : ReportStep → Prop
  | .update n (.merge _) => ∀ update reports report patch, s.updates n = some update →
      update.phase = .merging reports report patch →
        s.AgreesOff update.connectionId reports ∧
        s.removals update.connectionId ≠ some .removed ∧
        ∀ k last, s.lastReport update.connectionId = some (k,last) → k < n
  | .removal c (.merge _) => ∀ reports patch, s.removals c = some (.merging reports patch) →
      s.AgreesOff c reports
  | .removal c (.remove _) => ∀ presence, s.removals c = some (.read presence) →
      (storedReports presence).get? c = none → s.reports.get? c = none
  | _ => True

end Guard

section Printing

theorem printedStamp_of_le {ms : ℕ} (h : ms ≤ 10^14) : printedStamp ms = ms :=
  PresenceCodec.value_luaPrint h

theorem printedTime_printedTime (ms : ℚ) : printedTime (printedTime ms) = printedTime ms :=
  significant_significant (by norm_num [PresenceCodec.luaDigits]) ms

/-- A position of at most fourteen significant digits is stored as it is. -/
theorem printed_of_digits {report : LocalPlaybackReport} {k e : ℤ} (hk : |k| ≤ 10^14)
    (hposition : report.currentTimeMs = k*10^e) (hstamp : report.updatedAt ≤ 10^14) :
    report.printed = report := by
  have hprint : printedTime (k*10^e) = k*10^e :=
    significant_of_digits (by norm_num [PresenceCodec.luaDigits]) hk
  simp only [LocalPlaybackReport.printed,hposition,hprint,printedStamp_of_le hstamp]
  rw [← hposition]

theorem printed_printed {report : LocalPlaybackReport} (h : report.updatedAt ≤ 10^14) :
    report.printed.printed = report.printed := by
  simp only [LocalPlaybackReport.printed,printedTime_printedTime,printedStamp_of_le h]

def WrittenBy (moment : ℕ) (reports : Record String LocalPlaybackReport) : Prop :=
  ∀ c report, reports.get? c = some report → report.updatedAt ≤ moment

variable {reports : Record String LocalPlaybackReport} {moment now : ℕ}

theorem WrittenBy.mono (h : WrittenBy moment reports) {later : ℕ} (hle : moment ≤ later) :
    WrittenBy later reports :=
  fun c report hc => (h c report hc).trans hle

theorem WrittenBy.prune (h : WrittenBy moment reports) (now : ℕ) :
    WrittenBy moment (pruneLocalPlaybackReports reports now) := by
  intro c report hc
  rw [pruneLocalPlaybackReports,Record.get?_filter,Option.filter_eq_some_iff] at hc
  exact h c report hc.1

theorem WrittenBy.set (h : WrittenBy moment reports) {report : LocalPlaybackReport}
    (hreport : report.updatedAt ≤ moment) (connectionId : String) :
    WrittenBy moment (reports.set connectionId report) := by
  intro c found hc
  rw [Record.get?_set] at hc
  split at hc
  · cases hc
    exact hreport
  · exact h c found hc

theorem WrittenBy.erase (h : WrittenBy moment reports) (connectionId : String) :
    WrittenBy moment (reports.erase connectionId) := by
  intro c found hc
  rw [Record.get?_erase] at hc
  split at hc
  · cases hc
  · exact h c found hc

theorem WrittenBy.printed (h : WrittenBy moment reports) (hmoment : moment ≤ 10^14) :
    WrittenBy moment (printedReports reports) := by
  intro c found hc
  rw [printedReports,Record.get?_mapValues] at hc
  obtain ⟨report,hreport,rfl⟩ := Option.map_eq_some_iff.mp hc
  have hle := h c report hreport
  change printedStamp report.updatedAt ≤ moment
  rw [printedStamp_of_le (hle.trans hmoment)]
  exact hle

theorem prune_printedReports (h : WrittenBy moment reports) (hmoment : moment ≤ 10^14)
    (hfresh : pruneLocalPlaybackReports reports now = reports) :
    pruneLocalPlaybackReports (printedReports reports) now = printedReports reports := by
  refine Record.filter_eq_self _ _ fun c found hc => ?_
  rw [printedReports,Record.get?_mapValues] at hc
  obtain ⟨report,hreport,rfl⟩ := Option.map_eq_some_iff.mp hc
  have hstamp : report.printed.updatedAt = report.updatedAt :=
    printedStamp_of_le ((h c report hreport).trans hmoment)
  rw [hstamp]
  rw [← hfresh,pruneLocalPlaybackReports,Record.get?_filter,Option.filter_eq_some_iff] at hreport
  exact hreport.2

theorem aggregate_printedReports (h : WrittenBy moment reports) (hmoment : moment ≤ 10^14)
    (hfresh : pruneLocalPlaybackReports reports now = reports) :
    aggregateLocalPlaybackReports (printedReports reports) now =
      (aggregateLocalPlaybackReports reports now).map ParticipantLocalPlayback.printed := by
  have hstamp : ∀ report ∈ reports.values, printedStamp report.updatedAt = report.updatedAt := by
    intro report hreport
    obtain ⟨c,hc⟩ := (Record.mem_values_iff reports report).mp hreport
    exact printedStamp_of_le ((h c report hc).trans hmoment)
  have hvalues : (printedReports reports).values = reports.values.map LocalPlaybackReport.printed := by
    simp [printedReports,Record.values,Record.mapValues]
  have hsort : (reports.values.map LocalPlaybackReport.printed).mergeSort reportRanksBefore =
      (reports.values.mergeSort reportRanksBefore).map LocalPlaybackReport.printed := by
    refine (List.map_mergeSort fun a ha b hb => ?_).symm
    simp only [reportRanksBefore,LocalPlaybackReport.printed,hstamp a ha,hstamp b hb]
  have hstamps : (reports.values.map LocalPlaybackReport.printed).map (·.updatedAt) =
      reports.values.map (·.updatedAt) := by
    rw [List.map_map]
    exact List.map_congr_left hstamp
  have hlatest : (reports.values.map (·.updatedAt)).foldl max 0 ≤ moment := by
    refine List.foldlRecOn (motive := (· ≤ moment)) _ max (Nat.zero_le _) fun latest hlatest stamp hmem => ?_
    obtain ⟨report,hreport,rfl⟩ := List.mem_map.mp hmem
    obtain ⟨c,hc⟩ := (Record.mem_values_iff reports report).mp hreport
    exact max_le hlatest (h c report hc)
  rw [aggregateLocalPlaybackReports,aggregateLocalPlaybackReports,
    prune_printedReports h hmoment hfresh,hfresh,hvalues,hsort,hstamps]
  cases reports.values.mergeSort reportRanksBefore with
  | nil => rfl
  | cons primary rest =>
    simp only [List.map_cons,Option.map_some,ParticipantLocalPlayback.printed,
      LocalPlaybackReport.printed,List.all_map,Function.comp_def,
      printedStamp_of_le (hlatest.trans hmoment)]

end Printing

section Aggregate

theorem prune_prune (reports : Record String LocalPlaybackReport) (now : ℕ) :
    pruneLocalPlaybackReports (pruneLocalPlaybackReports reports now) now =
      pruneLocalPlaybackReports reports now := by
  refine Record.filter_eq_self _ _ fun c report hreport => ?_
  rw [pruneLocalPlaybackReports,Record.get?_filter,Option.filter_eq_some_iff] at hreport
  exact hreport.2

theorem get?_prune_of_fresh {reports : Record String LocalPlaybackReport} {now : ℕ} {c : String}
    {report : LocalPlaybackReport} (h : reports.get? c = some report)
    (hfresh : now ≤ report.updatedAt+localPlaybackReportStaleMs) :
    (pruneLocalPlaybackReports reports now).get? c = some report := by
  rw [pruneLocalPlaybackReports,Record.get?_filter,Option.filter_eq_some_iff]
  exact ⟨h,by simpa using hfresh⟩

theorem get?_prune_eq_none {reports : Record String LocalPlaybackReport} {now : ℕ} {c : String}
    (h : reports.get? c = none) : (pruneLocalPlaybackReports reports now).get? c = none := by
  rw [pruneLocalPlaybackReports,Record.get?_filter,h]
  rfl

theorem aggregate_isSome {reports : Record String LocalPlaybackReport} {now : ℕ}
    (hfresh : pruneLocalPlaybackReports reports now = reports) (hsize : reports.size ≠ 0) :
    ∃ playback, aggregateLocalPlaybackReports reports now = some playback := by
  rw [aggregateLocalPlaybackReports,hfresh]
  split
  · rename_i hnil
    have hlength := congrArg List.length hnil
    rw [List.length_mergeSort] at hlength
    exact absurd (by simpa [Record.values,Record.size] using hlength) hsize
  · exact ⟨_,rfl⟩

theorem get?_upsert_self (reports : Record String LocalPlaybackReport) (connectionId : String)
    (report : LocalPlaybackReport) :
    (pruneLocalPlaybackReports (reports.set connectionId report) report.updatedAt).get?
      connectionId = some report :=
  get?_prune_of_fresh (by simp) (Nat.le_add_right _ _)

theorem size_ne_zero_of_get? {reports : Record String LocalPlaybackReport} {c : String}
    {report : LocalPlaybackReport} (h : reports.get? c = some report) : reports.size ≠ 0 := by
  intro hzero
  rw [(Record.size_eq_zero_iff reports).mp hzero c] at h
  cases h

theorem upsert_eq (reports : Record String LocalPlaybackReport) (connectionId : String)
    (sessionKind : SessionKind) (snapshot : ParticipantLocalPlayback) :
    upsertLocalPlaybackReport reports connectionId sessionKind snapshot =
      pruneLocalPlaybackReports (reports.set connectionId (reportOf sessionKind snapshot))
        snapshot.updatedAt := rfl

theorem remove_eq (reports : Record String LocalPlaybackReport) (connectionId : String) (now : ℕ) :
    removeLocalPlaybackReport reports connectionId now =
      pruneLocalPlaybackReports (reports.erase connectionId) now := by
  rw [removeLocalPlaybackReport]
  split
  · rename_i hnone
    have hsame : reports.erase connectionId = reports := by
      refine Record.filter_eq_self _ _ fun c report hreport => ?_
      rw [bne_iff_ne]
      rintro rfl
      rw [hnone] at hreport
      cases hreport
    rw [hsame]
  · rfl

end Aggregate

section Patches

variable {s s' : ReportState}

/-- The patch of an update: its own report over the reports it read. -/
def UpsertPatch (moment : ℕ) (connectionId : String)
    (reports : Record String LocalPlaybackReport) (report : LocalPlaybackReport)
    (patch : StoredPresence) : Prop :=
  let next := pruneLocalPlaybackReports (reports.set connectionId report) report.updatedAt
  report.updatedAt ≤ moment ∧ patch.localPlaybackReports = some next ∧
    patch.localPlayback = aggregateLocalPlaybackReports next report.updatedAt

/-- The patch of a removal: the reports it read without the connection's. -/
def RemovePatch (moment : ℕ) (connectionId : String)
    (reports : Record String LocalPlaybackReport) (patch : StoredPresence) : Prop :=
  ∃ now fallback, now ≤ moment ∧
    patch.localPlaybackReports = some (pruneLocalPlaybackReports (reports.erase connectionId) now) ∧
    patch.localPlayback = (aggregateLocalPlaybackReports
      (pruneLocalPlaybackReports (reports.erase connectionId) now) now <|> fallback)

theorem resolveReport_upsertPatch {update : ReportUpdate} {participant : ParticipantState}
    {reports : Record String LocalPlaybackReport} {now moment : ℕ} {report : LocalPlaybackReport}
    {patch : StoredPresence} (hnow : now ≤ moment)
    (h : resolveReport update participant reports now = some (report,patch)) :
    UpsertPatch moment update.connectionId reports report patch := by
  rw [resolveReport] at h
  dsimp only at h
  split at h
  · obtain ⟨rfl,rfl⟩ := Prod.mk.inj (Option.some.inj h)
    refine ⟨hnow,rfl,?_⟩
    have hsome := aggregate_isSome (prune_prune _ _)
      (size_ne_zero_of_get? (get?_upsert_self reports update.connectionId
        (reportOf update.sessionKind (resolveParticipantUpdate
          { participant with
            localPlayback := previousPlayback reports update.connectionId participant }
          update.patch now).localPlayback)))
    obtain ⟨playback,hplayback⟩ := hsome
    rw [presencePatchFromAggregated,upsert_eq]
    change some (Option.getD (aggregateLocalPlaybackReports _ _) _) = _
    exact (congrArg (fun o => some (Option.getD o _)) hplayback).trans hplayback.symm
  · cases h

/-- What the handlers under way are about to write. -/
structure PatchesRight (s : ReportState) : Prop where
  updating : ∀ n update reports report patch, s.updates n = some update →
    update.phase = .merging reports report patch →
      UpsertPatch s.moment update.connectionId reports report patch
  removing : ∀ c reports patch, s.removals c = some (.merging reports patch) →
    RemovePatch s.moment c reports patch

theorem reports_merge (patch : StoredPresence) (order : Record String LocalPlaybackReport) :
    (s.merge patch order).reports = printedReports order := rfl

theorem noteReport_frame (c : String) (n : ℕ) (report : LocalPlaybackReport) :
    (s.noteReport c n report).moment = s.moment ∧ (s.noteReport c n report).presence = s.presence ∧
      (s.noteReport c n report).updates = s.updates ∧
      (s.noteReport c n report).removals = s.removals := by
  rw [ReportState.noteReport]
  split
  · split <;> exact ⟨rfl,rfl,rfl,rfl⟩
  · exact ⟨rfl,rfl,rfl,rfl⟩

theorem updates_setPhase {n m : ℕ} {update found : ReportUpdate} {phase : UpdatePhase}
    (h : (s.setPhase n update phase).updates m = some found) :
    m = n ∧ found = { update with phase := phase } ∨ m ≠ n ∧ s.updates m = some found := by
  by_cases hm : m = n
  · subst hm
    left
    simpa [ReportState.setPhase,eq_comm] using h
  · right
    simpa [ReportState.setPhase,hm] using h

theorem removals_setRemoval {c d : String} {phase found : RemovalPhase}
    (h : (s.setRemoval c phase).removals d = some found) :
    d = c ∧ found = phase ∨ d ≠ c ∧ s.removals d = some found := by
  by_cases hd : d = c
  · subst hd
    left
    simpa [ReportState.setRemoval,eq_comm] using h
  · right
    simpa [ReportState.setRemoval,hd] using h

theorem PatchesRight.setPhase (h : PatchesRight s) {n : ℕ} {update : ReportUpdate}
    {phase : UpdatePhase} (hphase : ∀ reports report patch, phase = .merging reports report patch →
      UpsertPatch s.moment update.connectionId reports report patch) :
    PatchesRight (s.setPhase n update phase) := by
  refine ⟨fun m found reports report patch hm hmerging => ?_,h.removing⟩
  rcases updates_setPhase hm with ⟨-,rfl⟩ | ⟨-,hm⟩
  · exact hphase reports report patch hmerging
  · exact h.updating m found reports report patch hm hmerging

theorem PatchesRight.setRemoval (h : PatchesRight s) {c : String} {phase : RemovalPhase}
    (hphase : ∀ reports patch, phase = .merging reports patch →
      RemovePatch s.moment c reports patch) : PatchesRight (s.setRemoval c phase) := by
  refine ⟨h.updating,fun d reports patch hd => ?_⟩
  rcases removals_setRemoval hd with ⟨rfl,hmerging⟩ | ⟨-,hd⟩
  · exact hphase reports patch hmerging.symm
  · exact h.removing d reports patch hd

theorem PatchesRight.setPhase_idle (h : PatchesRight s) (n : ℕ) (update : ReportUpdate)
    {phase : UpdatePhase} (hphase : phase.isMerging = false) :
    PatchesRight (s.setPhase n update phase) := by
  refine h.setPhase fun reports report patch hmerging => ?_
  rw [hmerging] at hphase
  cases hphase

theorem PatchesRight.setRemoval_idle (h : PatchesRight s) (c : String) {phase : RemovalPhase}
    (hphase : phase.isMerging = false) : PatchesRight (s.setRemoval c phase) := by
  refine h.setRemoval fun reports patch hmerging => ?_
  rw [hmerging] at hphase
  cases hphase

theorem PatchesRight.of_same (h : PatchesRight s) (hmoment : s.moment ≤ s'.moment)
    (hupdates : s'.updates = s.updates) (hremovals : s'.removals = s.removals) :
    PatchesRight s' := by
  constructor
  · rw [hupdates]
    intro n update reports report patch hn hphase
    obtain ⟨hle,hrest⟩ := h.updating n update reports report patch hn hphase
    exact ⟨hle.trans hmoment,hrest⟩
  · rw [hremovals]
    intro c reports patch hc
    obtain ⟨now,fallback,hle,hrest⟩ := h.removing c reports patch hc
    exact ⟨now,fallback,hle.trans hmoment,hrest⟩

theorem reportUpdateStep_cases {n : ℕ} {update : ReportUpdate} {a : ReportUpdateStep}
    (hs' : reportUpdateStep s n update a = some s') :
    (∃ phase, phase.isMerging = false ∧
      (∀ reports, phase.readReports = some reports → reports = s.reports) ∧
        s' = s.setPhase n update phase) ∨
    (∃ participant presence now report patch, now ≤ s.moment ∧
      update.phase.readReports = some (storedReports presence) ∧ resolveReport update participant (storedReports presence) now = some (report,patch) ∧
        s' = s.setPhase n update (.merging (storedReports presence) report patch)) ∨
    ∃ reports report patch order, a = .merge order ∧
      update.phase = .merging reports report patch ∧
        order.entries.Perm (storedReports (some patch)).entries ∧
          s' = ((s.merge patch order).noteReport update.connectionId n report).setPhase n update
            .finished := by
  cases a with
  | seeRoom participant =>
    left
    rw [reportUpdateStep.eq_def] at hs'
    dsimp only at hs'
    split at hs'
    · cases participant with
      | none => exact ⟨.finished,rfl,nofun,(Option.some.inj hs').symm⟩
      | some participant => exact ⟨.seen participant,rfl,nofun,(Option.some.inj hs').symm⟩
    · cases hs'
  | readPresence =>
    left
    rw [reportUpdateStep.eq_def] at hs'
    dsimp only at hs'
    split at hs'
    · rename_i participant hphase
      exact ⟨.read participant s.presence,rfl,fun _ hread => (Option.some.inj hread).symm,
        (Option.some.inj hs').symm⟩
    · cases hs'
  | resolve now =>
    change s.resolve n update now = some s' at hs'
    rw [ReportState.resolve] at hs'
    split at hs'
    · rename_i participant presence hphase
      split at hs'
      · cases hs'
      · rename_i hnow
        split at hs'
        · exact Or.inl ⟨.finished,rfl,nofun,(Option.some.inj hs').symm⟩
        · rename_i next hresolve
          have hread : update.phase.readReports = some (storedReports presence) := by
            rw [hphase]
            rfl
          exact Or.inr (Or.inl ⟨participant,presence,now,next.1,next.2,Nat.le_of_not_lt hnow,
            hread,hresolve,(Option.some.inj hs').symm⟩)
    · cases hs'
  | merge order =>
    change s.mergeUpdate n update order = some s' at hs'
    rw [ReportState.mergeUpdate] at hs'
    split at hs'
    · rename_i reports report patch hphase
      split at hs'
      · rename_i hperm
        exact Or.inr (Or.inr ⟨reports,report,patch,order,rfl,hphase,hperm,
          (Option.some.inj hs').symm⟩)
      · cases hs'
    · cases hs'

theorem reportRemovalStep_cases {c : String} {phase : RemovalPhase} {a : ReportRemovalStep}
    (hs' : reportRemovalStep s c phase a = some s') :
    (phase = .started ∧ s' = s.setRemoval c (.read s.presence)) ∨
    (∃ presence now, a = .remove now ∧ phase = .read presence ∧
      (storedReports presence).get? c = none ∧ s' = s.setRemoval c .removed) ∨
    (∃ presence patch now, phase = .read presence ∧ now ≤ s.moment ∧
      RemovePatch s.moment c (storedReports presence) patch ∧
        s' = s.setRemoval c (.merging (storedReports presence) patch)) ∨
    ∃ reports patch order, a = .merge order ∧ phase = .merging reports patch ∧
      order.entries.Perm (storedReports (some patch)).entries ∧
        s' = (s.merge patch order).setRemoval c .removed := by
  cases a with
  | readPresence =>
    rw [reportRemovalStep.eq_def] at hs'
    dsimp only at hs'
    split at hs'
    · exact Or.inl ⟨rfl,(Option.some.inj hs').symm⟩
    · cases hs'
  | remove now =>
    rw [reportRemovalStep.eq_def] at hs'
    dsimp only at hs'
    split at hs'
    · rename_i presence
      rw [ReportState.remove.eq_def] at hs'
      split at hs'
      · cases hs'
      · rename_i hnow
        cases presence with
        | none => exact Or.inr (Or.inl ⟨none,now,rfl,rfl,rfl,(Option.some.inj hs').symm⟩)
        | some existing =>
          cases hget : (storedReports (some existing)).get? c with
          | none =>
            rw [hget] at hs'
            exact Or.inr (Or.inl ⟨_,now,rfl,rfl,hget,(Option.some.inj hs').symm⟩)
          | some report =>
            rw [hget] at hs'
            refine Or.inr (Or.inr (Or.inl ⟨_,_,now,rfl,Nat.le_of_not_lt hnow,?_,
              (Option.some.inj hs').symm⟩))
            rw [remove_eq]
            exact ⟨now,existing.localPlayback,Nat.le_of_not_lt hnow,rfl,rfl⟩
    · cases hs'
  | merge order =>
    rw [reportRemovalStep.eq_def] at hs'
    dsimp only at hs'
    split at hs'
    · rename_i reports patch
      rw [ReportState.mergeRemoval] at hs'
      split at hs'
      · rename_i hperm
        exact Or.inr (Or.inr (Or.inr ⟨reports,patch,order,rfl,rfl,hperm,
          (Option.some.inj hs').symm⟩))
      · cases hs'
    · cases hs'

theorem PatchesRight.step (h : PatchesRight s) {a : ReportStep} (hs' : reportStep s a = some s') :
    PatchesRight s' := by
  cases a with
  | receive c sessionKind input =>
    rw [reportStep] at hs'
    split at hs'
    · cases hs'
    · cases hs'
      refine ⟨fun m found reports report patch hm hmerging => ?_,h.removing⟩
      by_cases hnew : m = s.received
      · subst hnew
        have hfound : ReportUpdate.mk c sessionKind input .received = found := by
          simpa using hm
        subst hfound
        cases hmerging
      · exact h.updating m found reports report patch (by simpa [hnew] using hm) hmerging
  | update n a =>
    obtain ⟨update,-,hs'⟩ := Option.bind_eq_some_iff.mp hs'
    rcases reportUpdateStep_cases hs' with ⟨phase,hne,-,rfl⟩ |
      ⟨participant,presence,now,report,patch,hnow,-,hresolve,rfl⟩ |
        ⟨reports,report,patch,order,-,-,-,rfl⟩
    · exact h.setPhase_idle n update hne
    · refine h.setPhase fun reports report' patch' hmerging => ?_
      cases hmerging
      exact resolveReport_upsertPatch hnow hresolve
    · obtain ⟨hmoment,-,hupdates,hremovals⟩ :=
        @noteReport_frame (s.merge patch order) update.connectionId n report
      exact (h.of_same hmoment.ge hupdates hremovals).setPhase_idle n update rfl
  | close c =>
    rw [reportStep] at hs'
    split at hs'
    · cases hs'
    · cases hs'
      exact h.setRemoval_idle c rfl
  | removal c a =>
    obtain ⟨phase,-,hs'⟩ := Option.bind_eq_some_iff.mp hs'
    rcases reportRemovalStep_cases hs' with ⟨-,rfl⟩ | ⟨presence,now,-,-,-,rfl⟩ |
      ⟨presence,patch,now,-,hnow,hpatch,rfl⟩ | ⟨reports,patch,order,-,-,-,rfl⟩
    · exact h.setRemoval_idle c rfl
    · exact h.setRemoval_idle c rfl
    · refine h.setRemoval fun reports patch' hmerging => ?_
      cases hmerging
      exact hpatch
    · have hsame : PatchesRight (s.merge patch order) := h.of_same le_rfl rfl rfl
      exact hsame.setRemoval_idle c rfl
  | tick ms =>
    cases hs'
    exact h.of_same (Nat.le_add_right _ _) rfl rfl

/-- The reports that are stored, noted or read were written before now. -/
structure ReadsDated (s : ReportState) : Prop where
  stored : WrittenBy s.moment s.reports
  noted : ∀ c n report, s.lastReport c = some (n,report) → report.updatedAt ≤ s.moment
  updating : ∀ n update reports, s.updates n = some update →
    update.phase.readReports = some reports → WrittenBy s.moment reports
  removing : ∀ c phase reports, s.removals c = some phase →
    phase.readReports = some reports → WrittenBy s.moment reports

theorem ReadsDated.setPhase (h : ReadsDated s) {n : ℕ} {update : ReportUpdate}
    {phase : UpdatePhase}
    (hphase : ∀ reports, phase.readReports = some reports → WrittenBy s.moment reports) :
    ReadsDated (s.setPhase n update phase) := by
  refine ⟨h.stored,h.noted,fun m found reports hm hread => ?_,h.removing⟩
  rcases updates_setPhase hm with ⟨-,rfl⟩ | ⟨-,hm⟩
  · exact hphase reports hread
  · exact h.updating m found reports hm hread

theorem ReadsDated.setRemoval (h : ReadsDated s) {c : String} {phase : RemovalPhase}
    (hphase : ∀ reports, phase.readReports = some reports → WrittenBy s.moment reports) :
    ReadsDated (s.setRemoval c phase) := by
  refine ⟨h.stored,h.noted,h.updating,fun d found reports hd hread => ?_⟩
  rcases removals_setRemoval hd with ⟨rfl,rfl⟩ | ⟨-,hd⟩
  · exact hphase reports hread
  · exact h.removing d found reports hd hread

theorem ReadsDated.merge (h : ReadsDated s) {patch : StoredPresence}
    {order next : Record String LocalPlaybackReport}
    (hperm : order.entries.Perm (storedReports (some patch)).entries)
    (hreports : patch.localPlaybackReports = some next) (hnext : WrittenBy s.moment next)
    (hmoment : s.moment ≤ 10^14) : ReadsDated (s.merge patch order) := by
  have horder : WrittenBy s.moment order := by
    intro c report hc
    rw [Record.get?_eq_of_perm hperm,storedReports] at hc
    exact hnext c report (by simpa [hreports] using hc)
  exact ⟨horder.printed hmoment,h.noted,h.updating,h.removing⟩

theorem ReadsDated.noteReport (h : ReadsDated s) {c : String} {n : ℕ}
    {report : LocalPlaybackReport} (hreport : report.updatedAt ≤ s.moment) :
    ReadsDated (s.noteReport c n report) := by
  have hnote : ∀ d k found,
      Function.update s.lastReport c (some (n,report)) d = some (k,found) →
        found.updatedAt ≤ s.moment := by
    intro d k found hd
    by_cases hsame : d = c
    · subst hsame
      rw [Function.update_self] at hd
      obtain ⟨-,rfl⟩ := Prod.mk.inj (Option.some.inj hd)
      exact hreport
    · rw [Function.update_of_ne hsame] at hd
      exact h.noted d k found hd
  rw [ReportState.noteReport]
  split
  · split
    · exact h
    · exact ⟨h.stored,hnote,h.updating,h.removing⟩
  · exact ⟨h.stored,hnote,h.updating,h.removing⟩

theorem moment_le_of_step {a : ReportStep} (hs' : reportStep s a = some s') :
    s.moment ≤ s'.moment := by
  cases a with
  | receive c sessionKind input =>
    rw [reportStep] at hs'
    split at hs'
    · cases hs'
    · cases hs'
      exact le_rfl
  | update n a =>
    obtain ⟨update,-,hs'⟩ := Option.bind_eq_some_iff.mp hs'
    rcases reportUpdateStep_cases hs' with ⟨phase,-,-,rfl⟩ |
      ⟨participant,presence,now,report,patch,-,-,-,rfl⟩ | ⟨reports,report,patch,order,-,-,-,rfl⟩
    · exact le_rfl
    · exact le_rfl
    · exact (noteReport_frame (s := s.merge patch order) _ _ _).1.ge
  | close c =>
    rw [reportStep] at hs'
    split at hs'
    · cases hs'
    · cases hs'
      exact le_rfl
  | removal c a =>
    obtain ⟨phase,-,hs'⟩ := Option.bind_eq_some_iff.mp hs'
    rcases reportRemovalStep_cases hs' with ⟨-,rfl⟩ | ⟨presence,now,-,-,-,rfl⟩ |
      ⟨presence,patch,now,-,-,-,rfl⟩ | ⟨reports,patch,order,-,-,-,rfl⟩ <;> exact le_rfl
  | tick ms =>
    cases hs'
    exact Nat.le_add_right _ _

theorem ReadsDated.step (h : ReadsDated s) (hpatches : PatchesRight s) {a : ReportStep}
    (hs' : reportStep s a = some s') (hmoment : s'.moment ≤ 10^14) : ReadsDated s' := by
  have hbefore := (moment_le_of_step hs').trans hmoment
  cases a with
  | receive c sessionKind input =>
    rw [reportStep] at hs'
    split at hs'
    · cases hs'
    · cases hs'
      refine ⟨h.stored,h.noted,fun m found reports hm hread => ?_,h.removing⟩
      by_cases hnew : m = s.received
      · subst hnew
        have hfound : ReportUpdate.mk c sessionKind input .received = found := by
          simpa using hm
        subst hfound
        cases hread
      · exact h.updating m found reports (by simpa [hnew] using hm) hread
  | update n a =>
    obtain ⟨update,hn,hs'⟩ := Option.bind_eq_some_iff.mp hs'
    rcases reportUpdateStep_cases hs' with ⟨phase,-,hread,rfl⟩ |
      ⟨participant,presence,now,report,patch,-,hread,-,rfl⟩ |
        ⟨reports,report,patch,order,-,hphase,hperm,rfl⟩
    · exact h.setPhase fun reports hreports => (hread reports hreports) ▸ h.stored
    · refine h.setPhase fun reports hreports => ?_
      cases hreports
      exact h.updating n update _ hn hread
    · obtain ⟨hnow,hreports,-⟩ := hpatches.updating n update reports report patch hn hphase
      have hread : WrittenBy s.moment reports := h.updating n update reports hn (by rw [hphase]; rfl)
      have hmerged : ReadsDated (s.merge patch order) :=
        h.merge hperm hreports ((hread.set hnow _).prune _) hbefore
      exact (hmerged.noteReport hnow).setPhase nofun
  | close c =>
    rw [reportStep] at hs'
    split at hs'
    · cases hs'
    · cases hs'
      exact h.setRemoval nofun
  | removal c a =>
    obtain ⟨phase,hc,hs'⟩ := Option.bind_eq_some_iff.mp hs'
    rcases reportRemovalStep_cases hs' with ⟨-,rfl⟩ | ⟨presence,now,-,-,-,rfl⟩ |
      ⟨presence,patch,now,rfl,-,-,rfl⟩ | ⟨reports,patch,order,-,rfl,hperm,rfl⟩
    · refine h.setRemoval fun reports hreports => ?_
      cases hreports
      exact h.stored
    · exact h.setRemoval nofun
    · refine h.setRemoval fun reports hreports => ?_
      cases hreports
      exact h.removing c _ _ hc rfl
    · obtain ⟨now,fallback,-,hreports,-⟩ := hpatches.removing c reports patch hc
      have hread : WrittenBy s.moment reports := h.removing c _ reports hc rfl
      have hmerged : ReadsDated (s.merge patch order) :=
        h.merge hperm hreports ((hread.erase c).prune now) hbefore
      exact hmerged.setRemoval nofun
  | tick ms =>
    cases hs'
    have hle : s.moment ≤ s.moment+ms := Nat.le_add_right _ _
    refine ⟨h.stored.mono hle,fun c n report hc => (h.noted c n report hc).trans hle,?_,?_⟩
    · exact fun n update reports hn hread => (h.updating n update reports hn hread).mono hle
    · exact fun c phase reports hc hread => (h.removing c phase reports hc hread).mono hle

theorem readsDated_start {presence : Option StoredPresence}
    (hnone : storedReports presence = Record.empty) : ReadsDated (.start presence) := by
  constructor
  · intro c report hc
    rw [ReportState.reports,ReportState.start,hnone] at hc
    cases hc
  · intro c n report hc
    cases hc
  · intro n update reports hn
    cases hn
  · intro c phase reports hc
    cases hc

theorem patchesRight_start (presence : Option StoredPresence) :
    PatchesRight (.start presence) := by
  constructor
  · intro n update reports report patch hn
    cases hn
  · intro c reports patch hc
    cases hc

end Patches

section Aggregated

variable {s s' : ReportState}

theorem ReportState.Aggregated.of_presence (h : s.Aggregated) (hsame : s'.presence = s.presence) :
    s'.Aggregated := by
  rw [ReportState.Aggregated,ReportState.reports,hsame]
  exact h

theorem aggregated_merge {patch : StoredPresence} {order next : Record String LocalPlaybackReport}
    {now : ℕ} {fallback : Option ParticipantLocalPlayback}
    (hperm : order.entries.Perm (storedReports (some patch)).entries)
    (hreports : patch.localPlaybackReports = some next)
    (hwritten : WrittenBy s.moment next) (hmoment : s.moment ≤ 10^14)
    (hfresh : pruneLocalPlaybackReports next now = next)
    (hplayback : patch.localPlayback = (aggregateLocalPlaybackReports next now <|> fallback)) :
    (s.merge patch order).Aggregated := by
  intro hsize
  have hnext : storedReports (some patch) = next := by
    simp [storedReports,hreports]
  rw [hnext] at hperm
  have hsize' : next.size ≠ 0 := by
    intro hzero
    refine hsize ?_
    have hlength : (printedReports order).entries.length = order.entries.length :=
      List.length_map _
    rw [reports_merge,Record.size,hlength,hperm.length_eq]
    exact hzero
  obtain ⟨playback,haggregate⟩ := aggregate_isSome hfresh hsize'
  refine ⟨printedReports next,now,?_,prune_printedReports hwritten hmoment hfresh,?_⟩
  · rw [reports_merge]
    exact hperm.symm.map _
  · rw [aggregate_printedReports hwritten hmoment hfresh]
    simp [ReportState.merge,mergePresenceData,hplayback,haggregate]

theorem aggregated_step (hdated : ReadsDated s) (hpatches : PatchesRight s) (h : s.Aggregated)
    {a : ReportStep} (hs' : reportStep s a = some s') (hmoment : s.moment ≤ 10^14) :
    s'.Aggregated := by
  cases a with
  | receive c sessionKind input =>
    rw [reportStep] at hs'
    split at hs'
    · cases hs'
    · cases hs'
      exact h.of_presence rfl
  | update n a =>
    obtain ⟨update,hn,hs'⟩ := Option.bind_eq_some_iff.mp hs'
    rcases reportUpdateStep_cases hs' with ⟨phase,-,-,rfl⟩ |
      ⟨participant,presence,now,report,patch,-,-,-,rfl⟩ |
        ⟨reports,report,patch,order,-,hphase,hperm,rfl⟩
    · exact h.of_presence rfl
    · exact h.of_presence rfl
    · obtain ⟨hnow,hreports,hplayback⟩ := hpatches.updating n update reports report patch hn hphase
      have hread : WrittenBy s.moment reports :=
        hdated.updating n update reports hn (by rw [hphase]; rfl)
      have hmerged := @aggregated_merge s patch order _ _ none hperm hreports
        ((hread.set hnow _).prune _) hmoment (prune_prune _ _) (by rw [hplayback]; simp)
      exact hmerged.of_presence (noteReport_frame _ _ _).2.1
  | close c =>
    rw [reportStep] at hs'
    split at hs'
    · cases hs'
    · cases hs'
      exact h.of_presence rfl
  | removal c a =>
    obtain ⟨phase,hc,hs'⟩ := Option.bind_eq_some_iff.mp hs'
    rcases reportRemovalStep_cases hs' with ⟨-,rfl⟩ | ⟨presence,now,-,-,-,rfl⟩ |
      ⟨presence,patch,now,-,-,-,rfl⟩ | ⟨reports,patch,order,-,rfl,hperm,rfl⟩
    · exact h.of_presence rfl
    · exact h.of_presence rfl
    · exact h.of_presence rfl
    · obtain ⟨now,fallback,-,hreports,hplayback⟩ := hpatches.removing c reports patch hc
      have hread : WrittenBy s.moment reports := hdated.removing c _ reports hc rfl
      have hmerged := @aggregated_merge s patch order _ _ fallback hperm hreports
        ((hread.erase c).prune now) hmoment (prune_prune _ _) hplayback
      exact hmerged.of_presence rfl
  | tick ms =>
    cases hs'
    exact h.of_presence rfl

theorem aggregated_of_reachable (h : reportSystem.Reachable s) :
    PatchesRight s ∧ (s.moment ≤ 10^14 → ReadsDated s ∧ s.Aggregated) := by
  refine h.invariant
    (fun s => PatchesRight s ∧ (s.moment ≤ 10^14 → ReadsDated s ∧ s.Aggregated)) ?_ ?_
  · rintro s ⟨presence,hnone,rfl⟩
    refine ⟨patchesRight_start presence,fun _ => ⟨readsDated_start hnone,fun hsize => ?_⟩⟩
    exact (hsize (by rw [ReportState.reports,ReportState.start,hnone]; rfl)).elim
  · rintro s a s' - ⟨hpatches,hbefore⟩ hstep
    refine ⟨hpatches.step hstep,fun hmoment => ?_⟩
    have hmoment' := (moment_le_of_step hstep).trans hmoment
    obtain ⟨hdated,haggregated⟩ := hbefore hmoment'
    exact ⟨hdated.step hpatches hstep hmoment,
      aggregated_step hdated hpatches haggregated hstep hmoment'⟩

end Aggregated

section Kept

variable {s s' : ReportState}

structure ReportInvariant (s : ReportState) : Prop where
  patches : PatchesRight s
  dated : ReadsDated s
  last : s.LastReports
  gone : s.NoneRemoved

theorem ReportInvariant.of_same (h : ReportInvariant s) (hpatches : PatchesRight s')
    (hdated : ReadsDated s') (hmoment : s.moment ≤ s'.moment) (hpresence : s'.presence = s.presence)
    (hremoved : ∀ c, s'.removals c = some .removed ↔ s.removals c = some .removed)
    (hlast : s'.lastReport = s.lastReport) : ReportInvariant s' := by
  refine ⟨hpatches,hdated,fun c n report hopen hreport hfresh => ?_,fun c hc => ?_⟩
  · rw [ReportState.reports,hpresence]
    rw [hlast] at hreport
    exact h.last c n report (mt (hremoved c).mpr hopen) hreport (hmoment.trans hfresh)
  · rw [ReportState.reports,hpresence]
    exact h.gone c ((hremoved c).mp hc)

theorem noteReport_lastReport {c : String} {n : ℕ} {report : LocalPlaybackReport}
    (hlater : ∀ k last, s.lastReport c = some (k,last) → k < n) :
    (s.noteReport c n report).lastReport = Function.update s.lastReport c (some (n,report)) := by
  rw [ReportState.noteReport]
  split
  · rename_i k last heq
    rw [if_neg (Nat.lt_asymm (hlater k last heq))]
  · rfl

theorem get?_merge {patch : StoredPresence} {order next : Record String LocalPlaybackReport}
    (hperm : order.entries.Perm (storedReports (some patch)).entries)
    (hreports : patch.localPlaybackReports = some next) (c : String) :
    (s.merge patch order).reports.get? c = (next.get? c).map LocalPlaybackReport.printed := by
  have hnext : storedReports (some patch) = next := by
    simp [storedReports,hreports]
  rw [reports_merge,printedReports,Record.get?_mapValues,← hnext,Record.get?_eq_of_perm hperm c]

section Noted

variable {c : String} {n : ℕ} {last : LocalPlaybackReport}

theorem ReportInvariant.printed_updatedAt (h : ReportInvariant s) (hmoment : s.moment ≤ 10^14)
    (hlast : s.lastReport c = some (n,last)) : last.printed.updatedAt = last.updatedAt :=
  printedStamp_of_le ((h.dated.noted c n last hlast).trans hmoment)

theorem ReportInvariant.get?_printed (h : ReportInvariant s) (hmoment : s.moment ≤ 10^14)
    (hlast : s.lastReport c = some (n,last)) {next : Record String LocalPlaybackReport}
    (hnext : next.get? c = some last.printed) :
    (next.get? c).map LocalPlaybackReport.printed = some last.printed := by
  rw [hnext,Option.map_some,printed_printed ((h.dated.noted c n last hlast).trans hmoment)]

end Noted

/-- An update writes its own report and the other connections' as they are stored. -/
theorem ReportInvariant.mergeUpdate (h : ReportInvariant s) {n : ℕ} {update : ReportUpdate}
    {reports : Record String LocalPlaybackReport} {report : LocalPlaybackReport}
    {patch : StoredPresence} {order : Record String LocalPlaybackReport}
    (hpatches : PatchesRight (((s.merge patch order).noteReport update.connectionId n
      report).setPhase n update .finished))
    (hdated : ReadsDated (((s.merge patch order).noteReport update.connectionId n
      report).setPhase n update .finished)) (hmoment : s.moment ≤ 10^14)
    (hn : s.updates n = some update) (hphase : update.phase = .merging reports report patch)
    (hperm : order.entries.Perm (storedReports (some patch)).entries)
    (hagrees : s.AgreesOff update.connectionId reports)
    (hopen : s.removals update.connectionId ≠ some .removed)
    (hlater : ∀ k last, s.lastReport update.connectionId = some (k,last) → k < n) :
    ReportInvariant (((s.merge patch order).noteReport update.connectionId n report).setPhase n
      update .finished) := by
  obtain ⟨hnow,hreports,-⟩ := h.patches.updating n update reports report patch hn hphase
  obtain ⟨hsame,hpresence,-,hremovals⟩ :=
    @noteReport_frame (s.merge patch order) update.connectionId n report
  have hstored : ∀ c, (((s.merge patch order).noteReport update.connectionId n report).setPhase n
      update .finished).reports.get? c = ((pruneLocalPlaybackReports
        (reports.set update.connectionId report) report.updatedAt).get? c).map
          LocalPlaybackReport.printed := by
    intro c
    rw [ReportState.reports]
    change (storedReports ((s.merge patch order).noteReport update.connectionId n
      report).presence).get? c = _
    rw [hpresence]
    exact get?_merge hperm hreports c
  refine ⟨hpatches,hdated,fun c k last hc hlast hfresh => ?_,fun c hc => ?_⟩
  · rw [hstored]
    change ((s.merge patch order).noteReport update.connectionId n report).lastReport c = _ at hlast
    have hbefore : ∀ k last, (s.merge patch order).lastReport update.connectionId =
        some (k,last) → k < n := hlater
    rw [noteReport_lastReport hbefore] at hlast
    change Function.update s.lastReport update.connectionId (some (n,report)) c = _ at hlast
    by_cases hself : c = update.connectionId
    · subst hself
      rw [Function.update_self] at hlast
      obtain ⟨-,rfl⟩ := Prod.mk.inj (Option.some.inj hlast)
      exact congrArg _ (get?_upsert_self reports _ report)
    · rw [Function.update_of_ne hself] at hlast
      change (s.merge patch order |>.noteReport update.connectionId n report).removals c ≠ _ at hc
      rw [hremovals] at hc
      have hfresh : s.moment ≤ last.updatedAt+localPlaybackReportStaleMs := by
        change ((s.merge patch order).noteReport update.connectionId n report).moment ≤ _ at hfresh
        rwa [hsame] at hfresh
      have hold := h.last c k last hc hlast hfresh
      rw [hagrees c hself] at hold
      refine h.get?_printed hmoment hlast (get?_prune_of_fresh ?_ ?_)
      · rw [Record.get?_set,if_neg hself,hold]
      · rw [h.printed_updatedAt hmoment hlast]
        exact hnow.trans hfresh
  · rw [hstored]
    change ((s.merge patch order).noteReport update.connectionId n report).removals c = _ at hc
    rw [hremovals] at hc
    have hself : c ≠ update.connectionId := by
      rintro rfl
      exact hopen hc
    have hold := h.gone c hc
    rw [hagrees c hself] at hold
    refine Option.map_eq_none_iff.mpr (get?_prune_eq_none ?_)
    rw [Record.get?_set,if_neg hself,hold]

theorem ReportInvariant.mergeRemoval (h : ReportInvariant s) {c : String}
    {reports : Record String LocalPlaybackReport} {patch : StoredPresence}
    {order : Record String LocalPlaybackReport}
    (hpatches : PatchesRight ((s.merge patch order).setRemoval c .removed))
    (hdated : ReadsDated ((s.merge patch order).setRemoval c .removed))
    (hmoment : s.moment ≤ 10^14) (hc : s.removals c = some (.merging reports patch))
    (hperm : order.entries.Perm (storedReports (some patch)).entries)
    (hagrees : s.AgreesOff c reports) :
    ReportInvariant ((s.merge patch order).setRemoval c .removed) := by
  obtain ⟨now,fallback,hnow,hreports,-⟩ := h.patches.removing c reports patch hc
  have hstored : ∀ d, ((s.merge patch order).setRemoval c .removed).reports.get? d =
      ((pruneLocalPlaybackReports (reports.erase c) now).get? d).map
        LocalPlaybackReport.printed :=
    fun d => get?_merge hperm hreports d
  have hremovals : ∀ d, d ≠ c →
      ((s.merge patch order).setRemoval c .removed).removals d = s.removals d := by
    intro d hd
    simp [ReportState.setRemoval,ReportState.merge,hd]
  refine ⟨hpatches,hdated,fun d n last hd hlast hfresh => ?_,fun d hd => ?_⟩
  · have hne : d ≠ c := by
      rintro rfl
      simp [ReportState.setRemoval] at hd
    rw [hremovals d hne] at hd
    have hold := h.last d n last hd hlast hfresh
    rw [hagrees d hne] at hold
    rw [hstored]
    refine h.get?_printed hmoment hlast (get?_prune_of_fresh ?_ ?_)
    · rw [Record.get?_erase,if_neg hne,hold]
    · rw [h.printed_updatedAt hmoment hlast]
      exact hnow.trans hfresh
  · rw [hstored]
    refine Option.map_eq_none_iff.mpr (get?_prune_eq_none ?_)
    rw [Record.get?_erase]
    by_cases hne : d = c
    · rw [if_pos hne]
    · rw [hremovals d hne] at hd
      have hold := h.gone d hd
      rw [hagrees d hne] at hold
      rw [if_neg hne,hold]

theorem removals_setRemoval_iff {c : String} {phase : RemovalPhase}
    (hbefore : s.removals c ≠ some .removed) (hafter : phase ≠ .removed) (d : String) :
    (s.setRemoval c phase).removals d = some .removed ↔ s.removals d = some .removed := by
  by_cases hd : d = c
  · subst hd
    simp [ReportState.setRemoval,hbefore,hafter]
  · simp [ReportState.setRemoval,hd]

theorem ReportInvariant.step (h : ReportInvariant s) {a : ReportStep} (hguard : ReportGuard s a)
    (hs' : reportStep s a = some s') (hmoment : s'.moment ≤ 10^14) : ReportInvariant s' := by
  have hpatches := h.patches.step hs'
  have hdated := h.dated.step h.patches hs' hmoment
  have hbefore := (moment_le_of_step hs').trans hmoment
  cases a with
  | receive c sessionKind input =>
    rw [reportStep] at hs'
    split at hs'
    · cases hs'
    · cases hs'
      exact h.of_same hpatches hdated le_rfl rfl (fun _ => Iff.rfl) rfl
  | update n a =>
    obtain ⟨update,hn,hs'⟩ := Option.bind_eq_some_iff.mp hs'
    rcases reportUpdateStep_cases hs' with ⟨phase,-,-,rfl⟩ |
      ⟨participant,presence,now,report,patch,-,-,-,rfl⟩ |
        ⟨reports,report,patch,order,rfl,hphase,hperm,rfl⟩
    · exact h.of_same hpatches hdated le_rfl rfl (fun _ => Iff.rfl) rfl
    · exact h.of_same hpatches hdated le_rfl rfl (fun _ => Iff.rfl) rfl
    · obtain ⟨hagrees,hopen,hlater⟩ := hguard update reports report patch hn hphase
      exact h.mergeUpdate hpatches hdated hbefore hn hphase hperm hagrees hopen hlater
  | close c =>
    rw [reportStep] at hs'
    split at hs'
    · cases hs'
    · rename_i hnone
      cases hs'
      refine h.of_same hpatches hdated le_rfl rfl (removals_setRemoval_iff ?_ nofun) rfl
      rw [hnone]
      nofun
  | removal c a =>
    obtain ⟨phase,hc,hs'⟩ := Option.bind_eq_some_iff.mp hs'
    rcases reportRemovalStep_cases hs' with ⟨rfl,rfl⟩ | ⟨presence,now,rfl,rfl,hnone,rfl⟩ |
      ⟨presence,patch,now,rfl,-,-,rfl⟩ | ⟨reports,patch,order,rfl,rfl,hperm,rfl⟩
    · refine h.of_same hpatches hdated le_rfl rfl (removals_setRemoval_iff ?_ nofun) rfl
      rw [hc]
      nofun
    · refine ⟨hpatches,hdated,fun d n last hd hlast hfresh => ?_,fun d hd => ?_⟩
      · have hne : d ≠ c := by
          rintro rfl
          simp [ReportState.setRemoval] at hd
        exact h.last d n last (by simpa [ReportState.setRemoval,hne] using hd) hlast hfresh
      · by_cases hne : d = c
        · subst hne
          exact hguard presence hc hnone
        · exact h.gone d (by simpa [ReportState.setRemoval,hne] using hd)
    · refine h.of_same hpatches hdated le_rfl rfl (removals_setRemoval_iff ?_ nofun) rfl
      rw [hc]
      nofun
    · exact h.mergeRemoval hpatches hdated hbefore hc hperm (hguard reports patch hc)
  | tick ms =>
    cases hs'
    exact h.of_same hpatches hdated (Nat.le_add_right _ _) rfl (fun _ => Iff.rfl) rfl

theorem reportInvariant_of_reachable (h : (reportSystem.restrict ReportGuard).Reachable s)
    (hmoment : s.moment ≤ 10^14) : ReportInvariant s := by
  refine h.invariant (fun s => s.moment ≤ 10^14 → ReportInvariant s) ?_ ?_ hmoment
  · rintro s ⟨presence,hnone,rfl⟩ -
    refine ⟨patchesRight_start presence,readsDated_start hnone,fun c n report _ hlast => ?_,
      fun c hc => ?_⟩
    · cases hlast
    · cases hc
  · rintro s a s' - hbefore ⟨hguard,hstep⟩ hmoment
    exact (hbefore ((moment_le_of_step hstep).trans hmoment)).step hguard hstep hmoment

def annAtRoom : ParticipantState :=
  { userId := "ann", username := "Ann", avatarStyle := "adventurer", role := .owner,
    connected := true, localPlayback := ⟨true,0,false,none,0⟩ }

/-- The report of a tab that plays from the beginning. -/
def playingReport : LocalPlaybackReport := ⟨.room,false,0,false,none,0⟩

def onlyReport (c : String) : Record String LocalPlaybackReport := ⟨[(c,playingReport)],by simp⟩

def bothReports : Record String LocalPlaybackReport :=
  ⟨[("b",playingReport),("a",{ playingReport with updatedAt := 1000 })],by simp⟩

end Kept

section Crossed

variable {s s' : ReportState}

theorem removals_of_step {c : String} {a : ReportStep} (hs' : reportStep s a = some s')
    (hnone : s.removals c = none) (hclose : a ≠ .close c) : s'.removals c = none := by
  cases a with
  | receive d sessionKind input =>
    rw [reportStep] at hs'
    split at hs'
    · cases hs'
    · cases hs'
      exact hnone
  | update n a =>
    obtain ⟨update,-,hs'⟩ := Option.bind_eq_some_iff.mp hs'
    rcases reportUpdateStep_cases hs' with ⟨phase,-,-,rfl⟩ |
      ⟨participant,presence,now,report,patch,-,-,-,rfl⟩ | ⟨reports,report,patch,order,-,-,-,rfl⟩
    · exact hnone
    · exact hnone
    · exact (congrFun (noteReport_frame _ _ _).2.2.2 c).trans hnone
  | close d =>
    rw [reportStep] at hs'
    split at hs'
    · cases hs'
    · cases hs'
      have hne : c ≠ d := fun heq => hclose (by rw [heq])
      simpa [ReportState.setRemoval,hne] using hnone
  | removal d a =>
    obtain ⟨phase,hphase,hs'⟩ := Option.bind_eq_some_iff.mp hs'
    have hne : c ≠ d := by
      rintro rfl
      rw [hnone] at hphase
      cases hphase
    rcases reportRemovalStep_cases hs' with ⟨-,rfl⟩ | ⟨presence,now,-,-,-,rfl⟩ |
      ⟨presence,patch,now,-,-,-,rfl⟩ | ⟨reports,patch,order,-,-,-,rfl⟩ <;>
      simpa [ReportState.setRemoval,ReportState.merge,hne] using hnone
  | tick ms =>
    cases hs'
    exact hnone

/-- Only a close begins the removal of a connection. -/
theorem removals_of_run {c : String} (as : List ReportStep)
    (hs' : TransitionSystem.runSteps reportStep s as = some s') (hnone : s.removals c = none)
    (hclose : ∀ a ∈ as, a ≠ .close c) : s'.removals c = none := by
  induction as generalizing s with
  | nil =>
    cases hs'
    exact hnone
  | cons a as ih =>
    obtain ⟨t,ht,hrest⟩ := Option.bind_eq_some_iff.mp hs'
    refine ih hrest (removals_of_step ht hnone (hclose a (List.mem_cons_self ..))) fun b hb => ?_
    exact hclose b (List.mem_cons_of_mem _ hb)

def crossedUpdates : List ReportStep :=
  [.receive "a" .room { paused := some false },.receive "b" .room { paused := some false },
    .update 0 (.seeRoom annAtRoom),.update 1 (.seeRoom annAtRoom),.update 0 .readPresence,
    .update 1 .readPresence,.update 0 (.resolve 0),.update 1 (.resolve 0),
    .update 0 (.merge (onlyReport "a")),.update 1 (.merge (onlyReport "b"))]

def lastTabCloses : List ReportStep :=
  [.receive "a" .room { paused := some false },.update 0 (.seeRoom annAtRoom),
    .update 0 .readPresence,.update 0 (.resolve 0),.update 0 (.merge (onlyReport "a")),
    .close "a",.removal "a" .readPresence,.removal "a" (.remove 0),.removal "a" (.merge .empty)]

def fineReport : LocalPlaybackReport := { playingReport with currentTimeMs := 83456.12345600001 }

def fineUpdate : List ReportStep :=
  [.receive "a" .room { paused := some false, currentTimeMs := some 83456.12345600001 },
    .update 0 (.seeRoom annAtRoom),.update 0 .readPresence,.update 0 (.resolve 0),
    .update 0 (.merge ⟨[("a",fineReport)],by simp⟩)]

end Crossed

end WebSyncPlay
