import TiktokSigner.LiveEvents.Diagnostics

/-!
# What the audit report accounts for

`MethodAudit.Accounts` and `AuditReport.Accounts` relate the report to the
list of the events observed so far. A method is tracked from its first
event on or not at all, since the methods only grow: so the audit of a
tracked method accounts for all events of that method.
-/

namespace TiktokSigner.LiveEvents

/-- The distinct unknown-field keys of an event. -/
def unknownKeys (event : DecodedEvent StableEvent) : Nat :=
  (event.diagnostics.unknownFields.map (·.key)).dedup.length

def observedEvents (batches : List (EventBatch StableEvent)) : List (DecodedEvent StableEvent) :=
  batches.flatMap (·.events)

variable {events : List (DecodedEvent StableEvent)} {event : DecodedEvent StableEvent}

theorem length_collect (keys : List String) : (collect keys).length = keys.dedup.length :=
  List.length_mergeSort _

/-! ## One method -/

namespace MethodAudit

variable {audit : MethodAudit}

structure Accounts (audit : MethodAudit) (events : List (DecodedEvent StableEvent)) : Prop where
  count : audit.events = events.length
  statuses : Tally.total audit.normalization = audit.events
  fields : (events.map unknownKeys).sum = Tally.total audit.unknownFields + audit.untrackedFields
  unknownFields_le : audit.unknownFields.keys.length ≤ maxUnknownKeys
  unknownEnums_le : audit.unknownEnums.keys.length ≤ maxUnknownKeys
  socialActions_le : audit.unclassifiedSocialActions.keys.length ≤ maxSocialActions

theorem accounts_default : Accounts {} [] where
  count := rfl
  statuses := rfl
  fields := rfl
  unknownFields_le := Nat.zero_le _
  unknownEnums_le := Nat.zero_le _
  socialActions_le := Nat.zero_le _

theorem Accounts.observe (h : Accounts audit events) (event : DecodedEvent StableEvent) :
    Accounts (audit.observe event) (events ++ [event]) where
  count := by
    rw [List.length_append, List.length_singleton, ← h.count]
    rfl
  statuses := by
    have htotal := CappedTally.total_add audit.normalization event.diagnostics.normalization
    rw [h.statuses] at htotal
    exact htotal
  fields := by
    have hrecorded := CappedTally.recorded_foldl maxUnknownKeys
      (collect (event.diagnostics.unknownFields.map (·.key)))
      (audit.unknownFields, audit.untrackedFields)
    rw [length_collect] at hrecorded
    rw [List.map_append, List.sum_append, List.map_singleton, List.sum_singleton, h.fields]
    exact hrecorded.symm
  unknownFields_le := CappedTally.length_foldl _ h.unknownFields_le
  unknownEnums_le := CappedTally.length_foldl _ h.unknownEnums_le
  socialActions_le := CappedTally.length_foldl _ h.socialActions_le

end MethodAudit

/-! ## All methods -/

namespace AuditReport

variable {report : AuditReport} {m : String}

structure Accounts (report : AuditReport) (events : List (DecodedEvent StableEvent)) : Prop where
  total : CappedTally.sum MethodAudit.events report.methods + report.untrackedMethods
    = events.length
  audits : ∀ m audit, report.methods.lookup m = some audit →
    audit.Accounts (events.filter fun event => event.method = m)
  length_le : report.methods.keys.length ≤ maxMethods
  short : ∀ m ∈ report.methods, m.utf8ByteSize ≤ maxMethodBytes
  /-- The events left out would be left out again. -/
  untracked : ∀ event ∈ events, event.method ∉ report.methods → report.Untracked event.method

theorem not_mem_of_untracked (h : Accounts report events) (huntracked : report.Untracked m) :
    m ∉ report.methods := by
  rcases huntracked with hlong | ⟨hmem, -⟩
  · exact fun hmem => absurd (h.short m hmem) (Nat.not_le.mpr hlong)
  · exact hmem

/-- A method that is new had no event before. -/
theorem no_events_of_new (h : Accounts report events) (htracked : ¬report.Untracked m)
    (hmem : m ∉ report.methods) : (events.filter fun event => event.method = m) = [] := by
  rw [List.filter_eq_nil_iff]
  intro event hevent heq
  rw [decide_eq_true_eq] at heq
  subst heq
  exact htracked (h.untracked event hevent hmem)

/-- The audit that an event of a tracked method finds. -/
theorem audit_before (h : Accounts report events) (htracked : ¬report.Untracked m) :
    ((report.methods.lookup m).getD {}).Accounts (events.filter fun event => event.method = m) := by
  cases hlookup : report.methods.lookup m with
  | some audit => exact h.audits m audit hlookup
  | none =>
    rw [no_events_of_new h htracked (AList.lookup_eq_none.mp hlookup)]
    exact MethodAudit.accounts_default

theorem filter_concat_self (events : List (DecodedEvent StableEvent))
    (event : DecodedEvent StableEvent) :
    ((events ++ [event]).filter fun e => e.method = event.method)
      = (events.filter fun e => e.method = event.method) ++ [event] := by
  rw [List.filter_append, List.filter_singleton, decide_eq_true rfl]
  rfl

theorem filter_concat_ne (events : List (DecodedEvent StableEvent)) (hne : event.method ≠ m) :
    ((events ++ [event]).filter fun e => e.method = m)
      = events.filter fun e => e.method = m := by
  rw [List.filter_append, List.filter_singleton, decide_eq_false hne]
  exact List.append_nil _

theorem Accounts.untracked_event (h : Accounts report events)
    (huntracked : report.Untracked event.method) :
    Accounts (report.observeEvent event) (events ++ [event]) := by
  have hmem := not_mem_of_untracked h huntracked
  rw [AuditReport.observeEvent, if_pos huntracked]
  refine ⟨?_, fun m audit hlookup => ?_, h.length_le, h.short, fun e he hnot => ?_⟩
  · rw [List.length_append, List.length_singleton, ← h.total]
    exact (Nat.add_assoc _ _ _).symm
  · have hne : event.method ≠ m := by
      rintro rfl
      exact hmem (BoundedMap.mem_of_lookup hlookup)
    rw [filter_concat_ne events hne]
    exact h.audits m audit hlookup
  · rcases List.mem_append.mp he with hold | hnew
    · exact h.untracked e hold hnot
    · rw [List.mem_singleton.mp hnew]
      exact huntracked

theorem Accounts.tracked_event (h : Accounts report events)
    (htracked : ¬report.Untracked event.method) :
    Accounts (report.observeEvent event) (events ++ [event]) := by
  have hbefore := audit_before h htracked
  have hafter := hbefore.observe event
  rw [AuditReport.observeEvent, if_neg htracked]
  rw [Untracked, not_or, not_and_or, not_not, Nat.not_lt, Nat.not_le] at htracked
  obtain ⟨hshort, hroom⟩ := htracked
  refine ⟨?_, fun m audit hlookup => ?_, BoundedMap.length_insert_le hroom h.length_le,
    fun m hm => ?_, fun e he hnot => ?_⟩
  · have hsum := CappedTally.sum_insert MethodAudit.events report.methods event.method
      (((report.methods.lookup event.method).getD {}).observe event)
    have hold : ((report.methods.lookup event.method).map MethodAudit.events).getD 0
        = ((report.methods.lookup event.method).getD {}).events := by
      cases report.methods.lookup event.method <;> rfl
    have hone : (((report.methods.lookup event.method).getD {}).observe event).events
        = ((report.methods.lookup event.method).getD {}).events + 1 := rfl
    have htotal := h.total
    rw [List.length_append, List.length_singleton]
    dsimp only
    omega
  · by_cases heq : m = event.method
    · subst heq
      rw [AList.lookup_insert] at hlookup
      obtain rfl := Option.some.inj hlookup
      rw [filter_concat_self]
      exact hafter
    · rw [AList.lookup_insert_ne heq] at hlookup
      rw [filter_concat_ne events (Ne.symm heq)]
      exact h.audits m audit hlookup
  · rcases (AList.mem_insert _).mp hm with rfl | hmem
    · exact hshort
    · exact h.short m hmem
  · rw [AList.mem_insert, not_or] at hnot
    rcases List.mem_append.mp he with hold | hnew
    · rcases h.untracked e hold hnot.2 with hlong | ⟨-, hfull⟩
      · exact .inl hlong
      · -- A full report takes no new method.
        refine .inr ⟨by rw [AList.mem_insert, not_or]; exact hnot, ?_⟩
        exact Nat.le_trans hfull BoundedMap.length_le_insert
    · exact absurd (by rw [List.mem_singleton.mp hnew]) hnot.1

theorem Accounts.observeEvent (h : Accounts report events) (event : DecodedEvent StableEvent) :
    Accounts (report.observeEvent event) (events ++ [event]) := by
  by_cases huntracked : report.Untracked event.method
  · exact h.untracked_event huntracked
  · exact h.tracked_event huntracked

theorem observeEvent_events (report : AuditReport) (event : DecodedEvent StableEvent) :
    (report.observeEvent event).events = report.events := by
  rw [AuditReport.observeEvent]
  split <;> rfl

theorem Accounts.foldl (h : Accounts report events) (more : List (DecodedEvent StableEvent)) :
    Accounts (more.foldl AuditReport.observeEvent report) (events ++ more)
      ∧ (more.foldl AuditReport.observeEvent report).events = report.events := by
  induction more generalizing report events with
  | nil => exact ⟨by rw [List.append_nil]; exact h, rfl⟩
  | cons event more ih =>
    obtain ⟨haccounts, hevents⟩ := ih (h.observeEvent event)
    rw [List.append_assoc] at haccounts
    exact ⟨haccounts, hevents.trans (observeEvent_events report event)⟩

theorem accounts_default : Accounts {} [] where
  total := rfl
  audits := fun m audit hlookup => absurd hlookup (by simp)
  length_le := Nat.zero_le _
  short := fun m hm => absurd hm (AList.notMem_empty m)
  untracked := fun event hevent => absurd hevent List.not_mem_nil

/-- The report after any batches. -/
theorem accounts_foldl (batches : List (EventBatch StableEvent)) (h : Accounts report events)
    (hevents : report.events = events.length) :
    Accounts (batches.foldl observe report) (events ++ observedEvents batches)
      ∧ (batches.foldl observe report).events = (events ++ observedEvents batches).length := by
  induction batches generalizing report events with
  | nil => exact ⟨by simpa [observedEvents] using h, by simpa [observedEvents] using hevents⟩
  | cons batch batches ih =>
    have hstart : Accounts
        { report with batches := report.batches + 1, events := report.events + batch.events.length }
        events := ⟨h.total, h.audits, h.length_le, h.short, h.untracked⟩
    obtain ⟨haccounts, hcount⟩ := hstart.foldl batch.events
    obtain ⟨hall, htotal⟩ := ih haccounts (by rw [hcount, List.length_append, ← hevents])
    rw [List.append_assoc] at hall htotal
    exact ⟨hall, htotal⟩

/-- Every event is counted under its method or as untracked, every status
under its event, and every unknown-field key of a tracked method under the
key or as untracked; no map exceeds its cap. -/
theorem observe_accounts (batches : List (EventBatch StableEvent)) :
    (batches.foldl observe {}).events
        = CappedTally.sum MethodAudit.events (batches.foldl observe {}).methods
          + (batches.foldl observe {}).untrackedMethods
      ∧ (batches.foldl observe {}).methods.keys.length ≤ 256
      ∧ ∀ m audit, (batches.foldl observe {}).methods.lookup m = some audit →
          Tally.total audit.normalization = audit.events
            ∧ audit.unknownFields.keys.length ≤ 1024
            ∧ audit.unknownEnums.keys.length ≤ 1024
            ∧ audit.unclassifiedSocialActions.keys.length ≤ 128
            ∧ (((observedEvents batches).filter fun event => event.method = m).map unknownKeys).sum
              = Tally.total audit.unknownFields + audit.untrackedFields := by
  obtain ⟨h, hevents⟩ := accounts_foldl batches accounts_default rfl
  rw [List.nil_append] at h hevents
  refine ⟨hevents.trans h.total.symm, h.length_le, fun m audit hlookup => ?_⟩
  have haudit := h.audits m audit hlookup
  exact ⟨haudit.statuses, haudit.unknownFields_le, haudit.unknownEnums_le,
    haudit.socialActions_le, haudit.fields⟩

/-- The first event is of a method that is not tracked. -/
theorem observe_untracked
    (h : AuditReport.Untracked { batches := 1, events := 1 } event.method) :
    [({ events := [event] } : EventBatch StableEvent)].foldl observe {}
      = { batches := 1, events := 1, untrackedMethods := 1 } := by
  have hevent : observeEvent { batches := 1, events := 1 } event
      = { batches := 1, events := 1, untrackedMethods := 1 } := by
    rw [observeEvent, if_pos h]
  exact hevent

/-- An event of a method too long to be tracked, with one unknown field. -/
def longMethodEvent : DecodedEvent StableEvent :=
  let method := String.ofList (List.replicate 257 'a')
  { raw := { method, msgId := 1, payload := [8, 1], isHistory := false }
    event := .unknown method [8, 1]
    schema :=
      { method, schema := none, fields := [mkField 1 0 none (.varint 1) false], truncated := false
        warning := false }
    normalizationStatus := .unsupportedMethod
    timestamp := none }

/-- Its unknown field is recorded nowhere. -/
theorem untracked_event_loses_fields :
    ∃ batches : List (EventBatch StableEvent),
      ((observedEvents batches).map unknownKeys).sum
        ≠ CappedTally.sum (fun audit => Tally.total audit.unknownFields + audit.untrackedFields)
            (batches.foldl observe {}).methods := by
  refine ⟨[{ events := [longMethodEvent] }], ?_⟩
  have hlong : AuditReport.Untracked { batches := 1, events := 1 } longMethodEvent.method :=
    .inl (by decide +kernel)
  rw [observe_untracked hlong]
  decide

end AuditReport

end TiktokSigner.LiveEvents
