import EventLog.Admin.Command
import EventLog.Proofs.LineageForest
import EventLog.Proofs.ValueOrder

/-!
# What a trace reports

A trace of an event prints the events that name it as their cause and those that name it as their group. The
second list is the group of the event only if the event began that group: a group goes by the identifier of
its first event, so for every other event the list holds none of the events that share its group.

## Key results

- `Store.linked_of_ready`: a reading of what names an event can be followed by another one
- `Admin.Command.run_trace`: what a trace prints
- `Event.filter_names_eq_group_iff`: when the events that name an event are its group
-/

namespace EventLog

open Database Sql

/-! ### Two readings in a row -/

namespace Database.Db

/-- A client that nothing disturbs is ready again after a lookup in a session of its own. -/
theorem ready_inSession_lookup {c : Client} (hc : c.Ready) (link : Link) (id : EventId) :
    ((inSession (lookup link id)).runOn c).2.Ready := by
  obtain ⟨hquiet, hbusy⟩ := hc
  -- the client once the session is open: one more connection is in use, and the server has greeted it
  let opened : Client := { c with busy := c.busy + 1, server := c.server.greet c.startup }
  have hopened : opened.Quiet := by simpa [opened, Client.Quiet] using hquiet
  have hacquire : acquire.runOn c = (.ok (), opened) := by rw [runOn_acquire, if_pos hbusy]
  have hlookup := runOn_bind_ok (f := fun _ => do return (← table).linked link id)
    (runOn_send_of_quiet hopened (.lookup link id))
  -- acquire, look up, and give the connection back
  rw [inSession, runOn_bind_ok hacquire, runOn_bind_ok (runOn_attempt _ opened), lookup, hlookup]
  exact ⟨hopened, hbusy⟩

end Database.Db

namespace Store

variable {s : Store}

/-- What names an event is found by a store that nothing disturbs, which is ready for the next reading. -/
theorem linked_of_ready (ht : s.table.Sound) (hs : s.client.Ready) (link : Link) (id : EventId) :
    ∃ s' : Store, s.linked link id = (.ok ((s.table.map Row.event).filter (·.names link id)), s') ∧
      s'.table = s.table ∧ s'.client.Ready := by
  have hready := Db.ready_inSession_lookup hs link id
  refine ⟨(s.linked link id).2, Prod.ext ((linked_of_sound ht link id).2 hs) rfl,
    table_linked s link id, ?_⟩
  -- the rows are decoded without the client
  change ((do
    let rows ← Db.inSession (Db.lookup link id)
    Db.ofExcept .corruptRow (Row.toEvents rows) : Db (List Event)).runOn s.client).2.Ready
  rcases hrun : (Db.inSession (Db.lookup link id)).runOn s.client with ⟨e | rows, c⟩ <;> rw [hrun] at hready
  · -- neither a failure nor rows change the client any more
    rwa [Db.runOn_bind_error hrun]
  · rwa [Db.runOn_bind_ok hrun, Db.runOn_ofExcept]

/-- However a reading of what names an event ends, it has found that, or it was disturbed. -/
theorem linked_cases (ht : s.table.Sound) (link : Link) (id : EventId) :
    ∃ r s', s.linked link id = (r, s') ∧ s'.table = s.table ∧
      (r = .ok ((s.table.map Row.event).filter (·.names link id)) ∨
        ∃ e, r = .error e ∧ e.isDisturbance = true) :=
  ⟨_, _, rfl, table_linked s link id, (linked_of_sound ht link id).1⟩

end Store

namespace Admin.Command

variable {s : Store}

/-- What is printed of an event and a log: the events that name it as their cause, and those that name it as
their group. -/
def traced (id : EventId) (log : List Event) : Outcome :=
  ⟨line (traceReport id (log.filter (·.names .causation id)) (log.filter (·.names .correlation id))).toIndentedText,
    none⟩

/-- A trace that nothing disturbs prints what names the event. -/
theorem run_trace (ht : s.table.Sound) (hs : s.client.Ready) (id : EventId) :
    ∃ s' : Store, run (.trace id) s = some (traced id (s.table.map Row.event), s') ∧
      s'.table = s.table := by
  -- the causes first, then the group, on the table that the first reading left
  obtain ⟨s₁, hcaused, htable, hready⟩ := Store.linked_of_ready ht hs .causation id
  obtain ⟨s₂, hcorrelated, htable', -⟩ :=
    Store.linked_of_ready (s := s₁) (htable.symm ▸ ht) hready .correlation id
  refine ⟨s₂, ?_, htable'.trans htable⟩
  simp only [run, runTrace, Store.causedBy, Store.correlatedWith, hcaused, hcorrelated, htable, traced]

/-- However a trace ends, it has printed what names the event, or it was disturbed and has printed
nothing. -/
theorem run_trace_cases (ht : s.table.Sound) (id : EventId) {o : Outcome} {s' : Store}
    (h : run (.trace id) s = some (o, s')) :
    s'.table = s.table ∧ (o = traced id (s.table.map Row.event) ∨
      o.output = "" ∧ ∃ e, o.failure = some e ∧ e.isDisturbance = true) := by
  obtain ⟨r₁, s₁, hfirst, htable, hr₁⟩ := Store.linked_cases ht .causation id
  obtain ⟨r₂, s₂, hsecond, htable', hr₂⟩ := Store.linked_cases (s := s₁) (htable.symm ▸ ht) .correlation id
  simp only [run, runTrace, Store.causedBy, Store.correlatedWith, hfirst, Option.some.injEq] at h
  -- the first reading succeeds, and the second one decides; or the first one ends the trace
  rcases hr₁ with rfl | ⟨e, rfl, he⟩
  · simp only [hsecond] at h
    rcases hr₂ with rfl | ⟨e, rfl, he⟩ <;> obtain ⟨rfl, rfl⟩ := Prod.mk.inj h
    · exact ⟨htable'.trans htable, .inl (by rw [htable, traced])⟩
    · exact ⟨htable'.trans htable, .inr ⟨rfl, e, rfl, he⟩⟩
  · obtain ⟨rfl, rfl⟩ := Prod.mk.inj h
    exact ⟨htable, .inr ⟨rfl, e, rfl, he⟩⟩

/-- The lists of a report hold the events that it is made of. -/
theorem traceReport_eq (id : EventId) (caused correlated : List Event) :
    traceReport id caused correlated = .object [("caused", .array (caused.map (·.toValue.sorted))),
      ("correlated", .array (correlated.map (·.toValue.sorted))), ("event_id", id.toValue)] := by
  simp only [traceReport, Json.Value.sorted, Json.sortedMembers, Json.sortedItems_eq_map, List.map_map]
  rfl

end Admin.Command

/-! ### The group of an event -/

/-- The events of a log that share the group of an event. -/
def Event.group (e : Event) (log : List Event) : List Event :=
  log.filter fun d => d.correlationId == e.correlationId

variable {e : Event} {log : List Event}

/-- Among the events that name an event as their group is the event itself exactly if it began its group. -/
theorem Event.mem_filter_names_iff (he : e ∈ log) :
    e ∈ log.filter (·.names .correlation e.id) ↔ e.correlationId = e.id := by
  simp [names, he]

/-- The events that name an event as their group are its group exactly if it began that. -/
theorem Event.filter_names_eq_group_iff (he : e ∈ log) :
    log.filter (·.names .correlation e.id) = e.group log ↔ e.correlationId = e.id := by
  -- the event itself is in its group, so it would have to name itself
  constructor
  · intro h
    rw [← mem_filter_names_iff he, h]
    exact List.mem_filter.mpr ⟨he, beq_self_eq_true _⟩
  · intro h
    rw [group, h]
    rfl

/-- The events that name an event as their group share no group with an event that did not begin its own. -/
theorem Event.not_mem_group_of_names (he : e.correlationId ≠ e.id) {d : Event}
    (hd : d ∈ log.filter (·.names .correlation e.id)) : d ∉ e.group log := by
  intro hgroup
  have hname : d.correlationId = e.id := by simpa [names] using (List.mem_filter.mp hd).2
  have hsame : d.correlationId = e.correlationId := by simpa using (List.mem_filter.mp hgroup).2
  exact he (hsame.symm.trans hname)

/-- Traces of a stored event `e`, on the table of any log.
* If nothing disturbs the store then a report is printed, whose lists hold the events that name `e` as their
  cause and those that name it as their group, in order of position. However the trace ends, it prints this
  report or nothing, the latter because the database or a deadline disturbed it, and keeps the table.
* The second list is the group of `e`, and `e` is in it, exactly if `e` began its group. If it did not, then
  none of its group is in the list. -/
theorem Admin.Command.trace_reports_names {t : Table} (ht : Table.Reaches [] t) (hlog : Row.toEvents t = .ok log)
    (he : e ∈ log) {s : Store} (hs : s.table = t) :
    let caused := log.filter fun d => d.causationId == e.id
    let named := log.filter fun d => d.correlationId == e.id
    let group := log.filter fun d => d.correlationId == e.correlationId
    let report := Json.Value.object [("caused", .array (caused.map (·.toValue.sorted))),
      ("correlated", .array (named.map (·.toValue.sorted))), ("event_id", e.id.toValue)]
    log.Pairwise (·.position < ·.position) ∧
      (s.client.Ready → ∃ s', run (.trace e.id) s = some (⟨line report.toIndentedText, none⟩, s')) ∧
      (∀ o s', run (.trace e.id) s = some (o, s') → s'.table = t ∧
        (o = ⟨line report.toIndentedText, none⟩ ∨
          o.output = "" ∧ ∃ err, o.failure = some err ∧ err.isDisturbance = true)) ∧
      (named = group ↔ e.correlationId = e.id) ∧ (e ∈ named ↔ e.correlationId = e.id) ∧
      (e.correlationId ≠ e.id → ∀ d ∈ named, d ∉ group) := by
  intro caused named group report
  subst hs
  have hsound : s.table.Sound := Table.sound_nil.reaches ht
  -- a log of appends decodes row by row
  obtain rfl := Except.ok.inj (hlog.symm.trans (Row.toEvents_eq_ok hsound.decodable))
  have htraced : traced e.id (s.table.map Row.event) = ⟨line report.toIndentedText, none⟩ := by
    rw [traced, traceReport_eq]
    rfl
  refine ⟨List.pairwise_map.mpr hsound.pairwise, fun hready => ?_, fun o s' h => ?_,
    Event.filter_names_eq_group_iff he, Event.mem_filter_names_iff he,
    fun hne d hd => Event.not_mem_group_of_names hne hd⟩
  · obtain ⟨s', hrun, -⟩ := run_trace hsound hready e.id
    exact ⟨s', htraced ▸ hrun⟩
  · exact htraced ▸ run_trace_cases hsound e.id h

namespace Admin.Command

/-- Lines of different texts differ. -/
theorem line_ofList_inj {a b : List Char} (h : line (String.ofList a) = line (String.ofList b)) : a = b := by
  simpa [line] using congrArg String.toList h

/-- Two events that were appended together: the first one began the group of both. -/
def appended : List Event :=
  [⟨.ofNat 1, "Opened", [], .object [], 1, .ofNat 1, .ofNat 1, default⟩,
    ⟨.ofNat 2, "Deposited", [], .object [], 2, .ofNat 2, .ofNat 1, default⟩]

/-- A trace of the first of two events that were appended together reports both as its group. -/
theorem trace_reports_names_of_first :
    ∃ s', run (.trace (.ofNat 1)) (Store.facing Store.openedAndDeposited) =
      some (⟨line (traceReport (.ofNat 1) (appended.take 1) appended).toIndentedText, none⟩, s') := by
  have hlog : Row.toEvents Store.openedAndDeposited = .ok appended :=
    Row.toEvents_eq_ok Store.sound_openedAndDeposited.decodable
  -- the first event began the group, so what is printed is all of it
  obtain ⟨-, hready, -⟩ := trace_reports_names Store.reaches_openedAndDeposited hlog List.mem_cons_self
    (Store.table_facing _)
  rw [traceReport_eq]
  exact hready (Store.ready_facing _)

/-- The second of two events that were appended together shares its group with the first one, but a trace of it
reports neither of them as its group. -/
theorem trace_misses_group :
    let deposited : Event := ⟨.ofNat 2, "Deposited", [], .object [], 2, .ofNat 2, .ofNat 1, default⟩
    let output := (run (.trace deposited.id) (Store.facing Store.openedAndDeposited)).map (·.1.output)
    Row.toEvents Store.openedAndDeposited = .ok appended ∧ deposited ∈ appended ∧
      deposited.group appended = appended ∧
      output = some (line (traceReport deposited.id [deposited] []).toIndentedText) ∧
      output ≠ some (line (traceReport deposited.id [deposited] appended).toIndentedText) := by
  intro deposited output
  obtain ⟨s', hrun, -⟩ := run_trace (s := Store.facing Store.openedAndDeposited)
    Store.sound_openedAndDeposited (Store.ready_facing _) deposited.id
  have houtput : output = some (line (traceReport deposited.id [deposited] []).toIndentedText) := by
    simp only [output, hrun]
    rfl
  refine ⟨Row.toEvents_eq_ok Store.sound_openedAndDeposited.decodable, by simp [appended, deposited], rfl,
    houtput, ?_⟩
  rw [houtput]
  -- the texts are compared character by character
  refine fun h => absurd (line_ofList_inj (Option.some.inj h)) ?_
  decide +kernel

end Admin.Command

end EventLog
