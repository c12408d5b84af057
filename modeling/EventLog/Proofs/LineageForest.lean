import Mathlib.Data.List.Nodup
import Mathlib.Logic.Function.Iterate
import EventLog.Proofs.DecisionRefusal
import EventLog.Proofs.ReadBack

/-!
# Lineage is a forest

If events leave their lineage to their batch, and a batch either begins a group or follows an event of the
log, then causes lead backwards in the log, each to an event that causes itself, and never out of the group.
The groups divide the log, each beginning with the event that it is named for.

## Key results

- `LineageForest`: the invariant
- `LineageForest.append_group`, `LineageForest.append_following`: a batch of either kind keeps it
- `LineageForest.exists_iterate_cause`: causes come to an end
- `Table.Traced.lineage_forest`: what lineage looks like in every log of such batches
-/

namespace EventLog

open Database Sql

/-! ### The invariant -/

namespace Event

/-- The event begins a group: it is its own cause, and the group is named for it. -/
def isRoot (e : Event) : Bool := e.causationId == e.id && e.correlationId == e.id

/-- The cause of an event of a log; the event itself if the log does not hold its cause. -/
def causeIn (log : List Event) (e : Event) : Event :=
  (log.find? (·.id == e.causationId)).getD e

/-- The event begins a group exactly if both that it names are itself. -/
theorem isRoot_iff {e : Event} : e.isRoot = true ↔ e.causationId = e.id ∧ e.correlationId = e.id := by
  simp [isRoot]

end Event

/-- Each event of a log belongs to a group that it or an event before it began, and it causes itself or was
caused by an event before it, of the same group. -/
structure LineageForest (log : List Event) : Prop where
  root : ∀ x ∈ log, ∃ root ∈ log, root.id = x.correlationId ∧ root.isRoot = true ∧
    root.position ≤ x.position
  cause : ∀ x ∈ log, ∃ c ∈ log, c.id = x.causationId ∧ c.correlationId = x.correlationId ∧
    (c = x ∨ c.position < x.position)

namespace LineageForest

variable {log added : List Event}

/-- The empty log has a lineage in which nothing can be wrong. -/
theorem nil : LineageForest [] := ⟨by simp, by simp⟩

/-- What the events of a log name stays there, so only the added ones have to be looked at. -/
theorem append (h : LineageForest log)
    (hroot : ∀ x ∈ added, ∃ root ∈ log ++ added, root.id = x.correlationId ∧ root.isRoot = true ∧
      root.position ≤ x.position)
    (hcause : ∀ x ∈ added, ∃ c ∈ log ++ added, c.id = x.causationId ∧
      c.correlationId = x.correlationId ∧ (c = x ∨ c.position < x.position)) :
    LineageForest (log ++ added) := by
  constructor
  · intro x hx
    rcases List.mem_append.mp hx with hx | hx
    · obtain ⟨root, hmem, hrest⟩ := h.root x hx
      exact ⟨root, List.mem_append_left _ hmem, hrest⟩
    · exact hroot x hx
  · intro x hx
    rcases List.mem_append.mp hx with hx | hx
    · obtain ⟨c, hmem, hrest⟩ := h.cause x hx
      exact ⟨c, List.mem_append_left _ hmem, hrest⟩
    · exact hcause x hx

/-- Events that cause themselves, in a group that the first of them begins, can be added. -/
theorem append_group (h : LineageForest log) {first : Event} (hfirst : first ∈ added)
    (hnamed : ∀ x ∈ added, x.causationId = x.id ∧ x.correlationId = first.id)
    (hbefore : ∀ x ∈ added, first.position ≤ x.position) : LineageForest (log ++ added) := by
  -- the first event names itself, as all others name it
  have hroot : first.isRoot = true := Event.isRoot_iff.mpr (hnamed first hfirst)
  refine h.append (fun x hx => ?_) fun x hx => ?_
  · exact ⟨first, List.mem_append_right _ hfirst, (hnamed x hx).2.symm, hroot, hbefore x hx⟩
  · exact ⟨x, List.mem_append_right _ hx, (hnamed x hx).1.symm, rfl, .inl rfl⟩

/-- Events that an event of the log caused, in its group, can be added after it. -/
theorem append_following (h : LineageForest log) {e : Event} (he : e ∈ log)
    (hnamed : ∀ x ∈ added, x.causationId = e.id ∧ x.correlationId = e.correlationId)
    (hbefore : ∀ x ∈ added, e.position < x.position) : LineageForest (log ++ added) := by
  -- the group is that of the event which is followed, and began before that
  obtain ⟨root, hroot, hid, hself, hle⟩ := h.root e he
  refine h.append (fun x hx => ?_) fun x hx => ?_
  · exact ⟨root, List.mem_append_left _ hroot, hid.trans (hnamed x hx).2.symm, hself,
      Int.le_trans hle (Int.le_of_lt (hbefore x hx))⟩
  · exact ⟨e, List.mem_append_left _ he, (hnamed x hx).1.symm, (hnamed x hx).2.symm,
      .inr (hbefore x hx)⟩

/-! ### Following causes -/

section

variable (h : LineageForest log) (hids : (log.map (·.id)).Nodup)

include hids

/-- An identifier stands for one event. -/
theorem eq_of_id {x y : Event} (hx : x ∈ log) (hy : y ∈ log) (hid : x.id = y.id) : x = y :=
  List.inj_on_of_nodup_map hids hx hy hid

include h

/-- An event and its cause are of one group. -/
theorem correlationId_of_cause {x c : Event} (hx : x ∈ log) (hc : c ∈ log) (hid : c.id = x.causationId) :
    c.correlationId = x.correlationId := by
  obtain ⟨c', hc', hid', hsame, -⟩ := h.cause x hx
  obtain rfl := eq_of_id hids hc hc' (hid.trans hid'.symm)
  exact hsame

/-- The cause of an event is in the log and in its group, and is the event itself or stands before it. -/
theorem causeIn_spec {x : Event} (hx : x ∈ log) :
    x.causeIn log ∈ log ∧ (x.causeIn log).id = x.causationId ∧
      (x.causeIn log).correlationId = x.correlationId ∧
      (x.causeIn log = x ∨ (x.causeIn log).position < x.position) := by
  obtain ⟨c, hc, hid, hrest⟩ := h.cause x hx
  have hfound : (log.find? (·.id == x.causationId)).isSome = true :=
    List.find?_isSome.mpr ⟨c, hc, by simp [hid]⟩
  obtain ⟨c', hc'⟩ := Option.isSome_iff_exists.mp hfound
  -- the first event with this identifier is the only one
  have hid' : c'.id = x.causationId := by simpa using List.find?_some hc'
  obtain rfl := eq_of_id hids (List.mem_of_find?_eq_some hc') hc (hid'.trans hid.symm)
  rw [Event.causeIn, hc', Option.getD_some]
  exact ⟨hc, hid, hrest⟩

/-- Following causes comes to an event that causes itself and stays there, all in one group. -/
theorem exists_iterate_cause (hpositions : ∀ x ∈ log, 0 ≤ x.position) {x : Event} (hx : x ∈ log) :
    ∃ last ∈ log, last.causationId = last.id ∧ last.correlationId = x.correlationId ∧
      ∃ n, ∀ m ≥ n, (Event.causeIn log)^[m] x = last := by
  -- by induction on the position: a cause that is another event stands before
  generalize hn : x.position.toNat = n
  induction n using Nat.strongRecOn generalizing x with
  | ind n ih =>
    obtain ⟨hmem, hid, hgroup, heq | hlt⟩ := h.causeIn_spec hids hx
    · -- an event that is its own cause is where the causes end
      refine ⟨x, hx, (heq ▸ hid).symm, rfl, 0, fun m _ => ?_⟩
      exact Function.iterate_fixed heq m
    · have hbefore : (x.causeIn log).position.toNat < n := by
        have := hpositions x hx
        have := hpositions _ hmem
        simp only [Position] at *
        omega
      obtain ⟨last, hlast, hself, hsame, k, hk⟩ := ih _ hbefore hmem rfl
      -- otherwise it takes one step more than from the cause
      refine ⟨last, hlast, hself, hsame.trans hgroup, k + 1, fun m hm => ?_⟩
      obtain ⟨m, rfl⟩ := Nat.exists_eq_add_of_le' (Nat.lt_of_lt_of_le (Nat.succ_pos k) hm)
      rw [Function.iterate_succ_apply]
      exact hk m (Nat.le_of_succ_le_succ hm)

/-! ### Groups -/

/-- The groups of the events that begin one hold each event of the log once. -/
theorem flatMap_groups_perm :
    ((log.filter Event.isRoot).flatMap fun root => log.filter (·.names .correlation root.id)).Perm log := by
  have hlog : log.Nodup := .of_map (·.id) hids
  have hgroups : ((log.filter Event.isRoot).flatMap
      fun root => log.filter (·.names .correlation root.id)).Nodup := by
    refine List.nodup_flatMap.mpr ⟨fun _ _ => hlog.filter _, ?_⟩
    -- an event is in the groups of two events only if these have one identifier
    refine (List.Pairwise.and_mem.mp (hlog.filter Event.isRoot)).imp ?_
    rintro a b ⟨ha, hb, hne⟩ x hxa hxb
    have hida := (List.mem_filter.mp hxa).2
    have hidb := (List.mem_filter.mp hxb).2
    simp only [Event.names, beq_iff_eq] at hida hidb
    exact hne (eq_of_id hids (List.mem_filter.mp ha).1 (List.mem_filter.mp hb).1 (hida.symm.trans hidb))
  -- an event that is in some group is in the log, and is in the group that it names
  refine (List.perm_ext_iff_of_nodup hgroups hlog).mpr fun x => ?_
  rw [List.mem_flatMap]
  constructor
  · rintro ⟨root, -, hx⟩
    exact (List.mem_filter.mp hx).1
  · intro hx
    obtain ⟨root, hroot, hid, hself, -⟩ := h.root x hx
    exact ⟨root, List.mem_filter.mpr ⟨hroot, hself⟩, List.mem_filter.mpr ⟨hx, by simp [Event.names, hid]⟩⟩

end

end LineageForest

/-! ### Logs -/

/-- The event leaves its cause and its group to the batch. -/
def InputEvent.NamesNothing (e : InputEvent) : Prop := e.causationId = none ∧ e.correlationId = none

/-- The batch begins a group, or it follows an event of the log. -/
def Lineage.BeginsOrFollows (l : Lineage) (t : Table) : Prop :=
  l = .new ∨ ∃ r ∈ t, ∃ e, r.toEvent = .ok e ∧ l = .following e

/-- Logs of appends, each on a store of its own, of events that leave their lineage to their batch, where
each batch begins a group or follows an event of the log. -/
inductive Table.Traced : Table → Prop
  | empty : Traced []
  | append {t : Table} {s : Store} {events : List InputEvent} {lineage : Lineage} (h : Traced t)
    (hs : s.table = t) (hnames : ∀ e ∈ events, e.NamesNothing) (condition : Option AppendCondition)
    (hlineage : lineage.BeginsOrFollows t) : Traced (s.append events condition lineage).2.table

namespace Lineage

/-- What the events of a batch name, if they leave it to the batch: its cause or else themselves, and its
group or else the first of them. -/
theorem mem_resolve_of_namesNothing {l : Lineage} {mint : Nat → EventId} {now : Instant} {n : Nat}
    {events : List InputEvent} (hnames : ∀ e ∈ events, e.NamesNothing) {p : PreparedEvent}
    (hp : p ∈ l.resolve mint now n events) :
    p.causationId = l.causationId.getD p.id ∧ p.correlationId = l.correlationId.getD (mint n) := by
  -- the cause is read off the event, and the group does not depend on its place in the batch
  refine ⟨?_, correlationId_of_mem_resolve l mint now n events (fun e he => (hnames e he).2) hp⟩
  obtain ⟨i, e, he, rfl⟩ := exists_prepared_of_mem_resolve l mint now n events hp
  rw [prepared, (hnames e he).1, Option.none_or]

end Lineage

/-- An event of a placed batch names what was prepared for it. -/
theorem Row.exists_prepared_of_mem {head : Position} {batch : List PreparedEvent} {x : Event}
    (hx : x ∈ (place head batch).map event) :
    ∃ p ∈ batch, x.id = p.id ∧ x.causationId = p.causationId ∧ x.correlationId = p.correlationId := by
  obtain ⟨r, hr, rfl⟩ := List.mem_map.mp hx
  obtain ⟨p, hp, position, rfl⟩ := mem_place hr
  exact ⟨p, hp, rfl, rfl, rfl⟩

namespace LineageForest

variable {s : Store} {events : List InputEvent} (h : LineageForest (s.table.map Row.event))
  (hnames : ∀ e ∈ events, e.NamesNothing)

include h hnames

/-- A batch that begins a group keeps the forest. -/
theorem place_new
    (hsound : Table.Sound (s.table ++ Row.place s.table.head (s.prepare events .new))) :
    LineageForest ((s.table ++ Row.place s.table.head (s.prepare events .new)).map Row.event) := by
  rw [List.map_append]
  -- a batch without events adds nothing, and one with events begins a group
  cases hbatch : s.prepare events .new with
  | nil => simpa [Row.place] using h
  | cons p ps =>
    have hfirst : p.id = s.mint s.minted := by
      cases events with
      | nil => exact absurd hbatch.symm (List.cons_ne_nil p ps)
      | cons e es => exact congrArg PreparedEvent.id (List.cons.inj hbatch).1.symm
    rw [hbatch] at hsound
    refine h.append_group (List.mem_map_of_mem List.mem_cons_self) (fun x hx => ?_) fun x hx => ?_
    · obtain ⟨q, hq, hid, hcause, hgroup⟩ := Row.exists_prepared_of_mem hx
      obtain ⟨hself, hnamed⟩ := Lineage.mem_resolve_of_namesNothing hnames (hbatch ▸ hq)
      exact ⟨hcause.trans (hself.trans hid.symm), hgroup.trans (hnamed.trans hfirst.symm)⟩
    · -- the first row of a batch has the lowest position
      have hsorted := (List.pairwise_append.mp hsound.pairwise).2.1
      obtain ⟨r, hr, rfl⟩ := List.mem_map.mp hx
      rcases List.mem_cons.mp hr with rfl | hr
      · exact Int.le_refl _
      · exact Int.le_of_lt ((List.pairwise_cons.mp hsorted).1 r hr)

/-- A batch that follows an event of the log keeps the forest. -/
theorem place_following (ht : s.table.Sound) {r : Row} (hr : r ∈ s.table)
    (hsound : Table.Sound (s.table ++ Row.place s.table.head (s.prepare events (.following r.event)))) :
    LineageForest ((s.table ++ Row.place s.table.head (s.prepare events (.following r.event))).map
      Row.event) := by
  rw [List.map_append]
  refine h.append_following (List.mem_map_of_mem hr) (fun x hx => ?_) fun x hx => ?_
  · -- what the batch names is the event that it follows and the group of that event
    obtain ⟨q, hq, -, hcause, hgroup⟩ := Row.exists_prepared_of_mem hx
    obtain ⟨hcause', hgroup'⟩ := Lineage.mem_resolve_of_namesNothing hnames hq
    exact ⟨hcause.trans hcause', hgroup.trans hgroup'⟩
  · obtain ⟨r', hr', rfl⟩ := List.mem_map.mp hx
    exact Int.lt_of_le_of_lt (ht.position_bounds hr).2 (ht.head_lt_of_append hsound hr')

end LineageForest

namespace Table.Traced

variable {t : Table}

/-- Appends are calls, so such a log is one that calls have led to. -/
theorem reaches (h : Traced t) : Reaches [] t := by
  induction h with
  | empty => exact .refl
  | append h hs hnames condition hlineage ih =>
    exact ih.tail ⟨_, _, hs, .append _ condition _, rfl⟩

/-- Such a log is sound. -/
theorem sound (h : Traced t) : t.Sound := sound_nil.reaches h.reaches

/-- The lineage of every such log is a forest. -/
theorem forest (h : Traced t) : LineageForest (t.map Row.event) := by
  induction h with
  | empty => exact .nil
  -- an append adds its batch as one of the two kinds, or nothing
  | @append t s events lineage h hs hnames condition hlineage ih =>
    subst hs
    have hsound := h.sound
    have hsound' := hsound.call (.append events condition lineage)
    rcases s.table_append events condition lineage with ⟨a, -, htable⟩ | ⟨e, -, hsame⟩
    · rw [htable] at hsound' ⊢
      rcases hlineage with rfl | ⟨r, hr, e, he, rfl⟩
      · exact ih.place_new hnames hsound'
      · obtain rfl := Except.ok.inj ((Row.toEvent_eq_ok (hsound.decodable r hr)).symm.trans he)
        exact ih.place_following hnames hsound hr hsound'
    · rw [hsame]
      exact ih

/-- No two events of such a log have one identifier. -/
theorem nodup_ids (h : Traced t) : ((t.map Row.event).map (·.id)).Nodup := by
  rw [List.map_map]
  exact h.sound.ids

/-- Who reads the events that an event of the log caused finds events of its group. -/
theorem correlationId_of_causedBy {s : Store} (h : Traced s.table) {c : Event}
    (hc : c ∈ s.table.map Row.event) {found : List Event} (hfound : (s.causedBy c.id).1 = .ok found)
    {x : Event} (hx : x ∈ found) : x.correlationId = c.correlationId := by
  rcases (Store.linked_of_sound h.sound .causation c.id).1 with hread | ⟨e, he, -⟩
  · obtain rfl := Except.ok.inj (hread.symm.trans hfound)
    obtain ⟨hmem, hnames⟩ := List.mem_filter.mp hx
    exact (h.forest.correlationId_of_cause h.nodup_ids hmem hc (beq_iff_eq.mp hnames).symm).symm
  · exact nomatch hfound.symm.trans he

/-- The groups of the events that begin one are read without a disturbance, and divide the log. -/
theorem exists_groups {s : Store} (h : Traced s.table) (hready : s.client.Ready) :
    ∃ groups : List (List Event),
      ((s.table.map Row.event).filter Event.isRoot).map (fun root => (s.correlatedWith root.id).1) =
        groups.map .ok ∧
      (∀ group ∈ groups, group ≠ []) ∧ groups.flatten.Perm (s.table.map Row.event) := by
  let group (root : Event) := (s.table.map Row.event).filter (·.names .correlation root.id)
  refine ⟨((s.table.map Row.event).filter Event.isRoot).map group, ?_, ?_, ?_⟩
  · rw [List.map_map]
    refine List.map_congr_left fun root _ => ?_
    exact (Store.linked_of_sound h.sound .correlation root.id).2 hready
  · intro found hfound
    obtain ⟨root, hroot, rfl⟩ := List.mem_map.mp hfound
    obtain ⟨hmem, hself⟩ := List.mem_filter.mp hroot
    -- an event that begins a group belongs to it
    refine List.ne_nil_of_mem (List.mem_filter.mpr ⟨hmem, ?_⟩)
    exact beq_iff_eq.mpr (Event.isRoot_iff.mp hself).2
  · exact h.forest.flatMap_groups_perm h.nodup_ids

/-- In a log of appends whose events leave their lineage to their batch, where each batch begins a group or
follows an event of the log:
* The group of an event is named for an event that is not after it, causes itself and belongs to its own
  group.
* An event causes itself, or its cause stands before it. An event and its cause are of one group.
* Following causes comes to an event that causes itself, of the same group, and stays there.
* Whoever reads the events that an event of the log caused finds events of its group only, and finds them
  all if nothing disturbs the reading.
* The groups of the events that begin one, as they are read, are not empty and hold each event of the log
  once. -/
theorem lineage_forest (h : Traced t) :
    ∃ log, Row.toEvents t = .ok log ∧
      (∀ x ∈ log,
        (∃ root ∈ log, root.id = x.correlationId ∧ root.causationId = root.id ∧
          root.correlationId = root.id ∧ root.position ≤ x.position) ∧
        (x.causationId = x.id ∨ ∃ c ∈ log, c.id = x.causationId ∧ c.position < x.position) ∧
        (∀ c ∈ log, c.id = x.causationId → c.correlationId = x.correlationId) ∧
        ∃ last ∈ log, last.causationId = last.id ∧ last.correlationId = x.correlationId ∧
          ∃ n, ∀ m ≥ n, (Event.causeIn log)^[m] x = last) ∧
      ∀ s : Store, s.table = t →
        (∀ c ∈ log, ∀ found, (s.causedBy c.id).1 = .ok found →
          ∀ x ∈ found, x.correlationId = c.correlationId) ∧
        (s.client.Ready →
          (∀ c ∈ log, ∃ found, (s.causedBy c.id).1 = .ok found ∧
            ∀ x, x ∈ found ↔ x ∈ log ∧ x.causationId = c.id) ∧
          ∃ groups : List (List Event),
            (log.filter Event.isRoot).map (fun root => (s.correlatedWith root.id).1) = groups.map .ok ∧
            (∀ group ∈ groups, group ≠ []) ∧ groups.flatten.Perm log) := by
  have hforest := h.forest
  have hpositions : ∀ x ∈ t.map Row.event, 0 ≤ x.position := by
    intro x hx
    obtain ⟨r, hr, rfl⟩ := List.mem_map.mp hx
    exact Int.le_trans (by decide) (h.sound.position_bounds hr).1
  refine ⟨t.map Row.event, Row.toEvents_eq_ok h.sound.decodable, fun x hx =>
    ⟨?_, ?_, fun c hc hid => hforest.correlationId_of_cause h.nodup_ids hx hc hid, ?_⟩, ?_⟩
  · obtain ⟨root, hroot, hid, hself, hle⟩ := hforest.root x hx
    obtain ⟨hcause, hown⟩ := Event.isRoot_iff.mp hself
    exact ⟨root, hroot, hid, hcause, hown, hle⟩
  · obtain ⟨c, hc, hid, -, rfl | hlt⟩ := hforest.cause x hx
    · exact .inl hid.symm
    · exact .inr ⟨c, hc, hid, hlt⟩
  · exact hforest.exists_iterate_cause h.nodup_ids hpositions hx
  · rintro s rfl
    refine ⟨fun c hc found hfound x hx => h.correlationId_of_causedBy hc hfound hx,
      fun hready => ⟨fun c _ => ?_, h.exists_groups hready⟩⟩
    refine ⟨_, (Store.linked_of_sound h.sound .causation c.id).2 hready, fun x => ?_⟩
    rw [List.mem_filter, Event.names, beq_iff_eq]

/-- An account is opened and a deposit made in one batch, and another deposit follows the first one. All
three are the group of the opening, though each deposit leads back to the first deposit only. -/
theorem lineage_forest_of_second_deposit :
    ∃ deposit, Store.openedAndDeposited.getLast? = some deposit ∧
      let t := ((Store.facing Store.openedAndDeposited).append [.new "Deposited" [] (.object [])] none
        (.following deposit.event)).2.table
      ∃ log, Row.toEvents t = .ok log ∧
        log.map (fun x => (x.id, x.causationId)) =
          [(.ofNat 1, .ofNat 1), (.ofNat 2, .ofNat 2), (.ofNat 3, .ofNat 2)] ∧
        (∀ x ∈ log, ∃ last ∈ log, last.causationId = last.id ∧
          ∃ n, ∀ m ≥ n, (Event.causeIn log)^[m] x = last) ∧
        ∃ group, ((Store.facing t).correlatedWith (.ofNat 1)).1 = .ok group ∧ group.Perm log := by
  obtain ⟨deposit, hlast⟩ : ∃ deposit, Store.openedAndDeposited.getLast? = some deposit := ⟨_, rfl⟩
  have hmem : deposit ∈ Store.openedAndDeposited := List.mem_of_getLast? hlast
  have hnames : ∀ e ∈ [InputEvent.new "Opened" [] (.object []), .new "Deposited" [] (.object [])],
      e.NamesNothing := by simp [InputEvent.new, InputEvent.NamesNothing]
  have htraced : Traced Store.openedAndDeposited :=
    .append .empty (Store.table_facing []) hnames none (.inl rfl)
  have hevent := Row.toEvent_eq_ok (htraced.sound.decodable deposit hmem)
  refine ⟨deposit, hlast, ?_⟩
  intro t
  -- the second deposit follows the first one, as it was read from the log
  have ht : Traced t := .append htraced (Store.table_facing _) (List.forall_mem_cons.mp hnames).2 none
    (.inr ⟨deposit, hmem, _, hevent, rfl⟩)
  obtain ⟨log, hlog, hlineage, hread⟩ := lineage_forest ht
  obtain ⟨-, hready⟩ := hread (Store.facing t) (Store.table_facing t)
  obtain ⟨-, groups, hgroups, -, hperm⟩ := hready (Store.ready_facing t)
  obtain rfl := Option.some.inj (hlast.symm.trans rfl)
  have hevents : Row.toEvents t = .ok (t.map Row.event) := Row.toEvents_eq_ok ht.sound.decodable
  obtain rfl := Except.ok.inj (hevents.symm.trans hlog)
  have hroots : ((t.map Row.event).filter Event.isRoot).map (·.id) = [.ofNat 1] := by decide +kernel
  refine ⟨_, hlog, by decide +kernel, fun x hx => ?_, ?_⟩
  · obtain ⟨-, -, -, last, hmem, hself, -, hends⟩ := hlineage x hx
    exact ⟨last, hmem, hself, hends⟩
  · -- the opening is the only event that begins a group
    have hone : groups.map (Except.ok (ε := StoreError)) =
        [((Store.facing t).correlatedWith (.ofNat 1)).1] := by
      rw [← hgroups]
      have := congrArg (List.map fun id => ((Store.facing t).correlatedWith id).1) hroots
      rwa [List.map_map] at this
    obtain ⟨group, rfl⟩ := List.length_eq_one_iff.mp
      ((List.length_map _).symm.trans (congrArg List.length hone))
    exact ⟨group, (List.cons.inj hone).1.symm, by simpa using hperm⟩

end Table.Traced

end EventLog
