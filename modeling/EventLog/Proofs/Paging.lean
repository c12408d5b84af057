import EventLog.Proofs.Checkpoint
import EventLog.Proofs.ReadBack

/-!
# Reading page by page

Who reads with a limit can go on after the last event that was read, until a page is not full. In between
others may append to the log. They add what they write after all that stands there, so the pages, put
together, are what a single read without a limit gives at the time of the last page: no event is missing
and none comes twice.

## Key results

- `Table.length_le_max_of_reaches`: the limit of a read is never too small for the database
- `Table.Sound.eventsAfter_of_page`: what follows a page in any later log
- `Store.readPages_cons`: one page
- `Store.readPages_while_appending`: all pages
-/

namespace EventLog

open Database Sql

/-- Of events in order, those after one of them are those that stand behind it. -/
theorem filter_of_pairwise {before behind : List Event} {e : Event}
    (h : (before ++ e :: behind).Pairwise fun a b => a.position < b.position) :
    (before ++ e :: behind).filter (fun x => decide (e.position < x.position)) = behind := by
  obtain ⟨-, hbehind, hbefore⟩ := List.pairwise_append.mp h
  -- no event before it has a higher position, and all behind it have one
  have hnone : before.filter (fun x => decide (e.position < x.position)) = [] := by
    refine List.filter_eq_nil_iff.mpr fun x hx hlt => ?_
    exact Int.lt_asymm (hbefore x hx e List.mem_cons_self) (of_decide_eq_true hlt)
  have hself : (e :: behind).filter (fun x => decide (e.position < x.position)) = behind := by
    rw [List.filter_cons_of_neg (by simp)]
    exact List.filter_eq_self.mpr fun x hx => decide_eq_true ((List.pairwise_cons.mp hbehind).1 x hx)
  rw [List.filter_append, hnone, hself, List.nil_append]

namespace Table

variable {t u : Table} {q : Query} {size : Nat} {after : Position}

/-- A log has no more events than there are positions. -/
theorem length_le_max_of_reaches (h : Reaches [] t) : (t.length : Position) ≤ Position.max := by
  rw [← (sound_nil.reaches h).head_eq]
  exact (numbered_nil.reaches h).head_le_max

/-- What stands after a position stays there when rows are added. -/
theorem eventsAfter_mono (h : t <+: u) (q : Query) (after : Position) :
    t.eventsAfter q after <+: u.eventsAfter q after := (h.map Row.event).filter _

/-- What stands after a position is in order. -/
theorem pairwise_eventsAfter (ht : t.Sound) (q : Query) (after : Position) :
    (t.eventsAfter q after).Pairwise fun a b => a.position < b.position :=
  List.Pairwise.filter _ (List.pairwise_map.mpr ht.pairwise : (t.map Row.event).Pairwise _)

/-- What stands after a later position stands after an earlier one as well. -/
theorem filter_eventsAfter {later : Position} (h : after < later) (t : Table) (q : Query) :
    (t.eventsAfter q after).filter (fun e => decide (later < e.position)) = t.eventsAfter q later := by
  rw [eventsAfter, eventsAfter, List.filter_filter]
  refine List.filter_congr fun e _ => ?_
  -- the earlier position does not matter for what is after the later one
  by_cases he : later < e.position
  · rw [decide_eq_true he, decide_eq_true (Int.lt_trans h he)]
    rfl
  · rw [decide_eq_false he]
    rfl

/-- What follows a page in a log, however much the log has grown since: what stands after the last event of
the page. -/
theorem Sound.eventsAfter_of_page (hu : u.Sound) (h : t <+: u) {e : Event}
    (hlast : ((t.eventsAfter q after).take size).getLast? = some e) :
    u.eventsAfter q after = (t.eventsAfter q after).take size ++ u.eventsAfter q e.position := by
  have hmem : e ∈ (t.eventsAfter q after).take size := List.mem_of_getLast? hlast
  -- the last event of the page was itself read after `after`
  have hsel := (List.mem_filter.mp (List.mem_of_mem_take hmem)).2
  have hafter : after < e.position := of_decide_eq_true (Bool.and_eq_true_iff.mp hsel).1
  -- the page is what the log begins with after `after`, as what is added stands after it
  obtain ⟨more, hmore⟩ := (List.take_prefix size _).trans (eventsAfter_mono h q after)
  obtain ⟨init, hpage⟩ := List.getLast?_eq_some_iff.mp hlast
  have hsorted := pairwise_eventsAfter hu q after
  rw [← hmore, hpage, ← List.append_cons] at hsorted
  rw [← filter_eventsAfter hafter, ← hmore, hpage, ← List.append_cons, filter_of_pairwise hsorted,
    List.append_cons]

end Table

namespace Store

variable {s : Store} {ss : List Store} {q : Query} {size : Nat} {after : Position}

/-- What is read from a log after a position with a limit. -/
theorem read_page (ht : Table.Reaches [] s.table) (hready : s.client.Ready) (hq : q.validate = .ok ())
    (after : Position) (size : Nat) :
    (s.read q { after, limit := some size }).1 = .ok ((s.table.eventsAfter q after).take size) := by
  have hmax := Table.length_le_max_of_reaches ht
  have hlen : (s.table.eventsAfter q after).length ≤ s.table.length :=
    Nat.le_trans (List.length_filter_le _ _) (Nat.le_of_eq (List.length_map _))
  rw [read_of_sound (Table.sound_nil.reaches ht) hready hq]
  -- the limit of the page is not lowered, since the log has no more events than that
  refine congrArg Except.ok (List.take_eq_take_iff.mpr ?_)
  simp only [Position] at *
  omega

/-- Reads pages of a size, each from a store of its own: a full page is followed by the one after its last
event. Says whether a page was not full, which is then the last one. -/
def readPages (q : Query) (size : Nat) (after : Position) :
    List Store → Except StoreError (List (List Event) × Bool)
  | [] => .ok ([], false)
  | s :: ss => do
    let page ← (s.read q { after, limit := some size }).1
    if page.length < size then return ([page], true)
    let (pages, ended) ← readPages q size (page.getLast?.elim after (·.position)) ss
    return (page :: pages, ended)

/-- One page. It is not full, and then it has all that there is, or it is followed by those after its last
event. -/
theorem readPages_cons (ht : Table.Reaches [] s.table) (hready : s.client.Ready)
    (hq : q.validate = .ok ()) (hsize : 0 < size) (after : Position) (ss : List Store) :
    let found := s.table.eventsAfter q after
    (found.length < size ∧ readPages q size after (s :: ss) = .ok ([found], true)) ∨
    ∃ e, size ≤ found.length ∧ (found.take size).getLast? = some e ∧
      readPages q size after (s :: ss) =
        (readPages q size e.position ss).map fun r => (found.take size :: r.1, r.2) := by
  intro found
  have hpage : (s.read q { after, limit := some size }).1 = .ok (found.take size) :=
    read_page ht hready hq after size
  -- a page that is not full is all that was found
  by_cases hlt : found.length < size
  · refine .inl ⟨hlt, ?_⟩
    have hall : found.take size = found := List.take_of_length_le (Nat.le_of_lt hlt)
    rw [hall] at hpage
    simp only [readPages, hpage, bind, Except.bind, if_pos hlt]
    rfl
  · -- a full page has a last event, after which the next one begins
    have hle := Nat.le_of_not_lt hlt
    have hfull : (found.take size).length = size := List.length_take_of_le hle
    obtain ⟨e, he⟩ : ∃ e, (found.take size).getLast? = some e := by
      refine Option.isSome_iff_exists.mp (List.getLast?_isSome.mpr ?_)
      exact List.ne_nil_of_length_pos (hfull.symm ▸ hsize)
    refine .inr ⟨e, hle, he, ?_⟩
    have hnot : ¬(found.take size).length < size := by rw [hfull]; exact Nat.lt_irrefl size
    simp only [readPages, hpage, bind, Except.bind, if_neg hnot, he, Option.elim_some]
    cases readPages q size e.position ss <;> rfl

/-- The pages of a log that grows. -/
theorem readPages_of_growing (hreach : ∀ s ∈ ss, Table.Reaches [] s.table)
    (hgrow : (ss.map Store.table).Pairwise Table.Reaches) (hready : ∀ s ∈ ss, s.client.Ready)
    (hq : q.validate = .ok ()) (hsize : 0 < size) (after : Position) :
    ∃ pages ended, readPages q size after ss = .ok (pages, ended) ∧
      (ended = true → ∃ before s rest full last, ss = before ++ s :: rest ∧ pages = full ++ [last] ∧
        full.length = before.length ∧ (∀ page ∈ full, page.length = size) ∧ last.length < size ∧
        pages.flatten = s.table.eventsAfter q after) ∧
      (ended = false → pages.length = ss.length ∧ ∀ page ∈ pages, page.length = size) ∧
      ∀ u : Table, u.Sound → (∀ s ∈ ss, s.table <+: u) → pages.flatten <+: u.eventsAfter q after := by
  induction ss generalizing after with
  | nil => exact ⟨[], false, rfl, nofun, fun _ => ⟨rfl, by simp⟩, fun _ _ _ => List.nil_prefix⟩
  | cons s ss ih =>
    obtain ⟨hs, hss⟩ := List.forall_mem_cons.mp hreach
    obtain ⟨hready, hreadys⟩ := List.forall_mem_cons.mp hready
    obtain ⟨hlater, hgrow⟩ := List.pairwise_cons.mp hgrow
    rcases readPages_cons hs hready hq hsize after ss with ⟨hlt, hrun⟩ | ⟨e, hle, hlast, hrun⟩
    · -- the reading ends with this page, which is all that this log has
      have hone : [s.table.eventsAfter q after].flatten = s.table.eventsAfter q after :=
        List.append_nil _
      refine ⟨_, _, hrun, fun _ => ⟨[], s, ss, [], _, rfl, rfl, rfl, by simp, hlt, hone⟩, nofun,
        fun u _ hpre => ?_⟩
      rw [hone]
      exact Table.eventsAfter_mono (hpre s List.mem_cons_self) q after
    · -- every later log begins with this one, so in each of them the full page stands before the others
      obtain ⟨pages, ended, hpages, hended, hopen, hfirst⟩ := ih hss hgrow hreadys e.position
      rw [hpages] at hrun
      have hpage : ((s.table.eventsAfter q after).take size).length = size :=
        List.length_take_of_le hle
      refine ⟨_, _, hrun, fun h => ?_, fun h => ?_, fun u hu hpre => ?_⟩
      · -- the reading ends later, with the pages after this one
        obtain ⟨before, s', rest, full, last, rfl, rfl, hlen, hfull, hlt, hflat⟩ := hended h
        have hmem : s' ∈ before ++ s' :: rest := List.mem_append_right _ List.mem_cons_self
        have hgrown : s.table <+: s'.table :=
          Table.isPrefix_of_reaches (hlater _ (List.mem_map_of_mem hmem))
        refine ⟨s :: before, s', rest, _ :: full, last, rfl, rfl, congrArg (· + 1) hlen,
          List.forall_mem_cons.mpr ⟨hpage, hfull⟩, hlt, ?_⟩
        rw [List.flatten_cons, hflat,
          (Table.sound_nil.reaches (hss s' hmem)).eventsAfter_of_page hgrown hlast]
      · obtain ⟨hlen, hfull⟩ := hopen h
        exact ⟨congrArg (· + 1) hlen, List.forall_mem_cons.mpr ⟨hpage, hfull⟩⟩
      · obtain ⟨hpre, hpres⟩ := List.forall_mem_cons.mp hpre
        rw [List.flatten_cons, hu.eventsAfter_of_page hpre hlast]
        exact (List.prefix_append_right_inj _).mpr (hfirst u hu hpres)

/-- The pages of a log that does not change. -/
theorem readPages_of_fixed {t : Table} (ht : Table.Reaches [] t) (htable : ∀ s ∈ ss, s.table = t)
    (hready : ∀ s ∈ ss, s.client.Ready) (hq : q.validate = .ok ()) (hsize : 0 < size)
    (after : Position) {pages : List (List Event)} {ended : Bool}
    (h : readPages q size after ss = .ok (pages, ended)) :
    (ended = true ↔ (t.eventsAfter q after).length / size < ss.length) ∧
      (ended = true → pages.length = (t.eventsAfter q after).length / size + 1) := by
  induction ss generalizing after pages ended with
  | nil =>
    obtain ⟨rfl, rfl⟩ := Prod.mk.inj (Except.ok.inj h)
    simp
  | cons s ss ih =>
    obtain ⟨rfl, htable⟩ := List.forall_mem_cons.mp htable
    obtain ⟨hready, hreadys⟩ := List.forall_mem_cons.mp hready
    rcases readPages_cons ht hready hq hsize after ss with ⟨hlt, hrun⟩ | ⟨e, hle, hlast, hrun⟩
    · -- the last page is reached when less than a page is left
      obtain ⟨rfl, rfl⟩ := Prod.mk.inj (Except.ok.inj (h.symm.trans hrun))
      simp [Nat.div_eq_of_lt hlt]
    · -- what stands after the page is shorter by one page
      have hrest : (s.table.eventsAfter q e.position).length =
          (s.table.eventsAfter q after).length - size := by
        have hall := congrArg List.length
          ((Table.sound_nil.reaches ht).eventsAfter_of_page (List.prefix_refl _) hlast)
        rw [List.length_append, List.length_take_of_le hle] at hall
        omega
      have hcount : (s.table.eventsAfter q after).length / size =
          (s.table.eventsAfter q e.position).length / size + 1 := by
        rw [hrest]
        exact Nat.div_eq_sub_div hsize hle
      cases hpages : readPages q size e.position ss with
      | error err =>
        rw [h, hpages] at hrun
        cases hrun
      | ok r =>
        rw [hpages] at hrun
        obtain ⟨rfl, rfl⟩ := Prod.mk.inj (Except.ok.inj (h.symm.trans hrun))
        obtain ⟨hiff, hlen⟩ := ih htable hreadys e.position hpages
        rw [hcount, List.length_cons, List.length_cons]
        refine ⟨hiff.trans (by omega), fun hended => ?_⟩
        rw [hlen hended]

/-- A log is read page by page after a position, while calls of any kind go on: each of the stores has the
log at the time of one page. No page fails to be read.
* The first page that is not full is the last one. The pages together are then what is read without a
  limit at the time of that page. Until then all pages are full.
* What is read without a limit at a later time begins with the pages.
* If the log does not change then the last page comes: it is the one after as many as the events that there
  are can fill. -/
theorem readPages_while_appending (hlogs : ([] :: ss.map Store.table).IsChain Table.Reaches)
    (hready : ∀ s ∈ ss, s.client.Ready) (hq : q.validate = .ok ()) (hsize : 1 ≤ size)
    (after : Position) :
    ∃ pages ended, readPages q size after ss = .ok (pages, ended) ∧
      (ended = true → ∃ before s rest full last, ss = before ++ s :: rest ∧ pages = full ++ [last] ∧
        full.length = before.length ∧ (∀ page ∈ full, page.length = size) ∧ last.length < size ∧
        (s.read q { after }).1 = .ok pages.flatten) ∧
      (ended = false → pages.length = ss.length ∧ ∀ page ∈ pages, page.length = size) ∧
      (∀ s' : Store, s'.client.Ready → (∀ t ∈ [] :: ss.map Store.table, Table.Reaches t s'.table) →
        ∃ more, (s'.read q { after }).1 = .ok (pages.flatten ++ more)) ∧
      ∀ s ∈ ss, (∀ s' ∈ ss, s'.table = s.table) → ∃ events, (s.read q { after }).1 = .ok events ∧
        (ended = true ↔ events.length / size < ss.length) ∧
        (ended = true → pages.length = events.length / size + 1) := by
  have htrans : Trans Table.Reaches Table.Reaches Table.Reaches := ⟨Relation.ReflTransGen.trans⟩
  obtain ⟨hreach, hgrow⟩ := List.pairwise_cons.mp (List.isChain_iff_pairwise.mp hlogs)
  replace hreach : ∀ s ∈ ss, Table.Reaches [] s.table :=
    fun s hs => hreach _ (List.mem_map_of_mem hs)
  -- every single read gives what stands after its position
  have hread : ∀ s : Store, Table.Reaches [] s.table → s.client.Ready →
      (s.read q { after }).1 = .ok (s.table.eventsAfter q after) :=
    fun s hs hready => read_of_sound (Table.sound_nil.reaches hs) hready hq { after }
  obtain ⟨pages, ended, hpages, hended, hopen, hfirst⟩ :=
    readPages_of_growing hreach hgrow hready hq hsize after
  refine ⟨pages, ended, hpages, fun h => ?_, hopen, fun s' hready' hlater => ?_,
    fun s hs htable => ⟨_, hread s (hreach s hs) (hready s hs), ?_⟩⟩
  · obtain ⟨before, s, rest, full, last, rfl, hsplit, hlen, hfull, hlt, hflat⟩ := hended h
    have hmem : s ∈ before ++ s :: rest := List.mem_append_right _ List.mem_cons_self
    refine ⟨before, s, rest, full, last, rfl, hsplit, hlen, hfull, hlt, ?_⟩
    rw [hread s (hreach s hmem) (hready s hmem), hflat]
  · obtain ⟨hreach', hlater⟩ := List.forall_mem_cons.mp hlater
    obtain ⟨more, hmore⟩ := hfirst s'.table (Table.sound_nil.reaches hreach') fun s hs =>
      Table.isPrefix_of_reaches (hlater _ (List.mem_map_of_mem hs))
    exact ⟨more, (hread s' hreach' hready').trans (congrArg Except.ok hmore.symm)⟩
  · exact readPages_of_fixed (hreach s hs) htable hready hq hsize after hpages

/-- Pages of two events are read from a log of two events that has four from the second page on. The third
page is empty and the last one, and the pages together are the four events. -/
theorem readPages_while_appending_of_four_events :
    let ss := [facing openedAndDeposited, facing depositedAgain, facing depositedAgain]
    ∃ pages, readPages .all 2 0 ss = .ok (pages, true) ∧ pages.flatten.length = 4 ∧
      ((facing depositedAgain).read .all { after := 0 }).1 = .ok pages.flatten := by
  intro ss
  -- the log of two events, and twice the log of four
  have hlogs : ([] :: ss.map Store.table).IsChain Table.Reaches :=
    .cons_cons reaches_openedAndDeposited
      (.cons_cons reaches_depositedAgain (.cons_cons .refl (.singleton _)))
  have hready : ∀ s ∈ ss, s.client.Ready := by simp [ss, ready_facing]
  have hread : ∀ t : Table, t.Sound → ((facing t).read .all { after := 0 }).1 =
      .ok (t.eventsAfter .all 0) :=
    fun t ht => read_of_sound (s := facing t) ht (ready_facing t) rfl { after := 0 }
  have hall := hread _ (sound_openedAndDeposited.reaches reaches_depositedAgain)
  have hfour : (depositedAgain.eventsAfter .all 0).length = 4 := by decide +kernel
  have htwo : (openedAndDeposited.eventsAfter .all 0).length = 2 := by decide +kernel
  have hsize : 1 ≤ 2 := by decide
  obtain ⟨pages, ended, hpages, hended, hopen, hlater, -⟩ :=
    readPages_while_appending hlogs hready (q := .all) rfl hsize 0
  cases ended with
  | false =>
    -- three full pages are more than there is
    obtain ⟨hlen, hfull⟩ := hopen rfl
    have hlogs : ∀ t ∈ [] :: ss.map Store.table, Table.Reaches t depositedAgain := by
      have hfirst := reaches_openedAndDeposited.trans reaches_depositedAgain
      simpa [ss, table_facing, reaches_depositedAgain] using ⟨hfirst, .refl⟩
    obtain ⟨more, hmore⟩ := hlater (facing depositedAgain) (ready_facing _) hlogs
    obtain ⟨p₁, p₂, p₃, rfl⟩ := List.length_eq_three.mp hlen
    have hcount := congrArg List.length (Except.ok.inj (hall.symm.trans hmore))
    simp only [List.forall_mem_cons, List.flatten_cons, List.flatten_nil, List.length_append,
      List.length_nil, hfour] at hfull hcount
    omega
  | true =>
    obtain ⟨before, s, rest, full, last, hsplit, hjoin, hlen, hfull, hlt, hs⟩ := hended rfl
    cases before with
    | nil =>
      -- the first page is full
      obtain ⟨rfl, -⟩ := List.cons.inj hsplit
      obtain rfl := List.length_eq_zero_iff.mp hlen
      rw [hread _ sound_openedAndDeposited, hjoin] at hs
      have hcount := congrArg List.length (Except.ok.inj hs)
      simp only [List.nil_append, List.flatten_cons, List.flatten_nil, List.append_nil, htwo] at hcount
      omega
    | cons b before =>
      have hmem : s ∈ [facing depositedAgain, facing depositedAgain] := by
        rw [(List.cons.inj hsplit).2]
        exact List.mem_append_right _ List.mem_cons_self
      obtain rfl : s = facing depositedAgain := by simpa using hmem
      have hflat := Except.ok.inj (hall.symm.trans hs)
      exact ⟨pages, hpages, hflat ▸ hfour, hs⟩

end Store

end EventLog
