import Mathlib.Data.Int.CardIntervalMod
import EventLog.Proofs.Dealing

/-!
# Dealing in turn

Slots are dealt by a loop over the buckets that begins anew when every bucket has been served, and that ends
only where a bucket finds no slot left. With at least one bucket it ends, and by then the slots have been
dealt in turn: those whose numbers leave the same remainder are in one bucket.

## Key results

- `Dealing.iterate_rounds`: the loop ends, after so many steps, with what `dealRounds` gives
- `Dealing.Fair.step`, `Dealing.Fair.iterate`: in every step the slots dealt so far are dealt in turn
- `Slot.length_of_mem_inTurn`: how many slots a bucket has
- `Slot.dealt_and_merged`: dealing slots and putting them together again
-/

namespace EventLog

variable {α σ : Type}

/-- The loop that deals items to buckets. -/
inductive Dealing (α : Type)
  /-- In a round some buckets have been served and others wait. -/
  | round (served waiting : List (List α)) (items : List α)
  | ended (buckets : List (List α))

namespace Dealing

/-- The loop before its first round. -/
def start (count : Nat) (items : List α) : Dealing α := .round [] (List.replicate count []) items

/-- Serves the next bucket, or begins the next round. Only a bucket can find that no item is left. -/
def step : Dealing α → Dealing α
  | .round served [] items => .round [] served items
  | .round served (b :: bs) (x :: xs) => .round (served ++ [b ++ [x]]) bs xs
  | .round served (b :: bs) [] => .ended (served ++ b :: bs)
  | .ended buckets => .ended buckets

/-! ### The loop ends -/

/-- A round leaves what its buckets do not take. -/
theorem dealRound_snd (buckets : List (List α)) (items : List α) :
    (dealRound buckets items).2 = items.drop buckets.length := by
  -- by induction on the buckets, each of which takes one item
  induction buckets generalizing items with
  | nil => simp [dealRound]
  | cons b bs ih =>
    cases items with
    | nil => simp [dealRound]
    | cons x xs => simp [dealRound, ih]

/-- A round with an item for every bucket serves all of them. -/
theorem iterate_of_le (served : List (List α)) {waiting : List (List α)} {items : List α}
    (h : waiting.length ≤ items.length) :
    step^[waiting.length] (.round served waiting items) =
      .round (served ++ (dealRound waiting items).1) [] (dealRound waiting items).2 := by
  induction waiting generalizing served items with
  | nil => simp [dealRound]
  | cons b bs ih =>
    cases items with
    | nil => simp at h
    | cons x xs =>
      have hrest := ih (served ++ [b ++ [x]]) (Nat.le_of_succ_le_succ h)
      -- the first bucket is served in one step, and the others stand in line behind it
      rw [List.length_cons, Function.iterate_succ_apply, step, hrest]
      simp [dealRound]

/-- A round with fewer items ends the loop at the first bucket that finds none. -/
theorem iterate_of_lt (served : List (List α)) {waiting : List (List α)} {items : List α}
    (h : items.length < waiting.length) :
    step^[items.length + 1] (.round served waiting items) =
      .ended (served ++ (dealRound waiting items).1) := by
  induction items generalizing served waiting with
  | nil =>
    cases waiting with
    -- no bucket would be left to find that there is no item
    | nil => simp at h
    | cons b bs => simp [step, dealRound]
  | cons x xs ih =>
    cases waiting with
    | nil => simp at h
    | cons b bs =>
      have hrest := ih (served ++ [b ++ [x]]) (Nat.lt_of_succ_lt_succ h)
      rw [List.length_cons, Function.iterate_succ_apply, step, hrest]
      simp [dealRound]

/-- Fewer items than buckets are dealt in one round. -/
theorem dealRounds_of_lt {buckets : List (List α)} {items : List α} (h : items.length < buckets.length) :
    dealRounds buckets items = (dealRound buckets items).1 := by
  have hrest : (dealRound buckets items).2 = [] := by
    rw [dealRound_snd, List.drop_eq_nil_of_le (Nat.le_of_lt h)]
  cases items with
  | nil =>
    rw [dealRounds]
    cases buckets <;> simp [dealRound]
  | cons x xs =>
    rw [dealRounds, hrest, dealRounds]
    simp

/-- The loop takes a step for every item, one for every full round, and one to find that no item is left. -/
theorem iterate_rounds {buckets : List (List α)} (hb : buckets ≠ []) (items : List α) :
    step^[items.length + items.length / buckets.length + 1] (.round [] buckets items) =
      .ended (dealRounds buckets items) := by
  have hpos : 0 < buckets.length := List.length_pos_iff.mpr hb
  -- by induction on the number of items: a full round leaves fewer of them
  induction hn : items.length using Nat.strong_induction_on generalizing buckets items with
  | h n ih =>
    subst hn
    by_cases hlt : items.length < buckets.length
    · rw [Nat.div_eq_of_lt hlt, Nat.add_zero, iterate_of_lt [] hlt, dealRounds_of_lt hlt, List.nil_append]
    · have hle : buckets.length ≤ items.length := Nat.le_of_not_lt hlt
      let r := dealRound buckets items
      have hlen : r.1.length = buckets.length := length_dealRound buckets items
      have hleft : r.2.length = items.length - buckets.length := by
        rw [show r.2 = _ from dealRound_snd buckets items, List.length_drop]
      have hfewer : r.2.length < items.length := by omega
      have hrounds : dealRounds buckets items = dealRounds r.1 r.2 := by
        rw [dealRounds]
        exact if_pos hfewer
      -- the steps of this round, the one that begins the next, and all the others
      have hsteps : items.length + items.length / buckets.length + 1 =
          (r.2.length + r.2.length / r.1.length + 1) + 1 + buckets.length := by
        have hdiv : items.length / buckets.length = r.2.length / r.1.length + 1 := by
          rw [hleft, hlen]
          exact Nat.div_eq_sub_div hpos hle
        omega
      have hr : r.1 ≠ [] := List.ne_nil_of_length_pos (hlen ▸ hpos)
      rw [hsteps, Function.iterate_add_apply, iterate_of_le [] hle, Function.iterate_add_apply, hrounds]
      exact ih _ hfewer hr r.2 (hlen ▸ hpos) rfl

/-- The loop over no buckets begins anew for ever. -/
theorem iterate_nil (n : Nat) (items : List α) : step^[n] (.round [] [] items) = .round [] [] items :=
  Function.iterate_fixed rfl n

end Dealing

/-! ### What every step keeps -/

namespace Slot

/-- Slots dealt in turn to `w` buckets: each has the slots whose numbers leave its remainder, in order. -/
def inTurn (w : Nat) (slots : List (Slot σ)) : List (List (Slot σ)) :=
  (List.range w).map fun j => slots.filter (·.index % w = j)

@[simp] theorem length_inTurn (w : Nat) (slots : List (Slot σ)) : (inTurn w slots).length = w := by
  simp [inTurn]

/-- One more slot comes to the end of the bucket whose turn it is. -/
theorem inTurn_concat (w : Nat) (slots : List (Slot σ)) (s : Slot σ) :
    inTurn w (slots ++ [s]) = (inTurn w slots).modify (s.index % w) (· ++ [s]) := by
  apply List.ext_getElem
  · simp
  · intro j h h'
    by_cases hj : s.index % w = j
    · simp [inTurn, hj]
    · simp [inTurn, hj]

end Slot

open Slot (inTurn inTurn_concat length_inTurn)

namespace Dealing

/-- The slots dealt so far have been dealt in turn, and it is the turn of the first bucket that waits. -/
def Fair (w : Nat) (slots : List (Slot σ)) : Dealing (Slot σ) → Prop
  | .round served waiting items => ∃ dealt, slots = dealt ++ items ∧ served ++ waiting = inTurn w dealt ∧
      served.length % w = dealt.length % w
  | .ended buckets => buckets = inTurn w slots

variable {w : Nat} {slots : List (Slot σ)}

/-- Before the first round no slot has been dealt, which is dealt in turn. -/
theorem fair_start (w : Nat) (slots : List (Slot σ)) : Fair w slots (start w slots) := by
  refine ⟨[], rfl, ?_, rfl⟩
  -- no slot has been dealt: there are `w` buckets, all empty
  apply List.ext_getElem <;> simp [inTurn]

/-- A step keeps that slots are dealt in turn, if they are numbered in order. -/
theorem Fair.step (hnum : slots.map (·.index) = List.range slots.length) {d : Dealing (Slot σ)}
    (h : Fair w slots d) : Fair w slots d.step := by
  cases d with
  | ended buckets => exact h
  | round served waiting items =>
    obtain ⟨dealt, hsplit, hturn, hmod⟩ := h
    have hlen : served.length + waiting.length = w := by
      -- the buckets served and those that wait are all `w` of them
      rw [← List.length_append, hturn, length_inTurn]
    cases waiting with
    | nil =>
      refine ⟨dealt, hsplit, by simpa using hturn, ?_⟩
      -- all `w` buckets have been served
      have hall : served.length = w := hlen
      rw [← hmod, hall, Nat.mod_self]
      exact Nat.zero_mod w
    | cons b bs =>
      cases items with
      | nil =>
        -- a bucket finds no slot, so all slots have been dealt
        have hdealt : slots = dealt := by simpa using hsplit
        simpa [Fair, Dealing.step, hdealt] using hturn
      | cons s rest =>
        have hlt : served.length < w := by simp at hlen; omega
        -- slots are numbered in order, so the next one has the number of slots dealt
        have hindex : s.index = dealt.length := by
          have hget := congrArg (·[dealt.length]?) hnum
          simp [hsplit] at hget
          exact hget
        refine ⟨dealt ++ [s], by simp [hsplit], ?_, ?_⟩
        · -- the bucket that gets the slot stands right after those that have been served
          have hplace : s.index % w = served.length := by
            rw [hindex, ← hmod, Nat.mod_eq_of_lt hlt]
          rw [inTurn_concat, ← hturn, hplace, List.modify_eq_take_cons_drop (by simp)]
          simp
        · simp [Nat.add_mod, hmod]

/-- However many steps the loop has taken, the slots dealt so far are dealt in turn. -/
theorem Fair.iterate (hnum : slots.map (·.index) = List.range slots.length) (n : Nat)
    {d : Dealing (Slot σ)} (h : Fair w slots d) : Fair w slots (Dealing.step^[n] d) := by
  induction n with
  | zero => exact h
  | succ n ih =>
    rw [Function.iterate_succ_apply']
    exact ih.step hnum

end Dealing

/-! ### The buckets -/

namespace Slot

variable {w : Nat} {slots : List (Slot σ)}

/-- Slots that are numbered in order are dealt in turn. -/
theorem deal_eq_inTurn (hnum : slots.map (·.index) = List.range slots.length) (hw : 0 < w) :
    deal w slots = inTurn w slots := by
  -- after all its steps the loop has ended, and what it ended with is dealt in turn
  have hb : List.replicate w ([] : List (Slot σ)) ≠ [] := List.ne_nil_of_length_pos (by simpa using hw)
  have hfair := (Dealing.fair_start w slots).iterate hnum (slots.length + slots.length / w + 1)
  have hend := Dealing.iterate_rounds hb slots
  rw [List.length_replicate] at hend
  rw [Dealing.start, hend] at hfair
  exact hfair

/-- A bucket has a slot from every full round, and one more if it is served in the last one. -/
theorem length_of_mem_inTurn (hnum : slots.map (·.index) = List.range slots.length) {b : List (Slot σ)}
    (hb : b ∈ inTurn w slots) :
    slots.length / w ≤ b.length ∧ b.length ≤ slots.length / w + 1 := by
  obtain ⟨j, hj, rfl⟩ := List.mem_map.mp hb
  have hj : j < w := List.mem_range.mp hj
  have hcount : (slots.filter (·.index % w = j)).length =
      Nat.count (fun i => i ≡ j [MOD w]) slots.length := by
    rw [Nat.count, ← hnum, List.countP_map, List.countP_eq_length_filter]
    simp [Nat.ModEq, Nat.mod_eq_of_lt hj, Function.comp_def]
  rw [hcount, Nat.count_modEq_card _ (by omega)]
  split <;> omega

/-- The slots of projectors are numbered in order. -/
theorem map_index_ofProjectors (start : Nat) (ps : List (NamedProjector σ)) :
    (ofProjectors start ps).map (·.index) = List.range' start ps.length := by
  induction ps generalizing start with
  | nil => rfl
  | cons p ps ih => simp [ofProjectors, ofProjector, List.range'_succ, ih]

/-- Dealing slots to workers and putting them together again changes nothing. For slots that are numbered in
order, and at least two workers but no more than slots:
* The dealing loop ends, after one step for every slot, one for every full round and one more.
* The bucket of a worker has the slots whose numbers leave its remainder, in order. None is empty, so every
  worker has work, and no bucket has two slots more than another one.
* Whatever the workers made of their slots, and in whichever order they are put together: ordering the slots
  by number gives what was made of the slots, in their order. None is lost or repeated. -/
theorem dealt_and_merged (hnum : slots.map (·.index) = List.range slots.length) (hw : 2 ≤ w)
    (hle : w ≤ slots.length) :
    Dealing.step^[slots.length + slots.length / w + 1] (Dealing.start w slots) = .ended (deal w slots) ∧
      deal w slots = (List.range w).map (fun j => slots.filter (·.index % w = j)) ∧
      (∀ b ∈ deal w slots, b ≠ []) ∧
      (∀ b ∈ deal w slots, ∀ c ∈ deal w slots, b.length ≤ c.length + 1) ∧
      ∀ worked : Slot σ → Slot σ, (∀ s, (worked s).index = s.index) →
        ∀ order : List (List (Slot σ)), order.Perm ((deal w slots).map (List.map worked)) →
          order.flatten.Perm (slots.map worked) ∧
          order.flatten.mergeSort (fun a b => a.index ≤ b.index) = slots.map worked := by
  have hpos : 0 < w := by omega
  have hturn : deal w slots = inTurn w slots := deal_eq_inTurn hnum hpos
  have hfull : 1 ≤ slots.length / w := (Nat.one_le_div_iff hpos).mpr hle
  refine ⟨?ends, hturn, ?full, ?even, ?merged⟩
  case ends =>
    have hb : List.replicate w ([] : List (Slot σ)) ≠ [] := List.ne_nil_of_length_pos (by simpa using hpos)
    simpa [Dealing.start, deal] using Dealing.iterate_rounds hb slots
  case full =>
    -- there are no fewer slots than workers, so every bucket got one in the first round
    intro b hb
    have hlen := length_of_mem_inTurn hnum (hturn ▸ hb)
    exact List.ne_nil_of_length_pos (by omega)
  case even =>
    intro b hb c hc
    have hlenb := length_of_mem_inTurn hnum (hturn ▸ hb)
    have hlenc := length_of_mem_inTurn hnum (hturn ▸ hc)
    omega
  case merged =>
    intro worked hindex order horder
    -- the pieces hold the slots, whichever order they come in
    have hperm : order.flatten.Perm (slots.map worked) := by
      refine horder.flatten.trans ?_
      rw [← List.map_flatten]
      exact (flatten_deal_perm hpos slots).map worked
    refine ⟨hperm, mergeSort_of_perm hperm ?_⟩
    -- numbers are kept, and they ascend
    have hasc : (slots.map (·.index)).Pairwise (· < ·) := hnum ▸ List.pairwise_lt_range
    rw [List.pairwise_map] at hasc ⊢
    exact hasc.imp fun {a b} h => by rw [hindex a, hindex b]; exact h

/-- The projectors of three counts. -/
def threeCounts : List (NamedProjector Nat) :=
  ["accounts", "deposits", "transfers"].map fun id =>
    ⟨id, { query := .all, initial := 0, transition := fun n _ => .ok (n + 1) }⟩

/-- Of three slots the first worker gets the first and the last one, and the loop takes five steps. Put
together from the second worker on, the slots are the same, in another order. -/
theorem dealt_and_merged_of_three :
    let slots := ofProjectors 0 threeCounts
    (deal 2 slots).map (List.map (·.id)) = [["accounts", "transfers"], ["deposits"]] ∧
      Dealing.step^[5] (Dealing.start 2 slots) = .ended (deal 2 slots) ∧
      (deal 2 slots).reverse.flatten.mergeSort (fun a b => a.index ≤ b.index) = slots := by
  intro slots
  have hnum : slots.map (·.index) = List.range slots.length := map_index_ofProjectors 0 threeCounts
  obtain ⟨hends, hturn, -, -, hmerged⟩ := dealt_and_merged hnum (w := 2) (by decide) (by decide)
  have hfive : slots.length + slots.length / 2 + 1 = 5 := by decide
  rw [hfive] at hends
  have horder : (deal 2 slots).reverse.Perm ((deal 2 slots).map (List.map fun s => s)) := by
    simp
  have hback := (hmerged (fun s => s) (fun _ => rfl) _ horder).2
  refine ⟨by rw [hturn]; rfl, hends, ?_⟩
  simpa using hback

end Slot

end EventLog
