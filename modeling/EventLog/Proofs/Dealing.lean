import Mathlib.Data.List.Pairwise
import EventLog.Projection.FanOut

/-!
# Dealing slots and putting them together

Dealing to at least one bucket loses and repeats nothing, so the slots of all workers are those of the
projectors in another order. Slots are numbered in the order of their projectors, and ordering them by
number restores that order.
-/

namespace EventLog

variable {α σ : Type}

/-! ### Dealing -/

/-- A round hands items from what is dealt to the buckets, and changes the number of neither. -/
theorem dealRound_perm (buckets : List (List α)) (items : List α) :
    ((dealRound buckets items).1.flatten ++ (dealRound buckets items).2).Perm
      (buckets.flatten ++ items) := by
  -- by induction on the buckets, one item for each while there are items
  induction buckets generalizing items with
  | nil => simp [dealRound]
  | cons b bs ih =>
    cases items with
    | nil => simp [dealRound]
    | cons x xs =>
      simp only [dealRound, List.flatten_cons, List.append_assoc]
      -- what is left to show is that `x` may come after the other buckets instead of before them
      refine List.Perm.append_left b ?_
      exact ((ih xs).cons x).trans List.perm_middle.symm

/-- What a round leaves comes in its order. -/
theorem dealRound_sublist (buckets : List (List α)) (items : List α) :
    (dealRound buckets items).2.Sublist items := by
  induction buckets generalizing items with
  | nil => exact .refl items
  | cons b bs ih =>
    cases items with
    | nil => exact .refl []
    | cons x xs => exact (ih xs).cons x

/-- A round over some bucket hands out an item while there is one. -/
theorem length_dealRound_lt {buckets : List (List α)} {items : List α} (hb : buckets ≠ [])
    (hi : items ≠ []) : (dealRound buckets items).2.length < items.length := by
  cases buckets with
  | nil => exact absurd rfl hb
  | cons b bs =>
    cases items with
    | nil => exact absurd rfl hi
    | cons x xs =>
      -- the first bucket takes an item, and what is left of the others is no longer than they are
      have hle := (dealRound_sublist bs xs).length_le
      simp only [dealRound, List.length_cons]
      omega

/-- A round keeps the number of buckets. -/
theorem length_dealRound (buckets : List (List α)) (items : List α) :
    (dealRound buckets items).1.length = buckets.length := by
  induction buckets generalizing items with
  | nil => simp [dealRound]
  | cons b bs ih =>
    cases items with
    | nil => simp [dealRound]
    | cons x xs => simp [dealRound, ih]

/-- Dealing in rounds to some buckets hands out every item. -/
theorem dealRounds_perm {buckets : List (List α)} (hb : buckets ≠ []) (items : List α) :
    (dealRounds buckets items).flatten.Perm (buckets.flatten ++ items) := by
  -- by the recursion of the rounds, each of which keeps all items and the number of buckets
  fun_induction dealRounds buckets items with
  | case1 buckets items r hlt ih =>
    have hr : r.1 ≠ [] := by
      have := length_dealRound buckets items
      exact List.ne_nil_of_length_pos (this ▸ List.length_pos_iff.mpr hb)
    exact (ih hr).trans (dealRound_perm buckets items)
  | case2 buckets items r hlt =>
    -- a round that hands out nothing had nothing to hand out
    have hnil : items = [] := by
      rcases eq_or_ne items [] with h | h
      · exact h
      · exact absurd (length_dealRound_lt hb h) hlt
    simp [hnil]

/-- Dealing to at least one bucket loses and repeats nothing. -/
theorem flatten_deal_perm {count : Nat} (h : 0 < count) (items : List α) :
    (deal count items).flatten.Perm items := by
  have hb : List.replicate count ([] : List α) ≠ [] :=
    List.ne_nil_of_length_pos (by simpa using h)
  have hflat : (List.replicate count ([] : List α)).flatten = [] := by simp
  simpa only [deal, hflat, List.nil_append] using dealRounds_perm hb items

/-- A round puts items at the ends of buckets, before those that it leaves. -/
theorem mem_dealRound {buckets : List (List α)} {items c : List α}
    (h : c ∈ (dealRound buckets items).1) :
    ∃ b ∈ buckets, ∃ xs, c = b ++ xs ∧ (xs ++ (dealRound buckets items).2).Sublist items := by
  induction buckets generalizing items with
  | nil => exact absurd h List.not_mem_nil
  | cons b bs ih =>
    cases items with
    | nil => exact ⟨c, h, [], (List.append_nil c).symm, .refl []⟩
    | cons x xs =>
      simp only [dealRound] at h ⊢
      -- the item goes to the first bucket, or the list is a later one
      rcases List.mem_cons.mp h with rfl | h
      · exact ⟨b, List.mem_cons_self, [x], rfl, (dealRound_sublist bs xs).cons_cons x⟩
      · obtain ⟨b', hb', ys, rfl, hsub⟩ := ih h
        exact ⟨b', List.mem_cons_of_mem _ hb', ys, rfl, hsub.cons x⟩

/-- Every bucket keeps the order of the items that it is dealt. -/
theorem sublist_of_mem_deal {count : Nat} {items c : List α} (h : c ∈ deal count items) :
    c.Sublist items := by
  have hrounds : ∀ (buckets : List (List α)) (items : List α), c ∈ dealRounds buckets items →
      ∃ b ∈ buckets, ∃ xs, c = b ++ xs ∧ xs.Sublist items := by
    intro buckets items h
    fun_induction dealRounds buckets items with
    | case1 buckets items r hlt ih =>
      -- what the later rounds put into the bucket comes after what this one put there
      obtain ⟨b, hb, ys, rfl, hys⟩ := ih h
      obtain ⟨b', hb', xs, rfl, hxs⟩ := mem_dealRound hb
      exact ⟨b', hb', xs ++ ys, List.append_assoc _ _ _, (hys.append_left xs).trans hxs⟩
    | case2 buckets items r hlt => exact ⟨c, h, [], (List.append_nil c).symm, List.nil_sublist _⟩
  obtain ⟨b, hb, xs, rfl, hxs⟩ := hrounds _ _ h
  -- all buckets are empty to begin with
  obtain rfl := List.eq_of_mem_replicate hb
  exact hxs

/-- Dealing a round and renaming the items may be exchanged. -/
theorem dealRound_map {β : Type} (f : α → β) (buckets : List (List α)) (items : List α) :
    dealRound (buckets.map (List.map f)) (items.map f) =
      ((dealRound buckets items).1.map (List.map f), (dealRound buckets items).2.map f) := by
  induction buckets generalizing items with
  | nil => rfl
  | cons b bs ih =>
    cases items with
    | nil => rfl
    | cons x xs => simp [dealRound, ih]

/-- How items are dealt does not depend on what they are. -/
theorem deal_map {β : Type} (f : α → β) (count : Nat) (items : List α) :
    deal count (items.map f) = (deal count items).map (List.map f) := by
  have hrounds : ∀ (buckets : List (List α)) (items : List α),
      dealRounds (buckets.map (List.map f)) (items.map f) =
        (dealRounds buckets items).map (List.map f) := by
    intro buckets items
    fun_induction dealRounds buckets items with
    | case1 buckets items r hlt ih =>
      -- renaming does not change how many items are left, so both go on or both stop
      rw [dealRounds, dealRound_map, ← ih]
      simp only [List.length_map]
      exact if_pos hlt
    | case2 buckets items r hlt =>
      rw [dealRounds, dealRound_map]
      simp only [List.length_map]
      exact if_neg hlt
  have hstart : List.replicate count ([] : List β) =
      (List.replicate count ([] : List α)).map (List.map f) := by simp
  rw [deal, hstart, hrounds]
  rfl

/-- Leaving out the empty lists of a list changes nothing of what they hold together. -/
theorem flatten_filter_not_isEmpty (ls : List (List α)) :
    (ls.filter (!·.isEmpty)).flatten = ls.flatten := by
  induction ls with
  | nil => rfl
  | cons l ls ih =>
    cases l with
    | nil => simpa using ih
    | cons x xs => simpa using ih

/-! ### The order of slots -/

namespace Slot

/-- A slot of projectors numbered from `start` has a number from `start` on, and a state. -/
theorem index_of_mem_ofProjectors {start : Nat} {ps : List (NamedProjector σ)} {s : Slot σ}
    (h : s ∈ ofProjectors start ps) : start ≤ s.index ∧ s.state.isSome = true := by
  -- the number of the first is where the count starts, the others are counted after it
  induction ps generalizing start with
  | nil => exact absurd h List.not_mem_nil
  | cons p ps ih =>
    rcases List.mem_cons.mp h with rfl | h
    · exact ⟨Nat.le_refl _, rfl⟩
    · have := ih h
      exact ⟨by omega, this.2⟩

/-- The slots of projectors are numbered in their order. -/
theorem pairwise_ofProjectors (start : Nat) (ps : List (NamedProjector σ)) :
    (ofProjectors start ps).Pairwise fun a b => a.index < b.index := by
  induction ps generalizing start with
  | nil => exact .nil
  | cons p ps ih =>
    refine List.pairwise_cons.mpr ⟨fun s hs => ?_, ih (start + 1)⟩
    have := (index_of_mem_ofProjectors hs).1
    show start < s.index
    omega

/-- Numbers are distinct, so there is one order by number. -/
theorem mergeSort_of_perm {slots ordered : List (Slot σ)} (hperm : slots.Perm ordered)
    (hord : ordered.Pairwise fun a b => a.index < b.index) :
    slots.mergeSort (fun a b => a.index ≤ b.index) = ordered := by
  -- a sorted list is a permutation, and two permutations in order are equal if the order is strict enough
  refine @List.Perm.eq_of_pairwise _ (fun a b => a.index ≤ b.index) _ _ ?_ ?_
    (hord.imp Nat.le_of_lt) ((List.mergeSort_perm slots _).trans hperm)
  · -- equal numbers belong to the same slot
    intro a b ha hb hab hba
    have ha : a ∈ ordered := hperm.mem_iff.mp ((List.mergeSort_perm slots _).mem_iff.mp ha)
    have hindex : ordered.Pairwise fun a b => a.index ≠ b.index := hord.imp Nat.ne_of_lt
    have : Std.Symm fun a b : Slot σ => a.index ≠ b.index := ⟨fun _ _ h => h.symm⟩
    by_contra hne
    exact hindex.forall ha hb hne (Nat.le_antisymm hab hba)
  · have hsorted := @List.pairwise_mergeSort _ (fun a b : Slot σ => decide (a.index ≤ b.index))
      (fun a b c hab hbc => by simp only [decide_eq_true_eq] at *; omega)
      (fun a b => by simp only [Bool.or_eq_true, decide_eq_true_eq]; omega) slots
    exact hsorted.imp fun h => by simpa using h

end Slot

/-- Slots in any order have the states of the slots in order of their numbers. -/
theorem ProjectionSet.states_of_perm {slots ordered : List (Slot σ)} (hperm : slots.Perm ordered)
    (hord : ordered.Pairwise fun a b => a.index < b.index) (p : Position) :
    (ProjectionSet.mk slots p).states = ordered.filterMap Slot.result? := by
  simp only [ProjectionSet.states, Slot.mergeSort_of_perm hperm hord]

end EventLog
