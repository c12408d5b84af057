import Mathlib.Data.List.Nodup
import EventLog.Store.Append

/-!
# Where the rows of a batch stand

The rows of a batch stand after the head, one position further each. Counting stops at the largest position
and stays there: a batch for which there are not enough positions has two rows at the largest one, or its
first row is at the largest one although that is taken.

## Key results

- `Row.map_position_place`: the positions of the rows of a batch
- `Row.positions_place`: if there are enough positions, the rows stand after the head and apart
- `Row.head_add_length_le_max`: if the rows stand apart and where nothing stands, there are enough
-/

namespace EventLog

/-! ### Counting -/

namespace Position

/-- One step further, and not beyond the largest position. -/
theorem next_eq_min (p : Position) : p.next = Min.min (p + 1) Position.max := by
  unfold next
  simp only [Position]
  split <;> omega

/-- The steps of a count are its first one and the others. -/
theorem min_next_add (p : Position) (n : Nat) :
    Min.min (p.next + n + 1) Position.max = Min.min (p + (n + 1 : Nat) + 1) Position.max := by
  rw [next_eq_min]
  simp only [Position]
  omega

/-- Many steps further, and not beyond the largest position. -/
theorem after_succ (p : Position) (n : Nat) :
    p.after (n + 1) = Min.min (p + n + 1) Position.max := by
  -- the bound is met by at most one of the steps, and after it nothing moves
  induction n generalizing p with
  | zero => exact (next_eq_min p).trans (by rw [Int.natCast_zero, Int.add_zero])
  | succ n ih =>
    rw [after, ih, min_next_add]

/-- As long as no position is too large, `n` steps lead `n` further. -/
theorem after_eq {p : Position} {n : Nat} (h : p + n ≤ Position.max) : p.after n = p + n := by
  cases n with
  | zero => exact (Int.add_zero p).symm
  | succ n =>
    rw [after_succ]
    simp only [Position] at *
    omega

end Position

/-! ### Rows -/

namespace Row

/-- What a row has from its event is, for placed rows, what the events of the batch have. -/
theorem map_place {β : Type} {f : Row → β} {g : PreparedEvent → β}
    (h : ∀ e p, f (ofPrepared e p) = g e) (head : Position) (batch : List PreparedEvent) :
    (place head batch).map f = batch.map g := by
  -- by induction on the batch, whatever the position before it
  induction batch generalizing head with
  | nil => rfl
  | cons e es ih => rw [place, List.map_cons, List.map_cons, h, ih]

/-- Placed rows have the identifiers of their events. -/
theorem map_id_place (head : Position) (batch : List PreparedEvent) :
    (place head batch).map (·.id) = batch.map (·.id) :=
  map_place (fun _ _ => rfl) head batch

/-- Every event has one row. -/
theorem length_place (head : Position) (batch : List PreparedEvent) :
    (place head batch).length = batch.length := by
  simpa using congrArg List.length (map_id_place head batch)

/-- A placed row is that of an event of the batch. -/
theorem mem_place {head : Position} {batch : List PreparedEvent} {r : Row}
    (h : r ∈ place head batch) : ∃ e ∈ batch, ∃ p, r = ofPrepared e p := by
  induction batch generalizing head with
  | nil => exact absurd h List.not_mem_nil
  | cons e es ih =>
    rcases List.mem_cons.mp h with rfl | h
    · exact ⟨e, List.mem_cons_self, _, rfl⟩
    · obtain ⟨e', he', hr⟩ := ih h
      exact ⟨e', List.mem_cons_of_mem _ he', hr⟩

/-! ### Their positions -/

/-- Placed rows stand one position further each, and not beyond the largest position. -/
theorem map_position_place (head : Position) (batch : List PreparedEvent) :
    (place head batch).map (·.position) =
      (List.range batch.length).map fun (i : Nat) => Min.min (head + i + 1) Position.max := by
  induction batch generalizing head with
  | nil => rfl
  | cons e es ih =>
    have hfirst : (ofPrepared e head.next).position = Min.min (head + (0 : Nat) + 1) Position.max := by
      rw [Int.natCast_zero, Int.add_zero]
      -- the first row stands one step after the head
      exact Position.next_eq_min head
    rw [place, List.map_cons, ih, hfirst, List.length_cons, List.range_succ_eq_map, List.map_cons,
      List.map_map]
    simp only [Position.min_next_add, Function.comp_def]

variable {head : Position} {batch : List PreparedEvent}

/-- If there are enough positions, the rows stand at the next ones. -/
theorem map_position_place_of_le (h : head + batch.length ≤ Position.max) :
    (place head batch).map (·.position) =
      (List.range batch.length).map fun (i : Nat) => head + 1 + i := by
  rw [map_position_place]
  refine List.map_congr_left fun i hi => ?_
  have hlt := List.mem_range.mp hi
  simp only [Position] at *
  omega

/-- A placed row stands a number of positions further than the head, and not beyond the largest one. -/
theorem exists_position_eq_min {r : Row} (h : r ∈ place head batch) :
    ∃ i < batch.length, r.position = Min.min (head + (i : Nat) + 1) Position.max := by
  have hmem : r.position ∈ (place head batch).map (·.position) := List.mem_map_of_mem h
  rw [map_position_place] at hmem
  obtain ⟨i, hi, hpos⟩ := List.mem_map.mp hmem
  exact ⟨i, List.mem_range.mp hi, hpos.symm⟩

/-- No row stands beyond the largest position. -/
theorem position_le_max_of_mem_place {r : Row} (h : r ∈ place head batch) :
    r.position ≤ Position.max := by
  obtain ⟨i, -, hpos⟩ := exists_position_eq_min h
  rw [hpos]
  exact Int.min_le_right _ _

/-- If there are enough positions, the rows stand apart and after the head. -/
theorem positions_place (h : head + batch.length ≤ Position.max) :
    ((place head batch).map (·.position)).Nodup ∧ ∀ r ∈ place head batch, head < r.position := by
  constructor
  · -- different steps lead to different positions as long as the bound is not met
    rw [map_position_place_of_le h]
    refine List.Nodup.map (fun i j hij => ?_) List.nodup_range
    simp only [Position] at hij
    omega
  · intro r hr
    obtain ⟨i, hi, hpos⟩ := exists_position_eq_min hr
    simp only [Position] at *
    omega

/-- If the rows stand apart and where nothing stands, there are enough positions. -/
theorem head_add_length_le_max {taken : List Position} (hne : batch ≠ [])
    (htop : Position.max ≤ head → Position.max ∈ taken)
    (hnodup : ((place head batch).map (·.position)).Nodup)
    (hfree : ∀ p ∈ (place head batch).map (·.position), p ∉ taken) :
    head + batch.length ≤ Position.max := by
  have hpos := List.length_pos_iff.mpr hne
  rw [map_position_place] at hnodup hfree
  -- otherwise the largest position is met, by two rows or by a row and what is there
  by_contra hover
  rcases Int.lt_or_le head Position.max with hroom | hfull
  · -- the last two rows stand at the largest position
    have hsame := List.inj_on_of_nodup_map hnodup
      (List.mem_range.mpr (show batch.length - 1 < batch.length by omega))
      (List.mem_range.mpr (show batch.length - 2 < batch.length by omega))
    simp only [Position] at *
    omega
  · -- the first row stands at the largest position, and so does the head
    refine hfree Position.max (List.mem_map.mpr ⟨0, List.mem_range.mpr hpos, ?_⟩) (htop hfull)
    simp only [Position] at *
    omega

end Row

end EventLog
