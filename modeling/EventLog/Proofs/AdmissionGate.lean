import EventLog.Limiter

/-!
# Who shares a gate

A gate is passed on by handles: a copy of a handle leads to the same places, and whoever is admitted holds a
permit until it is given back. The places that are taken are computed and nowhere kept, by a subtraction that
stops at zero; they are nevertheless the permits that are held.

## Key results

- `Limiter.tryAdmit_eq_ok_iff`, `Limiter.tryAdmit_eq_error_iff`: what an attempt to be admitted comes to
- `Gate.Balanced`: the free places and the permits make up the gate, and every handle knows its size
- `Gate.Used.balanced`: whatever is done with handles and permits, and in whatever order
- `Gate.places_are_counted`: what a handle says is the number of permits, and who is admitted
-/

namespace EventLog

/-! ### One attempt -/

namespace Limiter

variable {l l' : Limiter}

/-- Who is admitted takes a place, and leaves the gate as it was with that place. -/
theorem tryAdmit_eq_ok_iff : l.tryAdmit = .ok l' ↔ l = l'.release := by
  -- there are places or none: an attempt looks at nothing else
  rcases l with ⟨capacity, _ | n⟩
  · refine ⟨fun h => (nomatch h), fun h => ?_⟩
    exact absurd (congrArg available h) (Nat.succ_ne_zero _).symm
  · constructor
    · rintro ⟨⟩
      rfl
    · intro h
      obtain ⟨rfl, hn⟩ := mk.inj h
      obtain rfl := Nat.succ.inj hn
      rfl

/-- Who is refused finds no place, and is told the size of the gate twice. -/
theorem tryAdmit_eq_error_iff {e : StoreError} :
    l.tryAdmit = .error e ↔ l.available = 0 ∧ e = .tooManyProjections l.capacity l.capacity := by
  rcases l with ⟨capacity, _ | n⟩
  · constructor
    · rintro ⟨⟩
      exact ⟨rfl, rfl⟩
    · rintro ⟨-, rfl⟩
      rfl
  · exact ⟨fun h => (nomatch h), fun h => absurd h.1 (Nat.succ_ne_zero n)⟩

end Limiter

/-! ### A shared gate -/

/-- A gate with its handles and permits. A handle knows the size of the gate; the free places it has in
common with the other handles. A permit comes from a handle and outlives it. -/
structure Gate where
  /-- The size that each handle knows. -/
  handles : List Nat
  available : Nat
  /-- The size that the handle knows which a permit comes from. -/
  permits : List Nat

namespace Gate

/-- The gate as a handle that knows its size sees it. -/
def seen (g : Gate) (size : Nat) : Limiter := ⟨size, g.available⟩

/-- An attempt to be admitted through a handle. -/
def attempt (g : Gate) (size : Nat) : Except StoreError Unit × Gate :=
  match (g.seen size).tryAdmit with
  | .error e => (.error e, g)
  | .ok l => (.ok (), { g with available := l.available, permits := g.permits ++ [size] })

/-- The `i`-th permit is given back. -/
def giveBack (g : Gate) (i : Nat) : Gate :=
  match g.permits[i]? with
  | none => g
  | some size =>
    { g with available := (g.seen size).release.available, permits := g.permits.eraseIdx i }

/-- Attempts through handles, one after the other, are all admitted. -/
def Admits (g : Gate) : List Nat → Prop
  | [] => True
  | size :: sizes => (g.attempt size).1 = .ok () ∧ (g.attempt size).2.Admits sizes

/-- A gate of a size that was opened with one handle. Since then handles were copied and dropped, attempts
were made through them, and permits were given back, in any order. -/
inductive Used (max : Nat) : Gate → Prop
  | opened {l : Limiter} (h : Limiter.new? max = some l) : Used max ⟨[l.capacity], l.available, []⟩
  | copied {g : Gate} {size : Nat} (h : Used max g) (hhandle : size ∈ g.handles) :
    Used max { g with handles := g.handles ++ [size] }
  | dropped {g : Gate} {size : Nat} (h : Used max g) (hhandle : size ∈ g.handles) :
    Used max { g with handles := g.handles.erase size }
  | attempted {g : Gate} {size : Nat} (h : Used max g) (hhandle : size ∈ g.handles) :
    Used max (g.attempt size).2
  | givenBack {g : Gate} {i : Nat} (h : Used max g) (hpermit : i < g.permits.length) :
    Used max (g.giveBack i)

/-- The free places and the permits make up the gate, and every handle knows its size. -/
structure Balanced (max : Nat) (g : Gate) : Prop where
  sum : g.available + g.permits.length = max
  handles : ∀ size ∈ g.handles, size = max

/-! ### What one use does -/

section

variable {g : Gate} {max : Nat}

/-- At a full gate an attempt is refused with the size that its handle knows, and nothing changes. -/
theorem attempt_of_full (h : g.available = 0) (size : Nat) :
    g.attempt size = (.error (.tooManyProjections size size), g) := by
  have hrefused : (g.seen size).tryAdmit = .error (.tooManyProjections size size) :=
    Limiter.tryAdmit_eq_error_iff.mpr ⟨h, rfl⟩
  rw [attempt, hrefused]

/-- A free place becomes a permit of the handle. -/
theorem attempt_of_free {n : Nat} (h : g.available = n + 1) (size : Nat) :
    g.attempt size = (.ok (), { g with available := n, permits := g.permits ++ [size] }) := by
  have hadmitted : (g.seen size).tryAdmit = .ok ⟨size, n⟩ :=
    Limiter.tryAdmit_eq_ok_iff.mpr (congrArg (Limiter.mk size) h)
  rw [attempt, hadmitted]

/-- A permit that is held becomes a free place. -/
theorem giveBack_of_lt {i : Nat} (hi : i < g.permits.length) :
    g.giveBack i = { g with available := g.available + 1, permits := g.permits.eraseIdx i } := by
  rw [giveBack, List.getElem?_eq_getElem hi]
  rfl

namespace Balanced

/-- A gate that is opened has all its places free. -/
theorem of_new {l : Limiter} (h : Limiter.new? max = some l) :
    Balanced max ⟨[l.capacity], l.available, []⟩ := by
  unfold Limiter.new? at h
  split at h
  · obtain rfl := Option.some.inj h
    exact ⟨rfl, by simp⟩
  · exact nomatch h

/-- An attempt moves a place from the free ones to the permits, or nothing. -/
theorem attempt (h : Balanced max g) (size : Nat) : Balanced max (g.attempt size).2 := by
  cases hfree : g.available with
  | zero =>
    rw [attempt_of_full hfree]
    exact h
  | succ n =>
    rw [attempt_of_free hfree]
    refine ⟨?_, h.handles⟩
    rw [← h.sum, hfree, List.length_append]
    exact (Nat.succ_add_eq_add_succ n g.permits.length).symm

/-- A permit that is given back is a free place. -/
theorem giveBack (h : Balanced max g) {i : Nat} (hi : i < g.permits.length) :
    Balanced max (g.giveBack i) := by
  rw [giveBack_of_lt hi]
  have hsum := h.sum
  have hlength := List.length_eraseIdx_of_lt hi
  refine ⟨?_, h.handles⟩
  show g.available + 1 + (g.permits.eraseIdx i).length = max
  omega

/-- What a handle computes is the number of permits. -/
theorem inFlight_eq (h : Balanced max g) {size : Nat} (hhandle : size ∈ g.handles) :
    (g.seen size).inFlight = g.permits.length := by
  rw [h.handles size hhandle, seen, Limiter.inFlight, ← h.sum, Nat.add_sub_cancel_left]

/-- An attempt is admitted exactly if fewer permits are held than the gate has places. -/
theorem attempt_eq_ok_iff (h : Balanced max g) (size : Nat) :
    (g.attempt size).1 = .ok () ↔ g.permits.length < max := by
  have hsum := h.sum
  -- both sides ask whether a place is free, since the places that are not free are the permits
  cases hfree : g.available with
  | zero =>
    rw [attempt_of_full hfree]
    refine ⟨fun hok => (nomatch hok), fun hlt => ?_⟩
    omega
  | succ n =>
    rw [attempt_of_free hfree]
    refine ⟨fun _ => ?_, fun _ => rfl⟩
    omega

/-- Any number of attempts is admitted exactly if there are as many places. -/
theorem admits_iff (h : Balanced max g) (sizes : List Nat) :
    g.Admits sizes ↔ g.permits.length + sizes.length ≤ max := by
  -- by induction on the attempts, for every gate: the first of them changes it for the others
  induction sizes generalizing g with
  | nil =>
    have hsum := h.sum
    simp only [Admits, List.length_nil, true_iff]
    omega
  | cons size sizes ih =>
    rw [Admits, h.attempt_eq_ok_iff, ih (h.attempt size), List.length_cons]
    have hsum := h.sum
    cases hfree : g.available with
    | zero => omega
    | succ n =>
      -- the first of them holds a permit by then
      rw [attempt_of_free hfree, List.length_append, List.length_singleton]
      omega

/-- After a permit is given back one attempt more is admitted than before. -/
theorem admits_giveBack_iff (h : Balanced max g) {i : Nat} (hi : i < g.permits.length) (size : Nat)
    (sizes : List Nat) : (g.giveBack i).Admits (size :: sizes) ↔ g.Admits sizes := by
  have hlength := List.length_eraseIdx_of_lt hi
  rw [(h.giveBack hi).admits_iff, h.admits_iff, giveBack_of_lt hi, List.length_cons]
  dsimp only
  omega

end Balanced

/-! ### Whole runs -/

/-- Every use of a gate keeps it balanced. -/
theorem Used.balanced (h : Used max g) : Balanced max g := by
  -- by induction on the use: only attempts and permits that are given back move places
  induction h with
  | opened h => exact .of_new h
  | copied h hhandle ih =>
    refine ⟨ih.sum, fun size hsize => ?_⟩
    -- a copy knows what the handle that was copied knew
    rcases List.mem_append.mp hsize with hsize | hsize
    · exact ih.handles size hsize
    · exact ih.handles size (List.mem_singleton.mp hsize ▸ hhandle)
  | dropped h hhandle ih => exact ⟨ih.sum, fun size hsize => ih.handles size (List.mem_of_mem_erase hsize)⟩
  | attempted h hhandle ih => exact ih.attempt _
  | givenBack h hpermit ih => exact ih.giveBack hpermit

end

/-- After any use of a gate, through any of its handles:
* The number of places that are taken is the number of permits that are held, and at most the size.
* An attempt is admitted exactly if fewer permits are held than the gate has places, and then there is one
  permit more. An attempt that is refused is told the size twice and changes nothing.
* Attempts in succession are all admitted exactly if the gate has places for them beside the permits.
* Whichever permit is given back, after it exactly one attempt more is admitted than before. -/
theorem places_are_counted {max : Nat} {g : Gate} (h : Used max g) :
    g.permits.length ≤ max ∧
    (∀ size ∈ g.handles,
      (g.seen size).inFlight = g.permits.length ∧
      ((g.attempt size).1 = .ok () ↔ g.permits.length < max) ∧
      ((g.attempt size).1 = .ok () → (g.attempt size).2.permits = g.permits ++ [size]) ∧
      ∀ e, (g.attempt size).1 = .error e →
        e = .tooManyProjections max max ∧ (g.attempt size).2 = g) ∧
    (∀ sizes, g.Admits sizes ↔ g.permits.length + sizes.length ≤ max) ∧
    ∀ i < g.permits.length, (g.giveBack i).permits = g.permits.eraseIdx i ∧
      ∀ size sizes, (g.giveBack i).Admits (size :: sizes) ↔ g.Admits sizes := by
  have hbalanced := h.balanced
  have hsum := hbalanced.sum
  refine ⟨by omega, fun size hhandle => ⟨hbalanced.inFlight_eq hhandle, hbalanced.attempt_eq_ok_iff size,
    ?_⟩, hbalanced.admits_iff, fun i hi => ⟨?_, hbalanced.admits_giveBack_iff hi⟩⟩
  · -- the handle tells its own size when it refuses, which is the size of the gate
    obtain rfl := hbalanced.handles size hhandle
    cases hfree : g.available with
    | zero =>
      rw [attempt_of_full hfree]
      refine ⟨fun hok => (nomatch hok), fun e he => ?_⟩
      exact ⟨(Except.error.inj he).symm, rfl⟩
    | succ n =>
      rw [attempt_of_free hfree]
      exact ⟨fun _ => rfl, fun e he => (nomatch he)⟩
  · rw [giveBack_of_lt hi]

/-- Two places, one taken through a handle and one through its copy: a third attempt is refused. When the
first permit is given back one attempt is admitted, and not two. -/
theorem places_are_counted_with_two_places :
    ∃ g, Used 2 g ∧ g.handles = [2, 2] ∧ (g.seen 2).inFlight = 2 ∧
      (g.attempt 2).1 = .error (.tooManyProjections 2 2) ∧ (g.attempt 2).2 = g ∧
      (g.giveBack 0).Admits [2] ∧ ¬(g.giveBack 0).Admits [2, 2] := by
  have hopened : Used 2 ⟨[2], 2, []⟩ := .opened (l := ⟨2, 2⟩) rfl
  have hcopied : Used 2 ⟨[2, 2], 2, []⟩ := hopened.copied List.mem_cons_self
  have hone : Used 2 ⟨[2, 2], 1, [2]⟩ := hcopied.attempted List.mem_cons_self
  have htwo : Used 2 ⟨[2, 2], 0, [2, 2]⟩ := hone.attempted (List.mem_cons_of_mem _ List.mem_cons_self)
  obtain ⟨-, hhandles, hadmits, hgiven⟩ := places_are_counted htwo
  obtain ⟨htaken, -, -, hrefused⟩ := hhandles 2 List.mem_cons_self
  obtain ⟨-, hmore⟩ := hgiven 0 Nat.two_pos
  refine ⟨_, htwo, rfl, htaken, rfl, (hrefused _ rfl).2, (hmore 2 []).mpr trivial, fun h => ?_⟩
  -- with the gate full not even one attempt was admitted before
  have hone := (hadmits [2]).mp ((hmore 2 [2]).mp h)
  exact absurd hone (by decide)

end Gate

end EventLog
