import EventLog.Proofs.Admission

/-!
# Capacities of a store

Settings are judged by their lower bounds alone: no capacity may be zero. A gate and a channel have an upper
bound as well, so there are settings that are accepted and with which there is no store, or no stream.

## Key results

- `StoreSettings.validate_of_zero`: why settings are refused
- `Store.start_eq_ok_none_iff`: with which of them there is no store
- `Store.settings_of_calls`: however a store is used, it keeps its settings
- `Store.opens_and_streams_within_places`: which settings a store can be opened and read as a stream with
- `Store.accepted_beyond_places`: accepted settings without a store, and without a stream
-/

namespace EventLog

open Database

namespace StoreSettings

/-- Settings are refused for the first capacity that is zero. -/
theorem validate_of_zero {s : StoreSettings} {before after : List (String × Nat)} {field : String}
    (hsplit : s.capacities = before ++ (field, 0) :: after) (hbefore : ∀ c ∈ before, c.2 ≠ 0) :
    s.validate = .error (.invalid field "must be greater than zero") := by
  -- the search for a zero stops at this capacity and passes over those before it
  have hfind : s.capacities.find? (·.2 == 0) = some (field, 0) := by
    rw [hsplit, List.find?_append, List.find?_eq_none.mpr (by simpa using hbefore)]
    simp
  simp [validate, hfind]

end StoreSettings

namespace Store

variable {settings : StoreSettings} {client : Client} {mint : Nat → EventId} {now : Instant}

/-! ### Opening -/

/-- Settings that are refused open no store. -/
theorem start_of_invalid {e : SettingsError} (h : settings.validate = .error e) :
    start settings client mint now = .error (.settings e) := by
  simp only [start, h]
  rfl

/-- Settings that are accepted are refused by nothing else, but there may be no gate for them. -/
theorem start_of_valid (h : settings.validate = .ok ()) :
    start settings client mint now = .ok ((Limiter.new? settings.maxProjections).map fun limiter =>
      { settings, limiter, client, mint, minted := 0, now }) := by
  simp only [start, h]
  rfl

/-- There is no store if the settings are accepted and ask for more places than a gate can have. -/
theorem start_eq_ok_none_iff : start settings client mint now = .ok none ↔
    settings.validate = .ok () ∧ Limiter.maxPlaces < settings.maxProjections := by
  -- accepted settings are left with the size of the gate alone
  cases hvalid : settings.validate with
  | error e => simp [start_of_invalid hvalid]
  | ok u =>
    by_cases hle : settings.maxProjections ≤ Limiter.maxPlaces
    · simp [start_of_valid hvalid, Limiter.new?, hle]
    · simp [start_of_valid hvalid, Limiter.new?, hle]
      omega

/-- There is a store if the settings are accepted and a gate can have the places they ask for. -/
theorem exists_start_eq_ok_iff : (∃ s, start settings client mint now = .ok (some s)) ↔
    settings.validate = .ok () ∧ settings.maxProjections ≤ Limiter.maxPlaces := by
  cases hvalid : settings.validate with
  | error e => simp [start_of_invalid hvalid]
  | ok u =>
    by_cases hle : settings.maxProjections ≤ Limiter.maxPlaces
    · simp [start_of_valid hvalid, Limiter.new?, hle]
    · simp [start_of_valid hvalid, Limiter.new?, hle]

/-! ### Using a store -/

/-- A call keeps the settings of a store. -/
theorem settings_of_call {s s' : Store} (h : Call s s') : s'.settings = s.settings := by
  -- only calls that touch the gate change the handle, and they keep the settings
  cases h with
  | append events condition lineage => exact (sameGate_append s events condition lineage).2
  | headPosition => rfl
  | read q o => exact (PlainCall.read q o).sameGate.2
  | linked link id => rfl
  | readBatches q o count => exact (PlainCall.readBatches q o count).sameGate.2
  | nextBatch b => exact (Batches.sameGate_next b s).2
  | dropBatches b => exact (Batches.sameGate_drop b s).2
  | stream h => exact (sameGate_stream h).2
  | project p => exact (sameGate_runProjection s _ _).2
  | decide ps => exact (sameGate_runProjection s _ _).2
  | hold =>
    unfold Store.hold
    split <;> rfl
  | release => rfl
  | migrate => rfl

/-- However a store is used, it keeps its settings. -/
theorem settings_of_calls {s s' : Store} (h : Relation.ReflTransGen Call s s') : s'.settings = s.settings := by
  induction h with
  | refl => rfl
  | tail _ hcall ih => exact (settings_of_call hcall).trans ih

/-- There is a stream if a channel can hold as many events as the settings ask. -/
theorem isSome_stream_iff (s : Store) (q : Query) (o : ReadOptions) (count : Option Nat) :
    (s.stream q o count).isSome ↔ s.settings.streamBuffer ≤ Limiter.maxPlaces := by
  unfold stream
  -- the channel is opened before anything else, and no later failure takes the stream away
  split
  · simp
    omega
  · split <;> simp <;> omega

/-- Which settings a store can be opened and read as a stream with.
* Settings with a capacity of zero are refused, and the first such capacity is named.
* Settings without one open a store unless they ask for more places than a gate can have.
* A store that was opened, whatever it has been used for since, gives every stream unless its settings ask for
  more events ready than a channel can hold; then it gives none. -/
theorem opens_and_streams_within_places (settings : StoreSettings) (client : Client) (mint : Nat → EventId)
    (now : Instant) :
    (∀ before field after, settings.capacities = before ++ (field, 0) :: after → (∀ c ∈ before, c.2 ≠ 0) →
      start settings client mint now =
        .error (.settings (.invalid field "must be greater than zero"))) ∧
    ((∀ c ∈ settings.capacities, c.2 ≠ 0) →
      (settings.maxProjections ≤ Limiter.maxPlaces → ∃ s, start settings client mint now = .ok (some s)) ∧
      (Limiter.maxPlaces < settings.maxProjections → start settings client mint now = .ok none)) ∧
    ∀ s, start settings client mint now = .ok (some s) → ∀ s', Relation.ReflTransGen Call s s' →
      ∀ q o count, (s'.stream q o count).isSome ↔ settings.streamBuffer ≤ Limiter.maxPlaces := by
  refine ⟨?_, ?_, ?_⟩
  · -- settings that are refused, settings with which there is a gate or none, and streams
    intro before field after hsplit hbefore
    exact start_of_invalid (StoreSettings.validate_of_zero hsplit hbefore)
  · intro hpos
    have hvalid := StoreSettings.validate_eq_ok_iff.mpr hpos
    exact ⟨fun hle => exists_start_eq_ok_iff.mpr ⟨hvalid, hle⟩,
      fun hlt => start_eq_ok_none_iff.mpr ⟨hvalid, hlt⟩⟩
  · intro s hs s' huse q o count
    have hsettings : s'.settings = settings :=
      (settings_of_calls huse).trans (limiter_of_start hs).2
    rw [isSome_stream_iff, hsettings]

/-- A gate of as many places as there can be, and a channel of as many events, are opened and used. With no
place at all, and no worker, the settings are refused for the places. -/
theorem opens_and_streams_with_all_places :
    let client := (facing []).client
    let largest : StoreSettings := { maxProjections := Limiter.maxPlaces, streamBuffer := Limiter.maxPlaces }
    (∃ s, start largest client .ofNat default = .ok (some s) ∧
      (s.headPosition.2.stream .all {} none).isSome) ∧
      start { maxProjections := 0, maxWorkers := 0 } client .ofNat default =
        .error (.settings (.invalid "store.max_concurrent_projections" "must be greater than zero")) := by
  intro client largest
  obtain ⟨-, hopens, hstreams⟩ := opens_and_streams_within_places largest client .ofNat default
  obtain ⟨hzero, -, -⟩ :=
    opens_and_streams_within_places { maxProjections := 0, maxWorkers := 0 } client .ofNat default
  obtain ⟨s, hs⟩ := (hopens (by decide)).1 (Nat.le_refl _)
  refine ⟨⟨s, hs, ?_⟩, ?_⟩
  · exact (hstreams s hs _ (.single .headPosition) .all {} none).mpr (Nat.le_refl _)
  · -- two capacities are zero, and the first one in order is named
    exact hzero [("store.max_batch_size", 1000), ("store.stream_buffer", 1000),
      ("store.fetch_batch_size", 1000)] "store.max_concurrent_projections"
      [("store.max_projection_workers", 0)] rfl (by decide)

/-- Settings are accepted that ask for one place more than a gate can have, and there is no store with them.
Others ask for one event more than a channel can hold, and the store that is opened with them gives no
stream. -/
theorem accepted_beyond_places :
    let client := (facing []).client
    let gate : StoreSettings := { maxProjections := Limiter.maxPlaces + 1 }
    let channel : StoreSettings := { streamBuffer := Limiter.maxPlaces + 1 }
    Limiter.maxPlaces + 1 ≤ maxNat64 ∧
      gate.validate = .ok () ∧ start gate client .ofNat default = .ok none ∧
      channel.validate = .ok () ∧ ∃ s, start channel client .ofNat default = .ok (some s) ∧
        s.stream .all {} none = none := by
  intro client gate channel
  have hgate : gate.validate = .ok () := by decide
  have hchannel : channel.validate = .ok () := by decide
  obtain ⟨s, hs⟩ : ∃ s, start channel client .ofNat default = .ok (some s) :=
    -- the channel is not looked at when the store is opened
    exists_start_eq_ok_iff.mpr ⟨hchannel, by decide⟩
  refine ⟨by decide, hgate, start_eq_ok_none_iff.mpr ⟨hgate, by decide⟩, hchannel, s, hs, ?_⟩
  have hnone := (isSome_stream_iff s .all {} none).not
  rw [(limiter_of_start hs).2] at hnone
  simpa using hnone.mpr (by decide)

end Store

end EventLog
