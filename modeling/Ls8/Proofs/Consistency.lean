import Ls8.Proofs.Exchanges
import Mathlib.Data.List.Induction

/-!
# What a service holds, and what it was asked

A session lives from the answer that it was created with until the answer that it was deleted
with, and the snapshots that were taken of it live as long.

* `Live`, `Taken`: which sessions live and which snapshots were taken, as the exchanges tell.
* `Consistent`: what a service holds agrees with the exchanges so far. `consistent_after`: so does
  what any service holds that began empty, if the ids that it was given are fresh.
-/

namespace Ls8.Service

namespace Exchange

/-- A session is created under an id. -/
def Begins (exchange : Exchange) (id : String) : Prop :=
  ∃ request state, exchange = ⟨.create request, .session state⟩ ∧ state.id = id

/-- A session is deleted. -/
def Ends (exchange : Exchange) (id : String) : Prop :=
  exchange.call = .delete id ∧ exchange.answer.status = 200

/-- A snapshot of a session is taken under an id. -/
def Takes (exchange : Exchange) (machineId id : String) : Prop :=
  ∃ info, exchange = ⟨.snapshot machineId, .captured info⟩ ∧ info.id = id

/-- An exchange in which no session begins or ends, and no snapshot is taken. -/
structure Quiet (exchange : Exchange) : Prop where
  begins : ∀ id, ¬exchange.Begins id
  ends : ∀ id, ¬exchange.Ends id
  takes : ∀ machineId id, ¬exchange.Takes machineId id

theorem quiet_of_call {call : Call} {answer : Answer} (hCreate : ∀ request, call ≠ .create request)
    (hDelete : ∀ id, call ≠ .delete id) (hSnapshot : ∀ id, call ≠ .snapshot id) :
    Quiet ⟨call, answer⟩ where
  begins := by
    rintro id ⟨request, state, h, -⟩
    exact hCreate request (congrArg Exchange.call h)
  ends := by
    rintro id ⟨h, -⟩
    exact hDelete id h
  takes := by
    rintro machineId id ⟨info, h, -⟩
    exact hSnapshot machineId (congrArg Exchange.call h)

theorem quiet_refused (call : Call) (problem : Problem) : Quiet ⟨call, .refused problem⟩ where
  begins := by
    rintro id ⟨request, state, h, -⟩
    cases congrArg Exchange.answer h
  ends := by
    rintro id ⟨-, h⟩
    exact status_refused_ne problem h
  takes := by
    rintro machineId id ⟨info, h, -⟩
    cases congrArg Exchange.answer h

end Exchange

/-- A session was created under an id and was not deleted since. -/
def Live (record : List Exchange) (id : String) : Prop :=
  ∃ before exchange since, record = before ++ exchange :: since ∧ exchange.Begins id ∧
    ∀ later ∈ since, ¬later.Ends id

/-- A session was created under an id. -/
def Begun (record : List Exchange) (id : String) : Prop :=
  ∃ exchange ∈ record, exchange.Begins id

/-- A snapshot of a session was taken under an id. -/
def Taken (record : List Exchange) (machineId id : String) : Prop :=
  ∃ exchange ∈ record, exchange.Takes machineId id

section

variable {record : List Exchange} {exchange : Exchange} {machineId id : String}

theorem not_live_nil : ¬Live [] id := by
  rintro ⟨before, exchange, since, h, -⟩
  exact List.append_ne_nil_of_right_ne_nil before (List.cons_ne_nil exchange since) h.symm

theorem live_snoc :
    Live (record ++ [exchange]) id ↔ exchange.Begins id ∨ Live record id ∧ ¬exchange.Ends id := by
  constructor
  · rintro ⟨before, first, since, hRecord, hBegins, hSince⟩
    rcases List.eq_nil_or_concat since with rfl | ⟨earlier, last, rfl⟩
    · obtain ⟨rfl, hLast⟩ := List.append_inj' hRecord rfl
      cases hLast
      exact Or.inl hBegins
    · have hSplit : record ++ [exchange] = (before ++ first :: earlier) ++ [last] := by
        simpa using hRecord
      obtain ⟨rfl, hLast⟩ := List.append_inj' hSplit rfl
      cases hLast
      refine Or.inr ⟨⟨before, first, earlier, rfl, hBegins, ?_⟩, ?_⟩
      · intro later hLater
        exact hSince later (by simp [hLater])
      · exact hSince exchange (by simp)
  · rintro (hBegins | ⟨⟨before, first, since, rfl, hBegins, hSince⟩, hEnds⟩)
    · exact ⟨record, exchange, [], rfl, hBegins, by simp⟩
    · refine ⟨before, first, since ++ [exchange], by simp, hBegins, ?_⟩
      intro later hLater
      rcases List.mem_append.mp hLater with hLater | hLater
      · exact hSince later hLater
      · rw [List.mem_singleton.mp hLater]
        exact hEnds

theorem begun_snoc : Begun (record ++ [exchange]) id ↔ Begun record id ∨ exchange.Begins id := by
  simp only [Begun, List.mem_append, List.mem_singleton, or_and_right, exists_or, exists_eq_left]

theorem taken_snoc : Taken (record ++ [exchange]) machineId id ↔
    Taken record machineId id ∨ exchange.Takes machineId id := by
  simp only [Taken, List.mem_append, List.mem_singleton, or_and_right, exists_or, exists_eq_left]

theorem Live.begun (h : Live record id) : Begun record id := by
  obtain ⟨before, exchange, since, rfl, hBegins, -⟩ := h
  exact ⟨exchange, by simp, hBegins⟩

end

/-! ## What a service holds -/

/-- What a service holds after some requests agrees with the exchanges that these came to. -/
structure Consistent (arrivals : List Arrival) (record : List Exchange) (held : Holdings) :
    Prop where
  sessions_distinct : held.sessions.Distinct
  snapshots_distinct : held.snapshots.Distinct
  live : ∀ id, id ∈ held.sessions.keys ↔ Live record id
  stored : ∀ {id snapshot}, held.snapshots.find? id = some snapshot →
    Live record snapshot.machineId ∧ Taken record snapshot.machineId id ∧
      ∃ createdAt machine, snapshot = .capture id snapshot.machineId createdAt machine
  kept : ∀ {machineId id}, Taken record machineId id → Live record machineId →
    ∃ snapshot, held.snapshots.find? id = some snapshot ∧ snapshot.machineId = machineId
  begun : ∀ {id}, Begun record id → id ∈ arrivals.filterMap Arrival.sessionId?
  taken : ∀ {machineId id}, Taken record machineId id →
    Begun record machineId ∧ id ∈ arrivals.filterMap Arrival.snapshotId?
  shown : held.shown = held.sessions.size

namespace Consistent

variable {arrivals : List Arrival} {arrival : Arrival} {record : List Exchange} {held : Holdings}

theorem empty (settings : Settings) : Consistent [] [] ⟨settings, {}, {}, 0⟩ where
  sessions_distinct := Registry.distinct_empty
  snapshots_distinct := Registry.distinct_empty
  live := by
    intro id
    exact ⟨nofun, fun h => (not_live_nil h).elim⟩
  stored := nofun
  kept := by
    rintro machineId id ⟨exchange, hMem, -⟩
    cases hMem
  begun := by
    rintro id ⟨exchange, hMem, -⟩
    cases hMem
  taken := by
    rintro machineId id ⟨exchange, hMem, -⟩
    cases hMem
  shown := rfl

theorem more (h : Consistent arrivals record held) (arrival : Arrival) :
    Consistent (arrivals ++ [arrival]) record held where
  __ := h
  begun hBegun := by
    rw [List.filterMap_append]
    exact List.mem_append_left _ (h.begun hBegun)
  taken hTaken := by
    obtain ⟨hBegun, hMem⟩ := h.taken hTaken
    rw [List.filterMap_append]
    exact ⟨hBegun, List.mem_append_left _ hMem⟩

/-- What an exchange does that begins and ends no session and takes no snapshot does not matter. -/
theorem quiet (h : Consistent arrivals record held) {exchange : Exchange} (hQuiet : exchange.Quiet)
    {sessions : Registry Session} (hKeys : sessions.keys = held.sessions.keys) :
    Consistent arrivals (record ++ [exchange]) { held with sessions } := by
  have hLive : ∀ id, Live (record ++ [exchange]) id ↔ Live record id := by
    intro id
    simp [live_snoc, hQuiet.begins, hQuiet.ends]
  have hTaken : ∀ machineId id,
      Taken (record ++ [exchange]) machineId id ↔ Taken record machineId id := by
    intro machineId id
    simp [taken_snoc, hQuiet.takes]
  have hBegun : ∀ id, Begun (record ++ [exchange]) id ↔ Begun record id := by
    intro id
    simp [begun_snoc, hQuiet.begins]
  have hSessions : sessions.Distinct := by
    rw [Registry.Distinct, hKeys]
    exact h.sessions_distinct
  constructor
  case sessions_distinct => exact hSessions
  case snapshots_distinct => exact h.snapshots_distinct
  case live =>
    intro id
    rw [hLive, hKeys]
    exact h.live id
  case stored =>
    intro id snapshot hFound
    rw [hLive, hTaken]
    exact h.stored hFound
  case kept =>
    intro machineId id
    rw [hTaken, hLive]
    exact h.kept
  case begun =>
    intro id
    rw [hBegun]
    exact h.begun
  case taken =>
    intro machineId id
    rw [hTaken, hBegun]
    exact h.taken
  case shown =>
    show held.shown = sessions.size
    rw [h.shown, Registry.size_eq_length_keys, Registry.size_eq_length_keys, hKeys]

theorem created (h : Consistent arrivals record held) (hFresh : Fresh (arrivals ++ [arrival]))
    {id : String} (hId : arrival.sessionId? = some id) (request : CreateRequest)
    (session : Session) :
    Consistent (arrivals ++ [arrival])
      (record ++ [⟨.create request, .session (.ofSession id session)⟩])
      { held with
        sessions := held.sessions.put id session
        shown := (held.sessions.put id session).size } := by
  have hBegins : ∀ other,
      Exchange.Begins ⟨.create request, .session (.ofSession id session)⟩ other ↔ other = id := by
    intro other
    constructor
    · rintro ⟨_, _, hSame, rfl⟩
      cases hSame
      rfl
    · rintro rfl
      exact ⟨_, _, rfl, rfl⟩
  have hEnds : ∀ other,
      ¬Exchange.Ends ⟨.create request, .session (.ofSession id session)⟩ other := by
    rintro other ⟨hCall, -⟩
    cases hCall
  have hTakes : ∀ machineId other,
      ¬Exchange.Takes ⟨.create request, .session (.ofSession id session)⟩ machineId other := by
    rintro machineId other ⟨info, hSame, -⟩
    cases hSame
  have hNew : ¬Begun record id := fun hBegun => hFresh.session_new hId (h.begun hBegun)
  have hMore := h.more arrival
  constructor
  case sessions_distinct => exact h.sessions_distinct.put id session
  case snapshots_distinct => exact h.snapshots_distinct
  case live =>
    intro other
    rw [Registry.mem_keys_put, live_snoc, hBegins, h.live]
    simp only [hEnds, not_false_eq_true, and_true]
  case stored =>
    intro other snapshot hFound
    obtain ⟨hLive, hTaken, hCaptured⟩ := h.stored hFound
    exact ⟨live_snoc.mpr (Or.inr ⟨hLive, hEnds _⟩), taken_snoc.mpr (Or.inl hTaken), hCaptured⟩
  case kept =>
    intro machineId other hTaken hLive
    have hBefore := (taken_snoc.mp hTaken).resolve_right (hTakes machineId other)
    rcases live_snoc.mp hLive with hHere | ⟨hLive, -⟩
    · rw [(hBegins machineId).mp hHere] at hBefore
      exact (hNew (h.taken hBefore).1).elim
    · exact h.kept hBefore hLive
  case begun =>
    intro other hBegun
    rcases begun_snoc.mp hBegun with hBegun | hHere
    · exact hMore.begun hBegun
    · rw [(hBegins other).mp hHere, List.filterMap_append, List.filterMap_cons_some hId]
      exact List.mem_append_right _ List.mem_cons_self
  case taken =>
    intro machineId other hTaken
    have hBefore := (taken_snoc.mp hTaken).resolve_right (hTakes machineId other)
    obtain ⟨hBegun, hMem⟩ := hMore.taken hBefore
    exact ⟨begun_snoc.mpr (Or.inl hBegun), hMem⟩
  case shown => rfl

theorem captured (h : Consistent arrivals record held) (hFresh : Fresh (arrivals ++ [arrival]))
    {machineId id : String} (hId : arrival.snapshotId? = some id)
    (hLive : Live record machineId) (createdAt : Timestamp) (machine : Machine) :
    Consistent (arrivals ++ [arrival])
      (record ++ [⟨.snapshot machineId,
        .captured (.ofSnapshot (.capture id machineId createdAt machine))⟩])
      { held with
        snapshots := held.snapshots.put id (.capture id machineId createdAt machine) } := by
  have hBegins : ∀ other, ¬Exchange.Begins ⟨.snapshot machineId,
      .captured (.ofSnapshot (.capture id machineId createdAt machine))⟩ other := by
    rintro other ⟨request, state, hSame, -⟩
    cases hSame
  have hEnds : ∀ other, ¬Exchange.Ends ⟨.snapshot machineId,
      .captured (.ofSnapshot (.capture id machineId createdAt machine))⟩ other := by
    rintro other ⟨hCall, -⟩
    cases hCall
  have hTakes : ∀ owner other, Exchange.Takes ⟨.snapshot machineId,
      .captured (.ofSnapshot (.capture id machineId createdAt machine))⟩ owner other ↔
      owner = machineId ∧ other = id := by
    intro owner other
    constructor
    · rintro ⟨_, hSame, rfl⟩
      cases hSame
      exact ⟨rfl, rfl⟩
    · rintro ⟨rfl, rfl⟩
      exact ⟨_, rfl, rfl⟩
  have hMore := h.more arrival
  have hStill : ∀ {other}, Live record other → Live (record ++ [_]) other :=
    fun hOther => live_snoc.mpr (Or.inr ⟨hOther, hEnds _⟩)
  constructor
  case sessions_distinct => exact h.sessions_distinct
  case snapshots_distinct => exact h.snapshots_distinct.put id _
  case live =>
    intro other
    rw [live_snoc, h.live]
    simp only [hBegins, hEnds, not_false_eq_true, and_true, false_or]
  case stored =>
    intro other snapshot hFound
    rw [Registry.find?_put] at hFound
    split at hFound
    · cases hFound
      subst other
      exact ⟨hStill hLive, taken_snoc.mpr (Or.inr ((hTakes _ _).mpr ⟨rfl, rfl⟩)),
        createdAt, machine, rfl⟩
    · obtain ⟨hOwner, hTaken, hCaptured⟩ := h.stored hFound
      exact ⟨hStill hOwner, taken_snoc.mpr (Or.inl hTaken), hCaptured⟩
  case kept =>
    intro owner other hTaken hOwner
    have hBefore : Live record owner := by
      rcases live_snoc.mp hOwner with hHere | ⟨hBefore, -⟩
      · exact (hBegins owner hHere).elim
      · exact hBefore
    rw [Registry.find?_put]
    rcases taken_snoc.mp hTaken with hEarlier | hHere
    · have hOther : other ≠ id := by
        rintro rfl
        exact hFresh.snapshot_new hId (h.taken hEarlier).2
      rw [if_neg hOther]
      exact h.kept hEarlier hBefore
    · obtain ⟨rfl, rfl⟩ := (hTakes owner other).mp hHere
      rw [if_pos rfl]
      exact ⟨_, rfl, rfl⟩
  case begun =>
    intro other hBegun
    exact hMore.begun ((begun_snoc.mp hBegun).resolve_right (hBegins other))
  case taken =>
    intro owner other hTaken
    rcases taken_snoc.mp hTaken with hTaken | hHere
    · obtain ⟨hBegun, hMem⟩ := hMore.taken hTaken
      exact ⟨begun_snoc.mpr (Or.inl hBegun), hMem⟩
    · obtain ⟨rfl, rfl⟩ := (hTakes owner other).mp hHere
      refine ⟨begun_snoc.mpr (Or.inl hLive.begun), ?_⟩
      rw [List.filterMap_append, List.filterMap_cons_some hId]
      exact List.mem_append_right _ List.mem_cons_self
  case shown => exact h.shown

theorem deleted (h : Consistent arrivals record held) (id : String) :
    Consistent arrivals (record ++ [⟨.delete id, .deleted id⟩])
      { held with
        sessions := held.sessions.erase id
        snapshots := held.snapshots.filter fun _ snapshot => snapshot.machineId != id
        shown := (held.sessions.erase id).size } := by
  have hBegins : ∀ other, ¬Exchange.Begins ⟨.delete id, .deleted id⟩ other := by
    rintro other ⟨request, state, hSame, -⟩
    cases hSame
  have hEnds : ∀ other, Exchange.Ends ⟨.delete id, .deleted id⟩ other ↔ other = id := by
    intro other
    constructor
    · rintro ⟨hCall, -⟩
      cases hCall
      rfl
    · rintro rfl
      exact ⟨rfl, rfl⟩
  have hTakes : ∀ machineId other,
      ¬Exchange.Takes ⟨.delete id, .deleted id⟩ machineId other := by
    rintro machineId other ⟨info, hSame, -⟩
    cases hSame
  have hLive : ∀ other, Live (record ++ [⟨.delete id, .deleted id⟩]) other ↔
      Live record other ∧ other ≠ id := by
    intro other
    simp only [live_snoc, hBegins, hEnds, false_or, ne_eq]
  have hTaken : ∀ machineId other, Taken (record ++ [⟨.delete id, .deleted id⟩]) machineId other ↔
      Taken record machineId other := by
    intro machineId other
    simp only [taken_snoc, hTakes, or_false]
  have hBegun : ∀ other, Begun (record ++ [⟨.delete id, .deleted id⟩]) other ↔
      Begun record other := by
    intro other
    simp only [begun_snoc, hBegins, or_false]
  constructor
  case sessions_distinct => exact h.sessions_distinct.filter _
  case snapshots_distinct => exact h.snapshots_distinct.filter _
  case live =>
    intro other
    rw [hLive, Registry.mem_keys_erase, h.live, and_comm]
  case stored =>
    intro other snapshot hFound
    rw [Registry.find?_filter h.snapshots_distinct, Option.filter_eq_some_iff] at hFound
    obtain ⟨hFound, hOther⟩ := hFound
    rw [hLive, hTaken]
    obtain ⟨hOwner, hRest⟩ := h.stored hFound
    exact ⟨⟨hOwner, by simpa using hOther⟩, hRest⟩
  case kept =>
    intro machineId other hBefore hOwner
    rw [hTaken] at hBefore
    obtain ⟨hOwner, hOther⟩ := (hLive machineId).mp hOwner
    obtain ⟨snapshot, hFound, rfl⟩ := h.kept hBefore hOwner
    refine ⟨snapshot, ?_, rfl⟩
    rw [Registry.find?_filter h.snapshots_distinct, hFound]
    exact Option.filter_some_pos (by simpa using hOther)
  case begun =>
    intro other
    rw [hBegun]
    exact h.begun
  case taken =>
    intro machineId other
    rw [hTaken, hBegun]
    exact h.taken
  case shown => rfl

theorem live_iff {service : Service} (h : Consistent arrivals record service.holdings)
    (id : String) :
    Live record id ↔ ∃ session, service.sessions.find? id = some session := by
  rw [← h.live, ← Registry.mem_keys_iff]
  rfl

/-- Whatever the next request is. -/
theorem next {service : Service} (h : Consistent arrivals record service.holdings)
    (hFresh : Fresh (arrivals ++ [arrival])) :
    Consistent (arrivals ++ [arrival]) (record ++ (service.exchange? arrival).toList)
      (service.next arrival).holdings := by
  cases hCall : callOf? arrival.request with
  | none =>
    rw [exchange?_of_none hCall, next_of_none hCall, Option.toList_none, List.append_nil]
    exact h.more arrival
  | some call =>
    have hEffect : Effect service arrival.supply call (service.perform arrival.supply call).2
      (service.next arrival).holdings := next_effect hCall
    rw [exchange?_of_call hCall, Option.toList_some]
    generalize (service.perform arrival.supply call).2 = answer,
      (service.next arrival).holdings = held at hEffect ⊢
    cases hEffect with
    | created made => exact h.created hFresh (Arrival.sessionId?_of_create hCall) _ _
    | executed asks found =>
      have hMem := Registry.mem_keys_iff.mpr ⟨_, found⟩
      refine (h.more arrival).quiet (Exchange.quiet_of_call ?_ ?_ ?_)
        (Registry.keys_put_of_mem hMem)
      all_goals
        rintro _ rfl
        cases asks
    | captured found =>
      have hLive := (h.live _).mp (Registry.mem_keys_iff.mpr ⟨_, found⟩)
      exact h.captured hFresh (Arrival.snapshotId?_of_snapshot hCall) hLive _ _
    | restored stored own found succeeds =>
      have hMem := Registry.mem_keys_iff.mpr ⟨_, found⟩
      refine (h.more arrival).quiet (Exchange.quiet_of_call ?_ ?_ ?_)
        (Registry.keys_put_of_mem hMem)
      all_goals
        intro _ hSame
        cases hSame
    | deleted found => exact (h.more arrival).deleted _
    | kept quiet =>
      refine (h.more arrival).quiet ?_ rfl
      rcases quiet with hLooks | ⟨problem, rfl⟩
      · apply Exchange.quiet_of_call
        all_goals
          rintro _ rfl
          cases hLooks
      · exact Exchange.quiet_refused call problem

end Consistent

/-- **A service that began empty is consistent with its exchanges**, if it is given fresh ids. -/
theorem consistent_after (settings : Settings) {arrivals : List Arrival} (hFresh : Fresh arrivals) :
    Consistent arrivals (exchanges (start settings) arrivals)
      (after (start settings) arrivals).holdings := by
  induction arrivals using List.reverseRecOn with
  | nil => exact Consistent.empty settings
  | append_singleton arrivals arrival ih =>
    rw [exchanges_snoc, after_append]
    exact (ih (hFresh.sublist (List.sublist_append_left _ _))).next hFresh

end Ls8.Service
