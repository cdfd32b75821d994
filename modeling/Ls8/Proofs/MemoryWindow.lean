import Ls8.Proofs.Dispatch
import Ls8.Proofs.Loading
import Ls8.Proofs.Query
import Ls8.Proofs.RestorePoints

/-!
# Windows into memory

A request may ask for cells of a session's machine by the address of the first one and by how many
they are, each a number of 64 bits. The sum of the two need not be one.

* `MemoryWindow.span_of_inside`, `MemoryWindow.span_of_outside`: how many cells are looked at.
  `MemoryWindow.Cut`: the windows of which none is, although they ask for some.
* `MemoryWindow.Answered`: all the cells that were asked for, or a refusal which names the first
  address that is no cell's.
* `callOf?_look`: every window can be asked for. `bounded_of_call`: no request asks for a window
  beyond the numbers of 64 bits.
* `memory_window`: a window is answered that way if it is not cut, and the machine is as before.
-/

namespace Ls8

namespace Service

/-! ## The cells of a window -/

namespace MemoryWindow

/-- The number of cells that are asked for. -/
def count (window : MemoryWindow) : Nat := window.length.getD 1

/-- All the cells that are asked for are there. -/
def Inside (window : MemoryWindow) : Prop :=
  window.count = 0 ∨ window.address + window.count ≤ Memory.size

/-- Address and number are numbers of 64 bits. -/
def Bounded (window : MemoryWindow) : Prop :=
  window.address < 2 ^ 64 ∧ window.count < 2 ^ 64

instance (window : MemoryWindow) : Decidable window.Bounded :=
  inferInstanceAs (Decidable (window.address < 2 ^ 64 ∧ window.count < 2 ^ 64))

/-- The window asks for cells from the greatest number on. The end of a window is never past that
number, so that no cell of this one is looked at. -/
def Cut (window : MemoryWindow) : Prop := window.address = 2 ^ 64 - 1 ∧ window.count ≠ 0

instance (window : MemoryWindow) : Decidable window.Cut :=
  inferInstanceAs (Decidable (window.address = 2 ^ 64 - 1 ∧ window.count ≠ 0))

variable {window : MemoryWindow}

theorem span_eq (window : MemoryWindow) :
    window.span = min (window.address + window.count) (2 ^ 64 - 1) - window.address := rfl

theorem span_of_inside (h : window.Inside) : window.span = window.count := by
  have hEnd := span_eq window
  rcases h with hNone | hFits
  · omega
  · have hSize : Memory.size = 256 := rfl
    omega

theorem span_of_outside (hBound : window.Bounded) (hOutside : ¬window.Inside)
    (hWhole : ¬window.Cut) :
    0 < window.span ∧ Memory.size < window.address + window.span := by
  have hEnd := span_eq window
  have hAddress : window.address < 2 ^ 64 := hBound.1
  have hSize : Memory.size = 256 := rfl
  unfold Inside at hOutside
  unfold Cut at hWhole
  omega

theorem span_of_cut (h : window.Cut) : window.span = 0 := by
  have hEnd := span_eq window
  have hAddress := h.1
  omega

theorem not_inside_of_cut (h : window.Cut) : ¬window.Inside := by
  obtain ⟨hAddress, hSome⟩ := h
  unfold Inside
  have hSize : Memory.size = 256 := rfl
  omega

/-- The response that shows `data` in the cells of a window. -/
structure Shows (window : MemoryWindow) (data : List UInt8) (response : Http.Response) : Prop where
  status : response.status = 200
  body : response.body = .json (Answer.success
    (.object [("address", .natural window.address), ("data", .ofBytes data)]))

/-- The response to a window of a memory: the cells that are asked for, or a refusal if one of them
is not there. -/
inductive Answered (window : MemoryWindow) (memory : Memory) (response : Http.Response) : Prop where
  | shown {data : List UInt8} (inside : window.Inside) (shows : window.Shows data response)
      (length : data.length = window.count) (cells : memory.Holds window.address data)
  | refused (outside : ¬window.Inside) (status : response.status = 400)
      (body : response.body = .json (Answer.failure
        (Fault.addressOutOfRange (max window.address Memory.size)).message))

end MemoryWindow

/-! ## Requests for windows -/

/-- The query that asks for a window. -/
def MemoryWindow.query (window : MemoryWindow) : List Char :=
  match window.length with
  | none => "address".toList ++ '=' :: Nat.toDigits 10 window.address
  | some length => "address".toList ++ '=' :: Nat.toDigits 10 window.address ++
      '&' :: ("length".toList ++ '=' :: Nat.toDigits 10 length)

/-- The request for a window of a session's memory. -/
def MemoryWindow.look (window : MemoryWindow) (id : String) : Http.Request where
  method := "GET"
  path := "/machine/" ++ id ++ "/memory"
  query := some (String.ofList window.query)

theorem countOfText?_repr {n : Nat} (h : n < 2 ^ 64) : countOfText? n.repr = some n := by
  rw [countOfText?, Nat.toList_repr]
  exact Text.unsigned?_toDigits h

theorem fields_query (window : MemoryWindow) :
    Http.Query.fields (String.ofList window.query) =
      (some "address", some window.address.repr) ::
        (window.length.map fun length => (some "length", some length.repr)).toList := by
  have hName : Http.Query.IsPlain "address".toList := by decide
  have hName' : Http.Query.IsPlain "length".toList := by decide
  have hAddress := Http.Query.isPlain_toDigits window.address
  unfold MemoryWindow.query
  cases window.length with
  | none =>
    rw [Http.Query.fields_pair hName hAddress, String.ofList_toList, Nat.repr_eq_ofList_toDigits]
    rfl
  | some length =>
    have hLength := Http.Query.isPlain_toDigits length
    simp only [Http.Query.fields_cons hName hAddress, Http.Query.fields_pair hName' hLength,
      String.ofList_toList, Nat.repr_eq_ofList_toDigits]
    rfl

theorem ofQuery?_query {window : MemoryWindow} (h : window.Bounded) :
    MemoryWindow.ofQuery? (String.ofList window.query) = some window := by
  have hFields := fields_query window
  obtain ⟨address, length⟩ := window
  have hAddress : countOfText? address.repr = some address := countOfText?_repr h.1
  rw [MemoryWindow.ofQuery?, hFields]
  cases length with
  | none => simp [Http.Query.field?, hAddress]
  | some length =>
    have hLength : countOfText? length.repr = some length := countOfText?_repr h.2
    simp [Http.Query.field?, hAddress, hLength]

/-- An id that can stand in a path. -/
def IsSegment (id : String) : Prop := id ≠ "" ∧ '/' ∉ id.toList

instance (id : String) : Decidable (IsSegment id) :=
  inferInstanceAs (Decidable (id ≠ "" ∧ '/' ∉ id.toList))

theorem segments_look (window : MemoryWindow) {id : String} (h : IsSegment id) :
    (window.look id).segments = ["machine", id, "memory"] := by
  have hPath : (window.look id).path.toList =
      '/' :: ("machine".toList ++ '/' :: (id.toList ++ '/' :: "memory".toList)) := by
    simp [MemoryWindow.look]
  have hLast : Http.Request.piecesFrom [] "memory".toList = ["memory"] := by decide
  rw [Http.Request.segments, hPath]
  simp only [Http.Request.piecesFrom_append (by decide : '/' ∉ "machine".toList),
    Http.Request.piecesFrom_append h.2, hLast]
  simp [Http.Request.dropTrailingEmpty]

theorem callOf?_look {window : MemoryWindow} (hBound : window.Bounded) {id : String}
    (hId : IsSegment id) : callOf? (window.look id) = some (.readMemory id window) := by
  have hRead : Route.readQuery (window.look id) MemoryWindow.ofQuery? = .ok window := by
    have hQuery : (window.look id).query.getD "" = String.ofList window.query := rfl
    rw [Route.readQuery, hQuery, ofQuery?_query hBound]
  have hSegments := segments_look window hId
  have hBind : Route.readMemory.bind? (window.look id) = some id := by
    simp [Route.bind?, hSegments, Route.pattern, Route.bindSegments?, hId.1]
  have hAccept : Route.readMemory.accept (window.look id) = .ok (.readMemory id window) := by
    rw [Route.accept, hBind]
    simp only [Route.call, hRead]
    rfl
  exact callOf?_of_accept hAccept

theorem countOfText?_lt {text : String} {n : Nat} (h : countOfText? text = some n) : n < 2 ^ 64 :=
  Text.unsigned?_lt h

theorem bounded_of_ofQuery? {query : String} {window : MemoryWindow}
    (h : MemoryWindow.ofQuery? query = some window) : window.Bounded := by
  unfold MemoryWindow.ofQuery? at h
  obtain ⟨_, -, h⟩ := Option.bind_eq_some_iff.mp h
  obtain ⟨_, -, h⟩ := Option.bind_eq_some_iff.mp h
  obtain ⟨address, hAddress, h⟩ := Option.bind_eq_some_iff.mp h
  obtain ⟨given, -, h⟩ := Option.bind_eq_some_iff.mp h
  have hBound : address < 2 ^ 64 := countOfText?_lt hAddress
  cases given with
  | none =>
    cases h
    exact ⟨hBound, Nat.one_lt_two_pow (by decide)⟩
  | some text =>
    obtain ⟨length, hLength, h⟩ := Option.bind_eq_some_iff.mp h
    obtain ⟨number, hNumber, rfl⟩ := Option.map_eq_some_iff.mp hLength
    cases h
    exact ⟨hBound, countOfText?_lt hNumber⟩

/-- Nothing that is asked for is beyond the numbers of 64 bits. -/
theorem bounded_of_call {request : Http.Request} {id : String} {window : MemoryWindow}
    (h : callOf? request = some (.readMemory id window)) : window.Bounded := by
  obtain ⟨route, -, bound, -, hCall⟩ := route_of_call h
  cases route with
  | readMemory =>
    obtain ⟨read, hRead, hSame⟩ := exists_of_map_ok hCall
    cases hSame
    unfold Route.readQuery at hRead
    split at hRead
    · next hQuery =>
      cases hRead
      exact bounded_of_ofQuery? hQuery
    · cases hRead
  | run | create | execute | restore =>
    obtain ⟨_, -, hSame⟩ := exists_of_map_ok hCall
    cases hSame
  | _ => cases hCall

/-! ## What windows are answered with -/

section

variable {service : Service} {id : String} {session : Session} {arrival : Arrival}
  {window : MemoryWindow}

theorem shows_of_ok (hFound : service.sessions.find? id = some session)
    (hCall : callOf? arrival.request = some (.readMemory id window)) {data : List UInt8}
    (hData : session.machine.memory.readRange window.address window.span = .ok data) :
    window.Shows data (service.reply arrival) := by
  have hAnswer : (service.readMemory id window).2 = .cells window.address data := by
    rw [readMemory, withSession_of_some hFound, hData]
  rw [reply_of_call hCall, perform, hAnswer]
  exact ⟨present_status _ _, present_body _ _⟩

theorem answered_of_not_cut (hFound : service.sessions.find? id = some session)
    (hCall : callOf? arrival.request = some (.readMemory id window)) (hWhole : ¬window.Cut) :
    window.Answered session.machine.memory (service.reply arrival) := by
  by_cases hInside : window.Inside
  · obtain ⟨data, hRead, hLength, hCells⟩ : ∃ data,
        session.machine.memory.readRange window.address window.span = .ok data ∧
          data.length = window.count ∧ session.machine.memory.Holds window.address data := by
      rw [MemoryWindow.span_of_inside hInside]
      exact Memory.readRange_ok hInside
    exact .shown hInside (shows_of_ok hFound hCall hRead) hLength hCells
  · obtain ⟨hSome, hPast⟩ := MemoryWindow.span_of_outside (bounded_of_call hCall) hInside hWhole
    have hAnswer : (service.readMemory id window).2 =
        .refused (.badWindow (.addressOutOfRange (max window.address Memory.size))) := by
      rw [readMemory, withSession_of_some hFound, Memory.readRange_error hSome hPast]
    rw [reply_of_call hCall, perform, hAnswer]
    exact .refused hInside (present_status _ _) (present_body _ _)

/-- A window that is cut is answered as one without cells. -/
theorem shows_of_cut (hFound : service.sessions.find? id = some session)
    (hCall : callOf? arrival.request = some (.readMemory id window)) (hCut : window.Cut) :
    window.Shows [] (service.reply arrival) := by
  apply shows_of_ok hFound hCall
  rw [MemoryWindow.span_of_cut hCut]
  rfl

theorem not_answered_of_cut (hCut : window.Cut) {memory : Memory} {response : Http.Response}
    (hShows : window.Shows [] response) : ¬window.Answered memory response := by
  intro hAnswered
  cases hAnswered with
  | shown inside => exact MemoryWindow.not_inside_of_cut hCut inside
  | refused outside status =>
    rw [hShows.status] at status
    cases status

/-- **Windows into memory.** Any window can be asked for. A session answers it with all of its
cells, or refuses it by the first address that is no cell's. This fails for one kind of window
only: one from the greatest number on is cut, and the answer is that it has no cells. The session
is the same afterwards, as is everything else that the service holds. -/
theorem memory_window (hFound : service.sessions.find? id = some session) :
    (∀ window : MemoryWindow, window.Bounded → IsSegment id →
      callOf? (window.look id) = some (.readMemory id window)) ∧
    ∀ (arrival : Arrival) (window : MemoryWindow),
      callOf? arrival.request = some (.readMemory id window) →
        (window.Answered session.machine.memory (service.reply arrival) ↔ ¬window.Cut) ∧
        (window.Cut → window.Shows [] (service.reply arrival)) ∧
        (service.next arrival).holdings = service.holdings := by
  refine ⟨fun window hBound hId => callOf?_look hBound hId, fun arrival window hCall => ?_⟩
  have hCut : window.Cut → window.Shows [] (service.reply arrival) := shows_of_cut hFound hCall
  refine ⟨⟨fun hAnswered hIsCut => ?_, answered_of_not_cut hFound hCall⟩, hCut, ?_⟩
  · exact not_answered_of_cut hIsCut (hCut hIsCut) hAnswered
  · rw [next_holdings hCall, perform, readMemory_service]

end

/-- A request for a window arrives. -/
def Arrival.looking (id : String) (window : MemoryWindow) : Arrival where
  supply := ⟨.epoch, "", "", ""⟩
  request := window.look id

/-- The last four cells, and one cell far beyond them. -/
theorem memory_window_flooding : ∃ session : Session,
    ((start {}).after [flooding]).sessions.find? "a" = some session ∧
      MemoryWindow.Answered ⟨252, some 4⟩ session.machine.memory
        (((start {}).after [flooding]).reply (.looking "a" ⟨252, some 4⟩)) ∧
      MemoryWindow.Answered ⟨2 ^ 64 - 2, none⟩ session.machine.memory
        (((start {}).after [flooding]).reply (.looking "a" ⟨2 ^ 64 - 2, none⟩)) := by
  obtain ⟨session, hFound⟩ := found_flooding
  obtain ⟨hLook, hReply⟩ := memory_window hFound
  have hId : IsSegment "a" := by decide
  have hLast := hReply (.looking "a" ⟨252, some 4⟩) _ (hLook _ (by decide) hId)
  have hFar := hReply (.looking "a" ⟨2 ^ 64 - 2, none⟩) _ (hLook _ (by decide) hId)
  exact ⟨session, hFound, hLast.1.mpr (by decide), hFar.1.mpr (by decide)⟩

/-- One cell is asked for. There is none so far up, but the answer is that of success, with no
cells in it. -/
theorem memory_window_cut : ∃ session : Session,
    ((start {}).after [flooding]).sessions.find? "a" = some session ∧
      callOf? (MemoryWindow.look ⟨2 ^ 64 - 1, none⟩ "a") =
        some (.readMemory "a" ⟨2 ^ 64 - 1, none⟩) ∧
      MemoryWindow.Shows ⟨2 ^ 64 - 1, none⟩ []
        (((start {}).after [flooding]).reply (.looking "a" ⟨2 ^ 64 - 1, none⟩)) ∧
      ¬MemoryWindow.Answered ⟨2 ^ 64 - 1, none⟩ session.machine.memory
        (((start {}).after [flooding]).reply (.looking "a" ⟨2 ^ 64 - 1, none⟩)) := by
  obtain ⟨session, hFound⟩ := found_flooding
  have hCut : MemoryWindow.Cut ⟨2 ^ 64 - 1, none⟩ := by decide
  have hCall : callOf? (MemoryWindow.look ⟨2 ^ 64 - 1, none⟩ "a") =
      some (.readMemory "a" ⟨2 ^ 64 - 1, none⟩) := callOf?_look (by decide) (by decide)
  have hShows : MemoryWindow.Shows ⟨2 ^ 64 - 1, none⟩ []
      (((start {}).after [flooding]).reply (.looking "a" ⟨2 ^ 64 - 1, none⟩)) :=
    shows_of_cut hFound hCall hCut
  exact ⟨session, hFound, hCall, hShows, not_answered_of_cut hCut hShows⟩

end Service

end Ls8
