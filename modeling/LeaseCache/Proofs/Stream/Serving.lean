import LeaseCache.Proofs.Stream.Sizes
import LeaseCache.Stream.Service

/-!
# Serving a stream is dispatching its requests

Whatever is sent on a new connection begins with a row of frames of requests, and
then comes something that no frame stands in front of: nothing at all, a frame
that is not complete, or one that cannot be read. The service does what
dispatching the requests of the row one after the other does, and the bytes that
it sends are the frames of these responses (`serves_of_reachable`). What comes
after the row has no effect, and nothing of the connection remains.
-/

set_option autoImplicit false

namespace LeaseCache

namespace Cache

variable {cache : Cache} {requests : List Request}

theorem Regular.leases_answerAll (regular : cache.Regular) (deliver : Delivery)
    (requests : List Request) : (answerAll deliver requests cache).1.leases = cache.leases := by
  induction requests generalizing cache with
  | nil => rfl
  | cons request rest ih =>
      exact (ih (regular.answer deliver request)).trans (regular.sound.leases_answer deliver request)

/-- All responses fit frames if the requests came in frames and the numbers of the statistics
are words all the way. -/
theorem Regular.fits_answerAll (regular : cache.Regular)
    (words : ∀ count < requests.length,
      (answerAll deliverInline (requests.take count) cache).1.stats.InWords)
    (framed : ∀ request ∈ requests, ∃ frame, Wire.Holds Wire.requests frame request) :
    ∀ response ∈ (answerAll deliverInline requests cache).2, response.Fits := by
  induction requests generalizing cache with
  | nil =>
      intro response none
      cases none
  | cons request rest ih =>
      intro response member
      rcases List.mem_cons.mp member with rfl | later
      · obtain ⟨frame, holds⟩ := framed request List.mem_cons_self
        obtain ⟨named, sized⟩ := Wire.sizes_of_holds holds
        exact regular.fits_answer (words 0 (Nat.zero_lt_succ _)) named sized
      · exact ih (regular.answer deliverInline request)
          (fun count early => words (count + 1) (Nat.succ_lt_succ early))
          (fun other inside => framed other (List.mem_cons_of_mem _ inside)) response later

end Cache

namespace Stream

variable {dispatcher : Dispatcher} {connection : Connection} {requests : List Request}

/-- Dispatches requests of a connection one after the other, and gives the responses in order. -/
def dispatchEach (connection : Connection) : List Request → Dispatcher → Dispatcher × List Response
  | [], dispatcher => (dispatcher, [])
  | request :: rest, dispatcher =>
      let first := dispatcher.dispatch deliverInline connection request
      let others := dispatchEach connection rest first.1
      (others.1, first.2 :: others.2)

/-- **The service answers requests by dispatching each of them.** -/
theorem serveRequests_eq_dispatchEach (connection : Connection) (requests : List Request)
    (dispatcher : Dispatcher) :
    serveRequests connection requests dispatcher = dispatchEach connection requests dispatcher := by
  induction requests generalizing dispatcher with
  | nil => rfl
  | cons request rest ih =>
      rw [serveRequests, dispatchEach, ← ih]

/-- Requests whose numbers are not in use are answered by the cache alone. -/
theorem dispatchEach_of_free
    (free : ∀ request ∈ requests, dispatcher.inFlight.find? ⟨connection.id, request.id⟩ = none) :
    dispatchEach connection requests dispatcher =
      ({ dispatcher with
          cache := (Cache.answerAll deliverInline requests dispatcher.cache).1 },
        (Cache.answerAll deliverInline requests dispatcher.cache).2) := by
  induction requests generalizing dispatcher with
  | nil => rfl
  | cons request rest ih =>
      have first := Dispatcher.dispatch_of_free (free request List.mem_cons_self) deliverInline
      have others : dispatchEach connection rest
          { dispatcher with cache := (dispatcher.cache.answer deliverInline request).1 } = _ :=
        ih fun other member => free other (List.mem_cons_of_mem _ member)
      rw [dispatchEach, first]
      dsimp only
      rw [others]
      rfl

/-! ## A whole connection -/

/-- Dispatches requests one after the other on a new connection. -/
def dispatchAll (dispatcher : Dispatcher) (requests : List Request) :
    Dispatcher × List Response :=
  let (opened, connection) := dispatcher.openConnection .tcp
  dispatchEach connection requests opened

/-- Whenever one of the requests is dispatched the numbers of the statistics are words of 64 bits.
Counters have no bound here; a machine that keeps them in words is in no other state. -/
def CountsInWords (dispatcher : Dispatcher) (requests : List Request) : Prop :=
  ∀ count < requests.length,
    (dispatchAll dispatcher (requests.take count)).1.cache.stats.InWords

instance : Decidable (CountsInWords dispatcher requests) :=
  inferInstanceAs (Decidable (∀ count < requests.length, _))

/-- What a connection does to a dispatcher and what it sends is what dispatching some requests
does and gives. -/
structure Serves (dispatcher : Dispatcher) (requests : List Request)
    (outcome : Dispatcher × List ByteArray) : Prop where
  /-- The bytes that are sent are read as the responses, and then they end. -/
  responses : Wire.readFrames Wire.responses (Wire.joined outcome.2) =
    ((dispatchAll dispatcher requests).2, none)
  /-- There is one response for each request, in order and under the same number. -/
  numbers : (dispatchAll dispatcher requests).2.map Response.id = requests.map Request.id
  /-- The state of the cache is the one after dispatching the requests. -/
  cache : outcome.1.cache = (dispatchAll dispatcher requests).1.cache
  /-- No get of the connection is being delivered. -/
  closed : ∀ slot : Slot, slot.connection = dispatcher.nextConnection →
    outcome.1.inFlight.find? slot = none
  /-- The gets of other connections go on. -/
  others : outcome.1.inFlight = dispatcher.inFlight
  /-- No lease has been added and none is missing. -/
  leases : outcome.1.cache.leases = dispatcher.cache.leases

/-- A connection that has nothing in flight leaves nothing behind. -/
theorem disconnect_of_free
    (free : ∀ id, dispatcher.inFlight.find? ⟨connection.id, id⟩ = none) :
    dispatcher.disconnect connection = (dispatcher, 0) := by
  have none : dispatcher.slotsOf connection = [] := by
    rw [Dispatcher.slotsOf, List.filter_eq_nil_iff]
    intro slot member mine
    have same : slot = ⟨connection.id, slot.request⟩ := by
      rw [← of_decide_eq_true mine]
    have absent := free slot.request
    rw [← same] at absent
    exact (Table.lookup_eq_none_iff slot _).mp absent member
  rw [Dispatcher.disconnect, none]
  rfl

/-- Every message of a row of frames came in one of them. -/
theorem exists_frame_of_mem {frames : List ByteArray}
    (hold : List.Forall₂ (Wire.Holds Wire.requests) frames requests) {request : Request}
    (member : request ∈ requests) : ∃ frame, Wire.Holds Wire.requests frame request := by
  induction hold with
  | nil => cases member
  | @cons frame first frames rest holds _ ih =>
      rcases List.mem_cons.mp member with rfl | later
      · exact ⟨frame, holds⟩
      · exact ih later

/-- The frames that are sent for responses that fit are the frames of the responses. -/
theorem written_of_fits {responses : List Response}
    (fits : ∀ response ∈ responses, response.Fits) :
    List.Forall₂ (fun response frame => Wire.writeFrame Wire.responses response = .ok frame)
      responses (responses.map responseFrame) := by
  rw [List.forall₂_map_right_iff, List.forall₂_same]
  intro response member
  obtain ⟨frame, written⟩ : ∃ frame, Wire.writeFrame Wire.responses response = .ok frame :=
    Wire.writeFrame_ok_iff.mpr (fits response member)
  rw [responseFrame, written]

/-- **A row of frames is served as its requests are dispatched**, whatever comes after it. -/
theorem serves_joined (regular : dispatcher.Regular) {frames : List ByteArray} {later : ByteArray}
    (hold : List.Forall₂ (Wire.Holds Wire.requests) frames requests)
    (unframed : Wire.Unframed Wire.requests later)
    (words : CountsInWords dispatcher requests) :
    Serves dispatcher requests (serveConnection dispatcher (Wire.joined frames ++ later)) := by
  let opened := (dispatcher.openConnection .tcp).1
  let connection := (dispatcher.openConnection .tcp).2
  have free : ∀ id, opened.inFlight.find? ⟨connection.id, id⟩ = none := regular.free
  have dispatched : ∀ requests, dispatchAll dispatcher requests =
      ({ opened with cache := (Cache.answerAll deliverInline requests dispatcher.cache).1 },
        (Cache.answerAll deliverInline requests dispatcher.cache).2) :=
    fun requests => dispatchEach_of_free fun request _ => free request.id
  have read : Wire.readFrames Wire.requests (Wire.joined frames ++ later) =
      (requests, (Wire.readFrames Wire.requests later).2) := by
    rw [Wire.readFrames_joined hold, Wire.readFrames_of_unframed unframed, List.append_nil]
  have served : serveConnection dispatcher (Wire.joined frames ++ later) =
      ((dispatchAll dispatcher requests).1,
        (dispatchAll dispatcher requests).2.map responseFrame) := by
    have whole : serveStream opened connection (Wire.joined frames ++ later) =
        ((dispatchAll dispatcher requests).1,
          (dispatchAll dispatcher requests).2.map responseFrame) := by
      rw [serveStream, read]
      dsimp only
      rw [serveRequests_eq_dispatchEach]
      rfl
    have left : (dispatchAll dispatcher requests).1.disconnect connection =
        ((dispatchAll dispatcher requests).1, 0) := by
      rw [dispatched]
      exact disconnect_of_free free
    show (((serveStream opened connection _).1.disconnect connection).1,
      (serveStream opened connection _).2) = _
    rw [whole, left]
  have fits : ∀ response ∈ (dispatchAll dispatcher requests).2, response.Fits := by
    rw [dispatched]
    refine regular.cache.fits_answerAll (fun count early => ?_) fun request member => ?_
    · have word := words count early
      rwa [dispatched] at word
    · exact exists_frame_of_mem hold member
  rw [served]
  refine ⟨Wire.faithful_responses.readFrames_joined (written_of_fits fits), ?_, rfl, ?_, ?_, ?_⟩
  · rw [dispatched]
    exact Cache.id_answerAll _ _ _
  · rintro ⟨number, id⟩ rfl
    rw [dispatched]
    exact free id
  · rw [dispatched]
    rfl
  · rw [dispatched]
    exact regular.cache.leases_answerAll _ _

/-- **Serving a connection is dispatching the requests** in front of the first bytes that are no
frame of a request, in every state of the dispatcher and for every stream. -/
theorem serves_of_reachable (reachable : dispatcher.Reachable) (stream : ByteArray)
    (words : CountsInWords dispatcher (Wire.readFrames Wire.requests stream).1) :
    ∃ frames requests rest, stream = Wire.joined frames ++ rest ∧
      List.Forall₂ (Wire.Holds Wire.requests) frames requests ∧
      Wire.Unframed Wire.requests rest ∧
      ∀ later, Wire.Unframed Wire.requests later →
        Serves dispatcher requests (serveConnection dispatcher (Wire.joined frames ++ later)) := by
  obtain ⟨frames, rest, whole, hold, unframed⟩ := Wire.exists_framing Wire.requests stream
  exact ⟨frames, _, rest, whole, hold, unframed, fun later bad =>
    serves_joined reachable.regular hold bad words⟩

/-! ## A short stream -/

/-- A request to store three bytes and one to get them. -/
def storeAndGet : List Request :=
  [⟨1, .put, Cache.smallKey, some ⟨#[1, 2, 3]⟩, none⟩, ⟨2, .get, Cache.smallKey, none, none⟩]

/-- The frames of these requests. -/
def storeAndGetFrames : List ByteArray :=
  [⟨#[0, 0, 0, 34, 1, 0, 0, 0, 0, 0, 0, 0, 1, 0, 0, 0, 1, 0, 0, 0, 0, 0, 0, 0, 97,
      1, 3, 0, 0, 0, 0, 0, 0, 0, 1, 2, 3, 0]⟩,
    ⟨#[0, 0, 0, 23, 2, 0, 0, 0, 0, 0, 0, 0, 0, 0, 0, 0, 1, 0, 0, 0, 0, 0, 0, 0, 97, 0, 0]⟩]

/-- The frames and then the beginning of a third one. -/
def cutStream : ByteArray := Wire.joined storeAndGetFrames ++ ⟨#[0, 0, 0, 23, 3]⟩

theorem readFrames_cutStream : (Wire.readFrames Wire.requests cutStream).1 = storeAndGet := by
  have hold : List.Forall₂ (Wire.Holds Wire.requests) storeAndGetFrames storeAndGet :=
    .cons (Wire.faithful_requests.holds (by decide +kernel))
      (.cons (Wire.faithful_requests.holds (by decide +kernel)) .nil)
  have cut : (Wire.readFrames Wire.requests ⟨#[0, 0, 0, 23, 3]⟩).1 = [] := by
    rw [Wire.readFrames]
    rfl
  rw [cutStream, Wire.readFrames_joined hold, cut, List.append_nil]

theorem serves_cutStream :
    (Dispatcher.create .small).Reachable ∧ CountsInWords (.create .small) storeAndGet ∧
      ∃ frames requests rest, cutStream = Wire.joined frames ++ rest ∧
        List.Forall₂ (Wire.Holds Wire.requests) frames requests ∧
        Wire.Unframed Wire.requests rest ∧
        ∀ later, Wire.Unframed Wire.requests later →
          Serves (.create .small) requests
            (serveConnection (.create .small) (Wire.joined frames ++ later)) := by
  have reachable : (Dispatcher.create .small).Reachable := .created (.created Cache.create_small)
  have words : CountsInWords (.create .small) storeAndGet := by decide +kernel
  exact ⟨reachable, words,
    serves_of_reachable reachable cutStream (readFrames_cutStream ▸ words)⟩

end Stream

end LeaseCache
