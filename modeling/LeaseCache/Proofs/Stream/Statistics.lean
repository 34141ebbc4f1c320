import LeaseCache.Proofs.Json.Fields
import LeaseCache.Proofs.Stream.Carrying
import LeaseCache.Proofs.Stream.Settling
import LeaseCache.Stream.Session

/-!
# Statistics on their way to a client

The statistics of a cache travel as a text. Whatever they are, as long as their numbers are
words, the text is read as the same statistics, with the arena or without it
(`CacheStats.ofBytes?_toBytes`). The response that carries the text fits a frame, the frame
is read as the response, and the response is given to the call that waits for it. So a
client gets the statistics that the cache had when its request was dispatched
(`Stream.statsTravel`).
-/

set_option autoImplicit false

namespace LeaseCache

/-! ## The text of statistics -/

theorem Json.toWord?_ofNat {value : Nat} (word : value < wordBound) :
    toWord? (ofNat value) = some value := by
  rw [toWord?, toNatBelow?_ofNat, if_pos word]

/-- A field that holds a whole number is read as the number. -/
theorem Json.Fields.required_of_found {fields : Fields} {name : String} {value : Nat}
    (found : fields.find? name = some (ofNat value)) (word : value < wordBound) :
    fields.required name toWord? = some value := by
  rw [required, found]
  exact toWord?_ofNat word

theorem ArenaStats.plain_toJson (stats : ArenaStats) : stats.toJson.Plain := by
  refine Json.plain_ofMembers ?_
  simp only [List.forall_mem_cons]
  exact ⟨.number _, .number _, .number _, .number _, .number _, fun member none => by cases none⟩

theorem CacheStats.plain_toJson (stats : CacheStats) : stats.toJson.Plain := by
  have arena : (Json.ofOption ArenaStats.toJson stats.arena).Plain := by
    cases stats.arena with
    | none => exact .null
    | some arena => exact arena.plain_toJson
  refine Json.plain_ofMembers ?_
  simp only [List.forall_mem_cons]
  exact ⟨.number _, .number _, .number _, .number _, .number _, .number _, .number _, .number _,
    .number _, .number _, arena, fun member none => by cases none⟩

theorem ArenaStats.ofJson?_toJson {stats : ArenaStats}
    (words : ∀ number ∈ stats.numbers, number < wordBound) :
    ArenaStats.ofJson? stats.toJson = some stats := by
  simp only [numbers, List.forall_mem_cons] at words
  obtain ⟨total, used, available, largestFree, freeRanges, -⟩ := words
  obtain ⟨fields, read, found⟩ := Json.fields?_of_eq_ofMembers
    ["total", "used", "available", "largest_free", "free_ranges"]
    (rfl : stats.toJson = _) (by simp) (by simp)
  rw [ofJson?, read, Option.bind_eq_bind, Option.bind_some,
    Json.Fields.required_of_found ((found "total").trans rfl) total,
    Json.Fields.required_of_found ((found "used").trans rfl) used,
    Json.Fields.required_of_found ((found "available").trans rfl) available,
    Json.Fields.required_of_found ((found "largest_free").trans rfl) largestFree,
    Json.Fields.required_of_found ((found "free_ranges").trans rfl) freeRanges]
  rfl

/-- What is written for an arena that may be missing is read back in the place of the arena. -/
theorem CacheStats.arenaOf?_of_found {stats : CacheStats} (words : stats.InWords)
    {members : List (List UInt8 × Json)} {fields : Json.Fields}
    (found : fields.find? "arena" = some (.ofOption ArenaStats.toJson stats.arena)) :
    arenaOf? (.object members) fields = some stats.arena := by
  show Json.Fields.withDefault fields "arena" (Json.toOption? ArenaStats.ofJson?) none = _
  rw [Json.Fields.withDefault, found]
  cases given : stats.arena with
  | none => rfl
  | some arena =>
      have inside : ∀ number ∈ arena.numbers, number < wordBound := by
        intro number member
        refine words number ?_
        rw [numbers, given]
        exact List.mem_append_right _ member
      show (ArenaStats.ofJson? arena.toJson).map some = _
      rw [ArenaStats.ofJson?_toJson inside]
      rfl

theorem CacheStats.ofJson?_toJson {stats : CacheStats} (words : stats.InWords) :
    ofJson? stats.toJson = some stats := by
  obtain ⟨fields, read, found⟩ := Json.fields?_of_eq_ofMembers fieldNames
    (rfl : stats.toJson = _) (by simp [fieldNames]) (by simp)
  have arena : arenaOf? stats.toJson fields = some stats.arena :=
    arenaOf?_of_found words ((found "arena").trans rfl)
  simp only [InWords, numbers, List.cons_append, List.forall_mem_cons] at words
  obtain ⟨entries, storedBytes, capacity, pendingDeletes, drainingEntries, outstandingLeases, hits,
    misses, puts, evictions, -⟩ := words
  rw [ofJson?, read, Option.bind_eq_bind, Option.bind_some,
    Json.Fields.required_of_found ((found "entries").trans rfl) entries,
    Json.Fields.required_of_found ((found "stored_bytes").trans rfl) storedBytes,
    Json.Fields.required_of_found ((found "capacity").trans rfl) capacity,
    Json.Fields.required_of_found ((found "pending_deletes").trans rfl) pendingDeletes,
    Json.Fields.required_of_found ((found "draining_entries").trans rfl) drainingEntries,
    Json.Fields.required_of_found ((found "outstanding_leases").trans rfl) outstandingLeases,
    Json.Fields.required_of_found ((found "hits").trans rfl) hits,
    Json.Fields.required_of_found ((found "misses").trans rfl) misses,
    Json.Fields.required_of_found ((found "puts").trans rfl) puts,
    Json.Fields.required_of_found ((found "evictions").trans rfl) evictions, arena]
  rfl

/-- **Statistics are read back from their text** if their numbers are words. -/
theorem CacheStats.ofBytes?_toBytes {stats : CacheStats} (words : stats.InWords) :
    ofBytes? stats.toBytes = some stats := by
  rw [ofBytes?, toBytes, Bytes.toList_toByteArray, stats.plain_toJson.parse?_print,
    Option.bind_eq_bind, Option.bind_some, ofJson?_toJson words]

/-! ## The way to a client -/

namespace Stream

variable {dispatcher : Dispatcher} {connection : Connection} {request : Request}
  {response : Response} {client : Client} {call : Nat} {frame : ByteArray}

/-- The statistics of a cache come back from everywhere as they were. -/
structure StatsTravel : Prop where
  /-- The text of any statistics in words is read as these statistics. -/
  parsed : ∀ stats : CacheStats, stats.InWords → CacheStats.ofBytes? stats.toBytes = some stats
  /-- A request for the statistics changes nothing. From the frame of the response the call that
  waits for it gets the statistics of the cache, whatever else the client does. -/
  told : ∀ dispatcher : Dispatcher, dispatcher.Reachable → dispatcher.cache.Counted →
    ∀ connection request, request.operation = .stats →
      ∃ response, dispatcher.dispatch deliverInline connection request = (dispatcher, response) ∧
        statsOf response = .ok dispatcher.cache.stats ∧
        ∀ (client : Client) call, client.waiting.find? request.id = some call →
          (client.receiveStream (responseFrame response)).results.find? call = some (.ok response)
  /-- A client that is connected gets the statistics that the cache has. -/
  fetched : ∀ session : Session, session.dispatcher.Reachable →
    session.dispatcher.cache.Counted → session.client.connected = true →
      session.stats.2 = .ok session.dispatcher.cache.stats ∧
        session.stats.1.dispatcher = session.dispatcher

/-- A response whose payload is the text of statistics gives these statistics. -/
theorem statsOf_withPayload {stats : CacheStats} (words : stats.InWords) (id : UInt64) :
    statsOf (Response.withPayload id stats.toBytes) = .ok stats := by
  simp only [statsOf, Response.withPayload, if_true, CacheStats.ofBytes?_toBytes words]

/-- A call that waits under the number of a response gets the response from its frame. -/
theorem received_of_fits (fits : response.Fits)
    (waits : client.waiting.find? response.id = some call) :
    (client.receiveStream (responseFrame response)).results.find? call = some (.ok response) := by
  rw [Client.receiveStream_frame (sentWhole_of_fits fits), Client.receive_eq_settle,
    Client.find?_results_settle, if_pos waits]

/-- **A request for the statistics is answered with their text**, and changes nothing. -/
theorem dispatch_stats (asks : request.operation = .stats) :
    dispatcher.dispatch deliverInline connection request =
      (dispatcher, Response.withPayload request.id dispatcher.cache.stats.toBytes) := by
  rw [Dispatcher.dispatch, Dispatcher.start, asks]
  rfl

/-- The frame of a request is served as the request is dispatched. -/
theorem serveStream_frame (written : Wire.writeFrame Wire.requests request = .ok frame) :
    serveStream dispatcher connection frame =
      ((dispatcher.dispatch deliverInline connection request).1,
        [responseFrame (dispatcher.dispatch deliverInline connection request).2]) := by
  have single := Wire.faithful_requests.readFrames_joined (.cons written .nil)
  rw [Wire.joined_singleton] at single
  rw [serveStream, single]
  rfl

/-- A connected client that makes a call whose request has a frame waits for the response. -/
theorem Client.issue_of_written (connected : client.connected = true)
    (written : Wire.writeFrame Wire.requests request = .ok frame) :
    ∃ waiting, client.issue request = (waiting, client.calls, some frame) ∧
      waiting.waiting.find? request.id = some client.calls := by
  rcases client.issue_cases request with
    ⟨-, sent, also, issued⟩ | ⟨error, ⟨ended, -⟩ | ⟨fault, failed, -⟩, -⟩
  · obtain rfl := Except.ok.inj (written.symm.trans also)
    exact ⟨_, issued, Table.find?_insert_self _ _ _⟩
  · exact absurd ended (Bool.not_eq_false _ ▸ connected)
  · cases written.symm.trans failed

/-- **A call is answered with what dispatching its request gives**, if the client is connected and
there is a frame for each direction. -/
theorem Session.call_of_fits {session : Session} (connected : session.client.connected = true)
    (written : Wire.writeFrame Wire.requests request = .ok frame)
    (dispatched : session.dispatcher.dispatch deliverInline session.connection request =
      (dispatcher, response))
    (under : response.id = request.id) (fits : response.Fits) :
    (session.call request).2 = .ok response ∧
      (session.call request).1.dispatcher = dispatcher := by
  obtain ⟨waiting, issued, waits⟩ := Client.issue_of_written connected written
  have received := received_of_fits fits (under ▸ waits)
  have served : serveStream session.dispatcher session.connection frame = _ :=
    serveStream_frame written
  rw [dispatched] at served
  simp only [Session.call, issued, Option.getD_some, served, List.foldl_cons, List.foldl_nil,
    received, and_self]

/-- In a state of a dispatcher whose counters are words the text of the statistics fits a frame and
is read as the statistics. -/
theorem carried_of_reachable (reachable : dispatcher.Reachable)
    (counted : dispatcher.cache.Counted) (id : UInt64) :
    (Response.withPayload id dispatcher.cache.stats.toBytes).Fits ∧
      statsOf (Response.withPayload id dispatcher.cache.stats.toBytes) =
        .ok dispatcher.cache.stats := by
  obtain ⟨history, booked⟩ := reachable.bounded.cache.booked
  have words := booked.inWords reachable.bounded.cache.sound counted
  have short := Nat.le_trans (CacheStats.size_toBytes_le words) (by decide : 8192 ≤ maxValueLength)
  exact ⟨Response.fits_withPayload short, statsOf_withPayload words id⟩

/-- **The statistics of a cache come back from everywhere as they were.** -/
theorem statsTravel : StatsTravel where
  parsed _ words := CacheStats.ofBytes?_toBytes words
  told dispatcher reachable counted connection request asks := by
    obtain ⟨fits, reads⟩ := carried_of_reachable reachable counted request.id
    exact ⟨_, dispatch_stats asks, reads, fun client call waits => received_of_fits fits waits⟩
  fetched session reachable counted connected := by
    let request : Request := ⟨session.client.takeId.1, .stats, ⟨[]⟩, none, none⟩
    obtain ⟨fits, reads⟩ := carried_of_reachable reachable counted request.id
    have small : (Wire.encodeRequest request).size = 22 := by
      simp only [Wire.encodeRequest, request, ByteArray.size_append, Wire.size_encodeWord,
        Wire.size_encodeNumber, Wire.size_encodeString, List.size_toByteArray]
      rfl
    obtain ⟨frame, written⟩ : ∃ frame, Wire.writeFrame Wire.requests request = .ok frame :=
      Wire.writeFrame_ok_iff.mpr (small ▸ by decide)
    obtain ⟨answered, kept⟩ :
        (Session.call { session with client := session.client.takeId.2 } request).2 = .ok _ ∧ _ :=
      Session.call_of_fits connected written (dispatch_stats rfl) rfl fits
    simp only [Session.stats, Session.send]
    rw [answered, kept]
    exact ⟨reads, rfl⟩

/-- Statistics in which every number is the largest word there is. -/
def fullStats : CacheStats :=
  let largest := wordBound - 1
  ⟨largest, largest, largest, largest, largest, largest, largest, largest, largest, largest,
    some ⟨largest, largest, largest, largest, largest⟩⟩

/-- The largest numbers are read from the text, and a client of a busy cache is told of a deletion
that waits for the leases of its version. -/
theorem statsTravel_busy :
    CacheStats.ofBytes? fullStats.toBytes = some fullStats ∧
    (Cache.small.run Cache.busy).stats.pendingDeletes = 1 ∧
    (Session.start (.create (Cache.small.run Cache.busy))).stats.2 =
      .ok (Cache.small.run Cache.busy).stats := by
  have reachable : (Dispatcher.create (Cache.small.run Cache.busy)).Reachable :=
    .created Cache.reachable_busy
  have told := statsTravel.fetched (Session.start (.create (Cache.small.run Cache.busy)))
    (reachable.openConnection .tcp) (by constructor <;> decide) rfl
  exact ⟨statsTravel.parsed fullStats (by decide), by decide, told.1⟩

end Stream

end LeaseCache
