import LeaseCache.Proofs.Cache.HonestUse
import LeaseCache.Proofs.Cache.Opening
import LeaseCache.Proofs.Dispatch.Bounds
import LeaseCache.Proofs.Stream.Figures
import LeaseCache.Proofs.Stream.Serving

/-!
# Whatever a cache can hold travels in frames

The longest value and the longest key that a cache takes fit into one frame together, and so
does every response of a dispatcher that puts values into its responses: the values, the
statistics, and all errors with their texts, in which there may be numbers and keys. So the
response that stands in for one that is too long is never sent (`carries_of_validate`).

A response is given in one of three ways. At once a dispatcher answers what its cache
answers, or that the number of a get is taken. After a delivery it answers with the value or
with an error of the delivery or of the release, and by then the cache may have become
anything (`fits_complete`).
-/

set_option autoImplicit false

namespace LeaseCache

/-! ## Texts with keys -/

theorem Key.length_displayByte_le (byte : UInt8) : (Key.displayByte byte).length ≤ 4 := by
  unfold Key.displayByte
  split
  · exact Nat.le_of_ble_eq_true rfl
  · exact Nat.le_refl 4

/-- A byte of a key is shown by four signs at most. -/
theorem Key.utf8ByteSize_display_le (key : Key) : key.display.utf8ByteSize ≤ 16 * key.length := by
  have signs : (key.bytes.flatMap displayByte).length ≤ key.bytes.length * 4 := by
    rw [List.length_flatMap]
    have each : ∀ count ∈ key.bytes.map fun byte => (displayByte byte).length, count ≤ 4 := by
      intro count listed
      obtain ⟨byte, -, rfl⟩ := List.mem_map.mp listed
      exact length_displayByte_le byte
    have total := List.sum_le_card_nsmul _ 4 each
    rwa [List.length_map] at total
  have size := utf8Len_le (key.bytes.flatMap displayByte)
  rw [display, String.utf8ByteSize_ofList, length]
  omega

namespace CacheError

/-- The text of an error leaves room for the rest of a response. -/
def Short (error : CacheError) : Prop := error.message.utf8ByteSize ≤ 16384

variable {error : CacheError} {lease offset length capacity : Nat} {owner key : Key}

theorem Brief.short (brief : error.Brief) : error.Short :=
  Nat.le_trans brief (by decide)

theorem short_leaseNotOutstanding (word : lease < wordBound) (short : key.length ≤ Key.maxLength) :
    (internal (.leaseNotOutstanding lease key)).Short := by
  show ("internal error: " ++ ("lease-" ++ toString lease ++ " for key=" ++ key.display ++
    " is not outstanding")).utf8ByteSize ≤ 16384
  have number := utf8ByteSize_toString_le word
  have name : key.display.utf8ByteSize ≤ 16 * Key.maxLength :=
    Nat.le_trans key.utf8ByteSize_display_le (Nat.mul_le_mul_left 16 short)
  calc _ ≤ 16 + (6 + 80 + 9 + 16 * Key.maxLength + 19) :=
        utf8ByteSize_append_le (by decide) (utf8ByteSize_append_le (utf8ByteSize_append_le
          (utf8ByteSize_append_le (utf8ByteSize_append_le (by decide) number) (by decide)) name)
          (by decide))
    _ ≤ 16384 := by decide

theorem short_leaseOfOtherKey (word : lease < wordBound) (short : key.length ≤ Key.maxLength)
    (other : owner.length ≤ Key.maxLength) :
    (internal (.leaseOfOtherKey lease owner key)).Short := by
  show ("internal error: " ++ ("lease-" ++ toString lease ++ " belongs to key=" ++ owner.display ++
    ", not key=" ++ key.display)).utf8ByteSize ≤ 16384
  have number := utf8ByteSize_toString_le word
  have name : ∀ {key : Key}, key.length ≤ Key.maxLength →
      key.display.utf8ByteSize ≤ 16 * Key.maxLength := fun {key} short =>
    Nat.le_trans key.utf8ByteSize_display_le (Nat.mul_le_mul_left 16 short)
  calc _ ≤ 16 + (6 + 80 + 16 + 16 * Key.maxLength + 10 + 16 * Key.maxLength) :=
        utf8ByteSize_append_le (by decide) (utf8ByteSize_append_le (utf8ByteSize_append_le
          (utf8ByteSize_append_le (utf8ByteSize_append_le (utf8ByteSize_append_le (by decide)
            number) (by decide)) (name other)) (by decide)) (name short))
    _ ≤ 16384 := by decide

theorem short_requestInFlight {request connection : Nat} (word : request < wordBound)
    (other : connection < wordBound) : (internal (.requestInFlight request connection)).Short := by
  show ("internal error: " ++ ("request_id=" ++ toString request ++ " already in flight on conn=" ++
    toString connection)).utf8ByteSize ≤ 16384
  have number := utf8ByteSize_toString_le word
  have second := utf8ByteSize_toString_le other
  calc _ ≤ 16 + (11 + 80 + 27 + 80) :=
        utf8ByteSize_append_le (by decide) (utf8ByteSize_append_le (utf8ByteSize_append_le
          (utf8ByteSize_append_le (by decide) number) (by decide)) second)
    _ ≤ 16384 := by decide

theorem short_outside (start : offset < wordBound) (long : length < wordBound)
    (room : capacity < wordBound) :
    (internal (.arena (.outside offset length capacity))).Short := by
  show ("internal error: " ++ ("region " ++ toString offset ++ "+" ++ toString length ++
    " outside arena of " ++ toString capacity ++ " bytes")).utf8ByteSize ≤ 16384
  have first := utf8ByteSize_toString_le start
  have second := utf8ByteSize_toString_le long
  have third := utf8ByteSize_toString_le room
  calc _ ≤ 16 + (7 + 80 + 1 + 80 + 18 + 80 + 6) :=
        utf8ByteSize_append_le (by decide) (utf8ByteSize_append_le (utf8ByteSize_append_le
          (utf8ByteSize_append_le (utf8ByteSize_append_le (utf8ByteSize_append_le
            (utf8ByteSize_append_le (by decide) first) (by decide)) second) (by decide)) third)
          (by decide))
    _ ≤ 16384 := by decide

end CacheError

theorem Response.fits_failure_of_short {id : UInt64} {error : CacheError} (short : error.Short) :
    (failure id error).Fits := by
  have headroom : 28 + (maxValueLength + 9) + 16384 ≤ maxFrameLength := by decide
  have message : error.message.utf8ByteSize ≤ 16384 := short
  have payload : (Wire.encodeOption Wire.encodeString none).size ≤ maxValueLength + 9 := by decide
  rw [Fits, size_encodeResponse]
  show 28 + (Wire.encodeOption Wire.encodeString none).size + error.message.utf8ByteSize ≤ _
  omega

/-! ## Answers at once -/

namespace Dispatcher

variable {dispatcher begun next middle later : Dispatcher} {connection : Connection} {id : UInt64}
  {key : Key} {request : Request} {handle : Handle} {error : CacheError}

/-- A get does not begin because its key is not there or because its number is taken. -/
theorem error_of_beginGet (failed : (dispatcher.beginGet connection id key).2 = .error error) :
    error = .notFound ∨ error = .internal (.requestInFlight id.toNat connection.id) := by
  unfold beginGet at failed
  cases got : dispatcher.cache.get key with
  | mk leased result =>
      rw [got] at failed
      cases result with
      | error missed =>
          obtain rfl := Except.error.inj failed
          exact .inl (Cache.notFound_of_get_error got)
      | ok handle =>
          dsimp only at failed
          split at failed
          · rw [(Cache.release_of_get got).1] at failed
            exact .inr (Except.error.inj failed).symm
          · cases failed

/-- The number of a request matters for a get only. -/
theorem dispatch_of_not_get (other : request.operation ≠ .get) (deliver : Delivery) :
    (dispatcher.dispatch deliver connection request).2 =
      (dispatcher.cache.answer deliver request).2 := by
  cases asks : request.operation with
  | get => exact absurd asks other
  | _ => rw [dispatch, start, Cache.answer, asks]

/-- A get whose number is taken is answered with an error. -/
theorem dispatch_of_taken (asks : request.operation = .get)
    (taken : dispatcher.inFlight.find? ⟨connection.id, request.id⟩ ≠ none) (deliver : Delivery) :
    ∃ error, (dispatcher.dispatch deliver connection request).2 =
        Response.failure request.id error ∧
      (error = .notFound ∨
        error = .internal (.requestInFlight request.id.toNat connection.id)) := by
  cases started : dispatcher.start connection request with
  | mk next progress =>
      cases progress with
      | delivering handle =>
          obtain ⟨-, -, free, -⟩ := of_beginGet_ok (of_start_delivering started).2
          exact absurd free taken
      | answered response =>
          obtain ⟨error, failed, rfl⟩ := of_start_answered asks started
          refine ⟨error, ?_, error_of_beginGet (congrArg Prod.snd failed)⟩
          rw [dispatch, started]

/-- **The response to a request fits a frame** if the request came in one. -/
theorem Reachable.fits_dispatch (reachable : dispatcher.Reachable)
    (counted : dispatcher.cache.Counted) (word : connection.id < wordBound)
    (named : request.key.length ≤ maxFrameLength)
    (sized : ∀ payload ∈ request.payload, payload.size ≤ maxFrameLength) :
    (dispatcher.dispatch deliverInline connection request).2.Fits := by
  have regular := reachable.regular.cache
  obtain ⟨history, booked⟩ := reachable.bounded.cache.booked
  have words := booked.inWords regular.sound counted
  have answers := regular.fits_answer words named sized
  by_cases asks : request.operation = .get
  · by_cases free : dispatcher.inFlight.find? ⟨connection.id, request.id⟩ = none
    · rwa [dispatch_of_free free]
    · obtain ⟨error, failed, rfl | rfl⟩ := dispatch_of_taken asks free deliverInline
      · rw [failed]
        exact Response.fits_failure CacheError.brief_notFound
      · rw [failed]
        exact Response.fits_failure_of_short
          (CacheError.short_requestInFlight request.id.toNat_lt word)
  · rwa [dispatch_of_not_get asks]

/-! ## Answers after a delivery -/

/-- A get that begins has leased a version of its key. -/
theorem Reachable.of_start (reachable : dispatcher.Reachable)
    (started : dispatcher.start connection request = (begun, .delivering handle)) :
    handle.key.length ≤ Key.maxLength ∧ handle.lease ≤ begun.cache.lastLease ∧
      handle.region.length ≤ maxValueLength ∧
      handle.region.stop ≤ begun.cache.config.arena.capacity := by
  have regular := reachable.regular.cache
  obtain ⟨leased, got, -, rfl⟩ := of_beginGet_ok (of_start_delivering started).2
  obtain ⟨name, number, last, -⟩ := Cache.of_get_ok got
  obtain ⟨version, found, -, place, -⟩ := Cache.found_of_get got
  have member := Cache.mem_stored_of_live found
  have owner : version.key = request.key := (regular.sound.accounted.live found).1
  have config : leased.config = dispatcher.cache.config := by
    have same := regular.sound.config_step (.get request.key)
    rwa [Cache.step, got] at same
  refine ⟨?_, Nat.le_of_eq (number.trans last.symm), ?_, ?_⟩
  · rw [name, ← owner]
    exact reachable.bounded.cache.keys version member
  · rw [place]
    exact Nat.le_trans (regular.sizes version member) regular.limit
  · rw [place, config, ← regular.sound.housed.capacity]
    exact regular.sound.housed.holds.inside (List.mem_map_of_mem member)

/-- A delivery inline gives bytes of the length of the region, or fails with a short error. -/
theorem deliverInline_cases {cache : Cache} (request : Request) (sound : cache.Sound)
    (counted : cache.Counted) (lease : handle.lease < wordBound)
    (named : handle.key.length ≤ Key.maxLength) (inside : handle.region.stop < wordBound) :
    (∃ bytes, deliverInline cache handle request = .ok (some bytes) ∧
        bytes.size = handle.region.length) ∨
      ∃ error, deliverInline cache handle request = .error error ∧ error.Short := by
  cases held : cache.leases.find? handle.lease with
  | none =>
      refine .inr ⟨_, ?_, CacheError.short_leaseNotOutstanding lease named⟩
      rw [deliverInline, Cache.read_of_unheld held]
      rfl
  | some record =>
      rw [deliverInline, Cache.read_of_outstanding held]
      split
      · exact .inl ⟨_, rfl, Memory.size_read _ _ _⟩
      · have room : cache.arena.capacity < wordBound := sound.housed.capacity ▸ counted.capacity
        unfold Region.stop at inside
        exact .inr ⟨_, rfl, CacheError.short_outside (by omega) (by omega) room⟩

/-- Giving the lease of a get back fails with a short error if it fails. -/
theorem Reachable.short_of_finish (reachable : dispatcher.Reachable)
    (counted : dispatcher.cache.Counted)
    (failed : (dispatcher.finish connection id).2 = .error error) : error.Short := by
  have bounded := reachable.bounded
  unfold Dispatcher.finish at failed
  dsimp only at failed
  split at failed
  · obtain rfl := Except.error.inj failed
    exact CacheError.brief_notFound.short
  · next transfer found =>
      obtain ⟨short, issued⟩ := bounded.transfers _ transfer found
      rcases bounded.cache.sound.release_cases transfer.key transfer.lease with
        ⟨-, same⟩ | ⟨owner, version, held, -, same⟩ | ⟨version, -, done⟩
      · rw [same] at failed
        obtain rfl := Except.error.inj failed
        exact CacheError.brief_notFound.short
      · rw [same] at failed
        obtain rfl := Except.error.inj failed
        exact CacheError.short_leaseOfOtherKey (Nat.lt_of_le_of_lt issued counted.leases) short
          (bounded.cache.key_of_held held)
      · cases failed.symm.trans done

/-- The response after a delivery tells its error first and then that of giving the lease back. -/
theorem complete_snd (dispatcher : Dispatcher) (connection : Connection) (request : Request)
    (handle : Handle) (delivered : Delivered) :
    (dispatcher.complete connection request handle delivered).2 =
      Response.ofOutcome request.id (delivered.bind fun payload =>
        (dispatcher.finish connection request.id).2.map fun _ =>
          Response.delivered request.id handle.size payload) := by
  rw [complete]
  generalize dispatcher.finish connection request.id = finished
  obtain ⟨next, outcome⟩ := finished
  cases delivered with
  | error error => rfl
  | ok payload => cases outcome <;> cases payload <;> rfl

/-- **The response after a delivery fits a frame**, whatever has been done since the get began. -/
theorem Reachable.fits_complete (reachable : dispatcher.Reachable)
    (started : dispatcher.start connection request = (begun, .delivering handle))
    (counted : begun.cache.Counted) (during : middle.Reachable) (counts : middle.cache.Counted)
    (after : later.Reachable) (stillCounts : later.cache.Counted) :
    (later.complete connection request handle
      (deliverInline middle.cache handle request)).2.Fits := by
  obtain ⟨named, issued, long, inside⟩ := reachable.of_start started
  have delivers := deliverInline_cases request during.regular.cache.sound counts
    (Nat.lt_of_le_of_lt issued counted.leases) named (Nat.lt_of_le_of_lt inside counted.capacity)
  rw [complete_snd]
  rcases delivers with ⟨bytes, delivered, size⟩ | ⟨error, failed, short⟩
  · rw [delivered]
    cases finished : (later.finish connection request.id).2 with
    | ok _ => exact Response.fits_withPayload (size ▸ long)
    | error error =>
        exact Response.fits_failure_of_short (after.short_of_finish stillCounts finished)
  · rw [failed]
    exact Response.fits_failure_of_short short

end Dispatcher

namespace Stream

open Dispatcher (Reachable)

variable {config : CacheConfig} {response : Response}

/-! ## Both directions -/

/-- Whether a response is sent in a frame of its own, so that none has to stand in for it. -/
def SentWhole (response : Response) : Prop :=
  Wire.writeFrame Wire.responses response = .ok (responseFrame response)

theorem sentWhole_of_fits (fits : response.Fits) : SentWhole response := by
  obtain ⟨frame, written⟩ : ∃ frame, Wire.writeFrame Wire.responses response = .ok frame :=
    Wire.writeFrame_ok_iff.mpr fits
  rw [SentWhole, responseFrame, written]

/-- Whatever a cache under the given settings can hold is asked for and answered in frames. -/
structure Carries (config : CacheConfig) : Prop where
  /-- A `put` of everything that the settings allow has a frame. -/
  put : ∀ id key value, key.length ≤ Key.maxLength → value.size ≤ config.maxObjectSize →
    ∃ frame, Wire.writeFrame Wire.requests ⟨id, .put, key, some value, none⟩ = .ok frame
  /-- The response to everything that came in a frame has a frame. -/
  response : ∀ dispatcher : Dispatcher, dispatcher.Reachable →
    dispatcher.cache.config = config → dispatcher.cache.Counted →
    ∀ connection, connection.id < wordBound → ∀ stream request rest,
      Wire.readFrame Wire.requests stream = .ok (some (request, rest)) →
      SentWhole (dispatcher.dispatch deliverInline connection request).2
  /-- So does the response to a get between whose begin, delivery and end anything was done. -/
  completed : ∀ dispatcher begun middle later : Dispatcher, dispatcher.Reachable →
    dispatcher.cache.config = config → middle.Reachable → later.Reachable →
    begun.cache.Counted → middle.cache.Counted → later.cache.Counted →
    ∀ connection request handle,
      dispatcher.start connection request = (begun, .delivering handle) →
      SentWhole (later.complete connection request handle
        (deliverInline middle.cache handle request)).2

/-- **Under valid settings whatever a cache can hold travels in frames.** -/
theorem carries_of_validate (valid : config.validate = .ok ()) : Carries config where
  put id key value short sized := by
    obtain ⟨-, -, ⟨-, limit⟩, -, -⟩ := CacheConfig.validate_eq_ok_iff.mp valid
    refine Wire.writeFrame_ok_iff.mpr ?_
    show (Wire.encodeWord id ++ Wire.encodeNumber 4 (Wire.operationCode .put) ++
      Wire.encodeString key.bytes.toByteArray ++
        (Wire.encodeNumber 1 1 ++ Wire.encodeString value) ++ Wire.encodeNumber 1 0).size ≤ _
    have named : key.bytes.length ≤ Key.maxLength := short
    have headroom : 8 + 4 + (8 + Key.maxLength) + (1 + (8 + maxValueLength)) + 1 ≤
        maxFrameLength := by decide
    simp only [ByteArray.size_append, Wire.size_encodeWord, Wire.size_encodeNumber,
      Wire.size_encodeString, List.size_toByteArray]
    omega
  response dispatcher reachable _ counted connection word stream request rest read := by
    obtain ⟨frame, holds, -⟩ := Wire.readFrame_eq_some_iff.mp read
    obtain ⟨named, sized⟩ := Wire.sizes_of_holds holds
    exact sentWhole_of_fits (reachable.fits_dispatch counted word named sized)
  completed dispatcher begun middle later reachable _ during after counted counts stillCounts
      connection request handle started :=
    sentWhole_of_fits
      (reachable.fits_complete started counted during counts after stillCounts)

/-- A frame that asks for the statistics. -/
def statsFrame : ByteArray :=
  ⟨#[0, 0, 0, 22, 3, 0, 0, 0, 0, 0, 0, 0, 5, 0, 0, 0, 0, 0, 0, 0, 0, 0, 0, 0, 0, 0]⟩

/-- A value of three bytes can be asked to be stored. In a busy cache the statistics can be told,
and so can the error of a get that begins there, and whose lease is then gone. -/
theorem carries_of_validate_busy :
    (∃ frame, Wire.writeFrame Wire.requests
      ⟨1, .put, Cache.smallKey, some ⟨#[1, 2, 3]⟩, none⟩ = .ok frame) ∧
    SentWhole ((Dispatcher.create (Cache.small.run Cache.busy)).dispatch deliverInline ⟨.tcp, 1⟩
      ⟨3, .stats, ⟨[]⟩, none, none⟩).2 ∧
    SentWhole ((Dispatcher.create .small).complete ⟨.tcp, 1⟩ ⟨4, .get, ⟨[98]⟩, none, none⟩
      ⟨⟨[98]⟩, 4, ⟨12, 1⟩, 1⟩ (deliverInline .small ⟨⟨[98]⟩, 4, ⟨12, 1⟩, 1⟩
        ⟨4, .get, ⟨[98]⟩, none, none⟩)).2 := by
  have carries : Carries Cache.smallConfig := carries_of_validate rfl
  have busy : (Dispatcher.create (Cache.small.run Cache.busy)).Reachable :=
    .created Cache.reachable_busy
  have fresh : (Dispatcher.create .small).Reachable := .created (.created Cache.create_small)
  have holds : Wire.Holds Wire.requests statsFrame ⟨3, .stats, ⟨[]⟩, none, none⟩ :=
    Wire.faithful_requests.holds (by decide +kernel)
  have words : Cache.small.Counted := by constructor <;> decide
  refine ⟨carries.put 1 Cache.smallKey ⟨#[1, 2, 3]⟩ (by decide) (by decide), ?_, ?_⟩
  · exact carries.response _ busy rfl (by constructor <;> decide) ⟨.tcp, 1⟩ (by decide) statsFrame _
      .empty (Wire.readFrame_eq_some_iff.mpr ⟨statsFrame, holds, ByteArray.append_empty.symm⟩)
  · exact carries.completed _ _ _ _ busy rfl fresh fresh (by constructor <;> decide) words words
      ⟨.tcp, 1⟩ ⟨4, .get, ⟨[98]⟩, none, none⟩ ⟨⟨[98]⟩, 4, ⟨12, 1⟩, 1⟩ rfl

end Stream

end LeaseCache
