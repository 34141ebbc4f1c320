import LeaseCache.Proofs.Dispatch.Answering
import LeaseCache.Proofs.Dispatch.Reachable
import LeaseCache.Proofs.Wire.Canonical
import Mathlib.Algebra.Order.BigOperators.Group.List
import Mathlib.Data.String.Basic

/-!
# The lengths of responses

Every response that a cache gives to a request of a frame, with its value inline,
is short enough for a frame itself (`fits_answer`). A value is at most as long as
the settings allow, the text of an error is short because the numbers in it are,
and the text of the statistics is short as long as their numbers are words.
-/

set_option autoImplicit false

namespace LeaseCache

/-! ## Texts -/

/-- A character has four bytes at most. -/
theorem utf8Len_le (chars : List Char) : String.utf8Len chars ≤ 4 * chars.length := by
  induction chars with
  | nil => exact Nat.le_refl 0
  | cons char rest ih =>
      have one := char.utf8Size_le_four
      rw [String.utf8Len_cons, List.length_cons]
      omega

/-- A word is written with twenty digits at most. -/
theorem utf8ByteSize_toString_le {value : Nat} (word : value < wordBound) :
    (toString value).utf8ByteSize ≤ 80 := by
  have digits : (Nat.toDigits 10 value).length ≤ 20 :=
    (Nat.length_toDigits_le_iff (by decide) (by decide)).mpr (Nat.lt_trans word (by decide))
  have same : toString value = String.ofList (Nat.toDigits 10 value) := Nat.repr_eq_ofList_toDigits
  have bound := utf8Len_le (Nat.toDigits 10 value)
  rw [same, String.utf8ByteSize_ofList]
  omega

theorem utf8ByteSize_append_le {first second : String} {few more : Nat}
    (short : first.utf8ByteSize ≤ few) (brief : second.utf8ByteSize ≤ more) :
    (first ++ second).utf8ByteSize ≤ few + more := by
  rw [String.utf8ByteSize_append]
  exact Nat.add_le_add short brief

/-! ## Errors -/

namespace CacheError

/-- The text of an error is short. -/
def Brief (error : CacheError) : Prop := error.message.utf8ByteSize ≤ 1024

instance (error : CacheError) : Decidable error.Brief :=
  inferInstanceAs (Decidable (error.message.utf8ByteSize ≤ 1024))

variable {length limit needed : Nat}

theorem brief_keyLength (word : length < wordBound) : (invalidSize (.keyLength length)).Brief := by
  show ("invalid size: " ++ ("key of " ++ toString length ++ " bytes exceeds " ++
    toString Key.maxLength)).utf8ByteSize ≤ 1024
  have number := utf8ByteSize_toString_le word
  have bound : (toString Key.maxLength).utf8ByteSize ≤ 80 := utf8ByteSize_toString_le (by decide)
  calc _ ≤ 14 + (7 + 80 + 15 + 80) :=
        utf8ByteSize_append_le (by decide) (utf8ByteSize_append_le (utf8ByteSize_append_le
          (utf8ByteSize_append_le (by decide) number) (by decide)) bound)
    _ ≤ 1024 := by decide

theorem brief_payloadLength (word : length < wordBound) (other : limit < wordBound) :
    (invalidSize (.payloadLength length limit)).Brief := by
  show ("invalid size: " ++ ("payload of " ++ toString length ++
    " bytes exceeds max object size " ++ toString limit)).utf8ByteSize ≤ 1024
  have number := utf8ByteSize_toString_le word
  have bound := utf8ByteSize_toString_le other
  calc _ ≤ 14 + (11 + 80 + 31 + 80) :=
        utf8ByteSize_append_le (by decide) (utf8ByteSize_append_le (utf8ByteSize_append_le
          (utf8ByteSize_append_le (by decide) number) (by decide)) bound)
    _ ≤ 1024 := by decide

theorem brief_outOfSpace (word : needed < wordBound) : (outOfSpace needed).Brief := by
  show ("out of space: need " ++ toString needed ++ " bytes").utf8ByteSize ≤ 1024
  have number := utf8ByteSize_toString_le word
  calc _ ≤ 19 + 80 + 6 :=
        utf8ByteSize_append_le (utf8ByteSize_append_le (by decide) number) (by decide)
    _ ≤ 1024 := by decide

theorem brief_emptyPayload : (invalidSize .emptyPayload).Brief := by decide

theorem brief_missingPayload : (invalidSize .missingPayload).Brief := by decide

theorem brief_conflict : conflict.Brief := by decide

theorem brief_notFound : notFound.Brief := by decide

end CacheError

/-! ## Statistics -/

namespace Json

/-- The text of an object has for each member its name, its value and four signs. -/
theorem length_printMembers {members : List (List UInt8 × Json)} (nonempty : members ≠ []) :
    (printMembers members).length =
      (members.map fun member => member.1.length + 4 + member.2.print.length).sum := by
  induction members with
  | nil => exact absurd rfl nonempty
  | cons first rest ih =>
      obtain ⟨name, value⟩ := first
      cases rest with
      | nil =>
          simp only [printMembers, List.length_append, List.length_cons, List.length_nil,
            List.map_cons, List.map_nil, List.sum_cons, List.sum_nil]
          omega
      | cons second others =>
          have shorter := ih (List.cons_ne_nil second others)
          simp only [printMembers, List.length_append, List.length_cons, List.length_nil,
            List.map_cons, List.sum_cons] at shorter ⊢
          omega

theorem length_print_ofNat_le {value : Nat} (word : value < wordBound) :
    (ofNat value).print.length ≤ 80 := by
  have bound := utf8ByteSize_toString_le word
  rwa [← String.size_toByteArray] at bound

/-- An object is short if its members are. -/
theorem length_print_ofMembers_le {members : List (String × Json)} {bound : Nat}
    (nonempty : members ≠ [])
    (short : ∀ member ∈ members,
      (contentOfText member.1).length + 4 + member.2.print.length ≤ bound) :
    (ofMembers members).print.length ≤ 1 + members.length * bound := by
  let lengths := members.map fun member =>
    (contentOfText member.1).length + 4 + member.2.print.length
  have each : ∀ length ∈ lengths, length ≤ bound := by
    intro length listed
    obtain ⟨member, inside, rfl⟩ := List.mem_map.mp listed
    exact short member inside
  have sum : lengths.sum ≤ lengths.length * bound := List.sum_le_card_nsmul lengths bound each
  rw [List.length_map] at sum
  rw [ofMembers, print, List.length_cons,
    length_printMembers (List.map_eq_nil_iff.not.mpr nonempty), List.map_map, Nat.add_comm]
  exact Nat.add_le_add_left sum 1

/-- A number under a short name makes a short member. -/
theorem length_member_le {name : String} {value : Nat} (short : (contentOfText name).length ≤ 18)
    (word : value < wordBound) :
    (contentOfText name).length + 4 + (ofNat value).print.length ≤ 102 := by
  have number := length_print_ofNat_le word
  omega

end Json

/-- The numbers of the statistics of an arena. -/
def ArenaStats.numbers (stats : ArenaStats) : List Nat :=
  [stats.total, stats.used, stats.available, stats.largestFree, stats.freeRanges]

/-- The numbers of the statistics of a cache. -/
def CacheStats.numbers (stats : CacheStats) : List Nat :=
  [stats.entries, stats.storedBytes, stats.capacity, stats.pendingDeletes, stats.drainingEntries,
    stats.outstandingLeases, stats.hits, stats.misses, stats.puts, stats.evictions] ++
    stats.arena.elim [] ArenaStats.numbers

/-- All numbers of the statistics are words. -/
def CacheStats.InWords (stats : CacheStats) : Prop := ∀ number ∈ stats.numbers, number < wordBound

instance (stats : CacheStats) : Decidable stats.InWords :=
  inferInstanceAs (Decidable (∀ number ∈ stats.numbers, number < wordBound))

theorem ArenaStats.length_print_toJson_le {stats : ArenaStats}
    (words : ∀ number ∈ stats.numbers, number < wordBound) :
    stats.toJson.print.length ≤ 1 + 5 * 102 := by
  simp only [numbers, List.forall_mem_cons] at words
  obtain ⟨total, used, available, largestFree, freeRanges, -⟩ := words
  refine Json.length_print_ofMembers_le (List.cons_ne_nil _ _) ?_
  simp only [List.forall_mem_cons]
  exact ⟨Json.length_member_le (by decide) total, Json.length_member_le (by decide) used,
    Json.length_member_le (by decide) available, Json.length_member_le (by decide) largestFree,
    Json.length_member_le (by decide) freeRanges, fun member none => by cases none⟩

/-- **The text of statistics is short** if their numbers are words. -/
theorem CacheStats.size_toBytes_le {stats : CacheStats} (words : stats.InWords) :
    stats.toBytes.size ≤ 8192 := by
  have arena : (Json.ofOption ArenaStats.toJson stats.arena).print.length ≤ 1 + 5 * 102 := by
    cases present : stats.arena with
    | none => decide
    | some arena =>
        refine ArenaStats.length_print_toJson_le fun number member => words number ?_
        rw [numbers, present]
        exact List.mem_append_right _ member
  have member : ∀ {name : String} {value : Nat}, (Json.contentOfText name).length ≤ 18 →
      value ∈ stats.numbers →
      (Json.contentOfText name).length + 4 + (Json.ofNat value).print.length ≤ 600 :=
    fun short member => Nat.le_trans (Json.length_member_le short (words _ member)) (by decide)
  have whole : stats.toJson.print.length ≤ 1 + 11 * 600 := by
    refine Json.length_print_ofMembers_le (List.cons_ne_nil _ _) ?_
    simp only [List.forall_mem_cons]
    refine ⟨?_, ?_, ?_, ?_, ?_, ?_, ?_, ?_, ?_, ?_, ?_, fun member none => by cases none⟩
    on_goal 11 =>
      have name : (Json.contentOfText "arena").length ≤ 5 := by decide
      omega
    all_goals exact member (by decide) (by simp [numbers])
  rw [toBytes, List.size_toByteArray]
  exact Nat.le_trans whole (by decide)

/-! ## Responses -/

namespace Response

/-- A response has a frame. -/
def Fits (response : Response) : Prop := (Wire.encodeResponse response).size ≤ maxFrameLength

variable {id length : UInt64} {bytes : ByteArray} {error : CacheError}

theorem size_encodeResponse (response : Response) : (Wire.encodeResponse response).size =
    28 + (Wire.encodeOption Wire.encodeString response.payload).size +
      response.message.utf8ByteSize := by
  simp only [Wire.encodeResponse, ByteArray.size_append, Wire.size_encodeWord,
    Wire.size_encodeNumber, Wire.size_encodeString, String.toUTF8, String.size_toByteArray]
  omega

theorem fits_of_le {response : Response}
    (payload : (Wire.encodeOption Wire.encodeString response.payload).size ≤ maxValueLength + 9)
    (brief : response.message.utf8ByteSize ≤ 1024) : response.Fits := by
  have headroom : 28 + (maxValueLength + 9) + 1024 ≤ maxFrameLength := by decide
  rw [Fits, size_encodeResponse]
  omega

/-- Without a payload only the text counts. -/
theorem fits_of_none {response : Response} (none : response.payload = none)
    (brief : response.message.utf8ByteSize ≤ 1024) : response.Fits := by
  refine fits_of_le ?_ brief
  rw [none]
  decide

theorem fits_withLength : (withLength id length).Fits := by
  have empty : "".utf8ByteSize ≤ 1024 := by decide
  exact fits_of_none rfl empty

theorem fits_ok : (ok id).Fits := fits_withLength

theorem fits_withPayload (short : bytes.size ≤ maxValueLength) : (withPayload id bytes).Fits := by
  have empty : "".utf8ByteSize ≤ 1024 := by decide
  refine fits_of_le ?_ empty
  show (Wire.encodeNumber 1 1 ++ Wire.encodeString bytes).size ≤ maxValueLength + 9
  rw [ByteArray.size_append, Wire.size_encodeNumber, Wire.size_encodeString]
  omega

theorem fits_failure (brief : error.Brief) : (failure id error).Fits := fits_of_none rfl brief

/-- A response fits if its error is brief or its success fits. -/
theorem fits_ofOutcome_map {α : Type} {outcome : Except CacheError α} {respond : α → Response}
    (fits : ∀ value, outcome = .ok value → (respond value).Fits)
    (brief : ∀ error, outcome = .error error → error.Brief) :
    (ofOutcome id (outcome.map respond)).Fits := by
  cases outcome with
  | error error => exact fits_failure (brief error rfl)
  | ok value => exact fits value rfl

end Response

namespace Cache

variable {cache : Cache} {key : Key} {payload : ByteArray} {request : Request}

/-- A `put` fails with a brief error if the lengths of its key and its payload are words. -/
theorem Regular.brief_of_put_error (regular : cache.Regular) (named : key.length < wordBound)
    (sized : payload.size < wordBound) {error : CacheError}
    (failed : (cache.put key payload).2 = .error error) : error.Brief := by
  have limit : cache.config.maxObjectSize < wordBound :=
    Nat.lt_of_le_of_lt regular.limit (by decide)
  have outcome := put_outcome regular.sound.accounted regular.sound.housed key payload
  generalize cache.put key payload = result at outcome failed
  cases outcome with
  | refused fault =>
      obtain rfl := Except.error.inj failed
      unfold checkPut at fault
      split at fault
      · obtain rfl := Except.error.inj fault
        exact CacheError.brief_keyLength named
      split at fault
      · obtain rfl := Except.error.inj fault
        exact CacheError.brief_emptyPayload
      split at fault
      · obtain rfl := Except.error.inj fault
        exact CacheError.brief_payloadLength sized limit
      split at fault
      · obtain rfl := Except.error.inj fault
        exact CacheError.brief_conflict
      · cases fault
  | full _ _ =>
      obtain rfl := Except.error.inj failed
      exact CacheError.brief_outOfSpace sized
  | stored _ _ _ => cases failed

/-- A delete fails because its key is not there. -/
theorem notFound_of_delete_error {error : CacheError}
    (failed : (cache.delete key).2 = .error error) : error = .notFound := by
  unfold delete at failed
  split at failed
  · exact (Except.error.inj failed).symm
  · cases failed

/-- **A response with its value inline fits a frame**, if the request came in one and the numbers
of the statistics are words. -/
theorem Regular.fits_answer (regular : cache.Regular) (words : cache.stats.InWords)
    (named : request.key.length ≤ maxFrameLength)
    (sized : ∀ payload ∈ request.payload, payload.size ≤ maxFrameLength) :
    (cache.answer deliverInline request).2.Fits := by
  have word : ∀ {length : Nat}, length ≤ maxFrameLength → length < wordBound :=
    fun short => Nat.lt_of_le_of_lt short (by decide)
  rw [Cache.answer]
  cases request.operation with
  | get =>
      dsimp only
      split
      · next missed error failed =>
          obtain rfl := notFound_of_get_error failed
          exact Response.fits_failure CacheError.brief_notFound
      · next leased handle got =>
          obtain ⟨bytes, read, size, short⟩ := regular.read_of_get got
          rw [deliverInline, read]
          exact Response.fits_withPayload (size ▸ short)
  | put =>
      dsimp only
      refine Response.fits_ofOutcome_map (fun _ _ => Response.fits_ok) fun error failed => ?_
      rw [Dispatcher.storePayload] at failed
      cases given : request.payload with
      | none =>
          rw [given] at failed
          obtain rfl := Except.error.inj failed
          exact CacheError.brief_missingPayload
      | some payload =>
          rw [given] at failed
          exact regular.brief_of_put_error (word named) (word (sized payload given)) failed
  | delete =>
      dsimp only
      refine Response.fits_ofOutcome_map (fun _ _ => Response.fits_ok) fun error failed => ?_
      obtain rfl := notFound_of_delete_error failed
      exact CacheError.brief_notFound
  | «exists» =>
      dsimp only
      split
      · exact Response.fits_ok
      · exact Response.fits_failure CacheError.brief_notFound
  | size =>
      dsimp only
      refine Response.fits_ofOutcome_map (fun _ _ => Response.fits_withLength) fun error failed => ?_
      unfold objectSize at failed
      split at failed
      · cases failed
      · obtain rfl := Except.error.inj failed
        exact CacheError.brief_notFound
  | stats =>
      refine Response.fits_withPayload ?_
      exact Nat.le_trans (CacheStats.size_toBytes_le words) (by decide)
  | ping => exact Response.fits_ok

end Cache

end LeaseCache
