import LeaseCache.Proofs.Wire.Canonical

/-!
# What a body is read as

The body of a frame is any byte string that is not too long. It is read as a message
exactly if the record of the message stands at its front; what stands behind is not
looked at. So a body is read as one message at most, and one that begins with no record
is refused. Of the bodies that are nothing but a record no two are read as one message.

All of it holds of a format whose decoder reads back what is written and takes nothing
else (`Exact.of_canonical`), and so of requests and of responses (`exact_bodies`).
-/

set_option autoImplicit false

namespace LeaseCache.Wire

variable {α : Type} {format : Format α} {message : α} {body leftover : ByteArray}

/-- Whether a body begins with the record of a message. -/
def Begins (format : Format α) (body : ByteArray) (message : α) : Prop :=
  ∃ leftover, body = format.encode message ++ leftover

/-- A format accepts exactly the bodies that begin with a record. -/
structure Exact (format : Format α) : Prop where
  /-- Every byte string that is not too long is the body of a frame. -/
  framed : ∀ body, body.size ≤ maxFrameLength → ∃ frame, frameBody body = .ok frame
  /-- The decoder takes off the record of the message and leaves what stands behind. -/
  decodes : ∀ body, body.size ≤ maxFrameLength → ∀ message leftover,
    format.decode body = .ok (message, leftover) ↔ body = format.encode message ++ leftover
  /-- A frame is read as a message exactly if its body begins with the record of the message. -/
  accepts : ∀ body frame, frameBody body = .ok frame → ∀ rest message,
    readFrame format (frame ++ rest) = .ok (some (message, rest)) ↔ Begins format body message
  /-- A frame whose body begins with no record is refused. -/
  rejects : ∀ body frame, frameBody body = .ok frame →
    (∀ message, ¬ Begins format body message) → ∀ rest,
      ∃ error, readFrame format (frame ++ rest) = .error (.undecodable error)
  /-- No body begins with the records of two messages. -/
  unique : ∀ body, body.size ≤ maxFrameLength → ∀ message other,
    Begins format body message → Begins format body other → message = other
  /-- No two bodies with nothing behind the record are read as one message. -/
  whole : ∀ body other message, format.decode body = .ok (message, .empty) →
    format.decode other = .ok (message, .empty) → body = other

/-- What is read back and takes nothing else is decoded from its record and from nothing else. -/
theorem decode_eq_ok_iff (faithful : Faithful format)
    (canonical : Canonical format.decode format.encode) (short : body.size ≤ maxFrameLength) :
    format.decode body = .ok (message, leftover) ↔ body = format.encode message ++ leftover := by
  constructor
  · exact canonical body message leftover
  · rintro rfl
    rw [ByteArray.size_append] at short
    exact faithful message (Nat.le_trans (Nat.le_add_right _ _) short) leftover

/-- **A format that reads back what it writes, and nothing else, is exact.** -/
theorem Exact.of_canonical (faithful : Faithful format)
    (canonical : Canonical format.decode format.encode) : Exact format where
  framed body short := ⟨_, frameBody_eq_ok_iff.mpr ⟨short, rfl⟩⟩
  decodes body short message leftover := decode_eq_ok_iff faithful canonical short
  accepts body frame framed rest message := by
    obtain ⟨short, -⟩ := frameBody_eq_ok_iff.mp framed
    rw [readFrame_frameBody framed]
    constructor
    · intro read
      cases decoded : format.decode body with
      | error error =>
          rw [decoded] at read
          cases read
      | ok result =>
          rw [decoded] at read
          obtain ⟨rfl, -⟩ := Prod.mk.inj (Option.some.inj (Except.ok.inj read))
          exact ⟨result.2, canonical _ _ _ decoded⟩
    · rintro ⟨leftover, begins⟩
      rw [(decode_eq_ok_iff faithful canonical short).mpr begins]
  rejects body frame framed none rest := by
    rw [readFrame_frameBody framed]
    cases decoded : format.decode body with
    | error error => exact ⟨error, rfl⟩
    | ok result => exact absurd ⟨result.2, canonical _ _ _ decoded⟩ (none result.1)
  unique body short message other := by
    rintro ⟨leftover, begins⟩ ⟨behind, also⟩
    have first := (decode_eq_ok_iff faithful canonical short).mpr begins
    have second := (decode_eq_ok_iff faithful canonical short).mpr also
    exact (Prod.mk.inj (Except.ok.inj (first.symm.trans second))).1
  whole body other message read again :=
    (canonical _ _ _ read).trans (canonical _ _ _ again).symm

/-- **A body is read as a request, or as a response, exactly if it begins with the record of that
request or response.** -/
theorem exact_bodies : Exact requests ∧ Exact responses :=
  ⟨.of_canonical faithful_requests canonical_request,
    .of_canonical faithful_responses canonical_response⟩

end LeaseCache.Wire
