import LeaseCache.Proofs.Table
import LeaseCache.Proofs.Wire.Framing
import LeaseCache.Stream.Client

/-!
# How the calls of a client end

A client ends a call in one way: it takes the call out of the table under the
number of its request and records the result (`settle`). A response does that
with the response, and an expiry or a call that takes the number of another does
it with an error. Making a call first ends the call that waits under the same
number and then waits, or fails at once (`issue_cases`); the end of the
connection ends all waiting calls (`find?_results_close`).
-/

set_option autoImplicit false

namespace LeaseCache.Stream.Client

variable {client : Client} {id other : UInt64} {call : Nat} {result : CallResult}

/-- Ends the call that waits under a number, if there is one. -/
def settle (client : Client) (id : UInt64) (result : CallResult) : Client :=
  match client.waiting.find? id with
  | some call => finish { client with waiting := client.waiting.erase id } call result
  | none => client

theorem receive_eq_settle (client : Client) (response : Response) :
    client.receive response = client.settle response.id (.ok response) := rfl

theorem expire_eq_settle (client : Client) (id : UInt64) :
    client.expire id = client.settle id (.error (.timedOut id)) := rfl

@[simp] theorem settle_calls (client : Client) (id : UInt64) (result : CallResult) :
    (client.settle id result).calls = client.calls := by
  unfold settle
  split <;> rfl

@[simp] theorem settle_connected (client : Client) (id : UInt64) (result : CallResult) :
    (client.settle id result).connected = client.connected := by
  unfold settle
  split <;> rfl

@[simp] theorem settle_nextRequest (client : Client) (id : UInt64) (result : CallResult) :
    (client.settle id result).nextRequest = client.nextRequest := by
  unfold settle
  split <;> rfl

/-- After a call has ended nothing waits under its number. -/
theorem find?_waiting_settle (client : Client) (id other : UInt64) (result : CallResult) :
    (client.settle id result).waiting.find? other =
      if other = id then none else client.waiting.find? other := by
  unfold settle
  split
  · exact Table.find?_erase client.waiting id other
  · next absent =>
      split
      · next same =>
          subst same
          exact absent
      · rfl

/-- A call has ended with the result if it waited, and every other call is as before. -/
theorem find?_results_settle (client : Client) (id : UInt64) (call : Nat) (result : CallResult) :
    (client.settle id result).results.find? call =
      if client.waiting.find? id = some call then some result
      else client.results.find? call := by
  unfold settle
  split
  · next waiting found =>
      rw [finish, Table.find?_insert, found]
      simp only [Option.some.injEq, eq_comm]
  · next absent =>
      rw [absent, if_neg (Option.some_ne_none call).symm]

/-- The state in which a client takes up a new call: the call is counted, and a call that waits
under the same number has ended. -/
def displace (client : Client) (id : UInt64) : Client :=
  settle { client with calls := client.calls + 1 } id (.error (.closedEarly id))

/-- **How a call is made**: it waits for its response, or it fails at once because the connection
has ended or because its request has no frame. -/
theorem issue_cases (client : Client) (request : Request) :
    (client.connected = true ∧ ∃ frame,
      Wire.writeFrame Wire.requests request = .ok frame ∧
      client.issue request =
        ({ client.displace request.id with
            waiting := (client.displace request.id).waiting.insert request.id client.calls },
          client.calls, some frame)) ∨
    (∃ error, (client.connected = false ∧ error = .closed ∨
        ∃ fault, Wire.writeFrame Wire.requests request = .error fault ∧ error = .unsendable fault) ∧
      client.issue request =
        ((client.displace request.id).finish client.calls (.error error), client.calls, none)) := by
  by_cases connected : client.connected = true
  · cases written : Wire.writeFrame Wire.requests request with
    | ok frame =>
        refine Or.inl ⟨connected, frame, rfl, (if_pos connected).trans ?_⟩
        rw [written]
        rfl
    | error fault =>
        refine Or.inr ⟨.unsendable fault, Or.inr ⟨fault, rfl, rfl⟩, (if_pos connected).trans ?_⟩
        rw [written]
        rfl
  · have ended := Bool.eq_false_iff.mpr connected
    exact Or.inr ⟨.closed, Or.inl ⟨ended, rfl⟩, if_neg connected⟩

/-- A stream of whole frames gives its responses to the client, one after the other. -/
theorem receiveStream_joined {responses : List Response} {frames : List ByteArray}
    (written : List.Forall₂
      (fun response frame => Wire.writeFrame Wire.responses response = .ok frame) responses frames)
    (client : Client) :
    client.receiveStream (Wire.joined frames) = responses.foldl receive client := by
  rw [receiveStream, Wire.faithful_responses.readFrames_joined written]
  rfl

theorem receiveStream_frame {response : Response} {frame : ByteArray}
    (written : Wire.writeFrame Wire.responses response = .ok frame) (client : Client) :
    client.receiveStream frame = client.receive response := by
  have single := receiveStream_joined (.cons written .nil) client
  rwa [Wire.joined_singleton] at single

/-! ## The end of a connection -/

/-- Failing the calls of some entries leaves the results of all other calls. -/
theorem find?_results_foldl_finish (entries : List (UInt64 × Nat)) (client : Client) (call : Nat) :
    let failed := entries.foldl
      (fun client (id, call) => client.finish call (.error (.closedEarly id))) client
    (∀ id, (id, call) ∉ entries) ∧ failed.results.find? call = client.results.find? call ∨
      ∃ id, (id, call) ∈ entries ∧ failed.results.find? call = some (.error (.closedEarly id)) := by
  induction entries generalizing client with
  | nil => exact Or.inl ⟨fun _ => List.not_mem_nil, rfl⟩
  | cons entry rest ih =>
      obtain ⟨id, ended⟩ := entry
      rcases ih (client.finish ended (.error (.closedEarly id))) with
        ⟨absent, kept⟩ | ⟨name, later, failed⟩
      · by_cases same : call = ended
        · subst same
          refine Or.inr ⟨id, List.mem_cons_self, ?_⟩
          exact kept.trans (Table.find?_insert_self client.results call _)
        · refine Or.inl ⟨fun name member => ?_, ?_⟩
          · rcases List.mem_cons.mp member with first | later
            · exact same (Prod.mk.inj first).2
            · exact absent name later
          · exact kept.trans (Table.find?_insert_of_ne client.results same _)
      · exact Or.inr ⟨name, List.mem_cons_of_mem _ later, failed⟩

/-- **The end of the connection fails the calls that wait** and leaves all results. -/
theorem find?_results_close (client : Client) (call : Nat) :
    (∀ id, client.waiting.find? id ≠ some call) ∧
        client.close.results.find? call = client.results.find? call ∨
      ∃ id, client.waiting.find? id = some call ∧
        client.close.results.find? call = some (.error (.closedEarly id)) := by
  rcases find?_results_foldl_finish client.waiting.entries client call with
    ⟨absent, kept⟩ | ⟨id, member, failed⟩
  · exact Or.inl ⟨fun id waits => absent id (Table.mem_of_lookup waits), kept⟩
  · exact Or.inr ⟨id, Table.lookup_of_mem client.waiting.nodup member, failed⟩

/-- The end of the connection changes nothing else. -/
theorem exists_close_eq (client : Client) : ∃ results, client.close =
    { client with waiting := .empty, results := results, connected := false } := by
  have ended : ∀ (entries : List (UInt64 × Nat)) (client : Client), ∃ results,
      entries.foldl (fun client (id, call) => client.finish call (.error (.closedEarly id))) client =
        { client with results := results } := by
    intro entries
    induction entries with
    | nil => exact fun client => ⟨client.results, rfl⟩
    | cons entry rest ih => exact fun client => ih (client.finish entry.2 _)
  obtain ⟨results, same⟩ := ended client.waiting.entries client
  refine ⟨results, ?_⟩
  rw [close, same]

end LeaseCache.Stream.Client
