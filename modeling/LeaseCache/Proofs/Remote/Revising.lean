import LeaseCache.Proofs.Remote.Windows

/-!
# What clients do with their windows

A client reserves a window together with the ticket of a new request, and gives a
window back when the response to the request of its get is there. Either way the
state of one client is revised: its buffer, the responses that are left and the
number of tickets (`Sound.revise`). A request is put into the queue once a get
waits for it (`Sound.enqueue`).

A window is given back only when its response is there (`Sound.close`), whether
the client settles the get at once or clears it away later (`Sound.reclaim`).
-/

set_option autoImplicit false

namespace LeaseCache.Remote

/-- Two states of a client with the same settings, buffer and descriptor. -/
structure Client.Alike (client next : Client) : Prop where
  config : next.config = client.config
  buffer : next.buffer = client.buffer
  descriptor : next.descriptor = client.descriptor

theorem Client.Alike.locate_eq {client next : Client} (alike : client.Alike next) :
    next.locate = client.locate := by
  funext window
  rw [locate, locate, alike.config, alike.descriptor]

/-- A new state of one client, with the buffers, the responses and the number of tickets that go
with it. -/
structure Revises (before : Adapter) (number : Nat) (member next : Member)
    (buffers : Table Nat Arena) (responses : Table Nat Response) (tickets : Nat) : Prop where
  alike : member.client.Alike next.client
  housed : next.Housed { before with buffers := buffers } number
  memory : (Adapter.arenaOf { before with buffers := buffers } (.buffer number)).memory =
    (before.arenaOf (.buffer number)).memory
  others : ∀ {other}, other ≠ number → buffers.find? other = before.buffers.find? other
  size : buffers.size = before.buffers.size
  responses : ∀ {ticket response}, responses.find? ticket = some response →
    before.responses.find? ticket = some response
  posted : before.posted ≤ tickets
  distinct : (next.waiting.map AbandonedGet.ticket).Nodup
  /-- Gets that wait anew have new tickets. -/
  waits : ∀ get ∈ next.waiting, get ∈ member.waiting ∨
    (before.posted ≤ get.ticket ∧ get.ticket < tickets)
  gets : ∀ get ∈ next.gets, get ∈ member.gets ∨ before.posted ≤ get.ticket
  /-- Gets whose requests are pending go on waiting. -/
  stays : ∀ get ∈ member.waiting, get ∈ next.waiting ∨
    ∀ request, (get.ticket, request) ∉ before.pending

variable {leased : Nat → Key → ByteArray → Prop} {adapter before after : Adapter}
  {members later : Table Nat Member} {member next : Member} {number ticket tickets : Nat}
  {buffers : Table Nat Arena} {responses : Table Nat Response} {get : AbandonedGet}

theorem Member.Housed.of_eq (housed : member.Housed before number)
    (registered : ∀ {key}, before.fabric.registrations.find? key = some (.buffer number) →
      after.fabric.registrations.find? key = some (.buffer number))
    (same : after.buffers.find? number = before.buffers.find? number) :
    member.Housed after number := by
  have arena : after.arenaOf (.buffer number) = before.arenaOf (.buffer number) :=
    congrArg (Option.getD · _) same
  exact
    { buffer := housed.buffer
      made := same ▸ housed.made
      registered := fun first => registered (housed.registered first)
      holds := arena ▸ housed.holds
      alignment := arena ▸ housed.alignment
      word := arena ▸ housed.word
      length := housed.length }

/-- A client whose gets go on waiting still has its buffer. -/
theorem Member.Housed.perm (housed : member.Housed adapter number)
    (alike : member.client.Alike next.client) (same : member.waiting.Perm next.waiting) :
    next.Housed adapter number where
  buffer := alike.buffer.trans housed.buffer
  made := housed.made
  registered first := housed.registered (alike.descriptor ▸ first)
  holds := housed.holds.perm (same.map _)
  alignment := housed.alignment
  word := housed.word
  length get waits := alike.config ▸ housed.length get (same.mem_iff.mpr waits)

namespace Exchange

/-- Only the states of the clients matter, not the order in which a table keeps them. -/
theorem Sound.congr (sound : Sound leased ⟨adapter, members⟩)
    (same : ∀ number, later.find? number = members.find? number) :
    Sound leased ⟨adapter, later⟩ where
  running := sound.running
  wired := sound.wired
  ticketed := sound.ticketed
  housed found := sound.housed ((same _).symm.trans found)
  tracked found := sound.tracked ((same _).symm.trans found)
  received found := sound.received ((same _).symm.trans found)
  apart here there := sound.apart ((same _).symm.trans here) ((same _).symm.trans there)
  aims pends names := by
    obtain ⟨number, member, get, found, waits⟩ := sound.aims pends names
    exact ⟨number, member, get, (same _).trans found, waits⟩
  held := sound.held

/-- The gets of a revised client have tickets of their own and ask for what they asked for. -/
theorem Sound.tracked_revise (sound : Sound leased ⟨before, members⟩)
    (found : members.find? number = some member)
    (revises : Revises before number member next buffers responses tickets) :
    next.Tracked { before with
      buffers := buffers, responses := responses, posted := tickets } := by
  refine ⟨fun get waits => ?_, revises.distinct, fun get asked request pends => ?_⟩
  · rcases revises.waits get waits with earlier | ⟨-, fresh⟩
    · exact Nat.lt_of_lt_of_le ((sound.tracked found).posted get earlier) revises.posted
    · exact fresh
  · rcases revises.gets get asked with earlier | fresh
    · exact (sound.tracked found).asks get earlier pends
    · exact absurd (sound.ticketed.posted pends) (Nat.not_lt_of_le fresh)

/-- What a revised client has received lies in its windows as before. -/
theorem Sound.received_revise (sound : Sound leased ⟨before, members⟩)
    (found : members.find? number = some member)
    (revises : Revises before number member next buffers responses tickets) :
    next.Received leased { before with
      buffers := buffers, responses := responses, posted := tickets } number := by
  intro get asked response left success
  have left := revises.responses left
  rcases revises.gets get asked with earlier | fresh
  · obtain ⟨bytes, known, length, fits, same⟩ :=
      sound.received found get earlier response left success
    exact ⟨bytes, known, length, fits, (congrArg (Memory.read · _ _) revises.memory).trans same⟩
  · exact absurd (sound.ticketed.answered left) (Nat.not_lt_of_le fresh)

/-- The gets of a revised client and those of another client have different tickets. -/
theorem Sound.apart_revise (sound : Sound leased ⟨before, members⟩)
    (found : members.find? number = some member)
    (revises : Revises before number member next buffers responses tickets)
    {other : Nat} {state : Member} (there : members.find? other = some state)
    (different : other ≠ number) {late : AbandonedGet} (waits : get ∈ next.waiting)
    (late_waits : late ∈ state.waiting) : get.ticket ≠ late.ticket := by
  intro same
  rcases revises.waits get waits with earlier | ⟨fresh, -⟩
  · exact different (sound.apart found there get earlier late late_waits same).symm
  · have posted := (sound.tracked there).posted late late_waits
    exact absurd (same ▸ posted) (Nat.not_lt_of_le fresh)

/-- **Revising the state of one client keeps an exchange sound.** -/
theorem Sound.revise (sound : Sound leased ⟨before, members⟩)
    (found : members.find? number = some member)
    (revises : Revises before number member next buffers responses tickets) :
    Sound leased
      ⟨{ before with buffers := buffers, responses := responses, posted := tickets },
        members.insert number next⟩ := by
  have arena : ∀ {other}, other ≠ number →
      Adapter.arenaOf { before with buffers := buffers } (.buffer other) =
        before.arenaOf (.buffer other) := fun other =>
    congrArg (Option.getD · _) (revises.others other)
  refine
    { running := sound.running
      wired := ⟨sound.wired.keys, fun {name arena} here => ?_⟩
      ticketed :=
        { distinct := sound.ticketed.distinct
          posted := fun waits => Nat.lt_of_lt_of_le (sound.ticketed.posted waits) revises.posted
          unanswered := fun {ticket request} waits => ?_
          answered := fun there =>
            Nat.lt_of_lt_of_le (sound.ticketed.answered (revises.responses there)) revises.posted }
      housed := fun {name state} here => ?_
      tracked := fun {name state} here => ?_
      received := fun {name state} here => ?_
      apart := fun {name other first second} here there get waits late late_waits same => ?_
      aims := fun {ticket request location} pends names => ?_
      held := sound.held }
  · dsimp only at here ⊢
    rw [revises.size]
    by_cases mine : name = number
    · obtain ⟨made, there⟩ := Option.ne_none_iff_exists'.mp (sound.housed found).made
      exact mine ▸ sound.wired.numbers there
    · exact sound.wired.numbers ((revises.others mine).symm.trans here)
  · -- Responses are taken away only, so a pending request is still without one.
    cases left : responses.find? ticket with
    | none => rfl
    | some response =>
        have nothing := sound.ticketed.unanswered waits
        cases nothing.symm.trans (revises.responses left)
  · rcases Table.of_find?_insert here with ⟨rfl, rfl⟩ | ⟨other, there⟩
    · exact revises.housed.of_eq id rfl
    · exact (sound.housed there).of_eq id (revises.others other)
  · rcases Table.of_find?_insert here with ⟨rfl, rfl⟩ | ⟨other, there⟩
    · exact sound.tracked_revise found revises
    · obtain ⟨known, distinct, asks⟩ := sound.tracked there
      exact ⟨fun get waits => Nat.lt_of_lt_of_le (known get waits) revises.posted, distinct, asks⟩
  · rcases Table.of_find?_insert here with ⟨rfl, rfl⟩ | ⟨other, there⟩
    · exact sound.received_revise found revises
    · refine (sound.received there).mono (fun get _ response left _ => revises.responses left) ?_
      exact fun get _ size _ => congrArg (fun arena : Arena =>
        arena.memory.read get.window.offset size) (arena other)
  · rcases Table.of_find?_insert here with ⟨rfl, rfl⟩ | ⟨away, early⟩ <;>
      rcases Table.of_find?_insert there with ⟨rfl, rfl⟩ | ⟨elsewhere, behind⟩
    · rfl
    · -- Tickets of other clients are older than every ticket that the revised client has anew.
      exact absurd same (sound.apart_revise found revises behind elsewhere waits late_waits)
    · exact absurd same.symm (sound.apart_revise found revises early away late_waits waits)
    · exact sound.apart early behind get waits late late_waits same
  · obtain ⟨owner, state, get, owned, waits, rfl, place⟩ := sound.aims pends names
    by_cases mine : owner = number
    · subst mine
      obtain rfl := Option.some.inj (found.symm.trans owned)
      rcases revises.stays get waits with stays | ended
      · refine ⟨owner, next, get, Table.find?_insert_self _ _ _, stays, rfl, ?_⟩
        rw [revises.alike.locate_eq]
        exact place
      · exact absurd pends (ended _)
    · exact ⟨owner, state, get, (Table.find?_insert_of_ne _ mine _).trans owned, waits, rfl, place⟩

/-- A client whose gets go on waiting revises its state. -/
theorem Sound.revises_perm (sound : Sound leased ⟨before, members⟩)
    (found : members.find? number = some member) (alike : member.client.Alike next.client)
    (same : member.waiting.Perm next.waiting) (gets : next.gets ⊆ member.gets)
    (fewer : ∀ {ticket response}, responses.find? ticket = some response →
      before.responses.find? ticket = some response) (more : before.posted ≤ tickets) :
    Revises before number member next before.buffers responses tickets where
  alike := alike
  housed := (sound.housed found).perm alike same
  memory := rfl
  others _ := rfl
  size := rfl
  responses := fewer
  posted := more
  distinct := (same.map _).nodup_iff.mp (sound.tracked found).distinct
  waits _ waits := Or.inl (same.mem_iff.mpr waits)
  gets _ asked := Or.inl (gets asked)
  stays _ waits := Or.inl (same.mem_iff.mp waits)

/-! ## Putting a request into the queue -/

/-- **A request is put into the queue** once a get waits for the window that it names. -/
theorem Sound.enqueue (sound : Sound leased ⟨before, members⟩) {connection : Connection}
    {request : Request} (posted : ticket < before.posted)
    (fresh : ∀ request, (ticket, request) ∉ before.pending)
    (unanswered : before.responses.find? ticket = none)
    (aims : ∀ {location}, request.location = some location → ∃ number member get,
      members.find? number = some member ∧ get ∈ member.waiting ∧ get.ticket = ticket ∧
        location = member.client.locate get.window)
    (asks : ∀ {number member}, members.find? number = some member → ∀ get ∈ member.gets,
      get.ticket = ticket → request.operation = .get ∧ request.key = get.key) :
    Sound leased
      ⟨{ before with queue := before.queue ++ [.request ticket connection request] }, members⟩ := by
  have pending : Adapter.pending
      { before with queue := before.queue ++ [.request ticket connection request] } =
        before.pending ++ [(ticket, request)] := by
    rw [Adapter.pending, Adapter.pending, List.filterMap_append, List.append_assoc]
    rfl
  have cases : ∀ {name asked}, (name, asked) ∈ Adapter.pending
      { before with queue := before.queue ++ [.request ticket connection request] } →
        (name, asked) ∈ before.pending ∨ name = ticket ∧ asked = request := by
    intro name asked pends
    rw [pending, List.mem_append, List.mem_singleton, Prod.mk.injEq] at pends
    exact pends
  refine
    { running := sound.running
      wired := ⟨sound.wired.keys, sound.wired.numbers⟩
      ticketed := sound.ticketed.enqueue pending (Nat.le_refl _) rfl (List.nodup_singleton _)
        (fun asked => ?_) fun asked => ?_
      housed := fun found => (sound.housed found).of_eq id rfl
      tracked := fun found =>
        ⟨(sound.tracked found).posted, (sound.tracked found).distinct, fun get asked _ pends => ?_⟩
      received := fun found => (sound.received found).mono (fun _ _ _ left _ => left)
        fun _ _ _ _ => rfl
      apart := sound.apart
      aims := fun pends names => ?_
      held := sound.held }
  · obtain ⟨rfl, -⟩ := Prod.mk.inj (List.mem_singleton.mp asked)
    exact posted
  · obtain ⟨rfl, -⟩ := Prod.mk.inj (List.mem_singleton.mp asked)
    exact ⟨fresh, unanswered⟩
  · rcases cases pends with earlier | ⟨same, rfl⟩
    · exact (sound.tracked found).asks get asked earlier
    · exact asks found get asked same
  · rcases cases pends with earlier | ⟨rfl, rfl⟩
    · exact sound.aims earlier names
    · exact aims names

/-- **A client submits a request** under the next ticket, with what it revises for it. -/
theorem Sound.submit (sound : Sound leased ⟨before, members⟩)
    (found : members.find? number = some member)
    (revises : Revises before number member next buffers before.responses (before.posted + 1))
    (connection : Connection) {request : Request}
    (aims : ∀ {location}, request.location = some location → ∃ get ∈ next.waiting,
      get.ticket = before.posted ∧ location = next.client.locate get.window)
    (asks : ∀ get ∈ next.gets, get.ticket = before.posted →
      request.operation = .get ∧ request.key = get.key) :
    Sound leased
      ⟨{ before with
          buffers := buffers
          queue := before.queue ++ [.request before.posted connection request]
          posted := before.posted + 1 },
        members.insert number next⟩ := by
  have here : (members.insert number next).find? number = some next :=
    Table.find?_insert_self _ _ _
  obtain ⟨fresh, unanswered⟩ := sound.ticketed.unused (Nat.le_refl _)
  refine (sound.revise found revises).enqueue (Nat.lt_succ_self _) fresh unanswered
    (fun names => ?_) fun {name state} there get asked same => ?_
  · obtain ⟨get, waits, ticket, place⟩ := aims names
    exact ⟨number, next, get, here, waits, ticket, place⟩
  · obtain ⟨rfl, rfl⟩ | ⟨-, there⟩ := Table.of_find?_insert there
    · exact asks get asked same
    · have posted := (sound.tracked there).posted _ (Member.leave_mem asked)
      exact absurd same (Nat.ne_of_lt posted)

/-! ## Giving windows back -/

/-- **The window of a get is given back** when its response is there. -/
theorem Sound.close (sound : Sound leased ⟨before, members⟩)
    (found : members.find? number = some member) {response : Response}
    (left : before.responses.find? get.ticket = some response)
    (alike : member.client.Alike next.client) (split : member.waiting.Perm (get :: next.waiting))
    (gets : next.gets ⊆ member.gets) :
    ∃ arena, (before.arenaOf (.buffer number)).free get.window = .ok arena ∧
      Sound leased
        ⟨{ before with
            buffers := before.buffers.insert number arena
            responses := before.responses.erase get.ticket },
          members.insert number next⟩ := by
  have housed := sound.housed found
  have windows : member.windows.Perm (get.window :: next.windows) := split.map _
  have holds := housed.holds.perm windows
  have closed : get.window ∈ get.window :: next.windows := List.mem_cons_self
  obtain ⟨capacity, alignment⟩ := holds.capacity_discard closed
  obtain ⟨old, made⟩ := Option.ne_none_iff_exists'.mp housed.made
  have waits : ∀ late ∈ next.waiting, late ∈ member.waiting := fun late there =>
    split.mem_iff.mpr (List.mem_cons_of_mem _ there)
  obtain ⟨arena, freed⟩ : ∃ arena, arena = (before.arenaOf (.buffer number)).discard get.window :=
    ⟨_, rfl⟩
  rw [← freed] at capacity alignment
  have here : Adapter.arenaOf { before with buffers := before.buffers.insert number arena }
      (.buffer number) = arena :=
    congrArg (Option.getD · _) (Table.find?_insert_self _ _ _)
  have home : next.Housed { before with buffers := before.buffers.insert number arena } number :=
    { buffer := alike.buffer.trans housed.buffer
      made := fun nothing => by
        rw [Table.find?_insert_self] at nothing
        cases nothing
      registered := fun {key} first => housed.registered (alike.descriptor ▸ first)
      holds := here.symm ▸ freed ▸ holds.discard
      alignment := by
        rw [here, alignment]
        exact housed.alignment
      word := by
        rw [here, Arena.capacity, capacity]
        exact housed.word
      length := fun late there => alike.config ▸ housed.length late (waits late there) }
  have revises : Revises before number member next (before.buffers.insert number arena)
      (before.responses.erase get.ticket) before.posted :=
    { alike := alike
      housed := home
      memory := by rw [here, freed, Arena.memory_discard]
      others := fun other => Table.find?_insert_of_ne _ other _
      size := Table.size_insert_of_found made _
      responses := fun there => (Table.of_find?_erase there).2
      posted := Nat.le_refl _
      distinct := by
        have distinct := (split.map AbandonedGet.ticket).nodup_iff.mp (sound.tracked found).distinct
        exact (List.nodup_cons.mp distinct).2
      waits := fun late there => Or.inl (waits late there)
      gets := fun opened there => Or.inl (gets there)
      stays := fun late there => by
        rcases List.mem_cons.mp (split.mem_iff.mp there) with rfl | stays
        · refine Or.inr fun request pends => ?_
          cases (sound.ticketed.unanswered pends).symm.trans left
        · exact Or.inl stays }
  exact ⟨arena, by rw [holds.free_eq closed, freed], sound.revise found revises⟩

end Exchange

end LeaseCache.Remote
