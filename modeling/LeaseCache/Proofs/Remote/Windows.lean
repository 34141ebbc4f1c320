import LeaseCache.Proofs.Arena.Holding
import LeaseCache.Proofs.Remote.Exchange
import LeaseCache.Proofs.Remote.Working

/-!
# The windows of waiting gets

A window is written into at most once, by the get that it is reserved for. For
every request that can still be written somewhere is a waiting get of the client
whose window it names (`aims`), and the reservations of a buffer are exactly the
windows of the waiting gets of its client (`holds`), so that a late write hits
neither the window of another get nor another buffer. When a get has been
answered with success, what was leased for it therefore lies in its window
(`Received`).

`Exchange.Sound` collects this. Whatever the worker does keeps it (`Sound.effect`).
-/

set_option autoImplicit false

namespace LeaseCache

/-- What an arena holds depends only on its allocator. -/
theorem Arena.Holds.congr {arena other : Arena} {regions : List Region} (holds : arena.Holds regions)
    (same : other.allocator = arena.allocator) : other.Holds regions :=
  ⟨same ▸ holds.tiled, same ▸ holds.reserved⟩

namespace Remote

/-- Keys and numbers are given in order. -/
structure Adapter.Wired (adapter : Adapter) : Prop where
  keys : ∀ {key holder}, adapter.fabric.registrations.find? key = some holder →
    key.toNat < adapter.fabric.nextKey.toNat
  numbers : ∀ {number arena}, adapter.buffers.find? number = some arena →
    number < adapter.buffers.size

/-- Tickets are given in order, and a request is pending once and until its response is left. -/
structure Adapter.Ticketed (adapter : Adapter) : Prop where
  distinct : (adapter.pending.map Prod.fst).Nodup
  posted : ∀ {ticket request}, (ticket, request) ∈ adapter.pending → ticket < adapter.posted
  unanswered : ∀ {ticket request}, (ticket, request) ∈ adapter.pending →
    adapter.responses.find? ticket = none
  answered : ∀ {ticket response}, adapter.responses.find? ticket = some response →
    ticket < adapter.posted

/-- A client has a registered buffer, whose reservations are the windows of its waiting gets. -/
structure Member.Housed (adapter : Adapter) (number : Nat) (member : Member) : Prop where
  buffer : member.client.buffer = number
  made : adapter.buffers.find? number ≠ none
  registered : ∀ {key}, member.client.descriptor.firstKey? = some key →
    adapter.fabric.registrations.find? key = some (.buffer number)
  holds : (adapter.arenaOf (.buffer number)).Holds member.windows
  alignment : (adapter.arenaOf (.buffer number)).allocator.alignment = Client.windowAlignment
  word : (adapter.arenaOf (.buffer number)).capacity < wordBound
  length : ∀ get ∈ member.waiting, get.window.length = member.client.config.windowSize

/-- The gets of a client have tickets of their own, and pending requests ask for what the client
wants to know. -/
structure Member.Tracked (adapter : Adapter) (member : Member) : Prop where
  posted : ∀ get ∈ member.waiting, get.ticket < adapter.posted
  distinct : (member.waiting.map AbandonedGet.ticket).Nodup
  asks : ∀ get ∈ member.gets, ∀ {request}, (get.ticket, request) ∈ adapter.pending →
    request.operation = .get ∧ request.key = get.key

/-- When a get has been answered with success, bytes that it leased lie in its window. -/
def Member.Received (leased : Nat → Key → ByteArray → Prop) (adapter : Adapter) (number : Nat)
    (member : Member) : Prop :=
  ∀ get ∈ member.gets, ∀ response, adapter.responses.find? get.ticket = some response →
    response.status = .ok → ∃ bytes, leased get.ticket get.key bytes ∧
      response.length.toNat = bytes.size ∧ bytes.size ≤ get.window.length ∧
      (adapter.arenaOf (.buffer number)).memory.read get.window.offset bytes.size = bytes

namespace Exchange

/-- The windows, the tickets and the bytes of an exchange are in order. Which bytes gets have leased
is a parameter. -/
structure Sound (leased : Nat → Key → ByteArray → Prop) (exchange : Exchange) : Prop where
  running : exchange.adapter.lifecycle = .running
  wired : exchange.adapter.Wired
  ticketed : exchange.adapter.Ticketed
  housed : ∀ {number member}, exchange.members.find? number = some member →
    member.Housed exchange.adapter number
  tracked : ∀ {number member}, exchange.members.find? number = some member →
    member.Tracked exchange.adapter
  received : ∀ {number member}, exchange.members.find? number = some member →
    member.Received leased exchange.adapter number
  /-- The gets of different clients have different tickets. -/
  apart : ∀ {number other first second}, exchange.members.find? number = some first →
    exchange.members.find? other = some second → ∀ get ∈ first.waiting, ∀ late ∈ second.waiting,
      get.ticket = late.ticket → number = other
  /-- What a pending request names is the window of a waiting get. -/
  aims : ∀ {ticket request location}, (ticket, request) ∈ exchange.adapter.pending →
    request.location = some location → ∃ number member get,
      exchange.members.find? number = some member ∧ get ∈ member.waiting ∧ get.ticket = ticket ∧
        location = member.client.locate get.window
  held : ∀ {get}, exchange.adapter.worker = .held get →
    get.request.location = some get.location ∧ get.handle.size = get.data.size ∧
      leased get.ticket get.request.key get.data

end Exchange

variable {leased : Nat → Key → ByteArray → Prop} {adapter before after : Adapter}
  {members : Table Nat Member} {member : Member} {number : Nat}

theorem Member.leave_mem {get : OpenGet} (asked : get ∈ member.gets) :
    get.leave ∈ member.waiting :=
  List.mem_append_left _ (List.mem_map_of_mem asked)

/-- A client without waiting gets has its gets in order. -/
theorem Member.tracked_of_idle (idle : member.waiting = []) : member.Tracked adapter where
  posted get waits := by
    rw [idle] at waits
    cases waits
  distinct := by
    rw [idle]
    exact List.nodup_nil
  asks get asked := by
    have waits := Member.leave_mem asked
    rw [idle] at waits
    cases waits

/-- The number that a new buffer gets is free. -/
theorem Adapter.Wired.absent (wired : adapter.Wired) :
    adapter.buffers.find? adapter.buffers.size = none := by
  cases found : adapter.buffers.find? adapter.buffers.size with
  | none => rfl
  | some arena => exact absurd (wired.numbers found) (Nat.lt_irrefl _)

theorem Exchange.Sound.number_ne (sound : Sound leased ⟨adapter, members⟩)
    (found : members.find? number = some member) : number ≠ adapter.buffers.size := by
  rintro rfl
  exact (sound.housed found).made sound.wired.absent

/-! ## What the worker keeps -/

/-- A change that keeps the registrations and all reservations, and makes no request pending. -/
structure Adapter.Keeps (before after : Adapter) : Prop where
  ways : SameWays before after
  pending : after.pending.Sublist before.pending
  allocator : ∀ number, (after.arenaOf (.buffer number)).allocator =
    (before.arenaOf (.buffer number)).allocator
  made : ∀ number, after.buffers.find? number = none ↔ before.buffers.find? number = none
  size : after.buffers.size = before.buffers.size

namespace Adapter

theorem Keeps.of_buffers (ways : SameWays before after)
    (pending : after.pending.Sublist before.pending) (buffers : after.buffers = before.buffers) :
    Keeps before after where
  ways := ways
  pending := pending
  allocator number := by rw [arenaOf, arenaOf, buffers]
  made number := by rw [buffers]
  size := by rw [buffers]

theorem Wired.keeps (wired : before.Wired) (keeps : Keeps before after) : after.Wired where
  keys found := by
    rw [keeps.ways.registrations] at found
    rw [keeps.ways.nextKey]
    exact wired.keys found
  numbers {number arena} found := by
    rw [keeps.size]
    cases old : before.buffers.find? number with
    | none => cases found.symm.trans ((keeps.made number).mpr old)
    | some _ => exact wired.numbers old

theorem Ticketed.of_eq (ticketed : before.Ticketed) (posted : after.posted = before.posted)
    (pending : after.pending = before.pending) (responses : after.responses = before.responses) :
    after.Ticketed where
  distinct := pending ▸ ticketed.distinct
  posted waits := posted ▸ ticketed.posted (pending ▸ waits)
  unanswered waits := responses ▸ ticketed.unanswered (pending ▸ waits)
  answered found := posted ▸ ticketed.answered (responses ▸ found)

/-- A new adapter has no requests and no responses. -/
theorem Ticketed.of_start {dispatcher : Dispatcher} {config : FabricConfig} {link : Link}
    {adapter : Adapter} (started : start dispatcher config link = .ok adapter) :
    adapter.Ticketed := by
  obtain rfl := of_start_ok started
  exact
    { distinct := List.nodup_nil
      posted := fun waits => by cases waits
      unanswered := fun waits => by cases waits
      answered := fun found => by cases found }

/-- A ticket that has not been given out belongs to no request and has no response. -/
theorem Ticketed.unused (ticketed : before.Ticketed) {ticket : Nat}
    (late : before.posted ≤ ticket) :
    (∀ request, (ticket, request) ∉ before.pending) ∧ before.responses.find? ticket = none := by
  constructor
  · intro request waits
    exact absurd (ticketed.posted waits) (Nat.not_lt_of_le late)
  · cases found : before.responses.find? ticket with
    | none => rfl
    | some response => exact absurd (ticketed.answered found) (Nat.not_lt_of_le late)

/-- More requests wait, each under an unused ticket of its own. -/
theorem Ticketed.enqueue (ticketed : before.Ticketed) {asked : List (Nat × Request)}
    (pending : after.pending = before.pending ++ asked) (posted : before.posted ≤ after.posted)
    (responses : after.responses = before.responses) (distinct : (asked.map Prod.fst).Nodup)
    (issued : ∀ {ticket request}, (ticket, request) ∈ asked → ticket < after.posted)
    (unused : ∀ {ticket request}, (ticket, request) ∈ asked →
      (∀ other, (ticket, other) ∉ before.pending) ∧ before.responses.find? ticket = none) :
    after.Ticketed where
  distinct := by
    rw [pending, List.map_append]
    refine List.nodup_append'.mpr ⟨ticketed.distinct, distinct, ?_⟩
    intro ticket earlier newest
    obtain ⟨⟨_, request⟩, waits, rfl⟩ := List.mem_map.mp earlier
    obtain ⟨⟨_, other⟩, member, rfl⟩ := List.mem_map.mp newest
    exact (unused member).1 request waits
  posted waits := by
    rw [pending] at waits
    rcases List.mem_append.mp waits with earlier | newest
    · exact Nat.lt_of_lt_of_le (ticketed.posted earlier) posted
    · exact issued newest
  unanswered waits := by
    rw [pending] at waits
    rw [responses]
    rcases List.mem_append.mp waits with earlier | newest
    · exact ticketed.unanswered earlier
    · exact (unused newest).2
  answered found := Nat.lt_of_lt_of_le (ticketed.answered (responses ▸ found)) posted

/-- Answering the first request that is pending. -/
theorem Ticketed.answer (ticketed : before.Ticketed) {ticket : Nat} {request : Request}
    {response : Response} (posted : after.posted = before.posted)
    (pending : before.pending = (ticket, request) :: after.pending)
    (responses : after.responses = before.responses.insert ticket response) : after.Ticketed := by
  obtain ⟨distinct, known, unanswered, answered⟩ := ticketed
  rw [pending] at distinct
  have later : ∀ {other asked}, (other, asked) ∈ after.pending →
      (other, asked) ∈ before.pending := fun waits => pending ▸ List.mem_cons_of_mem _ waits
  have first : (ticket, request) ∈ before.pending := pending ▸ List.mem_cons_self
  obtain ⟨fresh, distinct⟩ := List.nodup_cons.mp distinct
  refine
    { distinct := distinct
      posted := fun waits => posted ▸ known (later waits)
      unanswered := fun {other asked} waits => ?_
      answered := fun {other left} found => ?_ }
  · have different : other ≠ ticket := by
      rintro rfl
      exact fresh (List.mem_map.mpr ⟨_, waits, rfl⟩)
    rw [responses, Table.find?_insert_of_ne _ different]
    exact unanswered (later waits)
  · rw [responses] at found
    rw [posted]
    obtain ⟨rfl, -⟩ | ⟨-, found⟩ := Table.of_find?_insert found
    · exact known first
    · exact answered found

end Adapter

theorem Member.Housed.keeps (housed : member.Housed before number)
    (keeps : Adapter.Keeps before after) : member.Housed after number where
  buffer := housed.buffer
  made nothing := housed.made ((keeps.made number).mp nothing)
  registered first := by
    rw [keeps.ways.registrations]
    exact housed.registered first
  holds := housed.holds.congr (keeps.allocator number)
  alignment := (congrArg Allocator.alignment (keeps.allocator number)).trans housed.alignment
  word := by
    rw [Arena.capacity, keeps.allocator number]
    exact housed.word
  length := housed.length

theorem Member.Tracked.keeps (tracked : member.Tracked before)
    (keeps : Adapter.Keeps before after) : member.Tracked after where
  posted get waits := keeps.ways.posted ▸ tracked.posted get waits
  distinct := tracked.distinct
  asks get asked _ pends := tracked.asks get asked (keeps.pending.subset pends)

/-- A window lies in its buffer, so that its place is told by words. -/
theorem Member.Housed.words (housed : member.Housed adapter number) {get : AbandonedGet}
    (waits : get ∈ member.waiting) :
    (member.client.locate get.window).offset.toNat = get.window.offset ∧
      (member.client.locate get.window).length.toNat = get.window.length := by
  have inside := housed.holds.inside (List.mem_map_of_mem waits)
  have word := housed.word
  simp only [Region.stop, wordBound, UInt64.size] at inside word
  constructor
  · exact Nat.mod_eq_of_lt (by omega)
  · exact Nat.mod_eq_of_lt (by omega)

/-- Different waiting gets of a client have disjoint windows. -/
theorem Member.Housed.disjoint (housed : member.Housed adapter number) {get late : AbandonedGet}
    (waits : get ∈ member.waiting) (late_waits : late ∈ member.waiting) (different : get ≠ late) :
    get.window.Disjoint late.window := by
  have apart := List.pairwise_map.mp housed.holds.disjoint
  have symmetric : Std.Symm fun first second : AbandonedGet =>
      first.window.Disjoint second.window := ⟨fun _ _ => Or.symm⟩
  exact apart.forall waits late_waits different

/-- Tickets tell the waiting gets of a client apart. -/
theorem Member.Tracked.eq_of_ticket (tracked : member.Tracked adapter) {get late : AbandonedGet}
    (waits : get ∈ member.waiting) (late_waits : late ∈ member.waiting)
    (same : get.ticket = late.ticket) : get = late :=
  List.inj_on_of_nodup_map tracked.distinct waits late_waits same

/-- What has been received stays if the response and the window do. -/
theorem Member.Received.mono (received : member.Received leased before number)
    (responses : ∀ get ∈ member.gets, ∀ response,
      after.responses.find? get.ticket = some response → response.status = .ok →
        before.responses.find? get.ticket = some response)
    (memory : ∀ get ∈ member.gets, ∀ size ≤ get.window.length,
      (after.arenaOf (.buffer number)).memory.read get.window.offset size =
        (before.arenaOf (.buffer number)).memory.read get.window.offset size) :
    member.Received leased after number := by
  intro get asked response found success
  obtain ⟨bytes, known, length, fits, same⟩ :=
    received get asked response (responses get asked response found success) success
  exact ⟨bytes, known, length, fits, (memory get asked _ fits).trans same⟩

namespace Exchange

theorem Sound.keeps (sound : Sound leased ⟨before, members⟩) (keeps : Adapter.Keeps before after)
    (ticketed : after.Ticketed)
    (received : ∀ {number member}, members.find? number = some member →
      member.Received leased after number)
    (held : ∀ {get}, after.worker = .held get → get.request.location = some get.location ∧
      get.handle.size = get.data.size ∧ leased get.ticket get.request.key get.data) :
    Sound leased ⟨after, members⟩ where
  running := keeps.ways.lifecycle.trans sound.running
  wired := sound.wired.keeps keeps
  ticketed := ticketed
  housed found := (sound.housed found).keeps keeps
  tracked found := (sound.tracked found).keeps keeps
  received := received
  apart := sound.apart
  aims pends := sound.aims (keeps.pending.subset pends)
  held := held

/-- **A write of the worker goes into the window that is reserved for its get.** -/
theorem Sound.target (sound : Sound leased ⟨adapter, members⟩) {get : PendingGet}
    (held : adapter.worker = .held get)
    (target : adapter.fabric.target get.data.size get.location = .ok (.buffer number)) :
    ∃ member late, members.find? number = some member ∧ late ∈ member.waiting ∧
      late.ticket = get.ticket ∧ get.location.offset.toNat = late.window.offset ∧
      get.data.size ≤ late.window.length := by
  obtain ⟨names, -, -⟩ := sound.held held
  have pends : (get.ticket, get.request) ∈ adapter.pending := by
    rw [Adapter.pending, held]
    exact List.mem_cons_self
  obtain ⟨owner, member, late, found, waits, ticket, place⟩ := sound.aims pends names
  obtain ⟨fits, key, first, registered⟩ := Fabric.target_eq_ok_iff.mp target
  rw [place] at fits first
  have housed := sound.housed found
  have same := (housed.registered first).symm.trans registered
  obtain rfl := Holder.buffer.inj (Option.some.inj same)
  obtain ⟨offset, length⟩ := housed.words waits
  exact ⟨member, late, found, waits, ticket, place ▸ offset, length ▸ fits⟩

/-- What clients have received is still there after a write, and what the write brings is received
by the get that it is for. -/
theorem Sound.received_write (sound : Sound leased ⟨before, members⟩) {get : PendingGet}
    {response : Response} {other : Nat}
    (held : before.worker = .held get)
    (target : before.fabric.target get.data.size get.location = .ok (.buffer number))
    (responses : after.responses = before.responses.insert get.ticket response)
    (buffers : after.buffers = before.buffers.insert number
      { before.arenaOf (.buffer number) with memory :=
        (before.arenaOf (.buffer number)).memory.write get.location.offset.toNat get.data })
    (length : response.status = .ok → response.length = get.handle.size.toUInt64)
    (found : members.find? other = some member) : member.Received leased after other := by
  obtain ⟨names, size, known⟩ := sound.held held
  obtain ⟨owner, late, owned, waits, ticket, offset, fits⟩ := sound.target held target
  have housed := sound.housed owned
  intro opened asked left there success
  have opens := Member.leave_mem asked
  have written : (after.arenaOf (.buffer number)).memory =
      (before.arenaOf (.buffer number)).memory.write late.window.offset get.data := by
    rw [← offset, Adapter.arenaOf, buffers, Table.find?_insert_self]
    rfl
  rw [responses, Table.find?_insert] at there
  split at there
  · next same =>
      -- The response is that of the write, so by its ticket the get is the one that is written for.
      obtain rfl := Option.some.inj there
      have mine : opened.leave.ticket = late.ticket := same.trans ticket.symm
      obtain rfl := sound.apart found owned _ opens _ waits mine
      obtain rfl := Option.some.inj (found.symm.trans owned)
      obtain rfl := (sound.tracked found).eq_of_ticket opens waits mine
      have pends : (opened.ticket, get.request) ∈ before.pending := by
        rw [same, Adapter.pending, held]
        exact List.mem_cons_self
      obtain ⟨-, key⟩ := (sound.tracked found).asks opened asked pends
      have inside := housed.holds.inside (List.mem_map_of_mem waits)
      have word := housed.word
      refine ⟨get.data, by rw [same, ← key]; exact known, ?_, fits, ?_⟩
      · rw [length success, size]
        simp only [Region.stop, wordBound, UInt64.size] at inside word
        exact Nat.mod_eq_of_lt (by omega)
      · rw [written]
        exact Memory.read_write_self _ _ _
  · next different =>
      obtain ⟨bytes, leases, told, short, same⟩ := sound.received found opened asked left there success
      refine ⟨bytes, leases, told, short, ?_⟩
      by_cases here : other = number
      · subst here
        obtain rfl := Option.some.inj (found.symm.trans owned)
        -- In the same buffer, the window of another waiting get is apart from the bytes written.
        have elsewhere : opened.leave ≠ late := by
          rintro rfl
          exact different ticket
        have apart := housed.disjoint opens waits elsewhere
        rw [written, Memory.read_write_of_apart]
        · exact same
        · simp only [Region.Disjoint, Region.stop, OpenGet.leave] at apart
          omega
      · rw [Adapter.arenaOf, buffers, Table.find?_insert_of_ne _ here]
        exact same

/-- **Whatever the worker does keeps an exchange sound.** -/
theorem Sound.effect (sound : Sound leased ⟨before, members⟩)
    (effect : Adapter.Effect leased before after) : Sound leased ⟨after, members⟩ := by
  have unread : ∀ {number member}, members.find? number = some member →
      after.responses = before.responses → after.buffers = before.buffers →
        member.Received leased after number := by
    intro number member found responses buffers
    refine (sound.received found).mono (fun _ _ _ there _ => responses ▸ there) fun _ _ _ _ => ?_
    rw [Adapter.arenaOf, Adapter.arenaOf, buffers]
  cases effect with
  | rests ways pending responses buffers held =>
      refine sound.keeps (.of_buffers ways (pending ▸ List.Sublist.refl _) buffers)
        (sound.ticketed.of_eq ways.posted pending responses)
        (fun found => unread found responses buffers) fun here => sound.held (held _ here)
  | @answers ticket request response ways pending responses buffers free refused =>
      have sublist : after.pending.Sublist before.pending := pending ▸ List.sublist_cons_self _ _
      refine sound.keeps (.of_buffers ways sublist buffers)
        (sound.ticketed.answer ways.posted pending responses) (fun {number member} found => ?_)
        fun here => by cases free.symm.trans here
      refine (sound.received found).mono (fun get asked left there success => ?_) fun _ _ _ _ => ?_
      · rw [responses, Table.find?_insert] at there
        split at there
        · next same =>
            obtain rfl := Option.some.inj there
            have pends : (get.ticket, request) ∈ before.pending := by
              rw [pending, same]
              exact List.mem_cons_self
            exact absurd success (refused ((sound.tracked found).asks get asked pends).1)
        · exact there
      · rw [Adapter.arenaOf, Adapter.arenaOf, buffers]
  | @takes get ways pending responses buffers held names size takes =>
      refine sound.keeps (.of_buffers ways (pending ▸ List.Sublist.refl _) buffers)
        (sound.ticketed.of_eq ways.posted pending responses)
        (fun found => unread found responses buffers) fun here => ?_
      obtain rfl := Worker.held.inj (held.symm.trans here)
      exact ⟨names, size, takes⟩
  | @writes get number response ways pending responses free held target buffers length =>
      obtain ⟨owner, -, owned, -, -, -, -⟩ := sound.target held target
      obtain ⟨arena, made⟩ := Option.ne_none_iff_exists'.mp (sound.housed owned).made
      have sublist : after.pending.Sublist before.pending := pending ▸ List.sublist_cons_self _ _
      have keeps : Adapter.Keeps before after :=
        { ways := ways
          pending := sublist
          allocator := fun other => by
            rw [Adapter.arenaOf, buffers, Table.find?_insert]
            split
            · next same => exact same ▸ rfl
            · rfl
          made := fun other => by
            rw [buffers, Table.find?_insert]
            split
            · next same => simp [same, made]
            · rfl
          size := buffers ▸ Table.size_insert_of_found made _ }
      exact sound.keeps keeps (sound.ticketed.answer ways.posted pending responses)
        (fun found => sound.received_write held target responses buffers length found)
        fun here => by cases free.symm.trans here

end Exchange

end Remote

end LeaseCache
