import LeaseCache.Proofs.Remote.Revising

/-!
# The parts of a client's calls

A call of a client consists of what it does before it waits and what it does
after that. Each of these parts, and the connection of a new client, keeps an
exchange sound.
-/

set_option autoImplicit false

namespace LeaseCache.Remote

variable {leased : Nat → Key → ByteArray → Prop} {adapter before : Adapter} {exchange : Exchange}
  {members later : Table Nat Member} {member : Member} {client : Client} {number : Nat}

/-- An adapter that is running takes every request, under the next ticket. -/
theorem Adapter.submit_of_running (running : adapter.lifecycle = .running)
    (connection : Connection) (request : Request) :
    adapter.submit connection request =
      some ({ adapter with
        queue := adapter.queue ++ [.request adapter.posted connection request]
        posted := adapter.posted + 1 }, adapter.posted) := by
  rw [submit, running]
  rfl

/-! ## Windows of a client -/

theorem Client.freeWindow_eq {window : Region} {arena : Arena} (mine : client.buffer = number)
    (freed : (adapter.arenaOf (.buffer number)).free window = .ok arena) :
    client.freeWindow adapter window =
      .ok { adapter with buffers := adapter.buffers.insert number arena } := by
  rw [← mine] at freed ⊢
  rw [freeWindow, Client.arena, freed]
  rfl

/-- A window whose response is missing stays with the client. -/
theorem Client.reclaimWindow_of_absent (client : Client) {get : AbandonedGet}
    (left : before.responses.find? get.ticket = none) :
    client.reclaimWindow before get = before := by
  rw [reclaimWindow, Adapter.takeResponse, left]
  rfl

/-- A window whose response is there is given back, and the response is taken. -/
theorem Client.reclaimWindow_of_found {get : AbandonedGet} {response : Response} {arena : Arena}
    (left : before.responses.find? get.ticket = some response) (mine : client.buffer = number)
    (freed : (before.arenaOf (.buffer number)).free get.window = .ok arena) :
    client.reclaimWindow before get = { before with
      buffers := before.buffers.insert number arena
      responses := before.responses.erase get.ticket } := by
  have frees : client.freeWindow
      { before with responses := before.responses.erase get.ticket } get.window = _ :=
    freeWindow_eq mine freed
  rw [reclaimWindow, Adapter.takeResponse, left]
  dsimp only [Option.map]
  rw [frees]
  rfl

/-- Clearing away gets that have been given up posts no request. -/
theorem Client.posted_reclaim (client : Client) (adapter : Adapter) :
    (client.reclaim adapter).1.posted = adapter.posted := by
  have one : ∀ (adapter : Adapter) (get : AbandonedGet),
      (client.reclaimWindow adapter get).posted = adapter.posted := by
    intro adapter get
    unfold reclaimWindow Adapter.takeResponse
    cases adapter.responses.find? get.ticket with
    | none => rfl
    | some response =>
        dsimp only [Option.map]
        unfold freeWindow
        split <;> rfl
  unfold reclaim
  dsimp only
  induction client.abandoned generalizing adapter with
  | nil => rfl
  | cons get rest ih => exact (ih _).trans (one adapter get)

/-- A client with other gets that it has given up. -/
def Member.keeping (member : Member) (abandoned : List AbandonedGet) : Member :=
  { member with client := { member.client with abandoned := abandoned } }

namespace Exchange

/-- A client clears away its gets that have been given up, one after the other. -/
theorem Sound.clear (todo kept : List AbandonedGet) (sound : Sound leased ⟨before, members⟩)
    (found : members.find? number = some (member.keeping (kept ++ todo))) :
    Sound leased ⟨todo.foldl member.client.reclaimWindow before,
      members.insert number (member.keeping
        (kept ++ todo.filter fun get => !before.responses.contains get.ticket))⟩ := by
  induction todo generalizing before members kept with
  | nil =>
      have revises := sound.revises_perm found ⟨rfl, rfl, rfl⟩ (List.Perm.refl _)
        (List.Subset.refl _) id (Nat.le_refl _)
      exact sound.revise found revises
  | cons get rest ih =>
      rw [List.foldl_cons]
      cases left : before.responses.find? get.ticket with
      | none =>
          have absent : before.responses.contains get.ticket = false := by
            rw [Table.contains, left]
            rfl
          rw [member.client.reclaimWindow_of_absent left, List.filter_cons_of_pos (by rw [absent]; rfl)]
          have cleared := ih (kept ++ [get]) sound (by rwa [List.append_assoc])
          rwa [List.append_assoc] at cleared
      | some response =>
          have split : (member.keeping (kept ++ get :: rest)).waiting.Perm
              (get :: (member.keeping (kept ++ rest)).waiting) :=
            (List.perm_middle.append_left _).trans List.perm_middle
          have alike : (member.keeping (kept ++ get :: rest)).client.Alike
              (member.keeping (kept ++ rest)).client := ⟨rfl, rfl, rfl⟩
          obtain ⟨arena, freed, closed⟩ :=
            sound.close found left alike split (List.Subset.refl _)
          have present : before.responses.contains get.ticket = true := by
            rw [Table.contains, left]
            rfl
          have others : rest.filter (fun late =>
              !(before.responses.erase get.ticket).contains late.ticket) =
                rest.filter fun late => !before.responses.contains late.ticket := by
            -- Taking the response of one get does not count as an answer to a later one: the gets
            -- of a client have different tickets.
            refine List.filter_congr fun late waits => ?_
            have distinct := (split.map AbandonedGet.ticket).nodup_iff.mp
              (sound.tracked found).distinct
            have different : late.ticket ≠ get.ticket := by
              intro same
              refine (List.nodup_cons.mp distinct).1 (List.mem_map.mpr ⟨late, ?_, same⟩)
              exact List.mem_append_right _ (List.mem_append_right _ waits)
            rw [Table.contains, Table.contains, Table.find?_erase_of_ne _ different]
          have mine : member.client.buffer = number := (sound.housed found).buffer
          rw [Client.reclaimWindow_of_found left mine freed,
            List.filter_cons_of_neg (by rw [present]; exact Bool.false_ne_true)]
          have cleared := ih kept closed (Table.find?_insert_self _ _ _)
          dsimp only at cleared
          rw [others] at cleared
          refine cleared.congr fun name => ?_
          simp only [Table.find?_insert]
          split <;> rfl

/-- Clearing away the gets whose responses are there keeps an exchange sound. -/
theorem Sound.reclaim (sound : Sound leased ⟨before, members⟩)
    (found : members.find? number = some member) :
    Sound leased ⟨(member.client.reclaim before).1,
      members.insert number { member with client := (member.client.reclaim before).2 }⟩ :=
  sound.clear member.client.abandoned [] found

/-! ## Settling a get -/

theorem perm_settled {get : OpenGet} (asked : get ∈ member.gets) :
    member.waiting.Perm
      (get.leave :: ((member.gets.erase get).map OpenGet.leave ++ member.client.abandoned)) :=
  ((List.perm_cons_erase asked).map OpenGet.leave).append_right _

/-- A client that settles an answered get takes the value out of the window and gives the window
back. -/
theorem Sound.settle_answered (sound : Sound leased ⟨before, members⟩)
    (found : members.find? number = some member) {get : OpenGet} (asked : get ∈ member.gets)
    {response : Response} (left : before.responses.find? get.ticket = some response) :
    ∃ after, member.client.settle before get =
        (after, member.client, member.client.receive before get.window response) ∧
      Sound leased ⟨after, members.insert number { member with gets := member.gets.erase get }⟩ := by
  have alike : member.client.Alike { member with gets := member.gets.erase get }.client :=
    ⟨rfl, rfl, rfl⟩
  obtain ⟨arena, freed, closed⟩ :=
    sound.close found left alike (perm_settled asked) List.erase_subset
  refine ⟨_, ?_, closed⟩
  have frees : member.client.freeWindow
      { before with responses := before.responses.erase get.ticket } get.window = _ :=
    Client.freeWindow_eq (sound.housed found).buffer freed
  rw [Client.settle, Adapter.takeResponse, left]
  dsimp only [Option.map]
  rw [Client.endGet, frees]
  rfl

/-- A client that settles a get without an answer gives it up, with its window. -/
theorem Sound.settle_absent (sound : Sound leased ⟨before, members⟩)
    (found : members.find? number = some member) {get : OpenGet} (asked : get ∈ member.gets)
    (absent : before.responses.find? get.ticket = none) :
    member.client.settle before get =
        (before, { member.client with abandoned := member.client.abandoned ++ [get.leave] },
          .error (.getTimedOut get.id.toNat)) ∧
      Sound leased ⟨before, members.insert number
        { member with
          client.abandoned := member.client.abandoned ++ [get.leave]
          gets := member.gets.erase get }⟩ := by
  have alike : member.client.Alike
      { member.client with abandoned := member.client.abandoned ++ [get.leave] } :=
    ⟨rfl, rfl, rfl⟩
  have waits : member.waiting.Perm ((member.gets.erase get).map OpenGet.leave ++
      (member.client.abandoned ++ [get.leave])) := by
    rw [← List.append_assoc]
    exact (perm_settled asked).trans (List.perm_append_singleton _ _).symm
  have gives : Revises before number member
      { member with
        client.abandoned := member.client.abandoned ++ [get.leave]
        gets := member.gets.erase get }
      before.buffers before.responses before.posted :=
    sound.revises_perm found alike waits List.erase_subset id (Nat.le_refl _)
  refine ⟨?_, sound.revise found gives⟩
  rw [Client.settle, Adapter.takeResponse, absent]
  rfl

theorem Sound.settle (sound : Sound leased exchange)
    (found : exchange.members.find? number = some member) (get : OpenGet) :
    Sound leased (exchange.settle number member get) := by
  obtain ⟨before, members⟩ := exchange
  unfold Exchange.settle
  split
  · next asked =>
      cases left : before.responses.find? get.ticket with
      | none =>
          obtain ⟨settled, gave⟩ := sound.settle_absent found asked left
          rw [settled]
          exact gave
      | some response =>
          obtain ⟨after, settled, closed⟩ := sound.settle_answered found asked left
          rw [settled]
          exact closed
  · exact sound

/-! ## Asking for a value -/

/-- A client reserves a window for the get that it asks for next. -/
theorem Sound.revises_open (sound : Sound leased ⟨before, members⟩)
    (found : members.find? number = some member) {next : Member} {opened : OpenGet} {arena : Arena}
    (reserved : (before.arenaOf (.buffer number)).allocate member.client.config.windowSize =
      .ok (opened.window, arena))
    (ticket : opened.ticket = before.posted) (alike : member.client.Alike next.client)
    (gets : next.gets = opened :: member.gets)
    (abandoned : next.client.abandoned = member.client.abandoned) :
    Revises before number member next (before.buffers.insert number arena) before.responses
      (before.posted + 1) := by
  have housed := sound.housed found
  have waiting : next.waiting = opened.leave :: member.waiting := by
    rw [Member.waiting, gets, abandoned]
    rfl
  have holds := housed.holds.allocate reserved
  obtain ⟨capacity, alignment⟩ := Arena.capacity_allocate reserved
  obtain ⟨-, length, allocator, -, grown⟩ := Arena.eq_of_allocate reserved
  obtain ⟨old, made⟩ := Option.ne_none_iff_exists'.mp housed.made
  have here : Adapter.arenaOf { before with buffers := before.buffers.insert number arena }
      (.buffer number) = arena :=
    congrArg (Option.getD · _) (Table.find?_insert_self _ _ _)
  have cases : ∀ get ∈ next.waiting, get = opened.leave ∨ get ∈ member.waiting := by
    intro get waits
    rw [waiting] at waits
    exact List.mem_cons.mp waits
  refine
    { alike := alike
      housed :=
        { buffer := alike.buffer.trans housed.buffer
          made := fun nothing => ?_
          registered := fun {key} first => housed.registered (alike.descriptor ▸ first)
          holds := ?_
          alignment := by rw [here, alignment]; exact housed.alignment
          word := by rw [here, Arena.capacity, capacity]; exact housed.word
          length := fun get waits => ?_ }
      memory := by rw [here, grown]
      others := fun other => Table.find?_insert_of_ne _ other _
      size := Table.size_insert_of_found made _
      responses := id
      posted := Nat.le_succ _
      distinct := ?_
      waits := fun get waits => ?_
      gets := fun get asked => ?_
      stays := fun get waits => Or.inl (waiting ▸ List.mem_cons_of_mem _ waits) }
  · rw [Table.find?_insert_self] at nothing
    cases nothing
  · rw [here, Member.windows, waiting]
    exact holds
  · rw [alike.config]
    rcases cases get waits with rfl | earlier
    · exact length
    · exact housed.length get earlier
  · rw [waiting, List.map_cons]
    refine List.nodup_cons.mpr ⟨fun taken => ?_, (sound.tracked found).distinct⟩
    obtain ⟨get, waits, same⟩ := List.mem_map.mp taken
    have posted := (sound.tracked found).posted get waits
    exact absurd (same.trans ticket) (Nat.ne_of_lt posted)
  · rcases cases get waits with rfl | earlier
    · exact Or.inr ⟨Nat.le_of_eq ticket.symm, Nat.lt_succ_of_le (Nat.le_of_eq ticket)⟩
    · exact Or.inl earlier
  · rw [gets] at asked
    rcases List.mem_cons.mp asked with rfl | earlier
    · exact Or.inr (Nat.le_of_eq ticket.symm)
    · exact Or.inl earlier

/-- What comes of asking: the state of the exchange, and whether there is a request. -/
theorem Sound.ask_cases (sound : Sound leased ⟨before, members⟩)
    (found : members.find? number = some member) (key : Key) :
    ∃ after client outcome, member.client.ask before key = (after, client, outcome) ∧
      member.client.Alike client ∧
      client.abandoned = (member.client.reclaim before).2.abandoned ∧
      match outcome with
      | .error _ => Sound leased ⟨after, members.insert number { member with client := client }⟩
      | .ok opened => opened.key = key ∧ opened.ticket = before.posted ∧
          Sound leased ⟨after, members.insert number
            { member with client := client, gets := opened :: member.gets }⟩ := by
  have cleared := sound.reclaim found
  have alike : member.client.Alike (member.client.reclaim before).2 := ⟨rfl, rfl, rfl⟩
  have posted := member.client.posted_reclaim before
  unfold Client.ask
  generalize member.client.reclaim before = state at cleared alike posted ⊢
  obtain ⟨middle, client⟩ := state
  dsimp only at cleared alike posted ⊢
  have here : (members.insert number { member with client := client }).find? number =
      some { member with client := client } := Table.find?_insert_self _ _ _
  obtain rfl : client.buffer = number := (cleared.housed here).buffer
  cases reserved : (client.arena middle).allocate client.config.windowSize with
  | error error => exact ⟨middle, client, _, rfl, alike, rfl, cleared⟩
  | ok taken =>
      obtain ⟨window, arena⟩ := taken
      let opened : OpenGet := ⟨client.nextRequest, key, window, middle.posted⟩
      let asking : Client := { client with nextRequest := client.nextRequest + 1 }
      let next : Member := { member with client := asking, gets := opened :: member.gets }
      let asked : Request :=
        { id := opened.id, operation := .get, key := key, location := some (client.locate window) }
      have takes : (middle.arenaOf (.buffer client.buffer)).allocate client.config.windowSize =
          .ok (opened.window, arena) := reserved
      have opens : Revises middle client.buffer { member with client := client } next
          (middle.buffers.insert client.buffer arena) middle.responses (middle.posted + 1) :=
        cleared.revises_open here takes rfl ⟨rfl, rfl, rfl⟩ rfl rfl
      have aims : ∀ {location}, asked.location = some location → ∃ get ∈ next.waiting,
          get.ticket = middle.posted ∧ location = next.client.locate get.window := fun names =>
        ⟨opened.leave, List.mem_cons_self, rfl, (Option.some.inj names).symm⟩
      have asks : ∀ get ∈ next.gets, get.ticket = middle.posted →
          asked.operation = .get ∧ asked.key = get.key := by
        intro get mine same
        rcases List.mem_cons.mp mine with rfl | earlier
        · exact ⟨rfl, rfl⟩
        · have older := (cleared.tracked here).posted _ (Member.leave_mem earlier)
          exact absurd same (Nat.ne_of_lt older)
      have submitted := cleared.submit here opens client.connection aims asks
      have running : (middle.setArena arena (.buffer client.buffer)).lifecycle = .running :=
        cleared.running
      dsimp only [Client.takeId]
      rw [Adapter.submit_of_running running]
      refine ⟨_, asking, _, rfl, ⟨alike.config, alike.buffer, alike.descriptor⟩, rfl, rfl,
        posted, ?_⟩
      refine submitted.congr fun name => ?_
      simp only [Table.find?_insert]
      split <;> rfl

theorem Sound.ask (sound : Sound leased exchange)
    (found : exchange.members.find? number = some member) (key : Key) :
    Sound leased (exchange.ask number member key) := by
  obtain ⟨before, members⟩ := exchange
  obtain ⟨after, client, outcome, asked, -, -, sound⟩ := sound.ask_cases found key
  rw [Exchange.ask, asked]
  cases outcome with
  | error error => exact sound
  | ok opened => exact sound.2.2

/-! ## Other requests -/

/-- A request that names no window keeps an exchange sound. -/
theorem Sound.send (sound : Sound leased exchange)
    (found : exchange.members.find? number = some member) (operation : Operation) (key : Key)
    (payload : Option ByteArray) :
    Sound leased (exchange.send number member operation key payload) := by
  obtain ⟨before, members⟩ := exchange
  unfold Exchange.send
  dsimp only [Client.takeId]
  rw [Adapter.submit_of_running sound.running]
  have revises : Revises before number member
      { client := { member.client with nextRequest := member.client.nextRequest + 1 }
        gets := member.gets
        sends := (member.client.nextRequest, before.posted) :: member.sends }
      before.buffers before.responses (before.posted + 1) :=
    sound.revises_perm found ⟨rfl, rfl, rfl⟩ (List.Perm.refl _) (List.Subset.refl _) id
      (Nat.le_succ _)
  refine sound.submit found revises _ (fun {location} names => ?_) fun get asked same => ?_
  · cases names
  · have posted := (sound.tracked found).posted _ (Member.leave_mem asked)
    exact absurd same (Nat.ne_of_lt posted)

/-- A response that is taken is no response to a get that waits. -/
theorem Sound.collect (sound : Sound leased exchange)
    (found : exchange.members.find? number = some member) (id : UInt64) (ticket : Nat) :
    Sound leased (exchange.collect number member id ticket) := by
  obtain ⟨before, members⟩ := exchange
  have alike : member.client.Alike member.client := ⟨rfl, rfl, rfl⟩
  have revises : ∀ {responses : Table Nat Response},
      (∀ {ticket response}, responses.find? ticket = some response →
        before.responses.find? ticket = some response) →
      Revises before number member { member with sends := member.sends.erase (id, ticket) }
        before.buffers responses before.posted := fun fewer =>
    sound.revises_perm found alike (List.Perm.refl _) (List.Subset.refl _) fewer (Nat.le_refl _)
  unfold Exchange.collect Adapter.collect Adapter.takeResponse
  split
  · cases left : before.responses.find? ticket with
    | none => exact sound.revise found (revises fun there => there)
    | some response =>
        exact sound.revise found (revises fun there => (Table.of_find?_erase there).2)
  · exact sound

end Exchange

/-! ## Connecting -/

/-- What connecting does: a new buffer, a new registration and a new connection. -/
theorem Client.of_connect_ok {after : Adapter} {config : ClientConfig}
    (connected : Client.connect adapter config = .ok (after, client)) :
    ∃ arena dispatcher, Arena.create config.bufferSize windowAlignment = .ok arena ∧
      client.buffer = adapter.buffers.size ∧ client.abandoned = [] ∧
      client.descriptor =
        (adapter.fabric.register (.buffer adapter.buffers.size) arena.capacity).2 ∧
      after = { adapter with
        dispatcher := dispatcher
        buffers := adapter.buffers.insert adapter.buffers.size arena
        fabric := (adapter.fabric.register (.buffer adapter.buffers.size) arena.capacity).1 } := by
  unfold Client.connect at connected
  cases made : Arena.create config.bufferSize windowAlignment with
  | error error =>
      rw [made] at connected
      cases connected
  | ok arena =>
      rw [made] at connected
      cases added : adapter.addBuffer arena with
      | error error =>
          simp only [added, Except.mapError, bind, Except.bind] at connected
          cases connected
      | ok result =>
          obtain ⟨registered, buffer, descriptor⟩ := result
          obtain ⟨rfl, rfl, rfl⟩ := Adapter.of_addBuffer_ok added
          simp only [added, Except.mapError, bind, Except.bind, pure, Except.pure] at connected
          obtain ⟨rfl, rfl⟩ := Prod.mk.inj (Except.ok.inj connected)
          exact ⟨arena, _, rfl, rfl, rfl, rfl, rfl⟩

/-- A new client has its buffer, without reservations. -/
theorem Member.housed_of_connect {after : Adapter} {config : ClientConfig}
    (connected : Client.connect adapter config = .ok (after, client))
    (word : config.bufferSize < wordBound) :
    Member.Housed after adapter.buffers.size ⟨client, [], []⟩ := by
  obtain ⟨arena, dispatcher, made, buffer, abandoned, descriptor, rfl⟩ :=
    Client.of_connect_ok connected
  have found : (adapter.buffers.insert adapter.buffers.size arena).find? adapter.buffers.size =
      some arena := Table.find?_insert_self _ _ _
  have here : ∀ changed : Adapter,
      changed.buffers = adapter.buffers.insert adapter.buffers.size arena →
        changed.arenaOf (.buffer adapter.buffers.size) = arena := by
    intro changed buffers
    rw [Adapter.arenaOf, buffers, found]
    rfl
  have waiting : Member.waiting ⟨client, [], []⟩ = [] := abandoned
  have windows : Member.windows ⟨client, [], []⟩ = [] := congrArg _ waiting
  obtain ⟨-, -, fresh⟩ := Arena.create_eq_ok_iff.mp made
  refine
    { buffer := buffer
      made := fun nothing => by cases found.symm.trans nothing
      registered := fun {key} first => ?_
      holds := ?_
      alignment := ?_
      word := ?_
      length := fun get waits => ?_ }
  · rw [descriptor] at first
    have newest : key = adapter.fabric.nextKey := by
      rw [Descriptor.firstKey?, Fabric.register] at first
      dsimp only at first
      rw [List.head?_map, Option.map_map] at first
      obtain ⟨_, -, rfl⟩ := Option.map_eq_some_iff.mp first
      rfl
    exact newest ▸ Table.find?_insert_self _ _ _
  · rw [here _ rfl, windows, fresh]
    exact ⟨Allocator.tiled_fresh _ ⟨6, by decide, rfl⟩, List.Perm.refl _⟩
  · rw [here _ rfl, fresh]
    rfl
  · rw [here _ rfl, fresh]
    exact word
  · rw [waiting] at waits
    cases waits

namespace Exchange

/-- **A new client** has a number and a key that no other client has. -/
theorem Sound.admit (sound : Sound leased ⟨before, members⟩) {after : Adapter}
    {config : ClientConfig} (connected : Client.connect before config = .ok (after, client))
    (word : config.bufferSize < wordBound)
    (keys : before.fabric.nextKey.toNat + 1 < wordBound) :
    Sound leased ⟨after, members.insert client.buffer ⟨client, [], []⟩⟩ := by
  have home := Member.housed_of_connect connected word
  obtain ⟨arena, dispatcher, made, buffer, abandoned, -, rfl⟩ := Client.of_connect_ok connected
  rw [buffer]
  have idle : Member.waiting ⟨client, [], []⟩ = [] := abandoned
  have cases : ∀ {name state},
      (members.insert before.buffers.size ⟨client, [], []⟩).find? name = some state →
        name = before.buffers.size ∧ state = ⟨client, [], []⟩ ∨ members.find? name = some state :=
    fun here => (Table.of_find?_insert here).imp_right And.right
  have next : (before.fabric.nextKey + 1).toNat = before.fabric.nextKey.toNat + 1 := by
    rw [UInt64.toNat_add]
    exact Nat.mod_eq_of_lt keys
  have others : ∀ {name state}, members.find? name = some state →
      (before.buffers.insert before.buffers.size arena).find? name = before.buffers.find? name :=
    fun found => Table.find?_insert_of_ne _ (sound.number_ne found) _
  refine
    { running := sound.running
      wired := ⟨fun {key holder} found => ?_, fun {name arena} found => ?_⟩
      ticketed :=
        ⟨sound.ticketed.distinct, sound.ticketed.posted, sound.ticketed.unanswered,
          sound.ticketed.answered⟩
      housed := fun {name state} here => ?_
      tracked := fun {name state} here => ?_
      received := fun {name state} here => ?_
      apart := fun {name other first second} here there get waits late late_waits same => ?_
      aims := fun {ticket request location} pends names => ?_
      held := sound.held }
  · dsimp only [Fabric.register] at found ⊢
    rw [next]
    obtain ⟨rfl, -⟩ | ⟨-, found⟩ := Table.of_find?_insert found
    · exact Nat.lt_succ_self _
    · exact Nat.lt_succ_of_lt (sound.wired.keys found)
  · dsimp only at found ⊢
    rw [Table.size_insert_of_absent sound.wired.absent]
    obtain ⟨rfl, -⟩ | ⟨-, found⟩ := Table.of_find?_insert found
    · exact Nat.lt_succ_self _
    · exact Nat.lt_succ_of_lt (sound.wired.numbers found)
  · rcases cases here with ⟨rfl, rfl⟩ | earlier
    · exact home
    · refine (sound.housed earlier).of_eq (fun {key} registered => ?_) (others earlier)
      have older : key ≠ before.fabric.nextKey := by
        rintro rfl
        exact absurd (sound.wired.keys registered) (Nat.lt_irrefl _)
      exact (Table.find?_insert_of_ne _ older _).trans registered
  · rcases cases here with ⟨rfl, rfl⟩ | earlier
    · exact Member.tracked_of_idle idle
    · obtain ⟨posted, distinct, asks⟩ := sound.tracked earlier
      exact ⟨posted, distinct, asks⟩
  · rcases cases here with ⟨rfl, rfl⟩ | earlier
    · intro get asked
      cases asked
    · refine (sound.received earlier).mono (fun _ _ _ left _ => left) fun _ _ _ _ => ?_
      rw [Adapter.arenaOf, others earlier]
      rfl
  · rcases cases here with ⟨rfl, rfl⟩ | earlier
    · rw [idle] at waits
      cases waits
    · rcases cases there with ⟨rfl, rfl⟩ | old
      · rw [idle] at late_waits
        cases late_waits
      · exact sound.apart earlier old get waits late late_waits same
  · obtain ⟨owner, state, get, owned, waits⟩ := sound.aims pends names
    exact ⟨owner, state, get,
      (Table.find?_insert_of_ne _ (sound.number_ne owned) _).trans owned, waits⟩

theorem Sound.connect (sound : Sound leased exchange) (config : ClientConfig) :
    Sound leased (exchange.connect config) := by
  obtain ⟨before, members⟩ := exchange
  unfold Exchange.connect
  split
  · next admitted =>
      cases connected : Client.connect before config with
      | error error => exact sound
      | ok result => exact sound.admit connected admitted.1 admitted.2
  · exact sound

end Exchange

end LeaseCache.Remote
