import LeaseCache.CommandLine.Manager
import LeaseCache.CommandLine.RemoteClient
import LeaseCache.Proofs.Arena.Rounding

/-!
# Options in megabytes

A number of megabytes is turned into bytes by multiplications. They give the number times a
megabyte if this product is a word (`megabytes?_eq_some_iff`), and where it is none the
program breaks off. So no number is ever taken for a smaller one that happens to have the
same remainder.

A manager that accepts its settings has exactly what its options say. The remote client
allows for objects of a quarter of its arena, which the largest value bounds. So an arena of
more than 256 megabytes is refused, however well it fits the words (`exact_megabytes`,
`not_exact_remote`).
-/

set_option autoImplicit false

namespace LeaseCache.CommandLine

variable {count bytes : Nat} {content : Option ByteArray} {file config : ServerConfig}

/-- The bytes in a megabyte. -/
def megabyte : Nat := 2 ^ 20

/-! ## Numbers of megabytes -/

/-- **A number of megabytes has the bytes that it says, if they are a word.** -/
theorem megabytes?_eq_some_iff :
    megabytes? count = some bytes ↔ bytes = count * megabyte ∧ count * megabyte < wordBound := by
  have product : count * 1024 * 1024 = count * megabyte := Nat.mul_assoc count 1024 1024
  rw [megabytes?, product]
  by_cases word : count * megabyte < wordBound
  · simp [word, eq_comm]
  · simp [word]

/-- A number of megabytes whose bytes are no word has none. -/
theorem megabytes?_of_large (large : wordBound ≤ count * megabyte) : megabytes? count = none := by
  cases given : megabytes? count with
  | none => rfl
  | some bytes => exact absurd (megabytes?_eq_some_iff.mp given).2 (Nat.not_lt_of_le large)

/-! ## The settings of a manager -/

namespace ManagerOptions

variable {options : ManagerOptions} {given : Option Nat} {absent : Nat}

/-- An option that is given has the bytes that it says. -/
theorem eq_of_bytes? (named : given = some count) (found : bytes? given absent = some bytes) :
    bytes = count * megabyte ∧ count * megabyte < wordBound := by
  subst named
  exact megabytes?_eq_some_iff.mp found

/-- An option has bytes if they are a word when it is given. -/
theorem exists_bytes? (absent : Nat)
    (word : ∀ count, given = some count → count * megabyte < wordBound) :
    ∃ bytes, bytes? given absent = some bytes := by
  cases given with
  | none => exact ⟨absent, rfl⟩
  | some count => exact ⟨_, megabytes?_eq_some_iff.mpr ⟨rfl, word count rfl⟩⟩

/-- The capacity and the largest object of a manager are the bytes of its options. -/
theorem bytes?_of_override? (overridden : options.override? file = some config) :
    bytes? options.capacityMegabytes file.cache.arena.capacity =
        some config.cache.arena.capacity ∧
      bytes? options.maxObjectMegabytes file.cache.maxObjectSize =
        some config.cache.maxObjectSize := by
  obtain ⟨capacity, first, rest⟩ := Option.bind_eq_some_iff.mp overridden
  obtain ⟨maxObjectSize, second, made⟩ := Option.bind_eq_some_iff.mp rest
  obtain rfl := Option.some.inj made
  exact ⟨first, second⟩

/-- Options override settings if their bytes are words. -/
theorem exists_override? (file : ServerConfig)
    (capacity : ∀ count, options.capacityMegabytes = some count → count * megabyte < wordBound)
    (maxObject : ∀ count, options.maxObjectMegabytes = some count →
      count * megabyte < wordBound) :
    ∃ config, options.override? file = some config := by
  obtain ⟨_, first⟩ := exists_bytes? file.cache.arena.capacity capacity
  obtain ⟨_, second⟩ := exists_bytes? file.cache.maxObjectSize maxObject
  simp only [override?, first, second]
  exact ⟨_, rfl⟩

/-- Options do not override settings if the bytes of one of them are no word. -/
theorem override?_of_large (large : wordBound ≤ count * megabyte)
    (given : options.capacityMegabytes = some count ∨ options.maxObjectMegabytes = some count) :
    options.override? file = none := by
  cases overridden : options.override? file with
  | none => rfl
  | some config =>
      obtain ⟨first, second⟩ := bytes?_of_override? overridden
      rcases given with given | given
      · exact absurd (eq_of_bytes? given first).2 (Nat.not_lt_of_le large)
      · exact absurd (eq_of_bytes? given second).2 (Nat.not_lt_of_le large)

/-- A manager accepts the settings of its file with its options in their place, if they validate. -/
theorem settings_eq_ok_iff : options.settings content = .ok config ↔
    ∃ file, options.readFile content = .ok file ∧ options.override? file = some config ∧
      config.cache.validate = .ok () := by
  rw [settings]
  cases options.readFile content with
  | error text => simp [bind, Except.bind, Except.mapError]
  | ok file =>
      simp only [bind, Except.bind, Except.mapError, Except.ok.injEq, exists_eq_left']
      cases options.override? file with
      | none => simp [throw, throwThe, MonadExceptOf.throw]
      | some made =>
          dsimp only
          cases valid : made.cache.validate with
          | ok =>
              constructor
              · rintro accepted
                obtain rfl := Except.ok.inj accepted
                exact ⟨rfl, valid⟩
              · rintro ⟨same, -⟩
                exact congrArg Except.ok (Option.some.inj same)
          | error error =>
              constructor
              · intro accepted
                cases accepted
              · rintro ⟨same, also⟩
                obtain rfl := Option.some.inj same
                cases valid.symm.trans also

/-- A manager whose options cannot override its file breaks off at the product. -/
theorem settings_of_override?_none (read : options.readFile content = .ok file)
    (none : options.override? file = none) : options.settings content = .error .product := by
  rw [settings, read]
  simp only [bind, Except.bind, Except.mapError, none]
  rfl

end ManagerOptions

/-! ## The settings of a remote client -/

namespace RemoteOptions

variable {options : RemoteOptions}

/-- The largest arena, in megabytes, a quarter of which is no larger than the largest value. -/
def largestArena : Nat := 256

/-- The settings of a cache with an arena of a number of megabytes and objects of a quarter of
it. -/
def quartered (count : Nat) : CacheConfig where
  arena := ⟨count * megabyte, 1⟩
  maxObjectSize := count * 2 ^ 18

/-- The settings of the cache of a remote client. -/
theorem cacheConfig?_of_word (word : options.capacityMegabytes * megabyte < wordBound) :
    options.cacheConfig? = some (quartered options.capacityMegabytes) := by
  have quarter : options.capacityMegabytes * megabyte / 4 = options.capacityMegabytes * 2 ^ 18 := by
    rw [megabyte]
    omega
  rw [cacheConfig?, megabytes?_eq_some_iff.mpr ⟨rfl, word⟩, Option.map_some, quarter]
  rfl

/-- Without an alignment, what is not larger than the arena fits into it. -/
theorem objectFits_of_le {capacity limit : Nat} (word : limit < wordBound)
    (le : limit ≤ capacity) :
    CacheConfig.objectFits { arena := ⟨capacity, 1⟩, maxObjectSize := limit } = true := by
  rw [CacheConfig.objectFits, nextMultiple?]
  simp only [Nat.mod_one, if_true, if_pos word]
  exact decide_eq_true le

/-- **An arena is accepted exactly if a quarter of it is no larger than the largest value.** -/
theorem validate_quartered_iff (positive : 1 ≤ count) (word : count * megabyte < wordBound) :
    (quartered count).validate = .ok () ↔ count ≤ largestArena := by
  have value : maxValueLength = largestArena * 2 ^ 18 := rfl
  have quarter : count * 2 ^ 18 ≤ count * megabyte := Nat.mul_le_mul_left _ (by decide)
  rw [CacheConfig.validate_eq_ok_iff, value]
  constructor
  · rintro ⟨-, -, ⟨-, limit⟩, -⟩
    exact Nat.le_of_mul_le_mul_right limit (by decide)
  · intro small
    exact ⟨Nat.mul_pos positive (by decide), rfl,
      ⟨Nat.mul_pos positive (by decide), Nat.mul_le_mul_right _ small⟩,
      objectFits_of_le (Nat.lt_of_le_of_lt quarter word) quarter, fun marks none => by cases none⟩

/-- A larger arena is refused for its objects. -/
theorem validate_quartered_of_large (large : largestArena < count) :
    (quartered count).validate = .error (.invalidSize (.objectLimit (count * 2 ^ 18))) := by
  have value : maxValueLength = largestArena * 2 ^ 18 := rfl
  have capacity : count * megabyte ≠ 0 :=
    Nat.ne_of_gt (Nat.mul_pos (Nat.zero_lt_of_lt large) (by decide))
  have limit : largestArena * 2 ^ 18 < count * 2 ^ 18 :=
    Nat.mul_lt_mul_of_pos_right large (by decide)
  rw [quartered, CacheConfig.validate]
  simp only [if_neg capacity, value, limit, or_true, if_true]
  rfl

/-- A remote client whose arena is too large for its objects does not start. -/
theorem startAdapter_of_large (large : largestArena < options.capacityMegabytes)
    (word : options.capacityMegabytes * megabyte < wordBound) :
    options.startAdapter = .error (.failure
      (CacheError.invalidSize (.objectLimit (options.capacityMegabytes * 2 ^ 18))).message) := by
  rw [startAdapter, cacheConfig?_of_word word]
  simp only [Cache.create, validate_quartered_of_large large]
  rfl

/-- A remote client breaks off if the bytes of its arena are no word. -/
theorem startAdapter_of_overflow (large : wordBound ≤ options.capacityMegabytes * megabyte) :
    options.startAdapter = .error .product := by
  rw [startAdapter, cacheConfig?, megabytes?_of_large large]
  rfl

end RemoteOptions

/-! ## All options in megabytes -/

/-- What the options in megabytes of a manager with a settings file and of a remote client come
to. -/
structure ExactMegabytes (manager : ManagerOptions) (content : Option ByteArray)
    (client : RemoteOptions) : Prop where
  /-- A manager that accepts its settings has the capacity that its options say. -/
  capacity : ∀ config count, manager.settings content = .ok config →
    manager.capacityMegabytes = some count →
      config.cache.arena.capacity = count * megabyte ∧ count * megabyte < wordBound
  /-- So it is with the largest object. -/
  objectLimit : ∀ config count, manager.settings content = .ok config →
    manager.maxObjectMegabytes = some count →
      config.cache.maxObjectSize = count * megabyte ∧ count * megabyte < wordBound
  /-- A manager breaks off at a number whose bytes are no word. -/
  refused : ∀ file count, manager.readFile content = .ok file →
    manager.capacityMegabytes = some count ∨ manager.maxObjectMegabytes = some count →
      wordBound ≤ count * megabyte → manager.settings content = .error .product
  /-- If the bytes of its options are words, a manager accepts exactly the settings that
  validate. -/
  accepted : ∀ file, manager.readFile content = .ok file →
    (∀ count, manager.capacityMegabytes = some count → count * megabyte < wordBound) →
    (∀ count, manager.maxObjectMegabytes = some count → count * megabyte < wordBound) →
      ∃ config, manager.override? file = some config ∧
        (manager.settings content = .ok config ↔ config.cache.validate = .ok ())
  /-- A remote client has the capacity that its options say if the bytes are a word, and objects of
  a quarter of it. It accepts exactly the arenas a quarter of which is no larger than the largest
  value. -/
  remote : 1 ≤ client.capacityMegabytes → client.capacityMegabytes * megabyte < wordBound →
    ∃ config, client.cacheConfig? = some config ∧
      config.arena.capacity = client.capacityMegabytes * megabyte ∧
      config.maxObjectSize = client.capacityMegabytes * 2 ^ 18 ∧
      (config.validate = .ok () ↔ client.capacityMegabytes ≤ RemoteOptions.largestArena)
  /-- It does not start with a larger arena, for the size of the objects. -/
  remoteRefused : client.capacityMegabytes * megabyte < wordBound →
    RemoteOptions.largestArena < client.capacityMegabytes →
      client.startAdapter = .error (.failure (CacheError.invalidSize
        (.objectLimit (client.capacityMegabytes * 2 ^ 18))).message)
  /-- It breaks off at a number whose bytes are no word. -/
  remoteOverflow : wordBound ≤ client.capacityMegabytes * megabyte →
    client.startAdapter = .error .product

/-- **Options in megabytes mean what they say**, in any settings file, but the remote client refuses
arenas of more than 256 megabytes. -/
theorem exact_megabytes (manager : ManagerOptions) (content : Option ByteArray)
    (client : RemoteOptions) : ExactMegabytes manager content client where
  capacity config count accepted given := by
    obtain ⟨file, -, overridden, -⟩ := ManagerOptions.settings_eq_ok_iff.mp accepted
    exact ManagerOptions.eq_of_bytes? given (ManagerOptions.bytes?_of_override? overridden).1
  objectLimit config count accepted given := by
    obtain ⟨file, -, overridden, -⟩ := ManagerOptions.settings_eq_ok_iff.mp accepted
    exact ManagerOptions.eq_of_bytes? given (ManagerOptions.bytes?_of_override? overridden).2
  refused file count read given large :=
    ManagerOptions.settings_of_override?_none read (ManagerOptions.override?_of_large large given)
  accepted file read capacity maxObject := by
    obtain ⟨config, overridden⟩ := ManagerOptions.exists_override? file capacity maxObject
    refine ⟨config, overridden, ?_⟩
    rw [ManagerOptions.settings_eq_ok_iff]
    constructor
    · rintro ⟨_, -, -, valid⟩
      exact valid
    · intro valid
      exact ⟨file, read, overridden, valid⟩
  remote positive word := ⟨_, RemoteOptions.cacheConfig?_of_word word, rfl, rfl,
    RemoteOptions.validate_quartered_iff positive word⟩
  remoteRefused word large := RemoteOptions.startAdapter_of_large large word
  remoteOverflow := RemoteOptions.startAdapter_of_overflow

/-- The options of a manager with an arena of a number of megabytes. -/
def withArena (count : Nat) : ManagerOptions where
  configPath := none
  node := none
  listenAddress := some "nowhere"
  capacityMegabytes := some count
  maxObjectMegabytes := some 1
  alignment := none
  remote := false
  remoteWorkers := 4
  logFilter := "info"
  workers := 4

/-- The options of a remote client with an arena of a number of megabytes. -/
def demoArena (count : Nat) : RemoteOptions := ⟨count, 1, 4, 64, .demo⟩

/-- A manager that is given an arena and objects of a megabyte has what it is given, one that is
given 2^44 + 64 megabytes breaks off, and a remote client starts with the largest arena. -/
theorem exact_megabytes_accepted :
    (∃ config, (withArena 128).settings none = .ok config ∧
      config.cache.arena.capacity = 128 * megabyte ∧
      config.cache.maxObjectSize = 1 * megabyte) ∧
    (withArena 17592186044480).settings none = .error .product ∧
    ∃ config, (demoArena 256).cacheConfig? = some config ∧ config.validate = .ok () := by
  have kept := exact_megabytes (withArena 128) none (demoArena 256)
  obtain ⟨config, overridden, accepts⟩ := kept.accepted {} rfl
    (by rintro _ ⟨⟩; decide) (by rintro _ ⟨⟩; decide)
  obtain rfl := Option.some.inj overridden
  have accepted := accepts.mpr (by decide)
  obtain ⟨client, made, -, -, valid⟩ := kept.remote (by decide) (by decide)
  exact ⟨⟨_, accepted, (kept.capacity _ 128 accepted rfl).1, (kept.objectLimit _ 1 accepted rfl).1⟩,
    (exact_megabytes (withArena 17592186044480) none (demoArena 256)).refused {} 17592186044480 rfl
      (.inl rfl) (by decide),
    client, made, valid.mpr (by decide)⟩

/-- The words of a remote client that is asked for 257 megabytes. -/
def demoWords : List String := ["--capacity-mb", "257", "demo"]

/-- The bytes of 257 megabytes are a word, but a remote client refuses them and does not start. -/
theorem not_exact_remote : (RemoteOptions.ofWords demoWords).toOption = some (demoArena 257) ∧
    257 * megabyte < wordBound ∧
    (∃ config, (demoArena 257).cacheConfig? = some config ∧
      config.validate = .error (.invalidSize (.objectLimit 67371008))) ∧
    (demoArena 257).report = ⟨1, "",
      "Error: invalid size: max object size 67371008 must be in 1..=67108864\n"⟩ := by
  have word : (demoArena 257).capacityMegabytes * megabyte < wordBound := by decide
  refine ⟨by decide +kernel, word, ⟨_, RemoteOptions.cacheConfig?_of_word word,
    RemoteOptions.validate_quartered_of_large (by decide)⟩, ?_⟩
  rw [RemoteOptions.report, RemoteOptions.startAdapter_of_large (by decide) word]
  decide +kernel

end LeaseCache.CommandLine
