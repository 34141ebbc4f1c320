import LeaseCache.Config.Text
import LeaseCache.Proofs.Json.Abridging
import LeaseCache.Proofs.Json.Characters

/-!
# Settings that are written in part

A settings file may leave any fields out, on any level, and write the others in any order. Then
it gives the settings that have the written values where something is written and the default
values everywhere else (`overlay`), for each record on its own: in an object for the adapter that
lacks a field the field has its default value, while without the object there is no adapter.

This is proved for each record from what is left of its object (`ofJson?_of_abridges`), and for
the server for every text that has the tokens of what is left (`ServerConfig.overlays`). The
watermarks are not written, since their numbers are read with a rounding.
-/

set_option autoImplicit false

namespace LeaseCache

open Json (Abridges)

/-! ## Default values for what is not written -/

/-- Arena settings with the default values for all fields but the written ones. -/
def ArenaConfig.overlay (config : ArenaConfig) (written : List String → Bool) : ArenaConfig :=
  let initial : ArenaConfig := {}
  { capacity := if written ["capacity"] then config.capacity else initial.capacity
    alignment := if written ["alignment"] then config.alignment else initial.alignment }

/-- Cache settings with the default values for all fields but the written ones. -/
def CacheConfig.overlay (config : CacheConfig) (written : List String → Bool) : CacheConfig :=
  let initial : CacheConfig := {}
  { arena :=
      if written ["arena"] then config.arena.overlay fun path => written ("arena" :: path)
      else initial.arena
    maxObjectSize :=
      if written ["max_object_size"] then config.maxObjectSize else initial.maxObjectSize
    watermarks := if written ["watermarks"] then config.watermarks else initial.watermarks }

/-- Fabric settings with the default values for all fields but the written ones. -/
def FabricConfig.overlay (config : FabricConfig) (written : List String → Bool) : FabricConfig :=
  let initial : FabricConfig := {}
  { node := if written ["node_id"] then config.node else initial.node
    domains := if written ["num_domains"] then config.domains else initial.domains }

/-- Adapter settings with the default values for all fields but the written ones. -/
def AdapterConfig.overlay (config : AdapterConfig) (written : List String → Bool) :
    AdapterConfig :=
  let initial : AdapterConfig := {}
  { workers := if written ["worker_threads"] then config.workers else initial.workers
    queueDepth := if written ["queue_depth"] then config.queueDepth else initial.queueDepth }

/-- Server settings with the default values for all fields but the written ones. -/
def ServerConfig.overlay (config : ServerConfig) (written : List String → Bool) : ServerConfig :=
  let initial : ServerConfig := {}
  { node := if written ["node_id"] then config.node else initial.node
    listenAddress :=
      if written ["listen_addr"] then config.listenAddress else initial.listenAddress
    cache :=
      if written ["cache"] then config.cache.overlay fun path => written ("cache" :: path)
      else initial.cache
    fabric :=
      if written ["transport"] then config.fabric.overlay fun path => written ("transport" :: path)
      else initial.fabric
    adapter :=
      if written ["rdma"] then
        config.adapter.map fun adapter => adapter.overlay fun path => written ("rdma" :: path)
      else initial.adapter
    idleTimeout :=
      if written ["idle_timeout_secs"] then config.idleTimeout else initial.idleTimeout }

/-! ### Everything is written -/

theorem ArenaConfig.overlay_toJson (config : ArenaConfig) :
    config.overlay config.toJson.holds = config := by
  simp [overlay, toJson, Json.holds_ofMembers, Table.lookup, Json.holds]

theorem CacheConfig.overlay_toJson (config : CacheConfig) :
    config.overlay config.toJson.holds = config := by
  simp [overlay, toJson, Json.holds_ofMembers, Table.lookup, Json.holds,
    config.arena.overlay_toJson]

theorem FabricConfig.overlay_toJson (config : FabricConfig) :
    config.overlay config.toJson.holds = config := by
  simp [overlay, toJson, Json.holds_ofMembers, Table.lookup, Json.holds]

theorem AdapterConfig.overlay_toJson (config : AdapterConfig) :
    config.overlay config.toJson.holds = config := by
  simp [overlay, toJson, Json.holds_ofMembers, Table.lookup, Json.holds]

theorem ServerConfig.overlay_toJson (config : ServerConfig) :
    config.overlay config.toJson.holds = config := by
  have adapter : (config.adapter.map fun adapter =>
      adapter.overlay (Json.ofOption AdapterConfig.toJson config.adapter).holds) =
        config.adapter := by
    cases config.adapter with
    | none => rfl
    | some adapter => exact congrArg some adapter.overlay_toJson
  simp [overlay, toJson, Json.holds_ofMembers, Table.lookup, Json.holds,
    config.cache.overlay_toJson, config.fabric.overlay_toJson, adapter]

/-! ## Settings in range -/

/-- The size and the alignment of an arena are words. -/
structure ArenaConfig.InRange (config : ArenaConfig) : Prop where
  capacity : config.capacity < wordBound
  alignment : config.alignment < wordBound

/-- The settings of a cache are words, apart from its watermarks. -/
structure CacheConfig.InRange (config : CacheConfig) : Prop where
  arena : config.arena.InRange
  maxObjectSize : config.maxObjectSize < wordBound

/-- The node of a fabric has a number of a node, and the number of its domains is a word. -/
structure FabricConfig.InRange (config : FabricConfig) : Prop where
  node : config.node < nodeBound
  domains : config.domains < wordBound

/-- The numbers of workers and of places in the queue are words. -/
structure AdapterConfig.InRange (config : AdapterConfig) : Prop where
  workers : config.workers < wordBound
  queueDepth : config.queueDepth < wordBound

/-- The numbers of the settings are those that the fields of the server can hold. -/
structure ServerConfig.InRange (config : ServerConfig) : Prop where
  node : config.node < nodeBound
  cache : config.cache.InRange
  fabric : config.fabric.InRange
  adapter : ∀ adapter ∈ config.adapter, adapter.InRange
  idleTimeout : config.idleTimeout < wordBound

/-! ## Reading what is left of a record -/

variable {part : Json}

theorem ArenaConfig.plain_toJson (config : ArenaConfig) : config.toJson.Plain := by
  refine Json.plain_ofMembers ?_
  simp only [List.forall_mem_cons]
  exact ⟨.number _, .number _, fun member none => by cases none⟩

theorem CacheConfig.plain_toJson (config : CacheConfig) (unmarked : config.watermarks = none) :
    config.toJson.Plain := by
  have marks : (Json.ofOption Watermarks.toJson config.watermarks).Plain := unmarked ▸ .null
  refine Json.plain_ofMembers ?_
  simp only [List.forall_mem_cons]
  exact ⟨config.arena.plain_toJson, .number _, marks, fun member none => by cases none⟩

theorem FabricConfig.plain_toJson (config : FabricConfig) : config.toJson.Plain := by
  refine Json.plain_ofMembers ?_
  simp only [List.forall_mem_cons]
  exact ⟨.number _, .number _, fun member none => by cases none⟩

theorem AdapterConfig.plain_toJson (config : AdapterConfig) : config.toJson.Plain := by
  refine Json.plain_ofMembers ?_
  simp only [List.forall_mem_cons]
  exact ⟨.number _, .number _, fun member none => by cases none⟩

theorem ArenaConfig.ofJson?_of_abridges {config : ArenaConfig} (range : config.InRange)
    (abridged : config.toJson.Abridges part) :
    ofJson? part = some (config.overlay part.holds) := by
  obtain ⟨fields, read, given⟩ :=
    abridged.fields? ["capacity", "alignment"] (by simp) (by simp)
  rw [ofJson?, read, Option.bind_eq_bind, Option.bind_some]
  dsimp only
  rw [given.withDefault_ofNat (rfl : Table.lookup "capacity" _ = _) range.capacity,
    given.withDefault_ofNat (rfl : Table.lookup "alignment" _ = _) range.alignment]
  rfl

theorem CacheConfig.ofJson?_of_abridges {config : CacheConfig} (range : config.InRange)
    (unmarked : config.watermarks = none) (abridged : config.toJson.Abridges part) :
    ofJson? part = some (config.overlay part.holds) := by
  obtain ⟨fields, read, given⟩ :=
    abridged.fields? ["arena", "max_object_size", "watermarks"] (by simp) (by simp)
  have marks : ∀ value, (Json.ofOption Watermarks.toJson config.watermarks).Abridges value →
      value.toOption? Watermarks.ofJson? = some config.watermarks := by
    intro value abridged
    rw [unmarked] at abridged ⊢
    obtain rfl : value = .null := abridged.eq_of_leaf fun _ => Json.noConfusion
    rfl
  rw [ofJson?, read, Option.bind_eq_bind, Option.bind_some]
  dsimp only
  rw [given.withDefault (rfl : Table.lookup "arena" _ = _) config.arena.overlay _
      fun _ => ArenaConfig.ofJson?_of_abridges range.arena,
    given.withDefault_ofNat (rfl : Table.lookup "max_object_size" _ = _) range.maxObjectSize,
    given.withDefault (rfl : Table.lookup "watermarks" _ = _) (fun _ => config.watermarks) _ marks]
  rfl

theorem FabricConfig.ofJson?_of_abridges {config : FabricConfig} (range : config.InRange)
    (abridged : config.toJson.Abridges part) :
    ofJson? part = some (config.overlay part.holds) := by
  obtain ⟨fields, read, given⟩ :=
    abridged.fields? ["node_id", "num_domains"] (by simp) (by simp)
  rw [ofJson?, read, Option.bind_eq_bind, Option.bind_some]
  dsimp only
  rw [given.withDefault_ofNat (rfl : Table.lookup "node_id" _ = _) range.node,
    given.withDefault_ofNat (rfl : Table.lookup "num_domains" _ = _) range.domains]
  rfl

theorem AdapterConfig.ofJson?_of_abridges {config : AdapterConfig} (range : config.InRange)
    (abridged : config.toJson.Abridges part) :
    ofJson? part = some (config.overlay part.holds) := by
  obtain ⟨fields, read, given⟩ :=
    abridged.fields? ["worker_threads", "queue_depth"] (by simp) (by simp)
  rw [ofJson?, read, Option.bind_eq_bind, Option.bind_some]
  dsimp only
  rw [given.withDefault_ofNat (rfl : Table.lookup "worker_threads" _ = _) range.workers,
    given.withDefault_ofNat (rfl : Table.lookup "queue_depth" _ = _) range.queueDepth]
  rfl

namespace ServerConfig

variable {config : ServerConfig}

/-- **What is left of server settings is read as the settings with default values** for all that
is left out. -/
theorem ofJson?_of_abridges (range : config.InRange) (unmarked : config.cache.watermarks = none)
    (abridged : config.toJson.Abridges part) :
    ofJson? part = some (config.overlay part.holds) := by
  obtain ⟨fields, read, given⟩ := abridged.fields?
    ["node_id", "listen_addr", "cache", "transport", "rdma", "idle_timeout_secs"]
    (by simp) (by simp)
  have adapter : ∀ value, (Json.ofOption AdapterConfig.toJson config.adapter).Abridges value →
      value.toOption? AdapterConfig.ofJson? =
        some (config.adapter.map fun adapter => adapter.overlay value.holds) :=
    fun value abridged => abridged.toOption? (fun _ => ⟨_, rfl⟩) fun adapter held _ =>
      AdapterConfig.ofJson?_of_abridges (range.adapter adapter held)
  rw [ofJson?, read, Option.bind_eq_bind, Option.bind_some]
  dsimp only
  rw [given.withDefault_ofNat (rfl : Table.lookup "node_id" _ = _) range.node,
    given.withDefault (rfl : Table.lookup "listen_addr" _ = _) (fun _ => config.listenAddress) _
      fun _ => Abridges.toText?,
    given.withDefault (rfl : Table.lookup "cache" _ = _) config.cache.overlay _
      fun _ => CacheConfig.ofJson?_of_abridges range.cache unmarked,
    given.withDefault (rfl : Table.lookup "transport" _ = _) config.fabric.overlay _
      fun _ => FabricConfig.ofJson?_of_abridges range.fabric,
    given.withDefault (rfl : Table.lookup "rdma" _ = _)
      (fun written => config.adapter.map fun adapter => adapter.overlay written) _ adapter,
    given.withDefault_ofNat (rfl : Table.lookup "idle_timeout_secs" _ = _) range.idleTimeout]
  rfl

/-! ## Texts of settings -/

theorem plain_toJson (unmarked : config.cache.watermarks = none) : config.toJson.Plain := by
  have cache : config.cache.toJson.Plain := config.cache.plain_toJson unmarked
  have adapter : (Json.ofOption AdapterConfig.toJson config.adapter).Plain := by
    cases config.adapter with
    | none => exact .null
    | some adapter => exact adapter.plain_toJson
  refine Json.plain_ofMembers ?_
  simp only [List.forall_mem_cons]
  exact ⟨.number _, .string _, cache, config.fabric.plain_toJson, adapter, .number _,
    fun member none => by cases none⟩

/-- A file that holds a text is read as the value of the text. -/
theorem ofFile_toUTF8 {text : String} {value : Json}
    (parsed : Json.parse? (Json.textBytes text) = some value) (read : ofJson? value = some config) :
    ofFile (some text.toUTF8) = .ok config := by
  have valid : String.fromUTF8? text.toUTF8 = some text := dif_pos text.isValidUTF8
  rw [Json.textBytes] at parsed
  rw [ofFile, valid, parsed, Option.bind_some, read]
  rfl

/-- A settings file overlays the default values. -/
structure OverlaysDefaults (config : ServerConfig) : Prop where
  /-- Every text that has the tokens of what is left of the settings, with any blanks between them,
  gives the settings with the default values for all that is left out. -/
  read : ∀ part, config.toJson.Abridges part → ∀ text : String,
    Json.tokens? (Json.textBytes text) = some part.tokens →
      ofFile (some text.toUTF8) = .ok (config.overlay part.holds)
  /-- So does the text of what is left, and it has the default values of the settings. -/
  printed : ∀ part, config.toJson.Abridges part →
    ofFile (some part.toText.toUTF8) = .ok (config.overlay part.holds)
  /-- The text of the settings gives the settings. -/
  whole : ofFile (some config.toText.toUTF8) = .ok config

theorem overlaysDefaults (range : config.InRange) (unmarked : config.cache.watermarks = none) :
    config.OverlaysDefaults := by
  have read : ∀ part, config.toJson.Abridges part → ∀ text : String,
      Json.tokens? (Json.textBytes text) = some part.tokens →
        ofFile (some text.toUTF8) = .ok (config.overlay part.holds) := by
    intro part abridged text tokens
    have plain := abridged.plain (plain_toJson unmarked)
    exact ofFile_toUTF8 (plain.parse?_of_tokens? tokens)
      (ofJson?_of_abridges range unmarked abridged)
  have printed : ∀ part, config.toJson.Abridges part →
      ofFile (some part.toText.toUTF8) = .ok (config.overlay part.holds) := by
    intro part abridged
    have plain := abridged.plain (plain_toJson unmarked)
    refine read part abridged part.toText ?_
    rw [plain.textBytes_toText]
    exact plain.tokens?_print
  refine ⟨read, printed, ?_⟩
  have whole := printed config.toJson (.whole _)
  rwa [config.overlay_toJson] at whole

/-- Settings with an adapter, under an address that has to be escaped. -/
def distant : ServerConfig where
  node := 7
  listenAddress := "\"här\"\n"
  cache := { arena := { capacity := 4096 }, maxObjectSize := 128 }
  adapter := some { workers := 2, queueDepth := 9 }
  idleTimeout := 30

/-- A part of the settings in another order, without one of the fields of the adapter. -/
def distantPart : Json :=
  .ofMembers [
    ("rdma", .ofMembers [("queue_depth", .ofNat 9)]),
    ("cache", .ofMembers [("max_object_size", .ofNat 128)]),
    ("listen_addr", .ofText "\"här\"\n")]

/-- The part as somebody writes it, with blanks. -/
def distantText : String :=
  "\x7b\n  \"rdma\": \x7b \"queue_depth\": 9 \x7d,\n" ++
  "  \"cache\": \x7b\"max_object_size\" :128\x7d,\n" ++
  "\t\"listen_addr\":\"\\\"här\\\"\\n\"\n\x7d\n"

/-- What is written of the distant settings has its values, the rest has the default values. -/
theorem overlaysDefaults_distant :
    (distant.InRange ∧ distant.cache.watermarks = none) ∧
    distant.toJson.Abridges distantPart ∧
    ofFile (some distantText.toUTF8) = .ok {
      listenAddress := "\"här\"\n"
      cache := { maxObjectSize := 128 }
      adapter := some { queueDepth := 9 } } ∧
    ofFile (some distant.toText.toUTF8) = .ok distant := by
  have range : distant.InRange := by
    refine ⟨by decide, ⟨⟨by decide, by decide⟩, by decide⟩, ⟨by decide, by decide⟩, ?_, by decide⟩
    intro adapter held
    obtain rfl := Option.some.inj held
    exact ⟨by decide, by decide⟩
  have overlays := overlaysDefaults range rfl
  have left : distant.toJson.Abridges distantPart := by
    refine Json.abridges_ofMembers (by decide) ?_
    simp only [List.forall_mem_cons]
    refine ⟨⟨_, rfl, Json.abridges_ofMembers (by decide) ?_⟩,
      ⟨_, rfl, Json.abridges_ofMembers (by decide) ?_⟩, ⟨_, rfl, .whole _⟩,
      fun member none => by cases none⟩
    · exact List.forall_mem_singleton.mpr ⟨_, rfl, .whole _⟩
    · exact List.forall_mem_singleton.mpr ⟨_, rfl, .whole _⟩
  have tokens : Json.tokens? (Json.textBytes distantText) = some distantPart.tokens := by
    decide +kernel
  exact ⟨⟨range, rfl⟩, left, overlays.read distantPart left distantText tokens, overlays.whole⟩

end ServerConfig

end LeaseCache
