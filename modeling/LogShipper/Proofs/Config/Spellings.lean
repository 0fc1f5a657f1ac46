import LogShipper.Config.Basic
import LogShipper.Proofs.Json.Decoding

/-!
# The ways to write a configuration

A configuration is an object or an array, and so are the parts of it that have parts of their own.
The slots of each say what its fields are called, what they hold where they are left out, and which
documents stand for what they hold. Only the endpoint, its host and the keys must be given.

Covers the reading and writing of `SinkConfig`, `Endpoint`, `PoolConfig` and `RetryPolicy`.

Results:
* `Config.reads_back`: a configuration reads back from the text that it is written as, and so does
  each part of it.
* `Config.spellings_agree`: every document that stands for a configuration reads as it, and none that
  breaks a rule is read.
-/

namespace LogShipper

open Json Json.Record Json.Script

/-! ## Secure connections -/

namespace Tls

/-- The fields. -/
def slots : List (Slot Tls) := [
  .plain "ca_cert" (some none) caCert (IsOption IsText),
  .plain "client_cert" (some none) clientCert (IsOption IsText),
  .plain "client_key" (some none) clientKey (IsOption IsText),
  .plain "insecure" (some false) insecure IsBool]

theorem reads_path? : Reads (.option .path) (IsOption IsText) :=
  reads_option (reads_textAs _) (textAs_null_ne _)

theorem describes : Describes slots shape where
  fits :=
    .cons (fits_plain (.inl rfl) reads_path? (fun _ _ => rfl) (by simp [slots])) <|
    .cons (fits_plain (.inl rfl) reads_path? (fun _ _ => rfl) (by simp [slots])) <|
    .cons (fits_plain (.inl rfl) reads_path? (fun _ _ => rfl) (by simp [slots])) <|
    .cons (fits_plain (.inl rfl) reads_bool (fun _ _ => rfl) (by simp [slots])) .nil
  distinct := by decide
  ext := by
    rintro ⟨⟩ ⟨⟩ h
    simpa [slots] using h

theorem exists_compact (t : Tls) : ∃ d : Script, d.chars = t.toJson.chars ∧ Spells slots t d :=
  Record.exists_compact (Describes.distinct describes) <|
    .cons ⟨rfl, exists_text? _⟩ <| .cons ⟨rfl, exists_text? _⟩ <| .cons ⟨rfl, exists_text? _⟩ <|
    .cons ⟨rfl, exists_bool _⟩ .nil

end Tls

/-! ## Endpoints -/

namespace Endpoint

/-- The fields. The host must be given. -/
def slots : List (Slot Endpoint) := [
  .plain "host" none host IsText,
  .plain "port" (some 6379) port fun n => IsInt n.toNat,
  .plain "password" (some none) password (IsOption IsText),
  .plain "database" (some 0) database fun n => IsInt n.toInt,
  .part "tls" (some none) tls (IsOption (Spells Tls.slots)) (Flawed Tls.slots)]

theorem describes : Describes slots shape where
  fits :=
    .cons (fits_plain (.inr rfl) (reads_textAs _) (fun _ _ => rfl) (by simp [slots])) <|
    .cons (fits_plain (.inl rfl) reads_uint16 (fun _ _ => rfl) (by simp [slots])) <|
    .cons (fits_plain (.inl rfl) (reads_option (reads_textAs _) (textAs_null_ne _))
      (fun _ _ => rfl) (by simp [slots])) <|
    .cons (fits_plain (.inl rfl) reads_int64 (fun _ _ => rfl) (by simp [slots])) <|
    .cons (fits_part (.inl rfl)
      (reads_option Tls.describes.reads fun l b _ => read_atom_ne Tls.shape l b)
      (refuses_option Tls.describes.refuses fun _ l hd => hd.node_ne_atom l)
      (fun _ _ => rfl) (by simp [slots])) .nil
  distinct := by decide
  ext := by
    rintro ⟨⟩ ⟨⟩ h
    simpa [slots] using h

theorem exists_tls (o : Option Tls) : ∃ d : Script,
    d.chars = Value.chars (match o with
      | none => .null
      | some t => t.toJson) ∧ IsOption (Spells Tls.slots) o d := by
  cases o with
  | none => exact exists_null
  | some t => exact t.exists_compact

theorem exists_compact (e : Endpoint) :
    ∃ d : Script, d.chars = e.toJson.chars ∧ Spells slots e d :=
  Record.exists_compact (Describes.distinct describes) <|
    .cons ⟨rfl, exists_text _⟩ <| .cons ⟨rfl, exists_uint16 _⟩ <| .cons ⟨rfl, exists_text? _⟩ <|
    .cons ⟨rfl, exists_int64 _⟩ <| .cons ⟨rfl, exists_tls _⟩ .nil

end Endpoint

/-! ## Pools -/

namespace PoolConfig

/-- The fields. -/
def slots : List (Slot PoolConfig) := [
  .plain "max_total" (some 8) maxTotal fun n => IsInt n.toNat,
  .plain "max_idle" (some 8) maxIdle fun n => IsInt n.toNat,
  .plain "min_idle" (some 0) minIdle fun n => IsInt n.toNat,
  .plain "test_on_borrow" (some true) testOnBorrow IsBool,
  .plain "test_on_return" (some false) testOnReturn IsBool,
  .plain "test_while_idle" (some true) testWhileIdle IsBool,
  .plain "eviction_batch_size" (some 3) evictionBatchSize fun n => IsInt n.toNat,
  .plain "eviction_interval_ms" (some 30000) evictionIntervalMs fun n => IsInt n.toNat,
  .plain "min_evictable_idle_ms" (some 60000) minEvictableIdleMs fun n => IsInt n.toNat,
  .plain "max_wait_ms" (some 2000) maxWaitMs fun n => IsInt n.toNat]

theorem describes : Describes slots shape where
  fits :=
    .cons (fits_plain (.inl rfl) reads_uint32 (fun _ _ => rfl) (by simp [slots])) <|
    .cons (fits_plain (.inl rfl) reads_uint32 (fun _ _ => rfl) (by simp [slots])) <|
    .cons (fits_plain (.inl rfl) reads_uint32 (fun _ _ => rfl) (by simp [slots])) <|
    .cons (fits_plain (.inl rfl) reads_bool (fun _ _ => rfl) (by simp [slots])) <|
    .cons (fits_plain (.inl rfl) reads_bool (fun _ _ => rfl) (by simp [slots])) <|
    .cons (fits_plain (.inl rfl) reads_bool (fun _ _ => rfl) (by simp [slots])) <|
    .cons (fits_plain (.inl rfl) reads_uint32 (fun _ _ => rfl) (by simp [slots])) <|
    .cons (fits_plain (.inl rfl) reads_uint64 (fun _ _ => rfl) (by simp [slots])) <|
    .cons (fits_plain (.inl rfl) reads_uint64 (fun _ _ => rfl) (by simp [slots])) <|
    .cons (fits_plain (.inl rfl) reads_uint64 (fun _ _ => rfl) (by simp [slots])) .nil
  distinct := by decide
  ext := by
    rintro ⟨⟩ ⟨⟩ h
    simpa [slots] using h

theorem exists_compact (c : PoolConfig) :
    ∃ d : Script, d.chars = c.toJson.chars ∧ Spells slots c d :=
  Record.exists_compact (Describes.distinct describes) <|
    .cons ⟨rfl, exists_uint32 _⟩ <| .cons ⟨rfl, exists_uint32 _⟩ <| .cons ⟨rfl, exists_uint32 _⟩ <|
    .cons ⟨rfl, exists_bool _⟩ <| .cons ⟨rfl, exists_bool _⟩ <| .cons ⟨rfl, exists_bool _⟩ <|
    .cons ⟨rfl, exists_uint32 _⟩ <| .cons ⟨rfl, exists_uint64 _⟩ <| .cons ⟨rfl, exists_uint64 _⟩ <|
    .cons ⟨rfl, exists_uint64 _⟩ .nil

end PoolConfig

/-! ## Retry policies -/

namespace RetryPolicy

/-- The fields. -/
def slots : List (Slot RetryPolicy) := [
  .plain "max_attempts" (some 3) maxAttempts fun n => IsInt n.toNat,
  .plain "retry_delay_ms" (some 100) retryDelayMs fun n => IsInt n.toNat]

theorem describes : Describes slots shape where
  fits :=
    .cons (fits_plain (.inl rfl) reads_uint32 (fun _ _ => rfl) (by simp [slots])) <|
    .cons (fits_plain (.inl rfl) reads_uint64 (fun _ _ => rfl) (by simp [slots])) .nil
  distinct := by decide
  ext := by
    rintro ⟨⟩ ⟨⟩ h
    simpa [slots] using h

theorem exists_compact (p : RetryPolicy) :
    ∃ d : Script, d.chars = p.toJson.chars ∧ Spells slots p d :=
  Record.exists_compact (Describes.distinct describes) <|
    .cons ⟨rfl, exists_uint32 _⟩ <| .cons ⟨rfl, exists_uint64 _⟩ .nil

end RetryPolicy

/-! ## Configurations -/

namespace Config

/-- The fields. The endpoint and the keys must be given. -/
def slots : List (Slot Config) := [
  .plain "name" (some "list-sink") name IsText,
  .part "endpoint" none endpoint (Spells Endpoint.slots) (Flawed Endpoint.slots),
  .plain "keys" none keys (IsList IsText),
  .part "pool" (some {}) pool (Spells PoolConfig.slots) (Flawed PoolConfig.slots),
  .part "retry" (some {}) retry (Spells RetryPolicy.slots) (Flawed RetryPolicy.slots),
  .plain "io_timeout_ms" (some 2000) ioTimeoutMs fun n => IsInt n.toNat]

theorem describes : Describes slots shape where
  fits :=
    .cons (fits_plain (.inl rfl) (reads_textAs _) (fun _ _ => rfl) (by simp [slots])) <|
    .cons (fits_part (.inr rfl) Endpoint.describes.reads Endpoint.describes.refuses
      (fun _ _ => rfl) (by simp [slots])) <|
    .cons (fits_plain (.inr rfl) (reads_list (reads_textAs _)) (fun _ _ => rfl)
      (by simp [slots])) <|
    .cons (fits_part (.inl rfl) PoolConfig.describes.reads PoolConfig.describes.refuses
      (fun _ _ => rfl) (by simp [slots])) <|
    .cons (fits_part (.inl rfl) RetryPolicy.describes.reads RetryPolicy.describes.refuses
      (fun _ _ => rfl) (by simp [slots])) <|
    .cons (fits_plain (.inl rfl) reads_uint64 (fun _ _ => rfl) (by simp [slots])) .nil
  distinct := by decide
  ext := by
    rintro ⟨⟩ ⟨⟩ h
    simpa [slots] using h

theorem exists_compact (c : Config) :
    ∃ d : Script, d.chars = c.toJson.chars ∧ Spells slots c d :=
  Record.exists_compact (Describes.distinct describes) <|
    .cons ⟨rfl, exists_text _⟩ <| .cons ⟨rfl, c.endpoint.exists_compact⟩ <|
    .cons ⟨rfl, exists_array c.keys fun s _ => exists_text s⟩ <|
    .cons ⟨rfl, c.pool.exists_compact⟩ <| .cons ⟨rfl, c.retry.exists_compact⟩ <|
    .cons ⟨rfl, exists_uint64 _⟩ .nil

/-- **A configuration reads back** from the text that it is written as, and so does each part of
it. -/
theorem reads_back :
    (∀ c : Config, ofJson c.toJson.render = .ok c) ∧
      (∀ e : Endpoint, readText Endpoint.shape.read e.toJson.render = .ok e) ∧
      (∀ c : PoolConfig, readText PoolConfig.shape.read c.toJson.render = .ok c) ∧
      ∀ p : RetryPolicy, readText RetryPolicy.shape.read p.toJson.render = .ok p := by
  refine ⟨fun c => ?_, fun e => Endpoint.describes.readText_render e.exists_compact,
    fun c => PoolConfig.describes.readText_render c.exists_compact,
    fun p => RetryPolicy.describes.readText_render p.exists_compact⟩
  rw [ofJson, describes.readText_render c.exists_compact]
  rfl

/-- **All spellings of a configuration agree.** The text that a configuration is written as is that
of a document that stands for it. Every document that stands for it reads as it: with the members of
each object in any order, members with unknown names between them, white space around tokens,
fields left out that hold their defaults, and arrays in place of objects. No document is read that
leaves out the endpoint, its host or the keys, or that gives a field twice. -/
theorem spellings_agree :
    (∀ c : Config, ∃ d : Script, d.text = c.toJson.render ∧ Spells slots c d) ∧
      (∀ (c : Config) (d : Script), Spells slots c d → ofJson d.text = .ok c) ∧
      ∀ d : Script, Flawed slots d → ∃ e, ofJson d.text = .error e := by
  refine ⟨fun c => ?_, fun c d hd => ?_, fun d hd => ?_⟩
  · obtain ⟨d, hchars, hd⟩ := c.exists_compact
    exact ⟨d, congrArg String.ofList hchars, hd⟩
  · rw [ofJson, readText_text, describes.read_eq hd]
    rfl
  · obtain ⟨p, hp⟩ := describes.read_error hd
    refine ⟨.document p, ?_⟩
    rw [ofJson, readText_text, hp]
    rfl

/-- Members in another order, one with an unknown name, white space, and an array for an object;
then an endpoint without a host. -/
theorem spellings_agree_shuffled :
    ofJson ("\x7b\"x\": null,\"keys\":[\"a\"]," ++
        "\"endpoint\":\x7b\"port\":6380,\"host\":\"h\"\x7d,\"retry\":[5]\x7d") =
      .ok ⟨"list-sink", { host := "h", port := 6380 }, ["a"], {}, { maxAttempts := 5 }, 2000⟩ ∧
    ∃ e, ofJson "\x7b\"keys\":[\"a\"],\"endpoint\":\x7b\"port\":6380\x7d\x7d" = .error e := by
  obtain ⟨x, hx, xname⟩ := exists_key "x"
  obtain ⟨k, hk, kname⟩ := exists_key "keys"
  obtain ⟨e, he, ename⟩ := exists_key "endpoint"
  obtain ⟨p, hp, pname⟩ := exists_key "port"
  obtain ⟨h, hh, hname⟩ := exists_key "host"
  obtain ⟨r, hr, rname⟩ := exists_key "retry"
  obtain ⟨a, ha, aspells⟩ := exists_text "a"
  obtain ⟨t, ht, tspells⟩ := exists_text "h"
  obtain ⟨n, hn, nspells⟩ := exists_int (n := 6380) (by decide) (by decide)
  obtain ⟨m, hm, mspells⟩ := exists_int (n := 5) (by decide) (by decide)
  have blank : ∀ c ∈ [' '], isSpace c = true := List.forall_mem_singleton.mpr rfl
  let unknown : Script := .leaf ⟨[' '], blank⟩ .null .none
  let known : List (Key × Script) :=
    [(k, .array .none .none [a] .none), (e, .object .none .none [(p, n), (h, t)] .none),
      (r, .array .none .none [m] .none)]
  let whole : Script := .object .none .none ((x, unknown) :: known) .none
  let hostless : Script := .object .none .none
    [(k, .array .none .none [a] .none), (e, .object .none .none [(p, n)] .none)] .none
  have ordered : Members Endpoint.slots { host := "h", port := 6380 } [(h, t), (p, n)] := by
    constructor
    · simp [names, pname, hname]
    · simpa [Endpoint.slots, pname, hname, tspells] using nspells
    · simp [Endpoint.slots, names, pname, hname]
    · simp [Endpoint.slots, names, pname, hname]
  have place : Spells Endpoint.slots { host := "h", port := 6380 }
      (.object .none .none [(p, n), (h, t)] .none) := ordered.perm (.swap _ _ _)
  have policy : Spells RetryPolicy.slots { maxAttempts := 5 } (.array .none .none [m] .none) := by
    refine ⟨mspells, ?_⟩
    simp [Items]
  have stands : Members slots ⟨"list-sink", { host := "h", port := 6380 }, ["a"], {},
      { maxAttempts := 5 }, 2000⟩ known := by
    constructor
    · simp [known, names, kname, ename, rname]
    · have list : IsList IsText ["a"] (.array .none .none [a] .none) := .cons aspells .nil
      simp [known, slots, kname, ename, rname, place, policy, list]
    · simp [known, slots, names, kname, ename, rname]
    · simp [known, slots, names, kname, ename, rname]
  have wholeStands : Spells slots ⟨"list-sink", { host := "h", port := 6380 }, ["a"], {},
      { maxAttempts := 5 }, 2000⟩ whole := stands.insert xname (by simp [slots]) unknown
  have lacks : Flawed Endpoint.slots (.object .none .none [(p, n)] .none) :=
    .lacking List.mem_cons_self rfl (by simp [names, pname])
  have breaks : Flawed slots hostless :=
    .within (List.mem_cons_of_mem _ List.mem_cons_self)
      (List.mem_cons_of_mem _ List.mem_cons_self) ename lacks
  have wholeText : whole.text = "\x7b\"x\": null,\"keys\":[\"a\"]," ++
      "\"endpoint\":\x7b\"port\":6380,\"host\":\"h\"\x7d,\"retry\":[5]\x7d" := by
    simp only [whole, known, unknown, Script.text, Script.chars, Script.memberChars, Script.itemChars, hx, hk, he, hp,
      hh, hr, ha, ht, hn, hm]
    decide
  have hostlessText : hostless.text =
      "\x7b\"keys\":[\"a\"],\"endpoint\":\x7b\"port\":6380\x7d\x7d" := by
    simp only [hostless, Script.text, Script.chars, Script.memberChars, Script.itemChars, hk, he, hp,
      ha, hn]
    decide
  exact ⟨wholeText ▸ spellings_agree.2.1 _ whole wholeStands,
    hostlessText ▸ spellings_agree.2.2 hostless breaks⟩

end Config

end LogShipper
