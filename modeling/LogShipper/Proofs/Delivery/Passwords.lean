import LogShipper.Appender

/-!
# No talk tells a password

What an engine or an appender asks for, logs and comes back with is the same whatever the password
of its endpoint is. The quoted form of an engine tells that there is one, so in what an engine tells
of itself one password is compared with another one; anything else would be the same without any.

Results:
* `Call.dialogue_withPassword`: every call on an engine.
* `Appender.dialogue_withPassword`: every call on an appender.
-/

namespace LogShipper

open Cancel (TokenId)

/-- The endpoint with a password. -/
def Endpoint.withPassword (e : Endpoint) (password : String) : Endpoint :=
  { e with password := some password }

/-- The configuration with a password for its endpoint. -/
def Config.withPassword (c : Config) (password : String) : Config :=
  { c with endpoint := c.endpoint.withPassword password }

namespace Delivery

/-- The pool with a password for its endpoint. -/
def PoolSettings.withPassword (s : PoolSettings) (password : String) : PoolSettings :=
  { s with endpoint := s.endpoint.withPassword password }

/-- The engine with a password for its endpoint. -/
def Engine.withPassword (e : Engine) (password : String) : Engine :=
  { e with pool := e.pool.withPassword password }

end Delivery

/-- The appender with a password for its endpoint. -/
def Appender.withPassword (a : Appender) (password : String) : Appender :=
  { a with engine := a.engine.withPassword password }

namespace Delivery

variable (password : String)

/-! ## Pools -/

theorem PoolSettings.evict_withPassword (s : PoolSettings) :
    (s.withPassword password).evict = s.evict := by
  have probes (links : List LinkId) : (s.withPassword password).probe links = s.probe links := by
    induction links with
    | nil => rfl
    | cons link rest ih =>
      rw [PoolSettings.probe, PoolSettings.probe, ih]
      rfl
  unfold PoolSettings.evict
  simp only [probes]
  rfl

/-! ## Engines -/

namespace Engine

variable (e : Engine)

theorem deliver_withPassword (link : LinkId) (payload : Bytes) (token : TokenId) :
    (e.withPassword password).deliver link payload token = e.deliver link payload token := by
  have keys (keys exhausted cancelled : List String) :
      (e.withPassword password).deliverKeys link payload token keys exhausted cancelled =
        e.deliverKeys link payload token keys exhausted cancelled := by
    induction keys generalizing exhausted cancelled with
    | nil => rfl
    | cons key keys ih =>
      rw [deliverKeys, deliverKeys]
      simp only [ih]
      rfl
  exact keys _ _ _

theorem sendWith_withPassword (payload : Bytes) (token : TokenId) :
    (e.withPassword password).sendWith payload token = e.sendWith payload token := by
  unfold sendWith sendOverLink
  simp only [deliver_withPassword]
  rfl

theorem sendBulk_withPassword (payloads : List Bytes) :
    (e.withPassword password).sendBulk payloads = e.sendBulk payloads := by
  have all (link : LinkId) (payloads : List Bytes) (tally : Tally) :
      (e.withPassword password).deliverAll link payloads tally =
        e.deliverAll link payloads tally := by
    induction payloads generalizing tally with
    | nil => rfl
    | cons payload rest ih =>
      rw [deliverAll, deliverAll]
      simp only [ih, deliver_withPassword]
      rfl
  unfold sendBulk bulkOverLink
  simp only [all]
  rfl

theorem sendAll_withPassword (senders : List (List Bytes)) :
    (e.withPassword password).sendAll senders = e.sendAll senders := by
  have each (payloads : List Bytes) :
      (e.withPassword password).sendEach payloads = e.sendEach payloads := by
    induction payloads with
    | nil => rfl
    | cons payload rest ih =>
      rw [sendEach, sendEach, ih, send, sendWith_withPassword]
      rfl
  induction senders with
  | nil => rfl
  | cons payloads rest ih => rw [sendAll, sendAll, each, ih]

end Engine

/-- **Every call on an engine.** -/
theorem Call.dialogue_withPassword (e : Engine) (p q : String) (c : Call) :
    c.dialogue (e.withPassword q) = c.dialogue (e.withPassword p) := by
  cases c with
  | send payload =>
    simp only [Call.dialogue, Engine.send, Engine.sendWith_withPassword]
    rfl
  | sendWith payload token => simp only [Call.dialogue, Engine.sendWith_withPassword]
  | bulk payloads => simp only [Call.dialogue, Engine.sendBulk_withPassword]
  | parallel senders => simp only [Call.dialogue, Engine.sendAll_withPassword]
  | _ => rfl

end Delivery

/-! ## Appenders -/

namespace Appender

variable (password : String) (a : Appender)

theorem append_withPassword (r : Record) :
    (a.withPassword password).append r = a.append r := by
  have send (payload : Bytes) : (a.withPassword password).engine.send payload =
      a.engine.send payload := a.engine.sendWith_withPassword password payload _
  unfold append
  simp only [send]
  rfl

theorem appendBatch_withPassword (records : List Record) :
    (a.withPassword password).appendBatch records = a.appendBatch records := by
  have refused (records : List Record) :
      (a.withPassword password).logAllRefused records = a.logAllRefused records := by
    induction records with
    | nil => rfl
    | cons r rest ih =>
      rw [logAllRefused, logAllRefused, ih]
      rfl
  have bulk (payloads : List Bytes) : (a.withPassword password).engine.sendBulk payloads =
      a.engine.sendBulk payloads := a.engine.sendBulk_withPassword password payloads
  unfold appendBatch
  simp only [refused, bulk]
  rfl

/-- **Every call on an appender.** -/
theorem dialogue_withPassword (c : Call) :
    c.dialogue (a.withPassword password) = c.dialogue a := by
  cases c with
  | append r => simp only [Call.dialogue, append_withPassword]
  | batch records => simp only [Call.dialogue, appendBatch_withPassword]
  | start => rfl
  | stop ms => rfl

end Appender

end LogShipper
