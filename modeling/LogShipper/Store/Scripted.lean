import LogShipper.Store.Transport

/-!
# A scripted store

A store in memory that answers as a script says, to rehearse delivery with. Each key has a plan:
the answers to the next pushes, and the answer to all pushes after these. Links can be refused,
pings and resets can be made to fail, and calls can be made from inside a push, which is picked by
its number in the order of all pushes.

A link that a plan has broken stays broken. Opening one always takes a tenth of a millisecond.

Results:
* `endPush_error`: a push that is not accepted leaves the lists alone.
* `endPush_ok`: a push that is accepted appends its payload to the list of its key, and to no
  other.
-/

namespace LogShipper

open Delivery (Call)

namespace Scripted

/-- What a push is answered with. -/
inductive PushAnswer where
  | accept
  /-- A command error. -/
  | reject (reason : String)
  /-- A connection error; the link is broken from then on. -/
  | sever (reason : String)
  deriving DecidableEq, Repr

/-- The answers to the pushes to one key. -/
structure Plan where
  next : List PushAnswer := []
  /-- The answer to every push after those. -/
  after : PushAnswer := .accept
  deriving DecidableEq, Repr

/-- How often something fails from now on. -/
inductive Failures where
  | times (n : Nat)
  | always
  deriving DecidableEq, Repr

namespace Failures

/-- Whether the next time fails. -/
def isFailing : Failures → Bool
  | times n => n != 0
  | always => true

/-- One failure less. -/
def less : Failures → Failures
  | times n => times (n - 1)
  | always => always

end Failures

end Scripted

open Scripted

/-- The state of a scripted store. -/
structure ScriptedStore where
  plans : List (String × Plan) := []
  lists : List (String × List Bytes) := []
  broken : List LinkId := []
  /-- Whether no link can be opened. -/
  refusing : Bool := false
  connectFailures : Nat := 0
  pingFailures : Failures := .times 0
  resetFailures : Nat := 0
  /-- How many pushes began so far. -/
  attempts : Nat := 0
  /-- Calls to make from inside pushes, by the number of the push. -/
  hooks : List (Nat × Call) := []

namespace ScriptedStore

/-- The list of a key. -/
def list (s : ScriptedStore) (key : String) : List Bytes := (s.lists.lookup key).getD []

/-- A table with the value of one key changed. -/
def put {β : Type} (table : List (String × β)) (key : String) (value : β) : List (String × β) :=
  match table with
  | [] => [(key, value)]
  | (k, v) :: rest => if k = key then (k, value) :: rest else (k, v) :: put rest key value

/-- Gives a key a new plan. -/
def setPlan (key : String) (plan : Plan) (s : ScriptedStore) : ScriptedStore :=
  { s with plans := put s.plans key plan }

/-- Appends a payload to the list of a key. -/
def append (key : String) (payload : Bytes) (s : ScriptedStore) : ScriptedStore :=
  { s with lists := put s.lists key (s.list key ++ [payload]) }

/-- The plan's answer to a push, and the plan from then on. -/
def nextAnswer (key : String) (s : ScriptedStore) : PushAnswer × ScriptedStore :=
  match s.plans.lookup key with
  | none => (.accept, s)
  | some plan =>
    match plan.next with
    | [] => (plan.after, s)
    | answer :: rest => (answer, s.setPlan key { plan with next := rest })

/-- Why a link is refused. -/
def refusal (endpoint : Endpoint) : LinkError :=
  .connection ("connection refused: " ++ endpoint.display)

/-- Opens a link. -/
def connect (endpoint : Endpoint) (s : ScriptedStore) : Except LinkError Unit × ScriptedStore :=
  if s.refusing then (.error (refusal endpoint), s)
  else if s.connectFailures ≠ 0 then
    (.error (refusal endpoint), { s with connectFailures := s.connectFailures - 1 })
  else (.ok (), s)

/-- Counts a push; the calls to make from inside it. -/
def beginPush (s : ScriptedStore) : List Call × ScriptedStore :=
  let number := s.attempts + 1
  ((s.hooks.filter fun h => h.1 == number).map (·.2), { s with attempts := number })

/-- Answers a push. -/
def endPush (link : LinkId) (key : String) (payload : Bytes) (s : ScriptedStore) :
    Except LinkError Unit × ScriptedStore :=
  if s.broken.contains link then (.error (.connection "broken pipe"), s)
  else match s.nextAnswer key with
    | (.accept, s) => (.ok (), s.append key payload)
    | (.reject reason, s) => (.error (.command reason), s)
    | (.sever reason, s) => (.error (.connection reason), { s with broken := link :: s.broken })

/-- Answers a ping. -/
def ping (link : LinkId) (s : ScriptedStore) : Except LinkError Unit × ScriptedStore :=
  if s.broken.contains link || s.pingFailures.isFailing then
    (.error (.connection "ping failed"), { s with pingFailures := s.pingFailures.less })
  else (.ok (), s)

/-- Resets a link. -/
def reset (s : ScriptedStore) : Except LinkError Unit × ScriptedStore :=
  if s.resetFailures ≠ 0 then
    (.error (.command "reset failed"), { s with resetFailures := s.resetFailures - 1 })
  else (.ok (), s)

/-- The store as one that links are opened to. -/
def transport : Transport ScriptedStore where
  connect _ endpoint s := s.connect endpoint
  beginPush _ _ _ s := s.beginPush
  endPush link key payload s := s.endPush link key payload
  ping link s := s.ping link
  reset _ s := s.reset
  close _ s := s
  connectTime _ := 100

/-! ## What pushes do to the lists -/

theorem lookup_cons_if {β : Type} (k other : String) (v : β) (rest : List (String × β)) :
    ((k, v) :: rest).lookup other = if other = k then some v else rest.lookup other := by
  by_cases h : other = k
  · simp [h]
  · rw [List.lookup_cons, beq_eq_false_iff_ne.mpr h, if_neg h]

theorem lookup_put {β : Type} (table : List (String × β)) (key other : String) (value : β) :
    (put table key value).lookup other =
      if other = key then some value else table.lookup other := by
  induction table with
  | nil => rw [put, lookup_cons_if]
  | cons p rest ih =>
    obtain ⟨k, v⟩ := p
    by_cases hk : k = key
    · subst hk
      simp only [put, if_true, lookup_cons_if]
      split <;> rfl
    · simp only [put, if_neg hk, lookup_cons_if, ih]
      grind

theorem list_append (s : ScriptedStore) (key other : String) (payload : Bytes) :
    (s.append key payload).list other =
      if other = key then s.list key ++ [payload] else s.list other := by
  unfold append list
  rw [lookup_put]
  split <;> simp [*]

theorem nextAnswer_lists (s : ScriptedStore) (key : String) :
    (s.nextAnswer key).2.lists = s.lists := by
  unfold nextAnswer
  split
  · rfl
  · split <;> rfl

/-- A push that is not accepted leaves the lists alone. -/
theorem endPush_error {s : ScriptedStore} {link : LinkId} {key : String} {payload : Bytes}
    {e : LinkError} (h : (s.endPush link key payload).1 = .error e) :
    (s.endPush link key payload).2.lists = s.lists := by
  have hl := nextAnswer_lists s key
  unfold endPush at h ⊢
  split
  · rfl
  · rename_i hb
    rw [if_neg hb] at h
    split at h <;> simp_all

/-- A push that is accepted appends its payload to the list of its key, and to no other. -/
theorem endPush_ok {s : ScriptedStore} {link : LinkId} {key other : String} {payload : Bytes}
    (h : (s.endPush link key payload).1 = .ok ()) :
    (s.endPush link key payload).2.list other =
      if other = key then s.list key ++ [payload] else s.list other := by
  have hl := nextAnswer_lists s key
  unfold endPush at h ⊢
  split
  · rename_i hb
    rw [if_pos hb] at h
    cases h
  · rename_i hb
    rw [if_neg hb] at h
    split at h
    · rename_i t ht
      rw [ht] at hl
      have hkeep (k : String) : t.list k = s.list k := congrArg (fun l => (l.lookup k).getD []) hl
      rw [list_append, hkeep, hkeep]
    · cases h
    · cases h

end ScriptedStore

end LogShipper
