import LogShipper.Cancel.Forest
import LogShipper.Failure
import LogShipper.Log
import LogShipper.Text.Bytes

/-!
# Dialogues

Delivery talks to a world of its own making: a pool that lends links, links that take pushes, the
clock, a log. A `Dialogue α` is such a talk written down: a sequence of requests, each with what
to do for every answer, ending in a result. `Dialogue.run` holds it with someone who answers;
`Dialogue.Trace` says which exchanges it may consist of, whoever answers.

Each request is answered in one step: what two threads do at the same time is their requests in
some order.

Out of scope: what two threads do within one request, and answers that never come.

Results:
* `bind_assoc`: talking on twice is talking on once, with both parts.
* `run_bind`: talking on is running the rest with what the first part left.
* `trace_bind`: the exchanges of two parts in a row are those of the first and then the second.
* `trace_run`: the exchanges of a run are a trace.
-/

namespace LogShipper

open Cancel (TokenId WaitOutcome)

/-- A link's place in the order in which links are opened. -/
abbrev LinkId := Nat

/-- The life of an engine. -/
inductive Phase where
  | created
  | started
  | stopped
  deriving DecidableEq, Repr

/-- The life of a pool. -/
inductive PoolPhase where
  | created
  | running
  | shutDown
  deriving DecidableEq, Repr

namespace Delivery

/-- What delivery can ask for. -/
inductive Request where
  /-- The engine's phase. -/
  | phase
  /-- Declares the engine started. -/
  | markStarted
  /-- Declares the engine stopped; answers the phase it was in before. -/
  | markStopped
  /-- The pool's phase. -/
  | poolPhase
  /-- Sets the pool up and lets it lend. -/
  | openPool
  /-- Stops the pool from lending and ends its background checks; answers the phase before. -/
  | closePool
  /-- Waits until no link is lent, at most so many milliseconds; answers how many still are. -/
  | drain (ms : Option Nat)
  /-- Lets go of a closed pool: with the last lent link its idle ones are closed. -/
  | forsakePool
  /-- Borrows a link, waiting for one if need be. -/
  | borrow
  /-- Borrows a link that is idle, if there is one. -/
  | tryBorrow
  /-- Appends a payload to a list over a link. -/
  | push (link : LinkId) (key : String) (payload : Bytes)
  /-- A round trip over a link. -/
  | ping (link : LinkId)
  /-- Clears what a use has left on a link. -/
  | reset (link : LinkId)
  /-- How many links are idle. -/
  | idleCount
  /-- Puts a borrowed link back among the idle ones. -/
  | giveBack (link : LinkId)
  /-- Closes a borrowed link. -/
  | discard (link : LinkId)
  /-- Waits so many milliseconds, or until the token is cancelled. -/
  | wait (token : TokenId) (ms : Nat)
  /-- Cancels a token. -/
  | cancel (token : TokenId)
  /-- The token held under a name. -/
  | token (name : String)
  /-- A new token under a name, derived from another one if one is given. -/
  | newToken (name : String) (parent : Option TokenId)
  /-- Whether a token is cancelled. -/
  | isCancelled (token : TokenId)
  /-- A name for a batch. -/
  | batchName
  /-- Raises a log entry. -/
  | log (entry : LogEntry)

/-- What a request is answered with. -/
abbrev Request.Answer : Request → Type
  | .phase => Phase
  | .markStarted => Unit
  | .markStopped => Phase
  | .poolPhase => PoolPhase
  | .openPool => Unit
  | .closePool => PoolPhase
  | .drain _ => Nat
  | .forsakePool => Unit
  | .borrow => Except String LinkId
  | .tryBorrow => Option LinkId
  | .push _ _ _ => Except LinkError Unit
  | .ping _ => Except LinkError Unit
  | .reset _ => Except LinkError Unit
  | .idleCount => Nat
  | .giveBack _ => Unit
  | .discard _ => Unit
  | .wait _ _ => WaitOutcome
  | .cancel _ => Unit
  | .token _ => Option TokenId
  | .newToken _ _ => Unit
  | .isCancelled _ => Bool
  | .batchName => String
  | .log _ => Unit

/-- A talk: a result, or a request and what to do for each answer. -/
inductive Dialogue (α : Type) where
  | done (result : α)
  | ask (request : Request) (next : request.Answer → Dialogue α)

/-- One request and its answer. -/
structure Exchange where
  request : Request
  answer : request.Answer

namespace Dialogue

variable {α β σ : Type}

/-- Talks on with the result. -/
def bind : Dialogue α → (α → Dialogue β) → Dialogue β
  | done a, f => f a
  | ask r next, f => ask r fun x => (next x).bind f

instance : Monad Dialogue where
  pure := done
  bind := bind

/-- Makes one request. -/
def request (r : Request) : Dialogue r.Answer := ask r done

/-- Raises a log entry. -/
def log (level : Level) (source : Source) (message : String)
    (fields : List (String × String)) : Dialogue Unit :=
  request (.log { level, source, message, fields })

/-- Holds the talk with someone who answers from a state. -/
def run (answer : (r : Request) → σ → r.Answer × σ) : Dialogue α → σ → α × σ
  | done a, s => (a, s)
  | ask r next, s => (next (answer r s).1).run answer (answer r s).2

/-- The exchanges a talk may consist of, and its result after them. -/
inductive Trace : Dialogue α → List Exchange → α → Prop where
  | done (a : α) : Trace (.done a) [] a
  | ask {r : Request} {next : r.Answer → Dialogue α} {x : r.Answer} {t : List Exchange} {a : α}
      (h : Trace (next x) t a) : Trace (.ask r next) (⟨r, x⟩ :: t) a

/-- The exchanges of a run. -/
def exchanges (answer : (r : Request) → σ → r.Answer × σ) : Dialogue α → σ → List Exchange
  | done _, _ => []
  | ask r next, s =>
    ⟨r, (answer r s).1⟩ :: (next (answer r s).1).exchanges answer (answer r s).2

/-- Talking on twice is talking on once, with both parts. -/
theorem bind_assoc {γ : Type} (d : Dialogue α) (f : α → Dialogue β) (g : β → Dialogue γ) :
    (d.bind f).bind g = d.bind fun a => (f a).bind g := by
  induction d with
  | done a => rfl
  | ask r next ih => exact congrArg (ask r) (funext ih)

/-- Talking on is running the rest with what the first part left. -/
theorem run_bind (answer : (r : Request) → σ → r.Answer × σ) (d : Dialogue α)
    (f : α → Dialogue β) (s : σ) :
    (d.bind f).run answer s = (f (d.run answer s).1).run answer (d.run answer s).2 := by
  induction d generalizing s with
  | done a => rfl
  | ask r next ih => exact ih _ _

/-- The exchanges of two parts in a row are those of the first and then the second. -/
theorem trace_bind {d : Dialogue α} {f : α → Dialogue β} {t : List Exchange} {b : β} :
    Trace (d.bind f) t b ↔ ∃ t₁ t₂ a, t = t₁ ++ t₂ ∧ Trace d t₁ a ∧ Trace (f a) t₂ b := by
  induction d generalizing t with
  | done a =>
    constructor
    · intro h
      exact ⟨[], t, a, rfl, .done a, h⟩
    · rintro ⟨t₁, t₂, a', rfl, h₁, h₂⟩
      cases h₁
      exact h₂
  | ask r next ih =>
    constructor
    · intro h
      cases h with
      | ask h =>
        obtain ⟨t₁, t₂, a, rfl, h₁, h₂⟩ := (ih _).mp h
        exact ⟨_ :: t₁, t₂, a, rfl, .ask h₁, h₂⟩
    · rintro ⟨t₁, t₂, a, rfl, h₁, h₂⟩
      cases h₁ with
      | ask h₁ => exact .ask ((ih _).mpr ⟨_, _, _, rfl, h₁, h₂⟩)

/-- The exchanges of a run are a trace. -/
theorem trace_run (answer : (r : Request) → σ → r.Answer × σ) (d : Dialogue α) (s : σ) :
    Trace d (d.exchanges answer s) (d.run answer s).1 := by
  induction d generalizing s with
  | done a => exact .done a
  | ask r next ih => exact .ask (ih _ _)

end Dialogue

end Delivery

end LogShipper
