import LogShipper.Text.Quoted

/-!
# Cancellation tokens

A token is cancelled once and for all. A token derived from another one is its child; cancelling a
token cancels its children too, and theirs, but never its parent. Tokens are named by the order of
their creation, so a child always comes after its parent.

A parent does not keep its children alive, nor does a child keep its parent: a token lives as long
as it has handles. A dead token is passed over when its parent is cancelled, and its own children
are no longer reached through it.

`strike` is what happens to one token while its lock is held; `cancel` strikes tokens until none
is left to be struck.

Covers `new`, `child_token`, `cancel`, `is_cancelled`, `wait_for`, the copies of a handle and their
end, and the quoted form of a token.

Out of scope: how long a wait takes; `wait?` says how it ends.

Results:
* `links_strike`: striking a token moves its links out of the forest, which is why `cancel` ends.
* `isCancelled_strike`: a token that is alive is cancelled once it is struck.
-/

namespace LogShipper.Cancel

/-- A token's place in the order of creation. -/
abbrev TokenId := Nat

/-- One token. -/
structure Token where
  cancelled : Bool := false
  /-- How many handles hold the token. -/
  handles : Nat := 1
  children : List TokenId := []
  deriving DecidableEq, Repr, Inhabited

/-- Whether some handle still holds the token. -/
def Token.isAlive (t : Token) : Bool := 0 < t.handles

/-- All tokens, in order of creation. -/
structure Forest where
  tokens : List Token := []
  deriving DecidableEq, Repr

/-- How a wait on a token ended. -/
inductive WaitOutcome where
  | elapsed
  | cancelled
  deriving DecidableEq, Repr

namespace Forest

/-- Whether a token is cancelled. -/
def isCancelled (f : Forest) (t : TokenId) : Bool := (f.tokens[t]?).any (·.cancelled)

/-- Whether some handle still holds a token. -/
def isAlive (f : Forest) (t : TokenId) : Bool := (f.tokens[t]?).any (·.isAlive)

/-- Changes one token. -/
def update (f : Forest) (t : TokenId) (change : Token → Token) : Forest :=
  ⟨f.tokens.modify t change⟩

/-- Adds a token. -/
def add (f : Forest) (token : Token) : TokenId × Forest :=
  (f.tokens.length, ⟨f.tokens ++ [token]⟩)

/-- A token that derives from none. -/
def create (f : Forest) : TokenId × Forest := f.add {}

/-- A token that is cancelled whenever `t` is. Dead children of `t` are forgotten. -/
def derive (f : Forest) (t : TokenId) : TokenId × Forest :=
  if f.isCancelled t then f.add { cancelled := true }
  else
    let id := f.tokens.length
    (f.update t fun p => { p with children := p.children.filter f.isAlive ++ [id] }).add {}

/-- One more handle of a token. -/
def retain (f : Forest) (t : TokenId) : Forest :=
  f.update t fun p => { p with handles := p.handles + 1 }

/-- One handle of a token less. With the last one go the links to its children. -/
def release (f : Forest) (t : TokenId) : Forest :=
  f.update t fun p =>
    { p with
      handles := p.handles - 1
      children := if p.handles ≤ 1 then [] else p.children }

/-- How many links lead from tokens to children. -/
def links (f : Forest) : Nat := (f.tokens.flatMap (·.children)).length

/-- What happens to a token under its lock: unless it is dead or cancelled, it is cancelled and
its children are taken out, to be struck next. -/
def strike (f : Forest) (t : TokenId) : Forest × List TokenId :=
  match f.tokens[t]? with
  | none => (f, [])
  | some token =>
    if token.isAlive && !token.cancelled then
      (f.update t fun p => { p with cancelled := true, children := [] }, token.children)
    else (f, [])

/-- Strikes tokens until none is left, as long as the fuel lasts. -/
def sweep : Nat → List TokenId → Forest → Forest
  | 0, _, f => f
  | _, [], f => f
  | fuel + 1, t :: rest, f =>
    let (f, children) := f.strike t
    sweep fuel (children ++ rest) f

/-- Cancels a token and everything derived from it. Each strike uses up one link. -/
def cancel (f : Forest) (t : TokenId) : Forest := sweep (f.links + 1) [t] f

/-- Waits on a token: at once over if it is cancelled, else when the time is up. A wait without
limit on a token that is not cancelled does not end. -/
def wait? (f : Forest) (t : TokenId) (limited : Bool) : Option WaitOutcome :=
  if f.isCancelled t then some .cancelled
  else if limited then some .elapsed
  else none

/-- The quoted form of a token. -/
def quoted (f : Forest) (t : TokenId) : String :=
  Text.record "CancelToken" [("cancelled", Text.truth (f.isCancelled t))]

/-- A change that empties one token's children takes just these from all children. -/
theorem length_children_modify {l : List Token} {t : Nat} {token : Token} (h : l[t]? = some token)
    (change : Token → Token) (hc : (change token).children = []) :
    ((l.modify t change).flatMap (·.children)).length + token.children.length =
      (l.flatMap (·.children)).length := by
  induction l generalizing t with
  | nil => simp at h
  | cons x xs ih =>
    cases t with
    | zero =>
      simp only [List.getElem?_cons_zero, Option.some.injEq] at h
      subst h
      simp only [List.modify_zero_cons, List.flatMap_cons, List.length_append, hc, List.length_nil]
      omega
    | succ t =>
      have := ih (t := t) (by simpa using h)
      simp only [List.modify_succ_cons, List.flatMap_cons, List.length_append]
      omega

/-- Striking a token moves its links out of the forest. -/
theorem links_strike (f : Forest) (t : TokenId) :
    (f.strike t).1.links + (f.strike t).2.length = f.links := by
  unfold strike
  split
  · simp
  · rename_i token h
    split
    · exact length_children_modify h _ rfl
    · simp

/-- A token that is alive is cancelled once it is struck. -/
theorem isCancelled_strike {f : Forest} {t : TokenId} (h : f.isAlive t = true) :
    (f.strike t).1.isCancelled t = true := by
  unfold isAlive at h
  unfold strike
  cases ht : f.tokens[t]? with
  | none => simp [ht] at h
  | some token =>
    have ha : token.isAlive = true := by simpa [ht] using h
    by_cases hc : token.cancelled = true
    · simp [isCancelled, ht, hc]
    · simp [isCancelled, update, ht, ha, hc]

end Forest

/-! ## Named handles -/

/-- Tokens, and the names of the handles that hold them. -/
structure Handles where
  forest : Forest := {}
  names : List (String × TokenId) := []
  deriving DecidableEq, Repr

namespace Handles

/-- The token that a name holds. -/
def token? (h : Handles) (name : String) : Option TokenId := h.names.lookup name

/-- Lets go of the handle of a name. -/
def drop (h : Handles) (name : String) : Handles :=
  match h.token? name with
  | none => h
  | some t => ⟨h.forest.release t, h.names.filter fun n => n.1 != name⟩

/-- Gives a name to a handle; the handle that had the name before is let go. -/
def bind (h : Handles) (name : String) (t : TokenId) : Handles :=
  let h := h.drop name
  ⟨h.forest, h.names ++ [(name, t)]⟩

/-- A new token under a name. -/
def create (h : Handles) (name : String) : Handles :=
  let (t, forest) := h.forest.create
  { h with forest }.bind name t

/-- A token derived from `t` under a name. -/
def deriveFrom (h : Handles) (name : String) (t : TokenId) : Handles :=
  let (child, forest) := h.forest.derive t
  { h with forest }.bind name child

/-- A second handle under a name. -/
def clone (h : Handles) (name : String) (t : TokenId) : Handles :=
  { h with forest := h.forest.retain t }.bind name t

/-- Cancels a token. -/
def cancel (h : Handles) (t : TokenId) : Handles := { h with forest := h.forest.cancel t }

/-- The names in use, with whether their tokens are cancelled. -/
def view (h : Handles) : List (String × Bool) :=
  h.names.map fun n => (n.1, h.forest.isCancelled n.2)

end Handles

end LogShipper.Cancel
