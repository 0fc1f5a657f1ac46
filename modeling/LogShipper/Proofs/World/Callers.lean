import LogShipper.Proofs.World.Twins

/-!
# Callers side by side

Several callers share one engine (`Callers`). Each has at most one talk going on, and whoever's turn
it is has the next request of its talk answered; what a call comes back with is put down with the
name of its caller. So the requests of calls made at the same time come in some order, which the
moves lay down (`Move`).

Two groups of callers of twin worlds whose talks mirror each other stay so.

Results:
* `Twin.move`, `Twin.run`: what one move does, and any moves.
-/

namespace LogShipper

open Delivery (Dialogue Call Engine)

/-- What can happen among callers, who are known by numbers. -/
inductive Move (κ : Type) where
  /-- A caller who has no talk going on begins a call. -/
  | call (caller : Nat) (c : κ)
  /-- A caller's next request is answered, or its call comes back. -/
  | turn (caller : Nat)
  /-- All that is left of a caller's call, up to its coming back. -/
  | finish (caller : Nat)
  /-- Time passes, up to some time. -/
  | pass (limit : Nat)

/-- The move with its call replaced. -/
def Move.map {κ κ' : Type} (g : κ → κ') : Move κ → Move κ'
  | .call caller c => .call caller (g c)
  | .turn caller => .turn caller
  | .finish caller => .finish caller
  | .pass limit => .pass limit

theorem Move.map_id {κ : Type} (m : Move κ) : m.map id = m := by
  cases m <;> rfl

/-- Callers with their world. -/
structure Callers (α σ : Type) where
  /-- What is left of each caller's talk. -/
  talks : Nat → Option (Dialogue α) := fun _ => none
  /-- What calls came back with, the latest first. -/
  replies : List (Nat × α) := []
  world : World σ

namespace Callers

variable {α σ κ κ' : Type}

/-- Puts a caller's talk in its place. -/
def put (k : Callers α σ) (caller : Nat) (talk : Option (Dialogue α)) : Callers α σ :=
  { k with talks := fun other => if other = caller then talk else k.talks other }

/-- A caller's call comes back. -/
def reply (k : Callers α σ) (caller : Nat) (result : α) : Callers α σ :=
  { k.put caller none with replies := (caller, result) :: k.replies }

variable (T : Transport σ) (e : Engine) (depth : Nat) (talk : κ → Dialogue α)

/-- Makes a move. -/
def move : Move κ → Callers α σ → Callers α σ
  | .call caller c, k => if (k.talks caller).isSome then k else k.put caller (some (talk c))
  | .turn caller, k =>
    match k.talks caller with
    | none => k
    | some (.done result) => k.reply caller result
    | some (.ask r next) =>
      let (answer, world) := k.world.answer T e depth r
      { k with world }.put caller (some (next answer))
  | .finish caller, k =>
    match k.talks caller with
    | none => k
    | some d =>
      let (result, world) := d.run (World.answer T e depth) k.world
      { k with world }.reply caller result
  | .pass limit, k => { k with world := k.world.pass T e.pool limit }

/-- Makes moves, one after the other. -/
def run (moves : List (Move κ)) (k : Callers α σ) : Callers α σ :=
  moves.foldl (fun k m => k.move T e depth talk m) k

variable {T e depth talk}

/-! ## Twins -/

variable {f : Bytes → Bytes} {R : σ → σ → Prop} {k k' : Callers α σ}

/-- Callers of twin worlds, whose talks mirror each other and whose calls came back the same. -/
structure Twin (f : Bytes → Bytes) (R : σ → σ → Prop) (k k' : Callers α σ) : Prop where
  talks : ∀ caller, Option.Rel (Dialogue.Mirrors f) (k.talks caller) (k'.talks caller)
  replies : k'.replies = k.replies
  world : World.Twin f R k.world k'.world

namespace Twin

/-- Either both have a talk going on, or neither has. -/
theorem talk_cases (h : Twin f R k k') (caller : Nat) :
    (k.talks caller = none ∧ k'.talks caller = none) ∨
      ∃ d d', k.talks caller = some d ∧ k'.talks caller = some d' ∧ d.Mirrors f d' := by
  have left := h.talks caller
  revert left
  generalize k.talks caller = x
  generalize k'.talks caller = x'
  rintro (⟨hd⟩ | _)
  · exact .inr ⟨_, _, rfl, rfl, hd⟩
  · exact .inl ⟨rfl, rfl⟩

theorem put (h : Twin f R k k') (caller : Nat) {x x' : Option (Dialogue α)}
    (hx : Option.Rel (Dialogue.Mirrors f) x x') : Twin f R (k.put caller x) (k'.put caller x') := by
  refine ⟨fun other => ?_, h.replies, h.world⟩
  unfold Callers.put
  dsimp only
  split
  · exact hx
  · exact h.talks other

theorem reply (h : Twin f R k k') (caller : Nat) {result result' : α} (hr : result = result') :
    Twin f R (k.reply caller result) (k'.reply caller result') := by
  obtain ⟨talks, -, world⟩ := h.put caller .none
  exact ⟨talks, by rw [Callers.reply, Callers.reply, h.replies, hr], world⟩

theorem setWorld (h : Twin f R k k') {w w' : World σ} (hw : World.Twin f R w w') :
    Twin f R { k with world := w } { k' with world := w' } :=
  ⟨h.talks, h.replies, hw⟩

variable {e' : Engine} (hT : T.Blind f e.pool.endpoint e'.pool.endpoint R) (he : e.Alike e')
  {talk' : κ' → Dialogue α} {g : κ → κ'} (htalk : ∀ c, (talk c).Mirrors f (talk' (g c)))

include hT he htalk

/-- **What one move does.** -/
theorem move (h : Twin f R k k') (m : Move κ) :
    Twin f R (k.move T e depth talk m) (k'.move T e' depth talk' (m.map g)) := by
  cases m with
  | call caller c =>
    unfold Callers.move Move.map
    dsimp only
    obtain ⟨hnone, hnone'⟩ | ⟨d, d', hsome, hsome', -⟩ := h.talk_cases caller
    · rw [hnone, hnone']
      exact h.put caller (.some (htalk c))
    · rw [hsome, hsome']
      exact h
  | turn caller =>
    unfold Callers.move Move.map
    dsimp only
    obtain ⟨hnone, hnone'⟩ | ⟨d, d', hsome, hsome', hd⟩ := h.talk_cases caller
    · rw [hnone, hnone']
      exact h
    · rw [hsome, hsome']
      cases hd with
      | done result => exact h.reply caller rfl
      | @ask r next next' hr hnext =>
        obtain ⟨hanswer, hafter⟩ := h.world.answer_mute hT he depth hr
        refine (h.setWorld hafter).put caller (.some ?_)
        rw [hanswer]
        exact hnext _
      | @push link key payload next next' hnext =>
        obtain ⟨hanswer, hafter⟩ := h.world.answer_push hT he depth link key payload
        refine (h.setWorld hafter).put caller (.some ?_)
        rw [hanswer]
        exact hnext _
  | finish caller =>
    unfold Callers.move Move.map
    dsimp only
    obtain ⟨hnone, hnone'⟩ | ⟨d, d', hsome, hsome', hd⟩ := h.talk_cases caller
    · rw [hnone, hnone']
      exact h
    · rw [hsome, hsome']
      obtain ⟨hresult, hafter⟩ := hd.run
        (fun _ _ _ hr hv => hv.answer_mute hT he depth hr)
        (fun l k p _ _ hv => hv.answer_push hT he depth l k p) h.world
      exact (h.setWorld hafter).reply caller hresult
  | pass limit => exact h.setWorld (h.world.pass hT he.pool limit)

/-- **What any moves do**, by induction on the moves. -/
theorem run (h : Twin f R k k') (moves : List (Move κ)) :
    Twin f R (k.run T e depth talk moves) (k'.run T e' depth talk' (moves.map (Move.map g))) := by
  induction moves generalizing k k' with
  | nil => exact h
  | cons m rest ih => exact ih (h.move hT he htalk m)

end Twin

end Callers

end LogShipper
