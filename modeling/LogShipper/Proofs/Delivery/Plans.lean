import LogShipper.Proofs.Delivery.Batches

/-!
# Pushes that go by plans

A store keeps a `Cell` for each key: how it will answer the pushes to that key, one after the other,
and the list of the key. One who answers is `Discreet` if pushes are answered by the cell of their
key and change no other one, if nothing else changes a cell, and if no wait for a try is cancelled.

What then becomes of payloads is a matter of the cells alone. `Engine.foresee` and
`Engine.foreseeAll` tell it key by key, and every send and every batch that gets a link goes that
way. That keys do not depend on each other is then seen without any world.

Results:
* `Engine.foresee_beside`, `Engine.foreseeAll_beside`: a key does not depend on the cell of another.
* `Discreet.turn`, `Discreet.turns`: the tries of one key, and of one key after the other.
* `Discreet.send`, `Discreet.bulk`: sends and batches go by the plans.
-/

namespace LogShipper.Delivery

open Cancel (TokenId)
open Dialogue (Trace)

/-! ## What a store keeps of its keys -/

/-- What a store keeps of a key: its answers to the pushes to come, and its list. -/
structure Cell where
  plan : Nat → Except String Unit
  list : List Bytes

/-- What becomes of the tries of a payload for a key: the answers to the pushes, how they end, and
what the store keeps of the key then. -/
structure Fate where
  answers : List (Except LinkError Unit)
  outcome : KeyOutcome
  cell : Cell

namespace Cell

/-- The answer to the next push. -/
def answer (c : Cell) : Except LinkError Unit := (c.plan 0).mapError .command

/-- What is kept after a push. -/
def next (payload : Bytes) (c : Cell) : Cell where
  plan n := c.plan (n + 1)
  list := match c.plan 0 with
    | .ok _ => c.list ++ [payload]
    | .error _ => c.list

/-- The tries of a payload, with `left` more after the first one and `used` before it. -/
def fate (payload : Bytes) : (left used : Nat) → Cell → Fate
  | 0, used, c =>
    match c.plan 0 with
    | .ok _ => ⟨[c.answer], .delivered (used + 1), c.next payload⟩
    | .error e => ⟨[c.answer], .exhausted (used + 1) e, c.next payload⟩
  | left + 1, used, c =>
    match c.plan 0 with
    | .ok _ => ⟨[c.answer], .delivered (used + 1), c.next payload⟩
    | .error _ =>
      { fate payload left (used + 1) (c.next payload) with
        answers := c.answer :: (fate payload left (used + 1) (c.next payload)).answers }

variable {c : Cell} {payload : Bytes}

theorem answer_of_ok (h : c.plan 0 = .ok ()) : c.answer = .ok () := by
  rw [answer, h]
  rfl

theorem answer_of_error {error : String} (h : c.plan 0 = .error error) :
    c.answer = .error (.command error) := by
  rw [answer, h]
  rfl

theorem answer_eq_ok : c.answer = .ok () ↔ c.plan 0 = .ok () := by
  cases h : c.plan 0 with
  | ok _ => simp [answer_of_ok h]
  | error error => simp [answer_of_error h]

theorem answer_eq_error {error : String} :
    c.answer = .error (.command error) ↔ c.plan 0 = .error error := by
  cases h : c.plan 0 with
  | ok _ => simp [answer_of_ok h]
  | error error => simp [answer_of_error h]

theorem answer_ne_connection (c : Cell) (reason : String) :
    c.answer ≠ .error (.connection reason) := by
  cases h : c.plan 0 with
  | ok _ => simp [answer_of_ok h]
  | error error => simp [answer_of_error h]

theorem next_of_ok (h : c.plan 0 = .ok ()) :
    c.next payload = ⟨fun n => c.plan (n + 1), c.list ++ [payload]⟩ := by
  rw [next, h]

theorem next_of_error {error : String} (h : c.plan 0 = .error error) :
    c.next payload = ⟨fun n => c.plan (n + 1), c.list⟩ := by
  rw [next, h]

theorem fate_of_ok {left used : Nat} (h : c.plan 0 = .ok ()) :
    c.fate payload left used = ⟨[.ok ()], .delivered (used + 1), c.next payload⟩ := by
  cases left <;> rw [fate, h, answer_of_ok h]

theorem fate_of_error {used : Nat} {error : String} (h : c.plan 0 = .error error) :
    c.fate payload 0 used =
      ⟨[.error (.command error)], .exhausted (used + 1) error, c.next payload⟩ := by
  rw [fate, h, answer_of_error h]

theorem fate_again {left used : Nat} {error : String} (h : c.plan 0 = .error error) :
    c.fate payload (left + 1) used =
      { (c.next payload).fate payload left (used + 1) with
        answers := .error (.command error) ::
          ((c.next payload).fate payload left (used + 1)).answers } := by
  rw [fate, h, answer_of_error h]

/-- The tries end with success, or when none is left. -/
theorem fate_kept (left used : Nat) (c : Cell) :
    (c.fate payload left used).outcome.isLost = false ∧
      (c.fate payload left used).outcome.isCancelled = false := by
  induction left generalizing used c with
  | zero =>
    cases h : c.plan 0 with
    | ok _ =>
      rw [fate_of_ok h]
      exact ⟨rfl, rfl⟩
    | error error =>
      rw [fate_of_error h]
      exact ⟨rfl, rfl⟩
  | succ left ih =>
    cases h : c.plan 0 with
    | ok _ =>
      rw [fate_of_ok h]
      exact ⟨rfl, rfl⟩
    | error error =>
      rw [fate_again h]
      exact ih (used + 1) (c.next payload)

end Cell

/-- What a store keeps of all keys. -/
abbrev Cells := String → Cell

/-- What a turn shows of its key: the answers to the pushes, and how they ended. -/
structure Showing where
  key : String
  answers : List (Except LinkError Unit)
  outcome : KeyOutcome

/-- What the turn shows. -/
def Turn.showing (u : Turn) : Showing := ⟨u.key, (pushes u.tries).map Pushed.answer, u.outcome⟩

namespace Cells

/-- Cells with that of one key changed. -/
def set (m : Cells) (key : String) (c : Cell) : Cells := fun k => if k = key then c else m k

/-- What becomes of a payload, for one key after the other. -/
def deliver (payload : Bytes) (left : Nat) : List String → Cells → List Showing × Cells
  | [], m => ([], m)
  | key :: keys, m =>
    let now := (m key).fate payload left 0
    let later := deliver payload left keys (m.set key now.cell)
    (⟨key, now.answers, now.outcome⟩ :: later.1, later.2)

/-- Cells that are the same but for one key. -/
def Beside (j : String) (m₁ m₂ : Cells) : Prop := ∀ k, k ≠ j → m₁ k = m₂ k

/-- What is shown of the other keys. -/
def others (j : String) (l : List Showing) : List Showing := l.filter fun x => x.key ≠ j

theorem others_of_eq {j : String} {x : Showing} (h : x.key = j) (l : List Showing) :
    others j (x :: l) = others j l :=
  List.filter_cons_of_neg (by simp [h])

theorem others_of_ne {j : String} {x : Showing} (h : x.key ≠ j) (l : List Showing) :
    others j (x :: l) = x :: others j l :=
  List.filter_cons_of_pos (by simp [h])

variable {m m₁ m₂ : Cells} {j : String} {payload : Bytes} {left : Nat}

@[simp] theorem set_self {key : String} {c : Cell} : m.set key c key = c := if_pos rfl

@[simp] theorem set_set {key : String} {c c' : Cell} :
    (m.set key c).set key c' = m.set key c' := by
  funext k
  by_cases hk : k = key <;> simp [Cells.set, hk]

theorem set_of_ne {k key : String} {c : Cell} (h : k ≠ key) : m.set key c k = m k := if_neg h

theorem Beside.set (h : Beside j m₁ m₂) {key : String} {c₁ c₂ : Cell} (hc : key ≠ j → c₁ = c₂) :
    Beside j (m₁.set key c₁) (m₂.set key c₂) := by
  intro k hk
  by_cases hkey : k = key
  · subst hkey
    simp [Cells.set, hc hk]
  · rw [set_of_ne hkey, set_of_ne hkey, h k hk]

/-- **A key does not depend on the cell of another.** The induction is on the keys. -/
theorem deliver_beside (h : Beside j m₁ m₂) (keys : List String) :
    others j (m₁.deliver payload left keys).1 = others j (m₂.deliver payload left keys).1 ∧
      Beside j (m₁.deliver payload left keys).2 (m₂.deliver payload left keys).2 := by
  induction keys generalizing m₁ m₂ with
  | nil => exact ⟨rfl, h⟩
  | cons key keys ih =>
    -- a plan is used up by the pushes to its own key only, so the other keys begin alike
    have same (hkey : key ≠ j) : (m₁ key).fate payload left 0 = (m₂ key).fate payload left 0 := by
      rw [h key hkey]
    obtain ⟨hshown, hcells⟩ := ih (h.set fun hkey => congrArg Fate.cell (same hkey))
    refine ⟨?_, hcells⟩
    simp only [deliver]
    by_cases hkey : key = j
    · rw [others_of_eq hkey, others_of_eq hkey, hshown]
    · rw [others_of_ne hkey, others_of_ne hkey, hshown, same hkey]

/-- Every key is tried to the end. -/
theorem deliver_kept (m : Cells) (keys : List String) :
    ∀ x ∈ (m.deliver payload left keys).1,
      x.outcome.isLost = false ∧ x.outcome.isCancelled = false := by
  induction keys generalizing m with
  | nil => exact fun _ hx => absurd hx List.not_mem_nil
  | cons key keys ih =>
    exact List.forall_mem_cons.mpr ⟨(m key).fate_kept left 0, ih _⟩

end Cells

/-- What becomes of a payload for the keys of an engine. -/
def Engine.foresee (e : Engine) (payload : Bytes) (m : Cells) : List Showing × Cells :=
  m.deliver payload (e.retry.attempts - 1) e.destination.keys

/-- A key does not depend on the cell of another. -/
theorem Engine.foresee_beside (e : Engine) {j : String} {m₁ m₂ : Cells}
    (h : Cells.Beside j m₁ m₂) (payload : Bytes) :
    Cells.others j (e.foresee payload m₁).1 = Cells.others j (e.foresee payload m₂).1 ∧
      Cells.Beside j (e.foresee payload m₁).2 (e.foresee payload m₂).2 :=
  Cells.deliver_beside h e.destination.keys

/-- What becomes of one payload after the other. -/
def Engine.foreseeAll (e : Engine) : List Bytes → Cells → List (List Showing) × Cells
  | [], m => ([], m)
  | payload :: rest, m =>
    ((e.foresee payload m).1 :: (foreseeAll e rest (e.foresee payload m).2).1,
      (foreseeAll e rest (e.foresee payload m).2).2)

/-- Nor does a key depend on the cell of another in a batch. The induction is on the payloads. -/
theorem Engine.foreseeAll_beside (e : Engine) {j : String} {m₁ m₂ : Cells}
    (h : Cells.Beside j m₁ m₂) (payloads : List Bytes) :
    (e.foreseeAll payloads m₁).1.map (Cells.others j) =
        (e.foreseeAll payloads m₂).1.map (Cells.others j) ∧
      Cells.Beside j (e.foreseeAll payloads m₁).2 (e.foreseeAll payloads m₂).2 := by
  induction payloads generalizing m₁ m₂ with
  | nil => exact ⟨rfl, h⟩
  | cons payload rest ih =>
    obtain ⟨hnow, hthen⟩ := e.foresee_beside h payload
    obtain ⟨hlater, hcells⟩ := ih hthen
    refine ⟨?_, hcells⟩
    exact List.cons_eq_cons.mpr ⟨hnow, hlater⟩

/-! ## Exchanges as they are answered -/

section Answered

variable {σ : Type} {answer : (r : Request) → σ → r.Answer × σ} {t u : List Exchange}
  {s s' s₁ : σ}

/-- Exchanges that are answered so from a state, and leave another one. -/
def Answered (answer : (r : Request) → σ → r.Answer × σ) : List Exchange → σ → σ → Prop
  | [], s, s' => s' = s
  | x :: t, s, s' =>
    x.answer = (answer x.request s).1 ∧ Answered answer t (answer x.request s).2 s'

/-- The exchanges of a run are answered so. -/
theorem answered_run {α : Type} (answer : (r : Request) → σ → r.Answer × σ) (d : Dialogue α)
    (s : σ) : Answered answer (d.exchanges answer s) s (d.run answer s).2 := by
  induction d generalizing s with
  | done a => rfl
  | ask r next ih => exact ⟨rfl, ih _ _⟩

theorem answered_append : Answered answer (t ++ u) s s' ↔
    ∃ s₁, Answered answer t s s₁ ∧ Answered answer u s₁ s' := by
  induction t generalizing s with
  | nil => simp [Answered]
  | cons x t ih => simp [Answered, ih, and_assoc]

end Answered

/-! ## Answering by plans -/

/-- One who answers goes by the plans of the cells: pushes are answered by the cell of their key,
and change no other one; other requests of sends change none; and waits under the token are not
cancelled. All this holds as long as `I` does, which lasts. -/
structure Discreet {σ : Type} (token : TokenId) (answer : (r : Request) → σ → r.Answer × σ)
    (I : σ → Prop) (cells : σ → Cells) : Prop where
  push : ∀ link key payload s, I s →
    (answer (.push link key payload) s).1 = (cells s key).answer ∧
      I (answer (.push link key payload) s).2 ∧
      cells (answer (.push link key payload) s).2 =
        (cells s).set key ((cells s key).next payload)
  wait : ∀ ms s, I s → (answer (.wait token ms) s).1 = .elapsed
  other : ∀ r s, r.isSending = true → (∀ link key payload, r ≠ .push link key payload) → I s →
    I (answer r s).2 ∧ cells (answer r s).2 = cells s

namespace Discreet

variable {σ : Type} {token : TokenId} {answer : (r : Request) → σ → r.Answer × σ} {I : σ → Prop}
  {cells : σ → Cells} (h : Discreet token answer I cells)
include h

/-- Where nothing is pushed no cell changes. -/
theorem still {t : List Exchange} {s s' : σ} (ht : Answered answer t s s')
    (hsending : ∀ x ∈ t, x.request.isSending = true) (hp : pushes t = []) (hs : I s) :
    I s' ∧ cells s' = cells s := by
  induction t generalizing s with
  | nil =>
    obtain rfl : s' = s := ht
    exact ⟨hs, rfl⟩
  | cons x t ih =>
    obtain ⟨r, y⟩ := x
    rw [List.forall_mem_cons] at hsending
    have hpush : ∀ link key payload, r ≠ .push link key payload := by
      rintro link key payload rfl
      cases hp
    have hrest : pushes t = [] := by
      cases r with
      | push link key payload => exact absurd rfl (hpush link key payload)
      | _ => exact hp
    obtain ⟨hnow, hsame⟩ := h.other r s hsending.1 hpush hs
    obtain ⟨hlater, hcells⟩ := ih ht.2 hsending.2 hrest hnow
    exact ⟨hlater, hcells.trans hsame⟩

/-- A push is answered by the cell of its key. -/
theorem pushed {j : Job} {x : Except LinkError Unit} {t : List Exchange} {s s' : σ}
    (ht : Answered answer (j.pushed x :: t) s s') (hs : I s) :
    (cells s j.key).answer = x ∧ ∃ s₁, I s₁ ∧ Answered answer t s₁ s' ∧
      cells s₁ = (cells s).set j.key ((cells s j.key).next j.payload) := by
  obtain ⟨hx, ht⟩ := ht
  obtain ⟨hanswer, hlasts, hcells⟩ := h.push j.link j.key j.payload s hs
  exact ⟨hanswer.symm.trans hx.symm, _, hlasts, ht, hcells⟩

/-- **The tries of a key** go by its plan. The induction is on the tries. -/
theorem turn {j : Job} (hj : j.token = token) {left used : Nat} {t : List Exchange}
    {o : KeyOutcome} (htried : j.Tried left used t o) {s s' : σ} (ht : Answered answer t s s')
    (hs : I s) :
    I s' ∧ (pushes t).map Pushed.answer = ((cells s j.key).fate j.payload left used).answers ∧
      o = ((cells s j.key).fate j.payload left used).outcome ∧
      cells s' = (cells s).set j.key ((cells s j.key).fate j.payload left used).cell := by
  induction htried generalizing s with
  | delivered left used =>
    obtain ⟨hx, s₁, hs₁, ht, hcells⟩ := h.pushed ht hs
    obtain ⟨hs', hsame⟩ := h.still ht (List.forall_mem_singleton.mpr rfl) rfl hs₁
    rw [Cell.fate_of_ok (Cell.answer_eq_ok.mp hx)]
    exact ⟨hs', rfl, rfl, hsame.trans hcells⟩
  | lost left used reason =>
    exact absurd (h.pushed ht hs).1 (Cell.answer_ne_connection _ _)
  | exhausted used error =>
    obtain ⟨hx, s₁, hs₁, ht, hcells⟩ := h.pushed ht hs
    obtain ⟨hs', hsame⟩ := h.still ht (List.forall_mem_singleton.mpr rfl) rfl hs₁
    rw [Cell.fate_of_error (Cell.answer_eq_error.mp hx)]
    exact ⟨hs', rfl, rfl, hsame.trans hcells⟩
  | cancelled left used error =>
    obtain ⟨-, s₁, hs₁, ⟨-, hwait, -⟩, -⟩ := h.pushed ht hs
    obtain ⟨hs₂, -⟩ := h.other (.log (j.retryingEntry (used + 1) error)) s₁ rfl
      (fun _ _ _ => Request.noConfusion) hs₁
    have helapsed := h.wait j.retryDelayMs.toNat _ hs₂
    rw [← hj] at helapsed
    exact absurd (hwait.trans helapsed) Cancel.WaitOutcome.noConfusion
  | @again left used t o error _ ih =>
    obtain ⟨hx, s₁, hs₁, ht, hcells⟩ := h.pushed ht hs
    have hparts : Answered answer
        ([.logged (j.retryingEntry (used + 1) error), j.waited .elapsed] ++ t) s₁ s' := ht
    obtain ⟨s₂, hwaited, ht⟩ := answered_append.mp hparts
    obtain ⟨hs₂, hsame⟩ := h.still hwaited
      (List.forall_mem_cons.mpr ⟨rfl, List.forall_mem_singleton.mpr rfl⟩) rfl hs₁
    have hthen : cells s₂ = (cells s).set j.key ((cells s j.key).next j.payload) :=
      hsame.trans hcells
    obtain ⟨hs', hanswers, ho, hset⟩ := ih ht hs₂
    rw [hthen, Cells.set_self] at hanswers ho hset
    rw [Cell.fate_again (Cell.answer_eq_error.mp hx)]
    refine ⟨hs', ?_, ho, by rw [hset, Cells.set_set]⟩
    rw [Job.pushes_pushed, pushes_logged, Job.pushes_waited, List.map_cons, hanswers]

/-- **The turns of a payload** go by the plans of their keys. The induction is on the turns. -/
theorem turns {e : Engine} {link : LinkId} {payload : Bytes} {turns : List Turn}
    (hholds : ∀ u ∈ turns, u.Holds e link payload token) {s s' : σ}
    (ht : Answered answer (turns.flatMap Turn.tries) s s') (hs : I s) :
    I s' ∧ turns.map Turn.showing =
        ((cells s).deliver payload (e.retry.attempts - 1) (turns.map Turn.key)).1 ∧
      cells s' = ((cells s).deliver payload (e.retry.attempts - 1) (turns.map Turn.key)).2 := by
  induction turns generalizing s with
  | nil =>
    obtain rfl : s' = s := ht
    exact ⟨hs, rfl, rfl⟩
  | cons u turns ih =>
    rw [List.forall_mem_cons] at hholds
    obtain ⟨s₁, hnow, hlater⟩ := answered_append.mp ht
    obtain ⟨hs₁, hanswers, ho, hcells⟩ := h.turn rfl (Job.tried_of_trace hholds.1) hnow hs
    obtain ⟨hs', hshown, hthen⟩ := ih hholds.2 hlater hs₁
    rw [hcells] at hshown hthen
    refine ⟨hs', ?_, hthen⟩
    rw [List.map_cons, List.map_cons, Cells.deliver, hshown, Turn.showing, hanswers, ho]

end Discreet

/-! ## Payloads that are tried to the end -/

/-- All keys took their turn, each with a push, and the link and the waits lasted. -/
structure Course.Completes (e : Engine) (c : Course) : Prop where
  keys : c.turns.map Turn.key = e.destination.keys
  tried : ∀ u ∈ c.turns, pushes u.tries ≠ []
  outcome : c.outcome = .ofFailures (keysThat KeyOutcome.isExhausted c.turns) []

/-- What is shown of a payload. -/
def Course.showing (c : Course) : List Showing := c.turns.map Turn.showing

/-- What is shown of a payload and the keys other than `j`, and which of these are reported. -/
def Course.beside (j : String) (c : Course) : List Showing × List String :=
  (Cells.others j c.showing, (keysThat KeyOutcome.isExhausted c.turns).filter fun k => k ≠ j)

/-- What is shown decides what is reported. -/
theorem Course.beside_eq (j : String) (c : Course) :
    c.beside j = (Cells.others j c.showing,
      ((Cells.others j c.showing).filter fun x => x.outcome.isExhausted).map Showing.key) := by
  refine Prod.ext rfl ?_
  simp only [beside, keysThat, Cells.others, showing, List.filter_map, List.filter_filter,
    List.map_map]
  exact congrArg _ (List.filter_congr fun u _ => Bool.and_comm _ _)

theorem Course.map_beside_congr {j : String} {courses₁ courses₂ : List Course}
    (h : (courses₁.map Course.showing).map (Cells.others j) =
      (courses₂.map Course.showing).map (Cells.others j)) :
    courses₁.map (Course.beside j) = courses₂.map (Course.beside j) := by
  have hbeside (courses : List Course) : courses.map (Course.beside j) =
      ((courses.map Course.showing).map (Cells.others j)).map fun l =>
        (l, (l.filter fun x => x.outcome.isExhausted).map Showing.key) := by
    simp only [List.map_map]
    exact List.map_congr_left fun c _ => c.beside_eq j
  rw [hbeside, hbeside, h]

namespace Discreet

variable {σ : Type} {token : TokenId} {answer : (r : Request) → σ → r.Answer × σ} {I : σ → Prop}
  {cells : σ → Cells} {e : Engine} {link : LinkId} {payload : Bytes}
  (h : Discreet token answer I cells)
include h

/-- **A payload over a link** goes by the plans, and is tried to the end. -/
theorem course {turns : List Turn} {o : PayloadOutcome}
    (hholds : ∀ u ∈ turns, u.Holds e link payload token)
    (hc : Concludes e.destination.keys [] [] turns o) {s s' : σ}
    (ht : Answered answer (turns.flatMap Turn.tries) s s') (hs : I s) :
    I s' ∧ Course.Completes e ⟨payload, turns, o⟩ ∧
      turns.map Turn.showing = (e.foresee payload (cells s)).1 ∧
      cells s' = (e.foresee payload (cells s)).2 := by
  obtain ⟨hs', hshown, hcells⟩ := h.turns hholds ht hs
  have hkept : ∀ u ∈ turns, u.outcome.isLost = false ∧ u.outcome.isCancelled = false := by
    intro u hu
    exact Cells.deliver_kept _ _ _ (hshown ▸ List.mem_map_of_mem hu)
  obtain ⟨hkeys, ho⟩ := hc.of_kept fun u hu => (hkept u hu).1
  rw [hkeys] at hshown hcells
  refine ⟨hs', ⟨hkeys, fun u hu => pushes_push_ne_nil (hholds u hu), ?_⟩, hshown, hcells⟩
  rw [ho, keysThat_eq_nil.mpr fun u hu => (hkept u hu).2]
  rfl

/-- The exchanges of a talk that sends, up to where nothing is pushed any more. -/
theorem around {before mid after : List Exchange} {s s' : σ}
    (ht : Answered answer (before ++ (mid ++ after)) s s')
    (hsending : ∀ x ∈ before ++ (mid ++ after), x.request.isSending = true)
    (hbefore : pushes before = []) (hafter : pushes after = []) (hs : I s) :
    ∃ s₁ s₂, I s₁ ∧ cells s₁ = cells s ∧ Answered answer mid s₁ s₂ ∧
      (I s₂ → cells s' = cells s₂) := by
  rw [List.forall_mem_append, List.forall_mem_append] at hsending
  obtain ⟨s₁, hfirst, hrest⟩ := answered_append.mp ht
  obtain ⟨s₂, hmid, hlast⟩ := answered_append.mp hrest
  obtain ⟨hs₁, hsame⟩ := h.still hfirst hsending.1 hbefore hs
  exact ⟨s₁, s₂, hs₁, hsame, hmid, fun hs₂ => (h.still hlast hsending.2.2 hafter hs₂).2⟩

end Discreet

/-! ## Sends and batches -/

/-- A send over a borrowed link, as the course of its payload: read in one way, and reported. -/
structure Engine.SentAs (e : Engine) (payload : Bytes) (token : TokenId) (t : List Exchange)
    (r : Except LifecycleError SendOutcome) (c : Course) : Prop where
  spans : e.Spans payload token t c.turns
  unique : ∀ turns, e.Spans payload token t turns → turns = c.turns
  completes : c.Completes e
  report : r = .ok (e.reported c.outcome)

/-- A batch over a borrowed link, as the courses of all its payloads: read in one way, and
reported. -/
structure Engine.BatchAs (e : Engine) (payloads : List Bytes) (t : List Exchange)
    (r : Except LifecycleError BulkReport) (courses : List Course) : Prop where
  covers : e.Covers payloads t courses
  unique : ∀ courses', e.Covers payloads t courses' → courses' = courses
  payloads : courses.map Course.payload = payloads
  completes : ∀ c ∈ courses, c.Completes e
  report : ∃ report, r = .ok report ∧
    report.delivered = courses.countP (fun c => c.outcome.isDelivered) ∧
    report.failed = courses.countP (fun c => !c.outcome.isDelivered) ∧ report.abandoned = 0

namespace Discreet

variable {σ : Type} {answer : (r : Request) → σ → r.Answer × σ} {I : σ → Prop}
  {cells : σ → Cells} {e : Engine}

/-- **A send goes by the plans.** -/
theorem send {token : TokenId} (h : Discreet token answer I cells) {payload : Bytes}
    {t : List Exchange} {r : Except LifecycleError SendOutcome}
    (htrace : Trace (e.sendWith payload token) t r) (hb : borrowed t ≠ none) {s s' : σ}
    (ht : Answered answer t s s') (hs : I s) :
    ∃ c, e.SentAs payload token t r c ∧ c.showing = (e.foresee payload (cells s)).1 ∧
      cells s' = (e.foresee payload (cells s)).2 := by
  have hsending := (e.sendWith_sends payload token).requests htrace
  rcases trace_sendWith_cases htrace with ⟨u, outcome, rfl, rfl, h₁⟩ |
    ⟨phase, error, -, -, rfl⟩
  · rcases trace_sendOverLink h₁ with ⟨reason, quiet, -, rfl, hnone, -⟩ |
      ⟨link, turns, o, back, rfl, hback, hkeys, hholds, hc, rfl⟩
    · exact absurd hnone hb
    · have hspans := e.spans_turns hkeys hholds hback o
      have hafter : pushes (back ++ e.lossNote o) = [] := by
        rw [pushes_append, hback.pushes_eq_nil, e.pushes_lossNote]
        rfl
      have hparts : Answered answer ([⟨.phase, .started⟩, ⟨.poolPhase, .running⟩,
          ⟨.borrow, .ok link⟩] ++ (turns.flatMap Turn.tries ++ (back ++ e.lossNote o))) s s' := ht
      obtain ⟨s₁, s₂, hs₁, hsame, hmid, hlast⟩ := h.around hparts hsending rfl hafter hs
      obtain ⟨hs₂, hcompletes, hshown, hcells⟩ := h.course hholds hc hmid hs₁
      rw [hsame] at hshown hcells
      exact ⟨⟨payload, turns, o⟩, ⟨hspans, fun _ h' => h'.unique hspans, hcompletes, rfl⟩, hshown,
        (hlast hs₂).trans hcells⟩
  · exact absurd rfl hb

variable (h : Discreet e.token answer I cells)
include h

/-- **The courses of a batch** go by the plans. The induction is on the courses. -/
theorem courses {link : LinkId} {courses : List Course} (hholds : ∀ c ∈ courses, c.Holds e link)
    {s s' : σ} (ht : Answered answer (courses.flatMap Course.exchanges) s s') (hs : I s) :
    I s' ∧ (∀ c ∈ courses, c.Completes e) ∧
      courses.map Course.showing =
        (e.foreseeAll (courses.map Course.payload) (cells s)).1 ∧
      cells s' = (e.foreseeAll (courses.map Course.payload) (cells s)).2 := by
  induction courses generalizing s with
  | nil =>
    obtain rfl : s' = s := ht
    exact ⟨hs, fun _ hc => absurd hc List.not_mem_nil, rfl, rfl⟩
  | cons c courses ih =>
    rw [List.forall_mem_cons] at hholds
    obtain ⟨s₁, hnow, hlater⟩ := answered_append.mp ht
    obtain ⟨hs₁, hcompletes, hshown, hcells⟩ :=
      h.course hholds.1.turns hholds.1.concludes hnow hs
    obtain ⟨hs', hall, hshows, hthen⟩ := ih hholds.2 hlater hs₁
    rw [hcells] at hshows hthen
    refine ⟨hs', List.forall_mem_cons.mpr ⟨hcompletes, hall⟩, ?_, hthen⟩
    exact List.cons_eq_cons.mpr ⟨hshown, hshows⟩

/-- **A batch goes by the plans.** -/
theorem bulk (hd : e.destination.IsValid) {payloads : List Bytes} {t : List Exchange}
    {r : Except LifecycleError BulkReport} (htrace : Trace (e.sendBulk payloads) t r)
    (hb : borrowed t ≠ none) {s s' : σ} (ht : Answered answer t s s') (hs : I s) :
    ∃ courses, e.BatchAs payloads t r courses ∧
      courses.map Course.showing = (e.foreseeAll payloads (cells s)).1 ∧
      cells s' = (e.foreseeAll payloads (cells s)).2 := by
  have hsending := (e.sendBulk_sends payloads).requests htrace
  rcases trace_sendBulk_cases htrace with ⟨batch, report, u, rfl, rfl, h₁⟩ |
    ⟨phase, error, -, -, rfl⟩
  · rcases trace_bulkOverLink h₁ with ⟨reason, quiet, -, rfl, hnone, -⟩ |
      ⟨link, tally, w, rest, courses, after, rfl, htallies, hrest, rfl⟩
    · exact absurd hnone hb
    · have hcovers := htallies.covers hrest batch
      have hafter : pushes (after ++ rest) = [] := by
        rw [pushes_append, htallies.ends.pushes_eq_nil, hrest.pushes_eq_nil]
        rfl
      have hparts : w ++ rest = courses.flatMap Course.exchanges ++ (after ++ rest) := by
        rw [htallies.exchanges, List.append_assoc]
      rw [hparts] at ht hsending
      have hopened : Answered answer (e.opening link batch ++
          (courses.flatMap Course.exchanges ++ (after ++ rest))) s s' := ht
      obtain ⟨s₁, s₂, hs₁, hsame, hmid, hlast⟩ := h.around hopened hsending rfl hafter hs
      obtain ⟨hs₂, hcompletes, hshown, hcells⟩ := h.courses htallies.holds hmid hs₁
      have hpayloads : courses.map Course.payload = payloads ∧ tally.abandoned = 0 := by
        refine htallies.ends.of_kept fun c hc => ?_
        rw [(hcompletes c hc).outcome]
        exact PayloadOutcome.keepsLink_ofFailures _ _
      rw [hsame, hpayloads.1] at hshown hcells
      refine ⟨courses, ⟨hcovers, fun _ h' => h'.unique hd hcovers, hpayloads.1, hcompletes,
        _, rfl, ?_, ?_, hpayloads.2⟩, hshown, (hlast hs₂).trans hcells⟩
      · exact htallies.delivered.trans (Nat.zero_add _)
      · exact htallies.failed.trans (Nat.zero_add _)
  · exact absurd rfl hb

end Discreet

end LogShipper.Delivery
