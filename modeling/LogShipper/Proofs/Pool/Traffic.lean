import LogShipper.Proofs.Delivery.Ledger
import LogShipper.Proofs.Pool.Census
import LogShipper.Store.Scripted

/-!
# Many at one pool

`Traffic` is a pool in use by many at a time: borrowers that take links, hold them as leases, and
give them back or drop them; background checks; openings; the end of the pool. Each talk is a
`Task`, which goes on by one request at a time, in any order with the others.

The links that are lent are at any time just those that somebody holds: as a lease, or in a talk
that borrowed them and has not given them back (`Balanced`). What somebody holds is read off the
requests of the talks and their answers alone.

Covers `acquire`, `release`, the end of a lease, `shutdown`, `evict_idle` and the opening of links.

Out of scope: links that expire by age (`World/Time.lean`).

Results:
* `Delivery.Dialogue.Deals.minds`: a talk that keeps to the rules of the ledger gives back only what
  it holds.
* `Balanced.step`, `Balanced.run`: one event, and any number of them.
* `Traffic.books_balance`: the counts of a pool in use, and where every open link is.
-/

namespace LogShipper

open Delivery (Request Dialogue PoolSettings Protocol Ledger ledger)

/-! ## Who holds a link -/

namespace Delivery

/-- The rules of those who give back only what they hold. -/
def holder : Protocol (List LinkId) where
  allows held
    | .giveBack link => link ∈ held
    | .discard link => link ∈ held
    | _ => True
  admits held
    | .borrow, .ok link => link ∉ held
    | .tryBorrow, some link => link ∉ held
    | _, _ => True
  after held r x := r.holding held x

/-- A talk that gives back only what it holds. -/
def Dialogue.Minds {α : Type} (d : Dialogue α) (held : List LinkId) : Prop :=
  d.Abides holder held fun _ _ => True

variable {α : Type} {h : Ledger} {held : List LinkId}

/-- One exchange: what the ledger allows and the links that somebody holds. -/
theorem held_step {r : Request} (hh : h.Held held) (hr : ledger.allows h r) :
    holder.allows held r ∧ ∀ x, holder.admits held r x →
      ledger.admits h r x ∧ (ledger.after h r x).Held (holder.after held r x) := by
  cases r with
  | borrow =>
    refine ⟨trivial, fun x hx => ?_⟩
    cases x with
    | ok l => exact ⟨hh.away_of_not_mem hx, hh.borrow hx⟩
    | error _ => exact ⟨trivial, hh⟩
  | tryBorrow =>
    refine ⟨trivial, fun x hx => ?_⟩
    cases x with
    | some l => exact ⟨hh.away_of_not_mem hx, hh.borrow hx⟩
    | none => exact ⟨trivial, hh⟩
  | push l key payload =>
    refine ⟨trivial, fun x _ => ⟨trivial, ?_⟩⟩
    cases x with
    | ok _ => exact hh
    | error e =>
      cases e with
      | command _ => exact hh
      | connection _ => exact hh.spoil (Ledger.ne_away_of_sound hr.1)
  | ping l =>
    refine ⟨trivial, fun x _ => ⟨trivial, ?_⟩⟩
    cases x with
    | ok _ => exact hh
    | error _ => exact hh.spoil (Ledger.ne_away_of_sound hr)
  | reset l =>
    refine ⟨trivial, fun x _ => ⟨trivial, ?_⟩⟩
    cases x with
    | ok _ => exact hh
    | error _ => exact hh.spoil (Ledger.ne_away_of_sound hr)
  | giveBack l =>
    have lent := Ledger.ne_away_of_sound hr
    exact ⟨hh.mem_iff.mpr lent, fun _ _ => ⟨trivial, hh.erase lent⟩⟩
  | discard l => exact ⟨hh.mem_iff.mpr hr, fun _ _ => ⟨trivial, hh.erase hr⟩⟩
  | _ => exact ⟨trivial, fun _ _ => ⟨trivial, hh⟩⟩

/-- **A talk that keeps to the rules of the ledger gives back only what it holds**, and the ledger
tells what it holds in the end. -/
theorem Dialogue.Deals.holds {d : Dialogue α} {Q : α → Ledger → Prop} (hd : d.Deals h Q)
    (hh : h.Held held) :
    d.Abides holder held fun a held' => ∃ h' : Ledger, h'.Held held' ∧ Q a h' :=
  Dialogue.Abides.simulate (fun _ _ _ hs hr => held_step hs hr) hd hh

theorem Dialogue.Deals.minds {d : Dialogue α} {Q : α → Ledger → Prop} (hd : d.Deals h Q)
    (hh : h.Held held) : d.Minds held :=
  (hd.holds hh).mono fun _ _ _ => trivial

namespace Ledger

theorem Held.perm {held' : List LinkId} (hh : h.Held held) (hh' : h.Held held') :
    held.Perm held' :=
  List.perm_iff_count.mpr fun l => (hh l).trans (hh' l).symm

/-- Somebody who holds nothing. -/
theorem held_nil : Held (fun _ => .away) [] := fun _ => rfl

/-- Somebody who holds one link, with nothing known against it. -/
theorem held_one (link : LinkId) : Held (set (fun _ => .away) link .sound) [link] :=
  held_nil.borrow List.not_mem_nil

end Ledger

/-- A talk that settles leaves what is held as it was. -/
theorem Dialogue.Settles.holds {d : Dialogue α} (hd : d.Settles h) (hh : h.Held held) :
    d.Abides holder held fun _ held' => held'.Perm held := by
  refine (Dialogue.Deals.holds hd hh).mono fun _ held' hafter => ?_
  obtain ⟨h', hh', rfl⟩ := hafter
  exact hh'.perm hh

/-- A talk that returns a link leaves all else that is held as it was. -/
theorem Dialogue.Returns.holds {d : Dialogue α} {link : LinkId} (hd : d.Returns h link)
    (hh : h.Held held) (hl : h link ≠ .away) :
    d.Abides holder held fun _ held' => held'.Perm (held.erase link) := by
  refine (Dialogue.Deals.holds hd hh).mono fun _ held' hafter => ?_
  obtain ⟨h', hh', rfl⟩ := hafter
  exact hh'.perm (hh.erase hl)

end Delivery

/-! ## Links that are lent and held -/

namespace Delivery.Request

theorem holding_perm {a b : List LinkId} (h : a.Perm b) (r : Request) (x : r.Answer) :
    (r.holding a x).Perm (r.holding b x) := by
  cases r with
  | borrow => cases x with
    | ok l => exact h.cons l
    | error _ => exact h
  | tryBorrow => cases x with
    | some l => exact h.cons l
    | none => exact h
  | giveBack l => exact h.erase l
  | discard l => exact h.erase l
  | _ => exact h

/-- Requests about a link that somebody holds do not touch what others hold. -/
theorem holding_append {held : List LinkId} {r : Request} (hr : holder.allows held r)
    (x : r.Answer) (others : List LinkId) :
    r.holding (held ++ others) x = r.holding held x ++ others := by
  cases r with
  | borrow => cases x <;> rfl
  | tryBorrow => cases x <;> rfl
  | giveBack l => exact List.erase_append_left others hr
  | discard l => exact List.erase_append_left others hr
  | _ => rfl

end Delivery.Request

/-- Every link has its place, and those that are lent are just those that somebody holds. -/
structure World.LentTo {σ : Type} (s : PoolSettings) (held : List LinkId) (w : World σ) : Prop where
  census : Census s.config w.acts w.pool
  lent : w.pool.lent.Perm held

namespace World.LentTo

variable {σ : Type} {T : Transport σ} {s : PoolSettings} {held held' others : List LinkId}
  {l : LinkId} {w w₁ : World σ}

theorem perm (h : w.LentTo s held) (hp : held.Perm held') : w.LentTo s held' :=
  ⟨h.census, h.lent.trans hp⟩

theorem nodup (h : w.LentTo s held) : held.Nodup :=
  List.nodup_iff_count.mpr fun l => h.lent.count_eq l ▸ h.census.count_lent_le l

/-- A link that is held is not held twice. -/
theorem not_mem (h : w.LentTo s (l :: held)) : l ∉ held := by
  intro hl
  have hpos := List.count_pos_iff.mpr hl
  have hle := h.census.count_lent_le l
  rw [h.lent.count_eq, List.count_cons_self] at hle
  omega

/-- What depends on neither the record nor the pool. -/
theorem congr (h : w.LentTo s held) (hacts : w₁.acts = w.acts) (hpool : w.pool.Alike w₁.pool) :
    w₁.LentTo s held where
  census := hacts ▸ h.census.congr hpool
  lent := hpool.lent ▸ h.lent

/-- A link that was opened, or was not. -/
theorem settleOpening (h : w.LentTo s held) {index : Nat} (hi : index < w.pool.openings.length) :
    (w.settleOpening T s index).LentTo s held := by
  refine ⟨h.census.settleOpening hi, ?_⟩
  rw [World.settleOpening_lent]
  exact h.lent

/-- **A request of somebody who holds some of the links that are lent**: what they borrow nobody
held, and what others hold stays as it is. -/
theorem answerNow (h : w.LentTo s (held ++ others)) {r : Request}
    (hr : Delivery.holder.allows held r) :
    Delivery.holder.admits held r (w.answerNow T s r).1 ∧
      (w.answerNow T s r).2.LentTo s (r.holding held (w.answerNow T s r).1 ++ others) := by
  have returns (l : LinkId) (hl : r = .giveBack l ∨ r = .discard l) : l ∈ w.pool.lent := by
    have hheld : l ∈ held := by
      rcases hl with rfl | rfl
      · exact hr
      · exact hr
    exact h.lent.symm.subset (List.mem_append_left others hheld)
  have after : (w.answerNow T s r).2.LentTo s
      (r.holding held (w.answerNow T s r).1 ++ others) := by
    refine ⟨h.census.answerNow r returns, ?_⟩
    rw [World.answerNow_lent, ← Request.holding_append hr]
    exact Request.holding_perm h.lent r _
  refine ⟨?_, after⟩
  revert after
  generalize w.answerNow T s r = answered
  obtain ⟨x, w₁⟩ := answered
  intro after
  cases r with
  | borrow =>
    cases x with
    | ok l => exact fun hl => after.not_mem (List.mem_append_left others hl)
    | error _ => exact trivial
  | tryBorrow =>
    cases x with
    | some l => exact fun hl => after.not_mem (List.mem_append_left others hl)
    | none => exact trivial
  | _ => exact trivial

end World.LentTo

/-! ## A pool in use -/

/-- A talk that somebody is in the middle of, and the links that they hold. -/
structure Task where
  talk : Dialogue Unit
  held : List LinkId

/-- A pool, and all who use it. -/
structure Traffic (σ : Type) where
  world : World σ
  /-- The links of borrowers that have come back. -/
  leases : List LinkId := []
  tasks : List Task := []

namespace Traffic

variable {σ : Type} (T : Transport σ) (s : PoolSettings)

/-- The links that somebody holds. -/
def held (t : Traffic σ) : List LinkId := t.leases ++ t.tasks.flatMap (·.held)

/-- Something that happens to a pool in use. -/
inductive Event (σ : Type) where
  | startup
  | acquire
  /-- The holder of a lease gives it back. -/
  | release (link : LinkId) (healthy : Bool)
  /-- The holder of a lease goes away. -/
  | lapse (link : LinkId)
  | evict
  | shutdown (ms : Option Nat)
  /-- A talk goes on by one request. A borrower that is patient waits on if it gets no link. -/
  | advance (index : Nat) (patient : Bool)
  /-- An opening succeeds or fails. -/
  | opening (index : Nat)
  /-- The store changes by itself, or by the use that is made of a lease. -/
  | store (remote : σ)

/-- Somebody begins a talk. -/
def begin {α : Type} (talk : Dialogue α) (held : List LinkId) (t : Traffic σ) : Traffic σ :=
  { t with tasks := t.tasks ++ [⟨talk.bind fun _ => .done (), held⟩] }

/-- The holder of a lease begins a talk about it. -/
def beginWith (talk : Dialogue Unit) (link : LinkId) (t : Traffic σ) : Traffic σ :=
  if link ∈ t.leases then begin talk [link] { t with leases := t.leases.erase link } else t

/-- Whether a borrower got no link. -/
def isRefused : (r : Request) → r.Answer → Bool
  | .borrow, .error _ => true
  | _, _ => false

/-- A borrower waits on, and a link is opened for it. -/
def await (t : Traffic σ) : Traffic σ :=
  let w := (t.world.tryBorrow T s).2
  { t with world := { w with pool := w.pool.openOne s.config w.clock } }

/-- A talk goes on by one request; at its end its links become leases. -/
def advance (index : Nat) (patient : Bool) (t : Traffic σ) : Traffic σ :=
  match t.tasks[index]? with
  | none => t
  | some ⟨.done _, held⟩ =>
    { t with leases := held ++ t.leases, tasks := t.tasks.eraseIdx index }
  | some ⟨.ask r next, held⟩ =>
    let (x, world) := t.world.answerNow T s r
    if patient && isRefused r x then t.await T s
    else { t with world, tasks := t.tasks.set index ⟨next x, r.holding held x⟩ }

/-- What an event does. -/
def step (t : Traffic σ) : Event σ → Traffic σ
  | .startup => t.begin s.startup []
  | .acquire => t.begin Delivery.acquire []
  | .release link healthy => t.beginWith (s.release link healthy) link
  | .lapse link => t.beginWith (Delivery.PoolSettings.lapse link) link
  | .evict => t.begin s.evict []
  | .shutdown ms => t.begin (s.shutdown ms) []
  | .advance index patient => t.advance T s index patient
  | .opening index =>
    if index < t.world.pool.openings.length then
      { t with world := t.world.settleOpening T s index }
    else t
  | .store remote => { t with world := { t.world with remote } }

/-- One event after the other. -/
def run (t : Traffic σ) (events : List (Event σ)) : Traffic σ := events.foldl (step T s) t

/-! ## What is held -/

theorem perm_cons_eraseIdx {α : Type} {l : List α} {i : Nat} {a : α} (h : l[i]? = some a) :
    l.Perm (a :: l.eraseIdx i) := by
  induction l generalizing i with
  | nil => exact absurd h (by simp)
  | cons b l ih =>
    cases i with
    | zero =>
      obtain rfl : b = a := by simpa using h
      exact .refl _
    | succ i =>
      have htail : l.Perm (a :: l.eraseIdx i) := ih (by simpa using h)
      exact (htail.cons b).trans (.swap a b _)

/-- What one task holds, and what is held besides. -/
def besides (t : Traffic σ) (index : Nat) : List LinkId :=
  t.leases ++ (t.tasks.eraseIdx index).flatMap (·.held)

theorem held_perm {t : Traffic σ} {index : Nat} {task : Task} (h : t.tasks[index]? = some task) :
    t.held.Perm (task.held ++ t.besides index) := by
  have htasks : (t.tasks.flatMap (·.held)).Perm
      (task.held ++ (t.tasks.eraseIdx index).flatMap (·.held)) :=
    (perm_cons_eraseIdx h).flatMap_right _
  refine (htasks.append_left t.leases).trans ?_
  unfold besides
  rw [← List.append_assoc, ← List.append_assoc]
  exact List.perm_append_comm.append_right _

theorem held_set {t : Traffic σ} {index : Nat} {task : Task} (h : t.tasks[index]? = some task)
    (task' : Task) (world : World σ) :
    ({ t with world, tasks := t.tasks.set index task' } : Traffic σ).held.Perm
      (task'.held ++ t.besides index) := by
  have hlt := (List.getElem?_eq_some_iff.mp h).1
  have hset : (t.tasks.set index task')[index]? = some task' := by
    rw [List.getElem?_set_self hlt]
  have := held_perm (t := { t with world, tasks := t.tasks.set index task' }) hset
  unfold besides at this ⊢
  rw [List.eraseIdx_set_eq] at this
  exact this

/-! ## Balance -/

/-- Every link has its place, those that are lent are held by somebody, and everybody gives back
only what they hold. -/
structure Balanced (t : Traffic σ) : Prop where
  census : Census s.config t.world.acts t.world.pool
  lent : t.world.pool.lent.Perm t.held
  minds : ∀ task ∈ t.tasks, task.talk.Minds task.held

variable {T s} {t : Traffic σ}

theorem balanced_start (remote : σ) : Balanced s ⟨{ remote }, [], []⟩ where
  census := .empty s.config
  lent := .refl _
  minds _ h := absurd h List.not_mem_nil

theorem Balanced.begin (hb : Balanced s t) {α : Type} {talk : Dialogue α} (hm : talk.Minds []) :
    Balanced s (t.begin talk []) where
  census := hb.census
  lent := by
    have : (t.begin talk []).held = t.held := by
      simp [Traffic.begin, Traffic.held]
    rw [this]
    exact hb.lent
  minds task htask := by
    rcases List.mem_append.mp htask with htask | htask
    · exact hb.minds task htask
    · obtain rfl := List.mem_singleton.mp htask
      exact Dialogue.Abides.bind hm fun _ _ _ => trivial

theorem Balanced.beginWith (hb : Balanced s t) {talk : Dialogue Unit} {link : LinkId}
    (hm : talk.Minds [link]) : Balanced s (t.beginWith talk link) := by
  unfold Traffic.beginWith
  split
  · rename_i hl
    refine ⟨hb.census, hb.lent.trans ?_, fun task htask => ?_⟩
    · have hleases : t.leases.Perm (t.leases.erase link ++ [link]) :=
        (List.perm_cons_erase hl).trans (List.perm_append_singleton link _).symm
      simp only [Traffic.begin, Traffic.held, List.flatMap_append, List.flatMap_cons,
        List.flatMap_nil, List.append_nil]
      refine (hleases.append_right _).trans ?_
      rw [List.append_assoc]
      exact List.perm_append_comm.append_left _
    · rcases List.mem_append.mp htask with htask | htask
      · exact hb.minds task htask
      · obtain rfl := List.mem_singleton.mp htask
        exact Dialogue.Abides.bind hm fun _ _ _ => trivial
  · exact hb

/-! ## Going on by one request -/

/-- A borrower that got no link waits on. -/
theorem Balanced.await (hb : Balanced s t)
    (hrefused : isRefused .borrow (t.world.answerNow T s .borrow).1 = true) :
    Balanced s (t.await T s) := by
  have hborrowed := World.borrowed_tryBorrow T s t.world
  have hnone : (t.world.tryBorrow T s).1 = none := by
    unfold World.answerNow at hrefused
    dsimp only at hrefused
    split at hrefused
    · exact absurd hrefused Bool.false_ne_true
    · rename_i w hx
      rw [hx]
  rw [hnone] at hborrowed
  refine ⟨(hb.census.borrowed hborrowed).openOne _, ?_, hb.minds⟩
  show (Pool.openOne _ _ _).lent.Perm t.held
  rw [Pool.openOne_lent, hborrowed.lent]
  exact hb.lent

/-- **A talk goes on by one request.** -/
theorem Balanced.advance (hb : Balanced s t) (index : Nat) (patient : Bool) :
    Balanced s (t.advance T s index patient) := by
  unfold Traffic.advance
  split
  · exact hb
  · rename_i held ht
    refine ⟨hb.census, hb.lent.trans ?_, fun task htask => ?_⟩
    · refine (held_perm ht).trans ?_
      show (held ++ (t.leases ++ _)).Perm ((held ++ t.leases) ++ _)
      rw [List.append_assoc]
    · exact hb.minds task (List.mem_of_mem_eraseIdx htask)
  · rename_i r next held ht
    obtain ⟨hallows, hnext⟩ := hb.minds _ (List.mem_of_getElem? ht)
    have lent : t.world.LentTo s (held ++ t.besides index) :=
      ⟨hb.census, hb.lent.trans (held_perm ht)⟩
    obtain ⟨admits, after⟩ := lent.answerNow (T := T) hallows
    dsimp only
    split
    · rename_i hwait
      obtain ⟨-, hrefused⟩ := Bool.and_eq_true_iff.mp hwait
      cases r with
      | borrow => exact hb.await hrefused
      | _ => exact absurd hrefused Bool.false_ne_true
    · refine ⟨after.census, ?_, fun task htask => ?_⟩
      · exact after.lent.trans (held_set ht ⟨_, _⟩ _).symm
      · rcases List.mem_or_eq_of_mem_set htask with htask | rfl
        · exact hb.minds task htask
        · exact hnext _ admits

/-- **One event keeps the balance.** -/
theorem Balanced.step (hb : Balanced s t) (event : Event σ) : Balanced s (t.step T s event) := by
  have sound (link : LinkId) : Ledger.set (fun _ => .away) link .sound link = .sound :=
    Ledger.set_self _ _ _
  cases event with
  | startup => exact hb.begin ((s.startup_settles _).minds Ledger.held_nil)
  | acquire => exact hb.begin ((Delivery.acquire_abides _).minds Ledger.held_nil)
  | release link healthy =>
    have lent := Ledger.ne_away_of_sound (sound link)
    exact hb.beginWith ((s.release_returns lent fun _ => sound link).minds (Ledger.held_one link))
  | lapse link =>
    have returned := Delivery.PoolSettings.lapse_returns (sound link)
    exact hb.beginWith (returned.minds (Ledger.held_one link))
  | evict => exact hb.begin ((s.evict_settles _).minds Ledger.held_nil)
  | shutdown ms => exact hb.begin ((s.shutdown_settles ms _).minds Ledger.held_nil)
  | advance index patient => exact hb.advance index patient
  | opening index =>
    simp only [Traffic.step]
    split
    · rename_i hi
      refine ⟨hb.census.settleOpening hi, ?_, hb.minds⟩
      show (World.settleOpening T s index t.world).pool.lent.Perm t.held
      rw [World.settleOpening_lent]
      exact hb.lent
    · exact hb
  | store remote => exact ⟨hb.census, hb.lent, hb.minds⟩

theorem Balanced.run (hb : Balanced s t) (events : List (Event σ)) :
    Balanced s (t.run T s events) := by
  induction events generalizing t with
  | nil => exact hb
  | cons event events ih => exact ih (hb.step event)

/-! ## The books of a pool in use -/

/-- What the counts of a pool say of its links. -/
structure Books (T : Transport σ) (s : PoolSettings) (t : Traffic σ) : Prop where
  idle_le : t.world.pool.idle.length ≤ t.world.pool.connections
  bounded : t.world.pool.connections ≤ max 1 s.config.maxTotal.toNat
  /-- The links that are not idle are those that somebody holds. -/
  handed_out : t.world.pool.connections - t.world.pool.idle.length = t.held.length
  /-- That is how many links the end of the pool waits for. -/
  awaited : ∀ ms, (t.world.answerNow T s (.drain ms)).1 =
    t.world.pool.connections - t.world.pool.idle.length
  /-- No link is idle twice, held by two, or both. -/
  one_place : (t.world.pool.idle ++ t.held).Nodup
  /-- The links that are idle or held are those that were opened and not closed. -/
  open_iff : ∀ l, l ∈ t.world.pool.idle ++ t.held ↔
    openings t.world.acts l = 1 ∧ closings t.world.acts l = 0

theorem Balanced.books (hb : Balanced s t) : Books T s t := by
  have hlength := hb.lent.length_eq
  have hcount (l : LinkId) : (t.world.pool.idle ++ t.held).count l =
      openings t.world.acts l - closings t.world.acts l := by
    have := hb.census.placed l
    rw [List.count_append, ← hb.lent.count_eq]
    omega
  have hle (l : LinkId) := hb.census.openings_le l
  refine ⟨Nat.le_add_right _ _, ?_, ?_, fun ms => ?_, ?_, fun l => ?_⟩
  · exact Nat.le_trans (Nat.le_add_right _ _) hb.census.fits
  · unfold Pool.connections
    omega
  · show t.world.pool.lent.length = _
    unfold Pool.connections
    omega
  · refine List.nodup_iff_count.mpr fun l => ?_
    have := hle l
    rw [hcount]
    omega
  · have := hle l
    rw [← List.count_pos_iff, hcount]
    omega

/-- **The books of a pool in use balance**, whoever does what in whatever order. -/
theorem books_balance (T : Transport σ) (s : PoolSettings) (remote : σ)
    (events : List (Event σ)) : Books T s (run T s ⟨{ remote }, [], []⟩ events) :=
  ((balanced_start remote).run events).books

/-- A borrower that waited until a link was opened for it, and holds it now. -/
example : (run ScriptedStore.transport { endpoint := { host := "localhost" }, config := {} }
    ⟨{ remote := {} }, [], []⟩
    [.startup, .advance 0 false, .advance 0 false, .advance 0 false, .advance 0 false,
      .acquire, .advance 0 false, .advance 0 true, .opening 0, .advance 0 true,
      .advance 0 false]).held = [0] := by
  decide +kernel

end Traffic

end LogShipper
