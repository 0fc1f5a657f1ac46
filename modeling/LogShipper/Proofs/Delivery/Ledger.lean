import LogShipper.Proofs.Delivery.Protocol
import LogShipper.Proofs.Delivery.Turns

/-!
# The ledger of links

A `Ledger` says how each link stands: it is away, in the pool or elsewhere; it is lent, and nothing
is known against it; or it is lent and has failed. `ledger` are the rules of dealing with links:
only a sound link is used or put back, a link that has failed is to be discarded, and nothing is
pushed while such a link is still at hand. Whoever lends links lends only such as are away.

Every talk of delivery keeps to these rules, from every ledger on, and leaves the ledger as it was:
what it borrows it gives back.

Results:
* `release_returns`: giving back, in good health or not.
* `evict_settles`: a background check.
* `Call.settles`: every call on an engine.
-/

namespace LogShipper.Delivery

open Cancel (TokenId)

/-! ## Rules -/

/-- How a link stands. -/
inductive Standing where
  /-- It is not lent. -/
  | away
  /-- It is lent, and nothing is known against it. -/
  | sound
  /-- It is lent, and has failed. -/
  | spoilt
  deriving DecidableEq

/-- How all links stand. -/
abbrev Ledger := LinkId → Standing

namespace Ledger

variable {h : Ledger} {l k : LinkId}

/-- Notes how one link stands. -/
def set (h : Ledger) (l : LinkId) (s : Standing) : Ledger := fun k => if k = l then s else h k

@[simp] theorem set_self (h : Ledger) (l : LinkId) (s : Standing) : h.set l s l = s := if_pos rfl

theorem set_self_ne_away (h : Ledger) (l : LinkId) {s : Standing} (hs : s ≠ .away) :
    h.set l s l ≠ .away := by
  rwa [set_self]

theorem ne_away_of_sound (hl : h l = .sound) : h l ≠ .away := by
  rw [hl]
  exact Standing.noConfusion

theorem set_of_ne (hne : k ≠ l) (s : Standing) : h.set l s k = h k := if_neg hne

theorem set_of_mem {links : List LinkId} (hl : l ∉ links) (hk : k ∈ links) (s : Standing) :
    h.set l s k = h k := by
  refine set_of_ne ?_ s
  rintro rfl
  exact hl hk

@[simp] theorem set_set (h : Ledger) (l : LinkId) (s s' : Standing) :
    (h.set l s).set l s' = h.set l s' := by
  funext k
  unfold set
  split <;> rfl

theorem set_eq_self {s : Standing} (hl : h l = s) : h.set l s = h := by
  funext k
  unfold set
  split
  · rename_i hk
    rw [hk, hl]
  · rfl

theorem of_set_away {s : Standing} (hs : Standing.away ≠ s) (hk : h.set l .away k = s) :
    h k = s := by
  unfold set at hk
  split at hk
  · exact absurd hk hs
  · exact hk

/-- Notes how several links stand. -/
def setAll (h : Ledger) (links : List LinkId) (s : Standing) : Ledger :=
  fun k => if k ∈ links then s else h k

theorem setAll_set (h : Ledger) (l : LinkId) (links : List LinkId) (s : Standing) :
    (h.set l s).setAll links s = h.setAll (l :: links) s := by
  funext k
  unfold setAll set
  by_cases hk : k ∈ links
  · rw [if_pos hk, if_pos (List.mem_cons_of_mem l hk)]
  · rw [if_neg hk]
    by_cases hl : k = l
    · rw [if_pos hl, if_pos (hl ▸ List.mem_cons_self)]
    · rw [if_neg hl, if_neg (by simp [hk, hl])]

/-- Notes that a link has failed, if it was lost. -/
def spoilIf (h : Ledger) (l : LinkId) (lost : Bool) : Ledger :=
  if lost then h.set l .spoilt else h

theorem spoilIf_apply (h : Ledger) (l : LinkId) (lost : Bool) (k : LinkId) :
    h.spoilIf l lost k = if lost = true ∧ k = l then .spoilt else h k := by
  unfold spoilIf set
  cases lost with
  | true => simp
  | false => simp

/-- No link is at hand that has failed. -/
def Clean (h : Ledger) : Prop := ∀ l, h l ≠ .spoilt

theorem Clean.set {s : Standing} (hc : h.Clean) (hs : s ≠ .spoilt) : (h.set l s).Clean := by
  intro k
  unfold Ledger.set
  split
  · exact hs
  · exact hc k

/-- Somebody holds the links that the ledger does not have away. -/
def Held (h : Ledger) (held : List LinkId) : Prop :=
  ∀ l, held.count l = if h l = .away then 0 else 1

namespace Held

variable {held : List LinkId}

theorem mem_iff (hh : h.Held held) : l ∈ held ↔ h l ≠ .away := by
  rw [← List.count_pos_iff, hh]
  split
  · rename_i hl
    simp [hl]
  · rename_i hl
    simp [hl]

theorem away_of_not_mem (hh : h.Held held) (hl : l ∉ held) : h l = .away := by
  by_cases hs : h l = .away
  · exact hs
  · exact absurd (hh.mem_iff.mpr hs) hl

/-- A link is held in addition. -/
theorem borrow (hh : h.Held held) (hl : l ∉ held) : (h.set l .sound).Held (l :: held) := by
  intro k
  have hcount := hh k
  rw [List.count_cons]
  by_cases hkl : k = l
  · subst hkl
    rw [List.count_eq_zero.mpr hl, Ledger.set_self]
    simp
  · rw [Ledger.set_of_ne hkl, beq_eq_false_iff_ne.mpr (Ne.symm hkl), hcount]
    simp

theorem spoil (hh : h.Held held) (hl : h l ≠ .away) : (h.set l .spoilt).Held held := by
  intro k
  rw [hh]
  by_cases hkl : k = l
  · subst hkl
    rw [if_neg hl, Ledger.set_self]
    rfl
  · rw [Ledger.set_of_ne hkl]

theorem spoilIf (hh : h.Held held) (hl : h l ≠ .away) (lost : Bool) :
    (h.spoilIf l lost).Held held := by
  cases lost with
  | true => exact hh.spoil hl
  | false => exact hh

/-- A link is given back. -/
theorem erase (hh : h.Held held) (hl : h l ≠ .away) : (h.set l .away).Held (held.erase l) := by
  intro k
  have hcount := hh k
  rw [List.count_erase]
  by_cases hkl : k = l
  · subst hkl
    rw [if_neg hl] at hcount
    rw [hcount, Ledger.set_self]
    simp
  · rw [Ledger.set_of_ne hkl, beq_eq_false_iff_ne.mpr (Ne.symm hkl), hcount]
    simp

end Held

end Ledger

/-- The rules of dealing with links. -/
def ledger : Protocol Ledger where
  allows h
    | .push link _ _ => h link = .sound ∧ h.Clean
    | .ping link => h link = .sound
    | .reset link => h link = .sound
    | .giveBack link => h link = .sound
    | .discard link => h link ≠ .away
    | _ => True
  admits h
    | .borrow, .ok link => h link = .away
    | .tryBorrow, some link => h link = .away
    | _, _ => True
  after h
    | .borrow, .ok link => h.set link .sound
    | .tryBorrow, some link => h.set link .sound
    | .push link _ _, .error (.connection _) => h.set link .spoilt
    | .ping link, .error _ => h.set link .spoilt
    | .reset link, .error _ => h.set link .spoilt
    | .giveBack link, _ => h.set link .away
    | .discard link, _ => h.set link .away
    | _, _ => h

/-- A talk keeps to the rules from `h` on. -/
abbrev Dialogue.Deals {α : Type} (d : Dialogue α) (h : Ledger) (Q : α → Ledger → Prop) : Prop :=
  d.Abides ledger h Q

/-- A talk keeps to the rules and leaves the ledger as it was. -/
def Dialogue.Settles {α : Type} (d : Dialogue α) (h : Ledger) : Prop := d.Deals h fun _ h' => h' = h

/-- A talk keeps to the rules and has given a link back in the end. -/
def Dialogue.Returns {α : Type} (d : Dialogue α) (h : Ledger) (link : LinkId) : Prop :=
  d.Deals h fun _ h' => h' = h.set link .away

variable {α β : Type} {h : Ledger} {link : LinkId} {Q : α → Ledger → Prop}

theorem Dialogue.Settles.bind {d : Dialogue β} {f : β → Dialogue α} (hd : d.Settles h)
    (hf : ∀ b, (f b).Deals h Q) : (d.bind f).Deals h Q := by
  refine Abides.bind hd fun b h' hh => ?_
  subst hh
  exact hf b

theorem Dialogue.settles_log {l : Level} {s : Source} {m : String}
    {fields : List (String × String)} : (Dialogue.log l s m fields).Settles h :=
  ⟨trivial, fun _ _ => rfl⟩

/-! ## Borrowing and giving back -/

/-- What is borrowed was away. -/
theorem acquire_abides (h : Ledger) :
    acquire.Deals h fun x h' => match x with
      | .ok link => h link = .away ∧ h' = h.set link .sound
      | .error _ => h' = h := by
  refine ⟨trivial, fun phase _ => ?_⟩
  cases phase with
  | created => exact rfl
  | shutDown => exact rfl
  | running =>
    refine ⟨trivial, fun x hx => ?_⟩
    cases x with
    | ok link => exact ⟨hx, rfl⟩
    | error reason => exact rfl

namespace PoolSettings

variable (p : PoolSettings)

theorem discard_returns (hl : h link ≠ .away) : (discard link).Returns h link :=
  ⟨hl, fun _ _ => rfl⟩

theorem putBack_returns (hl : h link = .sound) : (p.putBack link).Returns h link := by
  refine ⟨trivial, fun idle _ => ?_⟩
  show Dialogue.Deals (if p.config.maxIdle.toNat ≤ idle then _ else _) h _
  split
  · exact Dialogue.settles_log.bind fun _ => discard_returns (Ledger.ne_away_of_sound hl)
  · exact ⟨hl, fun _ _ => rfl⟩

/-- A link that fails while it is given back is discarded. -/
theorem discard_spoilt_returns (h : Ledger) (link : LinkId) :
    (discard link).Deals (h.set link .spoilt) fun _ h' => h' = h.set link .away := by
  have lent := h.set_self_ne_away link (s := .spoilt) Standing.noConfusion
  refine (discard_returns lent).mono fun _ h' hh => ?_
  rw [hh, Ledger.set_set]

theorem checkReturned_returns (hl : h link = .sound) :
    (p.checkReturned link).Returns h link := by
  unfold checkReturned
  split
  · refine ⟨hl, fun x _ => ?_⟩
    cases x with
    | ok _ => exact p.putBack_returns hl
    | error e => exact Dialogue.settles_log.bind fun _ => discard_spoilt_returns h link
  · exact p.putBack_returns hl

/-- **Giving back**: a link in good health must be sound, any other one lent. -/
theorem release_returns {healthy : Bool} (hl : h link ≠ .away)
    (hh : healthy = true → h link = .sound) : (p.release link healthy).Returns h link := by
  unfold release
  split
  · rename_i ht
    refine ⟨hh ht, fun x _ => ?_⟩
    cases x with
    | ok _ => exact p.checkReturned_returns (hh ht)
    | error e => exact Dialogue.settles_log.bind fun _ => discard_spoilt_returns h link
  · exact Dialogue.settles_log.bind fun _ => discard_returns hl

theorem lapse_returns (hl : h link = .sound) : (lapse link).Returns h link :=
  ⟨hl, fun _ _ => rfl⟩

/-! ## The life of a pool -/

theorem startup_settles (h : Ledger) : (p.startup).Settles h := by
  refine ⟨trivial, fun phase _ => ?_⟩
  cases phase with
  | running => exact Dialogue.settles_log.bind fun _ => rfl
  | shutDown => exact rfl
  | created =>
    exact ⟨trivial, fun _ _ => Dialogue.settles_log.bind fun _ => rfl⟩

theorem shutdown_settles (ms : Option Nat) (h : Ledger) : (p.shutdown ms).Settles h := by
  refine ⟨trivial, fun phase _ => ?_⟩
  cases phase with
  | created => exact rfl
  | shutDown => exact rfl
  | running =>
    refine ⟨trivial, fun lent _ => ?_⟩
    have leave : Dialogue.Settles (do
        Dialogue.request .forsakePool
        p.log .info "Connection pool shut down" [("drained", Text.truth (lent = 0))]
        return decide (lent = 0)) h :=
      ⟨trivial, fun _ _ => Dialogue.settles_log.bind fun _ => rfl⟩
    by_cases hl : lent = 0
    · simp only [hl, ne_eq, not_true_eq_false, if_false]
      rw [hl] at leave
      exact leave
    · simp only [hl, ne_eq, not_false_eq_true, if_true]
      simp only [hl] at leave
      exact Dialogue.settles_log.bind fun _ => leave

/-! ## Background checks -/

theorem gather_abides (n : Nat) (h : Ledger) :
    (gather n).Deals h fun links h' =>
      links.Nodup ∧ (∀ l ∈ links, h l = .away) ∧ h' = h.setAll links .sound := by
  induction n generalizing h with
  | zero => exact ⟨List.nodup_nil, by simp, rfl⟩
  | succ n ih =>
    refine ⟨trivial, fun x hx => ?_⟩
    cases x with
    | none => exact ⟨List.nodup_nil, by simp, rfl⟩
    | some link =>
      refine (ih (h.set link .sound)).bind fun links h' ⟨hn, ha, hh⟩ => ?_
      have apart {k : LinkId} (hk : k ∈ links) : k ≠ link := by
        rintro rfl
        have := ha k hk
        rw [Ledger.set_self] at this
        exact Standing.noConfusion this
      refine ⟨List.nodup_cons.mpr ⟨fun hl => apart hl rfl, hn⟩, fun k hk => ?_, ?_⟩
      · rcases List.mem_cons.mp hk with rfl | hk
        · exact hx
        · rw [← ha k hk, Ledger.set_of_ne (apart hk)]
      · rw [hh, Ledger.setAll_set]

theorem probe_abides {batch : List LinkId} (hn : batch.Nodup) (hb : ∀ l ∈ batch, h l = .sound) :
    (p.probe batch).Deals h fun failed h' =>
      (∀ l ∈ failed, l ∈ batch) ∧ h' = h.setAll failed .spoilt := by
  induction batch generalizing h with
  | nil => exact ⟨by simp, rfl⟩
  | cons link rest ih =>
    obtain ⟨hnot, hn⟩ := List.nodup_cons.mp hn
    refine ⟨hb link List.mem_cons_self, fun x _ => ?_⟩
    cases x with
    | ok _ =>
      refine (ih hn fun l hl => hb l (List.mem_cons_of_mem link hl)).mono fun failed h' hf => ?_
      exact ⟨fun l hl => List.mem_cons_of_mem link (hf.1 l hl), hf.2⟩
    | error e =>
      refine Dialogue.settles_log.bind fun _ => ?_
      have still : ∀ l ∈ rest, h.set link .spoilt l = .sound := by
        intro l hl
        rw [Ledger.set_of_mem hnot hl]
        exact hb l (List.mem_cons_of_mem link hl)
      refine (ih hn still).bind fun failed h' ⟨hmem, hh⟩ => ⟨fun l hl => ?_, ?_⟩
      · rcases List.mem_cons.mp hl with rfl | hl
        · exact List.mem_cons_self
        · exact List.mem_cons_of_mem link (hmem l hl)
      · rw [hh, Ledger.setAll_set]

theorem disband_abides {failed batch : List LinkId} (hn : batch.Nodup)
    (hb : ∀ l ∈ batch, h l = if failed.contains l then .spoilt else .sound) :
    (disband failed batch).Deals h fun _ h' => h' = h.setAll batch .away := by
  induction batch generalizing h with
  | nil => exact rfl
  | cons link rest ih =>
    obtain ⟨hnot, hn⟩ := List.nodup_cons.mp hn
    have hl := hb link List.mem_cons_self
    have still : ∀ l ∈ rest,
        h.set link .away l = if failed.contains l then .spoilt else .sound := by
      intro l hl
      rw [Ledger.set_of_mem hnot hl]
      exact hb l (List.mem_cons_of_mem link hl)
    have rest_abides := (ih hn still).mono fun _ h' hh => by
      rw [Ledger.setAll_set] at hh
      exact hh
    unfold disband
    by_cases hf : failed.contains link = true
    · rw [if_pos hf] at hl
      rw [if_pos hf]
      refine ⟨fun haway => ?_, fun _ _ => rest_abides⟩
      rw [hl] at haway
      exact Standing.noConfusion haway
    · rw [if_neg hf] at hl
      rw [if_neg hf]
      exact ⟨hl, fun _ _ => rest_abides⟩

/-- **A background check** gives back or discards all that it borrows. -/
theorem evict_settles (h : Ledger) : p.evict.Settles h := by
  refine (gather_abides _ h).bind fun batch h₁ ⟨hn, haway, hh₁⟩ => ?_
  have sound : ∀ l ∈ batch, h₁ l = .sound := by
    intro l hl
    rw [hh₁]
    exact if_pos hl
  refine (p.probe_abides hn sound).bind fun failed h₂ ⟨hmem, hh₂⟩ => ?_
  have marked : ∀ l ∈ batch, h₂ l = if failed.contains l then .spoilt else .sound := by
    intro l hl
    rw [hh₂, List.contains_eq_mem]
    unfold Ledger.setAll
    rw [sound l hl]
    simp
  have back : h₂.setAll batch .away = h := by
    funext l
    unfold Ledger.setAll
    split
    · rename_i hl
      exact (haway l hl).symm
    · rename_i hl
      rw [hh₂, hh₁]
      unfold Ledger.setAll
      rw [if_neg (fun hf => hl (hmem l hf)), if_neg hl]
  have leave : (disband failed batch).Deals h₂ fun _ h' => h' = h :=
    (disband_abides hn marked).mono fun _ h' hh => hh.trans back
  show Dialogue.Deals (if batch ≠ [] then _ else _) h₂ _
  split
  · exact Dialogue.settles_log.bind fun _ => leave
  · exact leave

end PoolSettings

/-! ## Sending -/

theorem Job.attempt_abides {j : Job} (left used : Nat) (hl : h j.link = .sound) (hc : h.Clean) :
    (j.attempt left used).Deals h fun o h' => h' = h.spoilIf j.link o.isLost := by
  induction left generalizing used with
  | zero =>
    rw [attempt]
    refine ⟨⟨hl, hc⟩, fun x _ => ?_⟩
    cases x with
    | ok _ => exact Dialogue.settles_log.bind fun _ => rfl
    | error e =>
      cases e with
      | connection reason => exact rfl
      | command e => exact Dialogue.settles_log.bind fun _ => rfl
  | succ left ih =>
    rw [attempt]
    refine ⟨⟨hl, hc⟩, fun x _ => ?_⟩
    cases x with
    | ok _ => exact Dialogue.settles_log.bind fun _ => rfl
    | error e =>
      cases e with
      | connection reason => exact rfl
      | command e =>
        refine Dialogue.settles_log.bind fun _ => ⟨trivial, fun x _ => ?_⟩
        cases x with
        | elapsed => exact ih (used + 1)
        | cancelled => exact Dialogue.settles_log.bind fun _ => rfl

namespace Engine

variable (e : Engine)

theorem deliverKeys_abides {payload : Bytes} {token : TokenId} (hl : h link = .sound)
    (hc : h.Clean) (keys exhausted cancelled : List String) :
    (e.deliverKeys link payload token keys exhausted cancelled).Deals h fun o h' =>
      h' = h.spoilIf link !o.keepsLink := by
  induction keys generalizing exhausted cancelled with
  | nil =>
    show h = h.spoilIf link !(PayloadOutcome.ofFailures _ _).keepsLink
    unfold PayloadOutcome.ofFailures
    split <;> rfl
  | cons key keys ih =>
    have tries := Job.attempt_abides (h := h)
      (j := ⟨link, key, payload, e.retry.retryDelayMs, token⟩) (e.retry.attempts - 1) 0 hl hc
    refine tries.bind fun o h' hh => ?_
    subst hh
    cases o with
    | delivered _ => exact ih exhausted cancelled
    | exhausted _ _ => exact ih (key :: exhausted) cancelled
    | cancelled _ => exact ih exhausted (key :: cancelled)
    | lost reason => exact rfl

theorem deliver_abides {payload : Bytes} {token : TokenId} (hl : h link = .sound) (hc : h.Clean) :
    (e.deliver link payload token).Deals h fun o h' => h' = h.spoilIf link !o.keepsLink :=
  e.deliverKeys_abides hl hc _ _ _

/-- After its use a link is given back, in good health unless it was lost. -/
theorem release_used (hl : h link = .away) (healthy : Bool) :
    (e.pool.release link healthy).Deals ((h.set link .sound).spoilIf link !healthy)
      fun _ h' => h' = h := by
  have back (s : Standing) : (h.set link s).set link .away = h := by
    rw [Ledger.set_set, Ledger.set_eq_self hl]
  unfold Ledger.spoilIf
  cases healthy with
  | true =>
    have lent := h.set_self_ne_away link (s := .sound) Standing.noConfusion
    exact (e.pool.release_returns lent fun _ => h.set_self link .sound).mono
      fun _ h' hh => hh.trans (back .sound)
  | false =>
    rw [Bool.not_false, if_pos rfl, Ledger.set_set]
    have lent := h.set_self_ne_away link (s := .spoilt) Standing.noConfusion
    exact (e.pool.release_returns lent fun hh => absurd hh Bool.false_ne_true).mono
      fun _ h' hh => hh.trans (back .spoilt)

theorem report_settles (o : PayloadOutcome) : (e.report o).Settles h := by
  cases o with
  | delivered => exact rfl
  | undelivered exhausted cancelled => exact rfl
  | lost key reason => exact Dialogue.settles_log.bind fun _ => rfl

theorem sendOverLink_settles (hc : h.Clean) (payload : Bytes) (token : TokenId) :
    (e.sendOverLink payload token).Settles h := by
  refine (acquire_abides h).bind fun x h₁ hx => ?_
  cases x with
  | error err =>
    subst hx
    exact Dialogue.settles_log.bind fun _ => rfl
  | ok link =>
    obtain ⟨haway, rfl⟩ := hx
    have sent : (e.deliver link payload token).Deals (h.set link .sound) _ :=
      e.deliver_abides (h.set_self link .sound) (hc.set Standing.noConfusion)
    refine sent.bind fun o h₂ hh => ?_
    subst hh
    refine (e.release_used haway o.keepsLink).bind fun _ h₃ hh => ?_
    subst hh
    exact e.report_settles o

theorem ensureStarted_settles (h : Ledger) : e.ensureStarted.Settles h := by
  refine ⟨trivial, fun phase _ => ?_⟩
  cases phase with
  | started => exact rfl
  | created => exact Dialogue.settles_log.bind fun _ => rfl
  | stopped => exact Dialogue.settles_log.bind fun _ => rfl

theorem sendWith_settles (hc : h.Clean) (payload : Bytes) (token : TokenId) :
    (e.sendWith payload token).Settles h := by
  refine (e.ensureStarted_settles h).bind fun x => ?_
  cases x with
  | error err => exact rfl
  | ok _ => exact (e.sendOverLink_settles hc payload token).bind fun _ => rfl

/-! ## Sending many payloads -/

theorem deliverAll_abides (hl : h link = .sound) (hc : h.Clean) (payloads : List Bytes)
    {tally : Tally} (ht : tally.healthy = true) :
    (e.deliverAll link payloads tally).Deals h fun t h' => h' = h.spoilIf link !t.healthy := by
  induction payloads generalizing tally with
  | nil =>
    show h = h.spoilIf link !tally.healthy
    rw [ht]
    rfl
  | cons payload rest ih =>
    refine (e.deliver_abides hl hc).bind fun o h' hh => ?_
    subst hh
    cases o with
    | delivered => exact ih ht
    | undelivered exhausted cancelled => exact ih ht
    | lost key reason => exact Dialogue.settles_log.bind fun _ => rfl

theorem bulkOverLink_settles (hc : h.Clean) (payloads : List Bytes) (batch : String) :
    (e.bulkOverLink payloads batch).Settles h := by
  refine (acquire_abides h).bind fun x h₁ hx => ?_
  cases x with
  | error err =>
    subst hx
    exact Dialogue.settles_log.bind fun _ => rfl
  | ok link =>
    obtain ⟨haway, rfl⟩ := hx
    refine Dialogue.settles_log.bind fun _ => ?_
    have sent : (e.deliverAll link payloads {}).Deals (h.set link .sound) _ :=
      e.deliverAll_abides (h.set_self link .sound) (hc.set Standing.noConfusion) payloads rfl
    refine sent.bind fun tally h₂ hh => ?_
    subst hh
    refine (e.release_used haway tally.healthy).bind fun _ h₃ hh => ?_
    subst hh
    refine Dialogue.Settles.bind ?_ fun _ => rfl
    unfold logBatch
    split <;> exact Dialogue.settles_log

theorem sendBulk_settles (hc : h.Clean) (payloads : List Bytes) :
    (e.sendBulk payloads).Settles h := by
  refine (e.ensureStarted_settles h).bind fun x => ?_
  cases x with
  | error err => exact rfl
  | ok _ =>
    exact ⟨trivial, fun batch _ => (e.bulkOverLink_settles hc payloads batch).bind fun _ => rfl⟩

theorem sendEach_settles (hc : h.Clean) (payloads : List Bytes) :
    (e.sendEach payloads).Settles h := by
  induction payloads with
  | nil => exact rfl
  | cons payload rest ih =>
    exact (e.sendWith_settles hc payload e.token).bind fun _ => ih.bind fun _ => rfl

theorem sendAll_settles (hc : h.Clean) (senders : List (List Bytes)) :
    (e.sendAll senders).Settles h := by
  induction senders with
  | nil => exact rfl
  | cons payloads rest ih =>
    exact (e.sendEach_settles hc payloads).bind fun _ => ih.bind fun _ => rfl

/-! ## Calls -/

theorem startup_settles (h : Ledger) : e.startup.Settles h := by
  refine ⟨trivial, fun phase _ => ?_⟩
  cases phase with
  | started => exact Dialogue.settles_log.bind fun _ => rfl
  | stopped => exact Dialogue.settles_log.bind fun _ => rfl
  | created =>
    refine (e.pool.startup_settles h).bind fun x => ?_
    cases x with
    | error err => exact Dialogue.settles_log.bind fun _ => rfl
    | ok _ => exact ⟨trivial, fun _ _ => Dialogue.settles_log.bind fun _ => rfl⟩

theorem shutdown_settles (ms : Option Nat) (h : Ledger) : (e.shutdown ms).Settles h := by
  refine ⟨trivial, fun phase _ => ?_⟩
  have stop : Dialogue.Settles (.ask (.cancel e.token) fun _ => do
      let drained ← e.pool.shutdown ms
      e.log .info "Delivery engine stopped" [("drained", Text.truth drained)]
      return drained) h :=
    ⟨trivial, fun _ _ => (e.pool.shutdown_settles ms h).bind fun _ =>
      Dialogue.settles_log.bind fun _ => rfl⟩
  cases phase with
  | stopped => exact rfl
  | created => exact stop
  | started => exact stop

end Engine

/-- **Every call on an engine** keeps to the rules, and leaves the ledger as it was. -/
theorem Call.settles (e : Engine) (hc : h.Clean) (c : Call) : (c.dialogue e).Settles h := by
  cases c with
  | describe => exact ⟨trivial, fun _ _ => rfl⟩
  | startup =>
    refine (e.startup_settles h).bind fun x => ?_
    cases x <;> exact rfl
  | send payload =>
    refine (e.sendWith_settles hc payload e.token).bind fun x => ?_
    cases x <;> exact rfl
  | sendWith payload name =>
    refine ⟨trivial, fun token _ => ?_⟩
    cases token with
    | none => exact rfl
    | some token =>
      refine (e.sendWith_settles hc payload token).bind fun x => ?_
      cases x <;> exact rfl
  | bulk payloads =>
    refine (e.sendBulk_settles hc payloads).bind fun x => ?_
    cases x <;> exact rfl
  | parallel senders => exact (e.sendAll_settles hc senders).bind fun _ => rfl
  | shutdown ms => exact (e.shutdown_settles ms h).bind fun _ => rfl
  | newToken name => exact ⟨trivial, fun _ _ => rfl⟩
  | engineToken name => exact ⟨trivial, fun _ _ => rfl⟩
  | childToken name parent =>
    refine ⟨trivial, fun token _ => ?_⟩
    cases token with
    | none => exact rfl
    | some token => exact ⟨trivial, fun _ _ => rfl⟩
  | cancel name =>
    refine ⟨trivial, fun token _ => ?_⟩
    cases token with
    | none => exact rfl
    | some token => exact ⟨trivial, fun _ _ => rfl⟩
  | isCancelled name =>
    refine ⟨trivial, fun token _ => ?_⟩
    cases token with
    | none => exact rfl
    | some token => exact ⟨trivial, fun _ _ => rfl⟩

end LogShipper.Delivery
