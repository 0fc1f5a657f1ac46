import LogShipper.Proofs.Delivery.Ledger
import LogShipper.Proofs.Pool.Census

/-!
# The custody of links

The record tells which links have failed: a push met a connection error over them, or a ping or a
reset did not succeed. `Custody` is what the ledger of those who deal with links, the record and the
pool have to do with each other: the links that are lent are those that the ledger does not have
away, what it has sound has not failed and what it has spoilt has, no idle link has failed, and no
link was ever used after it failed or was closed.

Results:
* `Orderly.not_used`: once a link has failed it is not used any more.
* `Custody.use`, `Custody.take`, `Custody.putBack`, `Custody.drop`, `Custody.arrive`: one lemma for
  each thing that can happen to a link.
* `Custody.answerNow`: any request that the rules of the ledger allow.
-/

namespace LogShipper

open Delivery (Ledger Standing)

/-! ## Use and failure -/

namespace Act

/-- The act is a push, a ping or a reset over a link. -/
def uses (l : LinkId) : Act → Bool
  | .began k _ _ => k == l
  | .pinged k _ => k == l
  | .reset k _ => k == l
  | _ => false

/-- The act shows that a link has failed. -/
def fails (l : LinkId) : Act → Bool
  | .ended k (.error (.connection _)) => k == l
  | .pinged k (.error _) => k == l
  | .reset k (.error _) => k == l
  | _ => false

end Act

/-- A link has failed. -/
def hasFailed (acts : List Act) (l : LinkId) : Bool := acts.any (·.fails l)

/-- No link was used after it had failed or was closed. -/
def Orderly : List Act → Prop
  | [] => True
  | a :: older =>
    (∀ l, a.uses l = true → hasFailed older l = false ∧ closings older l = 0) ∧ Orderly older

/-- Once a link has failed it is not used any more. -/
theorem Orderly.not_used {newer older : List Act} {a b : Act} {l : LinkId}
    (h : Orderly (newer ++ a :: older)) (ha : a.fails l = true) (hb : b ∈ newer) :
    b.uses l = false := by
  induction newer with
  | nil => exact absurd hb List.not_mem_nil
  | cons x newer ih =>
    rcases List.mem_cons.mp hb with rfl | hb
    · have failed : hasFailed (newer ++ a :: older) l = true :=
        List.any_eq_true.mpr ⟨a, List.mem_append_right _ List.mem_cons_self, ha⟩
      cases hu : b.uses l with
      | false => rfl
      | true =>
        have clean : hasFailed (newer ++ a :: older) l = false := (h.1 l hu).1
        rw [clean] at failed
        exact absurd failed Bool.false_ne_true
    · exact ih h.2 hb

/-! ## Custody -/

/-- What the ledger, the record and the pool have to do with each other. -/
structure Custody (c : PoolConfig) (h : Ledger) (acts : List Act) (p : Pool) : Prop where
  census : Census c acts p
  orderly : Orderly acts
  lent : h.Held p.lent
  idle : ∀ l ∈ p.idle, hasFailed acts l = false
  sound : ∀ l, h l = .sound → hasFailed acts l = false
  spoilt : ∀ l, h l = .spoilt → hasFailed acts l = true
  /-- Only a link that was opened can fail. -/
  known : ∀ l : Nat, hasFailed acts l = true → l < p.opened

namespace Custody

variable {c : PoolConfig} {h : Ledger} {acts : List Act} {p q : Pool} {l : LinkId}

theorem empty (c : PoolConfig) : Custody c (fun _ => .away) [] {} where
  census := .empty c
  orderly := trivial
  lent _ := rfl
  idle _ hl := absurd hl List.not_mem_nil
  sound _ hl := Standing.noConfusion hl
  spoilt _ hl := Standing.noConfusion hl
  known _ hl := absurd hl Bool.false_ne_true

theorem congr (hc : Custody c h acts p) (hq : p.Alike q) : Custody c h acts q where
  census := hc.census.congr hq
  orderly := hc.orderly
  lent := hq.lent ▸ hc.lent
  idle l hl := hc.idle l (hq.idle ▸ hl)
  sound := hc.sound
  spoilt := hc.spoilt
  known l hl := hq.opened ▸ hc.known l hl

theorem openOne (hc : Custody c h acts p) (now : Nat) : Custody c h acts (p.openOne c now) := by
  have hq := hc.census.openOne now
  obtain ⟨os, hos⟩ := Pool.openOne_eq c now p
  rw [hos] at hq ⊢
  exact { hc with census := hq }

theorem refill (hc : Custody c h acts p) (now : Nat) : Custody c h acts (p.refill c now) := by
  have hq := hc.census.refill now
  obtain ⟨os, hos⟩ := Pool.refill_eq c now p
  rw [hos] at hq ⊢
  exact { hc with census := hq }

theorem start (hc : Custody c h acts p) (now : Nat) : Custody c h acts (p.start c now) := by
  refine refill (p := { p with phase := .running, nextEviction := _ }) ?_ now
  exact hc.congr ⟨rfl, rfl, rfl, Nat.le_refl _⟩

/-- A use of a sound link, by which it may fail. -/
theorem use (hc : Custody c h acts p) {a : Act} (hl : h l = .sound) (ha : a.isPassing = true)
    (hu : ∀ k, a.uses k = true → k = l) (hf : ∀ k, a.fails k = true → k = l) :
    Custody c (h.spoilIf l (a.fails l)) (a :: acts) p := by
  have hne : h l ≠ .away := Ledger.ne_away_of_sound hl
  obtain ⟨hlt, hclosed, hidle⟩ := hc.census.of_lent (hc.lent.mem_iff.mpr hne)
  have failed (k : LinkId) : hasFailed (a :: acts) k = (a.fails k || hasFailed acts k) := rfl
  have other {k : LinkId} (hk : k ≠ l) : a.fails k = false :=
    Bool.eq_false_iff.mpr fun hfail => hk (hf k hfail)
  refine ⟨hc.census.record ha, ⟨fun k hk => ?_, hc.orderly⟩, hc.lent.spoilIf hne _,
    fun k hk => ?_, fun k hk => ?_, fun k hk => ?_, fun k hk => ?_⟩
  · obtain rfl := hu k hk
    exact ⟨hc.sound k hl, hclosed⟩
  · have hkl : k ≠ l := by
      rintro rfl
      exact hidle hk
    rw [failed, other hkl, hc.idle k hk]
    rfl
  · rw [Ledger.spoilIf_apply] at hk
    split at hk
    · exact Standing.noConfusion hk
    · rename_i hkl
      have : a.fails k = false := by
        by_cases heq : k = l
        · subst heq
          exact Bool.eq_false_iff.mpr fun hfail => hkl ⟨hfail, rfl⟩
        · exact other heq
      rw [failed, this, hc.sound k hk]
      rfl
  · rw [Ledger.spoilIf_apply] at hk
    rw [failed]
    split at hk
    · rename_i hkl
      rw [hkl.2, hkl.1]
      rfl
    · rw [hc.spoilt k hk, Bool.or_true]
  · rw [failed] at hk
    rcases Bool.or_eq_true_iff.mp hk with hk | hk
    · rw [hf k hk]
      exact hlt
    · exact hc.known k hk

/-- An act that uses no link. -/
theorem note (hc : Custody c h acts p) {a : Act} (ha : a.isPassing = true)
    (hu : ∀ k, a.uses k = false) (hf : ∀ k, a.fails k = false) : Custody c h (a :: acts) p := by
  have failed (k : LinkId) : hasFailed (a :: acts) k = hasFailed acts k := by
    show (a.fails k || hasFailed acts k) = _
    rw [hf, Bool.false_or]
  refine ⟨hc.census.record ha, ⟨fun k hk => ?_, hc.orderly⟩, hc.lent, fun k hk => ?_,
    fun k hk => ?_, fun k hk => ?_, fun k hk => ?_⟩
  · rw [hu] at hk
    exact absurd hk Bool.false_ne_true
  · rw [failed, hc.idle k hk]
  · rw [failed, hc.sound k hk]
  · rw [failed, hc.spoilt k hk]
  · exact hc.known k (failed k ▸ hk)

/-! ## Steps of a pool -/

/-- An idle link is lent: it was away, and is sound. -/
theorem take (hc : Custody c h acts p) {now : Nat} (ht : p.take c now = some (l, q)) :
    h l = .away ∧ Custody c (h.set l .sound) acts q := by
  obtain ⟨hidle, hlent, hopened⟩ := Pool.take_spec ht
  have hmem : l ∈ p.idle := hidle ▸ List.mem_cons_self
  have haway : h l = .away := by
    have hpos := List.count_pos_iff.mpr hmem
    have hplaced := hc.census.placed l
    have hle := hc.census.openings_le l
    have hcount := hc.lent l
    split at hcount
    · assumption
    · omega
  have hnot : l ∉ p.lent := fun hin => hc.lent.mem_iff.mp hin haway
  refine ⟨haway, hc.census.take ht, hc.orderly, hlent ▸ hc.lent.borrow hnot, fun k hk => ?_,
    fun k hk => ?_, fun k hk => ?_, fun k hk => ?_⟩
  · exact hc.idle k (hidle ▸ List.mem_cons_of_mem l hk)
  · by_cases hkl : k = l
    · subst hkl
      exact hc.idle k hmem
    · rw [Ledger.set_of_ne hkl] at hk
      exact hc.sound k hk
  · by_cases hkl : k = l
    · subst hkl
      rw [Ledger.set_self] at hk
      exact Standing.noConfusion hk
    · rw [Ledger.set_of_ne hkl] at hk
      exact hc.spoilt k hk
  · rw [hopened]
    exact hc.known k hk

/-- A sound link is idle again. -/
theorem putBack (hc : Custody c h acts p) (hl : h l = .sound) :
    Custody c (h.set l .away) acts (p.putBack l) := by
  have hne : h l ≠ .away := Ledger.ne_away_of_sound hl
  refine ⟨hc.census.putBack (hc.lent.mem_iff.mpr hne), hc.orderly, hc.lent.erase hne,
    fun k hk => ?_, fun k hk => ?_, fun k hk => ?_, hc.known⟩
  · rcases List.mem_cons.mp hk with rfl | hk
    · exact hc.sound k hl
    · exact hc.idle k hk
  · exact hc.sound k (Ledger.of_set_away Standing.noConfusion hk)
  · exact hc.spoilt k (Ledger.of_set_away Standing.noConfusion hk)

/-- A lent link is dropped and closed. -/
theorem drop (hc : Custody c h acts p) (hl : h l ≠ .away) (now : Nat) :
    Custody c (h.set l .away) (.closed l :: acts) (p.drop c now l) := by
  have hq := hc.census.drop (hc.lent.mem_iff.mpr hl) now
  obtain ⟨os, hos⟩ := Pool.refill_eq c now { p with lent := p.lent.erase l }
  unfold Pool.drop at hq ⊢
  rw [hos] at hq ⊢
  refine ⟨hq, ⟨fun k hk => absurd hk Bool.false_ne_true, hc.orderly⟩, hc.lent.erase hl, hc.idle,
    fun k hk => ?_, fun k hk => ?_, hc.known⟩
  · exact hc.sound k (Ledger.of_set_away Standing.noConfusion hk)
  · exact hc.spoilt k (Ledger.of_set_away Standing.noConfusion hk)

/-- A new link is idle: it has not failed, since only links that were opened can. -/
theorem arrive (hc : Custody c h acts p) {index : Nat} (hi : index < p.openings.length) :
    Custody c h (.opened p.opened :: acts) (p.arrive index) where
  census := hc.census.arrive hi
  orderly := ⟨fun k hk => absurd hk Bool.false_ne_true, hc.orderly⟩
  lent := hc.lent
  idle k hk := by
    rcases List.mem_cons.mp hk with rfl | hk
    · exact Bool.eq_false_iff.mpr fun hfail => Nat.lt_irrefl _ (hc.known _ hfail)
    · exact hc.idle k hk
  sound := hc.sound
  spoilt := hc.spoilt
  known k hk := Nat.lt_succ_of_lt (hc.known k hk)

/-! ## Steps of a world -/

open Delivery (Request PoolSettings ledger)

variable {σ : Type} {T : Transport σ} {s : PoolSettings} {w w₁ : World σ}

theorem hasFailed_closeAll (links : List LinkId) (w : World σ) (l : LinkId) :
    hasFailed (World.closeAll T links w).acts l = hasFailed w.acts l := by
  induction links generalizing w with
  | nil => rfl
  | cons link links ih => exact ih (w.close T link)

theorem orderly_closeAll (links : List LinkId) (hw : Orderly w.acts) :
    Orderly (World.closeAll T links w).acts := by
  induction links generalizing w with
  | nil => exact hw
  | cons link links ih => exact ih ⟨fun k hk => absurd hk Bool.false_ne_true, hw⟩

theorem settleForsaken (hc : Custody s.config h w.acts w.pool) :
    Custody s.config h (w.settleForsaken T).acts (w.settleForsaken T).pool := by
  have census := hc.census.settleForsaken (T := T)
  unfold World.settleForsaken at census ⊢
  split at census
  · rename_i hf
    rw [if_pos hf]
    refine ⟨census, orderly_closeAll _ hc.orderly, ?_, fun k hk => ?_, fun k hk => ?_,
      fun k hk => ?_, fun k hk => ?_⟩
    · rw [World.closeAll_pool]
      exact hc.lent
    · rw [World.closeAll_pool] at hk
      exact absurd hk List.not_mem_nil
    · rw [hasFailed_closeAll]
      exact hc.sound k hk
    · rw [hasFailed_closeAll]
      exact hc.spoilt k hk
    · rw [hasFailed_closeAll] at hk
      rw [World.closeAll_pool]
      exact hc.known k hk
  · rename_i hf
    rw [if_neg hf]
    exact hc

theorem giveBack (hc : Custody s.config h w.acts w.pool) (hl : h l = .sound) :
    Custody s.config (h.set l .away) (w.giveBack T l).acts (w.giveBack T l).pool :=
  settleForsaken (w := { w with pool := w.pool.putBack l }) (hc.putBack hl)

theorem discard (hc : Custody s.config h w.acts w.pool) (hl : h l ≠ .away) :
    Custody s.config (h.set l .away) (w.discard T s l).acts (w.discard T s l).pool :=
  settleForsaken (w := ({ w with pool := w.pool.drop s.config w.clock l } : World σ).close T l)
    (hc.drop hl w.clock)

/-! ## Uses of a link -/

/-- A use that the link survives. -/
theorem use_same {a : Act} (hc : Custody c h acts p) (hl : h l = .sound) (ha : a.isPassing = true)
    (hu : ∀ k, a.uses k = true → k = l) (hf : ∀ k, a.fails k = false) :
    Custody c h (a :: acts) p := by
  have used := hc.use hl ha hu fun k hk => absurd ((hf k).symm.trans hk) Bool.false_ne_true
  rw [hf] at used
  exact used

/-- A use by which the link fails. -/
theorem use_spoil {a : Act} (hc : Custody c h acts p) (hl : h l = .sound)
    (ha : a.isPassing = true) (hu : ∀ k, a.uses k = true → k = l)
    (hf : ∀ k, a.fails k = (l == k)) : Custody c (h.set l .spoilt) (a :: acts) p := by
  have used := hc.use hl ha hu fun k hk => (beq_iff_eq.mp ((hf k).symm.trans hk)).symm
  rw [hf, beq_self_eq_true] at used
  exact used

theorem pinged (hc : Custody c h acts p) (hl : h l = .sound) (x : Except LinkError Unit) :
    Custody c (ledger.after h (.ping l) x) (.pinged l x :: acts) p := by
  have uses (k : LinkId) (hk : (l == k) = true) : k = l := (beq_iff_eq.mp hk).symm
  cases x with
  | ok _ => exact hc.use_same hl rfl uses fun _ => rfl
  | error _ => exact hc.use_spoil hl rfl uses fun _ => rfl

theorem cleared (hc : Custody c h acts p) (hl : h l = .sound) (x : Except LinkError Unit) :
    Custody c (ledger.after h (.reset l) x) (.reset l x :: acts) p := by
  have uses (k : LinkId) (hk : (l == k) = true) : k = l := (beq_iff_eq.mp hk).symm
  cases x with
  | ok _ => exact hc.use_same hl rfl uses fun _ => rfl
  | error _ => exact hc.use_spoil hl rfl uses fun _ => rfl

theorem began (hc : Custody c h acts p) (hl : h l = .sound) (key : String) (payload : Bytes) :
    Custody c h (.began l key payload :: acts) p :=
  hc.use_same hl rfl (fun _ hk => (beq_iff_eq.mp hk).symm) fun _ => rfl

theorem ended (hc : Custody c h acts p) (hl : h l = .sound) (key : String) (payload : Bytes)
    (x : Except LinkError Unit) :
    Custody c (ledger.after h (.push l key payload) x) (.ended l x :: acts) p := by
  have uses (k : LinkId) (hk : false = true) : k = l := absurd hk Bool.false_ne_true
  cases x with
  | ok _ => exact hc.use_same hl rfl uses fun _ => rfl
  | error e =>
    cases e with
    | command _ => exact hc.use_same hl rfl uses fun _ => rfl
    | connection _ => exact hc.use_spoil hl rfl uses fun _ => rfl

/-! ## Answers -/

theorem dismiss (hc : Custody s.config h w.acts w.pool) (hl : h l ≠ .away) (e : LinkError) :
    Custody s.config (h.set l .away) (w.dismiss T s l e).acts (w.dismiss T s l e).pool :=
  discard (w := { w.raise (World.checkFailed s e) with pool := w.pool.blame e.message })
    (hc.congr (w.pool.alike_blame e.message)) hl

/-- **Borrowing an idle link**: one that is got was away, and is sound. -/
theorem borrowed {x : Option LinkId} (hc : Custody s.config h w.acts w.pool)
    (hb : World.Borrowed T s w x w₁) :
    ledger.admits h .tryBorrow x ∧
      Custody s.config (ledger.after h .tryBorrow x) w₁.acts w₁.pool := by
  induction hb with
  | none w => exact ⟨trivial, hc⟩
  | unchecked ht => exact hc.take ht
  | passed ht hp =>
    obtain ⟨hpool, hacts, -⟩ := World.ping_spec hp
    obtain ⟨haway, taken⟩ := hc.take ht
    rw [hpool, hacts]
    exact ⟨haway, taken.pinged (Ledger.set_self h _ _) (.ok ())⟩
  | @failed _ w₁ _ link _ e _ ht hp _ ih =>
    obtain ⟨hpool, hacts, -⟩ := World.ping_spec hp
    obtain ⟨haway, taken⟩ := hc.take ht
    have spoilt := taken.pinged (Ledger.set_self h _ _) (.error e)
    have dismissed := dismiss (T := T) (s := s) (w := w₁) (l := link)
      (h := (h.set link .sound).set link .spoilt) (by rw [hacts, hpool]; exact spoilt)
      (Ledger.set_self_ne_away _ _ Standing.noConfusion) e
    rw [Ledger.set_set, Ledger.set_set, Ledger.set_eq_self haway] at dismissed
    exact ih dismissed

/-- **Any request that the ledger allows.** -/
theorem answerNow (hc : Custody s.config h w.acts w.pool) {r : Request}
    (hr : ledger.allows h r) :
    ledger.admits h r (w.answerNow T s r).1 ∧
      Custody s.config (ledger.after h r (w.answerNow T s r).1) (w.answerNow T s r).2.acts
        (w.answerNow T s r).2.pool := by
  cases r with
  | borrow =>
    exact World.answerNow_borrow T s (P := fun got => ledger.admits h .borrow got.1 ∧
        Custody s.config (ledger.after h .borrow got.1) got.2.acts got.2.pool) w
      (fun _ _ hb => hc.borrowed hb)
      fun w₁ hb => ⟨trivial, (hc.borrowed hb).2.congr w₁.alike_giveUp⟩
  | tryBorrow => exact hc.borrowed (World.borrowed_tryBorrow T s w)
  | openPool => exact ⟨trivial, hc.start w.clock⟩
  | closePool => exact ⟨trivial, hc.congr w.pool.alike_close⟩
  | forsakePool => exact ⟨trivial, hc.settleForsaken⟩
  | giveBack l => exact ⟨trivial, hc.giveBack hr⟩
  | discard l => exact ⟨trivial, hc.discard hr⟩
  | push l key payload => exact ⟨trivial, (hc.began hr.1 key payload).ended hr.1 key payload _⟩
  | ping l => exact ⟨trivial, hc.pinged hr _⟩
  | reset l => exact ⟨trivial, hc.cleared hr _⟩
  | newToken name parent => cases parent <;> exact ⟨trivial, hc⟩
  | _ => exact ⟨trivial, hc⟩

end Custody

end LogShipper
