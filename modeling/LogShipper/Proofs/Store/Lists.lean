import LogShipper.Proofs.Delivery.Acceptance
import LogShipper.Proofs.World.Frame

/-!
# Stores that keep lists

A store keeps lists if a push that it accepts appends its payload to the list of its key, and
nothing else changes any list. Which pushes it accepts, and whether links to it can be opened and
hold, is up to the store.

Beginning a push and answering it are two acts of a world (`World.beginning`, `World.answerBegun`),
between which others may have their turn.

Results:
* `ScriptedStore.keepsLists`: a scripted store does, whatever its script says.
* `Transport.KeepsLists.answerBegun`: what any request does to the lists.
-/

namespace LogShipper

open Delivery (Request PoolSettings taken)

variable {σ : Type}

/-- A store in whose states there are lists, to which it appends what it accepts. -/
structure Transport.KeepsLists (T : Transport σ) (list : σ → String → List Bytes) : Prop where
  connect : ∀ link endpoint s, list (T.connect link endpoint s).2 = list s
  beginPush : ∀ link key payload s, list (T.beginPush link key payload s).2 = list s
  accepted : ∀ link key payload s, (T.endPush link key payload s).1 = .ok () →
    ∀ other, list (T.endPush link key payload s).2 other =
      if other = key then list s key ++ [payload] else list s other
  rejected : ∀ link key payload s e, (T.endPush link key payload s).1 = .error e →
    list (T.endPush link key payload s).2 = list s
  ping : ∀ link s, list (T.ping link s).2 = list s
  reset : ∀ link s, list (T.reset link s).2 = list s
  close : ∀ link s, list (T.close link s) = list s

/-- **A scripted store keeps lists**, whatever its script says. -/
theorem ScriptedStore.keepsLists : transport.KeepsLists list where
  connect link endpoint s := by
    show list (s.connect endpoint).2 = list s
    unfold ScriptedStore.connect
    split
    · rfl
    · split <;> rfl
  beginPush _ _ _ _ := rfl
  accepted _ _ _ _ h _ := endPush_ok h
  rejected link key payload s e h := by
    funext other
    have same : (s.endPush link key payload).2.lists = s.lists := endPush_error h
    exact congrArg (fun lists => (lists.lookup other).getD []) same
  ping link s := by
    show list (s.ping link).2 = list s
    unfold ScriptedStore.ping
    split <;> rfl
  reset link s := by
    show list s.reset.2 = list s
    unfold ScriptedStore.reset
    split <;> rfl
  close _ _ := rfl

namespace World

variable (T : Transport σ) (s : PoolSettings)

/-! ## Pushes in two steps -/

/-- A request begins, which is an act by itself if it is a push. What is called from inside it is
left to others. -/
def beginning (r : Request) (w : World σ) : World σ :=
  match r with
  | .push link key payload =>
    { w.record (.began link key payload) with
      remote := (T.beginPush link key payload w.remote).2 }
  | _ => w

/-- Answers a request that has begun. -/
def answerBegun (r : Request) (w : World σ) : r.Answer × World σ :=
  match r with
  | .push link key payload =>
    let (answer, remote) := T.endPush link key payload w.remote
    (answer, { w with remote }.record (.ended link answer))
  | r => w.answerNow T s r

/-- Where nothing comes between them the two steps are an answer. -/
theorem answerBegun_beginning (r : Request) (w : World σ) :
    (w.beginning T r).answerBegun T s r = w.answerNow T s r := by
  cases r <;> rfl

/-- A request that does not push is answered in one step. -/
theorem answerBegun_of_isMute {r : Request} (hr : r.isMute = true) (w : World σ) :
    w.answerBegun T s r = w.answerNow T s r := by
  cases r <;> first | rfl | exact absurd hr Bool.false_ne_true

end World

/-! ## What happens to the lists -/

namespace Transport.KeepsLists

open World (Borrowed closeAll)

variable {T : Transport σ} {s : PoolSettings} {list : σ → String → List Bytes} {w w₁ : World σ}
  (hT : T.KeepsLists list)
include hT

theorem closeAll (links : List LinkId) (w : World σ) :
    list (World.closeAll T links w).remote = list w.remote := by
  induction links generalizing w with
  | nil => rfl
  | cons link links ih => exact (ih (w.close T link)).trans (hT.close link w.remote)

theorem settleForsaken (w : World σ) : list (w.settleForsaken T).remote = list w.remote := by
  unfold World.settleForsaken
  split
  · exact hT.closeAll w.pool.idle { w with pool := w.pool.forsake }
  · rfl

theorem discard (link : LinkId) (w : World σ) :
    list (w.discard T s link).remote = list w.remote :=
  (hT.settleForsaken _).trans (hT.close link w.remote)

theorem borrowed {x : Option LinkId} (h : Borrowed T s w x w₁) :
    list w₁.remote = list w.remote := by
  have pinged {w w₁ : World σ} {link : LinkId} {x : Except LinkError Unit}
      (hp : w.ping T link = (x, w₁)) : list w₁.remote = list w.remote := by
    obtain ⟨-, rfl⟩ := Prod.mk.inj hp
    exact hT.ping link w.remote
  induction h with
  | none w => rfl
  | unchecked ht => rfl
  | @passed w w₁ link pool ht hp => exact pinged (w := { w with pool }) hp
  | @failed w w₁ w₂ link pool e x ht hp _ ih =>
    calc list w₂.remote
        = list (w₁.dismiss T s link e).remote := ih
      _ = list w₁.remote :=
        hT.discard link
          { w₁.raise (World.checkFailed s e) with pool := w₁.pool.blame e.message }
      _ = list w.remote := pinged (w := { w with pool }) hp

/-- A request that does not push leaves the lists alone. -/
theorem answerNow {r : Request} (hr : r.isMute = true) (w : World σ) :
    list (w.answerNow T s r).2.remote = list w.remote := by
  cases r with
  | push link key payload => exact absurd hr Bool.false_ne_true
  | borrow =>
    exact World.answerNow_borrow T s (P := fun got => list got.2.remote = list w.remote) w
      (fun _ _ hb => hT.borrowed hb) fun _ hb => (hT.borrowed hb :)
  | tryBorrow => exact hT.borrowed (World.borrowed_tryBorrow T s w)
  | forsakePool => exact hT.settleForsaken w
  | giveBack link => exact hT.settleForsaken { w with pool := w.pool.putBack link }
  | discard link => exact hT.discard link w
  | ping link => exact hT.ping link w.remote
  | reset link => exact hT.reset link w.remote
  | newToken name parent => cases parent <;> rfl
  | _ => rfl

theorem beginning (r : Request) (w : World σ) :
    list (w.beginning T r).remote = list w.remote := by
  cases r with
  | push link key payload => exact hT.beginPush link key payload w.remote
  | _ => rfl

/-- **What a request does to the lists**: they take what is accepted of it. -/
theorem answerBegun (r : Request) (w : World σ) (key : String) :
    list (w.answerBegun T s r).2.remote key =
      list w.remote key ++ taken key [⟨r, (w.answerBegun T s r).1⟩] := by
  cases r with
  | push link other payload =>
    have took (x : Except LinkError Unit) : taken key [⟨.push link other payload, x⟩] =
        if other == key && (Delivery.Pushed.mk link other payload x).isAccepted
          then [payload] else [] := by
      unfold taken Delivery.pushes
      simp only [List.filterMap_cons, List.filterMap_nil, Delivery.Exchange.pushed?,
        List.filter_cons, List.filter_nil]
      split <;> rfl
    show list (T.endPush link other payload w.remote).2 key = list w.remote key ++
      taken key [⟨.push link other payload, (T.endPush link other payload w.remote).1⟩]
    rw [took]
    cases hx : (T.endPush link other payload w.remote).1 with
    | ok _ =>
      rw [hT.accepted link other payload w.remote hx]
      by_cases hk : key = other
      · subst hk
        simp [Delivery.Pushed.isAccepted]
      · simp [hk, Ne.symm hk]
    | error e =>
      rw [hT.rejected link other payload w.remote e hx]
      simp [Delivery.Pushed.isAccepted]
  | _ =>
    exact (congrFun (hT.answerNow (s := s) rfl w) key).trans (List.append_nil _).symm

theorem settleOpening (index : Nat) (w : World σ) :
    list (w.settleOpening T s index).remote = list w.remote := by
  have opened := hT.connect w.pool.opened s.endpoint w.remote
  unfold World.settleOpening
  dsimp only
  split
  · rename_i remote hc
    rw [hc] at opened
    exact opened
  · rename_i e remote hc
    rw [hc] at opened
    exact opened

end Transport.KeepsLists

end LogShipper
