import LogShipper.Store.Scripted

/-!
# Stores that oblige

A store obliges if links to it can always be opened, pinged and reset, if no push loses its link,
and if whether a push is accepted depends on what was pushed before it alone, not on the link it
comes over. What such a store remembers changes with pushes only.

A store may oblige in some of its states, which it does not leave by itself (`tame`).

Results:
* `ScriptedStore.obliging`: a scripted store obliges if its script breaks and refuses no link.
-/

namespace LogShipper

variable {σ V : Type}

/-- A store that obliges in its tame states. What it remembers decides, with the key and the
payload, how it replies to a push and what it remembers then. -/
structure Transport.Obliging (T : Transport σ) (tame : σ → Prop) (memory : σ → V)
    (reply : V → String → Bytes → Except String Unit × V) : Prop where
  connect : ∀ link endpoint s, tame s → (T.connect link endpoint s).1 = .ok () ∧
    tame (T.connect link endpoint s).2 ∧ memory (T.connect link endpoint s).2 = memory s
  ping : ∀ link s, tame s →
    (T.ping link s).1 = .ok () ∧ tame (T.ping link s).2 ∧ memory (T.ping link s).2 = memory s
  reset : ∀ link s, tame s →
    (T.reset link s).1 = .ok () ∧ tame (T.reset link s).2 ∧ memory (T.reset link s).2 = memory s
  close : ∀ link s, tame s → tame (T.close link s) ∧ memory (T.close link s) = memory s
  /-- No calls are made from inside a push. -/
  beginPush : ∀ link key payload s, tame s → (T.beginPush link key payload s).1 = [] ∧
    tame (T.beginPush link key payload s).2 ∧
    memory (T.beginPush link key payload s).2 = memory s
  endPush : ∀ link key payload s, tame s →
    (T.endPush link key payload s).1 = (reply (memory s) key payload).1.mapError .command ∧
    tame (T.endPush link key payload s).2 ∧
    memory (T.endPush link key payload s).2 = (reply (memory s) key payload).2

/-- What is read off the memory of a store that obliges, if it decides what is read off it after a
push, is a memory too. -/
theorem Transport.Obliging.map {T : Transport σ} {tame : σ → Prop} {memory : σ → V}
    {reply : V → String → Bytes → Except String Unit × V} (h : T.Obliging tame memory reply)
    {W : Type} (f : V → W) (reply' : W → String → Bytes → Except String Unit × W)
    (hf : ∀ v key payload, reply' (f v) key payload =
      ((reply v key payload).1, f (reply v key payload).2)) :
    T.Obliging tame (fun s => f (memory s)) reply' where
  connect link endpoint s hs := by
    obtain ⟨hok, htame, hsame⟩ := h.connect link endpoint s hs
    exact ⟨hok, htame, congrArg f hsame⟩
  ping link s hs := by
    obtain ⟨hok, htame, hsame⟩ := h.ping link s hs
    exact ⟨hok, htame, congrArg f hsame⟩
  reset link s hs := by
    obtain ⟨hok, htame, hsame⟩ := h.reset link s hs
    exact ⟨hok, htame, congrArg f hsame⟩
  close link s hs := by
    obtain ⟨htame, hsame⟩ := h.close link s hs
    exact ⟨htame, congrArg f hsame⟩
  beginPush link key payload s hs := by
    obtain ⟨hnone, htame, hsame⟩ := h.beginPush link key payload s hs
    exact ⟨hnone, htame, congrArg f hsame⟩
  endPush link key payload s hs := by
    obtain ⟨hanswer, htame, hsame⟩ := h.endPush link key payload s hs
    rw [hf]
    exact ⟨hanswer, htame, congrArg f hsame⟩

/-! ## Scripted stores -/

namespace Scripted

/-- Whether a push loses its link. -/
def PushAnswer.severs : PushAnswer → Bool
  | .sever _ => true
  | _ => false

/-- No push of the plan loses its link. -/
def Plan.IsKind (p : Plan) : Prop := ∀ a ∈ p.after :: p.next, a.severs = false

end Scripted

open Scripted

namespace ScriptedStore

/-- Nothing fails but pushes, and these lose no link. -/
structure IsTame (s : ScriptedStore) : Prop where
  broken : s.broken = []
  refusing : s.refusing = false
  connectFailures : s.connectFailures = 0
  pingFailures : s.pingFailures = .times 0
  resetFailures : s.resetFailures = 0
  hooks : s.hooks = []
  kind : ∀ key plan, s.plans.lookup key = some plan → plan.IsKind

/-- What a scripted store remembers: the answers that are still to come, and its lists. -/
structure Memory where
  plans : List (String × Plan)
  lists : List (String × List Bytes)
  deriving DecidableEq

/-- What the store remembers. -/
def memory (s : ScriptedStore) : Memory := ⟨s.plans, s.lists⟩

/-- A tame store with a memory. -/
def ofMemory (m : Memory) : ScriptedStore := { plans := m.plans, lists := m.lists }

/-- How a tame store with a memory replies to a push. -/
def reply (m : Memory) (key : String) (payload : Bytes) : Except String Unit × Memory :=
  match (ofMemory m).nextAnswer key with
  | (.accept, s) => (.ok (), (s.append key payload).memory)
  | (.reject reason, s) => (.error reason, s.memory)
  | (.sever reason, s) => (.error reason, s.memory)

variable {s : ScriptedStore}

/-- The next answer and what is remembered then depend on what is remembered. -/
theorem nextAnswer_memory (s : ScriptedStore) (key : String) :
    ((ofMemory s.memory).nextAnswer key).1 = (s.nextAnswer key).1 ∧
      ((ofMemory s.memory).nextAnswer key).2.memory = (s.nextAnswer key).2.memory := by
  unfold nextAnswer ofMemory memory
  dsimp only
  split
  · exact ⟨rfl, rfl⟩
  · split <;> exact ⟨rfl, rfl⟩

theorem IsTame.nextAnswer (h : s.IsTame) (key : String) :
    (s.nextAnswer key).1.severs = false ∧ (s.nextAnswer key).2.IsTame := by
  unfold ScriptedStore.nextAnswer
  split
  · exact ⟨rfl, h⟩
  · rename_i plan hplan
    have hkind := h.kind key plan hplan
    split
    · exact ⟨hkind plan.after List.mem_cons_self, h⟩
    · rename_i answer rest hnext
      have hsub : ∀ a ∈ answer :: rest, a.severs = false := fun a ha =>
        hkind a (List.mem_cons_of_mem _ (hnext ▸ ha))
      refine ⟨hsub answer List.mem_cons_self, { h with kind := fun k p hp => ?_ }⟩
      rw [setPlan, lookup_put] at hp
      split at hp
      · obtain rfl := Option.some.inj hp
        intro a ha
        rcases List.mem_cons.mp ha with rfl | ha
        · exact hkind _ List.mem_cons_self
        · exact hsub a (List.mem_cons_of_mem _ ha)
      · exact h.kind k p hp

theorem append_memory {t : ScriptedStore} (h : s.memory = t.memory) (key : String)
    (payload : Bytes) : (s.append key payload).memory = (t.append key payload).memory := by
  obtain ⟨hplans, hlists⟩ := Memory.mk.inj h
  unfold memory append list
  rw [hplans, hlists]

/-- A push to a tame store is answered from what is remembered, and leaves the store tame. -/
theorem IsTame.endPush (h : s.IsTame) (link : LinkId) (key : String) (payload : Bytes) :
    (s.endPush link key payload).1 = (reply s.memory key payload).1.mapError .command ∧
      (s.endPush link key payload).2.IsTame ∧
      (s.endPush link key payload).2.memory = (reply s.memory key payload).2 := by
  have hlink : ¬ s.broken.contains link = true := by
    rw [h.broken]
    exact Bool.false_ne_true
  obtain ⟨hkind, htame⟩ := h.nextAnswer key
  obtain ⟨hanswer, hmemory⟩ := nextAnswer_memory s key
  unfold ScriptedStore.endPush reply
  rw [if_neg hlink]
  generalize s.nextAnswer key = got at hkind htame hanswer hmemory ⊢
  generalize (ofMemory s.memory).nextAnswer key = got' at hanswer hmemory ⊢
  obtain ⟨x, s'⟩ := got
  obtain ⟨y, t⟩ := got'
  obtain rfl : y = x := hanswer
  cases y with
  | accept =>
    exact ⟨rfl, ⟨htame.broken, htame.refusing, htame.connectFailures, htame.pingFailures,
      htame.resetFailures, htame.hooks, htame.kind⟩, append_memory hmemory.symm key payload⟩
  | reject reason => exact ⟨rfl, htame, hmemory.symm⟩
  | sever reason => exact absurd hkind.symm Bool.false_ne_true

/-- **A scripted store obliges** if its script breaks and refuses no link. -/
theorem obliging : transport.Obliging IsTame memory reply where
  connect link endpoint s h := by
    have answered : s.connect endpoint = (.ok (), s) := by
      unfold connect
      rw [if_neg (by rw [h.refusing]; exact Bool.false_ne_true),
        if_neg fun hne => hne h.connectFailures]
    have all : transport.connect link endpoint s = (.ok (), s) := answered
    rw [all]
    exact ⟨rfl, h, rfl⟩
  ping link s h := by
    have answered : s.ping link = (.ok (), s) := by
      unfold ping
      rw [h.broken, h.pingFailures]
      rfl
    have all : transport.ping link s = (.ok (), s) := answered
    rw [all]
    exact ⟨rfl, h, rfl⟩
  reset link s h := by
    have answered : s.reset = (.ok (), s) := by
      unfold reset
      rw [if_neg fun hne => hne h.resetFailures]
    have all : transport.reset link s = (.ok (), s) := answered
    rw [all]
    exact ⟨rfl, h, rfl⟩
  close link s h := ⟨h, rfl⟩
  beginPush link key payload s h := by
    refine ⟨?_, ⟨h.broken, h.refusing, h.connectFailures, h.pingFailures, h.resetFailures,
      h.hooks, h.kind⟩, rfl⟩
    show ((s.hooks.filter _).map _) = []
    rw [h.hooks]
    rfl
  endPush link key payload s h := h.endPush link key payload

end ScriptedStore

end LogShipper
