import LogShipper.Proofs.Delivery.Mirrors
import LogShipper.Store.Scripted
import LogShipper.Store.Tape

/-!
# Stores that do not look at payloads

A store is blind to payloads if it answers the same whatever the bytes are that are pushed
(`Transport.Blind`). It may remember them, so that what it remembers after other pushes is something
else; but that is related to what it would remember otherwise, and its answers from then on are the
same again.

The same notion covers a store that does not look at how an endpoint is logged in to: the related
states are reached by endpoints of which one is taken for the other.

Results:
* `ScriptedStore.blind`: a scripted store is blind, to passwords too.
* `Tape.blind`: so is a store whose answers are on a tape.
-/

namespace LogShipper

open Delivery (Call)

/-- **A store that does not look at payloads**, nor at which of two endpoints it is reached by: from
related states it answers alike, and it makes the same calls of its own from inside a push. -/
structure Transport.Blind {σ : Type} (T : Transport σ) (f : Bytes → Bytes) (x y : Endpoint)
    (R : σ → σ → Prop) : Prop where
  connect : ∀ link s s', R s s' → Alike R (T.connect link x s) (T.connect link y s')
  beginPush : ∀ link key payload s s', R s s' →
    (T.beginPush link key (f payload) s').1 = (T.beginPush link key payload s).1.map (Call.map f) ∧
      R (T.beginPush link key payload s).2 (T.beginPush link key (f payload) s').2
  endPush : ∀ link key payload s s', R s s' →
    Alike R (T.endPush link key payload s) (T.endPush link key (f payload) s')
  ping : ∀ link s s', R s s' → Alike R (T.ping link s) (T.ping link s')
  reset : ∀ link s s', R s s' → Alike R (T.reset link s) (T.reset link s')
  close : ∀ link s s', R s s' → R (T.close link s) (T.close link s')

/-- A store that opens links to one endpoint as it does to another, where no payload is replaced. -/
theorem Transport.Blind.of_connect {σ : Type} {T : Transport σ} {x y : Endpoint}
    (h : ∀ link s, T.connect link y s = T.connect link x s) : T.Blind id x y Eq := by
  constructor
  · rintro link s _ rfl
    rw [h]
    exact ⟨rfl, rfl⟩
  · rintro link key payload s _ rfl
    rw [List.map_congr_left fun c _ => c.map_id, List.map_id']
    exact ⟨rfl, rfl⟩
  · rintro link key payload s _ rfl
    exact ⟨rfl, rfl⟩
  · rintro link s _ rfl
    exact ⟨rfl, rfl⟩
  · rintro link s _ rfl
    exact ⟨rfl, rfl⟩
  · rintro link s _ rfl
    rfl

/-! ## Scripted stores -/

namespace ScriptedStore

variable (f : Bytes → Bytes) (s : ScriptedStore)

/-- The store if other payloads had been pushed, and were to be pushed by its script. -/
def map : ScriptedStore :=
  { s with
    lists := s.lists.map fun l => (l.1, l.2.map f)
    hooks := s.hooks.map fun h => (h.1, h.2.map f) }

theorem put_map {β γ : Type} (g : β → γ) (table : List (String × β)) (key : String) (value : β) :
    (put table key value).map (fun p => (p.1, g p.2)) =
      put (table.map fun p => (p.1, g p.2)) key (g value) := by
  induction table with
  | nil => rfl
  | cons p rest ih =>
    obtain ⟨k, v⟩ := p
    rw [put, List.map_cons, put]
    split
    · rfl
    · rw [List.map_cons, ih]

theorem lookup_map {β γ : Type} (g : β → γ) (table : List (String × β)) (key : String) :
    (table.map fun p => (p.1, g p.2)).lookup key = (table.lookup key).map g := by
  induction table with
  | nil => rfl
  | cons p rest ih =>
    rw [List.map_cons, lookup_cons_if, lookup_cons_if, ih]
    split <;> rfl

theorem list_map (key : String) : (s.map f).list key = (s.list key).map f := by
  unfold list map
  dsimp only
  rw [lookup_map]
  cases s.lists.lookup key <;> rfl

theorem append_map (key : String) (payload : Bytes) :
    (s.append key payload).map f = (s.map f).append key (f payload) := by
  unfold append
  rw [list_map]
  unfold map
  rw [put_map, List.map_append]
  rfl

theorem nextAnswer_map (key : String) :
    (s.map f).nextAnswer key = ((s.nextAnswer key).1, (s.nextAnswer key).2.map f) := by
  unfold nextAnswer
  rw [show (s.map f).plans = s.plans from rfl]
  cases s.plans.lookup key with
  | none => rfl
  | some plan =>
    obtain ⟨next, after⟩ := plan
    cases next <;> rfl

theorem endPush_map (link : LinkId) (key : String) (payload : Bytes) :
    (s.map f).endPush link key (f payload) =
      ((s.endPush link key payload).1, (s.endPush link key payload).2.map f) := by
  unfold endPush
  rw [show (s.map f).broken = s.broken from rfl, nextAnswer_map]
  split
  · rfl
  · obtain ⟨answer, t⟩ := s.nextAnswer key
    cases answer with
    | accept => rw [append_map]
    | reject reason => rfl
    | sever reason => rfl

theorem beginPush_map :
    (s.map f).beginPush = (s.beginPush.1.map (Call.map f), s.beginPush.2.map f) := by
  unfold beginPush map
  simp [List.filter_map, Function.comp_def]

theorem connect_map {x y : Endpoint} (hxy : y.display = x.display) :
    (s.map f).connect y = ((s.connect x).1, (s.connect x).2.map f) := by
  unfold connect refusal map
  rw [hxy]
  dsimp only
  split
  · rfl
  · split <;> rfl

theorem ping_map (link : LinkId) :
    (s.map f).ping link = ((s.ping link).1, (s.ping link).2.map f) := by
  unfold ping map
  dsimp only
  split <;> rfl

theorem reset_map : (s.map f).reset = (s.reset.1, s.reset.2.map f) := by
  unfold reset map
  dsimp only
  split <;> rfl

/-- **A scripted store does not look at payloads**, nor at an endpoint beyond what is shown of it. -/
theorem blind {x y : Endpoint} (hxy : y.display = x.display) :
    transport.Blind f x y fun s s' => s' = s.map f := by
  have alike {a b : Except LinkError Unit × ScriptedStore} (h : b = (a.1, a.2.map f)) :
      Alike (fun s s' => s' = s.map f) a b := by
    rw [h]
    exact ⟨rfl, rfl⟩
  constructor
  · rintro _ s _ rfl
    exact alike (s.connect_map f hxy)
  · rintro _ _ _ s _ rfl
    exact ⟨congrArg Prod.fst (s.beginPush_map f), congrArg Prod.snd (s.beginPush_map f)⟩
  · rintro link key payload s _ rfl
    exact alike (s.endPush_map f link key payload)
  · rintro link s _ rfl
    exact alike (s.ping_map f link)
  · rintro _ s _ rfl
    exact alike (s.reset_map f)
  · exact fun _ _ _ hs => hs

end ScriptedStore

/-! ## Stores whose answers are yet to come -/

/-- **A store whose answers are on a tape** does not look at payloads, nor at endpoints. -/
theorem Tape.blind (f : Bytes → Bytes) (x y : Endpoint) :
    Tape.transport.Blind f x y fun t t' => t'.answers = t.answers := by
  have next (d d' : Deed) (t t' : Tape) (ht : t'.answers = t.answers) :
      Alike (fun t t' => t'.answers = t.answers) (t.next d) (t'.next d') := by
    unfold Tape.next
    rw [ht]
    cases t.answers <;> exact ⟨rfl, rfl⟩
  constructor
  · exact fun _ t t' ht => next _ _ t t' ht
  · exact fun _ _ _ _ _ ht => ⟨rfl, ht⟩
  · exact fun _ _ _ t t' ht => next _ _ t t' ht
  · exact fun _ t t' ht => next _ _ t t' ht
  · exact fun _ _ _ ht => ⟨rfl, ht⟩
  · exact fun _ t t' ht => (next _ _ t t' ht).2

end LogShipper
