import LogShipper.Delivery.Dialogue

/-!
# Reading traces

A trace is read from its front: a finished talk has no exchange left, a request stands first with
its answer. The answers determine a trace, so a list of exchanges begins with at most one trace
of a talk (`Trace.unique`).

`pushes t` is what the exchanges `t` did to the store: its pushes, each with its answer.

Results:
* `Trace.unique`: two traces of one talk with which the same exchanges begin are the same.
* `Legible.reading_unique`: exchanges fall into parts in one way only.
-/

namespace LogShipper

/-- Whether an engine says in an entry that it could not do what it was to do. -/
def LogEntry.isAlarm (x : LogEntry) : Bool := x.level == .error && x.source == .engine

theorem LogEntry.isAlarm_of_source {x : LogEntry} (h : x.source ≠ .engine) : x.isAlarm = false := by
  rw [isAlarm, beq_eq_false_iff_ne.mpr h, Bool.and_false]

/-- Whether an entry is about no key and tells of nothing worse than a nuisance. -/
def LogEntry.isCalm (x : LogEntry) : Bool :=
  x.source != .retry && (x.level == .debug || x.level == .warn)

theorem LogEntry.isAlarm_of_isCalm {x : LogEntry} (h : x.isCalm = true) : x.isAlarm = false := by
  obtain ⟨level, source, message, fields⟩ := x
  cases level <;> simp_all [isCalm, isAlarm]

namespace Delivery

open Dialogue (Trace)

variable {α β : Type}

/-! ## Traces from their front -/

theorem Dialogue.trace_done {a b : α} {t : List Exchange} :
    Trace (.done a) t b ↔ t = [] ∧ b = a := by
  constructor
  · rintro ⟨⟩
    exact ⟨rfl, rfl⟩
  · rintro ⟨rfl, rfl⟩
    exact .done _

theorem Dialogue.trace_ask {r : Request} {next : r.Answer → Dialogue α} {t : List Exchange}
    {a : α} : Trace (.ask r next) t a ↔ ∃ x t', t = ⟨r, x⟩ :: t' ∧ Trace (next x) t' a := by
  constructor
  · intro h
    cases h with
    | ask h => exact ⟨_, _, rfl, h⟩
  · rintro ⟨x, t', rfl, h⟩
    exact .ask h

/-- What is logged. -/
def Exchange.logged (entry : LogEntry) : Exchange := ⟨.log entry, ()⟩

/-- The entry that an exchange logs. -/
def Exchange.entry? : Exchange → Option LogEntry
  | ⟨.log entry, _⟩ => some entry
  | _ => none

/-- The entries that are logged among exchanges. -/
def entries (t : List Exchange) : List LogEntry := t.filterMap Exchange.entry?

/-- The alarms of an engine among exchanges. -/
def alarms (t : List Exchange) : List LogEntry := (entries t).filter LogEntry.isAlarm

@[simp] theorem entries_append (t u : List Exchange) : entries (t ++ u) = entries t ++ entries u :=
  List.filterMap_append

@[simp] theorem alarms_append (t u : List Exchange) : alarms (t ++ u) = alarms t ++ alarms u := by
  rw [alarms, entries_append, List.filter_append]
  rfl

theorem Dialogue.trace_log_bind {l : Level} {s : Source} {m : String}
    {fields : List (String × String)} {f : Unit → Dialogue α} {t : List Exchange} {a : α} :
    Trace ((Dialogue.log l s m fields).bind f) t a ↔
      ∃ t', t = .logged ⟨l, s, m, fields⟩ :: t' ∧ Trace (f ()) t' a := by
  refine trace_ask.trans ⟨?_, ?_⟩
  · rintro ⟨⟨⟩, t', rfl, h⟩
    exact ⟨t', rfl, h⟩
  · rintro ⟨t', rfl, h⟩
    exact ⟨(), t', rfl, h⟩

/-- **The answers determine a trace**: exchanges begin with at most one trace of a talk. -/
theorem Dialogue.Trace.unique {d : Dialogue α} {t₁ t₂ u₁ u₂ : List Exchange} {a b : α}
    (h₁ : Trace d t₁ a) (h₂ : Trace d t₂ b) (h : t₁ ++ u₁ = t₂ ++ u₂) : t₁ = t₂ ∧ a = b := by
  induction h₁ generalizing t₂ with
  | done a =>
    obtain ⟨rfl, rfl⟩ := trace_done.mp h₂
    exact ⟨rfl, rfl⟩
  | ask _ ih =>
    obtain ⟨x, t', rfl, h'⟩ := trace_ask.mp h₂
    rw [List.cons_append, List.cons_append, List.cons.injEq] at h
    obtain ⟨hx, ht⟩ := h
    cases hx
    obtain ⟨rfl, rfl⟩ := ih h' ht
    exact ⟨rfl, rfl⟩

/-! ## Pushes -/

/-- A push and its answer. -/
structure Pushed where
  link : LinkId
  key : String
  payload : Bytes
  answer : Except LinkError Unit

namespace Pushed

/-- Whether the store took the payload. -/
def isAccepted (p : Pushed) : Bool :=
  match p.answer with
  | .ok _ => true
  | .error _ => false

/-- Whether the link was lost with the push. -/
def isLoss (p : Pushed) : Bool :=
  match p.answer with
  | .error (.connection _) => true
  | _ => false

theorem isLoss_of_answer {p : Pushed} {reason : String}
    (h : p.answer = .error (.connection reason)) : p.isLoss = true := by
  rw [isLoss, h]

end Pushed

/-- The push that an exchange is. -/
def Exchange.pushed? : Exchange → Option Pushed
  | ⟨.push link key payload, answer⟩ => some ⟨link, key, payload, answer⟩
  | _ => none

/-- The pushes among exchanges. -/
def pushes (t : List Exchange) : List Pushed := t.filterMap Exchange.pushed?

/-- How many pushes among exchanges were accepted. -/
def accepted (t : List Exchange) : Nat := (pushes t).countP Pushed.isAccepted

@[simp] theorem pushes_nil : pushes [] = [] := rfl

@[simp] theorem pushes_append (t u : List Exchange) : pushes (t ++ u) = pushes t ++ pushes u :=
  List.filterMap_append

@[simp] theorem pushes_logged (entry : LogEntry) (t : List Exchange) :
    pushes (.logged entry :: t) = pushes t := rfl

theorem pushes_cons_of_none {x : Exchange} (h : x.pushed? = none) (t : List Exchange) :
    pushes (x :: t) = pushes t := by
  simp [pushes, h]

theorem alarms_flatMap {γ : Type} (f : γ → List Exchange) (l : List γ) :
    alarms (l.flatMap f) = l.flatMap fun c => alarms (f c) := by
  induction l with
  | nil => rfl
  | cons c l ih => simp [ih]

theorem pushes_flatMap {γ : Type} (f : γ → List Exchange) (l : List γ) :
    pushes (l.flatMap f) = l.flatMap fun c => pushes (f c) := by
  induction l with
  | nil => rfl
  | cons c l ih => simp [ih]

/-! ## Exchanges that fall into parts -/

/-- Lists that go on with a push after nothing was pushed agree up to that push. -/
theorem append_push_inj {b₁ b₂ t₁ t₂ : List Exchange} {x y : Exchange} (hb₁ : pushes b₁ = [])
    (hb₂ : pushes b₂ = []) (hx : x.pushed? ≠ none) (hy : y.pushed? ≠ none)
    (h : b₁ ++ x :: t₁ = b₂ ++ y :: t₂) : b₁ = b₂ := by
  have silent {z : Exchange} {b : List Exchange} (hb : pushes (z :: b) = []) :
      z.pushed? = none ∧ pushes b = [] := by
    have hz := List.filterMap_eq_nil_iff.mp hb z List.mem_cons_self
    exact ⟨hz, by rwa [pushes_cons_of_none hz] at hb⟩
  induction b₁ generalizing b₂ with
  | nil =>
    cases b₂ with
    | nil => rfl
    | cons z b₂ =>
      obtain ⟨rfl, -⟩ := List.cons.inj h
      exact absurd (silent hb₂).1 hx
  | cons z b₁ ih =>
    cases b₂ with
    | nil =>
      obtain ⟨rfl, -⟩ := List.cons.inj h
      exact absurd (silent hb₁).1 hy
    | cons z' b₂ =>
      obtain ⟨rfl, hrest⟩ := List.cons.inj h
      rw [ih (silent hb₁).2 (silent hb₂).2 hrest]

/-- Parts of exchanges that can be told apart: each begins with a push, and what it is of and the
exchanges that begin with it determine it. -/
structure Legible {κ ι : Type} (label : κ → ι) (part : κ → List Exchange) (P : κ → Prop) :
    Prop where
  head : ∀ a, P a → ∃ x t, part a = x :: t ∧ x.pushed? ≠ none
  eq_of_append : ∀ a b, P a → P b → label a = label b →
    ∀ u v, part a ++ u = part b ++ v → a = b

namespace Legible

variable {κ ι : Type} {label : κ → ι} {part : κ → List Exchange} {P : κ → Prop}
  (hlegible : Legible label part P) {labels : List ι} {l₁ l₂ : List κ}
include hlegible

theorem pushes_ne_nil {a : κ} (ha : P a) : pushes (part a) ≠ [] := by
  obtain ⟨x, t, hx, hpush⟩ := hlegible.head a ha
  obtain ⟨p, hp⟩ := Option.ne_none_iff_exists'.mp hpush
  rw [hx, pushes, List.filterMap_cons_some hp]
  exact List.cons_ne_nil p _

theorem eq_nil (h₁ : ∀ a ∈ l₁, P a) (hp : pushes (l₁.flatMap part) = []) : l₁ = [] := by
  cases l₁ with
  | nil => rfl
  | cons a l₁ =>
    rw [List.flatMap_cons, pushes_append] at hp
    exact absurd (List.append_eq_nil_iff.mp hp).1
      (hlegible.pushes_ne_nil (h₁ a List.mem_cons_self))

/-- What the parts are of and the exchanges determine the parts. The induction is on the parts. -/
theorem parts_unique {u₁ u₂ : List Exchange} (hl₁ : l₁.map label <+: labels)
    (hl₂ : l₂.map label <+: labels) (h₁ : ∀ a ∈ l₁, P a) (h₂ : ∀ a ∈ l₂, P a)
    (hu₁ : pushes u₁ = []) (hu₂ : pushes u₂ = [])
    (h : l₁.flatMap part ++ u₁ = l₂.flatMap part ++ u₂) : l₁ = l₂ := by
  have hp := congrArg pushes h
  rw [pushes_append, pushes_append, hu₁, hu₂, List.append_nil, List.append_nil] at hp
  induction l₁ generalizing l₂ labels with
  | nil => exact (hlegible.eq_nil h₂ hp.symm).symm
  | cons a l₁ ih =>
    cases l₂ with
    | nil => exact hlegible.eq_nil h₁ hp
    | cons b l₂ =>
      obtain ⟨k, labels, rfl⟩ : ∃ k ks, labels = k :: ks := by
        obtain ⟨rest, rfl⟩ := hl₁
        exact ⟨_, _, rfl⟩
      rw [List.map_cons, List.cons_prefix_cons] at hl₁ hl₂
      obtain ⟨ha, hl₁⟩ := hl₁
      obtain ⟨hb, hl₂⟩ := hl₂
      rw [List.flatMap_cons, List.flatMap_cons, List.append_assoc, List.append_assoc] at h
      obtain rfl : a = b := hlegible.eq_of_append a b (h₁ a List.mem_cons_self)
        (h₂ b List.mem_cons_self) (ha.trans hb.symm) _ _ h
      have h := List.append_cancel_left h
      have hp := congrArg pushes h
      rw [pushes_append, pushes_append, hu₁, hu₂, List.append_nil, List.append_nil] at hp
      rw [ih hl₁ hl₂ (fun x hx => h₁ x (List.mem_cons_of_mem a hx))
        (fun x hx => h₂ x (List.mem_cons_of_mem a hx)) h hp]

/-- **Exchanges fall into parts in one way only**, if nothing is pushed before and after these. -/
theorem reading_unique {b₁ b₂ u₁ u₂ : List Exchange} (hl₁ : l₁.map label <+: labels)
    (hl₂ : l₂.map label <+: labels) (h₁ : ∀ a ∈ l₁, P a) (h₂ : ∀ a ∈ l₂, P a)
    (hb₁ : pushes b₁ = []) (hb₂ : pushes b₂ = []) (hu₁ : pushes u₁ = []) (hu₂ : pushes u₂ = [])
    (h : b₁ ++ (l₁.flatMap part ++ u₁) = b₂ ++ (l₂.flatMap part ++ u₂)) : l₁ = l₂ := by
  have hp : pushes (l₁.flatMap part) = pushes (l₂.flatMap part) := by
    have := congrArg pushes h
    simpa [hb₁, hb₂, hu₁, hu₂] using this
  cases l₁ with
  | nil => exact (hlegible.eq_nil h₂ hp.symm).symm
  | cons a l₁ =>
    cases l₂ with
    | nil => exact hlegible.eq_nil h₁ hp
    | cons b l₂ =>
      obtain ⟨x, t₁, hx, hxp⟩ := hlegible.head a (h₁ a List.mem_cons_self)
      obtain ⟨y, t₂, hy, hyp⟩ := hlegible.head b (h₂ b List.mem_cons_self)
      have hb : b₁ = b₂ := by
        have hpush : b₁ ++ x :: (t₁ ++ (l₁.flatMap part ++ u₁)) =
            b₂ ++ y :: (t₂ ++ (l₂.flatMap part ++ u₂)) := by
          simpa [hx, hy] using h
        exact append_push_inj hb₁ hb₂ hxp hyp hpush
      rw [hb] at h
      exact hlegible.parts_unique hl₁ hl₂ h₁ h₂ hu₁ hu₂ (List.append_cancel_left h)

end Legible

end Delivery

end LogShipper
