import LogShipper.Proofs.Cancel.Lineage

/-!
# Cancellations go down only

A cancellation is passed on along links, and links lead from parents to children. So it never
reaches the parent of the cancelled token, nor a token beside it. Links come and go as handles are
made and dropped: a dead child is forgotten when its parent gets another one, but never a live one.

Covers `new`, `child_token`, `cancel`, `is_cancelled`, the copies of handles and their end.

Results:
* `Sound.isCancelled_step`: why a token is cancelled after one step.
* `Caused.run`: every cancelled token was cancelled itself, or derives from one that was.
* `isCancelled_run`: a cancelled token stays cancelled.
* `cancellation_confined`: all this for every run.
-/

namespace LogShipper.Cancel

/-! ## Handles and flags -/

namespace Handles

theorem isCancelled_drop (h : Handles) (name : String) (u : TokenId) :
    (h.drop name).forest.isCancelled u = h.forest.isCancelled u := by
  unfold Handles.drop
  cases h.token? name with
  | none => rfl
  | some t => exact Forest.isCancelled_release h.forest t u

theorem isCancelled_create (h : Handles) (name : String) (u : Nat) :
    (h.create name).forest.isCancelled u =
      if u = h.forest.tokens.length then false else h.forest.isCancelled u :=
  (isCancelled_drop _ name u).trans (Forest.isCancelled_add h.forest {} u)

theorem isCancelled_deriveFrom (h : Handles) (name : String) (t u : Nat) :
    (h.deriveFrom name t).forest.isCancelled u =
      if u = h.forest.tokens.length then h.forest.isCancelled t else h.forest.isCancelled u :=
  (isCancelled_drop _ name u).trans (Forest.isCancelled_derive h.forest t u)

theorem isCancelled_clone (h : Handles) (name : String) (t u : TokenId) :
    (h.clone name t).forest.isCancelled u = h.forest.isCancelled u :=
  (isCancelled_drop _ name u).trans (Forest.isCancelled_retain h.forest t u)

end Handles

namespace Lineage

variable {l : Lineage} {op : HandleOp} {called : List TokenId} {t u : Nat}

/-! ## The record over a step -/

/-- The record only grows. -/
theorem parents_step (h : l.parents[u]? = some (some t)) (op : HandleOp) :
    (l.step op).parents[u]? = some (some t) := by
  have grown (q : Option TokenId) : (l.parents ++ [q])[u]? = some (some t) := by
    rw [List.getElem?_append_left (List.getElem?_eq_some_iff.mp h).1]
    exact h
  cases op with
  | create name => exact grown none
  | derive name parent =>
    simp only [Lineage.step]
    split
    · exact h
    · exact grown _
  | clone name other =>
    simp only [Lineage.step]
    split <;> exact h
  | drop name => exact h
  | cancel holder =>
    simp only [Lineage.step]
    split <;> exact h

theorem Derived.step_op (h : l.Derived t u) (op : HandleOp) : (l.step op).Derived t u := by
  induction h with
  | child h => exact .child (parents_step h op)
  | step _ h ih => exact .step ih (parents_step h op)

/-! ## Flags over a step -/

/-- The token that a cancellation is called on, through whichever handle. -/
def target? (l : Lineage) : HandleOp → Option TokenId
  | .cancel holder => l.token? holder
  | _ => none

/-- **Why a token is cancelled after one step**: it was before, or the step cancels it or a token
that it derives from, or it is new and its parent was cancelled. -/
theorem Sound.isCancelled_step (hs : l.Sound)
    (h : (l.step op).handles.forest.isCancelled u = true) :
    l.handles.forest.isCancelled u = true ∨
      (∃ t ∈ l.target? op, u = t ∨ l.Derived t u) ∨
      ∃ t, (l.step op).parents[u]? = some (some t) ∧ l.handles.forest.isCancelled t = true := by
  cases op with
  | create name =>
    have hu := (Handles.isCancelled_create l.handles name u).symm.trans h
    split at hu
    · exact absurd hu Bool.false_ne_true
    · exact .inl hu
  | derive name parent =>
    simp only [Lineage.step] at h ⊢
    split at h
    · exact .inl h
    · rename_i t _
      rw [Handles.isCancelled_deriveFrom] at h
      split at h
      · rename_i hnew
        rw [hnew, ← hs.kin.recorded]
        exact .inr (.inr ⟨t, List.getElem?_concat_length, h⟩)
      · exact .inl h
  | clone name other =>
    simp only [Lineage.step] at h
    split at h
    · exact .inl h
    · rw [Handles.isCancelled_clone] at h
      exact .inl h
  | drop name => exact .inl ((Handles.isCancelled_drop l.handles name u).symm.trans h)
  | cancel holder =>
    simp only [Lineage.step] at h
    split at h
    · exact .inl h
    · rename_i t ht
      rcases hs.isCancelled_cancel_only h with hu | hu
      · exact .inl hu
      · exact .inr (.inl ⟨t, ht, hu.imp_right Unbroken.derived⟩)

/-- A cancelled token stays cancelled over one step. -/
theorem isCancelled_step_of (h : l.handles.forest.isCancelled u = true) (op : HandleOp) :
    (l.step op).handles.forest.isCancelled u = true := by
  have old : u ≠ l.handles.forest.tokens.length := Nat.ne_of_lt (Forest.lt_of_isCancelled h)
  cases op with
  | create name =>
    refine (Handles.isCancelled_create l.handles name u).trans ?_
    rw [if_neg old, h]
  | derive name parent =>
    simp only [Lineage.step]
    split
    · exact h
    · rw [Handles.isCancelled_deriveFrom, if_neg old, h]
  | clone name other =>
    simp only [Lineage.step]
    split
    · exact h
    · rw [Handles.isCancelled_clone, h]
  | drop name => exact (Handles.isCancelled_drop l.handles name u).trans h
  | cancel holder =>
    simp only [Lineage.step]
    split
    · exact h
    · exact isCancelled_sweep_of _ _ h

/-- **A cancelled token stays cancelled.** -/
theorem isCancelled_run (h : l.handles.forest.isCancelled u = true) (ops : List HandleOp) :
    (l.run ops).handles.forest.isCancelled u = true := by
  induction ops generalizing l with
  | nil => exact h
  | cons op ops ih => exact ih (isCancelled_step_of h op)

/-! ## Causes -/

/-- The tokens that cancellations are called on in the course of a run. -/
def targets (l : Lineage) : List HandleOp → List TokenId
  | [] => []
  | op :: ops => (l.target? op).toList ++ (l.step op).targets ops

/-- Every cancelled token is among those that were called on, or derives from one of them. -/
def Caused (l : Lineage) (called : List TokenId) : Prop :=
  ∀ u, l.handles.forest.isCancelled u = true → ∃ t ∈ called, u = t ∨ l.Derived t u

theorem caused_start (n : Nat) : (start n).Caused [] := by
  intro u hu
  unfold Forest.isCancelled start at hu
  rw [List.getElem?_replicate] at hu
  split at hu <;> exact absurd hu Bool.false_ne_true

theorem Caused.step (hc : l.Caused called) (hs : l.Sound) (op : HandleOp) :
    (l.step op).Caused (called ++ (l.target? op).toList) := by
  intro u hu
  rcases hs.isCancelled_step hu with hu | ⟨t, ht, hu⟩ | ⟨p, hp, hpc⟩
  · obtain ⟨t, ht, hut⟩ := hc u hu
    exact ⟨t, List.mem_append_left _ ht, hut.imp_right (·.step_op op)⟩
  · exact ⟨t, List.mem_append_right _ (Option.mem_toList.mpr ht), hu.imp_right (·.step_op op)⟩
  · obtain ⟨t, ht, hpt⟩ := hc p hpc
    refine ⟨t, List.mem_append_left _ ht, .inr ?_⟩
    rcases hpt with rfl | hd
    · exact .child hp
    · exact .step (hd.step_op op) hp

/-- **Every cancelled token was cancelled itself, or derives from one that was.** -/
theorem Caused.run (hc : l.Caused called) (hs : l.Sound) (ops : List HandleOp) :
    (l.run ops).Caused (called ++ l.targets ops) := by
  induction ops generalizing l called with
  | nil =>
    rw [targets, List.append_nil]
    exact hc
  | cons op ops ih =>
    rw [targets, ← List.append_assoc]
    exact ih (hc.step hs op) (hs.step op)

/-! ## Confinement -/

/-- Cancellations go down only, and links to live children stay. -/
structure Confined (l : Lineage) (called : List TokenId) : Prop where
  /-- A token is cancelled only if it or a token that it derives from was. -/
  caused : l.Caused called
  /-- A cancellation changes no token but the one that it is called on and those derived from it. -/
  frame : ∀ holder t u, l.token? holder = some t → u ≠ t → ¬ l.Derived t u →
    (l.step (.cancel holder)).handles.forest.isCancelled u = l.handles.forest.isCancelled u
  lasting : ∀ u, l.handles.forest.isCancelled u = true →
    ∀ ops, (l.run ops).handles.forest.isCancelled u = true
  /-- When a token gets another child, those of its children that are alive are kept. -/
  kept : ∀ holder t c, l.token? holder = some t → c ∈ l.handles.forest.children t →
    l.handles.forest.isAlive c = true → c ∈ (l.handles.forest.derive t).2.children t
  /-- So a live parent knows all its live children, until they are cancelled. -/
  linked : ∀ p c : Nat, l.parents[c]? = some (some p) → l.handles.forest.isAlive p = true →
    l.handles.forest.isAlive c = true → l.handles.forest.isCancelled c = false →
      c ∈ l.handles.forest.children p

theorem Sound.frame (hs : l.Sound) {holder : Holder} (ht : l.token? holder = some t) (hut : u ≠ t)
    (hd : ¬ l.Derived t u) : (l.step (.cancel holder)).handles.forest.isCancelled u =
      l.handles.forest.isCancelled u := by
  rw [Bool.eq_iff_iff]
  refine ⟨fun h => ?_, fun h => isCancelled_step_of h _⟩
  simp only [Lineage.step, ht] at h
  rcases hs.isCancelled_cancel_only h with hu | hu | hu
  · exact hu
  · exact absurd hu hut
  · exact absurd hu.derived hd

theorem Sound.kept (hs : l.Sound) {holder : Holder} {c : Nat} (ht : l.token? holder = some t)
    (hc : c ∈ l.handles.forest.children t) (ha : l.handles.forest.isAlive c = true) :
    c ∈ (l.handles.forest.derive t).2.children t := by
  have hlt := Forest.lt_of_isAlive (hs.isAlive_of_token? ht)
  rw [Forest.children_derive hlt, if_neg (Nat.ne_of_lt hlt)]
  split
  · exact List.mem_append_left _ (List.mem_filter.mpr ⟨hc, ha⟩)
  · exact hc

theorem Sound.linked (hs : l.Sound) {p c : Nat} (hpc : l.parents[c]? = some (some p))
    (hp : l.handles.forest.isAlive p = true) (hc : l.handles.forest.isAlive c = true)
    (hnot : l.handles.forest.isCancelled c = false) : c ∈ l.handles.forest.children p := by
  rcases hs.kin.reached hpc hp hc with hl | hl | hl
  · exact hl
  · exact absurd (hnot.symm.trans hl) Bool.false_ne_true
  · exact absurd hl List.not_mem_nil

/-- **Cancellations never spread upwards or sideways**, whatever is made, copied, dropped and
cancelled in whatever order. -/
theorem cancellation_confined (n : Nat) (ops : List HandleOp) :
    ((start n).run ops).Confined ((start n).targets ops) := by
  have hs := sound_run n ops
  exact {
    caused := (caused_start n).run (sound_start n) ops
    frame := fun _ _ _ ht hut hd => hs.frame ht hut hd
    lasting := fun _ hu ops => isCancelled_run hu ops
    kept := fun _ _ _ ht hc ha => hs.kept ht hc ha
    linked := fun _ _ hpc hp hc hnot => hs.linked hpc hp hc hnot }

/-- Neither the parent nor the sister of a cancelled token hears of it, but its child does. -/
example : (((start 1).run [.derive "b" (.elsewhere 0), .derive "c" (.elsewhere 0),
    .derive "d" (.name "b"), .cancel (.name "b")]).handles.forest.tokens.map (·.cancelled)) =
      [false, true, false, true] := by
  decide

end Lineage

end LogShipper.Cancel
