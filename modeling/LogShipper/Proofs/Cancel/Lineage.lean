import LogShipper.Proofs.Cancel.Kin

/-!
# Which tokens a cancellation reaches

A `Lineage` is what a program does with tokens: the handles it makes, copies and drops, and the
record of what was derived from what. Some tokens are held elsewhere from the start, as an
engine holds its own.

A token hears of a cancellation if the tokens between it and the cancelled one are all alive
(`Unbroken`). It does not hear of it once one of them has lost its last handle, although it was
derived through it (`Derived`).

Results:
* `Lineage.sound_run`: the record and the links agree after every run.
* `Lineage.Sound.isCancelled_cancel_iff`: a cancellation reaches the tokens derived through live
  ones, and no other.
-/

namespace LogShipper.Cancel

/-! ## Handles -/

/-- The names and the handles that are owed account for no more handles than the tokens have. -/
def Handles.Covers (h : Handles) (owed : List TokenId) : Prop :=
  ∀ t, (h.names.map Prod.snd).count t + owed.count t ≤ h.forest.handleCount t

theorem count_filter_lookup {names : List (String × TokenId)} {name : String} {t : TokenId}
    (h : names.lookup name = some t) (u : TokenId) :
    ((names.filter fun n => n.1 != name).map Prod.snd).count u + (if t = u then 1 else 0) ≤
      (names.map Prod.snd).count u := by
  induction names with
  | nil => exact absurd h (by simp)
  | cons n names ih =>
    obtain ⟨k, v⟩ := n
    have hle : ((names.filter fun n => n.1 != name).map Prod.snd).count u ≤
        (names.map Prod.snd).count u :=
      (List.filter_sublist.map _).count_le u
    by_cases hk : name = k
    · subst hk
      obtain rfl : v = t := by simpa using h
      simp only [List.filter_cons, bne_self_eq_false, Bool.false_eq_true, if_false, List.map_cons,
        List.count_cons, beq_iff_eq]
      omega
    · rw [List.lookup_cons, beq_eq_false_iff_ne.mpr hk] at h
      have := ih h
      simp only [List.filter_cons, bne_iff_ne, ne_eq, Ne.symm hk, not_false_eq_true, if_true,
        List.map_cons, List.count_cons]
      omega

namespace Handles

variable {h : Handles} {owed : List TokenId} {name : String} {t : TokenId}

theorem isAlive_of_token? (hc : h.Covers owed) (ht : h.token? name = some t) :
    h.forest.isAlive t = true := by
  have hcount := count_filter_lookup ht t
  rw [if_pos rfl] at hcount
  have := hc t
  rw [Forest.isAlive_iff]
  omega

theorem isAlive_of_owed (hc : h.Covers owed) (ht : t ∈ owed) : h.forest.isAlive t = true := by
  have hpos := List.count_pos_iff.mpr ht
  have := hc t
  rw [Forest.isAlive_iff]
  omega

theorem Covers.drop (hc : h.Covers owed) (name : String) : (h.drop name).Covers owed := by
  unfold Handles.drop
  cases ht : h.token? name with
  | none => exact hc
  | some t =>
    intro u
    have hcount := count_filter_lookup ht u
    have := hc u
    simp only [Forest.handleCount_release]
    by_cases htu : t = u
    · rw [if_pos htu] at hcount ⊢
      omega
    · rw [if_neg htu] at hcount ⊢
      omega

/-- A new handle is owed until it has a name. -/
theorem Covers.hold (hc : h.Covers owed) {f : Forest}
    (hf : ∀ u, f.handleCount u = h.forest.handleCount u + if t = u then 1 else 0) :
    ({ h with forest := f } : Handles).Covers (t :: owed) := by
  intro u
  have hu := hc u
  rw [hf, List.count_cons]
  simp only [beq_iff_eq]
  omega

theorem Covers.bind (hc : h.Covers (t :: owed)) (name : String) :
    (h.bind name t).Covers owed := by
  intro u
  have hdrop := hc.drop name u
  rw [List.count_cons] at hdrop
  unfold Handles.bind
  simp only [List.map_append, List.count_append, List.map_cons, List.map_nil,
    List.count_singleton]
  omega

end Handles

/-! ## Runs -/

/-- Who holds a token: a handle with a name, or somebody else. -/
inductive Holder where
  | name (name : String)
  | elsewhere (t : TokenId)

/-- Something done with the handles of tokens. -/
inductive HandleOp where
  | create (name : String)
  /-- A token derived from another one. -/
  | derive (name : String) (parent : Holder)
  /-- A second handle of a token. -/
  | clone (name : String) (other : Holder)
  | drop (name : String)
  | cancel (holder : Holder)

/-- Handles, and for each token the one that it was derived from. -/
structure Lineage where
  handles : Handles := {}
  parents : List (Option TokenId) := []
  /-- How many tokens are held elsewhere: those made first. -/
  elsewhere : Nat := 0

namespace Lineage

/-- Some tokens that are held elsewhere, and no name. -/
def start (n : Nat) : Lineage where
  handles := { forest := ⟨List.replicate n {}⟩ }
  parents := List.replicate n none
  elsewhere := n

/-- The token that somebody holds. -/
def token? (l : Lineage) : Holder → Option TokenId
  | .name name => l.handles.token? name
  | .elsewhere t => if t < l.elsewhere then some t else none

/-- Does one thing. Where no token is held nothing happens. -/
def step (l : Lineage) : HandleOp → Lineage
  | .create name =>
    { l with handles := l.handles.create name, parents := l.parents ++ [none] }
  | .derive name parent =>
    match l.token? parent with
    | none => l
    | some t =>
      { l with handles := l.handles.deriveFrom name t, parents := l.parents ++ [some t] }
  | .clone name other =>
    match l.token? other with
    | none => l
    | some t => { l with handles := l.handles.clone name t }
  | .drop name => { l with handles := l.handles.drop name }
  | .cancel holder =>
    match l.token? holder with
    | none => l
    | some t => { l with handles := l.handles.cancel t }

/-- Does one thing after the other. -/
def run (l : Lineage) (ops : List HandleOp) : Lineage := ops.foldl step l

/-- The record agrees with the links, and every name with a handle. -/
structure Sound (l : Lineage) : Prop where
  kin : Kin l.handles.forest l.parents []
  covers : l.handles.Covers (List.range l.elsewhere)

variable {l : Lineage} {t u : TokenId}

/-- Whoever holds a token keeps it alive. -/
theorem Sound.isAlive_of_token? (hs : l.Sound) {holder : Holder} (ht : l.token? holder = some t) :
    l.handles.forest.isAlive t = true := by
  cases holder with
  | name name => exact Handles.isAlive_of_token? hs.covers ht
  | elsewhere u =>
    simp only [token?] at ht
    split at ht
    · rename_i hlt
      obtain rfl := Option.some.inj ht
      exact Handles.isAlive_of_owed hs.covers (List.mem_range.mpr hlt)
    · exact absurd ht (Option.some_ne_none t).symm

theorem sound_start (n : Nat) : (start n).Sound where
  kin := by
    have children (p : TokenId) : (start n).handles.forest.children p = [] := by
      unfold Forest.children start
      rw [List.getElem?_replicate]
      split <;> rfl
    refine ⟨by simp [start], fun {c p} hc => ?_, fun {p c} hc => ?_, fun _ => children _,
      fun _ => children _, fun {p c} hc => ?_⟩
    · simp [start, List.getElem?_replicate] at hc
    · rw [children] at hc
      exact absurd hc List.not_mem_nil
    · simp [start, List.getElem?_replicate] at hc
  covers t := by
    unfold start Forest.handleCount
    simp only [List.map_nil, List.count_nil, Nat.zero_add, List.count_range,
      List.getElem?_replicate]
    split <;> simp

/-- Dropping a handle by its name keeps the record. -/
theorem kin_drop {h : Handles} {parents : List (Option TokenId)} (hk : Kin h.forest parents [])
    (name : String) : Kin (h.drop name).forest parents [] := by
  unfold Handles.drop
  cases h.token? name with
  | none => exact hk
  | some t => exact hk.release t

/-- A token just made is held by the one handle that it is made with. -/
theorem handleCount_fresh {f g : Forest}
    (h : ∀ u : Nat, g.handleCount u = if u = f.tokens.length then 1 else f.handleCount u)
    (u : Nat) : g.handleCount u = f.handleCount u + if f.tokens.length = u then 1 else 0 := by
  rw [h]
  by_cases hu : u = f.tokens.length
  · have : f.handleCount u = 0 := by simp [Forest.handleCount, hu]
    rw [if_pos hu, if_pos hu.symm, this]
  · rw [if_neg hu, if_neg (Ne.symm hu), Nat.add_zero]

theorem Sound.create (hs : l.Sound) (name : String) : (l.step (.create name)).Sound where
  kin := kin_drop hs.kin.create name
  covers := by
    refine Handles.Covers.bind (h := ⟨l.handles.forest.create.2, l.handles.names⟩)
      (hs.covers.hold (handleCount_fresh fun u => ?_)) name
    exact Forest.handleCount_add _ _ u

theorem Sound.derive (hs : l.Sound) (name : String) (parent : Holder) :
    (l.step (.derive name parent)).Sound := by
  simp only [Lineage.step]
  split
  · exact hs
  · rename_i t ht
    have ha := hs.isAlive_of_token? ht
    have hlen : (l.handles.forest.derive t).1 = l.handles.forest.tokens.length := by
      unfold Forest.derive
      split <;> simp [Forest.add]
    refine ⟨kin_drop (hs.kin.derive ha) name, Handles.Covers.bind
      (h := ⟨(l.handles.forest.derive t).2, l.handles.names⟩)
      (t := (l.handles.forest.derive t).1) ?_ name⟩
    rw [hlen]
    exact hs.covers.hold (handleCount_fresh fun u => Forest.handleCount_derive _ t u)

theorem Sound.clone (hs : l.Sound) (name : String) (other : Holder) :
    (l.step (.clone name other)).Sound := by
  simp only [Lineage.step]
  split
  · exact hs
  · rename_i t ht
    have ha := hs.isAlive_of_token? ht
    refine ⟨kin_drop (hs.kin.retain ha) name, Handles.Covers.bind
      (h := ⟨l.handles.forest.retain t, l.handles.names⟩) (hs.covers.hold fun u => ?_) name⟩
    rw [Forest.handleCount_retain ha]
    split <;> rfl

theorem Sound.cancel (hs : l.Sound) (holder : Holder) : (l.step (.cancel holder)).Sound := by
  simp only [Lineage.step]
  split
  · exact hs
  · rename_i t ht
    refine ⟨hs.kin.cancel t, fun u => ?_⟩
    have := hs.covers u
    unfold Handles.cancel Forest.cancel
    rw [handleCount_sweep]
    exact this

/-- The record and the links agree after every step. -/
theorem Sound.step (hs : l.Sound) (op : HandleOp) : (l.step op).Sound := by
  cases op with
  | create name => exact hs.create name
  | derive name parent => exact hs.derive name parent
  | clone name other => exact hs.clone name other
  | drop name => exact ⟨kin_drop hs.kin name, hs.covers.drop name⟩
  | cancel holder => exact hs.cancel holder

theorem Sound.run (hs : l.Sound) (ops : List HandleOp) : (l.run ops).Sound := by
  induction ops generalizing l with
  | nil => exact hs
  | cons op ops ih => exact ih (hs.step op)

/-- The record and the links agree after every run. -/
theorem sound_run (n : Nat) (ops : List HandleOp) : ((start n).run ops).Sound :=
  (sound_start n).run ops

/-! ## What a cancellation reaches -/

/-- A token was derived from `t`, through any number of others. -/
inductive Derived (l : Lineage) (t : TokenId) : TokenId → Prop where
  | child {c : TokenId} (h : l.parents[c]? = some (some t)) : Derived l t c
  | step {p c : TokenId} (hp : Derived l t p) (h : l.parents[c]? = some (some p)) : Derived l t c

/-- A token was derived from `t`, and the tokens in between are all alive. -/
inductive Unbroken (l : Lineage) (t : TokenId) : TokenId → Prop where
  | child {c : TokenId} (h : l.parents[c]? = some (some t)) : Unbroken l t c
  | step {p c : TokenId} (hp : Unbroken l t p) (ha : l.handles.forest.isAlive p = true)
      (h : l.parents[c]? = some (some p)) : Unbroken l t c

theorem Unbroken.derived (h : l.Unbroken t u) : l.Derived t u := by
  induction h with
  | child h => exact .child h
  | step _ _ h ih => exact .step ih h

/-- A token is older than all that derives from it. -/
theorem Sound.lt_of_derived (hs : l.Sound) (h : l.Derived t u) : t < u := by
  induction h with
  | child h => exact hs.kin.older h
  | step _ h ih => exact Nat.lt_trans ih (hs.kin.older h)

/-- Along live tokens a cancellation passes from parent to child: a cancelled token has no links,
so that none of its live children is left out. -/
theorem Sound.isCancelled_of_unbroken (hs : l.Sound) (ht : l.handles.forest.isAlive t = true)
    (hu : l.handles.forest.isAlive u = true) (h : l.Unbroken t u) :
    (l.handles.forest.cancel t).isCancelled u = true := by
  have hk := hs.kin.cancel t
  have alive (p : TokenId) :
      (l.handles.forest.cancel t).isAlive p = l.handles.forest.isAlive p := by
    unfold Forest.cancel
    rw [isAlive_sweep]
  have pass {p c : TokenId} (hp : l.handles.forest.isAlive p = true)
      (hc : l.handles.forest.isAlive c = true) (hpc : l.parents[c]? = some (some p))
      (hcp : (l.handles.forest.cancel t).isCancelled p = true) :
      (l.handles.forest.cancel t).isCancelled c = true := by
    rcases hk.reached hpc (by rwa [alive]) (by rwa [alive]) with hl | hl | hl
    · rw [hk.spent hcp] at hl
      exact absurd hl List.not_mem_nil
    · exact hl
    · exact absurd hl List.not_mem_nil
  have self : (l.handles.forest.cancel t).isCancelled t = true :=
    isCancelled_sweep_of_mem (by simp) (by simp) ht
  induction h with
  | child h => exact pass ht hu h self
  | step _ ha h ih => exact pass ha hu h (ih ha)

/-- A cancellation reaches the token that it is called on, and tokens derived from it through live
ones. -/
theorem Sound.isCancelled_cancel_only (hs : l.Sound)
    (h : (l.handles.forest.cancel t).isCancelled u = true) :
    l.handles.forest.isCancelled u = true ∨ u = t ∨ l.Unbroken t u := by
  refine isCancelled_sweep_only (P := fun u => u = t ∨ l.Unbroken t u) _ (hs.kin.enqueue [t])
    (fun c hc => .inl (List.mem_singleton.mp hc)) (fun p c hp ha hpc => .inr ?_) h
  rcases hp with rfl | hp
  · exact .child hpc
  · exact .step hp ha hpc

/-- A cancellation reaches the live tokens that were derived through live ones, and no other token
that was derived. -/
theorem Sound.isCancelled_cancel_iff (hs : l.Sound) (ht : l.handles.forest.isAlive t = true)
    (hu : l.handles.forest.isAlive u = true) (hd : l.Derived t u) :
    (l.handles.forest.cancel t).isCancelled u = true ↔
      l.handles.forest.isCancelled u = true ∨ l.Unbroken t u := by
  constructor
  · intro h
    rcases hs.isCancelled_cancel_only h with hc | rfl | hb
    · exact .inl hc
    · exact absurd (hs.lt_of_derived hd) (Nat.lt_irrefl u)
    · exact .inr hb
  · rintro (hc | hb)
    · exact isCancelled_sweep_of _ _ hc
    · exact hs.isCancelled_of_unbroken ht hu hb

end Lineage

end LogShipper.Cancel
