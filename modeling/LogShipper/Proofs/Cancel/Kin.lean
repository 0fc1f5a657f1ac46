import LogShipper.Cancel.Forest

/-!
# Parents and links

A forest keeps no record of what was derived from what: a token knows its children only as long as
some handle holds it. `Kin` is what such a record, `parents`, and the links have to do with each
other: a link leads to a child, a token that is dead or cancelled has none, and a token with a live
parent is linked to it or cancelled. A sweep keeps this up to the tokens still to be struck, and
every operation on handles keeps it.

Results:
* `kin_sweep`: a sweep that has fuel for its links leaves no token to be struck.
* `isCancelled_sweep_of_mem`, `isCancelled_sweep_only`: which tokens a sweep cancels.
* `Kin.create`, `Kin.derive`, `Kin.retain`, `Kin.release`, `Kin.cancel`: one lemma per operation.
-/

namespace LogShipper.Cancel

namespace Forest

/-- How many handles hold a token. -/
def handleCount (f : Forest) (t : TokenId) : Nat := (f.tokens[t]?).elim 0 (·.handles)

/-- The links of a token. -/
def children (f : Forest) (t : TokenId) : List TokenId := (f.tokens[t]?).elim [] (·.children)

variable {f : Forest} {t u : TokenId}

theorem isAlive_iff : f.isAlive t = true ↔ 0 < f.handleCount t := by
  unfold isAlive handleCount Token.isAlive
  cases f.tokens[t]? <;> simp

theorem lt_of_isAlive (h : f.isAlive t = true) : t < f.tokens.length := by
  unfold isAlive at h
  cases ht : f.tokens[t]? with
  | none => rw [ht] at h; exact absurd h Bool.noConfusion
  | some token => exact (List.getElem?_eq_some_iff.mp ht).1

theorem lt_of_isCancelled (h : f.isCancelled t = true) : t < f.tokens.length := by
  unfold isCancelled at h
  cases ht : f.tokens[t]? with
  | none => rw [ht] at h; exact absurd h Bool.noConfusion
  | some token => exact (List.getElem?_eq_some_iff.mp ht).1

/-! ## What one change does -/

theorem getElem?_update (f : Forest) (t i : TokenId) (change : Token → Token) :
    (f.update t change).tokens[i]? = if t = i then (f.tokens[i]?).map change else f.tokens[i]? := by
  unfold update
  rw [List.getElem?_modify]
  split <;> simp

theorem getElem?_concat {α : Type} (l : List α) (a : α) (i : Nat) :
    (l ++ [a])[i]? = if i = l.length then some a else l[i]? := by
  rw [List.getElem?_append]
  split
  · rename_i hlt
    rw [if_neg (Nat.ne_of_lt hlt)]
  · rename_i hge
    split
    · rename_i heq
      simp [heq]
    · rename_i hne
      rw [List.getElem?_eq_none (by simp only [List.length_singleton]; omega),
        List.getElem?_eq_none (by omega)]

theorem getElem?_add (f : Forest) (token : Token) (i : Nat) :
    (f.add token).2.tokens[i]? =
      if i = f.tokens.length then some token else f.tokens[i]? :=
  getElem?_concat f.tokens token i

@[simp] theorem length_update (f : Forest) (t : TokenId) (change : Token → Token) :
    (f.update t change).tokens.length = f.tokens.length := by
  simp [update]

@[simp] theorem length_add (f : Forest) (token : Token) :
    (f.add token).2.tokens.length = f.tokens.length + 1 := by
  simp [add]

/-! ## What striking does -/

/-- A token can be struck while it is alive and not cancelled. -/
def isOpen (f : Forest) (t : TokenId) : Bool := f.isAlive t && !f.isCancelled t

theorem strike_of_open (h : f.isOpen t = true) :
    f.strike t = (f.update t fun p => { p with cancelled := true, children := [] },
      f.children t) := by
  unfold isOpen isAlive isCancelled at h
  unfold strike children
  cases ht : f.tokens[t]? with
  | none => rw [ht] at h; exact absurd h Bool.noConfusion
  | some token =>
    rw [ht] at h
    simp only [Option.any_some] at h
    simp only [h, if_true, Option.elim_some]

theorem strike_of_not_open (h : f.isOpen t = false) : f.strike t = (f, []) := by
  unfold isOpen isAlive isCancelled at h
  unfold strike
  cases ht : f.tokens[t]? with
  | none => rfl
  | some token =>
    rw [ht] at h
    simp only [Option.any_some] at h
    simp only [h, Bool.false_eq_true, if_false]

theorem handleCount_strike (f : Forest) (t u : TokenId) :
    (f.strike t).1.handleCount u = f.handleCount u := by
  cases h : f.isOpen t with
  | false => rw [strike_of_not_open h]
  | true =>
    rw [strike_of_open h]
    unfold handleCount
    simp only [getElem?_update]
    split
    · cases f.tokens[u]? <;> rfl
    · rfl

theorem isAlive_strike (f : Forest) (t u : TokenId) :
    (f.strike t).1.isAlive u = f.isAlive u := by
  rw [Bool.eq_iff_iff, isAlive_iff, isAlive_iff, handleCount_strike]

theorem isCancelled_strike_iff (f : Forest) (t u : TokenId) :
    (f.strike t).1.isCancelled u = true ↔
      f.isCancelled u = true ∨ u = t ∧ f.isAlive t = true := by
  cases h : f.isOpen t with
  | false =>
    rw [strike_of_not_open h]
    refine ⟨.inl, ?_⟩
    rintro (hu | ⟨rfl, ha⟩)
    · exact hu
    · simpa [isOpen, ha] using h
  | true =>
    have ha : f.isAlive t = true := by
      unfold isOpen at h
      exact (Bool.and_eq_true_iff.mp h).1
    rw [strike_of_open h]
    by_cases hu : t = u
    · subst hu
      have hlt := lt_of_isAlive ha
      unfold isCancelled
      rw [getElem?_update, if_pos rfl, List.getElem?_eq_getElem hlt]
      simp [ha]
    · unfold isCancelled
      rw [getElem?_update, if_neg hu]
      simp [Ne.symm hu]

theorem children_strike (f : Forest) (t u : TokenId) :
    (f.strike t).1.children u = if u = t ∧ f.isOpen t = true then [] else f.children u := by
  cases h : f.isOpen t with
  | false => simp [strike_of_not_open h]
  | true =>
    rw [strike_of_open h]
    unfold children
    simp only [getElem?_update, and_true]
    by_cases hu : t = u
    · subst hu
      simp only [if_true]
      cases f.tokens[t]? <;> rfl
    · simp [hu, Ne.symm hu]

theorem length_strike (f : Forest) (t : TokenId) :
    (f.strike t).1.tokens.length = f.tokens.length := by
  cases h : f.isOpen t with
  | false => rw [strike_of_not_open h]
  | true => rw [strike_of_open h, length_update]

end Forest

/-! ## The record and the links -/

/-- What the record of parents and the links have to do with each other, while the tokens of `queue`
are still to be struck. -/
structure Kin (f : Forest) (parents : List (Option TokenId)) (queue : List TokenId) : Prop where
  recorded : parents.length = f.tokens.length
  /-- A parent is older than its child. -/
  older : ∀ {c p : Nat}, parents[c]? = some (some p) → p < c
  /-- A link leads to a child. -/
  links : ∀ {p c : Nat}, c ∈ f.children p → parents[c]? = some (some p)
  dead : ∀ {p : Nat}, f.isAlive p = false → f.children p = []
  spent : ∀ {p : Nat}, f.isCancelled p = true → f.children p = []
  /-- A token with a live parent is linked to it, or cancelled, or about to be. -/
  reached : ∀ {p c : Nat}, parents[c]? = some (some p) → f.isAlive p = true →
    f.isAlive c = true → c ∈ f.children p ∨ f.isCancelled c = true ∨ c ∈ queue

variable {f : Forest} {parents : List (Option TokenId)} {queue : List TokenId} {t u : TokenId}

/-- More tokens may be struck besides. -/
theorem Kin.widen (h : Kin f parents queue) {queue' : List TokenId}
    (hsub : ∀ c ∈ queue, c ∈ queue') : Kin f parents queue' :=
  ⟨h.recorded, h.older, h.links, h.dead, h.spent,
    fun hpc hp hc => (h.reached hpc hp hc).imp_right (·.imp_right (hsub _))⟩

/-- Any tokens may be struck next. -/
theorem Kin.enqueue (h : Kin f parents []) (queue : List TokenId) : Kin f parents queue :=
  h.widen fun _ hc => absurd hc List.not_mem_nil

/-- Striking one token of the queue leaves its children to be struck instead. -/
theorem Kin.strike (h : Kin f parents (t :: queue)) :
    Kin (f.strike t).1 parents ((f.strike t).2 ++ queue) where
  recorded := by rw [Forest.length_strike, h.recorded]
  older := h.older
  links hc := by
    rw [Forest.children_strike] at hc
    split at hc
    · exact absurd hc List.not_mem_nil
    · exact h.links hc
  dead hp := by
    rw [Forest.isAlive_strike] at hp
    rw [Forest.children_strike, h.dead hp, ite_self]
  spent {p} hp := by
    rw [Forest.children_strike]
    split
    · rfl
    · rename_i hopen
      rcases (Forest.isCancelled_strike_iff f t p).mp hp with hp | ⟨rfl, ha⟩
      · exact h.spent hp
      · have : f.isCancelled p = true := by simpa [Forest.isOpen, ha] using hopen
        exact h.spent this
  reached {p c} hpc hp hc := by
    rw [Forest.isAlive_strike] at hp hc
    rw [Forest.isCancelled_strike_iff, Forest.children_strike]
    have := h.reached hpc hp hc
    by_cases hopen : p = t ∧ f.isOpen t = true
    · rw [if_pos hopen]
      obtain ⟨rfl, ho⟩ := hopen
      rw [Forest.strike_of_open ho]
      rcases this with hl | hl | hl
      · exact .inr (.inr (List.mem_append_left _ hl))
      · exact .inr (.inl (.inl hl))
      · rcases List.mem_cons.mp hl with rfl | hl
        · exact .inr (.inl (.inr ⟨rfl, hc⟩))
        · exact .inr (.inr (List.mem_append_right _ hl))
    · rw [if_neg hopen]
      rcases this with hl | hl | hl
      · exact .inl hl
      · exact .inr (.inl (.inl hl))
      · rcases List.mem_cons.mp hl with rfl | hl
        · exact .inr (.inl (.inr ⟨rfl, hc⟩))
        · exact .inr (.inr (List.mem_append_right _ hl))

theorem sweep_cons (fuel : Nat) (t : TokenId) (queue : List TokenId) (f : Forest) :
    f.sweep (fuel + 1) (t :: queue) = (f.strike t).1.sweep fuel ((f.strike t).2 ++ queue) := rfl

theorem fuel_strike {fuel : Nat} (h : f.links + (t :: queue).length ≤ fuel + 1) :
    (f.strike t).1.links + ((f.strike t).2 ++ queue).length ≤ fuel := by
  have := f.links_strike t
  rw [List.length_append]
  rw [List.length_cons] at h
  omega

/-- A sweep that has fuel for its links and its queue leaves no token to be struck. The induction
is on the fuel; striking a token uses up one unit, and moves its links to the queue. -/
theorem kin_sweep {fuel : Nat} (hfuel : f.links + queue.length ≤ fuel)
    (h : Kin f parents queue) : Kin (f.sweep fuel queue) parents [] := by
  induction fuel generalizing f queue with
  | zero =>
    obtain rfl : queue = [] := List.eq_nil_of_length_eq_zero (by omega)
    exact h
  | succ fuel ih =>
    cases queue with
    | nil => exact h
    | cons t queue =>
      rw [sweep_cons]
      exact ih (fuel_strike hfuel) h.strike

theorem isAlive_sweep (fuel : Nat) (queue : List TokenId) (f : Forest) (u : TokenId) :
    (f.sweep fuel queue).isAlive u = f.isAlive u := by
  induction fuel generalizing f queue with
  | zero => rfl
  | succ fuel ih =>
    cases queue with
    | nil => rfl
    | cons t queue => rw [sweep_cons, ih, Forest.isAlive_strike]

theorem handleCount_sweep (fuel : Nat) (queue : List TokenId) (f : Forest) (u : TokenId) :
    (f.sweep fuel queue).handleCount u = f.handleCount u := by
  induction fuel generalizing f queue with
  | zero => rfl
  | succ fuel ih =>
    cases queue with
    | nil => rfl
    | cons t queue => rw [sweep_cons, ih, Forest.handleCount_strike]

/-- A cancelled token stays cancelled while others are struck. -/
theorem isCancelled_sweep_of (fuel : Nat) (queue : List TokenId) (h : f.isCancelled u = true) :
    (f.sweep fuel queue).isCancelled u = true := by
  induction fuel generalizing f queue with
  | zero => exact h
  | succ fuel ih =>
    cases queue with
    | nil => exact h
    | cons t queue =>
      rw [sweep_cons]
      exact ih _ ((Forest.isCancelled_strike_iff f t u).mpr (.inl h))

/-- Every live token of the queue is struck. -/
theorem isCancelled_sweep_of_mem {fuel : Nat} (hfuel : f.links + queue.length ≤ fuel)
    (hu : u ∈ queue) (ha : f.isAlive u = true) : (f.sweep fuel queue).isCancelled u = true := by
  induction fuel generalizing f queue with
  | zero => exact absurd (List.length_pos_of_mem hu) (by omega)
  | succ fuel ih =>
    cases queue with
    | nil => exact absurd hu List.not_mem_nil
    | cons t queue =>
      rw [sweep_cons]
      rcases List.mem_cons.mp hu with rfl | hu
      · exact isCancelled_sweep_of fuel _ (Forest.isCancelled_strike ha)
      · exact ih (fuel_strike hfuel) (List.mem_append_right _ hu) (by rwa [Forest.isAlive_strike])

/-- Only tokens that the queue leads to are struck: whatever holds of the queue, and of the
children of live tokens of which it holds, holds of every token that the sweep cancels. -/
theorem isCancelled_sweep_only {P : TokenId → Prop} (fuel : Nat) (h : Kin f parents queue)
    (hqueue : ∀ t ∈ queue, P t)
    (hchild : ∀ p c : Nat, P p → f.isAlive p = true → parents[c]? = some (some p) → P c)
    (hu : (f.sweep fuel queue).isCancelled u = true) : f.isCancelled u = true ∨ P u := by
  induction fuel generalizing f queue with
  | zero => exact .inl hu
  | succ fuel ih =>
    cases queue with
    | nil => exact .inl hu
    | cons t queue =>
      have ht := hqueue t List.mem_cons_self
      have hnext : ∀ c ∈ (f.strike t).2 ++ queue, P c := by
        intro c hc
        rcases List.mem_append.mp hc with hc | hc
        · cases ho : f.isOpen t with
          | false =>
            rw [Forest.strike_of_not_open ho] at hc
            exact absurd hc List.not_mem_nil
          | true =>
            rw [Forest.strike_of_open ho] at hc
            have ha : f.isAlive t = true := by
              unfold Forest.isOpen at ho
              exact (Bool.and_eq_true_iff.mp ho).1
            exact hchild t c ht ha (h.links hc)
        · exact hqueue c (List.mem_cons_of_mem t hc)
      rw [sweep_cons] at hu
      have hstep := ih h.strike hnext (fun p c hp ha => hchild p c hp (by
        rwa [Forest.isAlive_strike] at ha)) hu
      rcases hstep with hc | hp
      · rcases (Forest.isCancelled_strike_iff f t u).mp hc with hc | ⟨rfl, -⟩
        · exact .inl hc
        · exact .inr ht
      · exact .inr hp

/-! ## Making, copying and dropping handles -/

namespace Forest

theorem handleCount_add (f : Forest) (token : Token) (u : Nat) :
    (f.add token).2.handleCount u =
      if u = f.tokens.length then token.handles else f.handleCount u := by
  unfold handleCount
  rw [getElem?_add]
  split <;> rfl

theorem isAlive_add (f : Forest) (token : Token) (u : Nat) :
    (f.add token).2.isAlive u =
      if u = f.tokens.length then token.isAlive else f.isAlive u := by
  unfold isAlive
  rw [getElem?_add]
  split <;> rfl

theorem isCancelled_add (f : Forest) (token : Token) (u : Nat) :
    (f.add token).2.isCancelled u =
      if u = f.tokens.length then token.cancelled else f.isCancelled u := by
  unfold isCancelled
  rw [getElem?_add]
  split <;> rfl

theorem children_add (f : Forest) (token : Token) (u : Nat) :
    (f.add token).2.children u =
      if u = f.tokens.length then token.children else f.children u := by
  unfold children
  rw [getElem?_add]
  split <;> rfl

theorem handleCount_release (f : Forest) (t u : TokenId) :
    (f.release t).handleCount u = if t = u then f.handleCount u - 1 else f.handleCount u := by
  unfold release handleCount
  rw [getElem?_update]
  split
  · cases f.tokens[u]? <;> rfl
  · rfl

theorem isCancelled_release (f : Forest) (t u : TokenId) :
    (f.release t).isCancelled u = f.isCancelled u := by
  unfold release isCancelled
  rw [getElem?_update]
  split
  · cases f.tokens[u]? <;> rfl
  · rfl

theorem children_release (f : Forest) (t u : TokenId) :
    (f.release t).children u =
      if t = u ∧ f.handleCount u ≤ 1 then [] else f.children u := by
  unfold release children handleCount
  rw [getElem?_update]
  by_cases htu : t = u
  · cases f.tokens[u]? with
    | none => simp
    | some token => simp [htu]
  · simp [htu]

theorem handleCount_retain (h : f.isAlive t = true) (u : TokenId) :
    (f.retain t).handleCount u = if t = u then f.handleCount u + 1 else f.handleCount u := by
  unfold retain handleCount
  rw [getElem?_update]
  split
  · rename_i htu
    subst htu
    rw [List.getElem?_eq_getElem (lt_of_isAlive h)]
    rfl
  · rfl

theorem isCancelled_retain (f : Forest) (t u : TokenId) :
    (f.retain t).isCancelled u = f.isCancelled u := by
  unfold retain isCancelled
  rw [getElem?_update]
  split
  · cases f.tokens[u]? <;> rfl
  · rfl

theorem children_retain (f : Forest) (t u : TokenId) :
    (f.retain t).children u = f.children u := by
  unfold retain children
  rw [getElem?_update]
  split
  · cases f.tokens[u]? <;> rfl
  · rfl

theorem isAlive_retain (h : f.isAlive t = true) (u : TokenId) :
    (f.retain t).isAlive u = f.isAlive u := by
  rw [Bool.eq_iff_iff, isAlive_iff, isAlive_iff, handleCount_retain h]
  split
  · rename_i htu
    rw [← htu]
    have := isAlive_iff.mp h
    omega
  · rfl

/-- What `derive` does to an open token: dead children are forgotten, and one is added. -/
theorem derive_of_open (h : f.isCancelled t = false) :
    f.derive t = (f.update t fun p =>
      { p with children := p.children.filter f.isAlive ++ [f.tokens.length] }).add {} := by
  unfold derive
  rw [h]
  rfl

theorem handleCount_derive (f : Forest) (t u : Nat) :
    (f.derive t).2.handleCount u = if u = f.tokens.length then 1 else f.handleCount u := by
  cases h : f.isCancelled t with
  | true =>
    unfold derive
    rw [h, if_pos rfl, handleCount_add]
  | false =>
    rw [derive_of_open h, handleCount_add, length_update]
    unfold handleCount
    rw [getElem?_update]
    split
    · rfl
    · split
      · cases f.tokens[u]? <;> rfl
      · rfl

theorem isAlive_derive (f : Forest) (t u : Nat) :
    (f.derive t).2.isAlive u = if u = f.tokens.length then true else f.isAlive u := by
  rw [Bool.eq_iff_iff, isAlive_iff, handleCount_derive]
  split
  · simp
  · exact isAlive_iff.symm

theorem isCancelled_derive (f : Forest) (t u : Nat) :
    (f.derive t).2.isCancelled u =
      if u = f.tokens.length then f.isCancelled t else f.isCancelled u := by
  cases h : f.isCancelled t with
  | true =>
    unfold derive
    rw [h, if_pos rfl, isCancelled_add]
  | false =>
    rw [derive_of_open h, isCancelled_add, length_update]
    unfold isCancelled
    rw [getElem?_update]
    split
    · rfl
    · split
      · cases f.tokens[u]? <;> rfl
      · rfl

theorem children_derive (ht : t < f.tokens.length) (u : Nat) :
    (f.derive t).2.children u =
      if u = f.tokens.length then []
      else if t = u ∧ f.isCancelled t = false then
        (f.children u).filter f.isAlive ++ [f.tokens.length]
      else f.children u := by
  cases h : f.isCancelled t with
  | true =>
    unfold derive
    rw [h, if_pos rfl, children_add]
    simp
  | false =>
    rw [derive_of_open h, children_add, length_update]
    unfold children
    rw [getElem?_update]
    split
    · rfl
    · by_cases htu : t = u
      · subst htu
        simp [List.getElem?_eq_getElem ht]
      · simp [htu]

theorem length_derive (f : Forest) (t : TokenId) :
    (f.derive t).2.tokens.length = f.tokens.length + 1 := by
  unfold derive
  split <;> simp

end Forest

/-! ## The record over one operation -/

theorem Kin.lt_length (h : Kin f parents queue) {c p : Nat} (hc : parents[c]? = some (some p)) :
    c < f.tokens.length := by
  rw [← h.recorded]
  exact (List.getElem?_eq_some_iff.mp hc).1

/-- The token that is recorded last, and those before. -/
theorem parent_concat {q : Option TokenId} {c p : Nat} :
    (parents ++ [q])[c]? = some (some p) ↔
      (c = parents.length ∧ q = some p) ∨ (c ≠ parents.length ∧ parents[c]? = some (some p)) := by
  rw [Forest.getElem?_concat]
  by_cases hc : c = parents.length
  · simp [hc]
  · simp [hc]

theorem Kin.links_concat (h : Kin f parents queue) (q : Option TokenId) {c p : Nat}
    (hc : c ∈ f.children p) : (parents ++ [q])[c]? = some (some p) := by
  have hlink := h.links hc
  have hne : c ≠ parents.length := Nat.ne_of_lt (List.getElem?_eq_some_iff.mp hlink).1
  exact parent_concat.mpr (.inr ⟨hne, hlink⟩)

/-- A new token that derives from none. -/
theorem Kin.create (h : Kin f parents queue) : Kin f.create.2 (parents ++ [none]) queue := by
  have parent {c p : Nat} (hc : (parents ++ [none])[c]? = some (some p)) :
      c ≠ f.tokens.length ∧ parents[c]? = some (some p) := by
    rcases parent_concat.mp hc with ⟨-, hnone⟩ | hold
    · exact absurd hnone (Option.some_ne_none p).symm
    · rwa [h.recorded] at hold
  unfold Forest.create
  refine ⟨by simp [h.recorded], fun hc => h.older (parent hc).2, fun {p c} hc => ?_,
    fun {p} hp => ?_, fun {p} hp => ?_, fun {p c} hpc hp hc => ?_⟩
  · rw [Forest.children_add] at hc
    split at hc
    · exact absurd hc List.not_mem_nil
    · exact h.links_concat none hc
  · rw [Forest.isAlive_add] at hp
    rw [Forest.children_add]
    split
    · rfl
    · rename_i hne
      rw [if_neg hne] at hp
      exact h.dead hp
  · rw [Forest.isCancelled_add] at hp
    rw [Forest.children_add]
    split
    · rfl
    · rename_i hne
      rw [if_neg hne] at hp
      exact h.spent hp
  · obtain ⟨hne, hpc⟩ := parent hpc
    have hlt := h.older hpc
    have hc_lt := h.lt_length hpc
    rw [Forest.isAlive_add, if_neg (by omega)] at hp
    rw [Forest.isAlive_add, if_neg hne] at hc
    rw [Forest.isCancelled_add, if_neg hne, Forest.children_add, if_neg (by omega)]
    exact h.reached hpc hp hc

/-! ## The record over a derivation -/

/-- A live token that is not cancelled gets one link more. -/
theorem Kin.links_derive (h : Kin f parents queue) (ht : t < f.tokens.length) {p c : Nat}
    (hc : c ∈ (f.derive t).2.children p) : (parents ++ [some t])[c]? = some (some p) := by
  rw [Forest.children_derive ht] at hc
  split at hc
  · exact absurd hc List.not_mem_nil
  · split at hc
    · rename_i hopen
      rcases List.mem_append.mp hc with hold | hnew
      · exact h.links_concat _ (List.mem_filter.mp hold).1
      · have hlast : c = parents.length := (List.mem_singleton.mp hnew).trans h.recorded.symm
        exact parent_concat.mpr (.inl ⟨hlast, congrArg some hopen.1⟩)
    · exact h.links_concat _ hc

/-- A token without links gets none, unless it is the one that is derived from. -/
theorem Forest.children_derive_eq_nil (ht : t < f.tokens.length) {p : Nat}
    (hp : p ≠ f.tokens.length → f.children p = [])
    (hopen : p ≠ f.tokens.length → t = p → f.isCancelled t = true) :
    (f.derive t).2.children p = [] := by
  rw [Forest.children_derive ht]
  split
  · rfl
  · rename_i hne
    rw [if_neg, hp hne]
    rintro ⟨htp, hnot⟩
    rw [hopen hne htp] at hnot
    exact Bool.noConfusion hnot

/-- The new token is linked to the one that it derives from, or cancelled with it; of the others
the live ones are linked as before. -/
theorem Kin.reached_derive (h : Kin f parents queue) (ht : t < f.tokens.length) {p c : Nat}
    (hpc : (parents ++ [some t])[c]? = some (some p)) (hp : (f.derive t).2.isAlive p = true)
    (hc : (f.derive t).2.isAlive c = true) :
    c ∈ (f.derive t).2.children p ∨ (f.derive t).2.isCancelled c = true ∨ c ∈ queue := by
  rw [Forest.isCancelled_derive, Forest.children_derive ht]
  rcases parent_concat.mp hpc with ⟨hlast, htp⟩ | ⟨hne, hpc⟩
  · obtain rfl := Option.some.inj htp
    rw [h.recorded] at hlast
    rw [if_neg (Nat.ne_of_lt ht), if_pos hlast]
    cases hct : f.isCancelled t with
    | true => exact .inr (.inl rfl)
    | false => simp [hlast]
  · rw [h.recorded] at hne
    have hlt := h.older hpc
    have hc_lt := h.lt_length hpc
    rw [Forest.isAlive_derive, if_neg (by omega)] at hp
    rw [Forest.isAlive_derive, if_neg hne] at hc
    rw [if_neg (by omega), if_neg hne]
    rcases h.reached hpc hp hc with hl | hl | hl
    · left
      split
      · exact List.mem_append_left _ (List.mem_filter.mpr ⟨hl, hc⟩)
      · exact hl
    · exact .inr (.inl hl)
    · exact .inr (.inr hl)

/-- A new token that derives from a live one. -/
theorem Kin.derive (h : Kin f parents queue) (ht : f.isAlive t = true) :
    Kin (f.derive t).2 (parents ++ [some t]) queue where
  recorded := by simp [h.recorded, Forest.length_derive]
  older hc := by
    rcases parent_concat.mp hc with ⟨rfl, hp⟩ | ⟨-, hc⟩
    · obtain rfl := Option.some.inj hp
      rw [h.recorded]
      exact Forest.lt_of_isAlive ht
    · exact h.older hc
  links hc := h.links_derive (Forest.lt_of_isAlive ht) hc
  dead {p} hp := by
    rw [Forest.isAlive_derive] at hp
    refine Forest.children_derive_eq_nil (Forest.lt_of_isAlive ht) ?_ ?_
    · intro hne
      rw [if_neg hne] at hp
      exact h.dead hp
    · rintro hne rfl
      rw [if_neg hne, ht] at hp
      exact absurd hp.symm Bool.false_ne_true
  spent {p} hp := by
    rw [Forest.isCancelled_derive] at hp
    refine Forest.children_derive_eq_nil (Forest.lt_of_isAlive ht) ?_ ?_
    · intro hne
      rw [if_neg hne] at hp
      exact h.spent hp
    · rintro hne rfl
      rwa [if_neg hne] at hp
  reached hpc hp hc := h.reached_derive (Forest.lt_of_isAlive ht) hpc hp hc

/-! ## The record over the other operations -/

/-- One more handle of a live token. -/
theorem Kin.retain (h : Kin f parents []) (ht : f.isAlive t = true) :
    Kin (f.retain t) parents [] where
  recorded := by simp [Forest.retain, h.recorded]
  older := h.older
  links hc := h.links (Forest.children_retain f t _ ▸ hc)
  dead hp := by
    rw [Forest.isAlive_retain ht] at hp
    rw [Forest.children_retain, h.dead hp]
  spent hp := by
    rw [Forest.isCancelled_retain] at hp
    rw [Forest.children_retain, h.spent hp]
  reached hpc hp hc := by
    rw [Forest.isAlive_retain ht] at hp hc
    rw [Forest.children_retain, Forest.isCancelled_retain]
    exact h.reached hpc hp hc

/-- One handle of a token less. -/
theorem Kin.release (h : Kin f parents []) (t : TokenId) : Kin (f.release t) parents [] := by
  have alive {u : TokenId} (hu : (f.release t).isAlive u = true) :
      f.isAlive u = true ∧ (f.release t).children u = f.children u := by
    rw [Forest.isAlive_iff, Forest.handleCount_release] at hu
    rw [Forest.isAlive_iff, Forest.children_release]
    split at hu
    · exact ⟨by omega, if_neg fun hd => by omega⟩
    · rename_i hne
      exact ⟨hu, if_neg fun hd => hne hd.1⟩
  refine ⟨by simp [Forest.release, h.recorded], h.older, fun {p c} hc => ?_, fun {p} hp => ?_,
    fun {p} hp => ?_, fun {p c} hpc hp hc => ?_⟩
  · rw [Forest.children_release] at hc
    split at hc
    · exact absurd hc List.not_mem_nil
    · exact h.links hc
  · rw [Forest.children_release]
    split
    · rfl
    · rename_i hlast
      apply h.dead
      rw [Bool.eq_false_iff, ne_eq, Forest.isAlive_iff, Forest.handleCount_release] at hp
      rw [Bool.eq_false_iff, ne_eq, Forest.isAlive_iff]
      intro hpos
      split at hp
      · rename_i htp
        exact hlast ⟨htp, by omega⟩
      · exact hp hpos
  · rw [Forest.isCancelled_release] at hp
    rw [Forest.children_release, h.spent hp, ite_self]
  · rw [(alive hp).2, Forest.isCancelled_release]
    exact h.reached hpc (alive hp).1 (alive hc).1

/-- A cancellation. -/
theorem Kin.cancel (h : Kin f parents []) (t : TokenId) : Kin (f.cancel t) parents [] :=
  kin_sweep (by simp) (h.enqueue [t])

end LogShipper.Cancel
