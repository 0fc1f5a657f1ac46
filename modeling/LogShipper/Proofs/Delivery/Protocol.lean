import LogShipper.Delivery.Dialogue

/-!
# Talks that keep to rules

A `Protocol` is a set of rules for talks: which requests may be made in a state of the rules, which
answers to them are to be reckoned with, and which state an exchange leads to. A talk `Abides` by
the rules if every request it makes may be made, whatever the answers were before.

Whoever answers a talk may rely on the rules in turn. An invariant that the answers to allowed
requests keep holds throughout a run (`Abides.run`), and wherever the run makes a request
(`Abides.reaches`). Rules that are looser are kept too (`Abides.simulate`).

Results:
* `abides_bind`: a talk in two parts abides where the second part abides from what the first leaves.
* `Abides.run`, `Abides.reaches`: invariants of those who answer.
* `Abides.simulate`: from rules to looser ones.
-/

namespace LogShipper.Delivery

/-- Rules for talks. -/
structure Protocol (S : Type) where
  /-- The requests that may be made. -/
  allows : S → Request → Prop
  /-- The answers that are to be reckoned with. -/
  admits : S → (r : Request) → r.Answer → Prop
  /-- What an exchange leads to. -/
  after : S → (r : Request) → r.Answer → S

namespace Dialogue

variable {S α β σ : Type} {P : Protocol S}

/-- A talk keeps to the rules from a state on, and `Q` holds of its result and of the state then. -/
def Abides (P : Protocol S) : Dialogue α → S → (α → S → Prop) → Prop
  | .done a, s, Q => Q a s
  | .ask r next, s, Q =>
    P.allows s r ∧ ∀ x, P.admits s r x → (next x).Abides P (P.after s r x) Q

theorem Abides.mono {d : Dialogue α} {s : S} {Q R : α → S → Prop} (h : d.Abides P s Q)
    (hQR : ∀ a s', Q a s' → R a s') : d.Abides P s R := by
  induction d generalizing s with
  | done a => exact hQR a s h
  | ask r next ih => exact ⟨h.1, fun x hx => ih x (h.2 x hx)⟩

/-- **A talk in two parts** abides where the second part does from what the first one leaves. -/
theorem abides_bind {d : Dialogue α} {f : α → Dialogue β} {s : S} {Q : β → S → Prop} :
    (d.bind f).Abides P s Q ↔ d.Abides P s fun a s' => (f a).Abides P s' Q := by
  induction d generalizing s with
  | done a => exact Iff.rfl
  | ask r next ih =>
    exact and_congr_right fun _ => forall_congr' fun x => imp_congr_right fun _ => ih x

theorem Abides.bind {d : Dialogue α} {f : α → Dialogue β} {s : S} {Q : α → S → Prop}
    {R : β → S → Prop} (h : d.Abides P s Q) (hf : ∀ a s', Q a s' → (f a).Abides P s' R) :
    (d.bind f).Abides P s R :=
  abides_bind.mpr (h.mono hf)

/-! ## Those who answer -/

/-- Whoever answers allowed requests keeps an invariant, and gives only answers that were to be
reckoned with. -/
def Upholds (P : Protocol S) (I : S → σ → Prop)
    (answer : (r : Request) → σ → r.Answer × σ) : Prop :=
  ∀ s r w, I s w → P.allows s r →
    P.admits s r (answer r w).1 ∧ I (P.after s r (answer r w).1) (answer r w).2

variable {I : S → σ → Prop} {answer : (r : Request) → σ → r.Answer × σ}

/-- **An invariant that every answer keeps holds after a run.** -/
theorem Abides.run {d : Dialogue α} {s : S} {Q : α → S → Prop} {w : σ} (h : d.Abides P s Q)
    (hI : Upholds P I answer) (hw : I s w) :
    ∃ s', Q (d.run answer w).1 s' ∧ I s' (d.run answer w).2 := by
  induction d generalizing s w with
  | done a => exact ⟨s, h, hw⟩
  | ask r next ih =>
    obtain ⟨hadmits, hafter⟩ := hI s r w hw h.1
    exact ih _ (h.2 _ hadmits) hafter

/-- A run makes a request, in the state `w'` of whoever answers. -/
inductive Reaches (answer : (r : Request) → σ → r.Answer × σ) :
    Dialogue α → σ → Request → σ → Prop where
  | here {r : Request} {next : r.Answer → Dialogue α} {w : σ} :
      Reaches answer (.ask r next) w r w
  | later {r r' : Request} {next : r.Answer → Dialogue α} {w w' : σ}
      (h : Reaches answer (next (answer r w).1) (answer r w).2 r' w') :
      Reaches answer (.ask r next) w r' w'

/-- An invariant that every answer keeps holds wherever a run makes a request, and the request may
be made. -/
theorem Abides.reaches {d : Dialogue α} {s : S} {Q : α → S → Prop} {w w' : σ} {r : Request}
    (h : d.Abides P s Q) (hI : Upholds P I answer) (hw : I s w)
    (hr : Reaches answer d w r w') : ∃ s', P.allows s' r ∧ I s' w' := by
  induction hr generalizing s with
  | here => exact ⟨s, h.1, hw⟩
  | later _ ih =>
    obtain ⟨hadmits, hafter⟩ := hI s _ _ hw h.1
    exact ih (h.2 _ hadmits) hafter

/-! ## Looser rules -/

/-- **From rules to looser ones**: where what the strict rules allow is allowed, and what the loose
ones admit is admitted, a talk that keeps to the strict rules keeps to the loose ones. -/
theorem Abides.simulate {S' : Type} {P' : Protocol S'} {R : S → S' → Prop} {d : Dialogue α}
    {s : S} {s' : S'} {Q : α → S → Prop}
    (hstep : ∀ s s' r, R s s' → P.allows s r → P'.allows s' r ∧ ∀ x, P'.admits s' r x →
      P.admits s r x ∧ R (P.after s r x) (P'.after s' r x))
    (h : d.Abides P s Q) (hs : R s s') :
    d.Abides P' s' fun a t' => ∃ t, R t t' ∧ Q a t := by
  induction d generalizing s s' with
  | done a => exact ⟨s, hs, h⟩
  | ask r next ih =>
    obtain ⟨hallows, hnext⟩ := hstep s s' r hs h.1
    refine ⟨hallows, fun x hx => ?_⟩
    obtain ⟨hadmits, hafter⟩ := hnext x hx
    exact ih x (h.2 x hadmits) hafter

end Dialogue

end LogShipper.Delivery
