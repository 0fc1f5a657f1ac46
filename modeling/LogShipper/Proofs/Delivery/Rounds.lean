import LogShipper.Proofs.Delivery.Tries

/-!
# How tries go by the answers to come

The answers to the pushes of a key, and the ends of the waits between them, can be laid down
beforehand, each as a sequence without end (`Follows`). The tries then go on in rounds of a push that
is rejected and a wait that passes, until a push or a wait turns out otherwise, or the last push has
been made. So there is one round only that they can end with (`IsLast.le`).

Covers `push_with_retry`. A policy is any that `RetryPolicy` can hold.

Results:
* `Job.Tried.ends`: the rounds of tries, and what ends them.
* `Job.Tried.retryLaw`: how the answers to come decide the pushes, the waits and the outcome.
* `Job.counted_eq`: a counter of 32 bits does not overflow.
* `push_retries`: the tries of a push end, keep the law, and can be counted with 32 bits.
-/

namespace LogShipper

namespace Delivery

open Dialogue (Trace)
open Cancel (TokenId WaitOutcome)

/-! ## Answers to come -/

/-- The pushes and the waits among exchanges are answered by two sequences. -/
def Follows (f : Nat → Except LinkError Unit) (g : Nat → WaitOutcome) : List Exchange → Prop
  | [] => True
  | ⟨.push _ _ _, x⟩ :: t => x = f 0 ∧ Follows (fun i => f (i + 1)) g t
  | ⟨.wait _ _, x⟩ :: t => x = g 0 ∧ Follows f (fun i => g (i + 1)) t
  | _ :: t => Follows f g t

/-- The exchanges that are no log entries. -/
def steps (t : List Exchange) : List Exchange := t.filter fun x => x.entry?.isNone

/-- So many pushes are rejected. -/
def Rejects (f : Nat → Except LinkError Unit) (n : Nat) : Prop :=
  ∀ i < n, ∃ error, f i = .error (.command error)

/-- So many waits pass without being cancelled. -/
def Passes (g : Nat → WaitOutcome) (n : Nat) : Prop := ∀ i < n, g i = .elapsed

namespace Job

variable {j : Job} {f : Nat → Except LinkError Unit} {g : Nat → WaitOutcome}
  {left used n m : Nat} {t : List Exchange} {o : KeyOutcome}

/-- So many pushes of a job, each with the wait behind it. -/
def rounds (j : Job) (f : Nat → Except LinkError Unit) (g : Nat → WaitOutcome) (n : Nat) :
    List Exchange :=
  (List.range n).flatMap fun i => [j.pushed (f i), j.waited (g i)]

@[simp] theorem rounds_zero : j.rounds f g 0 = [] := rfl

theorem rounds_succ : j.rounds f g (n + 1) =
    j.pushed (f 0) :: j.waited (g 0) :: j.rounds (fun i => f (i + 1)) (fun i => g (i + 1)) n := by
  unfold rounds
  rw [List.range_succ_eq_map, List.flatMap_cons, List.flatMap_map]
  rfl

@[simp] theorem steps_pushed (x : Except LinkError Unit) :
    steps (j.pushed x :: t) = j.pushed x :: steps t := rfl

@[simp] theorem steps_waited (x : WaitOutcome) :
    steps (j.waited x :: t) = j.waited x :: steps t := rfl

@[simp] theorem steps_logged (entry : LogEntry) : steps (.logged entry :: t) = steps t := rfl

end Job

@[simp] theorem steps_nil : steps [] = [] := rfl

/-! ## The rounds of tries -/

namespace Job

variable {j : Job} {f : Nat → Except LinkError Unit} {g : Nat → WaitOutcome}
  {left used n m : Nat} {t : List Exchange} {o : KeyOutcome}

/-- What stands behind so many rounds if the tries end there, and what comes of them: the next push
is accepted, loses the link or is the last one, or the wait behind it is cancelled. -/
def ending (j : Job) (f : Nat → Except LinkError Unit) (g : Nat → WaitOutcome)
    (left used n : Nat) : List Exchange × KeyOutcome :=
  match f n with
  | .ok () => ([j.pushed (f n)], .delivered (used + n + 1))
  | .error (.connection reason) => ([j.pushed (f n)], .lost reason)
  | .error (.command error) =>
    if n = left then ([j.pushed (f n)], .exhausted (used + n + 1) error)
    else ([j.pushed (f n), j.waited (g n)], .cancelled (used + n + 1))

/-- Tries that have come to a round end with it. -/
def IsLast (f : Nat → Except LinkError Unit) (g : Nat → WaitOutcome) (left n : Nat) : Prop :=
  (∀ error, f n ≠ .error (.command error)) ∨ n = left ∨ g n = .cancelled

theorem ending_succ : j.ending f g (left + 1) used (n + 1) =
    j.ending (fun i => f (i + 1)) (fun i => g (i + 1)) left (used + 1) n := by
  have count : used + 1 + n + 1 = used + (n + 1) + 1 := by omega
  simp only [ending, count, Nat.add_right_cancel_iff]

theorem rejects_zero : Rejects f 0 := fun i hi => absurd hi (Nat.not_lt_zero i)

theorem passes_zero : Passes g 0 := fun i hi => absurd hi (Nat.not_lt_zero i)

theorem rejects_succ {error : String} (hf : f 0 = .error (.command error))
    (h : Rejects (fun i => f (i + 1)) n) : Rejects f (n + 1) := by
  intro i hi
  cases i with
  | zero => exact ⟨error, hf⟩
  | succ i => exact h i (Nat.lt_of_succ_lt_succ hi)

theorem passes_succ (hg : g 0 = .elapsed) (h : Passes (fun i => g (i + 1)) n) :
    Passes g (n + 1) := by
  intro i hi
  cases i with
  | zero => exact hg
  | succ i => exact h i (Nat.lt_of_succ_lt_succ hi)

/-- The tries end behind so many rounds. -/
structure EndsAt (j : Job) (f : Nat → Except LinkError Unit) (g : Nat → WaitOutcome)
    (left used : Nat) (t : List Exchange) (o : KeyOutcome) (n : Nat) : Prop where
  le : n ≤ left
  rejects : Rejects f n
  passes : Passes g n
  last : IsLast f g left n
  steps_eq : steps t = j.rounds f g n ++ (j.ending f g left used n).1
  outcome : o = (j.ending f g left used n).2

/-- **The rounds of tries, and what ends them.** The induction is on the tries. -/
theorem Tried.ends (h : j.Tried left used t o) (hfg : Follows f g t) :
    ∃ n, EndsAt j f g left used t o n := by
  induction h generalizing f g with
  | delivered left used =>
    obtain ⟨hf, -⟩ := hfg
    refine ⟨0, Nat.zero_le _, rejects_zero, passes_zero, .inl fun e he => ?_, ?_, ?_⟩
    · rw [← hf] at he
      cases he
    · simp [ending, ← hf]
    · simp [ending, ← hf]
  | lost left used reason =>
    obtain ⟨hf, -⟩ := hfg
    refine ⟨0, Nat.zero_le _, rejects_zero, passes_zero, .inl fun e he => ?_, ?_, ?_⟩
    · rw [← hf] at he
      cases he
    · simp [ending, ← hf]
    · simp [ending, ← hf]
  | exhausted used error =>
    obtain ⟨hf, -⟩ := hfg
    refine ⟨0, Nat.zero_le _, rejects_zero, passes_zero, .inr (.inl rfl), ?_, ?_⟩
    · simp [ending, ← hf]
    · simp [ending, ← hf]
  | cancelled left used error =>
    obtain ⟨hf, hg, -⟩ := hfg
    refine ⟨0, Nat.zero_le _, rejects_zero, passes_zero, .inr (.inr hg.symm), ?_, ?_⟩
    · simp [ending, ← hf, ← hg]
    · simp [ending, ← hf]
  | again error _ ih =>
    obtain ⟨hf, hg, hrest⟩ := hfg
    obtain ⟨n, h⟩ := ih hrest
    refine ⟨n + 1, Nat.succ_le_succ h.le, rejects_succ hf.symm h.rejects,
      passes_succ hg.symm h.passes, ?_, ?_, ?_⟩
    · rcases h.last with hother | hleft | hcancelled
      · exact .inl hother
      · exact .inr (.inl (congrArg (· + 1) hleft))
      · exact .inr (.inr hcancelled)
    · rw [steps_pushed, steps_logged, steps_waited, h.steps_eq, rounds_succ, ending_succ, hf, hg]
      rfl
    · rw [ending_succ]
      exact h.outcome

/-! ## The law -/

/-- No round comes behind the last one. -/
theorem IsLast.le (h : IsLast f g left n) (hm : m ≤ left) (hrejects : Rejects f m)
    (hpasses : Passes g m) : m ≤ n := by
  refine Nat.le_of_not_lt fun hlt => ?_
  rcases h with hother | hleft | hcancelled
  · obtain ⟨error, he⟩ := hrejects n hlt
    exact hother error he
  · omega
  · rw [hpasses n hlt] at hcancelled
    cases hcancelled

/-- The tries end with the one round that they can end with. -/
theorem EndsAt.unique (h : EndsAt j f g left used t o m) (hn : n ≤ left) (hrejects : Rejects f n)
    (hpasses : Passes g n) (hlast : IsLast f g left n) : EndsAt j f g left used t o n := by
  obtain rfl : m = n := Nat.le_antisymm (hlast.le h.le h.rejects h.passes)
    (h.last.le hn hrejects hpasses)
  exact h

/-- The law of tries by the answers to come: which pushes and waits are made, and what comes of
them. -/
structure RetryLaw (j : Job) (tries : Nat) (f : Nat → Except LinkError Unit)
    (g : Nat → WaitOutcome) (t : List Exchange) (o : KeyOutcome) : Prop where
  /-- All pushes are those of the job, with one wait between each two. There is no wait behind the
  last push that can be made. -/
  alternate : ∃ n < tries, steps t = j.rounds f g n ++ [j.pushed (f n)] ∨
    (n + 1 < tries ∧ steps t = j.rounds f g n ++ [j.pushed (f n), j.waited (g n)])
  /-- The first push that is not rejected is accepted. -/
  delivered : ∀ n < tries, Rejects f n → Passes g n → f n = .ok () →
    o = .delivered (n + 1) ∧ steps t = j.rounds f g n ++ [j.pushed (f n)]
  /-- The first push that is not rejected loses the link. -/
  lost : ∀ n < tries, ∀ reason, Rejects f n → Passes g n → f n = .error (.connection reason) →
    o = .lost reason ∧ steps t = j.rounds f g n ++ [j.pushed (f n)]
  /-- All pushes are rejected. -/
  exhausted : ∀ error, Rejects f tries → Passes g (tries - 1) →
    f (tries - 1) = .error (.command error) →
    o = .exhausted tries error ∧
      steps t = j.rounds f g (tries - 1) ++ [j.pushed (f (tries - 1))]
  /-- The wait behind a rejected push is cancelled. -/
  cancelled : ∀ n, n + 1 < tries → Rejects f (n + 1) → Passes g n → g n = .cancelled →
    o = .cancelled (n + 1) ∧ steps t = j.rounds f g n ++ [j.pushed (f n), j.waited (g n)]

/-- **How the answers to come decide tries.** -/
theorem Tried.retryLaw (h : j.Tried left 0 t o) (hfg : Follows f g t) :
    RetryLaw j (left + 1) f g t o := by
  obtain ⟨m, hends⟩ := h.ends hfg
  constructor
  case alternate =>
    refine ⟨m, Nat.lt_succ_of_le hends.le, ?_⟩
    rw [hends.steps_eq, ending]
    split
    · exact .inl rfl
    · exact .inl rfl
    · split
      · exact .inl rfl
      · rename_i hne
        exact .inr ⟨Nat.succ_lt_succ (Nat.lt_of_le_of_ne hends.le hne), rfl⟩
  case delivered =>
    intro n hn hrejects hpasses hf
    have hends := hends.unique (Nat.le_of_lt_succ hn) hrejects hpasses
      (.inl fun e he => by rw [hf] at he; cases he)
    rw [hends.steps_eq, hends.outcome]
    simp [ending, hf]
  case lost =>
    intro n hn reason hrejects hpasses hf
    have hends := hends.unique (Nat.le_of_lt_succ hn) hrejects hpasses
      (.inl fun e he => by rw [hf] at he; cases he)
    rw [hends.steps_eq, hends.outcome]
    simp [ending, hf]
  case exhausted =>
    intro error hrejects hpasses hf
    rw [Nat.add_sub_cancel] at hpasses hf ⊢
    have hends := hends.unique (Nat.le_refl left) (fun i hi => hrejects i (Nat.lt_succ_of_lt hi))
      hpasses (.inr (.inl rfl))
    rw [hends.steps_eq, hends.outcome]
    simp [ending, hf]
  case cancelled =>
    intro n hn hrejects hpasses hg
    have hlt : n < left := Nat.lt_of_succ_lt_succ hn
    have hends := hends.unique (Nat.le_of_lt hlt) (fun i hi => hrejects i (Nat.lt_succ_of_lt hi))
      hpasses (.inr (.inr hg))
    obtain ⟨error, hf⟩ := hrejects n (Nat.lt_succ_self n)
    rw [hends.steps_eq, hends.outcome]
    simp [ending, hf, Nat.ne_of_lt hlt]

/-! ## Tries end -/

/-- There are tries for any answers to come. The induction is on the tries that are left. -/
theorem exists_tried (j : Job) (left used : Nat) (f : Nat → Except LinkError Unit)
    (g : Nat → WaitOutcome) : ∃ t o, j.Tried left used t o ∧ Follows f g t := by
  induction left generalizing used f g with
  | zero =>
    match hf : f 0 with
    | .ok () => exact ⟨_, _, .delivered 0 used, hf.symm, trivial⟩
    | .error (.connection reason) => exact ⟨_, _, .lost 0 used reason, hf.symm, trivial⟩
    | .error (.command error) => exact ⟨_, _, .exhausted used error, hf.symm, trivial⟩
  | succ left ih =>
    match hf : f 0, hg : g 0 with
    | .ok (), _ => exact ⟨_, _, .delivered (left + 1) used, hf.symm, trivial⟩
    | .error (.connection reason), _ =>
      exact ⟨_, _, .lost (left + 1) used reason, hf.symm, trivial⟩
    | .error (.command error), .cancelled =>
      exact ⟨_, _, .cancelled left used error, hf.symm, hg.symm, trivial⟩
    | .error (.command error), .elapsed =>
      obtain ⟨t, o, htried, hfollows⟩ :=
        ih (used + 1) (fun i => f (i + 1)) (fun i => g (i + 1))
      exact ⟨_, _, .again error htried, hf.symm, hg.symm, hfollows⟩

/-! ## A counter of 32 bits -/

/-- A counter of 32 bits that has not come up to the number of tries. -/
abbrev Counter (tries : UInt32) := { used : UInt32 // used < tries }

/-- A counter that has not come up to the number of tries does not overflow when it is raised. -/
theorem Counter.toNat_raised {tries : UInt32} (used : Counter tries) :
    (used.val + 1).toNat = used.val.toNat + 1 := by
  have := UInt32.lt_iff_toNat_lt.mp used.property
  have := tries.toNat_lt
  rw [UInt32.toNat_add, UInt32.toNat_one]
  omega

/-- Tries with a counter of 32 bits: it is raised behind a rejected push, and the tries end when it
comes up to their number. -/
def counted (j : Job) (tries : UInt32) (used : Counter tries) : Dialogue KeyOutcome :=
  .ask (.push j.link j.key j.payload) fun
    | .ok () => do
      j.logPushed (used.val + 1).toNat
      return .delivered (used.val + 1).toNat
    | .error (.connection reason) => .done (.lost reason)
    | .error (.command e) =>
      if more : used.val + 1 < tries then do
        j.logRetrying (used.val + 1).toNat e
        .ask (.wait j.token j.retryDelayMs.toNat) fun
          | .elapsed => j.counted tries ⟨used.val + 1, more⟩
          | .cancelled => do
            j.logCancelled (used.val + 1).toNat
            return .cancelled (used.val + 1).toNat
      else do
        j.logExhausted (used.val + 1).toNat e
        return .exhausted (used.val + 1).toNat e
termination_by tries.toNat - used.val.toNat
decreasing_by
  have := UInt32.lt_iff_toNat_lt.mp used.property
  have := used.toNat_raised
  omega

/-- **A counter of 32 bits does not overflow**: the tries that count with it are the same. The
induction is on the tries that are left. -/
theorem counted_eq (j : Job) {tries : UInt32} (used : Counter tries)
    (hleft : used.val.toNat + left + 1 = tries.toNat) :
    j.counted tries used = j.attempt left used.val.toNat := by
  have raised := used.toNat_raised
  induction left generalizing used with
  | zero =>
    have last : ¬ used.val + 1 < tries := by
      rw [UInt32.lt_iff_toNat_lt, raised]
      omega
    rw [counted, attempt]
    congr 1
    funext x
    rcases x with (_ | error) | _
    · rfl
    · dsimp only
      rw [dif_neg last, raised]
    · dsimp only
      rw [raised]
  | succ left ih =>
    have more : used.val + 1 < tries := by
      rw [UInt32.lt_iff_toNat_lt, raised]
      omega
    have rest := ih ⟨used.val + 1, more⟩ (by dsimp only; omega) (Counter.toNat_raised _)
    dsimp only at rest
    rw [raised] at rest
    rw [counted, attempt]
    congr 1
    funext x
    rcases x with (_ | error) | _
    · rfl
    · dsimp only
      rw [dif_pos more, raised]
      congr 1
      funext _
      congr 1
      funext outcome
      cases outcome with
      | elapsed => exact rest
      | cancelled => rfl
    · dsimp only
      rw [raised]

end Job

end Delivery

/-! ## The tries of a push -/

namespace RetryPolicy

/-- The tries that a policy allows, as a number of 32 bits. -/
def budget (policy : RetryPolicy) : UInt32 := max 1 policy.maxAttempts

theorem toNat_budget (policy : RetryPolicy) : policy.budget.toNat = policy.attempts := by
  unfold budget attempts
  show (if (1 : UInt32) ≤ policy.maxAttempts then policy.maxAttempts else 1).toNat = _
  split
  · rename_i h
    exact (Nat.max_eq_right (UInt32.le_iff_toNat_le.mp h)).symm
  · rename_i h
    rw [UInt32.le_iff_toNat_le] at h
    exact (Nat.max_eq_left (by omega)).symm

theorem budget_pos (policy : RetryPolicy) : 0 < policy.budget := by
  rw [UInt32.lt_iff_toNat_lt, toNat_budget]
  exact policy.one_le_attempts

end RetryPolicy

namespace Delivery

open Dialogue (Trace)

/-- What can be said of the tries of a push, whatever the answers to come: they end, they keep the
law, and a counter of 32 bits is enough for them. -/
structure Retries (j : Job) (policy : RetryPolicy) (tries : Dialogue KeyOutcome) : Prop where
  ends : ∀ f g, ∃ t o, Trace tries t o ∧ Follows f g t
  law : ∀ f g t o, Trace tries t o → Follows f g t →
    j.RetryLaw (max 1 policy.maxAttempts.toNat) f g t o
  counted : tries = j.counted policy.budget ⟨0, policy.budget_pos⟩

/-- **The law of retries**, for every policy and all answers to the pushes and waits. -/
theorem push_retries (link : LinkId) (key : String) (payload : Bytes) (policy : RetryPolicy)
    (token : Cancel.TokenId) :
    Retries ⟨link, key, payload, policy.retryDelayMs, token⟩ policy
      (push link key payload policy token) := by
  have hpos := policy.one_le_attempts
  rw [push_eq]
  refine ⟨fun f g => ?_, fun f g t o ht hfg => ?_, ?_⟩
  · obtain ⟨t, o, htried, hfg⟩ := Job.exists_tried _ (policy.attempts - 1) 0 f g
    exact ⟨t, o, Job.trace_of_tried htried, hfg⟩
  · have law := (Job.tried_of_trace ht).retryLaw hfg
    rw [Nat.sub_add_cancel hpos] at law
    exact law
  · refine (Job.counted_eq _ ⟨0, policy.budget_pos⟩ ?_).symm
    rw [policy.toNat_budget]
    show 0 + (policy.attempts - 1) + 1 = policy.attempts
    omega

end Delivery

end LogShipper
