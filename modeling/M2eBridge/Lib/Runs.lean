import Mathlib.Logic.Relation
import Mathlib.Data.Nat.Find

/-!
# Runs of a step function and of a step relation

Two forms of run. A machine whose next state is a function of an input is run
over a stream of inputs (`run`); the environment is the stream, so a statement
about every stream is a statement about every environment. A system in which
any of several actions may be enabled is run along a list of actions
(`exec`), and its reachable states are those of Mathlib's `ReflTransGen`. Each
form has its invariant rule, once for invariants that every step keeps and once
for those kept by the steps that meet a condition. A machine also has the rules for
what every run comes to (`Leads`).
-/

namespace Lib

section Machine

variable {σ ι : Type*} (step : ι → σ → σ)

/-- The state after `n` steps from `s`, step `n` reading `inputs n`. -/
def run (inputs : Nat → ι) (s : σ) : Nat → σ
  | 0 => s
  | n + 1 => step (inputs n) (run inputs s n)

variable {step}

/-- Invariance along a run whose steps all meet `guard`. -/
theorem run_invariant_of (guard : ι → σ → Prop) {inv : σ → Prop} {inputs : Nat → ι} {s : σ}
    (start : inv s) (met : ∀ n, guard (inputs n) (run step inputs s n))
    (keep : ∀ i t, guard i t → inv t → inv (step i t)) : ∀ n, inv (run step inputs s n) := by
  intro n
  induction n with
  | zero => exact start
  | succ n ih => exact keep _ _ (met n) ih

/-- Invariance along every run. -/
theorem run_invariant {inv : σ → Prop} {s : σ} (start : inv s)
    (keep : ∀ i t, inv t → inv (step i t)) (inputs : Nat → ι) : ∀ n, inv (run step inputs s n) :=
  run_invariant_of (fun _ _ => True) start (fun _ => trivial) fun i t _ => keep i t

/-- Two conditions that come to the same at every state with the invariant, which
steps that meet them keep, are met by the same runs. -/
theorem run_met_iff (inv : σ → Prop) (good guard : ι → σ → Prop) {inputs : Nat → ι} {s : σ} (start : inv s)
    (same : ∀ i t, inv t → (good i t ↔ guard i t)) (keep : ∀ i t, good i t → inv t → inv (step i t)) (n : Nat) :
    (∀ k < n, good (inputs k) (run step inputs s k)) ↔ ∀ k < n, guard (inputs k) (run step inputs s k) := by
  suffices both :
      ((∀ k < n, good (inputs k) (run step inputs s k)) ↔ ∀ k < n, guard (inputs k) (run step inputs s k)) ∧
      ((∀ k < n, good (inputs k) (run step inputs s k)) → inv (run step inputs s n)) from both.1
  induction n with
  | zero => exact ⟨by simp, fun _ => start⟩
  | succ n ih =>
    obtain ⟨met, kept⟩ := ih
    simp only [Nat.forall_lt_succ_right]
    refine ⟨?_, fun ⟨before, last⟩ => keep _ _ last (kept before)⟩
    rw [← met]
    exact and_congr_right fun before => same _ _ (kept before)

/-! ### What every run comes to -/

theorem run_add (inputs : Nat → ι) (s : σ) (m n : Nat) :
    run step inputs s (m + n) = run step (fun k => inputs (m + k)) (run step inputs s m) n := by
  induction n with
  | zero => rfl
  | succ n ih => exact congrArg (step (inputs (m + n))) ih

variable (step) in
/-- On every stream of inputs the run from `s` comes to a state with `goal`. -/
def Leads (goal : σ → Prop) (s : σ) : Prop := ∀ inputs : Nat → ι, ∃ n, goal (run step inputs s n)

theorem Leads.now {goal : σ → Prop} {s : σ} (here : goal s) : Leads step goal s := fun _ => ⟨0, here⟩

theorem Leads.trans {mid goal : σ → Prop} {s : σ} (first : Leads step mid s)
    (later : ∀ t, mid t → Leads step goal t) : Leads step goal s := by
  intro inputs
  obtain ⟨m, reached⟩ := first inputs
  obtain ⟨n, done⟩ := later _ reached fun k => inputs (m + k)
  exact ⟨m + n, by rwa [run_add]⟩

theorem Leads.next {goal : σ → Prop} {s : σ} (behind : ∀ i, Leads step goal (step i s)) : Leads step goal s := by
  intro inputs
  obtain ⟨n, done⟩ := behind (inputs 0) fun k => inputs (1 + k)
  exact ⟨1 + n, by rwa [run_add]⟩

/-- What the steps keep until the goal is met holds when it is met first. -/
theorem Leads.keep {goal inv : σ → Prop} {s : σ} (leads : Leads step goal s) (start : inv s)
    (keep : ∀ i t, ¬ goal t → inv t → inv (step i t)) : Leads step (fun t => goal t ∧ inv t) s := by
  classical
  intro inputs
  have met := leads inputs
  refine ⟨Nat.find met, Nat.find_spec met, ?_⟩
  suffices kept : ∀ n ≤ Nat.find met, inv (run step inputs s n) from kept _ le_rfl
  intro n before
  induction n with
  | zero => exact start
  | succ n ih => exact keep _ _ (Nat.find_min met before) (ih (Nat.le_of_succ_le before))

end Machine

section Actions

variable {σ α : Type*} (step : α → σ → Option σ)

/-- Some action leads from `s` to `t`. -/
def Step (s t : σ) : Prop := ∃ a, step a s = some t

/-- Some action that meets `guard` leads from `s` to `t`. -/
def StepWhen (guard : α → σ → Prop) (s t : σ) : Prop := ∃ a, guard a s ∧ step a s = some t

/-- The states reachable from `s`. -/
abbrev Reaches (s t : σ) : Prop := Relation.ReflTransGen (Step step) s t

/-- The states reachable by steps that all meet `guard`. -/
abbrev ReachesWhen (guard : α → σ → Prop) (s t : σ) : Prop :=
  Relation.ReflTransGen (StepWhen step guard) s t

/-- Perform the actions of a list in order; `none` if one of them is not enabled. -/
def exec : List α → σ → Option σ
  | [], s => some s
  | a :: rest, s => (step a s).bind (exec rest)

/-- Every step of the run along a list meets the condition, as far as the actions are enabled. -/
def Along (met : α → σ → Prop) : List α → σ → Prop
  | [], _ => True
  | a :: rest, s => met a s ∧ ∀ t, step a s = some t → Along met rest t

variable {step}

theorem Along.mono {good guard : α → σ → Prop} (weaker : ∀ a s, good a s → guard a s) {actions : List α} {s : σ}
    (met : Along step good actions s) : Along step guard actions s := by
  induction actions generalizing s with
  | nil => trivial
  | cons a rest ih => exact ⟨weaker a s met.1, fun t next => ih (met.2 t next)⟩

instance Along.decidable {met : α → σ → Prop} [∀ a s, Decidable (met a s)] :
    ∀ (actions : List α) (s : σ), Decidable (Along step met actions s)
  | [], _ => .isTrue trivial
  | a :: rest, s =>
    match next : step a s with
    | none => decidable_of_iff (met a s) (by simp [Along, next])
    | some t =>
      have : Decidable (Along step met rest t) := Along.decidable rest t
      decidable_of_iff (met a s ∧ Along step met rest t) (by simp [Along, next])

/-- Conditions that come to the same in every state with the invariant are met by the
same runs. -/
theorem along_iff (inv : σ → Prop) {good guard : α → σ → Prop} (same : ∀ a s, inv s → (good a s ↔ guard a s))
    (keep : ∀ a s t, inv s → step a s = some t → inv t) {s : σ} (start : inv s) (actions : List α) :
    Along step good actions s ↔ Along step guard actions s := by
  induction actions generalizing s with
  | nil => exact Iff.rfl
  | cons a rest ih => exact and_congr (same a s start) (forall₂_congr fun t next => ih (keep a s t start next))

/-- Where the actions that meet a condition are enabled, a run meets it if each of its actions does. -/
theorem along_forall (inv : σ → Prop) {met : α → Prop} (enabled : ∀ a s, inv s → met a → ∃ t, step a s = some t)
    (keep : ∀ a s t, inv s → step a s = some t → inv t) {s : σ} (start : inv s) (actions : List α) :
    Along step (fun a _ => met a) actions s ↔ ∀ a ∈ actions, met a := by
  induction actions generalizing s with
  | nil => simp [Along]
  | cons a rest ih =>
    rw [List.forall_mem_cons]
    refine and_congr_right fun here => ?_
    obtain ⟨t, next⟩ := enabled a s start here
    constructor
    · intro behind
      exact (ih (keep a s t start next)).mp (behind t next)
    · intro behind u next
      exact (ih (keep a s u start next)).mpr behind

/-- What grows by one with each action that counts has grown by their number. -/
theorem exec_countP (inv : σ → Prop) (measure : σ → Nat) (counts : α → Bool)
    (each : ∀ a s t, inv s → step a s = some t → inv t ∧ measure t = measure s + if counts a then 1 else 0)
    (actions : List α) {s t : σ} (start : inv s) (ran : exec step actions s = some t) :
    measure t = measure s + actions.countP counts := by
  induction actions generalizing s with
  | nil => cases ran; rfl
  | cons a rest ih =>
    obtain ⟨u, first, later⟩ := Option.bind_eq_some_iff.mp ran
    obtain ⟨kept, grown⟩ := each a s u start first
    rw [ih kept later, grown, List.countP_cons]
    omega

/-- Any step meets a condition that asks for nothing. -/
theorem reachesWhen_true {s t : σ} : ReachesWhen step (fun _ _ => True) s t ↔ Reaches step s t := by
  have same : StepWhen step (fun _ _ => True) = Step step := by
    funext s t
    simp only [StepWhen, Step, true_and]
  rw [ReachesWhen, same]

/-- The actions of the list meet the condition in every state. -/
theorem exec_reachesWhen {guard : α → σ → Prop} (actions : List α) (met : ∀ a ∈ actions, ∀ s, guard a s)
    {s t : σ} (h : exec step actions s = some t) : ReachesWhen step guard s t := by
  induction actions generalizing s with
  | nil => cases h; exact .refl
  | cons a rest ih =>
    obtain ⟨u, first, later⟩ := Option.bind_eq_some_iff.mp h
    obtain ⟨here, behind⟩ := List.forall_mem_cons.mp met
    exact .head ⟨a, here s, first⟩ (ih behind later)

/-- A list of actions that meet the condition where they are performed. -/
theorem Along.reachesWhen {guard : α → σ → Prop} {actions : List α} {s t : σ} (met : Along step guard actions s)
    (h : exec step actions s = some t) : ReachesWhen step guard s t := by
  induction actions generalizing s with
  | nil => cases h; exact .refl
  | cons a rest ih =>
    obtain ⟨u, first, later⟩ := Option.bind_eq_some_iff.mp h
    exact .head ⟨a, met.1, first⟩ (ih (met.2 u first) later)

theorem exec_append (before later : List α) (s : σ) :
    exec step (before ++ later) s = (exec step before s).bind (exec step later) := by
  induction before generalizing s with
  | nil => rfl
  | cons a before ih =>
    have ih := funext ih
    simp only [List.cons_append, exec, Option.bind_assoc, ih]

/-- A list of actions that are enabled one after another leads to a state. -/
theorem exec_getD {actions : List α} {s : σ} (ran : (exec step actions s).isSome = true) :
    exec step actions s = some ((exec step actions s).getD s) := by
  obtain ⟨t, ran⟩ := Option.isSome_iff_exists.mp ran
  rw [ran]
  rfl

theorem exec_reaches (actions : List α) {s t : σ} (h : exec step actions s = some t) : Reaches step s t :=
  reachesWhen_true.mp (exec_reachesWhen actions (fun _ _ _ => trivial) h)

/-- Invariance over the states reachable by steps that meet `guard`. -/
theorem ReachesWhen.invariant {guard : α → σ → Prop} (inv : σ → Prop) {s t : σ}
    (reached : ReachesWhen step guard s t) (start : inv s)
    (keep : ∀ a s t, guard a s → inv s → step a s = some t → inv t) : inv t := by
  induction reached with
  | refl => exact start
  | tail _ next ih =>
    obtain ⟨a, met, next⟩ := next
    exact keep a _ _ met ih next

/-- Invariance over the reachable states. -/
theorem Reaches.invariant (inv : σ → Prop) {s t : σ} (reached : Reaches step s t) (start : inv s)
    (keep : ∀ a s t, inv s → step a s = some t → inv t) : inv t :=
  (reachesWhen_true.mpr reached).invariant inv start fun a s t _ => keep a s t

end Actions

end Lib
