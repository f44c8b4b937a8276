import M2eBridge.Lib.Traces
import Mathlib.Order.Monotone.Basic
import Mathlib.Tactic.Choose

/-!
# What comes about in a run without end

An `Execution` is a run that goes on for ever. What never happens is an invariant; what comes
about is a `LeadsTo`, and there are two ways to show one: an action that helps is not put off
for ever (`Fair.leadsTo`), or something gets smaller each time (`LeadsTo.acc`). A machine that
comes to its goal on every stream of inputs gets smaller with each step (`Leads.acc`).
-/

namespace Lib

section Machine

variable {σ ι : Type*} {step : ι → σ → σ}

/-- A step of the machine that has not come to its goal. -/
def Onward (step : ι → σ → σ) (goal : σ → Prop) (t s : σ) : Prop := ¬ goal s ∧ ∃ i, t = step i s

/-- What comes to the goal on every stream of inputs takes no infinite descent: from a state of one, the
inputs that keep it going could be chosen one after the other. -/
theorem Leads.acc {goal : σ → Prop} {s : σ} (leads : Leads step goal s) : Acc (Onward step goal) s := by
  by_contra endless
  have goesOn : ∀ t, ¬ Acc (Onward step goal) t → ∃ i, ¬ goal t ∧ ¬ Acc (Onward step goal) (step i t) := by
    intro t stuck
    by_contra none
    refine stuck ⟨t, fun u onward => ?_⟩
    obtain ⟨open_, i, rfl⟩ := onward
    by_contra again
    exact none ⟨i, open_, again⟩
  choose input behind using goesOn
  let next : { t // ¬ Acc (Onward step goal) t } → { t // ¬ Acc (Onward step goal) t } :=
    fun t => ⟨step (input t.1 t.2) t.1, (behind t.1 t.2).2⟩
  let path (n : Nat) := next^[n] ⟨s, endless⟩
  have along : ∀ n, run step (fun k => input (path k).1 (path k).2) s n = (path n).1 := by
    intro n
    induction n with
    | zero => rfl
    | succ n ih =>
      simp only [run, ih, path, Function.iterate_succ_apply']
      rfl
  obtain ⟨n, done⟩ := leads fun k => input (path k).1 (path k).2
  rw [along] at done
  exact (behind (path n).1 (path n).2).1 done

end Machine

variable {σ α : Type*} {step : α → σ → Option σ}

/-- A run that goes on for ever. -/
structure Execution (step : α → σ → Option σ) where
  state : Nat → σ
  act : Nat → α
  next : ∀ n, step (act n) (state n) = some (state (n + 1))

namespace Execution

variable {run : Execution step} {p q r : σ → Prop}

/-- What the run has put out before a time. -/
def upTo {β : Type*} (run : Execution step) (out : α → σ → List β) (n : Nat) : List β :=
  (List.range n).flatMap fun k => out (run.act k) (run.state k)

/-- It is the trace of the run up to there. -/
theorem trace_upTo {β : Type*} (run : Execution step) (out : α → σ → List β) {guard : α → σ → Prop}
    (met : ∀ n, guard (run.act n) (run.state n)) (n : Nat) :
    Trace step out guard (run.state 0) (run.upTo out n) (run.state n) := by
  induction n with
  | zero => exact .refl _
  | succ n ih =>
    have last : Trace step out guard (run.state n) (out (run.act n) (run.state n) ++ []) (run.state (n + 1)) :=
      .head (met n) (run.next n) (.refl _)
    have all := ih.trans last
    rwa [List.append_nil, ← List.flatMap_singleton (fun k => out (run.act k) (run.state k)) n, upTo, ← List.flatMap_append,
      ← List.range_succ] at all

/-- From a state with `p` the run comes to one with `q`. -/
def LeadsTo (run : Execution step) (p q : σ → Prop) : Prop := ∀ n, p (run.state n) → ∃ m, n ≤ m ∧ q (run.state m)

theorem LeadsTo.of_imp (now : ∀ n, p (run.state n) → q (run.state n)) : run.LeadsTo p q :=
  fun n here => ⟨n, le_rfl, now n here⟩

theorem LeadsTo.trans (first : run.LeadsTo p q) (later : run.LeadsTo q r) : run.LeadsTo p r := by
  intro n here
  obtain ⟨m, after, there⟩ := first n here
  obtain ⟨k, behind, done⟩ := later m there
  exact ⟨k, Nat.le_trans after behind, done⟩

theorem LeadsTo.or (left : run.LeadsTo p r) (right : run.LeadsTo q r) : run.LeadsTo (fun s => p s ∨ q s) r :=
  fun n here => here.elim (left n) (right n)

/-- If each time the goal is met or the index gets smaller, it is met. -/
theorem LeadsTo.acc {ι : Type*} {less : ι → ι → Prop} {p : ι → σ → Prop}
    (smaller : ∀ i, run.LeadsTo (p i) fun s => q s ∨ ∃ j, less j i ∧ p j s) {i : ι} (accessible : Acc less i) :
    run.LeadsTo (p i) q := by
  induction accessible with
  | intro i _ ih =>
    intro n here
    obtain ⟨m, after, done | ⟨j, below, there⟩⟩ := smaller i n here
    · exact ⟨m, after, done⟩
    · obtain ⟨k, behind, done⟩ := ih j below m there
      exact ⟨k, Nat.le_trans after behind, done⟩

/-- What each step keeps until the goal is met holds at a later time, or the goal was met before. -/
theorem stays_until (stays : ∀ n, p (run.state n) → p (run.state (n + 1)) ∨ q (run.state (n + 1))) {n m : Nat}
    (before : n ≤ m) (here : p (run.state n)) : p (run.state m) ∨ ∃ k, n ≤ k ∧ q (run.state k) := by
  induction m, before using Nat.le_induction with
  | base => exact .inl here
  | succ m before ih =>
    rcases ih with still | done
    · exact (stays m still).imp_right fun done => ⟨m + 1, Nat.le_succ_of_le before, done⟩
    · exact .inr done

/-- What does not hold for ever is left for the goal. -/
theorem LeadsTo.of_leaves (stays : ∀ n, p (run.state n) → p (run.state (n + 1)) ∨ q (run.state (n + 1)))
    (leaves : ∀ n, ∃ m, n ≤ m ∧ ¬ p (run.state m)) : run.LeadsTo p q := by
  intro n here
  obtain ⟨m, after, left⟩ := leaves n
  exact (stays_until stays after here).resolve_left left

/-- Actions of the kind are not put off for ever: again and again one is taken, or none can be. -/
def Fair (run : Execution step) (helpful : α → Prop) : Prop :=
  ∀ n, ∃ m, n ≤ m ∧ (helpful (run.act m) ∨ ∀ a, helpful a → step a (run.state m) = none)

/-- What stays until the goal is met, and makes an action possible that meets it, leads to the goal. -/
theorem Fair.leadsTo {helpful : α → Prop} (fair : run.Fair helpful)
    (stays : ∀ n, p (run.state n) → p (run.state (n + 1)) ∨ q (run.state (n + 1)))
    (helps : ∀ n, helpful (run.act n) → p (run.state n) → q (run.state (n + 1)))
    (enabled : ∀ n, p (run.state n) → ∃ a t, helpful a ∧ step a (run.state n) = some t) : run.LeadsTo p q := by
  intro n here
  obtain ⟨m, after, turn⟩ := fair n
  rcases stays_until stays after here with still | done
  · rcases turn with taken | disabled
    · exact ⟨m + 1, Nat.le_succ_of_le after, helps m taken still⟩
    · obtain ⟨a, t, help, possible⟩ := enabled m still
      cases (disabled a help).symm.trans possible
  · exact done

/-- What is counted one by one, as long as it is behind, catches up with what there was to count. -/
theorem catches_up (count bound : σ → Nat) (grows : ∀ n, bound (run.state n) ≤ bound (run.state (n + 1)))
    (next : ∀ i, run.LeadsTo (fun s => count s = i ∧ i < bound s) fun s => i < count s) (n : Nat) :
    ∃ m, n ≤ m ∧ bound (run.state n) ≤ count (run.state m) := by
  have grow {n m : Nat} (before : n ≤ m) : bound (run.state n) ≤ bound (run.state m) :=
    monotone_nat_of_le_succ (f := fun n => bound (run.state n)) grows before
  have reaches (j : Nat) (few : j ≤ bound (run.state n)) : ∃ m, n ≤ m ∧ j ≤ count (run.state m) := by
    induction j with
    | zero => exact ⟨n, le_rfl, Nat.zero_le _⟩
    | succ j ih =>
      obtain ⟨m, after, counted⟩ := ih (Nat.le_of_succ_le few)
      by_cases more : j < count (run.state m)
      · exact ⟨m, after, more⟩
      · have behind : j < bound (run.state m) := few.trans (grow after)
        obtain ⟨l, late, done⟩ := next j m ⟨Nat.le_antisymm (Nat.not_lt.mp more) counted, behind⟩
        exact ⟨l, after.trans late, done⟩
  exact reaches _ le_rfl

/-! ## Runs along a list of actions -/

theorem exec_take_succ (actions : List α) (s : σ) {k : Nat} (inside : k < actions.length) :
    exec step (actions.take (k + 1)) s = (exec step (actions.take k) s).bind (step (actions.get ⟨k, inside⟩)) := by
  induction actions generalizing s k with
  | nil => cases inside
  | cons a rest ih =>
    cases k with
    | zero => simp [exec]
    | succ k =>
      simp only [List.take_succ_cons, exec, Option.bind_assoc]
      exact Option.bind_congr fun t _ => ih t (Nat.lt_of_succ_lt_succ inside)

/-- A run along a list passes through a state behind each of its actions. -/
theorem exec_take_isSome {actions : List α} {s t : σ} (ran : exec step actions s = some t) (k : Nat) :
    (exec step (actions.take k) s).isSome := by
  induction actions generalizing s k with
  | nil => simp [exec]
  | cons a rest ih =>
    obtain ⟨u, first, later⟩ := Option.bind_eq_some_iff.mp ran
    cases k with
    | zero => rfl
    | succ k => simpa [exec, first] using ih later k

/-- From each of these states the next action is taken. -/
theorem step_take {actions : List α} {s t : σ} (ran : exec step actions s = some t) {k : Nat} (inside : k < actions.length) :
    step (actions.get ⟨k, inside⟩) ((exec step (actions.take k) s).get (exec_take_isSome ran k)) =
      exec step (actions.take (k + 1)) s := by
  rw [exec_take_succ actions s inside]
  conv_rhs => rw [← Option.some_get (exec_take_isSome ran k), Option.bind_some]

/-- Along a list each action is met where it is taken. -/
theorem along_take {met : α → σ → Prop} {actions : List α} {s t : σ} (along : Along step met actions s) {k : Nat}
    (inside : k < actions.length) (ran : exec step (actions.take k) s = some t) : met (actions.get ⟨k, inside⟩) t := by
  induction actions generalizing s k with
  | nil => cases inside
  | cons a rest ih =>
    cases k with
    | zero =>
      cases ran
      exact along.1
    | succ k =>
      obtain ⟨u, first, later⟩ := Option.bind_eq_some_iff.mp ran
      exact ih (along.2 u first) (Nat.lt_of_succ_lt_succ inside) later

/-- The run that takes the actions of a list again and again, where they lead back. -/
def circle (actions : List α) (s : σ) (some_ : 0 < actions.length) (back : exec step actions s = some s) : Execution step where
  state n := (exec step (actions.take (n % actions.length)) s).get (exec_take_isSome back _)
  act n := actions.get ⟨n % actions.length, n.mod_lt some_⟩
  next n := by
    have inside := n.mod_lt some_
    rw [step_take back inside, Option.some_get]
    by_cases more : n % actions.length + 1 < actions.length
    · rw [← Nat.mod_add_mod, Nat.mod_eq_of_lt more]
    · have round : n % actions.length + 1 = actions.length := by omega
      have again : (n + 1) % actions.length = 0 := by
        rw [← Nat.mod_add_mod, round, Nat.mod_self]
      rw [round, again, List.take_length, back]
      rfl

section Circle

variable {actions : List α} {s : σ} {some_ : 0 < actions.length} {back : exec step actions s = some s}

theorem circle_place (k : Nat) {i : Nat} (inside : i < actions.length) : (k * actions.length + i) % actions.length = i := by
  rw [Nat.mul_add_mod', Nat.mod_eq_of_lt inside]

/-- Each time around it takes the actions in order. -/
theorem circle_act (k : Nat) {i : Nat} (inside : i < actions.length) :
    (circle actions s some_ back).act (k * actions.length + i) = actions.get ⟨i, inside⟩ :=
  congrArg actions.get (Fin.ext (circle_place k inside))

theorem circle_state (k : Nat) {i : Nat} (inside : i < actions.length) :
    some ((circle actions s some_ back).state (k * actions.length + i)) = exec step (actions.take i) s := by
  simp only [circle, Option.some_get, circle_place k inside]

/-- What every step of the list meets, every step of the run does. -/
theorem circle_along {met : α → σ → Prop} (along : Along step met actions s) (n : Nat) :
    met ((circle actions s some_ back).act n) ((circle actions s some_ back).state n) :=
  along_take along (n.mod_lt some_) (Option.some_get _).symm

end Circle

/-- The run behind a list of actions. -/
def prepend (run : Execution step) (actions : List α) (s : σ) (leads : exec step actions s = some (run.state 0)) :
    Execution step where
  state n :=
    if n < actions.length then (exec step (actions.take n) s).get (exec_take_isSome leads n)
    else run.state (n - actions.length)
  act n := if inside : n < actions.length then actions.get ⟨n, inside⟩ else run.act (n - actions.length)
  next n := by
    by_cases inside : n < actions.length
    · rw [dif_pos inside, if_pos inside, step_take leads inside]
      by_cases more : n + 1 < actions.length
      · rw [if_pos more, Option.some_get]
      · have last : n + 1 = actions.length := by omega
        rw [if_neg more, last, Nat.sub_self, List.take_length, leads]
    · rw [dif_neg inside, if_neg inside, if_neg (by omega), Nat.sub_add_comm (Nat.not_lt.mp inside)]
      exact run.next _

section Prepend

variable {actions : List α} {s : σ} {leads : exec step actions s = some (run.state 0)}

theorem prepend_act (n : Nat) : (run.prepend actions s leads).act (n + actions.length) = run.act n := by
  simp [prepend]

theorem prepend_state (n : Nat) : (run.prepend actions s leads).state (n + actions.length) = run.state n := by
  simp [prepend]

/-- What every step of the list and every step of the run meet, every step of both does. -/
theorem prepend_along {met : α → σ → Prop} (along : Along step met actions s) (later : ∀ n, met (run.act n) (run.state n))
    (n : Nat) : met ((run.prepend actions s leads).act n) ((run.prepend actions s leads).state n) := by
  by_cases inside : n < actions.length
  · simp only [prepend, dif_pos inside, if_pos inside]
    exact along_take along inside (Option.some_get _).symm
  · simp only [prepend, dif_neg inside, if_neg inside]
    exact later _

/-- It is as fair as the run. -/
theorem Fair.prepend {helpful : α → Prop} (fair : run.Fair helpful) : (run.prepend actions s leads).Fair helpful := by
  intro n
  obtain ⟨m, after, turn⟩ := fair n
  exact ⟨m + actions.length, Nat.le_add_right_of_le after, by rwa [prepend_act, prepend_state]⟩

end Prepend

end Execution

end Lib
