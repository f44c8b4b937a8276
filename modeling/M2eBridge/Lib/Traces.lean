import M2eBridge.Lib.Runs

/-!
# Runs and what is observed of them

What can be observed of a step is read off the action and the state before it (`out`), so
a run has a trace: what its steps put out, in order. What a state still owes is settled
from the end of a run (`Trace.settle`), and what can be said of a run without output from
its beginning (`Trace.silent`).
-/

namespace Lib

section Traces

variable {σ α β : Type*} (step : α → σ → Option σ) (out : α → σ → List β)

/-- A run by steps that all meet `guard`, with its trace. -/
inductive Trace (guard : α → σ → Prop) : σ → List β → σ → Prop where
  | refl (s : σ) : Trace guard s [] s
  | head {a : α} {s t u : σ} {trace : List β} (met : guard a s) (next : step a s = some t)
      (later : Trace guard t trace u) : Trace guard s (out a s ++ trace) u

variable {step out} in
theorem Trace.trans {guard : α → σ → Prop} {s t u : σ} {before trace : List β} (run : Trace step out guard s before t)
    (later : Trace step out guard t trace u) : Trace step out guard s (before ++ trace) u := by
  induction run with
  | refl => exact later
  | head met next _ ih =>
    rw [List.append_assoc]
    exact .head met next (ih later)

variable {step out} in
theorem Trace.reaches {guard : α → σ → Prop} {s t : σ} {trace : List β} (run : Trace step out guard s trace t) :
    ReachesWhen step guard s t := by
  induction run with
  | refl => exact .refl
  | head met next _ ih => exact .head ⟨_, met, next⟩ ih

variable {step out} in
/-- Less is observed of the run. -/
theorem Trace.filter {out' : α → σ → List β} {keep : β → Bool} {guard : α → σ → Prop}
    (read : ∀ a s, guard a s → out' a s = (out a s).filter keep) {s t : σ} {trace : List β}
    (run : Trace step out guard s trace t) : Trace step out' guard s (trace.filter keep) t := by
  induction run with
  | refl => exact .refl _
  | head met next _ ih =>
    rw [List.filter_append, ← read _ _ met]
    exact .head met next ih

/-- The trace of the actions of a list, as far as they are enabled. -/
def outputs : List α → σ → List β
  | [], _ => []
  | a :: rest, s => out a s ++ (step a s).elim [] (outputs rest)

variable {step out}

theorem exec_trace {guard : α → σ → Prop} (actions : List α) (met : ∀ a ∈ actions, ∀ s, guard a s) {s t : σ}
    (h : exec step actions s = some t) : Trace step out guard s (outputs step out actions s) t := by
  induction actions generalizing s with
  | nil => cases h; exact .refl _
  | cons a rest ih =>
    obtain ⟨u, first, later⟩ := Option.bind_eq_some_iff.mp h
    obtain ⟨here, behind⟩ := List.forall_mem_cons.mp met
    have trace : outputs step out (a :: rest) s = out a s ++ outputs step out rest u := by
      simp only [outputs, first, Option.elim_some]
    rw [trace]
    exact .head (here s) first (ih behind later)

theorem along_trace {guard : α → σ → Prop} (actions : List α) {s t : σ} (met : Along step guard actions s)
    (h : exec step actions s = some t) : Trace step out guard s (outputs step out actions s) t := by
  induction actions generalizing s with
  | nil => cases h; exact .refl _
  | cons a rest ih =>
    obtain ⟨u, first, later⟩ := Option.bind_eq_some_iff.mp h
    have trace : outputs step out (a :: rest) s = out a s ++ outputs step out rest u := by
      simp only [outputs, first, Option.elim_some]
    rw [trace]
    exact .head met.1 first (ih (met.2 u first) later)

/-- A run puts out only what has the property iff each of its steps does. -/
theorem forall_mem_outputs {holds : β → Prop} (actions : List α) (s : σ) :
    (∀ b ∈ outputs step out actions s, holds b) ↔ Along step (fun a s => ∀ b ∈ out a s, holds b) actions s := by
  induction actions generalizing s with
  | nil => simp [outputs, Along]
  | cons a rest ih =>
    simp only [outputs, Along, List.forall_mem_append]
    apply and_congr_right
    intro _
    cases next : step a s with
    | none => simp
    | some t => simp [ih]

/-- What holds of all that comes behind a state is shown from the last state on: a step
puts its output in front. -/
theorem Trace.settle {guard : α → σ → Prop} {inv : σ → Prop} {holds : σ → List β → Prop} {s t : σ} {trace : List β}
    (run : Trace step out guard s trace t) (start : inv s)
    (keep : ∀ a s t, guard a s → inv s → step a s = some t →
      inv t ∧ ∀ rest, holds t rest → holds s (out a s ++ rest))
    {rest : List β} (last : inv t → holds t rest) : holds s (trace ++ rest) := by
  induction run with
  | refl => exact last start
  | head met next _ ih =>
    obtain ⟨kept, front⟩ := keep _ _ _ met start next
    rw [List.append_assoc]
    exact front _ (ih kept last)

/-- Invariance along a run that puts nothing out. -/
theorem Trace.silent {guard : α → σ → Prop} {inv : σ → Prop} {s t : σ} (run : Trace step out guard s [] t)
    (start : inv s) (keep : ∀ a s t, guard a s → inv s → step a s = some t → out a s = [] → inv t) : inv t := by
  generalize nothing : ([] : List β) = trace at run
  induction run with
  | refl => exact start
  | head met next _ ih =>
    obtain ⟨here, behind⟩ := List.append_eq_nil_iff.mp nothing.symm
    exact ih (keep _ _ _ met start next here) behind.symm

end Traces

end Lib
