import Mathlib.Data.List.Destutter
import Mathlib.Data.Rat.Floor
import M2eBridge.Filtras.Filters
import M2eBridge.Lib.Rounding
import M2eBridge.Lib.Spacing

/-!
# Runs of a throttle

A throttle keeps one time, that of the last message it let pass, and compares the whole
milliseconds since then with its delay. `throttled` is `process_message` under any test of these
milliseconds: the test of the code compares doubles (`processMessage_eq`), `inDoubles` is this
comparison in rational numbers, with the rounding of the division, and `exactly` the one without
it. The times of the messages that pass are what is left of the times of arrival when every one
that is not due after the last one kept is dropped.
-/

namespace M2eBridge

namespace ThrottleFT

/-- What `duration_cast` makes of the time between two readings of the clock. -/
def elapsedMs (lastMsgTime now : Int) : Int := (now - lastMsgTime).tdiv 1000000

/-- `process_message` under a test of the milliseconds. -/
def throttled (due : Int → Bool) (now lastMsgTime : Int) (w : MessageWrapper) :
    Except Exn String × MessageWrapper × Int :=
  if due (elapsedMs lastMsgTime now) then (.ok "", w.pass, now) else (.ok "", w.reject, lastMsgTime)

/-- The test that the code makes. -/
theorem processMessage_eq (t : ThrottleFT) (now lastMsgTime : Int) (w : MessageWrapper) :
    t.processMessage now lastMsgTime w =
      throttled (fun ms => decide (Float.ofInt ms ≥ t.delayMs)) now lastMsgTime w := by
  unfold processMessage throttled
  by_cases late : Float.ofInt (elapsedMs lastMsgTime now) ≥ t.delayMs
  · rw [if_pos (decide_eq_true late)]
    exact if_pos late
  · rw [if_neg (mt of_decide_eq_true late)]
    exact if_neg late

/-- The test with the delay as a rational number. -/
def exactly (rate : ℚ) (ms : Int) : Bool := decide (ms ≥ 1000 / rate)

/-- Messages as they arrive, each with the reading of the clock: what a throttle makes of them. -/
def throttleAll (due : Int → Bool) (lastMsgTime : Int) :
    List (Int × MessageWrapper) → List (Int × MessageWrapper)
  | [] => []
  | (now, w) :: arrivals =>
    let (_, w, lastMsgTime) := throttled due now lastMsgTime w
    (now, w) :: throttleAll due lastMsgTime arrivals

/-- The same with `process_message` itself. -/
def processAll (t : ThrottleFT) (lastMsgTime : Int) : List (Int × MessageWrapper) → List (Int × MessageWrapper)
  | [] => []
  | (now, w) :: arrivals =>
    let (_, w, lastMsgTime) := t.processMessage now lastMsgTime w
    (now, w) :: t.processAll lastMsgTime arrivals

theorem processAll_eq (t : ThrottleFT) (lastMsgTime : Int) (arrivals : List (Int × MessageWrapper)) :
    t.processAll lastMsgTime arrivals =
      throttleAll (fun ms => decide (Float.ofInt ms ≥ t.delayMs)) lastMsgTime arrivals := by
  induction arrivals generalizing lastMsgTime with
  | nil => rfl
  | cons arrival arrivals ih =>
    obtain ⟨now, w⟩ := arrival
    simp only [processAll, throttleAll, processMessage_eq, ih]

/-- The times of the messages that pass. -/
def passedTimes (due : Int → Bool) (lastMsgTime : Int) (arrivals : List (Int × MessageWrapper)) : List Int :=
  ((throttleAll due lastMsgTime arrivals).filter fun a => a.2.isPassed).map Prod.fst

/-- A message may pass after another. -/
def DueAfter (due : Int → Bool) (lastMsgTime now : Int) : Prop := due (elapsedMs lastMsgTime now) = true

instance (due : Int → Bool) : DecidableRel (DueAfter due) := fun _ _ => inferInstanceAs (Decidable (_ = true))

variable {due : Int → Bool} {lastMsgTime : Int}

theorem throttleAll_due {now : Int} {w : MessageWrapper} {arrivals : List (Int × MessageWrapper)}
    (passes : DueAfter due lastMsgTime now) :
    throttleAll due lastMsgTime ((now, w) :: arrivals) = (now, w.pass) :: throttleAll due now arrivals := by
  have step : throttled due now lastMsgTime w = (.ok "", w.pass, now) := if_pos passes
  simp only [throttleAll, step]

theorem throttleAll_early {now : Int} {w : MessageWrapper} {arrivals : List (Int × MessageWrapper)}
    (early : ¬ DueAfter due lastMsgTime now) :
    throttleAll due lastMsgTime ((now, w) :: arrivals) = (now, w.reject) :: throttleAll due lastMsgTime arrivals := by
  have step : throttled due now lastMsgTime w = (.ok "", w.reject, lastMsgTime) := if_neg early
  simp only [throttleAll, step]

/-- What passes, with the time kept before it. -/
theorem passedTimes_eq (due : Int → Bool) (lastMsgTime : Int) (arrivals : List (Int × MessageWrapper)) :
    lastMsgTime :: passedTimes due lastMsgTime arrivals =
      (arrivals.map Prod.fst).destutter' (DueAfter due) lastMsgTime := by
  induction arrivals generalizing lastMsgTime with
  | nil => rfl
  | cons arrival arrivals ih =>
    obtain ⟨now, w⟩ := arrival
    by_cases passes : DueAfter due lastMsgTime now
    · rw [List.map_cons, List.destutter'_cons_pos _ passes, ← ih, passedTimes, throttleAll_due passes,
        List.filter_cons_of_pos (by rfl), List.map_cons]
      rfl
    · rw [List.map_cons, List.destutter'_cons_neg _ passes, ← ih, passedTimes, throttleAll_early passes,
        List.filter_cons_of_neg (by simp [MessageWrapper.reject])]
      rfl

/-- Each message that passes is due after the last one that did. -/
theorem passedTimes_isChain (due : Int → Bool) (lastMsgTime : Int) (arrivals : List (Int × MessageWrapper)) :
    (passedTimes due lastMsgTime arrivals).IsChain (DueAfter due) := by
  have chain := (arrivals.map Prod.fst).isChain_destutter' (DueAfter due) lastMsgTime
  rw [← passedTimes_eq] at chain
  exact chain.tail

/-- Every message passes when each is due after the one before it. -/
theorem all_passed_iff (due : Int → Bool) (lastMsgTime : Int) (arrivals : List (Int × MessageWrapper)) :
    (∀ a ∈ throttleAll due lastMsgTime arrivals, a.2.isPassed = true) ↔
      (lastMsgTime :: arrivals.map Prod.fst).IsChain (DueAfter due) := by
  induction arrivals generalizing lastMsgTime with
  | nil => simp [throttleAll]
  | cons arrival arrivals ih =>
    obtain ⟨now, w⟩ := arrival
    rw [List.map_cons, List.isChain_cons_cons]
    by_cases passes : DueAfter due lastMsgTime now
    · rw [throttleAll_due passes, List.forall_mem_cons, ih]
      simp only [MessageWrapper.pass, passes, true_and]
    · rw [throttleAll_early passes, List.forall_mem_cons]
      simp only [MessageWrapper.reject, passes, Bool.false_eq_true, false_and]

/-! ## The delay as a rational number -/

/-- A time in milliseconds. -/
def inMs (time : Int) : ℚ := time / 1000000

/-- The whole milliseconds reach a positive delay where the time does, rounded up to whole milliseconds. -/
theorem le_elapsedMs_iff {delay : ℚ} (pos : 0 < delay) (lastMsgTime now : Int) :
    delay ≤ elapsedMs lastMsgTime now ↔ ⌈delay⌉ * 1000000 ≤ now - lastMsgTime := by
  have ceil := Int.ceil_pos.mpr pos
  rw [← Int.ceil_le, elapsedMs]
  rcases le_or_gt 0 (now - lastMsgTime) with forward | backward
  · rw [Int.tdiv_eq_ediv_of_nonneg forward]
    omega
  · have back := Int.tdiv_le_tdiv (by decide : (0 : Int) < 1000000) (le_of_lt backward)
    rw [Int.zero_tdiv] at back
    omega

theorem dueAfter_exactly {rate : ℚ} (pos : 0 < rate) (lastMsgTime now : Int) :
    DueAfter (exactly rate) lastMsgTime now ↔ ⌈1000 / rate⌉ * 1000000 ≤ now - lastMsgTime := by
  rw [← le_elapsedMs_iff (div_pos (by decide) pos), DueAfter, exactly, decide_eq_true_eq, ge_iff_le]

/-- A message that is due comes at least the delay after the last one. -/
theorem DueAfter.gap {rate : ℚ} {now : Int} (passes : DueAfter (exactly rate) lastMsgTime now) (pos : 0 < rate) :
    1000 / rate ≤ inMs now - inMs lastMsgTime := by
  have whole : ((⌈1000 / rate⌉ * 1000000 : Int) : ℚ) ≤ (now - lastMsgTime : Int) :=
    Int.cast_le.mpr ((dueAfter_exactly pos lastMsgTime now).mp passes)
  push_cast at whole
  calc 1000 / rate ≤ ⌈1000 / rate⌉ := Int.le_ceil _
    _ ≤ (now - lastMsgTime) / 1000000 := by rw [le_div_iff₀ (by decide)]; exact whole
    _ = inMs now - inMs lastMsgTime := by rw [inMs, inMs, sub_div]

theorem passedTimes_spaced {rate : ℚ} (pos : 0 < rate) (lastMsgTime : Int) (arrivals : List (Int × MessageWrapper)) :
    Lib.Spaced (1000 / rate) ((passedTimes (exactly rate) lastMsgTime arrivals).map inMs) := by
  rw [Lib.spaced_iff_isChain (le_of_lt (div_pos (by decide) pos)), List.isChain_map]
  exact (passedTimes_isChain _ _ _).imp fun _ _ passes => passes.gap pos

/-- Any two messages that pass are the delay apart, and in `seconds` from any time on not more pass than
the rate allows, and one. -/
theorem passed_apart {rate : ℚ} (pos : 0 < rate) (lastMsgTime : Int) (arrivals : List (Int × MessageWrapper)) :
    (passedTimes (exactly rate) lastMsgTime arrivals).Pairwise (fun a b => 1000 / rate ≤ inMs b - inMs a) ∧
      ∀ begins seconds : ℚ, ((passedTimes (exactly rate) lastMsgTime arrivals).filter fun t =>
        begins ≤ inMs t / 1000 ∧ inMs t / 1000 ≤ begins + seconds).length ≤ ⌊seconds * rate⌋₊ + 1 := by
  have spaced := passedTimes_spaced pos lastMsgTime arrivals
  refine ⟨List.pairwise_map.mp spaced, fun begins seconds => ?_⟩
  have within : Lib.Spaced (1000 / rate) (((passedTimes (exactly rate) lastMsgTime arrivals).filter fun t =>
      begins ≤ inMs t / 1000 ∧ inMs t / 1000 ≤ begins + seconds).map inMs) :=
    List.Pairwise.sublist (List.filter_sublist.map inMs) spaced
  have inside : ∀ t ∈ ((passedTimes (exactly rate) lastMsgTime arrivals).filter fun t =>
      begins ≤ inMs t / 1000 ∧ inMs t / 1000 ≤ begins + seconds).map inMs,
      begins * 1000 ≤ t ∧ t ≤ begins * 1000 + seconds * 1000 := by
    intro t member
    obtain ⟨time, there, rfl⟩ := List.mem_map.mp member
    have bounds := of_decide_eq_true (List.mem_filter.mp there).2
    constructor <;> linarith [bounds.1, bounds.2]
  have count := within.length_le (div_pos (by decide) pos) inside
  have fits : seconds * 1000 / (1000 / rate) = seconds * rate := by field_simp
  rwa [List.length_map, fits] at count

/-- Five messages, of which two pass at a rate of two per second. -/
theorem passed_apart_burst :
    passedTimes (exactly 2) 0
        ([400, 500, 600, 1000, 1100].map fun ms => (ms * 1000000, MessageWrapper.ofMessage {})) = [500000000, 1000000000] ∧
      [500000000, 1000000000].Pairwise (fun a b => 1000 / 2 ≤ inMs b - inMs a) := by
  have times : passedTimes (exactly 2) 0
      ([400, 500, 600, 1000, 1100].map fun ms => (ms * 1000000, MessageWrapper.ofMessage {})) =
        [500000000, 1000000000] := by decide +kernel
  exact ⟨times, times ▸ (passed_apart (by decide) 0 _).1⟩

/-! ## A sender that keeps to the rate -/

/-- `1000/rate_`, the nearest double. -/
def delayOf (rate : ℚ) : ℚ := Lib.roundTo 53 (1000 / rate)

/-- The test of the code. What the clock can tell in milliseconds is far below 2^53, so that it is a double
as it is, and far below a delay that is no double any more but infinite. -/
def inDoubles (rate : ℚ) (ms : Int) : Bool := decide (ms ≥ delayOf rate)

theorem delayOf_pos {rate : ℚ} (pos : 0 < rate) : 0 < delayOf rate :=
  Lib.roundTo_pos (by decide) (div_pos (by decide) pos)

theorem dueAfter_inDoubles {rate : ℚ} (pos : 0 < rate) (lastMsgTime now : Int) :
    DueAfter (inDoubles rate) lastMsgTime now ↔ ⌈delayOf rate⌉ * 1000000 ≤ now - lastMsgTime := by
  rw [← le_elapsedMs_iff (delayOf_pos pos), DueAfter, inDoubles, decide_eq_true_eq, ge_iff_le]

/-- Every message passes exactly when every gap, and the first reading of the clock, is one that the code's
comparison lets pass; and that is one as long as the double `1000/rate_` rounded up to whole milliseconds. -/
theorem passes_all_iff {rate : ℚ} (pos : 0 < rate) (t : ThrottleFT) (arrivals : List (Int × MessageWrapper)) :
    ((∀ a ∈ t.processAll 0 arrivals, a.2.isPassed = true) ↔
      (0 :: arrivals.map Prod.fst).IsChain fun before now => Float.ofInt (elapsedMs before now) ≥ t.delayMs) ∧
    ((∀ a ∈ throttleAll (inDoubles rate) 0 arrivals, a.2.isPassed = true) ↔
      (0 :: arrivals.map Prod.fst).IsChain fun before now => ⌈delayOf rate⌉ * 1000000 ≤ now - before) := by
  constructor
  · rw [processAll_eq, all_passed_iff]
    have same : DueAfter (fun ms => decide (Float.ofInt ms ≥ t.delayMs)) =
        fun before now => Float.ofInt (elapsedMs before now) ≥ t.delayMs := by
      funext before now
      exact propext decide_eq_true_iff
    rw [same]
  · rw [all_passed_iff]
    have same : DueAfter (inDoubles rate) = fun before now => ⌈delayOf rate⌉ * 1000000 ≤ now - before := by
      funext before now
      exact propext (dueAfter_inDoubles pos before now)
    rw [same]

/-- A message 334 ms behind the epoch, and one as long behind it, at three per second. -/
theorem passes_all_three :
    ((∀ a ∈ ({ rate := 3 } : ThrottleFT).processAll 0 (([334, 668] : List Int).map fun ms => (ms * 1000000, .ofMessage {})),
        a.2.isPassed = true) ↔
      [0, 334000000, 668000000].IsChain fun before now =>
        Float.ofInt (elapsedMs before now) ≥ ({ rate := 3 } : ThrottleFT).delayMs) ∧
    ((∀ a ∈ throttleAll (inDoubles 3) 0 (([334, 668] : List Int).map fun ms => (ms * 1000000, .ofMessage {})),
        a.2.isPassed = true) ↔
      [0, 334000000, 668000000].IsChain fun before now => ⌈delayOf 3⌉ * 1000000 ≤ now - before) :=
  passes_all_iff (by decide) { rate := 3 } (([334, 668] : List Int).map fun ms => (ms * 1000000, .ofMessage {}))

/-- The delay at three messages per second, the double next to 1000/3, is above 333 ms. -/
theorem delayOf_three : 333 < delayOf 3 := by
  have near := (abs_le.mp (Lib.roundTo_near 53 (by norm_num : (0 : ℚ) < 1000 / 3))).2
  rw [← delayOf] at near
  linarith

/-- Three messages per second, the first 333.4 ms after the epoch. -/
theorem throttled_in_time : ¬ ∀ rate : ℚ, 0 < rate → ∀ arrivals : List (Int × MessageWrapper),
    ((0 :: arrivals.map Prod.fst).IsChain fun before now => 1000 / rate ≤ inMs now - inMs before) →
      ∀ a ∈ throttleAll (inDoubles rate) 0 arrivals, a.2.isPassed = true := by
  intro never
  have passes := never 3 (by decide) [(333400000, .ofMessage {})] (by simp [inMs]; norm_num)
  have early : ¬ DueAfter (inDoubles 3) 0 333400000 := by
    have whole : elapsedMs 0 333400000 = 333 := by decide
    have above := delayOf_three
    rw [DueAfter, inDoubles, decide_eq_true_eq, ge_iff_le, whole, not_le]
    exact_mod_cast above
  rw [throttleAll_early early, List.forall_mem_cons] at passes
  exact Bool.false_ne_true passes.1

/-- Where the delay is a whole number of milliseconds, a sender that keeps to the rate is never throttled. -/
theorem passes_all_whole {rate : ℚ} (pos : 0 < rate) {delay : ℕ} (whole : 1000 / rate = delay) (fits : delay < 2 ^ 53)
    {arrivals : List (Int × MessageWrapper)}
    (keeps : (0 :: arrivals.map Prod.fst).IsChain fun before now => 1000 / rate ≤ inMs now - inMs before) :
    ∀ a ∈ throttleAll (inDoubles rate) 0 arrivals, a.2.isPassed = true := by
  rw [all_passed_iff]
  refine keeps.imp fun before now gap => ?_
  have some_ : 0 < delay := by
    have positive : (0 : ℚ) < delay := whole ▸ div_pos (by decide) pos
    exact_mod_cast positive
  rw [dueAfter_inDoubles pos, delayOf, whole, Lib.roundTo_natCast some_ fits, Int.ceil_natCast]
  rw [whole, inMs, inMs, ← sub_div, le_div_iff₀ (by decide)] at gap
  exact_mod_cast gap

end ThrottleFT

end M2eBridge
