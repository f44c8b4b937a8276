import M2eBridge.Pipeline.Acts
import M2eBridge.Pipeline.Order

/-!
# Scheduled events

`process()` is meant to send the first message that a filtra generates through the rest of the chain.
The loop that looks for it declares a `msg` of its own, so behind the loop the outer one is still empty,
and what a filtra generates is dropped, whatever the chain (`returns_event`). `process(msg, filtra_ix)`
does not return before it has given its message to a filtra or pushed it (`returns_walk`).
-/

namespace M2eBridge

open Process (Act Frame Walk)

namespace Pipeline

variable {ω : Type} {chain : List (Filtra ω)}

/-- From the index on the filtra at `i` is the first that generates a valid message, and leaves `behind`. -/
inductive FirstGenerates (chain : List (Filtra ω)) (i : Nat) (msg : Message) (behind : ω) : Nat → ω → Prop where
  | here {filtra : Filtra ω} {world : ω} (found : chain[i]? = some filtra)
      (generated : filtra.generateMessage world = (.ok msg, behind)) (valid : msg.isValid = true) :
      FirstGenerates chain i msg behind i world
  | later {ix : Nat} {filtra : Filtra ω} {other : Message} {world world' : ω} (found : chain[ix]? = some filtra)
      (generated : filtra.generateMessage world = (.ok other, world')) (invalid : other.isValid = false)
      (first : FirstGenerates chain i msg behind (ix + 1) world') : FirstGenerates chain i msg behind ix world

/-- The processing thread is in `process()` or in `process(msg, filtra_ix)`. -/
def InCall (s : Pipeline ω) : Prop :=
  (∃ ix, s.processing.thread = some (.event ix)) ∨ ∃ frames, s.processing.thread = some (.walk frames)

/-- The call that the thread is in can return with these acts, the other threads going on meanwhile. -/
def Returns (chain : List (Filtra ω)) (s : Pipeline ω) (acts : List Act) : Prop :=
  ∃ t, Acted chain (fun _ s => s.InCall) s acts t ∧ ¬ t.InCall

/-- The processing thread at the call `process(msg, filtra_ix)`. -/
def arriving (s : Pipeline ω) (world : ω) (source : Nat) (msg : Message) (filtraIx : Nat) : Pipeline ω :=
  { s with world }.processingAt (.walk [.begin source msg filtraIx])

/-- Behind its generation at `i` the message is treated as one that arrives at the next filtra. -/
def TreatsAlike (chain : List (Filtra ω)) (s : Pipeline ω) (i : Nat) (msg : Message) (behind : ω) (source : Nat) : Prop :=
  ∀ acts, Returns chain s (.emit i msg :: acts) ↔ Returns chain (s.arriving behind source msg (i + 1)) acts

theorem Returns.now {s : Pipeline ω} (outside : ¬ s.InCall) : Returns chain s [] := ⟨s, .refl s, outside⟩

theorem Returns.step {a : Action} {s t : Pipeline ω} {later : List Act} (inside : s.InCall)
    (next : Pipeline.step chain a s = some t) (returns : Returns chain t later) :
    Returns chain s (acts chain a s ++ later) := by
  obtain ⟨u, run, outside⟩ := returns
  exact ⟨u, .head inside next run, outside⟩

/-- A call of `process()` returns behind the first message that is generated. -/
theorem returns_event {i : Nat} {msg : Message} {behind : ω} {ix : Nat} {world : ω}
    (first : FirstGenerates chain i msg behind ix world) :
    ∀ s : Pipeline ω, s.processing.thread = some (.event ix) → s.world = world → Returns chain s [.emit i msg] := by
  induction first with
  | here found generated valid =>
    rintro s here rfl
    have emits : acts chain (.processing fun _ => {}) s = [.emit i msg] := by
      simp only [acts, processingActs, here, found, Process.generated, generated, valid, if_true]
    have next : Pipeline.step chain (.processing fun _ => {}) s =
        some ({ s with world := behind }.processingAt .events) := by
      simp only [Pipeline.step, here, Option.bind_some, runProcessing, found, generated, valid, if_true]
    have ended : ¬ ({ s with world := behind }.processingAt .events).InCall := by
      rintro (⟨_, there⟩ | ⟨_, there⟩) <;> cases there
    have returns := (Returns.now ended).step (.inl ⟨i, here⟩) next
    rwa [emits] at returns
  | @later ix filtra other world world' found generated invalid _ ih =>
    rintro s here rfl
    have silent : acts chain (.processing fun _ => {}) s = [] := by
      simp only [acts, processingActs, here, found, Process.generated, generated, invalid, Bool.false_eq_true, if_false]
    have next : Pipeline.step chain (.processing fun _ => {}) s =
        some ({ s with world := world' }.processingAt (.event (ix + 1))) := by
      simp only [Pipeline.step, here, Option.bind_some, runProcessing, found, generated, invalid, Bool.false_eq_true,
        if_false]
    have returns := (ih ({ s with world := world' }.processingAt (.event (ix + 1))) rfl rfl).step (.inl ⟨ix, here⟩) next
    rwa [silent] at returns

/-- The other threads leave the processing thread where it is, unless it waits or has returned. -/
theorem processing_kept {a : Action} {s t : Pipeline ω} (other : ∀ queues, a ≠ .processing queues)
    (h : Pipeline.step chain a s = some t) {pc : ProcessingPc} (here : s.processing.thread = some pc)
    (awake : pc ≠ .blocked) (going : pc ≠ .done) : t.processing.thread = some pc := by
  have notified : s.notify = s := by
    unfold notify
    split
    case h_1 blocked => exact absurd (Option.some.inj (here.symm.trans blocked)) awake
    case h_2 => rfl
  cases a with
  | processing queues => exact absurd rfl (other queues)
  | execute cmd =>
    simp only [Pipeline.step] at h
    split at h
    · split at h <;> cases h <;> exact here
    · cases h
  | control call =>
    cases todo : s.control with
    | nil => simp only [Pipeline.step, todo] at h; cases h
    | cons i rest =>
      simp only [Pipeline.step, todo] at h
      have threads := (runControl_step h).threads
      cases threads with
      | startProcessing free => cases here.symm.trans free
      | joinProcessing ended => exact absurd (Option.some.inj (here.symm.trans ended)) going
      | notify _ processing => rw [processing, notified]; exact here
      | startReceiving _ _ processing | startSending _ _ _ processing | joinReceiving _ _ processing
      | joinSending _ _ _ processing | none _ _ processing => rw [processing]; exact here
  | receiving call =>
    obtain ⟨pc', _, next⟩ := Option.bind_eq_some_iff.mp h
    rcases (runReceiving_step next).processing with same | woken
    · rw [same]; exact here
    · rw [woken, notified]; exact here
  | sending call =>
    obtain ⟨pc', _, next⟩ := Option.bind_eq_some_iff.mp h
    rw [(runSending_step next).processing]
    exact here
  | timerPush =>
    simp only [Pipeline.step] at h
    split at h <;> cases h <;> exact here
  | timerNotify =>
    simp only [Pipeline.step, notified] at h
    split at h <;> cases h
    exact here
  | wakeup =>
    simp only [Pipeline.step, notified] at h
    cases h
    exact here

/-- A call of `process(msg, filtra_ix)` that has done nothing yet. -/
def Untouched (chain : List (Filtra ω)) (s : Pipeline ω) : Prop :=
  ∃ f, s.processing.thread = some (.walk [f]) ∧
    (f.pc = .test ∧ f.msgW.isPassed = true ∨ f.pc = .finish ∧ f.msgW.isPassed = true ∨
      f.pc = .call ∧ ∃ filtra, chain[f.filtraIx]? = some filtra)

/-- The loop test leads into a filtra, or behind the loop. -/
theorem test_place (env : Process.Env) {f : Frame} (passed : f.msgW.isPassed = true) :
    (f.test chain env).pc = .finish ∧ (f.test chain env).msgW.isPassed = true ∨
      (f.test chain env).pc = .call ∧ ∃ filtra, chain[(f.test chain env).filtraIx]? = some filtra := by
  unfold Frame.test
  split
  case isTrue inside =>
    rw [List.getElem?_eq_getElem inside.1]
    exact .inr ⟨rfl, _, List.getElem?_eq_getElem inside.1⟩
  case isFalse => exact .inl ⟨rfl, passed⟩

/-- The loop test is passed without an act, and whatever comes behind it is one. -/
theorem Untouched.step {a : Action} {s t : Pipeline ω} (untouched : Untouched chain s)
    (h : Pipeline.step chain a s = some t) (silent : acts chain a s = []) : Untouched chain t := by
  obtain ⟨f, here, place⟩ := untouched
  by_cases processing : ∃ queues, a = .processing queues
  case neg =>
    have other : ∀ queues, a ≠ .processing queues := fun queues same => processing ⟨queues, same⟩
    exact ⟨f, processing_kept other h here (by simp) (by simp), place⟩
  case pos =>
    obtain ⟨queues, rfl⟩ := processing
    have silent : f.acts chain s.world = [] := by simpa only [acts, processingActs, here] using silent
    rcases place with ⟨pc, passed⟩ | ⟨pc, passed⟩ | ⟨pc, filtra, found⟩
    · have tested : (s.walkOf [f]).step chain (s.env queues) =
          { s.walkOf [f] with frames := [f.test chain (s.env queues)] } := by
        rw [Walk.step_cons chain rfl]
        simp only [Process.turn, pc]
        rfl
      simp only [Pipeline.step, here, Option.bind_some, runProcessing, tested] at h
      cases h
      exact ⟨_, rfl, .inr (test_place (s.env queues) passed)⟩
    · simp [Frame.acts, pc, passed] at silent
    · simp [Frame.acts, pc, found] at silent

/-- A call of `process(msg, filtra_ix)` does not return without an act. -/
theorem returns_walk (s : Pipeline ω) (world : ω) (source : Nat) (msg : Message) (filtraIx : Nat) :
    ¬ Returns chain (s.arriving world source msg filtraIx) [] := by
  rintro ⟨t, run, outside⟩
  have start : Untouched chain (s.arriving world source msg filtraIx) := ⟨_, rfl, .inl ⟨rfl, rfl⟩⟩
  obtain ⟨f, there, -⟩ := run.silent start fun a s t _ untouched h silent => untouched.step h silent
  exact outside (.inr ⟨_, there⟩)

/-- A message that is generated on an event is never treated so. -/
theorem generated_not_processed (chain : List (Filtra ω)) (s : Pipeline ω) (i : Nat) (msg : Message) (behind : ω)
    (source : Nat) (event : s.processing.thread = some (.event 0))
    (first : FirstGenerates chain i msg behind 0 s.world) : ¬ TreatsAlike chain s i msg behind source := by
  intro alike
  exact returns_walk s behind source msg (i + 1) ((alike []).mp (returns_event first s event rfl))

/-- A filtra that generates a byte on every event. -/
def ticking : Filtra Unit where
  config := .object [("type", .string "ticking")]
  base := { name := "", msgFormat := .raw, logicalNegation := false, queueIds := [], metadata := .null, hops := ("", "") }
  built := rfl
  processMessage := fun world w => (.ok "", w.pass, world)
  generateMessage := fun world => (.ok (.ofString [0x61] .raw), world)
  keepsOrig := fun _ _ => rfl
  keepsMetadata := fun _ _ => rfl

/-- An event timer fires, and the processing thread takes the event. -/
def eventTaken : Pipeline Unit :=
  (Lib.exec (step [.plain, ticking]) (startUp ++ .timerPush :: List.replicate 3 (.processing fun _ => {}))
    (prepared ())).getD (prepared ())

theorem ticking_generates : FirstGenerates [.plain, ticking] 1 (.ofString [0x61] .raw) () 0 eventTaken.world :=
  .later rfl rfl rfl (.here rfl rfl rfl)

theorem generated_not_processed_byte : ¬ TreatsAlike [.plain, ticking] eventTaken 1 (.ofString [0x61] .raw) () 0 :=
  generated_not_processed [.plain, ticking] eventTaken 1 (.ofString [0x61] .raw) () 0 rfl ticking_generates

/-- The byte is generated at the end of the chain, and is not pushed. -/
theorem tick_not_pushed :
    ¬ ∀ (chain : List (Filtra Unit)) (s : Pipeline Unit) (i : Nat) (msg : Message) (source : Nat),
      s.processing.thread = some (.event 0) → FirstGenerates chain i msg () 0 s.world →
      TreatsAlike chain s i msg () source := by
  intro all
  have alike := all [.plain, ticking] eventTaken 1 (.ofString [0x61] .raw) 0 rfl ticking_generates
  exact returns_walk eventTaken () 0 _ 2 ((alike []).mp (returns_event ticking_generates eventTaken rfl rfl))

end Pipeline

end M2eBridge
