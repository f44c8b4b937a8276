import M2eBridge.Pipeline.Handle
import M2eBridge.Pipeline.Delivery
import M2eBridge.InternalTraffic

/-!
# The stream of a subscriber

What a pipeline has received from its internal queue, followed by what waits for it in its
buffer. Only a push puts something behind the stream; a subscription and its end drop what
waits, and every other step of every thread, of the other subscribers, of whoever stops and
starts the pipeline, leaves the stream as it is (`stream_step`).
-/

namespace M2eBridge

namespace InternalQueue

variable {α : Type}

/-- What waits in the buffer behind a handle. -/
def waitingFor (iq : InternalQueue α) (rq : RQueue) : List α := ((iq.buffer? rq).map fun b => b.2.queue).getD []

/-- Of a handle whose key is none of the queue nothing waits. -/
theorem waitingFor_of_find {iq : InternalQueue α} {rq : RQueue} {id : Nat} (own : rq.queue = some id) :
    iq.waitingFor rq = ((iq.buffers.find? fun b => b.1 = id).map fun b => b.2.queue).getD [] := by
  simp only [waitingFor, buffer?, own, Option.bind_some]

theorem waitingFor_null {iq : InternalQueue α} {rq : RQueue} (null : rq.queue = none) : iq.waitingFor rq = [] := by
  simp only [waitingFor, buffer?, null, Option.bind_none, Option.map_none, Option.getD_none]

/-- A push leaves what waits, or puts its message behind it. -/
theorem waitingFor_push (iq : InternalQueue α) (msg : α) (rq : RQueue) :
    (iq.push msg).2.waitingFor rq = iq.waitingFor rq ∨ (iq.push msg).2.waitingFor rq = iq.waitingFor rq ++ [msg] := by
  cases own : rq.queue with
  | none => exact .inl (by rw [waitingFor_null own, waitingFor_null own])
  | some id =>
    rw [waitingFor_of_find own, waitingFor_of_find own, push_buffers]
    rcases Lib.stopLoop_find? pushBuffer_key id iq.buffers with same | ⟨a, b, found, pushed, behind⟩
    · exact .inl (by rw [same])
    · refine .inr ?_
      by_cases room : a.2.HasRoom
      · rw [pushBuffer_of_room room] at pushed
        cases pushed
        simp [found, behind]
      · rw [pushBuffer_of_full room] at pushed
        cases pushed

/-- With room everywhere, it puts it there. -/
theorem waitingFor_push_of_room {iq : InternalQueue α} (room : ¬ iq.SomeFull) (msg : α) {rq : RQueue} (live : rq.LiveIn iq) :
    (iq.push msg).2.waitingFor rq = iq.waitingFor rq ++ [msg] := by
  obtain ⟨id, own, member⟩ := live
  have room : ∀ b ∈ iq.buffers, b.2.HasRoom := fun b inside => not_not.mp fun full => room ⟨b, inside, full⟩
  have finished : (Lib.stopLoop (pushBuffer msg) iq.buffers).2 = true :=
    Lib.stopLoop_finished.mpr fun b inside => by rw [pushBuffer_of_room (room b inside)]; rfl
  obtain ⟨b, inside, key⟩ := List.mem_map.mp member
  obtain ⟨c, found⟩ := Option.isSome_iff_exists.mp
    (List.find?_isSome.mpr ⟨b, inside, decide_eq_true key⟩ : (iq.buffers.find? fun b => b.1 = id).isSome)
  rw [waitingFor_of_find own, waitingFor_of_find own, push_buffers,
    Lib.stopLoop_find?_finished pushBuffer_key id finished, found, Option.bind_some,
    pushBuffer_of_room (room c (List.mem_of_find?_eq_some found))]
  rfl

theorem waitingFor_setBuffer {iq : InternalQueue α} {id : Nat} {old : TSQueue α}
    (found : iq.buffers.find? (fun b => b.1 = id) = some (id, old)) (buffer : TSQueue α) (rq : RQueue) :
    (iq.setBuffer id buffer).waitingFor rq = if rq.queue = some id then buffer.queue else iq.waitingFor rq := by
  cases own : rq.queue with
  | none => rw [waitingFor_null own, waitingFor_null own, if_neg (by simp)]
  | some key =>
    have keeps : ((fun b : Nat × TSQueue α => decide (b.1 = key)) ∘ fun b => if b.1 = id then (b.1, buffer) else b) =
        fun b => decide (b.1 = key) := by
      funext b
      by_cases same : b.1 = id <;> simp [same]
    rw [waitingFor_of_find own, waitingFor_of_find own, setBuffer, List.find?_map, keeps]
    by_cases same : key = id
    · subst same
      simp [found]
    · rw [if_neg (by simpa using same)]
      cases there : iq.buffers.find? (fun b => b.1 = key) with
      | none => rfl
      | some b =>
        have own : b.1 = key := by simpa using List.find?_some there
        simp [own, same]

theorem waitingFor_unsubscribe (iq : InternalQueue α) (rq rq' : RQueue) :
    (iq.unsubscribe rq').waitingFor rq = if rq.queue = some rq'.id then [] else iq.waitingFor rq := by
  cases own : rq.queue with
  | none => rw [waitingFor_null own, waitingFor_null own, if_neg (by simp)]
  | some key =>
    rw [waitingFor_of_find own, waitingFor_of_find own, unsubscribe, List.find?_filter]
    by_cases same : key = rq'.id
    · have none' : iq.buffers.find? (fun b => decide (decide (b.1 ≠ rq'.id) = true ∧ decide (b.1 = key) = true)) = none :=
        List.find?_eq_none.mpr fun b _ => by simp [same]
      rw [if_pos (by rw [same]), none']
      rfl
    · have keeps : (fun b : Nat × TSQueue α => decide (decide (b.1 ≠ rq'.id) = true ∧ decide (b.1 = key) = true)) =
          fun b => decide (b.1 = key) := by
        funext b
        by_cases here : b.1 = key <;> simp [here, same]
      rw [if_neg (by simpa using same), keeps]

/-- The new buffer is empty, and the other ones stay. -/
theorem waitingFor_subscribe {iq iq' : InternalQueue α} {size : Nat} {rq' : RQueue}
    (subscribed : iq.subscribe size = .ok (rq', iq')) (rq : RQueue) :
    iq'.waitingFor rq = if rq.queue = some (iq.maxTakenKey + 1) then [] else iq.waitingFor rq := by
  obtain ⟨-, -, buffers⟩ := subscribe_cases subscribed
  cases own : rq.queue with
  | none => rw [waitingFor_null own, waitingFor_null own, if_neg (by simp)]
  | some key =>
    rw [waitingFor_of_find own, waitingFor_of_find own, buffers]
    by_cases same : key = iq.maxTakenKey + 1
    · simp [same]
    · have other : iq.maxTakenKey + 1 ≠ key := fun here => same here.symm
      simp [other, same]

/-- There is one buffer behind a handle. -/
theorem buffer?_found {iq : InternalQueue α} {rq : RQueue} {id : Nat} {buffer : TSQueue α}
    (found : iq.buffer? rq = some (id, buffer)) :
    rq.queue = some id ∧ iq.buffers.find? (fun b => b.1 = id) = some (id, buffer) := by
  cases own : rq.queue with
  | none => simp [buffer?, own] at found
  | some key =>
    simp only [buffer?, own, Option.bind_some] at found
    have same : id = key := by simpa using List.find?_some found
    subst same
    exact ⟨rfl, found⟩

/-- A pop takes the first message that waits for its handle. -/
theorem waitingFor_popFrom {iq iq' : InternalQueue α} {rq : RQueue} {value : α}
    (popped : iq.popFrom rq = some (.ok (value, iq'))) :
    iq.waitingFor rq = value :: iq'.waitingFor rq ∧
      ∀ rq', rq'.queue ≠ rq.queue → iq'.waitingFor rq' = iq.waitingFor rq' := by
  simp only [popFrom] at popped
  split at popped
  · cases popped
  case h_2 id buffer there =>
    obtain ⟨own, found⟩ := buffer?_found there
    split at popped <;> cases popped
    case h_3 rest taken =>
      refine ⟨?_, fun rq' other => ?_⟩
      · rw [waitingFor_setBuffer found, if_pos own, waitingFor, there]
        exact TSQueue.pop_ok taken
      · rw [waitingFor_setBuffer found, if_neg (by rwa [own] at other)]

/-- `exit_blocking_calls` takes nothing. -/
theorem waitingFor_exitBlockingCalls {iq iq' : InternalQueue α} {rq : RQueue} (released : iq.exitBlockingCalls rq = some iq')
    (rq' : RQueue) : iq'.waitingFor rq' = iq.waitingFor rq' := by
  obtain ⟨⟨id, buffer⟩, there, rfl⟩ := Option.map_eq_some_iff.mp released
  obtain ⟨own, found⟩ := buffer?_found there
  rw [waitingFor_setBuffer found]
  split
  case isTrue same => rw [waitingFor_of_find same, found]; rfl
  case isFalse => rfl

end InternalQueue

namespace Pipeline

variable {ω : Type}

theorem Moves.received {chain : List (Filtra ω)} {env : Option Process.Env} {c d : Cargo} (moves : Moves chain env c d)
    (hand : d.receivingHand = c.receivingHand) : d.received = c.received := by
  cases moves with
  | receive _ msg empty =>
    rw [empty] at hand
    cases hand
  | still | accept | lose | take | walk | pop | send => rfl

/-- Only the receiving thread receives. -/
theorem received_kept {chain : List (Filtra ω)} {a : Action} {s t : Pipeline ω} (receiving : ∀ call, a ≠ .receiving call)
    (h : step chain a s = some t) : t.received = s.received := by
  by_cases control : ∃ call, a = .control call
  · obtain ⟨call, rfl⟩ := control
    exact congrArg Cargo.received (runControl_cargo h)
  · have kept : t.receiving = s.receiving := receiving_kept (fun call same => control ⟨call, same⟩) receiving h
    obtain ⟨env, moves, -⟩ := step_moves h
    exact moves.received (by simp only [cargo, kept])

/-- It receives at one place. -/
theorem received_receiving {chain : List (Filtra ω)} {call : Except Exn Message} {s t : Pipeline ω}
    (h : step chain (.receiving call) s = some t) :
    (∀ msg, s.receiving.thread = some .receive → call = .ok msg → t.received = s.received ++ [msg]) ∧
      ((s.receiving.thread = some .receive → ∀ msg, call ≠ .ok msg) → t.received = s.received) := by
  have caught (e : Exn) : (s.receivingCaught e).received = s.received := by
    unfold receivingCaught
    split <;> rfl
  obtain ⟨pc, here, h⟩ := Option.bind_eq_some_iff.mp h
  have elsewhere (apart : pc ≠ .receive) (same : t.received = s.received) :
      (∀ msg, s.receiving.thread = some .receive → call = .ok msg → t.received = s.received ++ [msg]) ∧
        ((s.receiving.thread = some .receive → ∀ msg, call ≠ .ok msg) → t.received = s.received) :=
    ⟨fun msg there => absurd (Option.some.inj (here.symm.trans there)) apart, fun _ => same⟩
  cases pc with
  | receive =>
    cases call with
    | error e => cases h; exact ⟨nofun, fun _ => caught e⟩
    | ok msg =>
      cases h
      refine ⟨fun msg' _ same => ?_, fun none' => absurd rfl (none' here msg)⟩
      cases same
      rfl
  | push m =>
    refine elsewhere (by simp) ?_
    simp only [runReceiving] at h
    split at h <;> cases h
    · rfl
    · exact caught _
  | connect | disconnect => cases call <;> cases h <;> exact elsewhere (by simp) rfl
  | connected => simp only [runReceiving] at h; split at h <;> cases h <;> exact elsewhere (by simp) rfl
  | notify => cases h; exact elsewhere (by simp) (congrArg Cargo.received (cargo_notify s))
  | begin | loop | finish => cases h; exact elsewhere (by simp) rfl
  | done => cases h

end Pipeline

namespace InternalPipeline

open InternalConnector (doReceive)

variable {ω : Type} {chain : List (Filtra ω)}

/-- What was received, and behind it what waits to be. -/
def stream (s : InternalPipeline ω) : List Message :=
  s.pipeline.received ++ (s.queue.waitingFor s.incoming).map doReceive

/-- What a step pushes to the queue. -/
def pushed : Action → List Message
  | .push msg => [msg]
  | _ => []

/-- What a step does to the stream. -/
inductive Streams (a : Action) (s t : InternalPipeline ω) : Prop where
  | goesOn (stream : t.stream = s.stream ++ (pushed a).map doReceive) (connected : t.connected = s.connected)
  /-- The receiving thread subscribes or unsubscribes, and what waited is dropped. -/
  | drops (receives : a = .receiving)
      (place : s.pipeline.receiving.thread = some .connect ∨ s.pipeline.receiving.thread = some .disconnect)
      (stream : t.stream = s.pipeline.received)
  /-- A push does not come to the buffer. -/
  | misses (msg : Message) (pushes : a = .push msg) (reason : s.queue.SomeFull ∨ s.connected = false)
      (stream : t.stream = s.stream) (connected : t.connected = s.connected)

theorem Streams.kept {a : Action} {s t : InternalPipeline ω} (silent : pushed a = [])
    (received : t.pipeline.received = s.pipeline.received)
    (waiting : t.queue.waitingFor t.incoming = s.queue.waitingFor s.incoming) (connected : t.connected = s.connected) :
    Streams a s t := by
  refine .goesOn ?_ connected
  rw [silent, stream, stream, received, waiting, List.map_nil, List.append_nil]

theorem streams_control {s t : InternalPipeline ω} {call : Except Exn Unit} (h : s.runControl chain call = some t) :
    Streams (.control call) s t := by
  unfold InternalPipeline.runControl at h
  split at h
  · split at h
    · cases h
    case h_2 queue released =>
      obtain ⟨pipeline, moved, rfl⟩ := Option.map_eq_some_iff.mp h
      exact .kept rfl (Pipeline.received_kept (by simp) moved) (InternalQueue.waitingFor_exitBlockingCalls released _) rfl
  · obtain ⟨pipeline, moved, rfl⟩ := Option.map_eq_some_iff.mp h
    exact .kept rfl (Pipeline.received_kept (by simp) moved) rfl rfl

theorem streams_receiving {s t : InternalPipeline ω} (tracks : Tracks s) (h : s.runReceiving chain = some t) :
    Streams .receiving s t := by
  have still {result : Except Exn Message} {pipeline : Pipeline ω}
      (moved : s.pipeline.step chain (.receiving result) = some pipeline)
      (elsewhere : s.pipeline.receiving.thread = some .receive → ∀ msg, result ≠ .ok msg) :
      pipeline.received = s.pipeline.received := (Pipeline.received_receiving moved).2 elsewhere
  unfold InternalPipeline.runReceiving at h
  split at h
  case h_1 here =>
    have elsewhere : s.pipeline.receiving.thread ≠ some .receive := by simp [here]
    split at h
    case h_1 incoming queue subscribed =>
      obtain ⟨pipeline, moved, rfl⟩ := Option.map_eq_some_iff.mp h
      obtain ⟨rfl, -⟩ := InternalQueue.subscribe_ok subscribed
      refine .drops rfl (.inl here) ?_
      rw [stream, InternalQueue.waitingFor_subscribe subscribed, if_pos rfl,
        still moved fun there => absurd there elsewhere, List.map_nil, List.append_nil]
    case h_2 e _ =>
      obtain ⟨pipeline, moved, rfl⟩ := Option.map_eq_some_iff.mp h
      exact .kept rfl (still moved (by simp)) rfl rfl
  case h_2 here =>
    split at h
    · cases h
    case h_2 msg queue popped =>
      obtain ⟨pipeline, moved, rfl⟩ := Option.map_eq_some_iff.mp h
      obtain ⟨waited, -⟩ := InternalQueue.waitingFor_popFrom popped
      have received := (Pipeline.received_receiving moved).1 _ here rfl
      refine .goesOn ?_ rfl
      simp only [stream, received, waited, pushed, List.map_cons, List.map_nil, List.append_nil, List.append_assoc,
        List.singleton_append]
    case h_3 e _ =>
      obtain ⟨pipeline, moved, rfl⟩ := Option.map_eq_some_iff.mp h
      exact .kept rfl (still moved (by simp)) rfl rfl
  case h_3 here =>
    obtain ⟨pipeline, moved, rfl⟩ := Option.map_eq_some_iff.mp h
    have elsewhere : s.pipeline.receiving.thread ≠ some .receive := by simp [here]
    have gone : (s.queue.unsubscribe s.incoming).waitingFor s.incoming = [] := by
      cases own : s.incoming.queue with
      | none => exact InternalQueue.waitingFor_null own
      | some id => rw [InternalQueue.waitingFor_unsubscribe, if_pos (by rw [own, (tracks.own id own).1])]
    refine .drops rfl (.inr here) ?_
    rw [stream, still moved fun there => absurd there elsewhere, gone, List.map_nil, List.append_nil]
  case h_4 elsewhere receives disconnects =>
    obtain ⟨pipeline, moved, rfl⟩ := Option.map_eq_some_iff.mp h
    exact .kept rfl (still moved fun there => absurd there receives) rfl rfl

/-- The handles that were given out point to their own buffers. -/
structure Apart (s : InternalPipeline ω) : Prop where
  tracks : Tracks s
  handles : ∀ rq ∈ s.others, rq.queue = some rq.id

theorem Apart.prepared (world : ω) (bufferSize : Nat) : Apart (prepared world bufferSize) :=
  ⟨.prepared world bufferSize, fun _ member => by cases member⟩

theorem others_step {a : Action} {s t : InternalPipeline ω} (h : step chain a s = some t) :
    t.others = s.others ∨ ∃ id, t.others = ⟨id, some id⟩ :: s.others := by
  cases a with
  | control call =>
    simp only [step, InternalPipeline.runControl] at h
    split at h
    · split at h
      · cases h
      · obtain ⟨pipeline, -, rfl⟩ := Option.map_eq_some_iff.mp h
        exact .inl rfl
    · obtain ⟨pipeline, -, rfl⟩ := Option.map_eq_some_iff.mp h
      exact .inl rfl
  | receiving =>
    simp only [step, InternalPipeline.runReceiving] at h
    split at h
    · split at h <;> obtain ⟨pipeline, -, rfl⟩ := Option.map_eq_some_iff.mp h <;> exact .inl rfl
    · split at h
      · cases h
      · obtain ⟨pipeline, -, rfl⟩ := Option.map_eq_some_iff.mp h
        exact .inl rfl
      · obtain ⟨pipeline, -, rfl⟩ := Option.map_eq_some_iff.mp h
        exact .inl rfl
    · obtain ⟨pipeline, -, rfl⟩ := Option.map_eq_some_iff.mp h
      exact .inl rfl
    · obtain ⟨pipeline, -, rfl⟩ := Option.map_eq_some_iff.mp h
      exact .inl rfl
  | thread a =>
    cases a with
    | control call => cases h
    | receiving call => cases h
    | _ =>
      simp only [step] at h
      obtain ⟨pipeline, -, rfl⟩ := Option.map_eq_some_iff.mp h
      exact .inl rfl
  | subscribe size =>
    simp only [step] at h
    split at h <;> cases h
    case h_1 rq queue subscribed =>
      obtain ⟨rfl, -⟩ := InternalQueue.subscribe_ok subscribed
      exact .inr ⟨_, rfl⟩
    case h_2 => exact .inl rfl
  | unsubscribe rq => simp only [step] at h; split at h <;> cases h; exact .inl rfl
  | push msg => cases h; exact .inl rfl
  | pop rq =>
    simp only [step] at h
    split at h
    · split at h <;> cases h
      exact .inl rfl
    · cases h

theorem Apart.step {a : Action} {s t : InternalPipeline ω} (apart : Apart s) (h : InternalPipeline.step chain a s = some t) :
    Apart t := by
  refine ⟨apart.tracks.step h, ?_⟩
  rcases others_step h with same | ⟨id, more⟩
  · rw [same]
    exact apart.handles
  · rw [more]
    exact List.forall_mem_cons.mpr ⟨rfl, apart.handles⟩

/-- Another handle is not that of the buffer. -/
theorem Apart.ne {s : InternalPipeline ω} (apart : Apart s) {rq : RQueue} (member : rq ∈ s.others) (live : s.Live) :
    s.incoming.queue ≠ some rq.id := by
  intro own
  exact (apart.tracks.others rq member).2 live (apart.tracks.own rq.id own).1.symm

/-- Where there is no buffer, nothing waits. -/
theorem waiting_of_dead {s : InternalPipeline ω} (dead : ¬ s.Live) : s.queue.waitingFor s.incoming = [] := by
  have none' : s.queue.buffer? s.incoming = none := by
    rw [← Option.not_isSome_iff_eq_none, InternalQueue.buffer?_isSome]
    exact dead
  rw [InternalQueue.waitingFor, none']
  rfl

/-- Every step. -/
theorem streams {a : Action} {s t : InternalPipeline ω} (apart : Apart s) (h : step chain a s = some t) : Streams a s t := by
  cases a with
  | control call => exact streams_control h
  | receiving => exact streams_receiving apart.tracks h
  | thread a =>
    cases a with
    | control call => cases h
    | receiving call => cases h
    | _ =>
      simp only [step] at h
      obtain ⟨pipeline, moved, rfl⟩ := Option.map_eq_some_iff.mp h
      exact .kept rfl (Pipeline.received_kept (by simp) moved) rfl rfl
  | subscribe size =>
    simp only [step] at h
    split at h <;> cases h
    case h_1 rq queue subscribed =>
      refine .kept rfl rfl ?_ rfl
      rw [InternalQueue.waitingFor_subscribe subscribed, if_neg]
      intro own
      have old := (apart.tracks.own _ own).2
      omega
    case h_2 => exact .kept rfl rfl rfl rfl
  | unsubscribe rq =>
    by_cases member : rq ∈ s.others
    · simp only [step, member, if_true] at h
      cases h
      refine .kept rfl rfl ?_ rfl
      rw [InternalQueue.waitingFor_unsubscribe]
      split
      case isTrue own => exact (waiting_of_dead fun live => apart.ne member live own).symm
      case isFalse => rfl
    · simp [step, member] at h
  | push msg =>
    cases h
    by_cases served : ¬ s.queue.SomeFull ∧ s.Live
    · refine .goesOn ?_ rfl
      simp only [stream, InternalQueue.waitingFor_push_of_room served.1 msg served.2, List.map_append, List.append_assoc,
        pushed]
    · have reason : s.queue.SomeFull ∨ s.connected = false := by
        by_cases full : s.queue.SomeFull
        · exact .inl full
        · refine .inr (Bool.eq_false_iff.mpr fun connected => served ⟨full, apart.tracks.live_iff.mpr connected⟩)
      rcases InternalQueue.waitingFor_push s.queue msg s.incoming with same | more
      · exact .misses msg rfl reason (by simp only [stream, same]) rfl
      · refine .goesOn ?_ rfl
        simp only [stream, more, List.map_append, List.append_assoc, pushed]
  | pop rq =>
    by_cases member : rq ∈ s.others
    · simp only [step, member, if_true] at h
      split at h <;> cases h
      case h_1 queue popped =>
        refine .kept rfl rfl ?_ rfl
        by_cases live : s.Live
        · refine (InternalQueue.waitingFor_popFrom popped).2 s.incoming ?_
          rw [apart.handles rq member]
          exact apart.ne member live
        · have dead : ¬ ({ s with queue } : InternalPipeline ω).Live := by
            simpa only [Live, RQueue.LiveIn, (InternalQueue.popFrom_keys popped).1] using live
          rw [waiting_of_dead live]
          exact waiting_of_dead dead
    · simp [step, member] at h

/-! ## Systems with the pipeline in them -/

section System

variable {σ α β : Type} {step : α → σ → Option σ} {down : σ → InternalPipeline ω} {pushes : α → σ → List β}
  {msg : β → Message} {receives : α → Prop}

variable (chain step down pushes msg receives) in
/-- To the pipeline and its queue, a step of the system is one of theirs, or nothing. -/
def Contains : Prop :=
  ∀ a s t, step a s = some t →
    down t = down s ∧ pushes a s = [] ∨
      ∃ b, (down s).step chain b = some (down t) ∧ (pushes a s).map msg = pushed b ∧ (b = .receiving → receives a)

variable (down pushes receives) in
/-- The pipeline stays subscribed, and a push finds room. -/
structure Flowing (a : α) (s : σ) : Prop where
  subscribed : receives a → (down s).pipeline.receiving.thread ≠ some .connect ∧
    (down s).pipeline.receiving.thread ≠ some .disconnect
  room : pushes a s ≠ [] → ¬ (down s).queue.SomeFull

/-- The receiving thread is neither about to connect nor to disconnect, and all buffers have room. -/
def Calm (s : InternalPipeline ω) : Prop :=
  (match s.pipeline.receiving.thread with
    | some .connect | some .disconnect => false
    | _ => true) = true ∧ ¬ s.queue.SomeFull

instance (s : InternalPipeline ω) : Decidable s.Calm := inferInstanceAs (Decidable (_ ∧ _))

theorem flowing_of_calm (a : α) (s : σ) (calm : (down s).Calm) : Flowing down pushes receives a s := by
  refine ⟨fun _ => ⟨fun here => ?_, fun here => ?_⟩, fun _ => calm.2⟩
  · simp [Calm, here] at calm
  · simp [Calm, here] at calm

namespace Contains

variable (contains : Contains chain step down pushes msg receives)

include contains in
theorem apart {a : α} {s t : σ} (apart : (down s).Apart) (h : step a s = some t) : (down t).Apart := by
  rcases contains a s t h with ⟨same, -⟩ | ⟨b, moved, -⟩
  · rwa [same]
  · exact apart.step moved

include contains in
/-- A step puts at most what it pushes behind the stream. -/
theorem stream_step {a : α} {s t : σ} (apart : (down s).Apart) (h : step a s = some t) :
    (down t).stream.Sublist ((down s).stream ++ ((pushes a s).map msg).map doReceive) := by
  rcases contains a s t h with ⟨same, silent⟩ | ⟨b, moved, feeds, -⟩
  · rw [same, silent, List.map_nil, List.map_nil, List.append_nil]
  · rw [feeds]
    cases streams apart moved with
    | goesOn stream =>
      rw [stream]
    | drops _ _ stream =>
      rw [stream, InternalPipeline.stream, List.append_assoc]
      exact List.sublist_append_left _ _
    | misses m _ _ stream =>
      rw [stream]
      exact List.sublist_append_left _ _

include contains in
/-- Where everything flows, it puts all that it pushes there. -/
theorem stream_flowing {a : α} {s t : σ} (apart : (down s).Apart) (flowing : Flowing down pushes receives a s)
    (connected : (down s).connected = true) (h : step a s = some t) :
    (down t).connected = true ∧ (down t).stream = (down s).stream ++ ((pushes a s).map msg).map doReceive := by
  rcases contains a s t h with ⟨same, silent⟩ | ⟨b, moved, feeds, receives⟩
  · rw [same, silent, List.map_nil, List.map_nil, List.append_nil]
    exact ⟨connected, rfl⟩
  · rw [feeds]
    cases streams apart moved with
    | goesOn stream stays => exact ⟨stays.trans connected, stream⟩
    | drops receiving place =>
      obtain ⟨connects, disconnects⟩ := flowing.subscribed (receives receiving)
      exact (place.elim connects disconnects).elim
    | misses m here reason =>
      have some : pushes a s ≠ [] := by
        intro none'
        rw [none', here] at feeds
        cases feeds
      rcases reason with full | unconnected
      · exact absurd full (flowing.room some)
      · cases connected.symm.trans unconnected

include contains in
/-- In every run, what comes in behind the queue is some of what is pushed, in that order. -/
theorem in_order {guard : α → σ → Prop} {s t : σ} {fed : List β} (run : Lib.Trace step pushes guard s fed t)
    (start : (down s).Apart) : (down t).stream.Sublist ((down s).stream ++ (fed.map msg).map doReceive) := by
  have front : ∀ a s u, guard a s → (down s).Apart → step a s = some u →
      (down u).Apart ∧ ∀ rest, (down t).stream.Sublist ((down u).stream ++ (rest.map msg).map doReceive) →
        (down t).stream.Sublist ((down s).stream ++ ((pushes a s ++ rest).map msg).map doReceive) := by
    intro a s u _ apart h
    refine ⟨contains.apart apart h, fun rest later => ?_⟩
    rw [List.map_append, List.map_append, ← List.append_assoc]
    exact later.trans ((contains.stream_step apart h).append_right _)
  have all : (down t).stream.Sublist ((down s).stream ++ ((fed ++ []).map msg).map doReceive) :=
    Lib.Trace.settle run start front fun _ => List.sublist_append_left _ _
  rwa [List.append_nil] at all

include contains in
/-- While everything flows, all that is pushed comes in. -/
theorem lossless {s t : σ} {fed : List β} (start : (down s).Apart) (connected : (down s).connected = true)
    (run : Lib.Trace step pushes (Flowing down pushes receives) s fed t) :
    (down t).stream = (down s).stream ++ (fed.map msg).map doReceive := by
  have front : ∀ a s u, Flowing down pushes receives a s → (down s).Apart ∧ (down s).connected = true → step a s = some u →
      ((down u).Apart ∧ (down u).connected = true) ∧
        ∀ rest, (down t).stream = (down u).stream ++ (rest.map msg).map doReceive →
          (down t).stream = (down s).stream ++ ((pushes a s ++ rest).map msg).map doReceive := by
    intro a s u flowing ⟨apart, connected⟩ h
    obtain ⟨stays, stream⟩ := contains.stream_flowing apart flowing connected h
    refine ⟨⟨contains.apart apart h, stays⟩, fun rest later => ?_⟩
    rw [later, stream, List.map_append, List.map_append, List.append_assoc]
  have all : (down t).stream = (down s).stream ++ ((fed ++ []).map msg).map doReceive :=
    Lib.Trace.settle run ⟨start, connected⟩ front fun _ => (List.append_nil _).symm
  rwa [List.append_nil] at all

end Contains

end System

/-- START of the pipeline, up to the receiving thread in its loop. -/
def startUp : List Action :=
  let control := Action.control (.ok ())
  .thread (.execute .start) :: List.replicate 7 control ++ List.replicate 3 (.thread (.sending (.ok ()))) ++
    List.replicate 2 control ++ List.replicate 3 (.thread (.processing fun _ => {})) ++ List.replicate 2 control ++
    List.replicate 3 .receiving ++ [control]

end InternalPipeline

end M2eBridge
