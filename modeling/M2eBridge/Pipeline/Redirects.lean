import M2eBridge.Pipeline.Acts
import M2eBridge.Pipeline.Errors
import M2eBridge.Process.Forward

/-!
# Redirection

A message that a filtra lets through is redirected to the queues of the filtra in a loop of its
own behind the hop. The branch for the splitter has no such loop, and in `process()` the message
that a filtra generates is gone before the loop. So the trace of a run is as it should be
(`RedirectedOnce`) while only filtras without queues generate messages, and while no subscriber's
buffer is full when its turn comes (`redirected_once_run`).
-/

namespace M2eBridge

open Process (Act Frame Env Walk Next turn)

/-- Each message that is let through or generated is redirected to the queues of its filtra, once to
each, before anything else is done; no other message is. -/
inductive Process.RedirectedOnce {ω : Type} (chain : List (Filtra ω)) : List Act → Prop where
  | nil : RedirectedOnce chain []
  | other {act : Act} {later : List Act} (plain : act.isPlain = true) (behind : RedirectedOnce chain later) :
      RedirectedOnce chain (act :: later)
  | emit {ix : Nat} {msg : Message} {filtra : Filtra ω} {queues : List String} {later : List Act}
      (found : chain[ix]? = some filtra) (once : queues.Nodup)
      (all : ∀ queuid, queuid ∈ queues ↔ queuid ∈ filtra.getDestinations) (behind : RedirectedOnce chain later) :
      RedirectedOnce chain (.emit ix msg :: (queues.map (fun queuid => .redirect queuid msg) ++ later))

namespace Process

variable {ω : Type} {chain : List (Filtra ω)}

theorem RedirectedOnce.behind {act : Act} {later : List Act} (good : RedirectedOnce chain (act :: later))
    (plain : act.isPlain = true) : RedirectedOnce chain later := by
  cases good with
  | other _ behind => exact behind
  | emit => cases plain

/-- A filtra with queues redirects next. -/
theorem RedirectedOnce.redirects {ix : Nat} {msg : Message} {later : List Act}
    (good : RedirectedOnce chain (.emit ix msg :: later)) {filtra : Filtra ω} (found : chain[ix]? = some filtra)
    (queues : filtra.getDestinations ≠ []) : ∃ queuid behind, later = .redirect queuid msg :: behind := by
  generalize trace : Act.emit ix msg :: later = acts at good
  cases good with
  | nil => cases trace
  | other plain => cases trace; cases plain
  | @emit _ _ filtra' queues' _ found' _ all _ =>
    cases trace
    cases found.symm.trans found'
    cases queues' with
    | nil => exact absurd (List.eq_nil_iff_forall_not_mem.mpr fun queuid => (all queuid).not.mp (by simp)) queues
    | cons queuid others => exact ⟨queuid, _, rfl⟩

/-- The index of the filtra that lets a message through. -/
def Act.emitter : Act → Option Nat
  | .emit ix _ => some ix
  | _ => none

/-- What is to be redirected behind a step of a call. -/
def Next.pending : Next → List Act
  | .go f => f.pending
  | .nest _ chunk => chunk.pending
  | _ => []

/-- What `Delivers` says of a call. -/
structure Frame.Delivers (chain : List (Filtra ω)) (env : Env) (f : Frame) (world : ω) : Prop where
  room : ∀ queuid msg, .redirect queuid msg ∈ f.acts chain world → ¬ (env.queues queuid).SomeFull
  distinct : ∀ ix msg filtra, .emit ix msg ∈ f.acts chain world → chain[ix]? = some filtra → filtra.getDestinations.Nodup
  looped : ∀ ix msg filtra, .emit ix msg ∈ f.acts chain world → chain[ix]? = some filtra →
    f.pc = .call ∨ filtra.getDestinations = []

theorem withMsg_msg (w : MessageWrapper) : w.withMsg.msg = w.msg := by
  unfold MessageWrapper.msg MessageWrapper.withMsg
  split <;> simp_all

/-- A call that is over behind its chunks has generated none. -/
theorem acts_allGenerated {env : Env} {f : Frame} {world : ω} {splitter : Nat} (pc : f.pc = .generate splitter)
    (ended : (turn chain env f world).1 = .ret f) : f.acts chain world = [] := by
  simp only [turn, pc] at ended
  simp only [Frame.acts, pc]
  cases found : chain[splitter]? with
  | none => rfl
  | some filtra =>
    simp only [found] at ended
    simp only [generated]
    rcases result : filtra.generateMessage world with ⟨e | msg, world'⟩
    · rfl
    · simp only [result] at ended
      cases valid : msg.isValid with
      | false => simp only [valid, Bool.false_eq_true, if_false]
      | true => simp [valid] at ended

/-- A turn puts its acts before what it leaves to be redirected. -/
theorem turn_settles {env : Env} {f : Frame} {world : ω} (delivers : f.Delivers chain env world) {later : List Act}
    (good : RedirectedOnce chain later) :
    ∃ behind, f.acts chain world ++ ((turn chain env f world).1.pending ++ later) = f.pending ++ behind ∧
      RedirectedOnce chain behind := by
  have applied : RedirectedOnce chain (.apply f.filtraIx f.msgW :: later) := .other rfl good
  have kind := turned chain env f world
  generalize result : (turn chain env f world).1 = next at kind
  cases kind with
  | outOfLoop pc | enter pc | allRedirected pc | astray pc missing =>
    exact ⟨later, by simp_all [Frame.acts, Frame.pending, Next.pending], good⟩
  | splits pc found hop => exact ⟨_, by simp [Frame.acts, Frame.pending, Next.pending, pc, found, hop], applied⟩
  | @passes filtra hop pc found returned notSelf passed =>
    have acts : f.acts chain world =
        [.apply f.filtraIx f.msgW, .emit f.filtraIx (filtra.processMessage world f.msgW).2.1.msg] := by
      simp [Frame.acts, pc, found, returned, notSelf, passed]
    have once := delivers.distinct f.filtraIx _ filtra (acts ▸ List.mem_cons_of_mem _ (List.mem_singleton_self _)) found
    have redirected : RedirectedOnce chain (.apply f.filtraIx f.msgW ::
        .emit f.filtraIx (filtra.processMessage world f.msgW).2.1.msg ::
          (filtra.getDestinations.map (fun queuid =>
            .redirect queuid (filtra.processMessage world f.msgW).2.1.msg) ++ later)) :=
      .other rfl (.emit found once (fun _ => Iff.rfl) good)
    refine ⟨_, ?_, redirected⟩
    rw [acts]
    simp [Frame.pending, Next.pending, pc, Frame.left]
  | rejectsTo pc found returned notSelf rejected | rejects pc found returned notSelf rejected =>
    exact ⟨_, by simp [Frame.acts, Frame.pending, Next.pending, pc, found, returned, rejected], applied⟩
  | invalid pc found thrown kind =>
    exact ⟨_, by simp [Frame.acts, Frame.pending, Next.pending, pc, found, thrown, kind], applied⟩
  | @fails filtra e pc found thrown kind =>
    have given : RedirectedOnce chain (.apply f.filtraIx f.msgW :: .error e.what :: later) := .other rfl (.other rfl good)
    exact ⟨_, by simp [Frame.acts, Frame.pending, Next.pending, pc, found, thrown, kind], given⟩
  | redirected pc =>
    exact ⟨later, by simp [Frame.acts, Frame.pending, Next.pending, pc, withMsg_msg], good⟩
  | overflows pc thrown =>
    have full := delivers.room _ _ (by simp [Frame.acts, pc]; exact ⟨rfl, rfl⟩)
    rw [InternalQueue.push_returns_iff.mpr full] at thrown
    cases thrown
  | @chunk splitter filtra msg pc found generated valid =>
    have acts : f.acts chain world = [.emit splitter msg] := by
      simp [Frame.acts, pc, found, Process.generated, generated, valid]
    have noQueues : filtra.getDestinations = [] := by
      rcases delivers.looped splitter msg filtra (acts ▸ List.mem_singleton_self _) found with hop | none'
      · rw [pc] at hop; cases hop
      · exact none'
    have alone : RedirectedOnce chain (.emit splitter msg :: ([].map (fun queuid => .redirect queuid msg) ++ later)) :=
      .emit found List.nodup_nil (by simp [noQueues]) good
    refine ⟨_, ?_, alone⟩
    rw [acts]
    simp [Frame.pending, Next.pending, pc, Frame.cut]
  | allGenerated pc =>
    exact ⟨later, by rw [acts_allGenerated pc result]; simp [Frame.pending, Next.pending, pc], good⟩
  | generateFails pc found thrown =>
    exact ⟨later, by simp [Frame.acts, Frame.pending, Next.pending, pc, found, generated, thrown], good⟩
  | pushes pc passed =>
    have pushed : RedirectedOnce chain (.push f.msgW :: later) := .other rfl good
    exact ⟨_, by simp [Frame.acts, Frame.pending, Next.pending, pc, passed], pushed⟩
  | drops pc rejected => exact ⟨later, by simp [Frame.acts, Frame.pending, Next.pending, pc, rejected], good⟩

/-- Above the calls that wait in their loops over the chunks only the innermost one has anything to redirect. -/
theorem Walk.step_pending {env : Env} {w : Walk ω} {f : Frame} {below : List Frame} (top : w.frames = f :: below)
    (inChunks : InChunks (f :: below)) :
    InChunks (w.step chain env).frames ∧
      pendingOf (w.step chain env).frames = (turn chain env f w.world).1.pending := by
  have kind := turned chain env f w.world
  rw [Walk.step_cons chain top]
  generalize (turn chain env f w.world).1 = next at kind ⊢
  cases next with
  | go g => exact ⟨inChunks, rfl⟩
  | nest caller chunk =>
    cases kind with
    | chunk pc => exact ⟨List.forall_mem_cons.mpr ⟨⟨_, pc⟩, inChunks⟩, rfl⟩
  | push g =>
    simp only [Walk.apply]
    split
    · exact inChunks.tail
    · exact ⟨trivial, rfl⟩
  | ret g => exact inChunks.tail
  | throw => exact ⟨trivial, rfl⟩

end Process

namespace Pipeline

open Process (RedirectedOnce InChunks pendingOf)

variable {ω : Type} {chain : List (Filtra ω)}

/-- The thread is in a filtra of `process(msg, filtra_ix)`. -/
def AtHop (s : Pipeline ω) : Prop := ∃ f below, s.processing.thread = some (.walk (f :: below)) ∧ f.pc = .call

/-- The next statement of the processing thread meets no full buffer, and lets no message of a filtra with
queues through but at the hop, where the queues of the filtra are not named twice. -/
structure Delivers (chain : List (Filtra ω)) (queues : String → InternalQueue Message) (s : Pipeline ω) : Prop where
  room : ∀ queuid msg, .redirect queuid msg ∈ s.processingActs chain → ¬ (queues queuid).SomeFull
  distinct : ∀ ix msg filtra, .emit ix msg ∈ s.processingActs chain → chain[ix]? = some filtra →
    filtra.getDestinations.Nodup
  looped : ∀ ix msg filtra, .emit ix msg ∈ s.processingActs chain → chain[ix]? = some filtra →
    s.AtHop ∨ filtra.getDestinations = []

/-- A step that is not one of the processing thread delivers nothing. -/
def Delivering (chain : List (Filtra ω)) : Action → Pipeline ω → Prop
  | .processing queues, s => s.Delivers chain queues
  | _, _ => True

/-- What is to be redirected comes first, and behind it all is as it should be. -/
def Settles (chain : List (Filtra ω)) (s : Pipeline ω) (trace : List Act) : Prop :=
  ∃ behind, trace = s.pending ++ behind ∧ RedirectedOnce chain behind

/-- The calls of `process(msg, filtra_ix)` below the innermost one are in their loops over the chunks. -/
def Nests (s : Pipeline ω) : Prop := InChunks s.cargo.frames

/-- Outside the calls of `process(msg, filtra_ix)` there is nothing to redirect. -/
theorem Moves.pending {env : Option Env} {c d : Cargo} (moves : Moves chain env c d)
    (outside : env = none ∨ c.frames = []) (inChunks : InChunks c.frames) :
    InChunks d.frames ∧ pendingOf d.frames = pendingOf c.frames := by
  cases moves with
  | still | receive | accept | lose | pop | send => exact ⟨inChunks, rfl⟩
  | take _ m rest queue idle =>
    rw [idle]
    exact ⟨fun _ none' => (List.not_mem_nil none').elim, rfl⟩
  | walk _ w env frames =>
    rcases outside with none' | empty
    · cases none'
    · rw [Walk.step_nil chain (frames.trans empty), frames]
      exact ⟨inChunks, rfl⟩

/-- The calls behind a step of `process(msg, filtra_ix)`. -/
theorem walk_frames {s t : Pipeline ω} {queues : String → InternalQueue Message} {frames : List Frame}
    (h : s.runProcessing chain queues (.walk frames) = some t) :
    t.cargo.frames = ((s.walkOf frames).step chain (s.env queues)).frames := by
  simp only [runProcessing] at h
  split at h
  case h_1 escaped =>
    cases h
    rw [cargo_processingCaught _ _ rfl, Walk.step_escaped rfl escaped]
  case h_2 none' => cases h; exact none'.symm
  case h_3 => cases h; rfl

/-- The message that a filtra generates on an event goes nowhere. -/
theorem settles_event {s : Pipeline ω} {queues : String → InternalQueue Message} {ix : Nat}
    (here : s.processing.thread = some (.event ix)) (delivers : s.Delivers chain queues) {trace : List Act}
    (good : RedirectedOnce chain trace) : RedirectedOnce chain (s.processingActs chain ++ trace) := by
  have noHop : ¬ s.AtHop := by
    rintro ⟨f, below, walking, -⟩
    rw [here] at walking
    cases walking
  cases found : chain[ix]? with
  | none =>
    have acts : s.processingActs chain = [] := by simp only [processingActs, here, found]
    rwa [acts]
  | some filtra =>
    have acts : s.processingActs chain = Process.generated ix filtra s.world := by
      simp only [processingActs, here, found]
    cases result : (filtra.generateMessage s.world).1 with
    | error e =>
      rw [acts]
      simpa only [Process.generated, result, List.nil_append] using good
    | ok msg =>
      cases valid : msg.isValid with
      | false =>
        rw [acts]
        simpa only [Process.generated, result, valid, Bool.false_eq_true, if_false, List.nil_append] using good
      | true =>
        have emits : s.processingActs chain = [.emit ix msg] := by
          rw [acts]
          simp only [Process.generated, result, valid, if_true]
        have noQueues : filtra.getDestinations = [] :=
          (delivers.looped ix msg filtra (emits ▸ List.mem_singleton_self _) found).resolve_left noHop
        have alone : RedirectedOnce chain (.emit ix msg :: ([].map (fun queuid => .redirect queuid msg) ++ trace)) :=
          .emit found List.nodup_nil (by simp [noQueues]) good
        rw [emits]
        exact alone

/-- A step of `process(msg, filtra_ix)` puts its acts before what it leaves to be redirected. -/
theorem settles_walk {s t : Pipeline ω} {queues : String → InternalQueue Message} {f : Frame} {below : List Frame}
    (here : s.processing.thread = some (.walk (f :: below))) (delivers : s.Delivers chain queues) (nests : s.Nests)
    (h : s.runProcessing chain queues (.walk (f :: below)) = some t) :
    t.Nests ∧ ∀ trace, Settles chain t trace → Settles chain s (s.processingActs chain ++ trace) := by
  have frames : s.cargo.frames = (ProcessingPc.walk (f :: below)).frames := by simp [cargo, here]
  have acts : s.processingActs chain = f.acts chain s.world := by simp only [processingActs, here]
  have atFrame : f.Delivers chain (s.env queues) s.world := by
    refine ⟨acts ▸ delivers.room, acts ▸ delivers.distinct, fun ix msg filtra emits found => ?_⟩
    refine (delivers.looped ix msg filtra (acts ▸ emits) found).imp_left ?_
    rintro ⟨g, below', walking, hop⟩
    cases here.symm.trans walking
    exact hop
  have calls : InChunks (f :: below) := by rwa [Nests, frames] at nests
  have stepped : InChunks ((s.walkOf (f :: below)).step chain (s.env queues)).frames ∧
      pendingOf ((s.walkOf (f :: below)).step chain (s.env queues)).frames =
        (Process.turn chain (s.env queues) f s.world).1.pending := Walk.step_pending rfl calls
  rw [← walk_frames h] at stepped
  have before : s.pending = f.pending := by rw [pending, frames]; rfl
  refine ⟨stepped.1, ?_⟩
  rintro _ ⟨behind, rfl, good⟩
  obtain ⟨behind', same, good'⟩ := Process.turn_settles atFrame good
  refine ⟨behind', ?_, good'⟩
  rw [before, ← same, ← stepped.2, ← acts]
  rfl

/-- A step puts its acts before what it leaves to be redirected. -/
theorem settles_step {a : Action} {s t : Pipeline ω} (delivering : Delivering chain a s)
    (nests : s.Nests) (h : step chain a s = some t) :
    t.Nests ∧ ∀ trace, Settles chain t trace → Settles chain s (acts chain a s ++ trace) := by
  obtain ⟨env, moves, found⟩ := step_moves h
  have silent (outside : env = none ∨ s.cargo.frames = []) (nothing : acts chain a s = []) :
      t.Nests ∧ ∀ trace, Settles chain t trace → Settles chain s (acts chain a s ++ trace) := by
    obtain ⟨kept, same⟩ := moves.pending outside nests
    refine ⟨kept, fun trace settles => ?_⟩
    rw [nothing]
    unfold Settles pending at settles ⊢
    rwa [← same]
  have elsewhere (other : ∀ queues, a ≠ .processing queues) : env = none := by
    cases env with
    | none => rfl
    | some e =>
      obtain ⟨queues, same, -⟩ := found e rfl
      exact absurd same (other queues)
  cases a with
  | execute | control | receiving | sending | timerPush | timerNotify | wakeup =>
    exact silent (.inl (elsewhere (by simp))) rfl
  | processing queues =>
    obtain ⟨pc, here, next⟩ := Option.bind_eq_some_iff.mp h
    have frames : s.cargo.frames = pc.frames := by simp [cargo, here]
    cases pc with
    | walk calls =>
      cases calls with
      | nil => exact silent (.inr frames) (by simp only [acts, processingActs, here])
      | cons f below => exact settles_walk here delivering nests next
    | event ix =>
      obtain ⟨kept, same⟩ := moves.pending (.inr frames) nests
      have nothing : pendingOf s.cargo.frames = [] := by rw [frames]; rfl
      refine ⟨kept, ?_⟩
      rintro _ ⟨behind, rfl, good⟩
      refine ⟨_, ?_, settles_event here delivering good⟩
      rw [pending, pending, same, nothing]
      rfl
    | begin | startFiltra | started | loop | events | popEvent | messages | popMessage | wait | blocked | finish | done =>
      exact silent (.inr frames) (by simp only [acts, processingActs, here])

/-- While the steps of the processing thread deliver, each message that a filtra lets through or generates
is redirected once to each of its queues. -/
theorem redirected_once_run (chain : List (Filtra ω)) (world : ω) {trace : List Act} {t : Pipeline ω}
    (run : Acted chain (Delivering chain) (prepared world) trace t) : RedirectedOnce chain (trace ++ t.pending) := by
  have settled : Settles chain (prepared world) (trace ++ t.pending) := by
    have start : (prepared world).Nests := trivial
    refine run.settle start (fun a s t delivering nests h => settles_step delivering nests h) fun _ => ?_
    exact ⟨[], (List.append_nil _).symm, .nil⟩
  obtain ⟨behind, same, good⟩ := settled
  rw [same]
  exact good

/-- Without full buffers, and without filtras that generate messages, everything is delivered. -/
theorem delivers_ungenerating (distinct : ∀ filtra ∈ chain, filtra.getDestinations.Nodup)
    (ungenerating : ∀ filtra ∈ chain, ∀ world, (filtra.generateMessage world).1 = .ok {})
    {queues : String → InternalQueue Message} (room : ∀ queuid, ¬ (queues queuid).SomeFull) (s : Pipeline ω) :
    s.Delivers chain queues := by
  have noEvent (ix : Nat) (filtra : Filtra ω) (found : chain[ix]? = some filtra) (world : ω) :
      Process.generated ix filtra world = [] := by
    simp only [Process.generated, ungenerating filtra (List.mem_of_getElem? found) world]
    rfl
  refine ⟨fun queuid _ _ => room queuid, fun ix _ filtra _ found => distinct filtra (List.mem_of_getElem? found), ?_⟩
  intro ix msg filtra emits found
  refine .inl ?_
  unfold processingActs at emits
  split at emits
  case h_1 f below here =>
    refine ⟨f, below, here, ?_⟩
    by_contra notCall
    unfold Frame.acts at emits
    split at emits
    case h_3 pc => exact notCall pc
    case h_5 =>
      split at emits
      · cases emits
      · next found => rw [noEvent _ _ found] at emits; cases emits
    case h_6 => split at emits <;> simp at emits
    all_goals simp at emits
  case h_2 =>
    split at emits
    · cases emits
    · next found => rw [noEvent _ _ found] at emits; cases emits
  case h_3 => cases emits

/-- One message through a filtra with a queue. -/
def throughQueue : List Action :=
  startUp ++ receiveOne (.ofString [0x61] .raw) ++ List.replicate 12 (.processing fun _ => {})

def afterQueue : Pipeline Unit := (Lib.exec (step [forwarding, .plain]) throughQueue (prepared ())).getD (prepared ())

/-- It is given to the first filtra, let through, redirected, given to the second, let through and pushed. -/
theorem redirected_once_queue :
    RedirectedOnce [forwarding, .plain]
        (Lib.outputs (step [forwarding, .plain]) (acts [forwarding, .plain]) throughQueue (prepared ()) ++
          afterQueue.pending) ∧
      (Lib.outputs (step [forwarding, .plain]) (acts [forwarding, .plain]) throughQueue (prepared ())).map Act.isPlain =
        [true, false, false, true, false, true] := by
  have only : ∀ a ∈ throughQueue, ∀ queues, a = .processing queues → queues = fun _ => {} := by
    simp [throughQueue, startUp, receiveOne]
  refine ⟨redirected_once_run [forwarding, .plain] () (Lib.exec_trace throughQueue (fun a member s => ?_) rfl), rfl⟩
  cases a with
  | processing queues =>
    rw [only _ member queues rfl]
    exact delivers_ungenerating (by decide) (by simp [forwarding, Filtra.plain, Filtra.nop]) (fun _ => by decide) s
  | execute | control | receiving | sending | timerPush | timerNotify | wakeup => trivial

/-- The filtra of `{"chunk_size": 1, "queues": ["q"], "type": "splitter"}`. -/
def forwardingSplitter : Filtra (Process.SplitterWorld Unit) :=
  Process.splitterAt Message.literalCodec 1 0
    (.object [("chunk_size", .integer 1), ("queues", .array [.string "q"]), ("type", .string "splitter")])
    { name := "", msgFormat := .raw, logicalNegation := false, queueIds := ["q"], metadata := .null, hops := ("", "") }
    rfl

def splitting : Process.SplitterWorld Unit where
  splitters := fun _ => { messageId := 0 }
  others := ()

/-- A message of two bytes is cut, and the first chunk goes through the rest of the chain. -/
def throughSplitter : List Action :=
  startUp ++ receiveOne (.ofString [0x61, 0x62] .raw) ++ List.replicate 5 (.processing fun _ => {})

def afterChunk : Pipeline (Process.SplitterWorld Unit) :=
  (Lib.exec (step [forwardingSplitter, .plain]) throughSplitter (prepared splitting)).getD (prepared splitting)

/-- The first chunk is generated and goes on to the next filtra, and is redirected nowhere. -/
theorem chunk_not_redirected :
    ¬ ∀ (chain : List (Filtra (Process.SplitterWorld Unit))) (world : Process.SplitterWorld Unit) (trace : List Act)
      (t : Pipeline (Process.SplitterWorld Unit)),
      Acted chain (fun _ _ => True) (prepared world) trace t → RedirectedOnce chain (trace ++ t.pending) := by
  intro all
  have good := all [forwardingSplitter, .plain] splitting _ afterChunk
    (Lib.exec_trace throughSplitter (fun _ _ _ => trivial) rfl)
  have outline : (Lib.outputs (step [forwardingSplitter, .plain]) (acts [forwardingSplitter, .plain]) throughSplitter
      (prepared splitting) ++ afterChunk.pending).map (fun act => (act.isPlain, act.emitter)) =
      [(true, none), (false, some 0), (true, none), (false, some 1)] := rfl
  generalize Lib.outputs _ _ throughSplitter (prepared splitting) ++ afterChunk.pending = trace at good outline
  obtain ⟨applied, rest, rfl, plain, outline⟩ := List.map_eq_cons_iff.mp outline
  obtain ⟨emitted, rest, rfl, first, outline⟩ := List.map_eq_cons_iff.mp outline
  obtain ⟨next, rest, rfl, notRedirected, -⟩ := List.map_eq_cons_iff.mp outline
  cases emitted with
  | emit ix msg =>
    cases first
    obtain ⟨queuid, behind, same⟩ := (good.behind (congrArg Prod.fst plain)).redirects rfl (by decide)
    cases same
    cases notRedirected
  | apply | redirect | push | error => cases first

end Pipeline

end M2eBridge
