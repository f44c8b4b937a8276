import M2eBridge.Pipeline.Cargo

/-!
# Messages leave in the order in which they came

Read from the far end, the places of the cargo hold the numbers of the messages in
increasing order: what is out of the last place came before what is in any other,
and so on back to the receiving hand. A step moves a message to the next place,
loses it, or adds the next number at the near end, so the order is kept through
every failure, stop and restart (`sent_in_order`). Without splitters a call of
`process` makes no further calls, and what it pushes is the message it was given.
-/

namespace M2eBridge

open Process (Frame Queued Env Walk Next turn)

/-- Between two chunks. -/
def Process.Pc.generating : Process.Pc → Bool
  | .generate _ => true
  | _ => false

/-- It calls `process` for a chunk. -/
def Process.Next.nests : Next → Bool
  | .nest _ _ => true
  | _ => false

/-- The numbers of the messages in the pipeline, the farthest first. -/
def Cargo.flow (c : Cargo) : List Nat :=
  (c.sent ++ c.sendingHand ++ c.sQueue).map (fun x => x.journey.source) ++ c.frames.map (fun f => f.journey.source) ++
    (c.rQueue ++ c.receivingHand).map Received.number

/-- The wrapper holds the received message of its number. -/
def Cargo.Authentic (c : Cargo) (source : Nat) (msgW : MessageWrapper) : Prop := c.received[source]? = some msgW.orig

structure Cargo.InOrder (c : Cargo) : Prop where
  flow : c.flow.Sublist (List.range c.received.length)
  /-- At most one call, and it is not among chunks. -/
  frames : c.frames = [] ∨ ∃ f, c.frames = [f] ∧ f.pc.generating = false ∧ c.Authentic f.journey.source f.msgW
  queued : ∀ x ∈ c.sent ++ c.sendingHand ++ c.sQueue, c.Authentic x.journey.source x.msgW
  received : ∀ m ∈ c.rQueue ++ c.receivingHand, c.received[m.number]? = some m.msg

/-! ## A walk without splitters -/

section Walk

variable {ω : Type} {chain : List (Filtra ω)}

/-- A wrapper of the same journey around the same message. -/
structure Whole (f : Frame) (source : Nat) (msgW : MessageWrapper) : Prop where
  source : source = f.journey.source
  orig : msgW.orig = f.msgW.orig

theorem turn_whole (noSplitter : ∀ filtra ∈ chain, ¬ filtra.Splits) {f : Frame} (single : f.pc.generating = false)
    (env : Env) (world : ω) :
    (turn chain env f world).1.Keeps (fun g => Whole f g.journey.source g.msgW ∧ g.pc.generating = false)
      (fun x => Whole f x.journey.source x.msgW) (fun _ => True) ∧
    (turn chain env f world).1.nests = false := by
  have orig := fun filtra : Filtra ω => filtra.keepsOrig world f.msgW
  have notGenerating : ∀ splitter, f.pc ≠ .generate splitter := by
    intro splitter pc
    rw [pc] at single
    cases single
  have kind := Process.turned chain env f world
  generalize (turn chain env f world).1 = next at kind ⊢
  cases kind with
  | outOfLoop | allRedirected | enter => exact ⟨⟨⟨rfl, rfl⟩, rfl⟩, rfl⟩
  | splits _ found hop => exact absurd ⟨world, f.msgW, hop⟩ (noSplitter _ (List.mem_of_getElem? found))
  | passes | rejectsTo | rejects | invalid => exact ⟨⟨⟨rfl, orig _⟩, rfl⟩, rfl⟩
  | redirected => exact ⟨⟨⟨rfl, MessageWrapper.withMsg_orig _⟩, rfl⟩, rfl⟩
  | chunk pc | allGenerated pc | generateFails pc => exact absurd pc (notGenerating _)
  | pushes => exact ⟨⟨⟨rfl, rfl⟩, trivial⟩, rfl⟩
  | fails | overflows | drops | astray => exact ⟨trivial, rfl⟩

/-- One call goes on, is over with its wrapper pushed, or is over without. -/
theorem walk_single (noSplitter : ∀ filtra ∈ chain, ¬ filtra.Splits) (env : Env) {w : Walk ω} {f : Frame}
    (top : w.frames = [f]) (single : f.pc.generating = false) :
    (∃ g, (w.step chain env).frames = [g] ∧ (w.step chain env).sQueue = w.sQueue ∧
      Whole f g.journey.source g.msgW ∧ g.pc.generating = false) ∨
    (∃ x : Queued, (w.step chain env).frames = [] ∧ (w.step chain env).sQueue.queue = w.sQueue.queue ++ [x] ∧
      Whole f x.journey.source x.msgW) ∨
    (w.step chain env).frames = [] ∧ (w.step chain env).sQueue = w.sQueue := by
  obtain ⟨keeps, notNested⟩ := turn_whole noSplitter single env w.world
  rw [Walk.step_cons chain top]
  revert keeps notNested
  generalize (turn chain env f w.world).1 = next
  intro keeps notNested
  cases next with
  | go g => exact .inl ⟨g, rfl, rfl, keeps⟩
  | nest => cases notNested
  | push g =>
    simp only [Walk.apply]
    split
    case h_1 sQueue pushed =>
      rw [TSQueue.push] at pushed
      split at pushed <;> cases pushed
      exact .inr (.inl ⟨⟨g.msgW, g.journey⟩, rfl, rfl, keeps.1⟩)
    case h_2 => exact .inr (.inr ⟨rfl, rfl⟩)
  | ret | throw => exact .inr (.inr ⟨rfl, rfl⟩)

end Walk

/-! ## The steps -/

namespace Cargo.InOrder

variable {ω : Type} {chain : List (Filtra ω)} {c : Cargo}

/-- The next message is received. -/
theorem receive (inOrder : c.InOrder) (msg : Message) (empty : c.receivingHand = []) :
    ({ c with received := c.received ++ [msg], receivingHand := [⟨c.received.length, msg⟩] } : Cargo).InOrder := by
  have old : ∀ {n : Nat} {m : Message}, c.received[n]? = some m → (c.received ++ [msg])[n]? = some m :=
    fun {n m} h => by rw [List.getElem?_append_left (List.getElem?_eq_some_iff.mp h).1]; exact h
  refine ⟨?_, ?_, fun x member => old (inOrder.queued x member), fun m member => ?_⟩
  · have more : (c.flow ++ [c.received.length]).Sublist (List.range c.received.length ++ [c.received.length]) :=
      inOrder.flow.append (.refl _)
    simpa [Cargo.flow, empty, List.range_succ] using more
  · rcases inOrder.frames with none | ⟨f, single, pc, authentic⟩
    · exact .inl none
    · exact .inr ⟨f, single, pc, old authentic⟩
  · rcases List.mem_append.mp member with queue | hand
    · exact old (inOrder.received m (List.mem_append_left _ queue))
    · cases List.mem_singleton.mp hand
      simp

theorem accept (inOrder : c.InOrder) {m : Received} (hand : c.receivingHand = [m]) :
    ({ c with receivingHand := [], rQueue := c.rQueue ++ [m] } : Cargo).InOrder where
  flow := by simpa [Cargo.flow, hand] using inOrder.flow
  frames := inOrder.frames
  queued := inOrder.queued
  received := by simpa [hand] using inOrder.received

theorem lose (inOrder : c.InOrder) : ({ c with receivingHand := [] } : Cargo).InOrder where
  flow := by
    refine List.Sublist.trans ?_ inOrder.flow
    simp [Cargo.flow]
  frames := inOrder.frames
  queued := inOrder.queued
  received := fun m member => inOrder.received m (by simpa using Or.inl (by simpa using member))

theorem take (inOrder : c.InOrder) {m : Received} {rest : List Received} (queue : c.rQueue = m :: rest)
    (idle : c.frames = []) :
    ({ c with rQueue := rest, frames := [.begin m.number m.msg 0] } : Cargo).InOrder where
  flow := by simpa [Cargo.flow, queue, idle, Frame.begin] using inOrder.flow
  frames := .inr ⟨_, rfl, rfl, inOrder.received m (by simp [queue])⟩
  queued := inOrder.queued
  received := fun m' member => inOrder.received m' (by
    rw [queue]
    exact List.mem_cons_of_mem m member)

theorem walk (noSplitter : ∀ filtra ∈ chain, ¬ filtra.Splits) (inOrder : c.InOrder) {w : Walk ω} {env : Env}
    (frames : w.frames = c.frames) (queue : w.sQueue.queue = c.sQueue) :
    ({ c with
        frames := (w.step chain env).frames
        sQueue := (w.step chain env).sQueue.queue
        limit := (w.step chain env).sQueue.maxSize } : Cargo).InOrder := by
  rcases inOrder.frames with none | ⟨f, single, pc, authentic⟩
  · rw [Walk.step_nil chain (frames.trans none), frames, queue]
    exact ⟨inOrder.flow, inOrder.frames, inOrder.queued, inOrder.received⟩
  · have flow := inOrder.flow
    simp only [Cargo.flow, single, List.map_cons, List.map_nil] at flow
    rcases walk_single noSplitter env (frames.trans single) pc with
      ⟨g, frames', queue', ⟨source, orig⟩, pc'⟩ | ⟨x, frames', queue', source, orig⟩ | ⟨frames', queue'⟩
    · rw [frames', queue', queue]
      refine ⟨?_, .inr ⟨g, rfl, pc', ?_⟩, inOrder.queued, inOrder.received⟩
      · simpa [Cargo.flow, source] using flow
      · simpa [Authentic, source, orig] using authentic
    · rw [frames', queue', queue]
      refine ⟨?_, .inl rfl, fun y member => ?_, inOrder.received⟩
      · simpa [Cargo.flow, source] using flow
      · rw [← List.append_assoc] at member
        rcases List.mem_append.mp member with old | new
        · exact inOrder.queued y old
        · cases List.mem_singleton.mp new
          simpa [Authentic, source, orig] using authentic
    · rw [frames', queue', queue]
      refine ⟨List.Sublist.trans ?_ inOrder.flow, .inl rfl, inOrder.queued, inOrder.received⟩
      simp [Cargo.flow]

theorem pop (inOrder : c.InOrder) {x : Queued} {rest : List Queued} (queue : c.sQueue = x :: rest)
    (empty : c.sendingHand = []) : ({ c with sQueue := rest, sendingHand := [x] } : Cargo).InOrder where
  flow := by simpa [Cargo.flow, queue, empty] using inOrder.flow
  frames := inOrder.frames
  queued := by simpa [queue, empty, Authentic] using inOrder.queued
  received := inOrder.received

theorem send (inOrder : c.InOrder) {x : Queued} (hand : c.sendingHand = [x]) :
    ({ c with sendingHand := [], sent := c.sent ++ [x] } : Cargo).InOrder where
  flow := by simpa [Cargo.flow, hand] using inOrder.flow
  frames := inOrder.frames
  queued := by simpa [hand, Authentic] using inOrder.queued
  received := inOrder.received

theorem moves (noSplitter : ∀ filtra ∈ chain, ¬ filtra.Splits) {d : Cargo} {env : Option Env} (inOrder : c.InOrder)
    (moves : Pipeline.Moves chain env c d) : d.InOrder := by
  cases moves with
  | still => exact inOrder
  | receive _ msg empty => exact inOrder.receive msg empty
  | accept _ m hand => exact inOrder.accept hand
  | lose => exact inOrder.lose
  | take _ m rest queue idle => exact inOrder.take queue idle
  | walk _ w env frames queue _ => exact inOrder.walk noSplitter frames queue
  | pop _ x rest queue empty => exact inOrder.pop queue empty
  | send _ x hand => exact inOrder.send hand

end Cargo.InOrder

namespace Pipeline

variable {ω : Type}

theorem inOrder_of_reaches {chain : List (Filtra ω)} (noSplitter : ∀ filtra ∈ chain, ¬ filtra.Splits) {world : ω}
    {s : Pipeline ω} (reached : Lib.Reaches (step chain) (prepared world) s) : s.cargo.InOrder := by
  have start : (prepared world).cargo.InOrder :=
    ⟨.refl _, .inl rfl, fun _ none => (List.not_mem_nil none).elim, fun _ none => (List.not_mem_nil none).elim⟩
  refine reached.invariant (fun s => s.cargo.InOrder) start fun a s t inOrder h => ?_
  obtain ⟨env, moves, -⟩ := step_moves h
  exact inOrder.moves noSplitter moves

/-- **Order.** Whatever is received, thrown and commanded, the messages handed to
`connector_out_->send` are a subsequence of those that `connector_in_->receive()`
returned: their numbers are increasing, and each holds the message of its number. -/
theorem sent_in_order {chain : List (Filtra ω)} (noSplitter : ∀ filtra ∈ chain, ¬ filtra.Splits) {world : ω}
    {s : Pipeline ω} (reached : Lib.Reaches (step chain) (prepared world) s) :
    (s.sent.map fun x => x.journey.source).Sublist (List.range s.received.length) ∧
    (∀ x ∈ s.sent, s.received[x.journey.source]? = some x.msgW.orig) ∧
    (s.sent.map fun x => x.msgW.orig).Sublist s.received := by
  have inOrder := inOrder_of_reaches noSplitter reached
  have numbers : (s.sent.map fun x => x.journey.source).Sublist (List.range s.received.length) :=
    List.Sublist.trans (by simp [Cargo.flow, cargo]) inOrder.flow
  have messages : ∀ x ∈ s.sent, s.received[x.journey.source]? = some x.msgW.orig := fun x member =>
    inOrder.queued x (List.mem_append_left _ (List.mem_append_left _ member))
  refine ⟨numbers, messages, ?_⟩
  have byNumber := numbers.map fun n => s.received[n]?
  have left : (s.sent.map fun x => x.journey.source).map (fun n => s.received[n]?) =
      (s.sent.map fun x => x.msgW.orig).map some := by
    rw [List.map_map, List.map_map]
    exact List.map_congr_left messages
  have right : (List.range s.received.length).map (fun n => s.received[n]?) = s.received.map some :=
    List.ext_getElem (by simp) fun n _ _ => by simp
  rw [left, right] at byNumber
  simpa [List.filterMap_map] using byNumber.filterMap id

/-! ## A run -/

/-- START, up to the three threads at their loops, for a chain of two filtras. -/
def startUp : List Action :=
  let control := Action.control (.ok ())
  .execute .start :: List.replicate 7 control ++ List.replicate 3 (.sending (.ok ())) ++ List.replicate 2 control ++
    List.replicate 5 (.processing fun _ => {}) ++ List.replicate 2 control ++ List.replicate 3 (.receiving (.ok {})) ++
    [control]

/-- A message is received and handed to the processing thread. -/
def receiveOne (msg : Message) : List Action :=
  List.replicate 4 (.receiving (.ok msg)) ++ List.replicate 5 (.processing fun _ => {})

/-- It goes through both filtras, is taken from `s_queue_` and sent. -/
def sendOne : List Action := List.replicate 8 (.processing fun _ => {}) ++ List.replicate 3 (.sending (.ok ()))

def afterOne : Pipeline Unit :=
  (Lib.exec (step [.plain, .plain]) (startUp ++ receiveOne (.ofString [0x61] .raw) ++ sendOne) (prepared ())).getD
    (prepared ())

/-- STOP, up to the ends of the three threads. -/
def stopDown : List Action :=
  let control := Action.control (.ok ())
  .execute .stop :: List.replicate 5 control ++ List.replicate 3 (.receiving (.ok {})) ++ [control] ++
    List.replicate 2 (.processing fun _ => {}) ++ [control] ++ List.replicate 2 (.processing fun _ => {}) ++
    List.replicate 4 (.sending (.ok ())) ++ List.replicate 4 control

/-- START of a pipeline that has been stopped. -/
def startAgain : List Action :=
  let control := Action.control (.ok ())
  .execute .start :: List.replicate 6 control ++ List.replicate 3 (.sending (.ok ())) ++ List.replicate 2 control ++
    List.replicate 5 (.processing fun _ => {}) ++ List.replicate 2 control ++ List.replicate 3 (.receiving (.ok {})) ++
    [control]

/-- A message goes through, the pipeline is stopped and started again, and another goes through. -/
def restarting : List Action :=
  startUp ++ receiveOne (.ofString [0x61] .raw) ++ sendOne ++ stopDown ++ startAgain ++
    receiveOne (.ofString [0x62] .raw) ++ sendOne

def restarted : Pipeline Unit := (Lib.exec (step [.plain, .plain]) restarting (prepared ())).getD (prepared ())

theorem restarted_exec : Lib.exec (step [.plain, .plain]) restarting (prepared ()) = some restarted :=
  Lib.exec_getD (by decide +kernel)

theorem sent_in_order_restarted :
    (restarted.sent.map fun x => x.msgW.orig).Sublist restarted.received ∧ restarted.sent.length = 2 := by
  have reached : Lib.Reaches (step [.plain, .plain]) (prepared ()) restarted := Lib.exec_reaches restarting restarted_exec
  exact ⟨(sent_in_order (by simp [Filtra.plain_not_splits]) reached).2.2, by decide +kernel⟩

end Pipeline

end M2eBridge
