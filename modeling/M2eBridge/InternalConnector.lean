import M2eBridge.MessageReads
import M2eBridge.Process.Walk

/-!
# The internal connector

`InternalConnector` sends by pushing to its queue the pointer that `msg_ptr()`
gives, which is the working copy whether or not there is one: a wrapper on which
nobody has called `msg()` yet is sent as the invalid message it was made with. So
the subscribers are given the message of the wrapper exactly when the working copy
is valid and the fan-out reaches them (`delivers_iff`).
-/

namespace M2eBridge

namespace InternalConnector

/-- `do_send`. -/
def doSend (queue : InternalQueue Message) (w : MessageWrapper) : Except Exn Unit × InternalQueue Message :=
  queue.push w.msgPtr

/-- `do_receive` on the message popped, and the copy that `Connector::receive` makes. -/
def doReceive (popped : Message) : Message := popped.copy

/-- The message is valid and is the wrapper's: raw payload, format, topic and attributes. -/
structure Represents (C : Codec) (m : Message) (w : MessageWrapper) : Prop where
  valid : m.isValid = true
  raw : (m.getRaw C).1 = (w.msg.getRaw C).1
  format : m.format = w.msg.format
  topic : m.msgTopic = w.msg.msgTopic
  attributes : m.attributes = w.msg.attributes

/-- Sending gives every subscriber with room one message, which represents the
wrapper's, in its buffer and when it receives it. -/
def Delivers (C : Codec) (queue : InternalQueue Message) (w : MessageWrapper) : Prop :=
  ∀ id buffer, (id, buffer) ∈ queue.buffers → buffer.HasRoom →
    ∃ m, (id, { buffer with queue := buffer.queue ++ [m] }) ∈ (doSend queue w).2.buffers ∧
      Represents C m w ∧ Represents C (doReceive m) w

/-- The receiver's copy represents what the message does. -/
theorem Represents.receive {C : Codec} {m : Message} {w : MessageWrapper} (represents : Represents C m w) :
    Represents C (doReceive m) w where
  valid := represents.valid
  raw := (Message.getRaw_copy C m).trans represents.raw
  format := represents.format
  topic := represents.topic
  attributes := represents.attributes

/-- A valid working copy is the message of the wrapper. -/
theorem represents_alt {C : Codec} {w : MessageWrapper} (valid : w.alt.isValid = true) : Represents C w.alt w := by
  have same := MessageWrapper.msg_of_valid valid
  constructor <;> first | exact valid | rw [same]

/-- Every subscriber with room is given the wrapper's message exactly when there is
none to give it to, or the working copy is valid and no full buffer comes before one
with room. -/
theorem delivers {C : Codec} {queue : InternalQueue Message} {w : MessageWrapper} :
    Delivers C queue w ↔
      (∀ b ∈ queue.buffers, ¬ b.2.HasRoom) ∨ w.alt.isValid = true ∧ queue.RoomFirst := by
  constructor
  · intro delivers
    by_cases some : ∃ b ∈ queue.buffers, b.2.HasRoom
    · refine .inr ⟨?_, ?_⟩
      · obtain ⟨⟨id, buffer⟩, member, room⟩ := some
        obtain ⟨m, after, represents, -⟩ := delivers id buffer member room
        have sent : m = w.alt := InternalQueue.push_appended member after
        exact sent ▸ represents.valid
      · have serves : queue.Serves w.alt (queue.push w.alt).2 := by
          intro id buffer member room
          obtain ⟨m, after, -⟩ := delivers id buffer member room
          cases (InternalQueue.push_appended member after : m = w.alt)
          exact after
        exact InternalQueue.serves_iff_roomFirst.mp serves
    · exact .inl fun b member room => some ⟨b, member, room⟩
  · rintro (none | ⟨valid, order⟩) id buffer member room
    · exact absurd room (none _ member)
    · have serves : queue.Serves w.alt (queue.push w.alt).2 := InternalQueue.serves_iff_roomFirst.mpr order
      exact ⟨w.alt, serves id buffer member room, represents_alt valid, (represents_alt valid).receive⟩

/-! ## Chains that never ask for the message -/

open Process (Frame Walk)

variable {ω : Type} {chain : List (Filtra ω)}

/-- The filtra calls neither `msg()` nor `set_message`, and no queue of it is redirected to. -/
structure Silent (filtra : Filtra ω) : Prop where
  keepsAlt : ∀ world w, (filtra.processMessage world w).2.1.alt = w.alt
  nowhere : filtra.getDestinations = []

/-- There is no working copy, and none is about to be made by a redirect. -/
structure Untouched (f : Frame) : Prop where
  alt : f.msgW.alt = {}
  pc : ∀ queuid queues, f.pc ≠ .redirect (queuid :: queues)

theorem Untouched.turn (silent : ∀ filtra ∈ chain, Silent filtra) {f : Frame} (untouched : Untouched f)
    (env : Process.Env) (world : ω) :
    (Process.turn chain env f world).1.Keeps Untouched (fun x => x.msgW.alt = {}) fun _ => True := by
  have left : ∀ {filtra : Filtra ω}, chain[f.filtraIx]? = some filtra →
      (filtra.processMessage world f.msgW).2.1.alt = {} := fun found =>
    ((silent _ (List.mem_of_getElem? found)).keepsAlt world f.msgW).trans untouched.alt
  have kind := Process.turned chain env f world
  generalize (Process.turn chain env f world).1 = next at kind ⊢
  cases kind with
  | outOfLoop | allRedirected | enter => exact ⟨untouched.alt, by simp⟩
  | splits _ found | rejectsTo _ found | rejects _ found | invalid _ found => exact ⟨left found, by simp⟩
  | passes _ found =>
    have nowhere := (silent _ (List.mem_of_getElem? found)).nowhere
    exact ⟨left found, by simp [nowhere]⟩
  | redirected pc | overflows pc => exact absurd pc (untouched.pc _ _)
  | chunk => exact ⟨untouched, rfl, by simp [Frame.cut]⟩
  | pushes => exact ⟨untouched.alt, trivial⟩
  | fails | allGenerated | generateFails | drops | astray => trivial

/-- What a chain of silent filtras pushes, the empty chain included, is delivered to nobody. -/
theorem silent_delivers_iff (silent : ∀ filtra ∈ chain, Silent filtra) (C : Codec) (queue : InternalQueue Message)
    (world : ω) (source : Nat) (msg : Message) (filtraIx : Nat) (env : Nat → Process.Env) (n : Nat) :
    ∀ x ∈ (Lib.run (Walk.step chain) env (.begin world source msg filtraIx) n).sQueue.queue,
      Delivers C queue x.msgW ↔ ∀ b ∈ queue.buffers, ¬ b.2.HasRoom := by
  have start : (Walk.begin world source msg filtraIx).Sound Untouched (fun x => x.msgW.alt = {}) fun _ => True :=
    .begin ⟨rfl, by simp [Frame.begin]⟩
  have sound := start.run (fun _ _ => trivial) (fun env f world untouched => untouched.turn silent env world) env n
  intro x member
  rw [delivers, sound.queue x member]
  simp

/-- **Delivery.** Of every wrapper, from whatever chain; and of what a chain pushes
whose filtras never ask for the message. -/
theorem delivers_iff (C : Codec) (queue : InternalQueue Message) :
    (∀ w : MessageWrapper, Delivers C queue w ↔
      (∀ b ∈ queue.buffers, ¬ b.2.HasRoom) ∨ w.alt.isValid = true ∧ queue.RoomFirst) ∧
    ∀ (ω : Type) (chain : List (Filtra ω)), (∀ filtra ∈ chain, Silent filtra) →
      ∀ world source msg filtraIx env n,
        ∀ x ∈ (Lib.run (Walk.step chain) env (.begin world source msg filtraIx) n).sQueue.queue,
          (Delivers C queue x.msgW ↔ ∀ b ∈ queue.buffers, ¬ b.2.HasRoom) :=
  ⟨fun _ => delivers, fun _ _ silent world source msg filtraIx env n =>
    silent_delivers_iff silent C queue world source msg filtraIx env n⟩

/-- A subscriber with room. -/
def subscribed : InternalQueue Message where
  buffers := [(1, { maxSize := 100 })]
  maxTakenKey := 1
  distinct := by decide
  taken := by decide

/-- A chain of one `NopFT`, which calls no accessor: its subscriber gets an invalid message. -/
theorem nop_chain_sends_invalid :
    ¬ ∀ (chain : List (Filtra Unit)) (msg : Message) (env : Nat → Process.Env) (n : Nat) (queue : InternalQueue Message),
      msg.isValid = true →
      ∀ x ∈ (Lib.run (Process.Walk.step chain) env (.begin () 0 msg 0) n).sQueue.queue,
        Delivers Message.literalCodec queue x.msgW := by
  intro all
  have delivers := all [.plain] (.ofString [0x61] .raw) Process.undisturbed 5 subscribed rfl _ List.mem_cons_self
  obtain ⟨m, after, represents, -⟩ := delivers 1 { maxSize := 100 } List.mem_cons_self (by decide)
  have sent := InternalQueue.push_appended List.mem_cons_self after
  have valid := represents.valid
  rw [sent] at valid
  cases valid

end InternalConnector

end M2eBridge
