import M2eBridge.Message

/-!
# The message wrapper

A message travels through a pipeline in a wrapper: the message received (`orig`,
never written), a working copy made when a filtra first asks for it (`alt`, an
invalid message until then), the pass flag, the accumulated metadata and the extras
that filtras have made. The shared pointers to the two messages are the messages themselves.
-/

namespace M2eBridge

structure MessageExtra where
  /-- The key of the last lookup. -/
  key : String := ""
  extras : List (String × Bytes) := []
  deriving Repr

structure MessageWrapper where
  orig : Message
  alt : Message := {}
  isPassed : Bool := false
  metadata : Json := .null
  extra : MessageExtra := {}
  deriving Repr

namespace MessageWrapper

/-- `MessageWrapper(std::shared_ptr<Message>)`. -/
def ofMessage (msg : Message) : MessageWrapper :=
  { orig := msg, alt := {}, isPassed := true, metadata := .null }

/-- The wrapper after `msg()`, which makes the working copy unless there is a valid one. -/
def withMsg (w : MessageWrapper) : MessageWrapper :=
  if w.alt.isValid then w else { w with alt := w.orig.copy }

/-- `msg()`: the working copy of the wrapper it leaves. -/
def msg (w : MessageWrapper) : Message := w.withMsg.alt

/-- A call on the reference that `msg()` returns. -/
def onMsg {α : Type} (w : MessageWrapper) (f : Message → α × Message) : α × MessageWrapper :=
  ((f w.msg).1, { w.withMsg with alt := (f w.msg).2 })

/-- `set_message`: a named rvalue reference is copied. -/
def setMessage (w : MessageWrapper) (msg : Message) : MessageWrapper := { w with alt := msg.copy }

/-- `msg_ptr()`. -/
def msgPtr (w : MessageWrapper) : Message := w.alt

def pass (w : MessageWrapper) : MessageWrapper := { w with isPassed := true }

def reject (w : MessageWrapper) : MessageWrapper := { w with isPassed := false }

def passIf (w : MessageWrapper) (cond : Bool) : MessageWrapper := { w with isPassed := cond }

def addMetadata (w : MessageWrapper) (metadata : Json) : MessageWrapper :=
  { w with metadata := w.metadata.mergePatch metadata }

@[simp] theorem withMsg_orig (w : MessageWrapper) : w.withMsg.orig = w.orig := by
  unfold withMsg; split <;> rfl

@[simp] theorem withMsg_isPassed (w : MessageWrapper) : w.withMsg.isPassed = w.isPassed := by
  unfold withMsg; split <;> rfl

@[simp] theorem withMsg_metadata (w : MessageWrapper) : w.withMsg.metadata = w.metadata := by
  unfold withMsg; split <;> rfl

/-- The flag has nothing to do with the working copy. -/
@[simp] theorem pass_msg (w : MessageWrapper) : w.pass.msg = w.msg := by
  unfold msg withMsg
  split <;> simp_all [pass]

theorem msg_of_valid {w : MessageWrapper} (valid : w.alt.isValid = true) : w.msg = w.alt := by
  simp [msg, withMsg, valid]

@[simp] theorem onMsg_orig {α : Type} (w : MessageWrapper) (f : Message → α × Message) :
    (w.onMsg f).2.orig = w.orig := withMsg_orig w

@[simp] theorem onMsg_isPassed {α : Type} (w : MessageWrapper) (f : Message → α × Message) :
    (w.onMsg f).2.isPassed = w.isPassed := withMsg_isPassed w

@[simp] theorem onMsg_metadata {α : Type} (w : MessageWrapper) (f : Message → α × Message) :
    (w.onMsg f).2.metadata = w.metadata := withMsg_metadata w

end MessageWrapper

end M2eBridge
