import M2eBridge.Filtras.Chain

/-!
# What a chain carries from the received message on

The wrappers of a run, those that splitters keep and those of the chunks among them, hold the
received message, copies of it and what the filtras make of these. `Tracks` is the invariant
for a predicate of messages: one that copies and readings of the raw text keep is kept by a run
whose steps all keep it where a filtra gets the message and where a chunk is made (`Derives`).
-/

namespace M2eBridge

/-- The message received is as `holds` has it, and the working copy if there is one. -/
structure MessageWrapper.Carries (holds : Message → Prop) (w : MessageWrapper) : Prop where
  orig : holds w.orig
  alt : w.alt.isValid = true → holds w.alt

namespace MessageWrapper.Carries

variable {holds : Message → Prop} {w w' : MessageWrapper}

theorem congr (carries : w.Carries holds) (orig : w'.orig = w.orig) (alt : w'.alt = w.alt) : w'.Carries holds where
  orig := orig ▸ carries.orig
  alt := alt ▸ carries.alt

theorem ofMessage {m : Message} (here : holds m) : (MessageWrapper.ofMessage m).Carries holds where
  orig := here
  alt := fun valid => by cases valid

theorem withMsg (copies : ∀ m, holds m → holds m.copy) (carries : w.Carries holds) : w.withMsg.Carries holds := by
  unfold MessageWrapper.withMsg
  split
  · exact carries
  · exact ⟨carries.orig, fun _ => copies _ carries.orig⟩

theorem msg (copies : ∀ m, holds m → holds m.copy) (carries : w.Carries holds) : holds w.msg := by
  unfold MessageWrapper.msg MessageWrapper.withMsg
  split
  · next valid => exact carries.alt valid
  · exact copies _ carries.orig

theorem onMsg {α : Type} {f : Message → α × Message} (carries : w.Carries holds) (left : holds (f w.msg).2) :
    (w.onMsg f).2.Carries holds where
  orig := MessageWrapper.onMsg_orig w f ▸ carries.orig
  alt := fun _ => left

theorem touched {calls : Message → Message → Prop} (carries : w.Carries holds) (touched : Touched calls w w')
    (reached : ∀ m, Relation.ReflTransGen calls w.msg m → holds m) : w'.Carries holds where
  orig := touched.orig ▸ carries.orig
  alt := by
    rcases touched.alt with same | called
    · exact same ▸ carries.alt
    · exact fun _ => reached _ called

end MessageWrapper.Carries

/-! ## Splitters -/

/-- A filtra leaves the wrapper that a splitter keeps, or it is the splitter and keeps the
wrapper that it leaves. -/
theorem FiltraObject.process_splitters (s : Services) (place : Nat) (f : FiltraObject)
    (world : Process.SplitterWorld OtherWorld) (w : MessageWrapper) (p : Nat) :
    (((f.filtra s place).processMessage world w).2.2.splitters p).msgW = (world.splitters p).msgW ∨
      (((f.filtra s place).processMessage world w).2.2.splitters p).msgW =
        some ((f.filtra s place).processMessage world w).2.1 := by
  unfold FiltraObject.filtra
  split
  · next chunkSize _ =>
    by_cases here : p = place
    · subst here
      simp only [Process.splitterAt, Process.SplitterWorld.put_self, SplitterFT.processMessage]
      split
      · split
        · exact .inr rfl
        · exact .inl rfl
      · exact .inl rfl
    · exact .inl (congrArg SplitterFT.msgW (world.put_of_ne _ here))
  · exact .inl rfl

/-- A splitter that is to cut keeps the wrapper that it leaves. -/
theorem FiltraObject.process_self {s : Services} {place : Nat} {f : FiltraObject}
    {world : Process.SplitterWorld OtherWorld} {w : MessageWrapper} {chunkSize : UInt64}
    (kind : f.kind = .splitter chunkSize) (self : ((f.filtra s place).processMessage world w).1 = .ok "self") :
    (((f.filtra s place).processMessage world w).2.2.splitters place).msgW =
      some ((f.filtra s place).processMessage world w).2.1 := by
  simp only [FiltraObject.filtra, kind, Process.splitterAt, Process.SplitterWorld.put_self,
    SplitterFT.processMessage] at self ⊢
  split at self
  · next called =>
    split at self
    · next large => rw [if_pos large]
    · injection self with self; exact absurd self (by decide)
  · cases self

/-- What a splitter makes is a chunk under the topic of the wrapper that it keeps. -/
theorem SplitterFT.generate_message {C : Codec} {chunkSize : UInt64} {s : SplitterFT} {msg : Message}
    (generated : (SplitterFT.generateMessage C chunkSize s).1 = .ok msg) (valid : msg.isValid = true) :
    ∃ w c, s.msgW = some w ∧ msg = Chunk.message (w.onMsg (Message.getRaw C)).2.msg.msgTopic c := by
  unfold SplitterFT.generateMessage at generated
  split at generated
  · cases generated; cases valid
  · split at generated
    · cases generated; cases valid
    · next w kept =>
      split at generated
      · cases generated
      · next called =>
        dsimp only at generated
        split at generated
        · cases generated; cases valid
        · cases generated
          exact ⟨w, _, kept, by rw [called]⟩

/-- The wrapper that a splitter keeps has been read, if anything. -/
theorem SplitterFT.generate_msgW (C : Codec) (chunkSize : UInt64) (s : SplitterFT) :
    (SplitterFT.generateMessage C chunkSize s).2.msgW = s.msgW ∨
      ∃ w, s.msgW = some w ∧
        (SplitterFT.generateMessage C chunkSize s).2.msgW = some (w.onMsg (Message.getRaw C)).2 := by
  unfold SplitterFT.generateMessage
  split
  · exact .inl rfl
  · split
    · exact .inl rfl
    · next w kept =>
      split
      · next called => exact .inr ⟨w, kept, by rw [called]⟩
      · next called =>
        dsimp only
        split
        · exact .inr ⟨w, kept, by rw [called]⟩
        · exact .inr ⟨w, kept, by rw [called]⟩

/-! ## Runs -/

namespace Process

/-- The wrapper that the splitter keeps whose chunks the call goes through. -/
def Frame.Cuts (filtras : List FiltraObject) (holds : Message → Prop) (world : SplitterWorld OtherWorld) (f : Frame) :
    Prop :=
  ∀ p g chunkSize w, f.pc = .generate p → filtras[p]? = some g → g.kind = .splitter chunkSize →
    (world.splitters p).msgW = some w → w.Carries holds

/-- The step of a call keeps what it makes of its message. -/
structure Frame.Derives (s : Services) (filtras : List FiltraObject) (holds : Message → Prop) (f : Frame) : Prop where
  filtra : ∀ g, f.pc = .call → filtras[f.filtraIx]? = some g → ∀ m,
    Relation.ReflTransGen (g.kind.Accesses s.codec g.base) f.msgW.msg m → holds m
  chunk : ∀ p, f.pc = .generate p → ∀ m (c : Chunk), holds m → holds (c.message m.msgTopic)

/-- Every wrapper of the run carries what `holds` has. -/
structure Tracks (filtras : List FiltraObject) (holds : Message → Prop) (walk : Walk (SplitterWorld OtherWorld)) :
    Prop where
  sound : walk.Sound (fun f => f.msgW.Carries holds) (fun x => x.msgW.Carries holds) fun _ => True
  cuts : ∀ f ∈ walk.frames, f.Cuts filtras holds walk.world

section Steps

variable {s : Services} {filtras : List FiltraObject} {holds : Message → Prop} {f : Frame}
  {world : SplitterWorld OtherWorld} {env : Env}

variable (world) in
/-- What a filtra leaves. -/
theorem Frame.Derives.left (derives : f.Derives s filtras holds) (carries : f.msgW.Carries holds) (pc : f.pc = .call)
    {filtra : Filtra (SplitterWorld OtherWorld)} (found : (filtrasOf s filtras)[f.filtraIx]? = some filtra) :
    (filtra.processMessage world f.msgW).2.1.Carries holds := by
  obtain ⟨g, there, rfl⟩ := filtrasOf_getElem? found
  exact carries.touched (g.touched s f.filtraIx world f.msgW) (derives.filtra g pc there)

theorem generate_carries (reads : ∀ m, holds m → holds (m.getRaw s.codec).2) (copies : ∀ m, holds m → holds m.copy)
    (derives : f.Derives s filtras holds) (cuts : f.Cuts filtras holds world) {p : Nat} (pc : f.pc = .generate p)
    {filtra : Filtra (SplitterWorld OtherWorld)} (found : (filtrasOf s filtras)[p]? = some filtra) {msg : Message}
    (generated : (filtra.generateMessage world).1 = .ok msg) (valid : msg.isValid = true) : holds msg := by
  obtain ⟨g, there, rfl⟩ := filtrasOf_getElem? found
  unfold FiltraObject.filtra at generated
  split at generated
  · next chunkSize kind =>
    obtain ⟨w, c, kept, rfl⟩ := SplitterFT.generate_message generated valid
    have carries := cuts p g chunkSize w pc there kind kept
    exact derives.chunk p pc _ c ((carries.onMsg (reads _ (carries.msg copies))).msg copies)
  · cases generated
    cases valid

theorem Frame.Derives.turn (reads : ∀ m, holds m → holds (m.getRaw s.codec).2) (copies : ∀ m, holds m → holds m.copy)
    (derives : f.Derives s filtras holds) (carries : f.msgW.Carries holds) (cuts : f.Cuts filtras holds world) :
    (Process.turn (filtrasOf s filtras) env f world).1.Keeps (fun f => f.msgW.Carries holds)
      (fun x => x.msgW.Carries holds) fun _ => True := by
  have kind := turned (filtrasOf s filtras) env f world
  generalize (Process.turn (filtrasOf s filtras) env f world).1 = next at kind ⊢
  cases kind with
  | outOfLoop | allRedirected => exact carries
  | enter => exact carries.congr rfl rfl
  | splits pc found | passes pc found | rejects pc found => exact derives.left world carries pc found
  | rejectsTo pc found | invalid pc found => exact (derives.left world carries pc found).congr rfl rfl
  | redirected => exact carries.withMsg copies
  | chunk pc found generated valid =>
    exact ⟨carries, .ofMessage (copies _ (generate_carries reads copies derives cuts pc found generated valid))⟩
  | pushes => exact ⟨carries, trivial⟩
  | fails | overflows | allGenerated | generateFails | drops | astray => trivial

variable (env) in
/-- A turn leaves the wrapper that a splitter keeps, or puts one there that carries the same. -/
theorem turn_splitters (reads : ∀ m, holds m → holds (m.getRaw s.codec).2) (copies : ∀ m, holds m → holds m.copy)
    (derives : f.Derives s filtras holds) (carries : f.msgW.Carries holds) (cuts : f.Cuts filtras holds world) (p : Nat) :
    ((turn (filtrasOf s filtras) env f world).2.1.splitters p).msgW = (world.splitters p).msgW ∨
      ∀ w, ((turn (filtrasOf s filtras) env f world).2.1.splitters p).msgW = some w → w.Carries holds := by
  cases pc : f.pc with
  | test | finish => exact .inl (by rw [turn, pc])
  | redirect queues =>
    cases queues with
    | nil => exact .inl (by rw [turn, pc])
    | cons queuid queues => exact .inl (by simp only [turn, pc]; split <;> rfl)
  | call =>
    cases found : (filtrasOf s filtras)[f.filtraIx]? with
    | none => exact .inl (by simp only [turn, pc, found])
    | some filtra =>
      have left := derives.left world carries pc found
      rw [turn_call_world env world pc found]
      obtain ⟨g, there, rfl⟩ := filtrasOf_getElem? found
      rcases g.process_splitters s f.filtraIx world f.msgW p with same | kept
      · exact .inl same
      · exact .inr fun w now => by rw [kept] at now; cases now; exact left
  | generate place =>
    cases found : (filtrasOf s filtras)[place]? with
    | none => exact .inl (by simp only [turn, pc, found])
    | some filtra =>
      rw [turn_generate_world env world pc found]
      obtain ⟨g, there, rfl⟩ := filtrasOf_getElem? found
      unfold FiltraObject.filtra
      split
      · next chunkSize kind =>
        by_cases here : p = place
        · subst here
          simp only [splitterAt, SplitterWorld.put_self]
          rcases SplitterFT.generate_msgW s.codec chunkSize (world.splitters p) with same | ⟨w, kept, now⟩
          · exact .inl same
          · have before := cuts p g chunkSize w pc there kind kept
            exact .inr fun w' there' => by
              rw [now] at there'; cases there'; exact before.onMsg (reads _ (before.msg copies))
        · exact .inl (congrArg SplitterFT.msgW (world.put_of_ne _ here))
      · exact .inl rfl

theorem Frame.Cuts.later {world' : SplitterWorld OtherWorld} (cuts : f.Cuts filtras holds world)
    (kept : ∀ p, (world'.splitters p).msgW = (world.splitters p).msgW ∨
      ∀ w, (world'.splitters p).msgW = some w → w.Carries holds) : f.Cuts filtras holds world' := by
  intro p g chunkSize w pc there kind now
  rcases kept p with same | carries
  · exact cuts p g chunkSize w pc there kind (same ▸ now)
  · exact carries w now

theorem Frame.Cuts.off (off : ∀ p, f.pc ≠ .generate p) : f.Cuts filtras holds world :=
  fun p _ _ _ pc => absurd pc (off p)

/-- The call that goes on after a turn is at a splitter whose wrapper carries the same, if at any. -/
theorem Frame.Derives.cuts (derives : f.Derives s filtras holds) (carries : f.msgW.Carries holds) {g : Frame}
    (goes : (Process.turn (filtrasOf s filtras) env f world).1 = .go g) :
    g.Cuts filtras holds (Process.turn (filtrasOf s filtras) env f world).2.1 := by
  have kind := turned (filtrasOf s filtras) env f world
  rw [goes] at kind
  cases kind with
  | splits pc found hop =>
    intro p g chunkSize w splitter there kind now
    cases splitter
    have left := derives.left world carries pc found
    rw [turn_call_world env world pc found] at now
    obtain ⟨g', there', rfl⟩ := filtrasOf_getElem? found
    cases there.symm.trans there'
    rw [FiltraObject.process_self kind hop] at now
    cases now
    exact left
  | outOfLoop | enter | passes | rejectsTo | rejects | invalid | redirected | allRedirected =>
    exact .off fun p => by simp

theorem Tracks.step (reads : ∀ m, holds m → holds (m.getRaw s.codec).2) (copies : ∀ m, holds m → holds m.copy)
    {walk : Walk (SplitterWorld OtherWorld)} (tracks : Tracks filtras holds walk) (env : Env)
    (derives : ∀ f rest, walk.frames = f :: rest → f.Derives s filtras holds) :
    Tracks filtras holds (walk.step (filtrasOf s filtras) env) where
  sound := tracks.sound.step (fun _ _ => trivial) fun f rest top carries =>
    (derives f rest top).turn reads copies carries (tracks.cuts f (top ▸ List.mem_cons_self))
  cuts := by
    cases top : walk.frames with
    | nil =>
      rw [Walk.step_nil _ top, top]
      exact List.forall_mem_nil _
    | cons f rest =>
      obtain ⟨carries, _⟩ := List.forall_mem_cons.mp (top ▸ tracks.sound.calls)
      obtain ⟨cuts, below⟩ := List.forall_mem_cons.mp (top ▸ tracks.cuts)
      have derives := derives f rest top
      have kept := turn_splitters env reads copies derives carries cuts
      have below' : ∀ g ∈ rest, g.Cuts filtras holds (walk.step (filtrasOf s filtras) env).world := by
        rw [Walk.step_world _ env top]
        exact fun g member => (below g member).later kept
      rcases walk.step_frames (filtrasOf s filtras) env top with ⟨g, next, frames⟩ | ⟨caller, chunk, next, frames⟩ |
        frames | frames
      · rw [frames]
        refine List.forall_mem_cons.mpr ⟨?_, below'⟩
        rw [Walk.step_world _ env top]
        exact derives.cuts carries next
      · rw [frames]
        have kind := turned (filtrasOf s filtras) env f walk.world
        rw [next] at kind
        cases kind with
        | chunk pc =>
          refine List.forall_mem_cons.mpr ⟨.off fun p => by simp [Frame.cut], List.forall_mem_cons.mpr ⟨?_, below'⟩⟩
          rw [Walk.step_world _ env top]
          exact cuts.later kept
      · rw [frames]; exact below'
      · rw [frames]; exact List.forall_mem_nil _

theorem Tracks.begin {source : Nat} {msg : Message} {filtraIx : Nat} (here : holds msg) :
    Tracks filtras holds (.begin world source msg filtraIx) where
  sound := .begin (.ofMessage here)
  cuts := List.forall_mem_singleton.mpr (.off fun p => by simp [Frame.begin])

/-- The run rule: a run whose steps all keep what they make of their messages. -/
theorem Tracks.run (reads : ∀ m, holds m → holds (m.getRaw s.codec).2) (copies : ∀ m, holds m → holds m.copy)
    {walk : Walk (SplitterWorld OtherWorld)} (tracks : Tracks filtras holds walk) (env : Nat → Env) (n : Nat)
    (derives : ∀ k < n, Tracks filtras holds (Lib.run (Walk.step (filtrasOf s filtras)) env walk k) →
      ∀ f rest, (Lib.run (Walk.step (filtrasOf s filtras)) env walk k).frames = f :: rest → f.Derives s filtras holds) :
    Tracks filtras holds (Lib.run (Walk.step (filtrasOf s filtras)) env walk n) := by
  induction n with
  | zero => exact tracks
  | succ n ih =>
    have before := ih fun k earlier => derives k (Nat.lt_succ_of_lt earlier)
    exact before.step reads copies (env n) (derives n (Nat.lt_succ_self n) before)

/-- A message that leaves the chain: one of `s_queue_`, or the one that the step redirects. -/
inductive Walk.Emits {ω : Type} (walk : Walk ω) : Message → Prop where
  | delivered {x : Queued} (queued : x ∈ walk.sQueue.queue) : walk.Emits x.msgW.msg
  | redirected {f : Frame} {rest : List Frame} {queuid : String} {queues : List String} (top : walk.frames = f :: rest)
      (pc : f.pc = .redirect (queuid :: queues)) : walk.Emits f.msgW.withMsg.msg.copy

theorem Tracks.emits (copies : ∀ m, holds m → holds m.copy) {walk : Walk (SplitterWorld OtherWorld)}
    (tracks : Tracks filtras holds walk) {m : Message} (emits : walk.Emits m) : holds m := by
  cases emits with
  | delivered queued => exact (tracks.sound.queue _ queued).msg copies
  | @redirected f _ _ _ top pc =>
    have carries := tracks.sound.calls f (top ▸ List.mem_cons_self)
    exact copies _ ((carries.withMsg copies).msg copies)

end Steps

/-- Where no filtra cuts messages, no call goes through chunks. -/
theorem Walk.undivided {ω : Type} {chain : List (Filtra ω)} (whole : ∀ filtra ∈ chain, ¬ filtra.Splits)
    (env : Nat → Env) (world : ω) (source : Nat) (msg : Message) (filtraIx n : Nat) :
    ∀ f ∈ (Lib.run (Walk.step chain) env (.begin world source msg filtraIx) n).frames, ∀ p, f.pc ≠ .generate p := by
  have start : (Walk.begin world source msg filtraIx).Sound (fun f => ∀ p, f.pc ≠ .generate p) (fun _ => True)
      fun _ => True := .begin fun p pc => by cases pc
  refine (start.run (fun _ _ => trivial) (fun env f world undivided => ?_) env n).calls
  have kind := turned chain env f world
  generalize (Process.turn chain env f world).1 = next at kind ⊢
  cases kind with
  | splits _ found self => exact absurd ⟨world, f.msgW, self⟩ (whole _ (List.mem_of_getElem? found))
  | chunk pc => exact absurd pc (undivided _)
  | pushes => exact ⟨trivial, trivial⟩
  | outOfLoop | enter | passes | rejectsTo | rejects | invalid | redirected | allRedirected =>
    intro p pc
    cases pc
  | fails | overflows | allGenerated | generateFails | drops | astray => trivial

/-! ## The topic and the attributes -/

/-- The next step drops no attributes: a builder that replaces the payload gets a message without,
and so does the splitter that is asked for a chunk. -/
structure Walk.Spares {ω : Type} (filtras : List FiltraObject) (walk : Walk ω) : Prop where
  builder : ∀ f rest g b, walk.frames = f :: rest → f.pc = .call → filtras[f.filtraIx]? = some g →
    g.kind = .builder b → b.payload.isEmpty = false → f.msgW.msg.attributes = []
  splitter : ∀ f rest p, walk.frames = f :: rest → f.pc = .generate p → f.msgW.msg.attributes = []

/-- A message that goes by the topic and the attributes of another. -/
def From (msg m : Message) : Prop := m.msgTopic = msg.msgTopic ∧ m.attributes = msg.attributes

theorem From.derives (s : Services) {filtras : List FiltraObject} {msg : Message} {walk : Walk (SplitterWorld OtherWorld)}
    (tracks : Tracks filtras (From msg) walk) (spares : walk.Spares filtras) {f : Frame} {rest : List Frame}
    (top : walk.frames = f :: rest) : f.Derives s filtras (From msg) := by
  have here : From msg f.msgW.msg := (tracks.sound.calls f (top ▸ List.mem_cons_self)).msg fun _ from_ => from_
  constructor
  · intro g pc there m called
    induction called with
    | refl => exact here
    | tail _ call ih =>
      rcases call.origin with same | ⟨b, j, kind, payload, rfl⟩
      · exact ⟨same.topic.trans ih.1, same.attributes.trans ih.2⟩
      · have none_ := spares.builder f rest g b top pc there kind payload
        exact ⟨ih.1, none_.symm.trans here.2⟩
  · intro p pc m c from_
    have none_ := spares.splitter f rest p top pc
    exact ⟨from_.1, none_.symm.trans here.2⟩

/-- What leaves the chain goes by the topic and the attributes of the received message, in a
run that drops no attributes. -/
theorem emits_from (s : Services) (filtras : List FiltraObject) (world : SplitterWorld OtherWorld) (env : Nat → Env)
    (source : Nat) (msg : Message) (filtraIx n : Nat)
    (spares : ∀ k < n, (Lib.run (Walk.step (filtrasOf s filtras)) env (.begin world source msg filtraIx) k).Spares filtras)
    (m : Message) (emits : (Lib.run (Walk.step (filtrasOf s filtras)) env (.begin world source msg filtraIx) n).Emits m) :
    From msg m := by
  have tracks : Tracks filtras (From msg)
      (Lib.run (Walk.step (filtrasOf s filtras)) env (.begin world source msg filtraIx) n) := by
    refine Tracks.run (fun m from_ => ?_) (fun _ from_ => from_) (.begin ⟨rfl, rfl⟩) env n
      fun k before tracks f rest top => From.derives s tracks (spares k before) top
    have same := m.getRaw_origin s.codec
    exact ⟨same.topic.trans from_.1, same.attributes.trans from_.2⟩
  exact tracks.emits (fun _ from_ => from_) emits

/-- Without attributes there is nothing to drop. -/
theorem spares_of_none {s : Services} {filtras : List FiltraObject} {world : SplitterWorld OtherWorld} {env : Nat → Env}
    {source : Nat} {msg : Message} {filtraIx : Nat} (none_ : msg.attributes = []) (n : Nat) :
    (Lib.run (Walk.step (filtrasOf s filtras)) env (.begin world source msg filtraIx) n).Spares filtras := by
  have copies : ∀ m : Message, m.attributes = [] → m.copy.attributes = [] := fun _ same => same
  have tracks : Tracks filtras (fun m => m.attributes = [])
      (Lib.run (Walk.step (filtrasOf s filtras)) env (.begin world source msg filtraIx) n) := by
    refine Tracks.run (fun m same => (m.getRaw_origin s.codec).attributes.trans same) copies (.begin none_) env n ?_
    intro k _ tracks f rest top
    have here := (tracks.sound.calls f (top ▸ List.mem_cons_self)).msg copies
    refine ⟨fun g _ _ m called => ?_, fun _ _ _ _ _ => rfl⟩
    induction called with
    | refl => exact here
    | tail _ call ih =>
      rcases call.origin with same | ⟨b, j, -, -, rfl⟩
      · exact same.attributes.trans ih
      · rfl
  exact
    { builder := fun f rest g b top _ _ _ _ => (tracks.sound.calls f (top ▸ List.mem_cons_self)).msg copies
      splitter := fun f rest p top _ => (tracks.sound.calls f (top ▸ List.mem_cons_self)).msg copies }

/-- A wrapper of the run: that of a call, or one in `s_queue_`. -/
inductive Walk.Wrapper {ω : Type} (walk : Walk ω) : MessageWrapper → Prop where
  | call {f : Frame} (member : f ∈ walk.frames) : walk.Wrapper f.msgW
  | delivered {x : Queued} (queued : x ∈ walk.sQueue.queue) : walk.Wrapper x.msgW

/-- Every wrapper of a run has the topic of the received message, and so has its working copy. -/
theorem wrapper_topic {s : Services} {filtras : List FiltraObject} {world : SplitterWorld OtherWorld} {env : Nat → Env}
    {source : Nat} {msg : Message} {filtraIx n : Nat} {w : MessageWrapper}
    (reached : (Lib.run (Walk.step (filtrasOf s filtras)) env (.begin world source msg filtraIx) n).Wrapper w) :
    w.Carries fun m => m.msgTopic = msg.msgTopic := by
  have copies : ∀ m : Message, m.msgTopic = msg.msgTopic → m.copy.msgTopic = msg.msgTopic := fun _ same => same
  have tracks : Tracks filtras (fun m => m.msgTopic = msg.msgTopic)
      (Lib.run (Walk.step (filtrasOf s filtras)) env (.begin world source msg filtraIx) n) := by
    refine Tracks.run (fun m same => (m.getRaw_origin s.codec).topic.trans same) copies (.begin rfl) env n ?_
    intro k _ tracks f rest top
    have here := (tracks.sound.calls f (top ▸ List.mem_cons_self)).msg copies
    refine ⟨fun g _ _ m called => ?_, fun _ _ _ _ same => same⟩
    induction called with
    | refl => exact here
    | tail _ call ih =>
      rcases call.origin with same | ⟨b, j, -, -, rfl⟩
      · exact same.topic.trans ih
      · exact ih
  cases reached with
  | call member => exact tracks.sound.calls _ member
  | delivered queued => exact tracks.sound.queue _ queued

/-- The filtra of `{"type": "nop"}`. -/
def nopObject : FiltraObject where
  config := (Filtra.plain : Filtra Unit).config
  base := (Filtra.plain : Filtra Unit).base
  built := (Filtra.plain : Filtra Unit).built
  kind := .nop

/-- The filtra of `{"type": "builder", "payload": {"a": true}}`. -/
def builderObject : FiltraObject where
  config := .object [("type", .string "builder"), ("payload", .object [("a", .boolean true)])]
  base := nopObject.base
  built := rfl
  kind := .builder { payload := .object [("a", .boolean true)] }

/-- Services that no filtra of these uses. -/
def plainServices : Services where
  codec := Message.literalCodec
  handlers := none
  fuel := 0
  convert := fun _ _ data => .ok data
  resized := fun data => .ok data

/-- Nothing has been through the chain. -/
def freshWorld : SplitterWorld OtherWorld where
  splitters := fun _ => { messageId := 0 }
  others := { clock := fun _ => 0 }

/-- A message with an attribute. -/
def attributed : Message := { Message.ofString [] .raw "t" with attributes := [("k", "v")] }

/-- The filtra of `{"type": "splitter", "chunk_size": 2}`. -/
def splitterObject : FiltraObject where
  config := .object [("chunk_size", .integer 2), ("type", .string "splitter")]
  base := nopObject.base
  built := rfl
  kind := .splitter 2

/-- A message of three bytes. -/
def threeBytes : Message := .ofString [1, 2, 3] .raw "t"

/-- Both chunks of it have been built anew. -/
def chunksBuilt : Walk (SplitterWorld OtherWorld) :=
  Lib.run (Walk.step (filtrasOf plainServices [splitterObject, builderObject])) undisturbed (.begin freshWorld 0 threeBytes 0) 20

theorem emits_from_built :
    ∃ x y, chunksBuilt.sQueue.queue = [x, y] ∧ From threeBytes x.msgW.msg ∧ From threeBytes y.msgW.msg := by
  obtain ⟨x, y, queue⟩ : ∃ x y, chunksBuilt.sQueue.queue = [x, y] := ⟨_, _, rfl⟩
  have emits (z : Queued) (queued : z ∈ chunksBuilt.sQueue.queue) : From threeBytes z.msgW.msg :=
    emits_from plainServices [splitterObject, builderObject] freshWorld undisturbed 0 threeBytes 0 20
      (fun k _ => spares_of_none rfl k) _ (.delivered queued)
  exact ⟨x, y, queue, emits x (by simp [queue]), emits y (by simp [queue])⟩

/-- A builder makes its message anew. -/
theorem builder_drops_attributes :
    ¬ ∀ (s : Services) (filtras : List FiltraObject) (world : SplitterWorld OtherWorld) (env : Nat → Env)
      (source : Nat) (msg : Message) (filtraIx n : Nat) (m : Message),
      (Lib.run (Walk.step (filtrasOf s filtras)) env (.begin world source msg filtraIx) n).Emits m → From msg m := by
  intro all
  obtain ⟨x, queue, none_⟩ : ∃ x, (Lib.run (Walk.step (filtrasOf plainServices [builderObject])) undisturbed
      (.begin freshWorld 0 attributed 0) 5).sQueue.queue = [x] ∧ x.msgW.msg.attributes = [] := ⟨_, rfl, rfl⟩
  have from_ := all plainServices [builderObject] freshWorld undisturbed 0 attributed 0 5 _
    (.delivered (queue ▸ List.mem_singleton_self x))
  exact absurd (none_.symm.trans from_.2) (by decide)

end Process

end M2eBridge
