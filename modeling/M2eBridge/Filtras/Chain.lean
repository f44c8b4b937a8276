import M2eBridge.Filtras.Factory
import M2eBridge.Messages.Payloads
import M2eBridge.Process.Forward

/-!
# Chains of filtras

What each filtra does to a wrapper, with what it keeps between calls and what it uses that is
not the bridge's: the script of a converter, the image library, the clock. `Carries` is what
every filtra keeps of a wrapper when its messages are kept so.
-/

namespace M2eBridge

/-- What the filtras use. -/
structure Services where
  codec : Codec
  handlers : ImageHandlers
  /-- The fuel of a substitution: one that does not come to its end is taken to throw. -/
  fuel : Nat
  /-- `convert` of a converter's script, after the payloads that it has been given. -/
  convert : String → List Bytes → Bytes → Except Exn Bytes
  /-- An image decoded, resized and encoded. -/
  resized : Bytes → Except Exn Bytes

/-- What the filtras other than the splitters keep between calls, by place, and the clock. -/
structure OtherWorld where
  shared : Json := .null
  clock : Nat → Int
  lastMsgTimes : Nat → Int := fun _ => 0
  converted : Nat → List Bytes := fun _ => []

/-- `LuaConverterFT::process_message`: the script is given the raw text of a copy. -/
def LuaConverterFT.processMessage (C : Codec) (convert : Bytes → Except Exn Bytes) (w : MessageWrapper) :
    Except Exn String × MessageWrapper :=
  match (w.msg.copy.getRaw C).1 >>= convert with
  | .error e => (.error e, w.withMsg)
  | .ok text => (.ok "", (w.onMsg fun m => ((), m.replaceRaw C text)).2.pass)

/-- `ImageFT::process_message`: without `extra` the resized image is thrown away. -/
def ImageFT.processMessage (resized : Bytes → Except Exn Bytes) (i : ImageFT) (w : MessageWrapper) :
    Except Exn String × MessageWrapper :=
  let (payload, w) := w.onMsg Message.getPayloadUchar
  match resized payload with
  | .error e => (.error e, w)
  | .ok payload =>
    if i.extra = "" then (.ok "", w.pass)
    else
      match w.extra.addExtra i.extra payload with
      | (.ok (), extra) => (.ok "", { w with extra }.pass)
      | (.error e, extra) => (.error e, { w with extra })

/-- `BuilderFT::process_message`, with the engine. -/
def BuilderFT.process (s : Services) (shared : Json) (b : BuilderFT) (w : MessageWrapper) :
    Except Exn String × MessageWrapper :=
  let run template env := SubsEngine.substitute (SubsEngine.evaluate s.codec s.handlers) s.fuel template env
  (b.processMessage run s.codec shared w).getD (.error ⟨.runtimeError, "no end"⟩, w)

/-- `process_message` of a filtra at a place of the chain, the splitters apart. -/
def FiltraKind.processMessage (s : Services) (place : Nat) (base : Filtra.Base) (kind : FiltraKind) (world : OtherWorld)
    (w : MessageWrapper) : Except Exn String × MessageWrapper × OtherWorld :=
  match kind with
  | .comparator c => let (hop, w) := c.processMessage s.codec base w; (hop, w, world)
  | .finder f => let (hop, w) := f.processMessage s.codec base w; (hop, w, world)
  | .eraser e => let (hop, w) := Filtra.eraseKeys s.codec base e.keys w; (hop, w, world)
  | .builder b => let (hop, w) := b.process s world.shared w; (hop, w, world)
  | .limiter l => let (hop, w) := l.processMessage s.codec w; (hop, w, world)
  | .nop => (.ok "", w.pass, world)
  | .throttle t =>
    let (hop, w, time) := t.processMessage (world.clock 0) (world.lastMsgTimes place) w
    (hop, w,
      { world with
        clock := fun i => world.clock (i + 1)
        lastMsgTimes := Function.update world.lastMsgTimes place time })
  | .luaConverter l =>
    let before := world.converted place
    let (hop, w') := LuaConverterFT.processMessage s.codec (s.convert l.converterId before) w
    let given := (w.msg.copy.getRaw s.codec).1.toOption.toList
    (hop, w', { world with converted := Function.update world.converted place (before ++ given) })
  | .image i => let (hop, w) := i.processMessage s.resized w; (hop, w, world)
  -- a splitter is not among these
  | .splitter _ => (.ok "", w, world)

/-! ## What a filtra does to its message -/

/-- The text is looked for in the payload as it is. -/
def FinderFT.ReadsText (f : FinderFT) : Prop := f.text ≠ [] ∧ f.valueKey = ""

/-- The payload is decoded: for the value that the text is looked for in, or for the keys,
which are looked for where the text has been found. -/
def FinderFT.Decodes (C : Codec) (f : FinderFT) (base : Filtra.Base) (m : Message) : Prop :=
  base.msgFormat = .json ∧ (f.text ≠ [] ∧ f.valueKey ≠ "" ∨
    f.keys ≠ [] ∧ (f.ReadsText → ∃ data, (m.getRaw C).1 = .ok data ∧ f.findInString data = true))

/-- A call that the filtra makes on the message it looks at, and what the call leaves. -/
def FiltraKind.Accesses (C : Codec) (base : Filtra.Base) (kind : FiltraKind) (m m' : Message) : Prop :=
  match kind with
  | .comparator _ => m' = (m.getJson C).2
  | .finder f => f.ReadsText ∧ m' = (m.getRaw C).2 ∨ f.Decodes C base m ∧ m' = (m.getJson C).2
  | .eraser _ => m' = (m.getJson C).2 ∨ ∃ j, m' = { m with decodedJson := j }
  | .builder b =>
    m.format = .json ∧ m' = (m.getJson C).2 ∨ m.format = .cbor ∧ m' = (m.getCbor C).2 ∨
      b.payload.isEmpty = false ∧ ∃ j, m' = (Message.ofJson j .json m.msgTopic).copy
  | .splitter _ | .limiter _ => m' = (m.getRaw C).2
  | .nop | .throttle _ => False
  | .luaConverter _ => ∃ text, m' = m.replaceRaw C text
  | .image _ => m' = m.getPayloadUchar.2

namespace Message

theorem replaceRaw_origin (C : Codec) (text : Bytes) (m : Message) : SameOrigin m (m.replaceRaw C text) := by
  have read := m.getRaw_origin C
  unfold replaceRaw
  split
  · next called => rw [called] at read; exact ⟨read.topic, read.attributes, read.isValid⟩
  · next called => rw [called] at read; exact read

end Message

/-- A call leaves the topic, the attributes and the validity, unless a builder replaces the payload. -/
theorem FiltraKind.Accesses.origin {C : Codec} {base : Filtra.Base} {kind : FiltraKind} {m m' : Message}
    (accesses : kind.Accesses C base m m') :
    m.SameOrigin m' ∨ ∃ b j, kind = .builder b ∧ b.payload.isEmpty = false ∧
      m' = (Message.ofJson j .json m.msgTopic).copy := by
  cases kind with
  | comparator c => exact .inl (accesses ▸ m.getJson_origin C)
  | finder f =>
    rcases accesses with ⟨-, rfl⟩ | ⟨-, rfl⟩
    · exact .inl (m.getRaw_origin C)
    · exact .inl (m.getJson_origin C)
  | eraser e =>
    rcases accesses with rfl | ⟨j, rfl⟩
    · exact .inl (m.getJson_origin C)
    · exact .inl ⟨rfl, rfl, rfl⟩
  | builder b =>
    rcases accesses with ⟨-, rfl⟩ | ⟨-, rfl⟩ | ⟨payload, j, rfl⟩
    · exact .inl (m.getJson_origin C)
    · exact .inl (m.getCbor_origin C)
    · exact .inr ⟨b, j, rfl, payload, rfl⟩
  | splitter | limiter => exact .inl (accesses ▸ m.getRaw_origin C)
  | nop | throttle => exact accesses.elim
  | luaConverter l =>
    obtain ⟨text, rfl⟩ := accesses
    exact .inl (m.replaceRaw_origin C text)
  | image i => exact .inl (accesses ▸ m.getPayloadUchar_origin)

theorem FiltraKind.Accesses.isValid {C : Codec} {base : Filtra.Base} {kind : FiltraKind} (m m' : Message)
    (accesses : kind.Accesses C base m m') (valid : m.isValid = true) : m'.isValid = true := by
  rcases accesses.origin with same | ⟨b, j, -, -, rfl⟩
  · exact same.isValid.trans valid
  · rfl

/-- What a call of `process_message` leaves of a wrapper: the message received and the
metadata, and a working copy that `calls` have been made on, if it is another. -/
structure Touched (calls : Message → Message → Prop) (w w' : MessageWrapper) : Prop where
  orig : w'.orig = w.orig
  metadata : w'.metadata = w.metadata
  alt : w'.alt = w.alt ∨ Relation.ReflTransGen calls w.msg w'.alt

namespace Touched

variable {calls : Message → Message → Prop} {w w' w'' : MessageWrapper}

theorem congr (touched : Touched calls w w') (orig : w''.orig = w'.orig) (metadata : w''.metadata = w'.metadata)
    (alt : w''.alt = w'.alt) : Touched calls w w'' :=
  ⟨orig.trans touched.orig, metadata.trans touched.metadata, alt ▸ touched.alt⟩

theorem refl (w : MessageWrapper) : Touched calls w w := ⟨rfl, rfl, .inl rfl⟩

theorem withMsg (w : MessageWrapper) : Touched calls w w.withMsg :=
  ⟨MessageWrapper.withMsg_orig w, MessageWrapper.withMsg_metadata w, .inr .refl⟩

theorem onMsg {α : Type} {f : Message → α × Message} (call : calls w.msg (f w.msg).2) : Touched calls w (w.onMsg f).2 :=
  ⟨MessageWrapper.onMsg_orig w f, MessageWrapper.onMsg_metadata w f, .inr (.single call)⟩

/-- The working copy that the next call finds. -/
theorem msg (touched : Touched calls w w') (valid : ∀ m m', calls m m' → m.isValid = true → m'.isValid = true) :
    Relation.ReflTransGen calls w.msg w'.msg := by
  have here : w'.msg = if w'.alt.isValid then w'.alt else w.orig.copy := by
    rw [MessageWrapper.msg, MessageWrapper.withMsg, touched.orig]
    split <;> rfl
  have before : w.msg = if w.alt.isValid then w.alt else w.orig.copy := by
    rw [MessageWrapper.msg, MessageWrapper.withMsg]
    split <;> rfl
  rcases touched.alt with same | called
  · rw [here, same, ← before]
  · cases now : w'.alt.isValid with
    | true => rw [here, if_pos now]; exact called
    | false =>
      have was : w.alt.isValid = false := by
        by_contra some_
        have still : w'.alt.isValid = true := by
          refine Relation.ReflTransGen.rec ?_ (fun _ step valid' => valid _ _ step valid') called
          rw [before, if_pos (by simpa using some_)]
          simpa using some_
        rw [now] at still
        cases still
      rw [here, before, now, was]
      exact .refl

theorem trans (touched : Touched calls w w') (behind : Touched calls w' w'')
    (valid : ∀ m m', calls m m' → m.isValid = true → m'.isValid = true) : Touched calls w w'' := by
  refine ⟨behind.orig.trans touched.orig, behind.metadata.trans touched.metadata, ?_⟩
  rcases behind.alt with same | called
  · rw [same]; exact touched.alt
  · exact .inr ((touched.msg valid).trans called)

theorem passIf (touched : Touched calls w w') (cond : Bool) : Touched calls w (w'.passIf cond) :=
  touched.congr rfl rfl rfl

theorem pass (touched : Touched calls w w') : Touched calls w w'.pass := touched.congr rfl rfl rfl

end Touched

/-! ## Filtra by filtra -/

section Kinds

variable {C : Codec} {base : Filtra.Base} {w : MessageWrapper}

theorem touched_comparator (c : ComparatorFT) :
    Touched ((FiltraKind.comparator c).Accesses C base) w (c.processMessage C base w).2 := by
  have decoded : Touched ((FiltraKind.comparator c).Accesses C base) w (w.onMsg (Message.getJson C)).2 := .onMsg rfl
  unfold ComparatorFT.processMessage
  split
  · next called => rw [called] at decoded; exact decoded
  · next called =>
    rw [called] at decoded
    split
    · exact decoded.passIf _
    · exact decoded

theorem touched_findInKeys (f : FinderFT) (decodes : base.msgFormat = .json → f.Decodes C base w.msg) :
    Touched ((FiltraKind.finder f).Accesses C base) w (f.findInKeys C base w).2 := by
  unfold FinderFT.findInKeys
  split
  · next json =>
    have decoded : Touched ((FiltraKind.finder f).Accesses C base) w (w.onMsg (Message.getJson C)).2 :=
      .onMsg (.inr ⟨decodes json, rfl⟩)
    split
    · next called => rw [called] at decoded; exact decoded
    · next called => rw [called] at decoded; exact decoded
  · exact .refl w

theorem touched_findInValue (f : FinderFT) (text : f.text ≠ []) (key : f.valueKey ≠ "") :
    Touched ((FiltraKind.finder f).Accesses C base) w (f.findInValue C base w).2 := by
  unfold FinderFT.findInValue
  split
  · next json =>
    have decoded : Touched ((FiltraKind.finder f).Accesses C base) w (w.onMsg (Message.getJson C)).2 :=
      .onMsg (.inr ⟨⟨json, .inl ⟨text, key⟩⟩, rfl⟩)
    split
    · next called =>
      rw [called] at decoded
      split
      · exact decoded
      · exact decoded
    · next called => rw [called] at decoded; exact decoded
  · exact .refl w

theorem touched_findText (f : FinderFT) : Touched ((FiltraKind.finder f).Accesses C base) w (f.findText C base w).2 := by
  unfold FinderFT.findText
  split
  · exact .refl w
  · next text =>
    split
    · next key => exact touched_findInValue f text key
    · next key => exact .onMsg (.inl ⟨⟨text, not_not.mp key⟩, rfl⟩)

/-- The text that has been found in the payload is there still. -/
theorem FinderFT.findText_found {f : FinderFT} {w' : MessageWrapper} (found : f.findText C base w = (.ok true, w'))
    (reads : f.ReadsText) : ∃ data, (w'.msg.getRaw C).1 = .ok data ∧ f.findInString data = true := by
  rw [FinderFT.findText, if_neg reads.1, if_neg (not_not.mpr reads.2), Prod.mk.injEq] at found
  obtain ⟨result, rfl⟩ := found
  obtain ⟨data, raw, inText⟩ : ∃ data, (w.msg.getRaw C).1 = .ok data ∧ f.findInString data = true := by
    change ((w.msg.getRaw C).1.map f.findInString) = .ok true at result
    cases raw : (w.msg.getRaw C).1 with
    | error e => rw [raw] at result; cases result
    | ok data => rw [raw] at result; exact ⟨data, rfl, by injection result⟩
  have holds : SplitterFT.Holds C w data w.msg.msgTopic := ⟨raw, rfl⟩
  exact ⟨data, holds.read.raw, inText⟩

theorem touched_finder (f : FinderFT) :
    Touched ((FiltraKind.finder f).Accesses C base) w (f.processMessage C base w).2 := by
  have searched : Touched ((FiltraKind.finder f).Accesses C base) w (f.findText C base w).2 := touched_findText f
  unfold FinderFT.processMessage
  split
  · next called => rw [called] at searched; exact searched
  · next inText w' called =>
    rw [called] at searched
    split
    · next keys =>
      obtain ⟨rfl, keys⟩ := keys
      have keyed := searched.trans
        (touched_findInKeys f fun json => ⟨json, .inr ⟨keys, FinderFT.findText_found called⟩⟩) FiltraKind.Accesses.isValid
      split
      · next called => rw [called] at keyed; exact keyed
      · next called => rw [called] at keyed; exact keyed.passIf _
    · exact searched.passIf _

theorem touched_eraser (e : EraserFT) :
    Touched ((FiltraKind.eraser e).Accesses C base) w (Filtra.eraseKeys C base e.keys w).2 := by
  unfold Filtra.eraseKeys
  split
  · have decoded : Touched ((FiltraKind.eraser e).Accesses C base) w (w.onMsg (Message.getJson C)).2 := .onMsg (.inl rfl)
    split
    · next called =>
      rw [called] at decoded
      refine ⟨decoded.orig, decoded.metadata, .inr ?_⟩
      have read : Relation.ReflTransGen ((FiltraKind.eraser e).Accesses C base) w.msg (w.onMsg (Message.getJson C)).2.alt :=
        .single (.inl rfl)
      rw [called] at read
      exact read.tail (.inr ⟨_, rfl⟩)
    · next called => rw [called] at decoded; exact decoded
  · exact .refl w

theorem touched_limiter (l : LimiterFT) :
    Touched ((FiltraKind.limiter l).Accesses C base) w (l.processMessage C w).2 := by
  have read : Touched ((FiltraKind.limiter l).Accesses C base) w (w.onMsg (Message.getRaw C)).2 := .onMsg rfl
  unfold LimiterFT.processMessage
  split
  · next called => rw [called] at read; exact read.passIf _
  · next called => rw [called] at read; exact read

theorem touched_luaConverter (l : LuaConverterFT) (convert : Bytes → Except Exn Bytes) :
    Touched ((FiltraKind.luaConverter l).Accesses C base) w (LuaConverterFT.processMessage C convert w).2 := by
  unfold LuaConverterFT.processMessage
  split
  · exact .withMsg w
  · next text _ => exact (Touched.onMsg ⟨text, rfl⟩).pass

theorem touched_image (i : ImageFT) (resized : Bytes → Except Exn Bytes) :
    Touched ((FiltraKind.image i).Accesses C base) w (i.processMessage resized w).2 := by
  have read : Touched ((FiltraKind.image i).Accesses C base) w (w.onMsg Message.getPayloadUchar).2 := .onMsg rfl
  unfold ImageFT.processMessage
  dsimp only
  split
  · exact read
  · split
    · exact read.pass
    · split
      · exact read.congr rfl rfl rfl
      · exact read.congr rfl rfl rfl

/-- The message of an engine's environment has been decoded by it, if anything. -/
theorem kept_decoded (b : BuilderFT) (m : Message) :
    Message.Kept C fun m' => Relation.ReflTransGen ((FiltraKind.builder b).Accesses C base) m m' where
  json := fun _ format called => called.tail (.inl ⟨format, rfl⟩)
  cbor := fun _ format called => called.tail (.inr (.inl ⟨format, rfl⟩))

theorem touched_written {handlers : ImageHandlers} {fuel : Nat} {shared : Json} {b : BuilderFT} {output : Json}
    {result : Except Exn Json × EnvObjects}
    (built : BuilderFT.build (fun template env => SubsEngine.substitute (SubsEngine.evaluate C handlers) fuel template env)
      output (w.environment shared) = some result) :
    Touched ((FiltraKind.builder b).Accesses C base) w (w.written result.2) := by
  have kept : Message.Kept C fun m' => Relation.ReflTransGen ((FiltraKind.builder b).Accesses C base) w.msg m' :=
    kept_decoded b w.msg
  have binds : Binds (fun m' => Relation.ReflTransGen ((FiltraKind.builder b).Accesses C base) w.msg m')
      (w.environment shared) := ⟨w.msg, rfl, .refl⟩
  have evaluated (env : EnvObjects) (expression : Bytes)
      (bound : Binds (fun m' => Relation.ReflTransGen ((FiltraKind.builder b).Accesses C base) w.msg m') env) :
      Binds (fun m' => Relation.ReflTransGen ((FiltraKind.builder b).Accesses C base) w.msg m')
        (SubsEngine.evaluate C handlers env expression).2 := SubsEngine.evaluate_binds kept bound expression
  have keeps : BuilderFT.Maintains
      (fun template env => SubsEngine.substitute (SubsEngine.evaluate C handlers) fuel template env)
      (Binds fun m' => Relation.ReflTransGen ((FiltraKind.builder b).Accesses C base) w.msg m') :=
    fun _ _ _ ran bound => SubsEngine.loop_keeps evaluated _ _ ran bound
  obtain ⟨m, bound, called⟩ := BuilderFT.build_keeps keeps built binds
  have alt : (w.written result.2).alt = m := by
    simp only [MessageWrapper.written, EvalState.mapAt_ok.mp bound]
  exact ⟨rfl, rfl, .inr (alt ▸ called)⟩

theorem touched_builder (s : Services) (shared : Json) (b : BuilderFT) :
    Touched ((FiltraKind.builder b).Accesses s.codec base) w (b.process s shared w).2 := by
  have replaced {result : Except Exn Unit × MessageWrapper}
      (ran : b.replacePayload (fun template env => SubsEngine.substitute (SubsEngine.evaluate s.codec s.handlers)
        s.fuel template env) shared w = some result) :
      Touched ((FiltraKind.builder b).Accesses s.codec base) w result.2 := by
    unfold BuilderFT.replacePayload at ran
    split at ran
    · cases ran; exact .refl w
    · next payload =>
      obtain ⟨⟨built, env⟩, builds, rfl⟩ := Option.map_eq_some_iff.mp ran
      have written : Touched ((FiltraKind.builder b).Accesses s.codec base) w (w.written env) := touched_written builds
      cases built with
      | error e => exact written
      | ok j =>
        refine ⟨written.orig, written.metadata, .inr ?_⟩
        exact (written.msg FiltraKind.Accesses.isValid).tail (.inr (.inr ⟨by simpa using payload, j, rfl⟩))
  have extras {w : MessageWrapper} {result : Except Exn Unit × MessageWrapper}
      (ran : b.makeExtras (fun template env => SubsEngine.substitute (SubsEngine.evaluate s.codec s.handlers)
        s.fuel template env) s.codec shared w = some result) :
      Touched ((FiltraKind.builder b).Accesses s.codec base) w result.2 := by
    unfold BuilderFT.makeExtras at ran
    split at ran
    · cases ran; exact .refl w
    · obtain ⟨⟨built, env⟩, builds, rfl⟩ := Option.map_eq_some_iff.mp ran
      have written : Touched ((FiltraKind.builder b).Accesses s.codec base) w (w.written env) := touched_written builds
      cases built with
      | error e => exact written
      | ok j => exact written.congr rfl rfl rfl
  unfold BuilderFT.process
  dsimp only
  cases ran : b.processMessage (fun template env => SubsEngine.substitute (SubsEngine.evaluate s.codec s.handlers)
    s.fuel template env) s.codec shared w with
  | none => exact .refl w
  | some result =>
    unfold BuilderFT.processMessage at ran
    split at ran
    · cases ran
    · next thrown => cases ran; exact replaced thrown
    · next w' first =>
      obtain ⟨⟨made, w''⟩, second, rfl⟩ := Option.map_eq_some_iff.mp ran
      have both := (replaced first).trans (extras second) FiltraKind.Accesses.isValid
      cases made with
      | error e => exact both
      | ok _ => exact both.pass

end Kinds

/-- Whatever a filtra does to a wrapper, it does by the calls of its class. -/
theorem FiltraKind.touched (s : Services) (place : Nat) (base : Filtra.Base) (kind : FiltraKind) (world : OtherWorld)
    (w : MessageWrapper) :
    Touched (kind.Accesses s.codec base) w (kind.processMessage s place base world w).2.1 := by
  cases kind with
  | comparator c => exact touched_comparator c
  | finder f => exact touched_finder f
  | eraser e => exact touched_eraser e
  | builder b => exact touched_builder s world.shared b
  | limiter l => exact touched_limiter l
  | nop => exact (Touched.refl w).pass
  | throttle t =>
    simp only [processMessage, ThrottleFT.processMessage]
    split
    · exact (Touched.refl w).pass
    · exact (Touched.refl w).congr rfl rfl rfl
  | luaConverter l => exact touched_luaConverter l _
  | image i => exact touched_image i s.resized
  | splitter chunkSize => exact .refl w

/-- No filtra but a splitter has another hop than the empty one. -/
theorem FiltraKind.hop_eq {s : Services} {place : Nat} {base : Filtra.Base} {kind : FiltraKind} {world : OtherWorld}
    {w : MessageWrapper} {hop : String} (returned : (kind.processMessage s place base world w).1 = .ok hop) : hop = "" := by
  cases kind with
  | comparator | finder | eraser | limiter | throttle | luaConverter | image =>
    simp only [processMessage, ComparatorFT.processMessage, FinderFT.processMessage, Filtra.eraseKeys,
      LimiterFT.processMessage, ThrottleFT.processMessage, LuaConverterFT.processMessage, ImageFT.processMessage]
      at returned
    repeat' split at returned
    all_goals first | (cases returned; done) | (cases returned; rfl)
  | builder b =>
    simp only [processMessage, BuilderFT.process] at returned
    cases ran : b.processMessage (fun template env => SubsEngine.substitute (SubsEngine.evaluate s.codec s.handlers)
      s.fuel template env) s.codec world.shared w with
    | none => rw [ran] at returned; cases returned
    | some result =>
      rw [ran] at returned
      unfold BuilderFT.processMessage at ran
      split at ran
      · cases ran
      · cases ran; cases returned
      · obtain ⟨⟨made, w''⟩, -, rfl⟩ := Option.map_eq_some_iff.mp ran
        cases made with
        | error e => cases returned
        | ok _ => cases returned; rfl
  | nop | splitter => cases returned; rfl

/-! ## The chain -/

/-- A filtra that has no splitter's state. -/
def FiltraObject.whole (s : Services) (place : Nat) (f : FiltraObject) : Filtra OtherWorld where
  config := f.config
  base := f.base
  built := f.built
  processMessage := fun world w => f.kind.processMessage s place f.base world w
  keepsOrig := fun world w => (f.kind.touched s place f.base world w).orig
  keepsMetadata := fun world w => (f.kind.touched s place f.base world w).metadata

/-- The filtra at a place of the chain. -/
def FiltraObject.filtra (s : Services) (place : Nat) (f : FiltraObject) : Filtra (Process.SplitterWorld OtherWorld) :=
  match f.kind with
  | .splitter chunkSize => Process.splitterAt s.codec chunkSize place f.config f.base f.built
  | _ => Process.beside (f.whole s place)

/-- `filtras_` of the pipeline. -/
def filtrasOf (s : Services) (filtras : List FiltraObject) : List (Filtra (Process.SplitterWorld OtherWorld)) :=
  filtras.mapIdx (FiltraObject.filtra s)

theorem filtrasOf_getElem? {s : Services} {filtras : List FiltraObject} {i : Nat}
    {filtra : Filtra (Process.SplitterWorld OtherWorld)} (found : (filtrasOf s filtras)[i]? = some filtra) :
    ∃ f, filtras[i]? = some f ∧ filtra = f.filtra s i := by
  rw [filtrasOf, List.getElem?_mapIdx] at found
  obtain ⟨f, there, rfl⟩ := Option.map_eq_some_iff.mp found
  exact ⟨f, there, rfl⟩

/-- Only a splitter cuts messages. -/
theorem FiltraObject.not_splits {s : Services} {place : Nat} {f : FiltraObject}
    (whole : ∀ chunkSize, f.kind ≠ .splitter chunkSize) : ¬ (f.filtra s place).Splits := by
  rintro ⟨world, w, self⟩
  unfold FiltraObject.filtra at self
  split at self
  · next chunkSize kind => exact whole chunkSize kind
  · exact absurd (FiltraKind.hop_eq self) (by decide)

/-- In the chain too. -/
theorem FiltraObject.touched (s : Services) (place : Nat) (f : FiltraObject) (world : Process.SplitterWorld OtherWorld)
    (w : MessageWrapper) :
    Touched (f.kind.Accesses s.codec f.base) w ((f.filtra s place).processMessage world w).2.1 := by
  unfold FiltraObject.filtra
  split
  · next chunkSize kind =>
    rw [kind]
    have read : Touched ((FiltraKind.splitter chunkSize).Accesses s.codec f.base) w (w.onMsg (Message.getRaw s.codec)).2 :=
      .onMsg rfl
    simp only [Process.splitterAt, SplitterFT.processMessage]
    split
    · next called =>
      rw [called] at read
      split
      · exact read
      · exact read.pass
    · next called => rw [called] at read; exact read
  · exact f.kind.touched s place f.base world.others w

end M2eBridge
