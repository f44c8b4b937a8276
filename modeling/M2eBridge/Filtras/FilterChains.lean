import M2eBridge.Filtras.Carried

/-!
# Chains of filters

A filter decides on a message and is not to change it. What it reads with `get_json` it leaves
decoded, though, to be serialised anew: that leaves the payload where the text is `Settled`, what
serialising makes of the decoded document. `Keeps` is the condition on the filters of a run.
-/

namespace M2eBridge

namespace Message

/-- What `get_raw()` gives, and the format. -/
structure SamePayload (C : Codec) (m m' : Message) : Prop where
  raw : (m'.getRaw C).1 = (m.getRaw C).1
  format : m'.format = m.format

/-- Decoding and serialising gives the text of the payload again. -/
def Settled (C : Codec) (m : Message) : Prop :=
  ∀ text j, (m.getRaw C).1 = .ok text → C.parse text = .ok j → m.format = .json ∧ C.dump j = text

variable {C : Codec} {m m' m'' : Message}

theorem SamePayload.refl (C : Codec) (m : Message) : SamePayload C m m := ⟨rfl, rfl⟩

theorem SamePayload.trans (same : SamePayload C m m') (later : SamePayload C m' m'') : SamePayload C m m'' :=
  ⟨later.raw.trans same.raw, later.format.trans same.format⟩

theorem SamePayload.copy (same : SamePayload C m m') : SamePayload C m m'.copy :=
  ⟨(m'.getRaw_copy C).trans same.raw, same.format⟩

theorem SamePayload.settled (same : SamePayload C m m') (settled : m.Settled C) : m'.Settled C := by
  intro text j raw parsed
  obtain ⟨format, dumped⟩ := settled text j (same.raw.symm.trans raw) parsed
  exact ⟨same.format.trans format, dumped⟩

/-- Serialising leaves the payload. -/
theorem getRaw_same (C : Codec) (m : Message) : SamePayload C m (m.getRaw C).2 := by
  unfold getRaw
  split
  · next serialized => exact ⟨by rw [getRaw_serialized serialized], rfl⟩
  · next serialized =>
    cases format : m.format with
    | json | cbor => exact ⟨by simp [getRaw, serialized, format], format.symm⟩
    | raw | unkn => exact .refl C m

/-- Decoding leaves the payload exactly where there is nothing to decode or the text is settled. -/
theorem getJson_same_iff (C : Codec) (m : Message) :
    SamePayload C m (m.getJson C).2 ↔ m.isSerialized = false ∨ m.Settled C := by
  cases serialized : m.isSerialized with
  | false => simp only [getJson_unserialized serialized, SamePayload.refl, true_or]
  | true =>
    have raw : (m.getRaw C).1 = .ok m.msgRaw := by rw [getRaw_serialized serialized]
    cases parsed : C.parse m.msgRaw with
    | error e =>
      have same : (m.getJson C).2 = m := by simp only [getJson, serialized, if_true, parsed]
      rw [same]
      refine iff_of_true (.refl C m) (.inr fun text j raw' parsed' => ?_)
      cases raw.symm.trans raw'
      cases parsed.symm.trans parsed'
    | ok j =>
      have decoded : (m.getJson C).2 = { m with decodedJson := j, isSerialized := false, format := .json } := by
        simp only [getJson, serialized, if_true, parsed]
      have raw' : ((m.getJson C).2.getRaw C).1 = .ok (C.dump j) := by rw [decoded]; rfl
      constructor
      · intro same
        refine .inr fun text j' there parsed' => ?_
        cases raw.symm.trans there
        cases parsed.symm.trans parsed'
        have kept := raw'.symm.trans (same.raw.trans raw)
        exact ⟨(decoded ▸ same.format).symm, by injection kept⟩
      · rintro (none_ | settled)
        · cases none_
        · obtain ⟨format, dumped⟩ := settled _ j raw parsed
          refine ⟨raw'.trans (by rw [dumped, raw]), ?_⟩
          rw [decoded, format]

/-- What has been decoded is decoded. -/
theorem getJson_decoded (kept : m.isSerialized = false ∨ m.Settled C) :
    (m.getJson C).2.isSerialized = false ∨ (m.getJson C).2.Settled C :=
  kept.elim (fun unserialized => .inl (by rwa [getJson_unserialized unserialized]))
    fun settled => .inr (((getJson_same_iff C m).mpr (.inr settled)).settled settled)

end Message

/-- The filters, and `nop`. -/
def FiltraKind.IsFilter : FiltraKind → Prop
  | .comparator _ | .finder _ | .limiter _ | .throttle _ | .nop => True
  | _ => False

/-- A filter that decodes the payload finds it decoded, or settled if it has the text first. -/
def FiltraKind.Keeps (C : Codec) (base : Filtra.Base) (kind : FiltraKind) (m : Message) : Prop :=
  match kind with
  | .comparator _ => m.isSerialized = false ∨ m.Settled C
  | .finder f => f.Decodes C base m → m.isSerialized = false ∧ ¬ f.ReadsText ∨ m.Settled C
  | _ => True

/-- Whether a finder decodes depends on the payload only. -/
theorem Message.SamePayload.decodes {C : Codec} {m m' : Message} (same : SamePayload C m m') {f : FinderFT}
    {base : Filtra.Base} (decodes : f.Decodes C base m') : f.Decodes C base m :=
  ⟨decodes.1, decodes.2.imp_right fun ⟨keys, found⟩ => ⟨keys, fun reads => same.raw ▸ found reads⟩⟩

/-- The calls of a filter leave the payload. -/
theorem FiltraKind.Keeps.accesses {C : Codec} {base : Filtra.Base} {kind : FiltraKind} (filter : kind.IsFilter)
    {m m' : Message} (keeps : kind.Keeps C base m) (called : Relation.ReflTransGen (kind.Accesses C base) m m') :
    m.SamePayload C m' := by
  suffices both : m.SamePayload C m' ∧ kind.Keeps C base m' from both.1
  induction called with
  | refl => exact ⟨.refl C m, keeps⟩
  | @tail m' m'' _ call ih =>
    obtain ⟨same, keeps'⟩ := ih
    cases kind with
    | comparator c =>
      cases call
      exact ⟨same.trans ((m'.getJson_same_iff C).mpr keeps'), Message.getJson_decoded keeps'⟩
    | finder f =>
      rcases call with ⟨reads, rfl⟩ | ⟨decodes, rfl⟩
      · have kept := m'.getRaw_same C
        refine ⟨same.trans kept, fun decodes => ?_⟩
        rcases keeps' (kept.decodes decodes) with ⟨_, noText⟩ | settled
        · exact absurd reads noText
        · exact .inr (kept.settled settled)
      · have kept := keeps' decodes
        have same' := (m'.getJson_same_iff C).mpr (kept.imp_left And.left)
        refine ⟨same.trans same', fun _ => ?_⟩
        rcases kept with ⟨unserialized, noText⟩ | settled
        · exact .inl ⟨by rwa [Message.getJson_unserialized unserialized], noText⟩
        · exact .inr (same'.settled settled)
    | limiter l =>
      cases call
      exact ⟨same.trans (m'.getRaw_same C), trivial⟩
    | nop | throttle => exact call.elim
    | eraser | builder | splitter | luaConverter | image => exact filter.elim

namespace Process

/-- The filter that the innermost call enters, if it does, leaves the payload of its message. -/
def Walk.LeavesPayload {ω : Type} (C : Codec) (filtras : List FiltraObject) (walk : Walk ω) : Prop :=
  ∀ f rest g, walk.frames = f :: rest → f.pc = .call → filtras[f.filtraIx]? = some g →
    g.kind.Keeps C g.base f.msgW.msg

theorem filters_undivided {s : Services} {filtras : List FiltraObject} (filters : ∀ g ∈ filtras, g.kind.IsFilter) :
    ∀ filtra ∈ filtrasOf s filtras, ¬ filtra.Splits := by
  intro filtra member
  obtain ⟨i, inside, rfl⟩ := List.mem_mapIdx.mp member
  refine FiltraObject.not_splits fun chunkSize kind => ?_
  have filter := filters _ (List.getElem_mem inside)
  rw [kind] at filter
  exact filter

/-- What leaves a chain of filters has the payload of the received message, in a run whose
filters all leave it. -/
theorem filters_keep_payload (s : Services) (filtras : List FiltraObject) (filters : ∀ g ∈ filtras, g.kind.IsFilter)
    (world : SplitterWorld OtherWorld) (env : Nat → Env) (source : Nat) (msg : Message) (filtraIx n : Nat)
    (leaves : ∀ k < n, (Lib.run (Walk.step (filtrasOf s filtras)) env (.begin world source msg filtraIx) k).LeavesPayload
      s.codec filtras) (m : Message)
    (emits : (Lib.run (Walk.step (filtrasOf s filtras)) env (.begin world source msg filtraIx) n).Emits m) :
    msg.SamePayload s.codec m := by
  have copies (m : Message) (same : msg.SamePayload s.codec m) : msg.SamePayload s.codec m.copy := same.copy
  have undivided := Walk.undivided (filters_undivided (s := s) filters) env world source msg filtraIx
  have tracks : Tracks filtras (msg.SamePayload s.codec)
      (Lib.run (Walk.step (filtrasOf s filtras)) env (.begin world source msg filtraIx) n) := by
    refine Tracks.run (fun m same => same.trans (m.getRaw_same s.codec)) copies (.begin (.refl _ _)) env n
      fun k before tracks f rest top => ⟨fun g pc there m called => ?_, fun p pc => ?_⟩
    · have here := (tracks.sound.calls f (top ▸ List.mem_cons_self)).msg copies
      have keeps := leaves k before f rest g top pc there
      exact here.trans (keeps.accesses (filters g (List.mem_of_getElem? there)) called)
    · exact absurd pc (undivided k f (top ▸ List.mem_cons_self) p)
  exact tracks.emits copies emits

/-! ## Instances -/

/-- The library on `{"a": 1}`, with a blank and without. -/
def spacedCodec : Codec :=
  { Message.literalCodec with
    parse := fun
      | [0x7b, 0x22, 0x61, 0x22, 0x3a, 0x20, 0x31, 0x7d] => .ok (.object [("a", .integer 1)])
      | [0x7b, 0x22, 0x61, 0x22, 0x3a, 0x31, 0x7d] => .ok (.object [("a", .integer 1)])
      | _ => .error ⟨.jsonException, "[json.exception.parse_error.101] parse error"⟩
    dump := fun _ => [0x7b, 0x22, 0x61, 0x22, 0x3a, 0x31, 0x7d] }

def spacedServices : Services := { plainServices with codec := spacedCodec }

/-- The filtra of `{"type": "comparator", "operator": "gte", "value_key": "a", "comparand": 0}`. -/
def comparatorObject : FiltraObject where
  config := .object
    [("comparand", .integer 0), ("operator", .string "gte"), ("type", .string "comparator"), ("value_key", .string "a")]
  base := nopObject.base
  built := rfl
  kind := .comparator { operator := .gte, valueKey := "a" }

theorem comparator_filter : ∀ g ∈ [comparatorObject], g.kind.IsFilter := List.forall_mem_singleton.mpr trivial

/-- `{"a":1}`, as the bridge writes it. -/
def tightMessage : Message := .ofString [0x7b, 0x22, 0x61, 0x22, 0x3a, 0x31, 0x7d] .json "t"

/-- `{"a": 1}` -/
def spacedMessage : Message := .ofString [0x7b, 0x22, 0x61, 0x22, 0x3a, 0x20, 0x31, 0x7d] .json "t"

theorem filters_keep_tight :
    ∃ x, (Lib.run (Walk.step (filtrasOf spacedServices [comparatorObject])) undisturbed
      (.begin freshWorld 0 tightMessage 0) 5).sQueue.queue = [x] ∧ tightMessage.SamePayload spacedCodec x.msgW.msg := by
  obtain ⟨x, queue⟩ : ∃ x, (Lib.run (Walk.step (filtrasOf spacedServices [comparatorObject])) undisturbed
      (.begin freshWorld 0 tightMessage 0) 5).sQueue.queue = [x] := ⟨_, rfl⟩
  refine ⟨x, queue, filters_keep_payload spacedServices [comparatorObject] comparator_filter freshWorld undisturbed 0
    tightMessage 0 5 (fun k inside f rest g top pc there => ?_) _ (.delivered (queue ▸ List.mem_singleton_self x))⟩
  obtain rfl | rfl | rfl | rfl | rfl : k = 0 ∨ k = 1 ∨ k = 2 ∨ k = 3 ∨ k = 4 := by omega
  case inr.inl =>
    injection top with head _
    subst head
    cases there
    refine .inr fun text j raw parsed => ?_
    cases raw
    cases parsed
    exact ⟨rfl, rfl⟩
  all_goals
    injection top with head _
    subst head
    exact absurd pc (by decide)

/-- The comparator passes the message on without the blank. -/
theorem comparator_drops_blank :
    ¬ ∀ (s : Services) (filtras : List FiltraObject), (∀ g ∈ filtras, g.kind.IsFilter) →
      ∀ (world : SplitterWorld OtherWorld) (env : Nat → Env) (source : Nat) (msg : Message) (filtraIx n : Nat)
        (m : Message), (Lib.run (Walk.step (filtrasOf s filtras)) env (.begin world source msg filtraIx) n).Emits m →
        msg.SamePayload s.codec m := by
  intro all
  obtain ⟨x, queue, raw⟩ : ∃ x, (Lib.run (Walk.step (filtrasOf spacedServices [comparatorObject])) undisturbed
      (.begin freshWorld 0 spacedMessage 0) 5).sQueue.queue = [x] ∧
      (x.msgW.msg.getRaw spacedCodec).1 = .ok tightMessage.msgRaw := ⟨_, rfl, rfl⟩
  have same := all spacedServices [comparatorObject] comparator_filter freshWorld undisturbed 0 spacedMessage 0 5 _
    (.delivered (queue ▸ List.mem_singleton_self x))
  have texts : Except.ok (ε := Exn) tightMessage.msgRaw = .ok spacedMessage.msgRaw := raw.symm.trans same.raw
  injection texts with texts
  exact absurd texts (by decide)

end Process

end M2eBridge
