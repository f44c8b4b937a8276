import M2eBridge.Substitutions.Encodings
import M2eBridge.Filtras.Carried

/-!
# Object names

`derive_object_name`, which the connectors to S3 and to Cloud Storage have each for themselves, puts the
topic, the time and metadata in the places of a template's placeholders. The two loops are the same but
for the message that they take the topic from, and it has one topic in every wrapper of a pipeline; so
they do the same (`loop_alike`). The offset of the search is kept in an `unsigned int`: the placeholders of the
template are expanded once and no others, as long as the output is shorter than `2^32` bytes at each
placeholder that is replaced (`derive_object_name_alike`).
-/

namespace M2eBridge

/-- `at(key)` and the conversion to a `std::string`: nothing where the library throws. -/
def Json.textAt (j : Json) (key : Bytes) : Option Bytes :=
  match j with
  | .object members =>
    match members.find? fun member => bytesOf member.1 = key with
    | some (_, .string s) => some (bytesOf s)
    | _ => none
  | _ => none

namespace ObjectName

open SubsEngine (pattern replace shown wrapped_keeps written_length replace_found)

/-- What `derive_object_name` returns or throws, and each placeholder that it has expanded, with what stood behind it. -/
structure Naming (ω : Type) where
  result : Except Exn Bytes
  expanded : List (Bytes × Bytes)
  world : ω

variable {ω : Type} (vvalue : ω → Bytes → Except Exn Bytes × ω)

/-- The loop of `derive_object_name` from the offset `pos` on, `none` when the fuel is too little for it. -/
def loop : Nat → Bytes → Nat → ω → Option (Naming ω)
  | 0, _, _, _ => none
  | fuel + 1, fileName, pos, world =>
    match pattern.find (fileName.drop pos) with
    | none => some { result := .ok fileName, expanded := [], world }
    | some found =>
      let ve := found.content
      match vvalue world ve with
      | (.error e, world) => some { result := .error e, expanded := [(ve, found.behind)], world }
      | (.ok value, world) =>
        -- `unsigned int i`
        let i := pos % UInt32.size
        let fileName := replace fileName (i + found.before.length) (pattern.around ve).length value
        let pos := i + found.before.length + value.length
        (loop fuel fileName pos world).map fun out => { out with expanded := (ve, found.behind) :: out.expanded }

/-- The values of some variables, up to the first that has none. -/
def values : ω → List Bytes → List Bytes
  | _, [] => []
  | world, ve :: rest =>
    match vvalue world ve with
    | (.error _, _) => []
    | (.ok value, world) => value :: values world rest

/-- At each placeholder that is replaced the output up to the value before it is shorter than `2^32` bytes. -/
def Fits (written : Nat) : List (Bytes × Bytes) → List Bytes → Prop
  | piece :: pieces, value :: values =>
    written < UInt32.size ∧ Fits (written + piece.1.length + value.length) pieces values
  | _, _ => True

/-- The two have the same name, or a `runtime_error` each. -/
def SameName : Except Exn Bytes → Except Exn Bytes → Prop
  | .ok name, .ok name' => name = name'
  | .error e, .error e' => e.kind = .runtimeError ∧ e'.kind = .runtimeError
  | _, _ => False

variable {vvalue} {fuel pos : Nat} {fileName : Bytes} {world world' : ω} {found : Lib.Found UInt8}

theorem loop_last (none_ : pattern.find (fileName.drop pos) = none) :
    loop vvalue (fuel + 1) fileName pos world = some { result := .ok fileName, expanded := [], world } := by
  simp only [loop, none_]

theorem loop_error (here : pattern.find (fileName.drop pos) = some found) {e : Exn}
    (thrown : vvalue world found.content = (.error e, world')) :
    loop vvalue (fuel + 1) fileName pos world =
      some { result := .error e, expanded := [(found.content, found.behind)], world := world' } := by
  simp only [loop, here, thrown]

theorem loop_ok (here : pattern.find (fileName.drop pos) = some found) {value : Bytes}
    (known : vvalue world found.content = (.ok value, world')) :
    loop vvalue (fuel + 1) fileName pos world =
      (loop vvalue fuel
        (replace fileName (pos % UInt32.size + found.before.length) (pattern.around found.content).length value)
        (pos % UInt32.size + found.before.length + value.length) world').map fun out =>
          { out with expanded := (found.content, found.behind) :: out.expanded } := by
  simp only [loop, here, known]

/-! ## Two loops -/

/-- Loops whose variables have the same values do the same. -/
theorem loop_alike {ω' : Type} {vvalue' : ω' → Bytes → Except Exn Bytes × ω'} (related : ω → ω' → Prop)
    (same : ∀ a b ve, related a b → SameName (vvalue a ve).1 (vvalue' b ve).1 ∧ related (vvalue a ve).2 (vvalue' b ve).2)
    (fuel : Nat) : ∀ (fileName : Bytes) (pos : Nat) (a : ω) (b : ω'), related a b →
      Option.Rel (fun out out' => SameName out.result out'.result ∧ out.expanded = out'.expanded)
        (loop vvalue fuel fileName pos a) (loop vvalue' fuel fileName pos b) := by
  induction fuel with
  | zero => exact fun _ _ _ _ _ => .none
  | succ fuel ih =>
    intro fileName pos a b start
    cases here : pattern.find (fileName.drop pos) with
    | none =>
      rw [loop_last here, loop_last here]
      exact .some ⟨rfl, rfl⟩
    | some found =>
      obtain ⟨alike, next⟩ := same a b found.content start
      rcases one : vvalue a found.content with ⟨e | value, a'⟩ <;>
        rcases two : vvalue' b found.content with ⟨e' | value', b'⟩ <;> rw [one, two] at alike next
      · rw [loop_error here one, loop_error here two]
        exact .some ⟨alike, rfl⟩
      · exact alike.elim
      · exact alike.elim
      · obtain rfl : value = value' := alike
        rw [loop_ok here one, loop_ok here two]
        generalize replace fileName _ _ value = fileName'
        generalize pos % UInt32.size + found.before.length + value.length = pos'
        have later := ih fileName' pos' a' b' next
        generalize loop vvalue fuel fileName' pos' a' = out at later ⊢
        generalize loop vvalue' fuel fileName' pos' b' = out' at later ⊢
        cases later with
        | none => exact .none
        | some both => exact .some ⟨both.1, congrArg _ both.2⟩

/-! ## The placeholders of the template -/

theorem values_error {e : Exn} {ve : Bytes} (rest : List Bytes) (thrown : vvalue world ve = (.error e, world')) :
    values vvalue world (ve :: rest) = [] := by
  rw [values, thrown]

theorem values_ok {value ve : Bytes} (rest : List Bytes) (known : vvalue world ve = (.ok value, world')) :
    values vvalue world (ve :: rest) = value :: values vvalue world' rest := by
  rw [values, known]

/-- The output `done` stands before the text `s` that is still to be searched. -/
theorem loop_own {s : Bytes} {pieces : List (Bytes × Bytes)} {last : Bytes} (split : pattern.Split s pieces last) :
    ∀ (done : Bytes) (world : ω), Fits done.length pieces (values vvalue world (pieces.map Prod.snd)) →
      ∃ out, loop vvalue (pieces.length + 1) (done ++ s) done.length world = some out ∧
        out.expanded <+: pattern.tails pieces last := by
  induction split with
  | last none_ =>
    intro done world _
    rw [loop_last (by rw [List.drop_left]; exact Lib.Delimiters.find_eq_none.mpr none_)]
    exact ⟨_, rfl, List.nil_prefix⟩
  | @piece s found pieces last leftmost rest ih =>
    intro done world fits
    have here : pattern.find ((done ++ s).drop done.length) = some found := by
      rw [List.drop_left]
      exact Lib.Delimiters.find_eq_some.mpr leftmost
    rw [Lib.Delimiters.tails, rest.joined]
    rcases known : vvalue world found.content with ⟨e | value, world'⟩
    · exact ⟨_, loop_error here known, List.prefix_cons_inj _ |>.mpr List.nil_prefix⟩
    · rw [List.map_cons, values_ok _ known] at fits
      obtain ⟨short, fits⟩ := fits
      have size := written_length done found.before value
      rw [size] at fits
      obtain ⟨out, run, own⟩ := ih (done ++ (found.before ++ value)) world' fits
      rw [List.length_cons, loop_ok here known, Nat.mod_eq_of_lt short, replace_found leftmost, size, run]
      exact ⟨_, rfl, (List.prefix_cons_inj _).mpr own⟩

/-- Where there is a placeholder, the search finds one that is not nearer to the end. -/
theorem loop_finds {out : Naming ω} (run : loop vvalue fuel fileName pos world = some out)
    (occurs : pattern.Occurs found (fileName.drop pos)) :
    ∃ content behind rest, out.expanded = (content, behind) :: rest ∧ found.behind.length ≤ behind.length := by
  cases fuel with
  | zero => cases run
  | succ fuel =>
    cases here : pattern.find (fileName.drop pos) with
    | none => exact absurd occurs (Lib.Delimiters.find_eq_none.mp here found)
    | some first =>
      have behind := ((Lib.Delimiters.find_eq_some.mp here).behind occurs).length_le
      rcases known : vvalue world first.content with ⟨e | value, world'⟩
      · rw [loop_error here known] at run
        cases run
        exact ⟨_, _, _, rfl, behind⟩
      · rw [loop_ok here known] at run
        obtain ⟨out, -, rfl⟩ := Option.map_eq_some_iff.mp run
        exact ⟨_, _, _, rfl, behind⟩

/-- Once the offset has wrapped, the placeholder stays and something is found before what stands behind it. -/
theorem loop_wraps {out : Naming ω} (run : loop vvalue (fuel + 1) fileName pos world = some out)
    (leftmost : pattern.Leftmost found (fileName.drop pos)) {value : Bytes}
    (known : vvalue world found.content = (.ok value, world')) (wraps : UInt32.size ≤ pos)
    (short : (pattern.around found.content).length ≤ UInt32.size) :
    ∃ content behind rest, out.expanded = (found.content, found.behind) :: (content, behind) :: rest ∧
      found.behind.length ≤ behind.length := by
  rw [loop_ok (Lib.Delimiters.find_eq_some.mpr leftmost) known] at run
  obtain ⟨out, later, rfl⟩ := Option.map_eq_some_iff.mp run
  obtain ⟨more, text⟩ := wrapped_keeps leftmost wraps short value
  have again : pattern.Occurs { found with before := more } (more ++ (pattern.around found.content ++ found.behind)) :=
    ⟨(List.append_assoc _ _ _).symm, leftmost.occurs.plain⟩
  obtain ⟨content, behind, rest, next, le⟩ := loop_finds later (by rw [text]; exact again)
  exact ⟨content, behind, rest, congrArg _ next, le⟩

/-- Where only its own placeholders are expanded the output is short enough. -/
theorem fits_of_own {s : Bytes} {pieces : List (Bytes × Bytes)} {last : Bytes} (split : pattern.Split s pieces last) :
    ∀ (done : Bytes) (world : ω) (fuel : Nat) (out : Naming ω),
      (∀ piece ∈ pieces, (pattern.around piece.2).length ≤ UInt32.size) →
      loop vvalue fuel (done ++ s) done.length world = some out → out.expanded <+: pattern.tails pieces last →
      Fits done.length pieces (values vvalue world (pieces.map Prod.snd)) := by
  induction split with
  | last => exact fun _ _ _ _ _ _ _ => trivial
  | @piece s found pieces last leftmost rest ih =>
    intro done world fuel out short run own
    obtain ⟨small, short⟩ := List.forall_mem_cons.mp short
    have leftmost' : pattern.Leftmost found ((done ++ s).drop done.length) := by rwa [List.drop_left]
    rw [Lib.Delimiters.tails, rest.joined] at own
    rcases known : vvalue world found.content with ⟨e | value, world'⟩
    · rw [List.map_cons, values_error _ known]
      trivial
    · rw [List.map_cons, values_ok _ known]
      cases fuel with
      | zero => cases run
      | succ fuel =>
        by_cases wraps : UInt32.size ≤ done.length
        · obtain ⟨content, behind, others, expanded, le⟩ := loop_wraps run leftmost' known wraps small
          rw [expanded, List.prefix_cons_inj] at own
          have shorter := Lib.Delimiters.tails_shorter (own.subset List.mem_cons_self)
          rw [rest.joined] at shorter
          omega
        · have here : done.length < UInt32.size := Nat.lt_of_not_le wraps
          have size := written_length done found.before value
          rw [loop_ok (Lib.Delimiters.find_eq_some.mpr leftmost') known, Nat.mod_eq_of_lt here, replace_found leftmost,
            size] at run
          obtain ⟨out, later, rfl⟩ := Option.map_eq_some_iff.mp run
          refine ⟨here, ?_⟩
          rw [size]
          exact ih _ world' fuel out short later ((List.prefix_cons_inj _).mp own)

/-! ## The two connectors -/

variable (clock : ω → Option Bytes × ω)

/-- `generate_timestamp`: the clock gives nothing where `localtime_r` fails. -/
def generateTimestamp (world : ω) : Except Exn Bytes × ω :=
  match clock world with
  | (some timestamp, world) => (.ok timestamp, world)
  | (none, world) => (.error ⟨.runtimeError, "localtime_r() failed"⟩, world)

/-- What a connector puts in the place of a variable: `getTopic` gives it the topic and leaves a wrapper, and in
`place` its exception has not found the variable. -/
def vvalueOf (getTopic : MessageWrapper → String × MessageWrapper) (place : String) (state : ω × MessageWrapper)
    (ve : Bytes) : Except Exn Bytes × (ω × MessageWrapper) :=
  if ve = bytesOf "topic" then
    let (topic, msgW) := getTopic state.2
    (.ok ((bytesOf topic).filter (· ≠ 0x2f)), state.1, msgW)
  else if ve = bytesOf "timestamp" then
    let (timestamp, world) := generateTimestamp clock state.1
    (timestamp, world, state.2)
  else
    match state.2.metadata.textAt ve with
    | some vvalue => (.ok vvalue, state)
    | none => (.error ⟨.runtimeError, "Template variable " ++ shown ve ++ " not found in the " ++ place ++ "!"⟩, state)

end ObjectName

namespace S3Connector

variable {ω : Type} (clock : ω → Option Bytes × ω)

def vvalue : ω × MessageWrapper → Bytes → Except Exn Bytes × (ω × MessageWrapper) :=
  ObjectName.vvalueOf clock (fun msgW => (msgW.orig.msgTopic, msgW)) "payload"

def deriveObjectName (fuel : Nat) (objectNameTemplate : Bytes) (world : ω) (msgW : MessageWrapper) :
    Option (ObjectName.Naming (ω × MessageWrapper)) :=
  ObjectName.loop (vvalue clock) fuel objectNameTemplate 0 (world, msgW)

end S3Connector

namespace CloudStorageConnector

variable {ω : Type} (clock : ω → Option Bytes × ω)

def vvalue : ω × MessageWrapper → Bytes → Except Exn Bytes × (ω × MessageWrapper) :=
  ObjectName.vvalueOf clock (fun msgW => (msgW.msg.msgTopic, msgW.withMsg)) "metadata"

def deriveObjectName (fuel : Nat) (objectNameTemplate : Bytes) (world : ω) (msgW : MessageWrapper) :
    Option (ObjectName.Naming (ω × MessageWrapper)) :=
  ObjectName.loop (vvalue clock) fuel objectNameTemplate 0 (world, msgW)

end CloudStorageConnector

namespace ObjectName

open SubsEngine (pattern shown)

variable {ω : Type}

/-- The connectors come to an end with one name, or with a `runtime_error` each, and have expanded no placeholders
but those of the template, in their order and each of them once. -/
def DeriveAlike (clock : ω → Option Bytes × ω) (template : Bytes) (own : List (Bytes × Bytes)) (world : ω)
    (msgW : MessageWrapper) : Prop :=
  ∃ fuel s3 gcp, S3Connector.deriveObjectName clock fuel template world msgW = some s3 ∧
    CloudStorageConnector.deriveObjectName clock fuel template world msgW = some gcp ∧
    SameName s3.result gcp.result ∧ s3.expanded <+: own ∧ gcp.expanded <+: own

/-- The states of the two loops: the second may have made a working copy, which goes by the same topic. -/
structure Twins (topic : String) (a b : ω × MessageWrapper) : Prop where
  world : a.1 = b.1
  metadata : a.2.metadata = b.2.metadata
  orig : a.2.orig.msgTopic = topic
  carries : b.2.Carries fun m => m.msgTopic = topic

theorem Twins.vvalue (clock : ω → Option Bytes × ω) {topic : String} (a b : ω × MessageWrapper) (ve : Bytes)
    (twins : Twins topic a b) :
    SameName (S3Connector.vvalue clock a ve).1 (CloudStorageConnector.vvalue clock b ve).1 ∧
      Twins topic (S3Connector.vvalue clock a ve).2 (CloudStorageConnector.vvalue clock b ve).2 := by
  obtain ⟨world, a⟩ := a
  obtain ⟨world', b⟩ := b
  obtain ⟨rfl, metadata, orig, carries⟩ := twins
  have copies : ∀ m : Message, m.msgTopic = topic → m.copy.msgTopic = topic := fun _ same => same
  simp only [S3Connector.vvalue, CloudStorageConnector.vvalue, vvalueOf]
  split
  · have same : b.msg.msgTopic = topic := carries.msg copies
    rw [orig, same]
    exact ⟨rfl, rfl, by rw [metadata, MessageWrapper.withMsg_metadata], orig, carries.withMsg copies⟩
  · split
    · unfold generateTimestamp
      rcases clock world with ⟨_ | timestamp, world'⟩
      · exact ⟨⟨rfl, rfl⟩, rfl, metadata, orig, carries⟩
      · exact ⟨rfl, rfl, metadata, orig, carries⟩
    · rw [← metadata]
      cases a.metadata.textAt ve with
      | none => exact ⟨⟨rfl, rfl⟩, rfl, metadata, orig, carries⟩
      | some value => exact ⟨rfl, rfl, metadata, orig, carries⟩

/-- Where the one comes to an end, the other comes to the same. -/
theorem derive_alike {clock : ω → Option Bytes × ω} {topic : String} {world : ω} {msgW : MessageWrapper}
    (carries : msgW.Carries fun m => m.msgTopic = topic) {fuel : Nat} {template : Bytes}
    {s3 : Naming (ω × MessageWrapper)} (run : S3Connector.deriveObjectName clock fuel template world msgW = some s3) :
    ∃ gcp, CloudStorageConnector.deriveObjectName clock fuel template world msgW = some gcp ∧
      SameName s3.result gcp.result ∧ s3.expanded = gcp.expanded := by
  have twins : Twins topic (world, msgW) (world, msgW) := ⟨rfl, rfl, carries.orig, carries⟩
  have alike := loop_alike (Twins topic) (Twins.vvalue clock) fuel template 0 _ _ twins
  unfold S3Connector.deriveObjectName at run
  rw [run] at alike
  unfold CloudStorageConnector.deriveObjectName
  generalize loop (CloudStorageConnector.vvalue clock) fuel template 0 (world, msgW) = other at alike ⊢
  cases alike with
  | some both => exact ⟨_, rfl, both⟩

/-- **Object names.** For every wrapper of a pipeline the two connectors derive one name or throw a `runtime_error`
each, and expand the placeholders of the template and no others, where the output is shorter than `2^32` bytes at
each placeholder that is replaced; and only there, if no placeholder is itself that long. -/
theorem derive_object_name_alike {s : Services} {filtras : List FiltraObject}
    {splitters : Process.SplitterWorld OtherWorld} {env : Nat → Process.Env} {source : Nat} {msg : Message}
    {filtraIx n : Nat} {msgW : MessageWrapper}
    (reached : (Lib.run (Process.Walk.step (filtrasOf s filtras)) env (.begin splitters source msg filtraIx) n).Wrapper msgW)
    {template last : Bytes} {pieces : List (Bytes × Bytes)} (split : pattern.Split template pieces last)
    (clock : ω → Option Bytes × ω) (now : ω) :
    (Fits 0 pieces (values (S3Connector.vvalue clock) (now, msgW) (pieces.map Prod.snd)) →
      DeriveAlike clock template (pattern.tails pieces last) now msgW) ∧
    ((∀ piece ∈ pieces, (pattern.around piece.2).length ≤ UInt32.size) →
      DeriveAlike clock template (pattern.tails pieces last) now msgW →
      Fits 0 pieces (values (S3Connector.vvalue clock) (now, msgW) (pieces.map Prod.snd))) := by
  have carries := Process.wrapper_topic reached
  constructor
  · intro fits
    obtain ⟨s3, run, own⟩ := loop_own split [] (now, msgW) fits
    obtain ⟨gcp, run', same, expanded⟩ := derive_alike carries run
    exact ⟨_, s3, gcp, run, run', same, own, expanded ▸ own⟩
  · rintro short ⟨fuel, s3, gcp, run, -, -, own, -⟩
    exact fits_of_own split [] (now, msgW) fuel s3 short run own

/-- The topic, and the time. -/
def topicTemplate : Bytes := bytesOf "\x7b\x7btopic\x7d\x7d\x7b\x7btimestamp\x7d\x7d"

def topicPieces : List (Bytes × Bytes) := [([], bytesOf "topic"), ([], bytesOf "timestamp")]

theorem topicTemplate_split : pattern.Split topicTemplate topicPieces [] := by
  have first : pattern.Leftmost ⟨[], bytesOf "topic", bytesOf "\x7b\x7btimestamp\x7d\x7d"⟩ topicTemplate :=
    Lib.Delimiters.find_eq_some.mp (by decide)
  have second : pattern.Leftmost ⟨[], bytesOf "timestamp", []⟩ (bytesOf "\x7b\x7btimestamp\x7d\x7d") :=
    Lib.Delimiters.find_eq_some.mp (by decide)
  exact .piece first (.piece second (.last (Lib.Delimiters.find_eq_none.mp rfl)))

def newYear (world : Unit) : Option Bytes × Unit := (some (bytesOf "20250101_0000"), world)

/-- A message goes through a filtra that does nothing. -/
theorem delivered_nop (msg : Message) :
    (Lib.run (Process.Walk.step (filtrasOf Process.plainServices [Process.nopObject])) Process.undisturbed
      (.begin Process.freshWorld 0 msg 0) 5).Wrapper (.ofMessage msg) := by
  obtain ⟨x, queue, same⟩ : ∃ x, (Lib.run (Process.Walk.step (filtrasOf Process.plainServices [Process.nopObject]))
      Process.undisturbed (.begin Process.freshWorld 0 msg 0) 5).sQueue.queue = [x] ∧ x.msgW = .ofMessage msg := ⟨_, rfl, rfl⟩
  exact same ▸ .delivered (queue ▸ List.mem_singleton_self x)

theorem values_topic (msg : Message) :
    values (S3Connector.vvalue newYear) ((), .ofMessage msg) (topicPieces.map Prod.snd) =
      [(bytesOf msg.msgTopic).filter (· ≠ 0x2f), bytesOf "20250101_0000"] := rfl

/-- The slash of a topic is left out. -/
theorem derive_object_name_alike_nop :
    DeriveAlike newYear topicTemplate (pattern.tails topicPieces []) () (.ofMessage (.ofString [1] .raw "a/b")) ∧
      Fits 0 topicPieces [bytesOf "ab", bytesOf "20250101_0000"] := by
  have both := derive_object_name_alike (delivered_nop (.ofString [1] .raw "a/b")) topicTemplate_split newYear ()
  rw [values_topic] at both
  have fits : Fits 0 topicPieces [bytesOf "ab", bytesOf "20250101_0000"] := ⟨by decide, by decide, trivial⟩
  exact ⟨both.1 fits, both.2 (by decide) (both.1 fits)⟩

theorem fits_topic {topic time : Bytes} (fits : Fits 0 topicPieces [topic, time]) : topic.length < UInt32.size := by
  simpa [Fits, topicPieces] using fits.2.1

/-- `2^32` letters and a placeholder, which the template does not have. -/
def longTopic : Bytes := .replicate UInt32.size 0x78 ++ bytesOf "\x7b\x7bc\x7d\x7d"

theorem longTopic_long : UInt32.size ≤ ((bytesOf (shown longTopic)).filter (· ≠ 0x2f)).length := by
  have ascii : longTopic.all (· < 0x80) = true := by
    rw [longTopic, List.all_append, List.all_replicate, Bool.and_eq_true]
    exact ⟨by simp, by decide⟩
  rw [bytesOf_shown ascii, longTopic, List.filter_append, List.length_append, List.filter_replicate]
  simp

/-- The text of a long topic is searched once more. -/
theorem long_topic_expanded : ¬ ∀ (s : Services) (filtras : List FiltraObject)
    (splitters : Process.SplitterWorld OtherWorld) (env : Nat → Process.Env) (source : Nat) (msg : Message)
    (filtraIx n : Nat) (msgW : MessageWrapper) (template last : Bytes) (pieces : List (Bytes × Bytes))
    (clock : Unit → Option Bytes × Unit),
    (Lib.run (Process.Walk.step (filtrasOf s filtras)) env (.begin splitters source msg filtraIx) n).Wrapper msgW →
      pattern.Split template pieces last → DeriveAlike clock template (pattern.tails pieces last) () msgW := by
  intro all
  obtain ⟨fuel, s3, gcp, run, -, -, own, -⟩ := all _ _ _ _ _ _ _ _ _ _ _ _ newYear
    (delivered_nop (.ofString [] .raw (shown longTopic))) topicTemplate_split
  have fits := fits_of_own topicTemplate_split [] _ fuel s3 (by decide) run own
  rw [values_topic] at fits
  exact absurd longTopic_long (Nat.not_le.mpr (fits_topic fits))

end ObjectName

end M2eBridge
