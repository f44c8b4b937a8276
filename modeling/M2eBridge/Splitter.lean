import M2eBridge.Lib.Slices
import M2eBridge.MessageReads
import M2eBridge.MessageWrapper

/-!
# The splitter

`SplitterFT` by its two functions, and the loop in which `process` calls the second until
the message it gives is invalid. Between the calls a splitter keeps a counter and the
wrapper that it cuts, which the loop leaves alone. The offset into the data is a product
in 64 unsigned bits, the rest a difference in 64 signed ones.
-/

namespace M2eBridge

/-- The members of `SplitterFT` that change. -/
structure SplitterFT where
  messageId : UInt64
  chunkCounter : Int := -1
  /-- The wrapper of the call that is cut. -/
  msgW : Option MessageWrapper := none

/-- A chunk: what stands behind the marker. -/
structure Chunk where
  messageId : Int
  size : Int
  number : Int
  slice : Bytes
  deriving DecidableEq

namespace Chunk

def toJson (c : Chunk) : Json :=
  .array [.string "____SPL", .integer c.messageId, .integer c.size, .integer c.number, .binary c.slice]

/-- A receiver's reading of the array. -/
def ofJson? : Json → Option Chunk
  | .array [.string marker, .integer messageId, .integer size, .integer number, .binary slice] =>
    if marker = "____SPL" then some { messageId, size, number, slice } else none
  | _ => none

@[simp] theorem ofJson?_toJson (c : Chunk) : ofJson? c.toJson = some c := rfl

/-- The message that the splitter makes of a chunk. -/
def message (topic : String) (c : Chunk) : Message := .ofJson c.toJson .cbor topic

end Chunk

namespace SplitterFT

variable (C : Codec) (chunkSize : UInt64)

def processMessage (s : SplitterFT) (w : MessageWrapper) : Except Exn String × MessageWrapper × SplitterFT :=
  match w.onMsg (Message.getRaw C) with
  | (.ok data, w) =>
    if chunkSize.toNat < data.length then
      (.ok "self", w, { messageId := s.messageId + 1, chunkCounter := 0, msgW := some w })
    else (.ok "", w.pass, s)
  | (.error e, w) => (.error e, w, s)

/-- `chunk_size_ * chunk_counter_`, in `unsigned long`. -/
def chunkStart (counter : Int) : Nat := (chunkSize.toNat * counter % UInt64.size).toNat

/-- `orig_data.end() - chunk_start`, in `long`. -/
def rest (data : Bytes) (counter : Int) : Int := Int.bmod (data.length - chunkStart chunkSize counter) UInt64.size

def generateMessage (s : SplitterFT) : Except Exn Message × SplitterFT :=
  if s.chunkCounter = -1 then (.ok {}, s)
  else
    match s.msgW with
    -- the counter is never set without the wrapper
    | none => (.ok {}, s)
    | some w =>
      match w.onMsg (Message.getRaw C) with
      | (.error e, w) => (.error e, { s with msgW := some w })
      | (.ok data, w) =>
        let rest := rest chunkSize data s.chunkCounter
        if rest ≤ 0 then (.ok {}, { s with msgW := some w })
        else
          let rest := if chunkSize.toNat < rest then chunkSize.toNat else rest.toNat
          let chunk : Chunk :=
            { messageId := s.messageId.toNat
              size := data.length
              number := s.chunkCounter
              slice := (data.drop (chunkStart chunkSize s.chunkCounter)).take rest }
          (.ok (chunk.message w.msg.msgTopic), { s with chunkCounter := s.chunkCounter + 1, msgW := some w })

/-- The loop of `process` over the chunks, `none` when the fuel is too little for it. -/
def generateAll : Nat → SplitterFT → Option (Except Exn (List Message) × SplitterFT)
  | 0, _ => none
  | fuel + 1, s =>
    match generateMessage C chunkSize s with
    | (.error e, s) => some (.error e, s)
    | (.ok msg, s) =>
      if msg.isValid then (generateAll fuel s).map fun (result, s) => (result.map (msg :: ·), s) else some (.ok [], s)

/-- What has become of a message: the hop, its wrapper, and the chunks that were generated. -/
structure Served where
  hop : Except Exn String
  msgW : MessageWrapper
  chunks : Except Exn (List Message)

/-- A message is given to the splitter. -/
def serve (fuel : Nat) (s : SplitterFT) (w : MessageWrapper) : Option (Served × SplitterFT) :=
  match processMessage C chunkSize s w with
  | (hop, msgW, s) =>
    if hop = .ok "self" then
      (generateAll C chunkSize fuel s).map fun (chunks, s) => ({ hop, msgW, chunks }, s)
    else some ({ hop, msgW, chunks := .ok [] }, s)

def serveAll (fuel : Nat) : SplitterFT → List MessageWrapper → Option (List Served × SplitterFT)
  | s, [] => some ([], s)
  | s, w :: stream => do
    let (first, s) ← serve C chunkSize fuel s w
    let (later, s) ← serveAll fuel s stream
    return (first :: later, s)

/-! ## One message -/

/-- The raw text and the topic of what the wrapper holds. -/
structure Holds (w : MessageWrapper) (data : Bytes) (topic : String) : Prop where
  raw : (w.msg.getRaw C).1 = .ok data
  topic : w.msg.msgTopic = topic

variable {C chunkSize}

/-- Reading the raw text leaves the raw text and the topic. -/
theorem Holds.read {w : MessageWrapper} {data : Bytes} {topic : String} (holds : Holds C w data topic) :
    Holds C (w.onMsg (Message.getRaw C)).2 data topic := by
  obtain ⟨raw, same⟩ := holds
  have kept : ((w.msg.getRaw C).2.getRaw C).1 = .ok data ∧ (w.msg.getRaw C).2.msgTopic = topic ∧
      (w.msg.getRaw C).2.isValid = w.msg.isValid := by
    unfold Message.getRaw at raw ⊢
    split at raw
    case isTrue serialized => simp_all
    case isFalse => split at raw <;> simp_all
  cases valid : w.msg.isValid with
  | true =>
    have here : (w.onMsg (Message.getRaw C)).2.msg = (w.msg.getRaw C).2 :=
      MessageWrapper.msg_of_valid (kept.2.2.trans valid)
    exact ⟨here ▸ kept.1, here ▸ kept.2.1⟩
  | false =>
    -- an invalid working copy is made anew from the same original
    have unmade : w.alt.isValid = false := by
      cases made : w.alt.isValid with
      | true => rw [MessageWrapper.msg_of_valid made, made] at valid; cases valid
      | false => rfl
    have unmade' : (w.onMsg (Message.getRaw C)).2.alt.isValid = false := kept.2.2.trans valid
    have here : (w.onMsg (Message.getRaw C)).2.msg = w.msg := by
      have before : w.msg = w.orig.copy := by simp [MessageWrapper.msg, MessageWrapper.withMsg, unmade]
      rw [MessageWrapper.msg, MessageWrapper.withMsg, if_neg (by simp [unmade']), before, MessageWrapper.onMsg_orig]
    exact ⟨here ▸ raw, here ▸ same⟩

/-- The offset of a chunk does not wrap, the rest is the difference, and the counter can be counted on. -/
structure Exact (chunkSize : UInt64) (data : Bytes) (k : Nat) : Prop where
  product : chunkSize.toNat * k < UInt64.size
  start : chunkStart chunkSize k = chunkSize.toNat * k
  rest : rest chunkSize data k = (data.length : Int) - chunkSize.toNat * k
  counter : k < UInt64.size / 2

/-- A string holds less than `2^63` bytes. -/
def Fits (data : Bytes) : Prop := data.length < UInt64.size / 2

theorem exact_of_fits {data : Bytes} {k : Nat} (pos : 0 < chunkSize.toNat) (fits : Fits data)
    (large : chunkSize.toNat < data.length) (inside : k ≤ Lib.sliceCount chunkSize.toNat data.length) :
    Exact chunkSize data k := by
  have size : UInt64.size = 18446744073709551616 := rfl
  -- the chunk before this one begins inside the data
  have bound : chunkSize.toNat * k < data.length + chunkSize.toNat := by
    cases k with
    | zero => simpa using by omega
    | succ k =>
      have before := (Lib.lt_sliceCount_iff pos).mp inside
      rw [Nat.mul_succ]
      omega
  have counter : k ≤ data.length := by
    cases k with
    | zero => exact Nat.zero_le _
    | succ k =>
      have before := (Lib.lt_sliceCount_iff pos).mp inside
      exact Nat.lt_of_le_of_lt (Nat.le_mul_of_pos_left k pos) before
  unfold Fits at fits
  have start : chunkStart chunkSize k = chunkSize.toNat * k := by
    rw [chunkStart, ← Int.natCast_mul, ← Int.natCast_emod, Int.toNat_natCast, Nat.mod_eq_of_lt (by omega)]
  refine ⟨by omega, start, ?_, ?_⟩
  · rw [rest, start, Int.natCast_mul, Int.bmod_eq_of_le_mul_two]
    · omega
    · omega
  · omega

/-- The chunk of number `k`. -/
def chunkAt (chunkSize : Nat) (messageId : UInt64) (data : Bytes) (k : Nat) : Chunk :=
  { messageId := messageId.toNat, size := data.length, number := k, slice := Lib.slice chunkSize k data }

/-- The chunks of a message, under the id. -/
def chunksOf (chunkSize : Nat) (messageId : UInt64) (data : Bytes) : List Chunk :=
  (List.range (Lib.sliceCount chunkSize data.length)).map (chunkAt chunkSize messageId data)

/-- Behind the data the call generates nothing. -/
theorem generateMessage_ended {s : SplitterFT} {w : MessageWrapper} {data : Bytes} {topic : String} {k : Nat}
    (counter : s.chunkCounter = k) (wrapper : s.msgW = some w) (holds : Holds C w data topic)
    (ended : rest chunkSize data k ≤ 0) :
    generateMessage C chunkSize s = (.ok {}, { s with msgW := some (w.onMsg (Message.getRaw C)).2 }) := by
  have started : s.chunkCounter ≠ -1 := by omega
  have raw : w.onMsg (Message.getRaw C) = (.ok data, (w.onMsg (Message.getRaw C)).2) := Prod.ext holds.raw rfl
  simp only [generateMessage, if_neg started, wrapper]
  rw [raw]
  simp only [counter, if_pos ended]

/-- Before the end of the data the call cuts a chunk and counts it. -/
theorem generateMessage_next {s : SplitterFT} {w : MessageWrapper} {data : Bytes} {topic : String} {k : Nat}
    (counter : s.chunkCounter = k) (wrapper : s.msgW = some w) (holds : Holds C w data topic)
    (positive : ¬ rest chunkSize data k ≤ 0) :
    generateMessage C chunkSize s =
      (.ok (Chunk.message topic
          { messageId := s.messageId.toNat
            size := data.length
            number := k
            slice := (data.drop (chunkStart chunkSize k)).take
              (if (chunkSize.toNat : Int) < rest chunkSize data k then chunkSize.toNat else (rest chunkSize data k).toNat) }),
        { s with chunkCounter := k + 1, msgW := some (w.onMsg (Message.getRaw C)).2 }) := by
  have started : s.chunkCounter ≠ -1 := by omega
  have raw : w.onMsg (Message.getRaw C) = (.ok data, (w.onMsg (Message.getRaw C)).2) := Prod.ext holds.raw rfl
  simp only [generateMessage, if_neg started, wrapper]
  rw [raw]
  simp only [counter, if_neg positive, holds.read.topic]

theorem generate_chunk {s : SplitterFT} {w : MessageWrapper} {data : Bytes} {topic : String} {k : Nat}
    (counter : s.chunkCounter = k) (wrapper : s.msgW = some w) (holds : Holds C w data topic)
    (exact : Exact chunkSize data k) (inside : chunkSize.toNat * k < data.length) :
    ∃ w', Holds C w' data topic ∧ generateMessage C chunkSize s =
      (.ok ((chunkAt chunkSize.toNat s.messageId data k).message topic),
        { s with chunkCounter := k + 1, msgW := some w' }) := by
  refine ⟨(w.onMsg (Message.getRaw C)).2, holds.read, ?_⟩
  have positive : ¬ rest chunkSize data k ≤ 0 := by rw [exact.rest]; omega
  -- a rest that is shorter than a slice is a slice
  have slice : (data.drop (chunkStart chunkSize k)).take
      (if (chunkSize.toNat : Int) < rest chunkSize data k then chunkSize.toNat else (rest chunkSize data k).toNat) =
      Lib.slice chunkSize.toNat k data := by
    rw [exact.start, Lib.slice, exact.rest]
    split
    · rfl
    · rw [List.take_of_length_le (by rw [List.length_drop]; omega), List.take_of_length_le (by rw [List.length_drop]; omega)]
  rw [generateMessage_next counter wrapper holds positive, slice]
  rfl

theorem generate_end {s : SplitterFT} {w : MessageWrapper} {data : Bytes} {topic : String} {k : Nat}
    (counter : s.chunkCounter = k) (wrapper : s.msgW = some w) (holds : Holds C w data topic)
    (exact : Exact chunkSize data k) (behind : data.length ≤ chunkSize.toNat * k) :
    ∃ w', Holds C w' data topic ∧ generateMessage C chunkSize s = (.ok {}, { s with msgW := some w' }) := by
  have ended : rest chunkSize data k ≤ 0 := by rw [exact.rest]; omega
  exact ⟨(w.onMsg (Message.getRaw C)).2, holds.read, generateMessage_ended counter wrapper holds ended⟩

/-- The chunks from number `k` on, `n` of them being left. -/
theorem generateAll_from {data : Bytes} {topic : String} (pos : 0 < chunkSize.toNat) (fits : Fits data)
    (large : chunkSize.toNat < data.length) (n : Nat) : ∀ (k : Nat) (s : SplitterFT) (w : MessageWrapper) (fuel : Nat),
    k + n = Lib.sliceCount chunkSize.toNat data.length → s.chunkCounter = k → s.msgW = some w → Holds C w data topic →
    n < fuel →
    ∃ s', s'.messageId = s.messageId ∧ generateAll C chunkSize fuel s =
      some (.ok ((List.range' k n).map fun k => (chunkAt chunkSize.toNat s.messageId data k).message topic), s') := by
  induction n with
  | zero =>
    intro k s w fuel last counter wrapper holds enough
    obtain ⟨fuel, rfl⟩ := Nat.exists_eq_succ_of_ne_zero (Nat.ne_of_gt enough)
    have exact := exact_of_fits (k := k) pos fits large (by omega)
    have behind : data.length ≤ chunkSize.toNat * k :=
      Nat.le_of_not_lt fun begins => by have := (Lib.lt_sliceCount_iff pos).mpr begins; omega
    obtain ⟨w', _, ended⟩ := generate_end counter wrapper holds exact behind
    exact ⟨{ s with msgW := some w' }, rfl, by simp [generateAll, ended]⟩
  | succ n ih =>
    intro k s w fuel last counter wrapper holds enough
    obtain ⟨fuel, rfl⟩ := Nat.exists_eq_succ_of_ne_zero (Nat.ne_of_gt (Nat.lt_of_le_of_lt (Nat.zero_le _) enough))
    have exact := exact_of_fits (k := k) pos fits large (by omega)
    have begins : chunkSize.toNat * k < data.length := (Lib.lt_sliceCount_iff pos).mp (by omega)
    obtain ⟨w', holds', generated⟩ := generate_chunk counter wrapper holds exact begins
    obtain ⟨s', same, later⟩ := ih (k + 1) { s with chunkCounter := k + 1, msgW := some w' } w' fuel (by omega) rfl rfl
      holds' (by omega)
    refine ⟨s', same, ?_⟩
    have valid : ((chunkAt chunkSize.toNat s.messageId data k).message topic).isValid = true := rfl
    simp only [generateAll, generated, valid, if_true, later, Option.map_some, List.range'_succ, List.map_cons]
    rfl

/-! ## Data of any length -/

theorem rest_eq (data : Bytes) (k : Int) :
    rest chunkSize data k = Int.bmod (data.length - chunkSize.toNat * k) UInt64.size := by
  have nonneg : 0 ≤ chunkSize.toNat * k % (UInt64.size : Int) := Int.emod_nonneg _ (by decide)
  rw [rest, chunkStart, Int.toNat_of_nonneg nonneg, Int.sub_emod_bmod]

theorem rest_succ (data : Bytes) (k : Int) :
    rest chunkSize data (k + 1) = Int.bmod (rest chunkSize data k - chunkSize.toNat) UInt64.size := by
  rw [rest_eq, rest_eq, Int.bmod_sub_bmod]
  rw [Int.mul_add, Int.mul_one, Int.sub_sub]

/-- Whatever has wrapped, some rest is not positive: until then they only fall, or, with
a chunk size beyond the signed numbers, only rise. -/
theorem rest_ends (pos : 0 < chunkSize.toNat) (data : Bytes) (k : Int) : ∃ n : Nat, rest chunkSize data (k + n) ≤ 0 := by
  have size : UInt64.size = 18446744073709551616 := rfl
  have bound := chunkSize.toNat_lt
  have above (k : Int) : rest chunkSize data k < 9223372036854775808 := by
    have := Int.bmod_lt (x := data.length - chunkSize.toNat * k) (m := UInt64.size) (by decide)
    rw [rest_eq]
    omega
  have next (k : Int) : rest chunkSize data (k + 1) = _ := rest_succ data k
  simp only [Int.bmod_def, size] at next
  -- the measure is the rest, or how far it is from the greatest number
  have fall : ∀ (m : Nat) (k : Int), (if chunkSize.toNat ≤ 9223372036854775808 then rest chunkSize data k
      else 9223372036854775808 - rest chunkSize data k) ≤ m → ∃ n : Nat, rest chunkSize data (k + n) ≤ 0 := by
    intro m
    induction m with
    | zero =>
      intro k small
      have here := above k
      exact ⟨0, by rw [Int.natCast_zero, Int.add_zero]; split at small <;> omega⟩
    | succ m ih =>
      intro k small
      by_cases ended : rest chunkSize data (k + 1) ≤ 0
      · exact ⟨1, ended⟩
      · by_cases here : rest chunkSize data k ≤ 0
        · exact ⟨0, by simpa using here⟩
        · obtain ⟨n, done⟩ := ih (k + 1) (by have := next k; have := above k; split at small <;> split <;> omega)
          exact ⟨n + 1, by rwa [show k + ((n + 1 : Nat) : Int) = k + 1 + n by omega]⟩
  exact fall _ k (Int.self_le_toNat _)

/-- The splitter is about to generate chunk `k` of the data. -/
structure Cutting (C : Codec) (data : Bytes) (k : Nat) (s : SplitterFT) : Prop where
  counter : s.chunkCounter = k
  wrapper : ∃ w topic, s.msgW = some w ∧ Holds C w data topic

theorem Cutting.ends {s : SplitterFT} {data : Bytes} {k : Nat} (cutting : Cutting C data k s)
    (ended : rest chunkSize data k ≤ 0) : (generateMessage C chunkSize s).1 = .ok {} := by
  obtain ⟨w, topic, wrapper, holds⟩ := cutting.wrapper
  rw [generateMessage_ended cutting.counter wrapper holds ended]

theorem Cutting.next {s : SplitterFT} {data : Bytes} {k : Nat} (cutting : Cutting C data k s)
    (positive : ¬ rest chunkSize data k ≤ 0) : Cutting C data (k + 1) (generateMessage C chunkSize s).2 := by
  obtain ⟨w, topic, wrapper, holds⟩ := cutting.wrapper
  rw [generateMessage_next cutting.counter wrapper holds positive]
  exact ⟨rfl, _, topic, rfl, holds.read⟩

/-- A message whose hop is `"self"` is longer than a chunk, and cut from its first one on. -/
theorem processMessage_cuts {s : SplitterFT} {w : MessageWrapper} (self : (processMessage C chunkSize s w).1 = .ok "self") :
    ∃ data, (w.msg.getRaw C).1 = .ok data ∧ chunkSize.toNat < data.length ∧
      Cutting C data 0 (processMessage C chunkSize s w).2.2 := by
  unfold processMessage at self ⊢
  split at self
  case h_1 data w' read =>
    have raw : (w.msg.getRaw C).1 = .ok data := congrArg Prod.fst read
    have holds : Holds C w data w.msg.msgTopic := ⟨raw, rfl⟩
    split at self
    case isTrue large =>
      rw [if_pos large]
      exact ⟨data, raw, large, rfl, w', _, rfl, congrArg Prod.snd read ▸ holds.read⟩
    case isFalse small => simp at self
  case h_2 => cases self

theorem processMessage_self {s : SplitterFT} {w : MessageWrapper} (self : (processMessage C chunkSize s w).1 = .ok "self") :
    ∃ data, Cutting C data 0 (processMessage C chunkSize s w).2.2 :=
  let ⟨data, _, _, cutting⟩ := processMessage_cuts self
  ⟨data, cutting⟩

/-! ## The end of the loop -/

/-- While the rest is positive, a valid message is generated. -/
theorem Cutting.valid {s : SplitterFT} {data : Bytes} {k : Nat} (cutting : Cutting C data k s)
    (positive : ¬ rest chunkSize data k ≤ 0) :
    ∃ msg, (generateMessage C chunkSize s).1 = .ok msg ∧ msg.isValid = true := by
  obtain ⟨w, topic, wrapper, holds⟩ := cutting.wrapper
  rw [generateMessage_next cutting.counter wrapper holds positive]
  exact ⟨_, rfl, rfl⟩

/-- The loop goes on behind a chunk. -/
theorem Cutting.generateAll_next {s : SplitterFT} {data : Bytes} {k : Nat} (cutting : Cutting C data k s)
    (positive : ¬ rest chunkSize data k ≤ 0) (fuel : Nat) :
    (generateAll C chunkSize (fuel + 1) s).isSome = (generateAll C chunkSize fuel (generateMessage C chunkSize s).2).isSome := by
  obtain ⟨msg, generated, valid⟩ := cutting.valid positive
  obtain ⟨s', called⟩ : ∃ s', generateMessage C chunkSize s = (.ok msg, s') := ⟨_, Prod.ext generated rfl⟩
  simp only [generateAll, called, valid, if_true, Option.isSome_map]

/-- The loop ends at the first rest that is not positive. -/
theorem Cutting.generateAll_ends {data : Bytes} (n : Nat) : ∀ {k : Nat} {s : SplitterFT}, Cutting C data k s →
    rest chunkSize data (k + n) ≤ 0 → ∃ fuel, (generateAll C chunkSize fuel s).isSome = true := by
  induction n with
  | zero =>
    intro k s cutting ended
    have last := cutting.ends (by simpa using ended)
    obtain ⟨s', called⟩ : ∃ s', generateMessage C chunkSize s = (.ok {}, s') := ⟨_, Prod.ext last rfl⟩
    exact ⟨1, by simp [generateAll, called]⟩
  | succ n ih =>
    intro k s cutting ended
    by_cases here : rest chunkSize data k ≤ 0
    · obtain ⟨s', called⟩ : ∃ s', generateMessage C chunkSize s = (.ok {}, s') := ⟨_, Prod.ext (cutting.ends here) rfl⟩
      exact ⟨1, by simp [generateAll, called]⟩
    · obtain ⟨fuel, done⟩ := ih (cutting.next here) (by rwa [show ((k + 1 : Nat) : Int) + n = k + (n + 1 : Nat) by omega])
      exact ⟨fuel + 1, (cutting.generateAll_next here fuel).trans done⟩

/-- A chunk of no bytes leaves all of the data to the next one. -/
theorem Cutting.generateAll_empty {data : Bytes} (fits : Fits data) (nonempty : data ≠ []) (fuel : Nat) :
    ∀ {k : Nat} {s : SplitterFT}, Cutting C data k s → (generateAll C 0 fuel s).isSome = false := by
  have size : UInt64.size = 18446744073709551616 := rfl
  have length := List.length_pos_iff.mpr nonempty
  unfold Fits at fits
  have positive (k : Nat) : ¬ rest 0 data k ≤ 0 := by
    have whole : rest 0 data k = data.length := by
      rw [rest_eq, UInt64.toNat_zero, Int.natCast_zero, Int.zero_mul, Int.sub_zero]
      exact Int.bmod_eq_of_le (by omega) (by omega)
    omega
  induction fuel with
  | zero => exact fun _ => rfl
  | succ fuel ih => exact fun {k} _ cutting => (cutting.generateAll_next (positive k) fuel).trans (ih (cutting.next (positive k)))

/-- The loop behind a call that answers `"self"` ends exactly when the chunk size is not zero. -/
theorem generateAll_ends_iff {s : SplitterFT} {w : MessageWrapper} (self : (processMessage C chunkSize s w).1 = .ok "self")
    (fits : ∀ data, (w.msg.getRaw C).1 = .ok data → Fits data) :
    (∃ fuel, (generateAll C chunkSize fuel (processMessage C chunkSize s w).2.2).isSome = true) ↔ chunkSize ≠ 0 := by
  obtain ⟨data, raw, large, cutting⟩ := processMessage_cuts self
  constructor
  · rintro ⟨fuel, ended⟩ rfl
    have nonempty : data ≠ [] := List.ne_nil_of_length_pos (Nat.zero_lt_of_lt large)
    exact absurd (cutting.generateAll_empty (fits data raw) nonempty fuel ▸ ended) Bool.false_ne_true
  · intro notZero
    have pos : 0 < chunkSize.toNat := by
      refine Nat.pos_of_ne_zero fun zero => notZero ?_
      exact UInt64.toNat_inj.mp zero
    obtain ⟨n, ended⟩ := rest_ends pos data 0
    exact cutting.generateAll_ends n (by simpa using ended)

/-- Six bytes that are cut after the fourth. -/
theorem generateAll_ends_four :
    (∃ fuel, (generateAll Message.literalCodec 4 fuel (processMessage Message.literalCodec 4 { messageId := 7 }
      (.ofMessage (.ofString [1, 2, 3, 4, 5, 6] .raw ""))).2.2).isSome = true) ↔ (4 : UInt64) ≠ 0 :=
  generateAll_ends_iff (by rfl) (by
    intro data raw
    cases raw
    unfold Fits
    decide)

/-- A byte and a chunk size of zero. -/
theorem generateAll_zero : ¬ ∀ (C : Codec) (chunkSize : UInt64) (s : SplitterFT) (w : MessageWrapper),
    (processMessage C chunkSize s w).1 = .ok "self" →
      ∃ fuel, (generateAll C chunkSize fuel (processMessage C chunkSize s w).2.2).isSome = true := by
  intro ends
  have self : (processMessage Message.literalCodec 0 { messageId := 7 } (.ofMessage (.ofString [1] .raw ""))).1 =
      .ok "self" := rfl
  obtain ⟨fuel, ended⟩ := ends _ _ _ _ self
  obtain ⟨data, raw, -, cutting⟩ := processMessage_cuts self
  cases raw
  have fits : Fits [1] := by
    unfold Fits
    decide
  exact absurd (cutting.generateAll_empty fits (by decide) fuel ▸ ended) Bool.false_ne_true

end SplitterFT

end M2eBridge
