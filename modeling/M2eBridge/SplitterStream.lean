import Mathlib.Data.List.Sort
import M2eBridge.MessageReads
import M2eBridge.Splitter

/-!
# A stream through a splitter

What a stream of messages comes to, one after another (`serveAll_eq`), and what a
receiver of all the chunks can do: the ids of the messages that were cut are different
as long as the counter does not come round, so the chunks of one id, in the order of
their numbers, are the message (`splitter_stream`).
-/

namespace M2eBridge

namespace SplitterFT

variable (C : Codec) (chunkSize : UInt64)

/-- The message is longer than a chunk. -/
def cuts (w : MessageWrapper) : Bool :=
  match (w.msg.getRaw C).1 with
  | .ok data => chunkSize.toNat < data.length
  | .error _ => false

/-- What a message comes to, `messageId` being the id behind it. -/
def served (messageId : UInt64) (w : MessageWrapper) : Served :=
  let left := (w.onMsg (Message.getRaw C)).2
  match (w.msg.getRaw C).1 with
  | .ok data =>
    if chunkSize.toNat < data.length then
      { hop := .ok "self"
        msgW := left
        chunks := .ok ((chunksOf chunkSize.toNat messageId data).map (Chunk.message w.msg.msgTopic)) }
    else { hop := .ok "", msgW := left.pass, chunks := .ok [] }
  | .error e => { hop := .error e, msgW := left, chunks := .ok [] }

/-- The id behind each message of a stream. -/
def idsBehind : UInt64 → List MessageWrapper → List UInt64
  | _, [] => []
  | messageId, w :: stream =>
    let behind := if cuts C chunkSize w then messageId + 1 else messageId
    behind :: idsBehind behind stream

/-- What a stream comes to. -/
def servedAll (messageId : UInt64) (stream : List MessageWrapper) : List Served :=
  List.zipWith (served C chunkSize) (idsBehind C chunkSize messageId stream) stream

/-- The data of no message are longer than a string can be. -/
def AllFit (stream : List MessageWrapper) : Prop := ∀ w ∈ stream, ∀ data, (w.msg.getRaw C).1 = .ok data → Fits data

variable {C chunkSize}

theorem serve_eq (pos : 0 < chunkSize.toNat) (w : MessageWrapper)
    (fits : ∀ data, (w.msg.getRaw C).1 = .ok data → Fits data) :
    ∃ enough, ∀ (s : SplitterFT) (fuel : Nat), enough ≤ fuel → ∃ s',
      s'.messageId = (if cuts C chunkSize w then s.messageId + 1 else s.messageId) ∧
      serve C chunkSize fuel s w = some (served C chunkSize s'.messageId w, s') := by
  cases raw : (w.msg.getRaw C).1 with
  | error e =>
    have read : w.onMsg (Message.getRaw C) = (.error e, (w.onMsg (Message.getRaw C)).2) := Prod.ext raw rfl
    refine ⟨0, fun s fuel _ => ⟨s, by simp [cuts, raw], ?_⟩⟩
    rw [serve, processMessage, read]
    simp [served, raw]
  | ok data =>
    have read : w.onMsg (Message.getRaw C) = (.ok data, (w.onMsg (Message.getRaw C)).2) := Prod.ext raw rfl
    by_cases large : chunkSize.toNat < data.length
    · refine ⟨Lib.sliceCount chunkSize.toNat data.length + 1, fun s fuel enough => ?_⟩
      have holds : Holds C w data w.msg.msgTopic := ⟨raw, rfl⟩
      obtain ⟨s', same, all⟩ := generateAll_from pos (fits data raw) large (Lib.sliceCount chunkSize.toNat data.length)
        0 { messageId := s.messageId + 1, chunkCounter := 0, msgW := some (w.onMsg (Message.getRaw C)).2 } _ fuel
        (by omega) rfl rfl holds.read (by omega)
      refine ⟨s', by rw [same]; simp [cuts, raw, large], ?_⟩
      rw [serve, processMessage, read]
      simp [large, all, same, served, raw, chunksOf, List.range_eq_range', Function.comp_def]
    · refine ⟨0, fun s fuel _ => ⟨s, by simp [cuts, raw, large], ?_⟩⟩
      rw [serve, processMessage, read]
      simp [served, raw, large]

/-- With enough fuel for the longest message the whole stream is served. -/
theorem serveAll_eq (pos : 0 < chunkSize.toNat) (stream : List MessageWrapper) (fits : AllFit C stream) :
    ∃ enough, ∀ (s : SplitterFT) (fuel : Nat), enough ≤ fuel → ∃ s',
      serveAll C chunkSize fuel s stream = some (servedAll C chunkSize s.messageId stream, s') := by
  induction stream with
  | nil => exact ⟨0, fun s fuel _ => ⟨s, rfl⟩⟩
  | cons w stream ih =>
    obtain ⟨fits, later⟩ := List.forall_mem_cons.mp fits
    obtain ⟨first, serveFirst⟩ := serve_eq pos w fits
    obtain ⟨others, serveOthers⟩ := ih later
    refine ⟨max first others, fun s fuel enough => ?_⟩
    obtain ⟨s₁, behind, one⟩ := serveFirst s fuel (Nat.le_trans (Nat.le_max_left _ _) enough)
    obtain ⟨s₂, all⟩ := serveOthers s₁ fuel (Nat.le_trans (Nat.le_max_right _ _) enough)
    refine ⟨s₂, ?_⟩
    simp [serveAll, one, all, servedAll, idsBehind, behind]

/-! ## The receiver -/

variable (C chunkSize)

/-- The chunks that have been generated for a message. -/
def Served.chunkMessages (out : Served) : List Message :=
  match out.chunks with
  | .ok chunks => chunks
  | .error _ => []

/-- All chunks that have been generated. -/
def chunkMessages (served : List Served) : List Message := served.flatMap Served.chunkMessages

/-- What a receiver reads in a message, `fromCbor` being its decoder. -/
def readChunk (fromCbor : Bytes → Option Json) (msg : Message) : Option Chunk :=
  match (msg.getRaw C).1 with
  | .ok raw => (fromCbor raw).bind Chunk.ofJson?
  | .error _ => none

/-- The data of the chunks with the id, in the order of their numbers. -/
def rebuild (fromCbor : Bytes → Option Json) (messageId : UInt64) (received : List Message) : Bytes :=
  let chunks := (received.filterMap (readChunk C fromCbor)).filter fun c : Chunk => c.messageId = (messageId.toNat : Int)
  (chunks.mergeSort fun a b => a.number ≤ b.number).flatMap Chunk.slice

/-- The chunks of a message. -/
def cutInto (messageId : UInt64) (w : MessageWrapper) : List Chunk :=
  match (w.msg.getRaw C).1 with
  | .ok data => if chunkSize.toNat < data.length then chunksOf chunkSize.toNat messageId data else []
  | .error _ => []

/-- The chunks of a stream. -/
def cutAll (messageId : UInt64) (stream : List MessageWrapper) : List Chunk :=
  (List.zipWith (cutInto C chunkSize) (idsBehind C chunkSize messageId stream) stream).flatten

variable {C chunkSize}

/-- The receiver's decoder gives back what `to_cbor` makes of the documents of the messages. -/
def RoundTrips (C : Codec) (fromCbor : Bytes → Option Json) (msgs : List Message) : Prop :=
  ∀ msg ∈ msgs, fromCbor (C.toCbor msg.decodedJson) = some msg.decodedJson

section Codec

variable {fromCbor : Bytes → Option Json}

theorem readChunk_message (topic : String) {c : Chunk} (roundTrip : fromCbor (C.toCbor c.toJson) = some c.toJson) :
    readChunk C fromCbor (c.message topic) = some c := by
  have raw : ((c.message topic).getRaw C).1 = .ok (C.toCbor c.toJson) := rfl
  rw [readChunk, raw]
  simp [roundTrip]

theorem filterMap_message (topic : String) (chunks : List Chunk)
    (roundTrips : RoundTrips C fromCbor (chunks.map (Chunk.message topic))) :
    (chunks.map (Chunk.message topic)).filterMap (readChunk C fromCbor) = chunks := by
  induction chunks with
  | nil => rfl
  | cons c rest ih =>
    obtain ⟨first, later⟩ := List.forall_mem_cons.mp roundTrips
    rw [List.map_cons, List.filterMap_cons_some (readChunk_message topic first), ih later]

theorem filterMap_chunkMessages (messageId : UInt64) (stream : List MessageWrapper)
    (roundTrips : RoundTrips C fromCbor (chunkMessages (servedAll C chunkSize messageId stream))) :
    (chunkMessages (servedAll C chunkSize messageId stream)).filterMap (readChunk C fromCbor) =
      cutAll C chunkSize messageId stream := by
  induction stream generalizing messageId with
  | nil => rfl
  | cons w stream ih =>
    have first : ∀ id, RoundTrips C fromCbor (served C chunkSize id w).chunkMessages →
        (served C chunkSize id w).chunkMessages.filterMap (readChunk C fromCbor) = cutInto C chunkSize id w := by
      intro id roundTrips
      cases raw : (w.msg.getRaw C).1 with
      | error e => simp [served, cutInto, raw, Served.chunkMessages]
      | ok data =>
        by_cases large : chunkSize.toNat < data.length
        · simp only [served, raw, large, if_true, Served.chunkMessages] at roundTrips ⊢
          simp only [cutInto, raw, large, if_true]
          exact filterMap_message _ _ roundTrips
        · simp [served, cutInto, raw, large, Served.chunkMessages]
    have later := ih (if cuts C chunkSize w then messageId + 1 else messageId)
    simp only [servedAll, cutAll, idsBehind, List.zipWith_cons_cons, chunkMessages, List.flatMap_cons, List.flatten_cons,
      List.filterMap_append] at later roundTrips ⊢
    obtain ⟨here, behind⟩ := List.forall_mem_append.mp roundTrips
    rw [first _ here, later behind]

end Codec

theorem mem_cutInto {messageId : UInt64} {w : MessageWrapper} {c : Chunk} (member : c ∈ cutInto C chunkSize messageId w) :
    cuts C chunkSize w ∧ c.messageId = messageId.toNat := by
  unfold cutInto at member
  split at member
  case h_1 data raw =>
    split at member
    case isTrue large =>
      obtain ⟨k, _, rfl⟩ := List.mem_map.mp member
      exact ⟨by simp [cuts, raw, large], rfl⟩
    case isFalse => cases member
  case h_2 => cases member

theorem length_idsBehind (messageId : UInt64) (stream : List MessageWrapper) :
    (idsBehind C chunkSize messageId stream).length = stream.length := by
  induction stream generalizing messageId with
  | nil => rfl
  | cons w stream ih => simp [idsBehind, ih]

/-- The ids under which messages are cut come after the id before the stream, each of
them no further than there are messages. -/
theorem cut_id {messageId id : UInt64} {stream : List MessageWrapper} {i : Nat} {w : MessageWrapper}
    (found : stream[i]? = some w) (behind : (idsBehind C chunkSize messageId stream)[i]? = some id)
    (cut : cuts C chunkSize w) : ∃ n, 0 < n ∧ n ≤ stream.length ∧ id = messageId + UInt64.ofNat n := by
  induction stream generalizing messageId i with
  | nil => cases found
  | cons first stream ih =>
    cases i with
    | zero =>
      cases found
      simp only [idsBehind, cut, if_true, List.getElem?_cons_zero, Option.some.injEq] at behind
      exact ⟨1, by omega, by simp, behind.symm⟩
    | succ i =>
      obtain ⟨n, pos, bound, rfl⟩ := ih found behind
      split
      · refine ⟨n + 1, by omega, by simpa using bound, ?_⟩
        rw [UInt64.add_assoc, UInt64.ofNat_add, UInt64.add_comm (UInt64.ofNat n)]
        rfl
      · exact ⟨n, pos, by simp; omega, rfl⟩

theorem mem_cutAll {messageId : UInt64} {stream : List MessageWrapper} {c : Chunk}
    (member : c ∈ cutAll C chunkSize messageId stream) :
    ∃ n, 0 < n ∧ n ≤ stream.length ∧ c.messageId = (messageId + UInt64.ofNat n).toNat := by
  obtain ⟨chunks, at_chunks, inside⟩ := List.mem_flatten.mp member
  obtain ⟨i, at_i⟩ := List.mem_iff_getElem?.mp at_chunks
  obtain ⟨id, w, behind, found, rfl⟩ := List.getElem?_zipWith_eq_some.mp at_i
  obtain ⟨cut, same⟩ := mem_cutInto inside
  obtain ⟨n, pos, bound, rfl⟩ := cut_id found behind cut
  exact ⟨n, pos, bound, same⟩

/-- An id that is fewer than `2^64` further is another one. -/
theorem id_ne (messageId : UInt64) {n : Nat} (pos : 0 < n) (short : n < UInt64.size) :
    messageId + UInt64.ofNat n ≠ messageId := by
  have size : UInt64.size = 18446744073709551616 := rfl
  intro same
  have same := congrArg UInt64.toNat same
  rw [UInt64.toNat_add, UInt64.toNat_ofNat'] at same
  have bound := messageId.toNat_lt
  omega

/-- The chunks of a stream that have the id of one message are the chunks of the message. -/
theorem filter_cutAll {messageId id : UInt64} {stream : List MessageWrapper} {i : Nat} {w : MessageWrapper}
    (short : stream.length < UInt64.size) (found : stream[i]? = some w)
    (behind : (idsBehind C chunkSize messageId stream)[i]? = some id) (cut : cuts C chunkSize w) :
    (cutAll C chunkSize messageId stream).filter (fun c : Chunk => c.messageId = (id.toNat : Int)) =
      cutInto C chunkSize id w := by
  induction stream generalizing messageId i with
  | nil => cases found
  | cons first stream ih =>
    have fewer : stream.length < UInt64.size := Nat.lt_of_succ_lt short
    simp only [cutAll, idsBehind, List.zipWith_cons_cons, List.flatten_cons, List.filter_append]
    cases i with
    | zero =>
      cases found
      have here : id = if cuts C chunkSize w then messageId + 1 else messageId := (Option.some.inj behind).symm
      rw [← here]
      have own : ∀ c ∈ cutInto C chunkSize id w, c.messageId = (id.toNat : Int) := fun c member => (mem_cutInto member).2
      have others : ∀ c ∈ cutAll C chunkSize id stream, ¬ c.messageId = (id.toNat : Int) := by
        intro c member same
        obtain ⟨n, pos, bound, other⟩ := mem_cutAll member
        refine id_ne id pos (Nat.lt_of_le_of_lt bound fewer) (UInt64.toNat.inj ?_)
        omega
      rw [List.filter_eq_self.mpr (by simpa using own)]
      refine List.append_right_eq_self.mpr (List.filter_eq_nil_iff.mpr ?_)
      exact fun c member => by simpa using others c member
    | succ i =>
      have found : stream[i]? = some w := found
      have behind : (idsBehind C chunkSize (if cuts C chunkSize first then messageId + 1 else messageId) stream)[i]? =
        some id := behind
      obtain ⟨n, pos, bound, other⟩ := cut_id found behind cut
      have head : ∀ c ∈ cutInto C chunkSize (if cuts C chunkSize first then messageId + 1 else messageId) first,
          ¬ c.messageId = (id.toNat : Int) := by
        intro c member same
        refine id_ne _ pos (Nat.lt_of_le_of_lt bound fewer) (other.symm.trans (UInt64.toNat.inj ?_))
        have first := (mem_cutInto member).2
        omega
      rw [List.filter_eq_nil_iff.mpr (by simpa using head), List.nil_append]
      exact ih fewer found behind

/-- The numbers of a message's chunks are 0, 1, 2, ..., so their order is that of the numbers. -/
theorem chunksOf_sorted (chunkSize : Nat) (messageId : UInt64) (data : Bytes) :
    (chunksOf chunkSize messageId data).Pairwise fun a b => a.number < b.number := by
  rw [chunksOf, List.pairwise_map]
  refine List.Pairwise.imp ?_ List.pairwise_lt_range
  intro i j less
  simpa [chunkAt] using less

theorem flatMap_chunksOf {chunkSize : Nat} (pos : 0 < chunkSize) (messageId : UInt64) (data : Bytes) :
    (chunksOf chunkSize messageId data).flatMap Chunk.slice = data := by
  rw [chunksOf, List.flatMap_map, List.flatMap_def]
  exact Lib.flatten_slices pos data

/-- The chunks of a message, received in any order, are put together again. -/
theorem sorted_chunks {chunks received : List Chunk} (sorted : chunks.Pairwise fun a b => a.number < b.number)
    (all : received.Perm chunks) : (received.mergeSort fun a b => a.number ≤ b.number) = chunks := by
  have total : ∀ a b : Chunk, decide (a.number ≤ b.number) || decide (b.number ≤ a.number) := by
    intro a b
    simpa using Int.le_total a.number b.number
  have trans : ∀ a b c : Chunk,
      decide (a.number ≤ b.number) → decide (b.number ≤ c.number) → decide (a.number ≤ c.number) := by
    intro a b c
    simpa using Int.le_trans
  have perm := (List.mergeSort_perm received fun a b => decide (a.number ≤ b.number)).trans all
  have distinct : (chunks.map Chunk.number).Nodup :=
    List.Pairwise.map _ (fun _ _ less => Int.ne_of_lt less) sorted
  have first : (received.mergeSort fun a b => a.number ≤ b.number).Pairwise fun a b => a.number ≤ b.number :=
    (List.pairwise_mergeSort trans total received).imp fun le => by simpa using le
  have second : chunks.Pairwise fun a b => a.number ≤ b.number := sorted.imp fun less => Int.le_of_lt less
  refine List.Perm.eq_of_pairwise (fun a b at_a at_b le ge => ?_) first second perm
  exact List.inj_on_of_nodup_map distinct (perm.subset at_a) at_b (Int.le_antisymm le ge)

/-- A message that was cut: the chunks in order, each with its number and its slice, and
the arithmetic with which they were found. -/
structure Cut (chunkSize : UInt64) (data : Bytes) (topic : String) (messageId : UInt64) (cut : List Chunk)
    (out : Served) : Prop where
  hop : out.hop = .ok "self"
  chunks : out.chunks = .ok (cut.map (Chunk.message topic))
  count : cut.length = (data.length + chunkSize.toNat - 1) / chunkSize.toNat
  numbered : ∀ (k : Nat) (c : Chunk), cut[k]? = some c →
    c.messageId = messageId.toNat ∧ c.size = data.length ∧ c.number = k
  full : ∀ (k : Nat) (c d : Chunk), cut[k]? = some c → cut[k + 1]? = some d → c.slice.length = chunkSize.toNat
  last : ∀ c ∈ cut, 0 < c.slice.length ∧ c.slice.length ≤ chunkSize.toNat
  whole : cut.flatMap Chunk.slice = data
  exact : ∀ k ≤ cut.length, Exact chunkSize data k

theorem getElem?_chunksOf {chunkSize : Nat} {messageId : UInt64} {data : Bytes} {k : Nat} {c : Chunk}
    (found : (chunksOf chunkSize messageId data)[k]? = some c) :
    k < Lib.sliceCount chunkSize data.length ∧ c = chunkAt chunkSize messageId data k := by
  rw [chunksOf, List.getElem?_map] at found
  obtain ⟨j, at_j, rfl⟩ := Option.map_eq_some_iff.mp found
  obtain ⟨inside, rfl⟩ := List.getElem?_eq_some_iff.mp at_j
  rw [List.getElem_range]
  exact ⟨by simpa using inside, rfl⟩

theorem cut_of_served {messageId : UInt64} {w : MessageWrapper} {data : Bytes} (pos : 0 < chunkSize.toNat)
    (raw : (w.msg.getRaw C).1 = .ok data) (fits : Fits data) (large : chunkSize.toNat < data.length) :
    Cut chunkSize data w.msg.msgTopic messageId (chunksOf chunkSize.toNat messageId data)
      (served C chunkSize messageId w) where
  hop := by simp [served, raw, large]
  chunks := by simp [served, raw, large]
  count := by simp [chunksOf, Lib.sliceCount]
  numbered := by
    intro k c found
    obtain ⟨_, rfl⟩ := getElem?_chunksOf found
    exact ⟨rfl, rfl, rfl⟩
  full := by
    intro k c d found next
    obtain ⟨_, rfl⟩ := getElem?_chunksOf found
    exact Lib.slice_length_full pos rfl (getElem?_chunksOf next).1
  last := by
    intro c member
    obtain ⟨k, found⟩ := List.mem_iff_getElem?.mp member
    obtain ⟨inside, rfl⟩ := getElem?_chunksOf found
    refine ⟨Lib.slice_length_pos pos rfl inside, ?_⟩
    rw [chunkAt, Lib.slice_length]
    exact Nat.min_le_left _ _
  whole := flatMap_chunksOf pos messageId data
  exact := fun k bound => exact_of_fits pos fits large (by simpa [chunksOf] using bound)

/-- Different messages that are cut have different ids. -/
theorem ids_distinct {messageId : UInt64} {stream : List MessageWrapper} (short : stream.length < UInt64.size)
    {i j : Nat} {v w : MessageWrapper} {id : UInt64} (at_i : stream[i]? = some v) (at_j : stream[j]? = some w)
    (cut_i : cuts C chunkSize v) (cut_j : cuts C chunkSize w)
    (id_i : (idsBehind C chunkSize messageId stream)[i]? = some id)
    (id_j : (idsBehind C chunkSize messageId stream)[j]? = some id) : i = j := by
  induction stream generalizing messageId i j with
  | nil => cases at_i
  | cons first stream ih =>
    have fewer : stream.length < UInt64.size := Nat.lt_of_succ_lt short
    -- the id of the first message does not come again behind it
    have once : ∀ {k : Nat} {u : MessageWrapper}, stream[k]? = some u → cuts C chunkSize u →
        (idsBehind C chunkSize (if cuts C chunkSize first then messageId + 1 else messageId) stream)[k]? = some id →
        ¬ (if cuts C chunkSize first then messageId + 1 else messageId) = id := by
      intro k u at_k cut behind same
      obtain ⟨n, pos, bound, other⟩ := cut_id at_k behind cut
      exact id_ne _ pos (Nat.lt_of_le_of_lt bound fewer) (other.symm.trans same.symm)
    cases i with
    | zero =>
      cases j with
      | zero => rfl
      | succ j => exact absurd (Option.some.inj id_i) (once at_j cut_j id_j)
    | succ i =>
      cases j with
      | zero => exact absurd (Option.some.inj id_j) (once at_i cut_i id_i)
      | succ j => rw [ih fewer at_i at_j id_i id_j]

theorem rebuild_cut {fromCbor : Bytes → Option Json} {messageId id : UInt64} {stream : List MessageWrapper} {i : Nat}
    {w : MessageWrapper} {data : Bytes}
    (pos : 0 < chunkSize.toNat) (short : stream.length < UInt64.size) (found : stream[i]? = some w)
    (behind : (idsBehind C chunkSize messageId stream)[i]? = some id) (raw : (w.msg.getRaw C).1 = .ok data)
    (large : chunkSize.toNat < data.length)
    (roundTrips : RoundTrips C fromCbor (chunkMessages (servedAll C chunkSize messageId stream)))
    {received : List Message}
    (all : received.Perm (chunkMessages (servedAll C chunkSize messageId stream))) :
    rebuild C fromCbor id received = data := by
  have cut : cuts C chunkSize w = true := by simp [cuts, raw, large]
  have chunks := (all.filterMap (readChunk C fromCbor)).filter fun c : Chunk => c.messageId = (id.toNat : Int)
  rw [filterMap_chunkMessages messageId stream roundTrips, filter_cutAll short found behind cut] at chunks
  simp only [cutInto, raw, if_pos large] at chunks
  rw [rebuild, sorted_chunks (chunksOf_sorted _ _ _) chunks]
  exact flatMap_chunksOf pos id data

/-- A stream of fewer than `2^64` messages through one splitter, whatever it has done
before. -/
theorem splitter_stream (C : Codec) (chunkSize : UInt64) (pos : 0 < chunkSize.toNat) (s : SplitterFT)
    (stream : List MessageWrapper) (short : stream.length < UInt64.size) (fits : AllFit C stream) :
    ∃ (out : List Served) (ids : List UInt64),
      (∃ enough, ∀ fuel, enough ≤ fuel → ∃ s', serveAll C chunkSize fuel s stream = some (out, s')) ∧
      out.length = stream.length ∧ ids.length = stream.length ∧
      (∀ (i : Nat) w data o id, stream[i]? = some w → (w.msg.getRaw C).1 = .ok data → out[i]? = some o → ids[i]? = some id →
        (data.length ≤ chunkSize.toNat →
          o.hop = .ok "" ∧ o.chunks = .ok [] ∧ o.msgW.isPassed ∧ o.msgW = (w.onMsg (Message.getRaw C)).2.pass ∧
            (o.msgW.msg.getRaw C).1 = .ok data) ∧
        (chunkSize.toNat < data.length →
          (∃ cut, Cut chunkSize data w.msg.msgTopic id cut o) ∧
          ∀ fromCbor, RoundTrips C fromCbor (chunkMessages out) →
            ∀ received, received.Perm (chunkMessages out) → rebuild C fromCbor id received = data)) ∧
      ∀ (i j : Nat) v w id, stream[i]? = some v → stream[j]? = some w → cuts C chunkSize v → cuts C chunkSize w →
        ids[i]? = some id → ids[j]? = some id → i = j := by
  obtain ⟨enough, served⟩ := serveAll_eq pos stream fits
  refine ⟨servedAll C chunkSize s.messageId stream, idsBehind C chunkSize s.messageId stream,
    ⟨enough, fun fuel => served s fuel⟩, ?_, length_idsBehind _ _, ?_, ?_⟩
  · simp [servedAll, length_idsBehind]
  · intro i w data o id found raw at_o behind
    have out : o = SplitterFT.served C chunkSize id w := by
      rw [servedAll, List.getElem?_zipWith, behind, found] at at_o
      exact (Option.some.inj at_o).symm
    subst out
    refine ⟨fun small => ?_, fun large =>
      ⟨⟨chunksOf chunkSize.toNat id data, ?_⟩, fun fromCbor roundTrips received all => ?_⟩⟩
    · have holds : Holds C w data w.msg.msgTopic := ⟨raw, rfl⟩
      have passed : SplitterFT.served C chunkSize id w =
          { hop := .ok "", msgW := (w.onMsg (Message.getRaw C)).2.pass, chunks := .ok [] } := by
        simp [SplitterFT.served, raw, Nat.not_lt.mpr small]
      rw [passed]
      exact ⟨rfl, rfl, rfl, rfl, (MessageWrapper.pass_msg _).symm ▸ holds.read.raw⟩
    · exact cut_of_served pos raw (fits w (List.mem_of_getElem? found) data raw) large
    · exact rebuild_cut pos short found behind raw large roundTrips all
  · intro i j v w id at_i at_j cut_i cut_j id_i id_j
    exact ids_distinct short at_i at_j cut_i cut_j id_i id_j

/-- Five bytes and four bytes in chunks of two. -/
theorem splitter_stream_two :
    ∃ (out : List Served) (ids : List UInt64) (one two : UInt64),
      out.length = 2 ∧ ids = [one, two] ∧ one ≠ two ∧
      (∀ o, out[0]? = some o → ∃ cut, Cut 2 [1, 2, 3, 4, 5] "t" one cut o) ∧
      ∀ o, out[1]? = some o → ∃ cut, Cut 2 [6, 7, 8, 9] "u" two cut o := by
  let v := MessageWrapper.ofMessage (.ofString [1, 2, 3, 4, 5] .raw "t")
  let w := MessageWrapper.ofMessage (.ofString [6, 7, 8, 9] .raw "u")
  have fits : AllFit Message.literalCodec [v, w] := by
    intro x member data raw
    simp only [List.mem_cons, List.not_mem_nil, or_false] at member
    rcases member with rfl | rfl
    · cases raw
      show 5 < UInt64.size / 2
      decide
    · cases raw
      show 4 < UInt64.size / 2
      decide
  obtain ⟨out, ids, _, length, length', each, apart⟩ :=
    splitter_stream Message.literalCodec 2 (by decide) { messageId := 7 } [v, w] (by decide) fits
  obtain ⟨one, two, rfl⟩ := List.length_eq_two.mp length'
  refine ⟨out, [one, two], one, two, length, rfl, fun same => ?_, fun o at_o => ?_, fun o at_o => ?_⟩
  · exact absurd (apart 0 1 v w one rfl rfl (by decide) (by decide) rfl (congrArg some same.symm)) (by decide)
  · exact ((each 0 v _ o one rfl rfl at_o rfl).2 (by decide)).1
  · exact ((each 1 w _ o two rfl rfl at_o rfl).2 (by decide)).1

end SplitterFT

end M2eBridge
