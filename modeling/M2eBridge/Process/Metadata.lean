import M2eBridge.Process.Walk
import Mathlib.Data.List.Chain

/-!
# Metadata along a walk

Every filtra merges its metadata into the wrapper's when it is entered. One
configured without `metadata` holds a null document, and the merge patch of null
is null: it wipes what was accumulated. A chunk is a new wrapper, whose metadata
is null whatever its parent has accumulated. So a queued wrapper carries what its
path was configured with exactly when there was never anything to lose
(`metadata_kept_iff`).
-/

namespace M2eBridge

namespace Process

variable {ω : Type} (chain : List (Filtra ω))

/-- A filtra entered: its index and the metadata before and after. -/
structure Entry where
  ix : Nat
  before : Json
  after : Json
  deriving DecidableEq

def Event.entry : Event → Option Entry
  | .enter ix _ before after => some ⟨ix, before, after⟩
  | _ => none

/-- The filtras entered, in path order. -/
def entries (events : List Event) : List Entry := events.filterMap Event.entry

/-- The filtras entered from the received message on, through all the cuts. -/
def Journey.allEntries (j : Journey) : List Entry :=
  (j.cuts.map Cut.events).flatMap entries ++ entries j.events

/-- The `metadata` configured on the filtra at an index. -/
def configuredAt (ix : Nat) : Option Json := chain[ix]?.bind Filtra.configured

/-- The merge patch, in path order, of the metadata configured on the filtras at the indices. -/
def merged (metadata : Json) (path : List Nat) : Json :=
  path.foldl (fun acc ix => match configuredAt chain ix with
    | some patch => acc.mergePatch patch
    | none => acc) metadata

/-- What the metadata of a queued wrapper should be, and what keeps it so. -/
structure MetadataKept (x : Queued) : Prop where
  merged : x.msgW.metadata = merged chain .null (x.journey.allEntries.map Entry.ix)
  /-- A filtra configured without metadata leaves it unchanged. -/
  unchanged : ∀ e ∈ x.journey.allEntries, configuredAt chain e.ix = none → e.after = e.before
  /-- A chunk carries the metadata of the message it was cut from. -/
  carried : ∀ c ∈ x.journey.cuts, c.chunk = c.metadata

/-- The filtra at the index has metadata, other than null. -/
def HasMetadata (ix : Nat) : Prop := (configuredAt chain ix).getD .null ≠ .null

instance (ix : Nat) : Decidable (HasMetadata chain ix) := inferInstanceAs (Decidable (_ ≠ _))

/-- No filtra without metadata comes directly behind one that has some. -/
def NoneWiped (path : List Nat) : Prop :=
  path.IsChain fun p q => configuredAt chain q = none → ¬ HasMetadata chain p

/-- Nothing to lose: on no part of the path does a filtra without metadata come
directly behind one that has some, and no splitter that cut the message has any. -/
structure NothingToLose (j : Journey) : Prop where
  parts : ∀ events ∈ j.cuts.map Cut.events ++ [j.events], NoneWiped chain ((entries events).map Entry.ix)
  cuts : ∀ c ∈ j.cuts, ∀ e ∈ (entries c.events).getLast?, ¬ HasMetadata chain e.ix

/-! ## The entries of one wrapper -/

/-- The entries are those of a wrapper whose metadata was `metadata` before them. -/
def Linked (metadata : Json) : List Entry → Prop
  | [] => True
  | e :: rest =>
    e.before = metadata ∧ e.after = metadata.mergePatch ((configuredAt chain e.ix).getD .null) ∧ Linked e.after rest

/-- The metadata after the entries. -/
def accumulated (metadata : Json) (l : List Entry) : Json := l.foldl (fun _ e => e.after) metadata

variable {chain}

theorem linked_append {metadata : Json} {l : List Entry} {e : Entry} :
    Linked chain metadata (l ++ [e]) ↔ Linked chain metadata l ∧ e.before = accumulated metadata l ∧
      e.after = (accumulated metadata l).mergePatch ((configuredAt chain e.ix).getD .null) := by
  induction l generalizing metadata with
  | nil => simp [Linked, accumulated]
  | cons a rest ih => simp [Linked, accumulated, ih, and_assoc]

/-- After an entry the metadata is null exactly when the filtra has none. -/
theorem Linked.after_eq_null {metadata : Json} {e : Entry} {rest : List Entry}
    (linked : Linked chain metadata (e :: rest)) : e.after = .null ↔ ¬ HasMetadata chain e.ix := by
  rw [linked.2.1, HasMetadata, not_not]
  constructor
  · intro null
    by_contra some
    exact Json.mergePatch_ne_null some metadata null
  · intro none
    rw [none, Json.mergePatch_null]

/-- Filtras without metadata leave it unchanged exactly when each of them finds null. -/
theorem Linked.unchanged_iff {metadata : Json} {l : List Entry} (linked : Linked chain metadata l) :
    (∀ e ∈ l, configuredAt chain e.ix = none → e.after = e.before) ↔
      (∀ e ∈ l.head?, configuredAt chain e.ix = none → metadata = .null) ∧
        NoneWiped chain (l.map Entry.ix) := by
  induction l generalizing metadata with
  | nil => simp [NoneWiped]
  | cons e rest ih =>
    have here : (configuredAt chain e.ix = none → e.after = e.before) ↔
        (configuredAt chain e.ix = none → metadata = .null) := by
      apply imp_congr_right
      intro none
      rw [linked.1, linked.2.1, none]
      exact (congrArg (· = metadata) (Json.mergePatch_null metadata)).to_iff.trans eq_comm
    rw [List.forall_mem_cons, here, ih linked.2.2]
    cases rest with
    | nil => simp [NoneWiped]
    | cons e' rest =>
      simp only [List.head?_cons, Option.mem_def, Option.some.injEq, forall_eq', NoneWiped, List.map_cons,
        List.isChain_cons_cons, linked.after_eq_null]

/-- What is never lost adds up to the merge patch of what is configured. -/
theorem Linked.merged_eq {metadata : Json} {l : List Entry} (linked : Linked chain metadata l)
    (unchanged : ∀ e ∈ l, configuredAt chain e.ix = none → e.after = e.before) :
    merged chain metadata (l.map Entry.ix) = accumulated metadata l := by
  induction l generalizing metadata with
  | nil => rfl
  | cons e rest ih =>
    obtain ⟨before, after, later⟩ := linked
    have first : (match configuredAt chain e.ix with
        | some patch => metadata.mergePatch patch
        | none => metadata) = e.after := by
      cases h : configuredAt chain e.ix with
      | some patch => rw [after, h]; rfl
      | none => rw [unchanged e List.mem_cons_self h, before]
    have rest := ih later fun x member => unchanged x (List.mem_cons_of_mem e member)
    simpa only [merged, List.map_cons, List.foldl_cons, first, accumulated] using rest

/-- A wrapper made with null metadata, and the metadata it has come to. -/
structure Segment (chain : List (Filtra ω)) (events : List Event) (metadata : Json) : Prop where
  linked : Linked chain .null (entries events)
  metadata : metadata = accumulated .null (entries events)

theorem Segment.unchanged_iff {events : List Event} {metadata : Json} (segment : Segment chain events metadata) :
    (∀ e ∈ entries events, configuredAt chain e.ix = none → e.after = e.before) ↔
      NoneWiped chain ((entries events).map Entry.ix) := by
  rw [segment.linked.unchanged_iff]
  simp

/-- A wrapper has metadata exactly when the last filtra entered has. -/
theorem Segment.metadata_eq_null {events : List Event} {metadata : Json} (segment : Segment chain events metadata) :
    metadata = .null ↔ ∀ e ∈ (entries events).getLast?, ¬ HasMetadata chain e.ix := by
  have linked := segment.linked
  rw [segment.metadata]
  rcases List.eq_nil_or_concat (entries events) with none | ⟨l, e, split⟩
  · simp [none, accumulated]
  · rw [List.concat_eq_append] at split
    rw [split] at linked ⊢
    have last := linked_append.mp linked
    have single : Linked chain (accumulated .null l) [e] := ⟨last.2.1, last.2.2, trivial⟩
    simpa [accumulated] using single.after_eq_null

/-! ## The invariant -/

/-- Every wrapper of a journey began with null metadata and came to what it has. -/
structure Accounted (chain : List (Filtra ω)) (metadata : Json) (j : Journey) : Prop where
  own : Segment chain j.events metadata
  cuts : ∀ c ∈ j.cuts, Segment chain c.events c.metadata ∧ c.chunk = .null

/-- An event that is no entry. -/
theorem Accounted.record {metadata : Json} {j : Journey} (accounted : Accounted chain metadata j) {e : Event}
    (noEntry : e.entry = none) : Accounted chain metadata (j.record e) := by
  have same : entries (j.events ++ [e]) = entries j.events := by simp [entries, noEntry]
  exact ⟨⟨same ▸ accounted.own.linked, accounted.own.metadata.trans (congrArg _ same.symm)⟩, accounted.cuts⟩

/-- The entry into a filtra, which merges its metadata. -/
theorem Accounted.enter {f : Frame} {filtra : Filtra ω} (accounted : Accounted chain f.msgW.metadata f.journey)
    (found : chain[f.filtraIx]? = some filtra) :
    Accounted chain (f.msgW.addMetadata filtra.base.metadata).metadata
      (f.journey.record (.enter f.filtraIx f.msgW.isPassed f.msgW.metadata
        (f.msgW.addMetadata filtra.base.metadata).metadata)) := by
  let e : Entry := ⟨f.filtraIx, f.msgW.metadata, (f.msgW.addMetadata filtra.base.metadata).metadata⟩
  have split : entries (f.journey.events ++ [.enter f.filtraIx f.msgW.isPassed e.before e.after]) =
      entries f.journey.events ++ [e] := by simp [entries, Event.entry, e]
  have patch : filtra.base.metadata = (configuredAt chain f.filtraIx).getD .null := by
    simp [configuredAt, found, Filtra.metadata_eq]
  refine ⟨⟨?_, ?_⟩, accounted.cuts⟩
  · refine split ▸ linked_append.mpr ⟨accounted.own.linked, accounted.own.metadata, ?_⟩
    rw [← accounted.own.metadata, ← patch]
    rfl
  · change _ = accumulated .null (entries (f.journey.events ++ [_]))
    rw [split]
    simp [accumulated, e]

theorem Accounted.turn {f : Frame} (accounted : Accounted chain f.msgW.metadata f.journey) (env : Env) (world : ω) :
    (Process.turn chain env f world).1.Keeps (fun f => Accounted chain f.msgW.metadata f.journey)
      (fun x => Accounted chain x.msgW.metadata x.journey) fun _ => True := by
  have left : ∀ filtra : Filtra ω,
      Accounted chain (filtra.processMessage world f.msgW).2.1.metadata (f.left filtra world).journey := fun filtra =>
    (filtra.keepsMetadata world f.msgW).symm ▸ accounted.record rfl
  have kind := turned chain env f world
  generalize (Process.turn chain env f world).1 = next at kind ⊢
  cases kind with
  | outOfLoop | allRedirected => exact accounted
  | enter _ _ found => exact accounted.enter found
  | splits | passes | rejectsTo | rejects | invalid => exact left _
  | redirected =>
    change Accounted chain f.msgW.withMsg.metadata _
    rw [MessageWrapper.withMsg_metadata]
    exact accounted.record rfl
  | chunk =>
    refine ⟨accounted, ⟨trivial, rfl⟩, fun c member => ?_⟩
    rcases List.mem_append.mp member with old | new
    · exact accounted.cuts c old
    · cases List.mem_singleton.mp new
      exact ⟨accounted.own, rfl⟩
  | pushes => exact ⟨accounted.record rfl, trivial⟩
  | fails | overflows | allGenerated | generateFails | drops | astray => trivial

theorem walk_accounted (chain : List (Filtra ω)) (world : ω) (source : Nat) (msg : Message) (filtraIx : Nat)
    (env : Nat → Env) (n : Nat) :
    (Lib.run (Walk.step chain) env (.begin world source msg filtraIx) n).Sound
      (fun f => Accounted chain f.msgW.metadata f.journey) (fun x => Accounted chain x.msgW.metadata x.journey)
      fun _ => True := by
  have start : (Walk.begin world source msg filtraIx).Sound (fun f => Accounted chain f.msgW.metadata f.journey)
      (fun x => Accounted chain x.msgW.metadata x.journey) fun _ => True :=
    .begin ⟨⟨trivial, rfl⟩, fun _ none => (List.not_mem_nil none).elim⟩
  exact start.run (fun _ _ => trivial) (fun env f world accounted => accounted.turn env world) env n

/-! ## What a queued wrapper carries -/

theorem merged_append (metadata : Json) (l l' : List Nat) :
    merged chain metadata (l ++ l') = merged chain (merged chain metadata l) l' := List.foldl_append

/-- Parts whose metadata comes to null add nothing. -/
theorem merged_cuts {cuts : List Cut} (segments : ∀ c ∈ cuts, Segment chain c.events c.metadata)
    (kept : ∀ c ∈ cuts, ∀ e ∈ entries c.events, configuredAt chain e.ix = none → e.after = e.before)
    (null : ∀ c ∈ cuts, c.metadata = .null) :
    merged chain .null (((cuts.map Cut.events).flatMap entries).map Entry.ix) = .null := by
  induction cuts with
  | nil => rfl
  | cons c rest ih =>
    have first : merged chain .null ((entries c.events).map Entry.ix) = .null := by
      rw [(segments c List.mem_cons_self).linked.merged_eq (kept c List.mem_cons_self),
        ← (segments c List.mem_cons_self).metadata, null c List.mem_cons_self]
    have later := ih (fun x member => segments x (List.mem_cons_of_mem c member))
      (fun x member => kept x (List.mem_cons_of_mem c member)) fun x member => null x (List.mem_cons_of_mem c member)
    rw [List.map_cons, List.flatMap_cons, List.map_append, merged_append, first, later]

theorem Accounted.kept_iff {x : Queued} (accounted : Accounted chain x.msgW.metadata x.journey) :
    MetadataKept chain x ↔ NothingToLose chain x.journey := by
  constructor
  · rintro ⟨-, unchanged, carried⟩
    refine ⟨fun events member => ?_, fun c member => ?_⟩
    · rcases List.mem_append.mp member with cut | own
      · obtain ⟨c, inCuts, rfl⟩ := List.mem_map.mp cut
        refine (accounted.cuts c inCuts).1.unchanged_iff.mp fun e inside => unchanged e ?_
        exact List.mem_append_left _ (List.mem_flatMap.mpr ⟨c.events, List.mem_map_of_mem inCuts, inside⟩)
      · cases List.mem_singleton.mp own
        exact accounted.own.unchanged_iff.mp fun e inside => unchanged e (List.mem_append_right _ inside)
    · obtain ⟨segment, chunk⟩ := accounted.cuts c member
      exact segment.metadata_eq_null.mp ((carried c member).symm.trans chunk)
  · rintro ⟨parts, cuts⟩
    have cutsKept : ∀ c ∈ x.journey.cuts, ∀ e ∈ entries c.events, configuredAt chain e.ix = none →
        e.after = e.before := fun c member =>
      (accounted.cuts c member).1.unchanged_iff.mpr
        (parts c.events (List.mem_append_left _ (List.mem_map_of_mem member)))
    have ownKept := accounted.own.unchanged_iff.mpr (parts x.journey.events (by simp))
    have null : ∀ c ∈ x.journey.cuts, c.metadata = .null := fun c member =>
      (accounted.cuts c member).1.metadata_eq_null.mpr (cuts c member)
    refine ⟨?_, fun e member => ?_, fun c member => (accounted.cuts c member).2.trans (null c member).symm⟩
    · rw [Journey.allEntries, List.map_append, merged_append,
        merged_cuts (fun c member => (accounted.cuts c member).1) cutsKept null,
        accounted.own.linked.merged_eq ownKept]
      exact accounted.own.metadata
    · rcases List.mem_append.mp member with cut | own
      · obtain ⟨events, part, inside⟩ := List.mem_flatMap.mp cut
        obtain ⟨c, inCuts, rfl⟩ := List.mem_map.mp part
        exact cutsKept c inCuts e inside
      · exact ownKept e own

/-- **Metadata.** Every wrapper that a walk pushes carries the metadata configured
along its path exactly when there was nothing to lose on it. -/
theorem metadata_kept_iff (chain : List (Filtra ω)) (world : ω) (source : Nat) (msg : Message) (filtraIx : Nat)
    (env : Nat → Env) (n : Nat) :
    ∀ x ∈ (Lib.run (Walk.step chain) env (.begin world source msg filtraIx) n).sQueue.queue,
      MetadataKept chain x ↔ NothingToLose chain x.journey :=
  fun x member => ((walk_accounted chain world source msg filtraIx env n).queue x member).kept_iff

/-! ## Instances -/

/-- `{"type": "nop", "metadata": {"site": "a"}}` -/
def tagging : Filtra Unit :=
  .nop (.object [("metadata", .object [("site", .string "a")]), ("type", .string "nop")])
    { name := "", msgFormat := .raw, logicalNegation := false, queueIds := [],
      metadata := .object [("site", .string "a")], hops := ("", "") } rfl

theorem metadata_kept_tagging :
    ∃ x ∈ (Lib.run (Walk.step [.plain, tagging]) undisturbed (.begin () 0 {} 0) 8).sQueue.queue,
      MetadataKept [.plain, tagging] x := by
  refine ⟨_, List.mem_cons_self, (metadata_kept_iff [.plain, tagging] () 0 {} 0 undisturbed 8 _ List.mem_cons_self).mpr
    ⟨fun events member => ?_, fun c member => (List.not_mem_nil member).elim⟩⟩
  cases List.mem_singleton.mp member
  change NoneWiped [.plain, tagging] [0, 1]
  exact List.isChain_cons_cons.mpr ⟨by decide, List.isChain_singleton _⟩

/-- The second filtra has no metadata, and the wrapper is pushed with none. -/
theorem metadata_wiped :
    ¬ ∀ (chain : List (Filtra Unit)) (world : Unit) (source : Nat) (msg : Message) (filtraIx : Nat) (env : Nat → Env)
      (n : Nat), ∀ x ∈ (Lib.run (Walk.step chain) env (.begin world source msg filtraIx) n).sQueue.queue,
        MetadataKept chain x := by
  intro all
  have kept := (all [tagging, .plain] () 0 {} 0 undisturbed 8 _ List.mem_cons_self).merged
  revert kept
  decide

end Process

end M2eBridge
