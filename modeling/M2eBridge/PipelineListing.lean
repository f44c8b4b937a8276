import M2eBridge.GlobalConfig
import M2eBridge.JsonMerge
import M2eBridge.Lib.Runs

/-!
# The listing of the stored pipelines

`PipelineConfigs::dump` folds the files with `merge_patch`, while `at` takes the config
of the first file that has the id. The two agree on an id exactly when that config is
not null, has no null members, and comes through the merges with the configs of the later
files as it was (`Agreeing`); `lists_iff` is the statement for a state and for a run of
`add_pipeline`, `update_pipeline` and `delete_pipeline`.
-/

namespace M2eBridge

open Json (asMember)
open Lib (onFirst holds assignIn eraseIn)

namespace PipelineConfigs

/-- A file as the `json` it is converted to, its members in key order. -/
def toJson (file : PipelinesFile) : Json :=
  .object (file.2.foldl (fun members e => Json.setMember e.1 e.2 members) [])

/-- The document that `dump` gives the text of. -/
def dump (c : PipelineConfigs) : Json := c.files.foldl (fun merged file => merged.mergePatch (toJson file)) .null

/-- The configs of an id in the order of the files. -/
def configsOf (c : PipelineConfigs) (pipeid : String) : List Json := c.files.filterMap fun f => f.2.lookup pipeid

/-- The documents are as they are kept: one member for each key, in key order in a `json`. -/
structure Kept (c : PipelineConfigs) : Prop where
  distinct : ∀ f ∈ c.files, (f.2.map Prod.fst).Nodup
  ordered : ∀ f ∈ c.files, ∀ e ∈ f.2, e.2.Ordered

/-- Merged, the configs of an id come to the first of them. -/
def Agreeing : List Json → Prop
  | [] => True
  | v :: later => v ≠ .null ∧ v.nullFree ∧ later.foldl Json.mergePatch v = v

instance : (configs : List Json) → Decidable (Agreeing configs)
  | [] => inferInstanceAs (Decidable True)
  | _ :: _ => inferInstanceAs (Decidable (_ ∧ _ ∧ _))

/-- The listing has the ids that are stored, and under each what `at` gives. -/
def Lists (c : PipelineConfigs) : Prop := ∀ pipeid, c.dump.find? pipeid = c.find? pipeid

/-! ## The document -/

theorem find?_configsOf (c : PipelineConfigs) (pipeid : String) : c.find? pipeid = (c.configsOf pipeid).head? :=
  List.head?_filterMap.symm

theorem lookup_foldl_setMember (id : String) {entries : List (String × Json)} (distinct : (entries.map Prod.fst).Nodup)
    (members : List (String × Json)) :
    (entries.foldl (fun members e => Json.setMember e.1 e.2 members) members).lookup id =
      (entries.lookup id).or (members.lookup id) := by
  induction entries generalizing members with
  | nil => rfl
  | cons e rest ih =>
    obtain ⟨fresh, others⟩ := List.nodup_cons.mp distinct
    rw [List.foldl_cons, ih others, List.lookup_cons]
    by_cases same : id = e.1
    · have behind : rest.lookup id = none :=
        Json.lookup_none_of_not_key fun m member other => fresh (List.mem_map.mpr ⟨m, member, other.trans same⟩)
      rw [behind, beq_iff_eq.mpr same, same, Json.lookup_setMember_self]
      rfl
    · rw [beq_eq_false_iff_ne.mpr same, Json.lookup_setMember_other same]

theorem foldl_setMember_sorted (entries : List (String × Json)) {members : List (String × Json)}
    (sorted : Json.Sorted members) :
    Json.Sorted (entries.foldl (fun members e => Json.setMember e.1 e.2 members) members) := by
  induction entries generalizing members with
  | nil => exact sorted
  | cons e rest ih => exact ih (Json.setMember_sorted e.1 e.2 sorted)

theorem find?_eq_lookup (j : Json) (id : String) : j.find? id = j.membersOf.lookup id := by
  cases j <;> rfl

/-- What one file changes under an id. -/
theorem find?_merge {file : PipelinesFile} (distinct : (file.2.map Prod.fst).Nodup) (merged : Json) (id : String) :
    (merged.mergePatch (toJson file)).find? id = Json.patchMember (merged.find? id) (file.2.lookup id) := by
  have sorted : Json.Sorted (file.2.foldl (fun members e => Json.setMember e.1 e.2 members) []) :=
    foldl_setMember_sorted file.2 List.Pairwise.nil
  have keys := List.pairwise_map.mpr (sorted.imp fun below => String.ne_of_lt below)
  have found := lookup_foldl_setMember id distinct []
  simp only [List.lookup_nil, Option.or_none] at found
  rw [toJson, Json.mergePatch, Json.find?, Json.lookup_mergeMembers id _ keys, found, find?_eq_lookup]

theorem asMember_getD {found : Option Json} (notNull : found ≠ some .null) : asMember (found.getD .null) = found := by
  cases found with
  | none => rfl
  | some v => exact if_neg fun null => notNull (congrArg some null)

theorem asMember_ne_some_null (v : Json) : asMember v ≠ some .null := by
  unfold asMember
  split
  · simp
  · next notNull => exact fun same => notNull (Option.some.inj same)

theorem getD_asMember (v : Json) : (asMember v).getD .null = v := by
  unfold asMember
  split
  · next null => exact null.symm
  · rfl

/-- The files merged into a document, under an id: the configs of the id, merged. -/
theorem find?_foldl {files : List PipelinesFile} (distinct : ∀ f ∈ files, (f.2.map Prod.fst).Nodup) {merged : Json}
    {id : String} (notNull : merged.find? id ≠ some .null) :
    (files.foldl (fun merged file => merged.mergePatch (toJson file)) merged).find? id =
      asMember ((files.filterMap fun f => f.2.lookup id).foldl Json.mergePatch ((merged.find? id).getD .null)) := by
  induction files generalizing merged with
  | nil => exact (asMember_getD notNull).symm
  | cons f rest ih =>
    obtain ⟨here, behind⟩ := List.forall_mem_cons.mp distinct
    have one := find?_merge here merged id
    cases found : f.2.lookup id with
    | none =>
      rw [found, Json.patchMember] at one
      rw [List.foldl_cons, ih behind (one ▸ notNull), one]
      simp [found]
    | some v =>
      rw [found, Json.patchMember] at one
      rw [List.foldl_cons, ih behind (one ▸ asMember_ne_some_null _), one, getD_asMember]
      simp [found]

theorem find?_dump {c : PipelineConfigs} (kept : Kept c) (pipeid : String) :
    c.dump.find? pipeid = asMember ((c.configsOf pipeid).foldl Json.mergePatch .null) :=
  find?_foldl kept.distinct (by simp [Json.find?])

theorem foldl_nullFree (configs : List Json) {start : Json} (free : start.nullFree) :
    (configs.foldl Json.mergePatch start).nullFree := by
  induction configs generalizing start with
  | nil => exact free
  | cons v rest ih => exact ih (Json.mergePatch_nullFree v free)

/-- The merge of the configs is the first of them exactly when they agree. -/
theorem asMember_foldl_iff {configs : List Json} (ordered : ∀ v ∈ configs, v.Ordered) :
    asMember (configs.foldl Json.mergePatch .null) = configs.head? ↔ Agreeing configs := by
  cases configs with
  | nil => simp [asMember, Agreeing]
  | cons v later =>
    have self (free : v.nullFree) : Json.null.mergePatch v = v :=
      Json.mergePatch_null_self v (ordered v List.mem_cons_self) free
    rw [List.foldl_cons, List.head?_cons, Agreeing]
    constructor
    · intro merged
      have same : later.foldl Json.mergePatch (Json.null.mergePatch v) = v := by
        rw [← getD_asMember (later.foldl Json.mergePatch (Json.null.mergePatch v)), merged]
        rfl
      have free : v.nullFree := same ▸ foldl_nullFree later (Json.mergePatch_nullFree v rfl)
      rw [self free] at same
      refine ⟨fun null => ?_, free, same⟩
      exact asMember_ne_some_null _ (null ▸ merged)
    · rintro ⟨notNull, free, same⟩
      rw [self free, same, asMember, if_neg notNull]

theorem configsOf_ordered {c : PipelineConfigs} (kept : Kept c) (pipeid : String) :
    ∀ v ∈ c.configsOf pipeid, v.Ordered := by
  intro v member
  obtain ⟨f, inFiles, found⟩ := List.mem_filterMap.mp member
  exact kept.ordered f inFiles _ (Json.mem_of_lookup found)

/-- The state. -/
theorem lists_agreeing {c : PipelineConfigs} (kept : Kept c) : c.Lists ↔ ∀ pipeid, Agreeing (c.configsOf pipeid) := by
  apply forall_congr'
  intro pipeid
  rw [find?_dump kept, find?_configsOf, asMember_foldl_iff (configsOf_ordered kept pipeid)]

end PipelineConfigs

/-! ## The calls -/

namespace GlobalConfig

/-- `update_pipeline` without `override`. -/
def mergePipeline (saved : Except Exn Bool) (c : PipelineConfigs) (pipeid : String) (data : Json) :
    Except Exn Bool × PipelineConfigs :=
  match c.find? pipeid with
  | some config => (saved, c.assign pipeid (config.mergePatch data))
  | none => (.error (doesntExist pipeid), c)

end GlobalConfig

/-- A call that changes the configs, with what `save` comes to in it; its data are as a
`json` is kept. -/
inductive ConfigCall where
  | add (saved : Except Exn Bool) (pipeid : String) (data : Json) (ordered : data.Ordered)
  | update (saved : Except Exn Bool) (pipeid : String) (data : Json) (ordered : data.Ordered) (override : Bool)
  | delete (saved : Except Exn Bool) (pipeid : String)

namespace ConfigCall

def perform (c : PipelineConfigs) : ConfigCall → Except Exn Bool × PipelineConfigs
  | .add saved pipeid data _ => GlobalConfig.addPipeline saved c pipeid data
  | .update saved pipeid data _ true => GlobalConfig.updatePipeline saved c pipeid data
  | .update saved pipeid data _ false => GlobalConfig.mergePipeline saved c pipeid data
  | .delete saved pipeid => GlobalConfig.deletePipeline saved c pipeid

def step (call : ConfigCall) (c : PipelineConfigs) : PipelineConfigs := (call.perform c).2

/-- The id of the call. -/
def pipeid : ConfigCall → String
  | .add _ pipeid .. | .update _ pipeid .. | .delete _ pipeid => pipeid

/-- What the call makes of the configs of its id, in the order of the files. -/
def configs : ConfigCall → List Json → List Json
  | .add _ _ data _, [] => [data]
  | .add .., stored => stored
  | .update .., [] => []
  | .update _ _ data _ override, config :: later => (if override then data else config.mergePatch data) :: later
  | .delete _ _, stored => stored.tail

/-- The condition on a call: what it makes of the configs of its id agrees. -/
def Keeps (call : ConfigCall) (c : PipelineConfigs) : Prop :=
  PipelineConfigs.Agreeing (call.configs (c.configsOf call.pipeid))

end ConfigCall

namespace PipelineConfigs

theorem configsOf_update_other {c : PipelineConfigs} {meets : PipelinesFile → Bool}
    {change : PipelinesFile → PipelinesFile} {keep : ∀ f, (change f).1 = f.1} {other : String}
    (same : ∀ f, (change f).2.lookup other = f.2.lookup other) :
    (c.update meets change keep).configsOf other = c.configsOf other := by
  have views : (Lib.onFirst meets change c.files).map (fun f => f.2.lookup other) =
      c.files.map fun f => f.2.lookup other := Lib.map_onFirst same c.files
  have by_views (files : List PipelinesFile) :
      files.filterMap (fun f => f.2.lookup other) = (files.map fun f => f.2.lookup other).filterMap id := by
    rw [List.filterMap_map]
    rfl
  rw [configsOf, configsOf, by_views, by_views, update, views]

/-- A change of the first file that holds the id. -/
theorem filterMap_onFirst_holds (pipeid : String) (change : PipelinesFile → PipelinesFile) (files : List PipelinesFile)
    {after : Option Json} (changed : ∀ f, (change f).2.lookup pipeid = after) :
    (onFirst (holds pipeid) change files).filterMap (fun f => f.2.lookup pipeid) =
      match files.filterMap fun f => f.2.lookup pipeid with
      | [] => []
      | _ :: later => after.toList ++ later := by
  induction files with
  | nil => rfl
  | cons f rest ih =>
    rw [onFirst]
    cases found : f.2.lookup pipeid with
    | none =>
      have free : holds pipeid f = false := by rw [holds, found]; rfl
      simp only [free, Bool.false_eq_true, if_false, List.filterMap_cons, found]
      exact ih
    | some v =>
      have held : holds pipeid f = true := by rw [holds, found]; rfl
      simp only [held, if_true, List.filterMap_cons, changed, found]
      cases after <;> rfl

theorem contains_iff (c : PipelineConfigs) (pipeid : String) : c.contains pipeid = true ↔ c.configsOf pipeid ≠ [] := by
  rw [contains_eq, find?_configsOf]
  cases c.configsOf pipeid <;> simp

/-- An entry that is new to every file. -/
theorem filterMap_onFirst_new {pipeid : String} (data : Json) {meets : PipelinesFile → Bool}
    {files : List PipelinesFile} (fresh : ∀ f ∈ files, f.2.lookup pipeid = none) (met : ∃ f ∈ files, meets f) :
    (onFirst meets (assignIn pipeid data) files).filterMap (fun f => f.2.lookup pipeid) = [data] := by
  induction files with
  | nil =>
    obtain ⟨f, member, _⟩ := met
    cases member
  | cons f rest ih =>
    obtain ⟨here, behind⟩ := List.forall_mem_cons.mp fresh
    rw [onFirst]
    split
    · have others : rest.filterMap (fun f => f.2.lookup pipeid) = [] := List.filterMap_eq_nil_iff.mpr behind
      rw [List.filterMap_cons]
      simp [assignIn, others]
    · next fails =>
      obtain ⟨g, member, meets⟩ := met
      rw [List.filterMap_cons]
      rcases List.mem_cons.mp member with rfl | later
      · exact absurd meets fails
      · simpa only [here] using ih behind ⟨g, later, meets⟩

theorem configsOf_erase (c : PipelineConfigs) (pipeid : String) :
    (c.erase pipeid).configsOf pipeid = (c.configsOf pipeid).tail := by
  have erased : ∀ f : PipelinesFile, (eraseIn pipeid f).2.lookup pipeid = none := fun f =>
    Lib.lookup_erase_self pipeid f.2
  have files := filterMap_onFirst_holds pipeid (eraseIn pipeid) c.files erased
  apply files.trans
  rw [configsOf]
  cases c.files.filterMap fun f => f.2.lookup pipeid <;> rfl

theorem configsOf_assign (c : PipelineConfigs) (pipeid : String) (data : Json) :
    (c.assign pipeid data).configsOf pipeid = data :: (c.configsOf pipeid).tail := by
  by_cases contained : c.contains pipeid
  · have first : c.holder pipeid = holds pipeid := funext fun f => if_pos contained
    have assigned : ∀ f : PipelinesFile, (assignIn pipeid data f).2.lookup pipeid = some data := fun f =>
      Lib.lookup_assign_self pipeid data f.2
    have files := filterMap_onFirst_holds pipeid (assignIn pipeid data) c.files assigned
    have stored := (c.contains_iff pipeid).mp contained
    rw [assign, first]
    apply files.trans
    rw [configsOf] at stored ⊢
    cases shape : c.files.filterMap fun f => f.2.lookup pipeid with
    | nil => exact absurd shape stored
    | cons v later => rfl
  · have first : c.holder pipeid = fun f => decide (f.1 = c.defaultPath) := funext fun f => if_neg contained
    have none : c.configsOf pipeid = [] := by
      by_contra stored
      exact contained ((c.contains_iff pipeid).mpr stored)
    obtain ⟨f, member, path⟩ := List.mem_map.mp c.listed
    rw [assign, first, none]
    exact filterMap_onFirst_new data (List.filterMap_eq_nil_iff.mp none) ⟨f, member, decide_eq_true path⟩

theorem configsOf_assign_other (c : PipelineConfigs) {pipeid other : String} (different : other ≠ pipeid)
    (data : Json) :
    (c.assign pipeid data).configsOf other = c.configsOf other :=
  configsOf_update_other fun f => Lib.lookup_assign_other different data f.2

theorem configsOf_erase_other (c : PipelineConfigs) {pipeid other : String} (different : other ≠ pipeid) :
    (c.erase pipeid).configsOf other = c.configsOf other :=
  configsOf_update_other fun f => Lib.lookup_erase_other different f.2

end PipelineConfigs

namespace ConfigCall

open PipelineConfigs

theorem configsOf_eq_nil {c : PipelineConfigs} {pipeid : String} (free : ¬ c.contains pipeid) :
    c.configsOf pipeid = [] := by
  by_contra stored
  exact free ((c.contains_iff pipeid).mpr stored)

/-- What the call makes of the configs of its id. -/
theorem configsOf_self (call : ConfigCall) (c : PipelineConfigs) :
    (call.step c).configsOf call.pipeid = call.configs (c.configsOf call.pipeid) := by
  cases call with
  | add saved pipeid data ordered =>
    simp only [step, perform, GlobalConfig.addPipeline, ConfigCall.pipeid]
    split
    · next contained =>
      cases shape : c.configsOf pipeid with
      | nil => exact absurd shape ((c.contains_iff pipeid).mp contained)
      | cons v later => rfl
    · next free => rw [configsOf_assign, configsOf_eq_nil free]; rfl
  | update saved pipeid data ordered override =>
    cases override with
    | true =>
      simp only [step, perform, GlobalConfig.updatePipeline, ConfigCall.pipeid]
      split
      · next contained =>
        rw [configsOf_assign]
        cases shape : c.configsOf pipeid with
        | nil => exact absurd shape ((c.contains_iff pipeid).mp contained)
        | cons v later => rfl
      · next free => rw [configsOf_eq_nil free]; rfl
    | false =>
      simp only [step, perform, GlobalConfig.mergePipeline, ConfigCall.pipeid, find?_configsOf]
      cases shape : c.configsOf pipeid with
      | nil => exact shape
      | cons v later => rw [List.head?_cons, configsOf_assign, shape]; rfl
  | delete saved pipeid =>
    simp only [step, perform, GlobalConfig.deletePipeline, ConfigCall.pipeid]
    split
    · exact configsOf_erase c pipeid
    · next free => rw [configsOf_eq_nil free]; rfl

/-- The other ids keep their configs. -/
theorem configsOf_other (call : ConfigCall) (c : PipelineConfigs) {other : String} (different : other ≠ call.pipeid) :
    (call.step c).configsOf other = c.configsOf other := by
  cases call with
  | add saved pipeid data ordered =>
    simp only [step, perform, GlobalConfig.addPipeline]
    split
    · rfl
    · exact configsOf_assign_other c different data
  | update saved pipeid data ordered override =>
    cases override with
    | true =>
      simp only [step, perform, GlobalConfig.updatePipeline]
      split
      · exact configsOf_assign_other c different data
      · rfl
    | false =>
      simp only [step, perform, GlobalConfig.mergePipeline]
      split
      · exact configsOf_assign_other c different _
      · rfl
  | delete saved pipeid =>
    simp only [step, perform, GlobalConfig.deletePipeline]
    split
    · exact configsOf_erase_other c different
    · rfl

end ConfigCall

namespace PipelineConfigs

theorem Kept.update {c : PipelineConfigs} (kept : Kept c) {meets : PipelinesFile → Bool}
    {change : PipelinesFile → PipelinesFile} {keep : ∀ f, (change f).1 = f.1}
    (distinct : ∀ f : PipelinesFile, (f.2.map Prod.fst).Nodup → ((change f).2.map Prod.fst).Nodup)
    (ordered : ∀ f : PipelinesFile, (∀ e ∈ f.2, e.2.Ordered) → ∀ e ∈ (change f).2, e.2.Ordered) :
    Kept (c.update meets change keep) where
  distinct := fun f member => by
    rcases Lib.mem_onFirst f member with old | ⟨g, inFiles, rfl⟩
    · exact kept.distinct f old
    · exact distinct g (kept.distinct g inFiles)
  ordered := fun f member => by
    rcases Lib.mem_onFirst f member with old | ⟨g, inFiles, rfl⟩
    · exact kept.ordered f old
    · exact ordered g (kept.ordered g inFiles)

theorem Kept.assign {c : PipelineConfigs} (kept : Kept c) (pipeid : String) {data : Json} (ordered : data.Ordered) :
    Kept (c.assign pipeid data) := by
  refine kept.update (fun f => Lib.nodup_assign) fun f inOrder e member => ?_
  rcases Lib.mem_assign e member with rfl | old
  · exact ordered
  · exact inOrder e old

theorem Kept.erase {c : PipelineConfigs} (kept : Kept c) (pipeid : String) : Kept (c.erase pipeid) := by
  refine kept.update (fun f distinct => ?_) fun f inOrder e member => inOrder e (List.mem_filter.mp member).1
  exact (List.filter_sublist.map Prod.fst).nodup distinct

theorem Kept.step {c : PipelineConfigs} (kept : Kept c) (call : ConfigCall) : Kept (call.step c) := by
  cases call with
  | add saved pipeid data ordered =>
    simp only [ConfigCall.step, ConfigCall.perform, GlobalConfig.addPipeline]
    split
    · exact kept
    · exact kept.assign pipeid ordered
  | update saved pipeid data ordered override =>
    cases override with
    | true =>
      simp only [ConfigCall.step, ConfigCall.perform, GlobalConfig.updatePipeline]
      split
      · exact kept.assign pipeid ordered
      · exact kept
    | false =>
      simp only [ConfigCall.step, ConfigCall.perform, GlobalConfig.mergePipeline]
      split
      · next config found =>
        have before : config.Ordered := by
          rw [find?_configsOf] at found
          exact configsOf_ordered kept pipeid config (List.mem_of_head? found)
        exact kept.assign pipeid (Json.mergePatch_ordered data ordered before)
      · exact kept
  | delete saved pipeid =>
    simp only [ConfigCall.step, ConfigCall.perform, GlobalConfig.deletePipeline]
    split
    · exact kept.erase pipeid
    · exact kept

/-- One call: the listing is right behind it exactly when the condition holds of it. -/
theorem lists_step {c : PipelineConfigs} (kept : Kept c) (lists : c.Lists) (call : ConfigCall) :
    (call.step c).Lists ↔ call.Keeps c := by
  have before := (lists_agreeing kept).mp lists
  rw [lists_agreeing (kept.step call), ConfigCall.Keeps, ← call.configsOf_self c]
  refine ⟨fun all => all call.pipeid, fun self other => ?_⟩
  by_cases same : other = call.pipeid
  · exact same ▸ self
  · rw [call.configsOf_other c same]
    exact before other

/-- In each state of a run the listing is right exactly when the condition holds of the state;
from a right one on, it stays right behind every call exactly as long as every call keeps that. -/
theorem lists_iff {c : PipelineConfigs} (kept : Kept c) (calls : Nat → ConfigCall) :
    (∀ k, (Lib.run ConfigCall.step calls c k).Lists ↔
        ∀ pipeid, Agreeing ((Lib.run ConfigCall.step calls c k).configsOf pipeid)) ∧
      (c.Lists → ∀ n,
        (∀ k < n, ((calls k).step (Lib.run ConfigCall.step calls c k)).Lists) ↔
          ∀ k < n, (calls k).Keeps (Lib.run ConfigCall.step calls c k)) := by
  constructor
  · intro k
    apply lists_agreeing
    exact Lib.run_invariant kept (fun call c kept => Kept.step kept call) calls k
  · intro lists n
    exact Lib.run_met_iff (fun c => Kept c ∧ c.Lists) (fun call c => (call.step c).Lists) ConfigCall.Keeps ⟨kept, lists⟩
      (fun call c inv => lists_step inv.1 inv.2 call) (fun call c after inv => ⟨inv.1.step call, after⟩) n

/-- A pipeline with a field that is null. -/
def nullField : PipelineConfigs where
  files := [("pipelines.json", [("a", .object [("connector_in", .null)])])]
  defaultPath := "pipelines.json"
  listed := by decide

/-- A pipeline in two files, with different configs. -/
def inTwoFiles : PipelineConfigs where
  files := [("pipelines.json", [("a", .object [("enabled", .boolean true)])]),
    ("pipelines/b.json", [("a", .object [("enabled", .boolean false)])])]
  defaultPath := "pipelines.json"
  listed := by decide

example : inTwoFiles.dump.find? "a" = some (.object [("enabled", .boolean false)]) ∧
    inTwoFiles.find? "a" = some (.object [("enabled", .boolean true)]) := by decide

/-- Deleted from the one file and from the other, it is not listed any more. -/
theorem listed_behind_two_deletes :
    (Lib.run ConfigCall.step (fun _ => .delete (.ok true) "a") inTwoFiles 2).Lists := by
  have kept : Kept inTwoFiles := by
    constructor <;> simp [inTwoFiles, Json.Ordered, Json.OrderedMembers, Json.Sorted]
  apply ((lists_iff kept fun _ => .delete (.ok true) "a").1 2).mpr
  intro pipeid
  have files : (Lib.run ConfigCall.step (fun _ => .delete (.ok true) "a") inTwoFiles 2).files =
      [("pipelines.json", []), ("pipelines/b.json", [])] := by decide
  rw [configsOf, files]
  trivial

theorem null_field_not_listed : ¬ ∀ c : PipelineConfigs, Kept c → c.Lists := by
  intro all
  have kept : Kept nullField := by
    constructor <;> simp [nullField, Json.Ordered, Json.OrderedMembers, Json.Sorted]
  have same := all nullField kept "a"
  revert same
  decide

end PipelineConfigs

end M2eBridge
