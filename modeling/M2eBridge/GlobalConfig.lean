import M2eBridge.Json
import M2eBridge.Lib.Layers

/-!
# The stored pipeline configs

`PipelineConfigs` with the three functions of `GlobalConfig` that change it. A
pipelines file is an object, kept as its entries in file order, and the files are
in path order. What `save` returns or throws is an argument: it changes nothing in
memory. A config is a `Json`, so the order of the members inside one is not kept.
-/

namespace M2eBridge

open Lib (Layer onFirst holds assignIn eraseIn)

/-- A file under its path: one entry for each pipeline. -/
abbrev PipelinesFile := Layer String String Json

@[ext] structure PipelineConfigs where
  files : List PipelinesFile
  defaultPath : String
  /-- `load` reads the default file before any other. -/
  listed : defaultPath ∈ files.map Prod.fst
  deriving DecidableEq

namespace PipelineConfigs

/-- `at(pipeid)`, `none` where it throws. -/
def find? (c : PipelineConfigs) (pipeid : String) : Option Json := Lib.find? pipeid c.files

def contains (c : PipelineConfigs) (pipeid : String) : Bool := c.files.any (holds pipeid)

/-- All entries in the order in which `init` meets them. -/
def entries (c : PipelineConfigs) : List (String × Json) := c.files.flatMap Prod.snd

theorem contains_eq (c : PipelineConfigs) (pipeid : String) : c.contains pipeid = (c.find? pipeid).isSome :=
  (Lib.find?_isSome pipeid c.files).symm

theorem lookup_entries (c : PipelineConfigs) (pipeid : String) : c.entries.lookup pipeid = c.find? pipeid :=
  Lib.lookup_flatten pipeid c.files

/-- An update that keeps every path. -/
def update (c : PipelineConfigs) (meets : PipelinesFile → Bool) (change : PipelinesFile → PipelinesFile)
    (keep : ∀ f, (change f).1 = f.1) : PipelineConfigs where
  files := onFirst meets change c.files
  defaultPath := c.defaultPath
  listed := (Lib.map_onFirst keep c.files).symm ▸ c.listed

/-- The file that `operator[]` takes its entry from. -/
def holder (c : PipelineConfigs) (pipeid : String) (file : PipelinesFile) : Bool :=
  if c.contains pipeid then holds pipeid file else file.1 = c.defaultPath

/-- `operator[](pipeid) = data`. -/
def assign (c : PipelineConfigs) (pipeid : String) (data : Json) : PipelineConfigs :=
  c.update (c.holder pipeid) (assignIn pipeid data) fun _ => rfl

def erase (c : PipelineConfigs) (pipeid : String) : PipelineConfigs :=
  c.update (holds pipeid) (eraseIn pipeid) fun _ => rfl

@[simp] theorem find?_assign_self (c : PipelineConfigs) (pipeid : String) (data : Json) :
    (c.assign pipeid data).find? pipeid = some data := by
  refine Lib.find?_assignIn_self data (fun f there held => ?_) ?_
  · have contained : c.contains pipeid := List.any_eq_true.mpr ⟨f, there, held⟩
    rwa [holder, if_pos contained]
  · by_cases contained : c.contains pipeid
    · obtain ⟨f, there, held⟩ := List.any_eq_true.mp contained
      exact ⟨f, there, by rwa [holder, if_pos contained]⟩
    · obtain ⟨f, there, path⟩ := List.mem_map.mp c.listed
      exact ⟨f, there, by rw [holder, if_neg contained]; exact decide_eq_true path⟩

theorem find?_assign_other (c : PipelineConfigs) {pipeid other : String} (different : other ≠ pipeid) (data : Json) :
    (c.assign pipeid data).find? other = c.find? other :=
  Lib.find?_onFirst_other (fun f => Lib.lookup_assign_other different data f.2) c.files

theorem find?_erase_other (c : PipelineConfigs) {pipeid other : String} (different : other ≠ pipeid) :
    (c.erase pipeid).find? other = c.find? other :=
  Lib.find?_onFirst_other (fun f => Lib.lookup_erase_other different f.2) c.files

/-- `erase` stops at the first file that contains the id. -/
theorem find?_erase_self (c : PipelineConfigs) (pipeid : String) :
    (c.erase pipeid).find? pipeid = none ↔ c.files.countP (holds pipeid) ≤ 1 :=
  Lib.find?_eraseIn_self c.files

/-- An assignment is without effect iff it writes what is there. -/
theorem assign_eq_self_iff {c : PipelineConfigs} {pipeid : String} {data : Json} :
    c.assign pipeid data = c ↔ c.find? pipeid = some data := by
  constructor
  · intro same
    rw [← same, find?_assign_self]
  · intro found
    have contained : c.contains pipeid := by rw [contains_eq, found]; rfl
    have first : c.holder pipeid = holds pipeid := funext fun f => if_pos contained
    refine PipelineConfigs.ext ?_ rfl
    rw [assign, first]
    exact Lib.onFirst_assignIn_same found

theorem erase_ne_self {c : PipelineConfigs} {pipeid : String} (contained : c.contains pipeid) :
    c.erase pipeid ≠ c := by
  intro same
  rw [contains_eq] at contained
  exact Lib.onFirst_eraseIn_ne contained (congrArg files same)

end PipelineConfigs

namespace GlobalConfig

def alreadyExist (pipeid : String) : Exn := ⟨.invalidArgument, "Pipeline [ " ++ pipeid ++ " ] already exist!"⟩

def doesntExist (pipeid : String) : Exn := ⟨.invalidArgument, "Pipeline [ " ++ pipeid ++ " ] doesn't exist!"⟩

/-- What is returned or thrown, with the configs in memory afterwards. -/
def addPipeline (saved : Except Exn Bool) (c : PipelineConfigs) (pipeid : String) (data : Json) :
    Except Exn Bool × PipelineConfigs :=
  if c.contains pipeid then (.error (alreadyExist pipeid), c) else (saved, c.assign pipeid data)

/-- `update_pipeline` with `override`. -/
def updatePipeline (saved : Except Exn Bool) (c : PipelineConfigs) (pipeid : String) (data : Json) :
    Except Exn Bool × PipelineConfigs :=
  if c.contains pipeid then (saved, c.assign pipeid data) else (.error (doesntExist pipeid), c)

def deletePipeline (saved : Except Exn Bool) (c : PipelineConfigs) (pipeid : String) :
    Except Exn Bool × PipelineConfigs :=
  if c.contains pipeid then (saved, c.erase pipeid) else (.error (doesntExist pipeid), c)

end GlobalConfig

end M2eBridge
