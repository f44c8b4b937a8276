import Mathlib.Data.List.Nodup
import M2eBridge.ConfigFiles
import M2eBridge.GlobalConfig

/-!
# The pipelines files on the disk

`PipelineConfigs::save` writes every file under its path, and a later `load` reads what is
there. `erase` takes an id out of the first file that has it and no other, so behind a
`delete_pipeline` that has succeeded the id is gone, from memory and from the files,
exactly when one file had it (`deleted_iff`).
-/

namespace M2eBridge

open Lib (holds)

namespace PipelineConfigs

variable {φ : Type} [DecidableEq φ]

/-- The document of a file. -/
def document (file : PipelinesFile) : Json := .object file.2

/-- The loop of `save`, with the disk that it leaves; it ends at a file that can not be opened. -/
def saveFiles (disk : Disk φ) (written : String → Written) : List PipelinesFile → Bool × Disk φ
  | [] => (true, disk)
  | file :: rest =>
    if written file.1 = .refused then (false, disk)
    else saveFiles (disk.write file.1 (document file) (written file.1)) written rest

def save (c : PipelineConfigs) (disk : Disk φ) (written : String → Written) : Bool × Disk φ :=
  saveFiles disk written c.files

omit [DecidableEq φ] in
/-- A load of the files under their paths. -/
def reload (c : PipelineConfigs) (disk : Disk φ) : Except Exn (List (String × Json)) :=
  (c.files.map Prod.fst).foldlM (GlobalConfig.loadPipelines disk) []

/-- What is left behind a deletion: the id is in no file, a load finds it in none, and
every file has the configs of the other ids that it had. -/
structure Deleted (c after : PipelineConfigs) (disk : Disk φ) (pipeid : String) : Prop where
  gone : after.contains pipeid = false
  reloaded : ∀ loaded, after.reload disk = .ok loaded → ∀ file ∈ loaded, file.2.contains pipeid = false
  others : ∀ other, other ≠ pipeid →
    after.files.map (fun f => (f.1, f.2.lookup other)) = c.files.map fun f => (f.1, f.2.lookup other)

/-! ## What is on the disk -/

theorem write_file (d : Disk φ) (path : String) (j : Json) (written : Written) :
    (d.write path j written).file = d.file := by
  cases written <;> rfl

/-- A file that has been opened is read as the document, or not at all. -/
theorem read_write {d : Disk φ} {path other : String} {j k : Json} {written : Written} (opened : written ≠ .refused)
    (read : (d.write path j written).read other = .ok k) :
    d.file other = d.file path ∧ k = j ∨ d.file other ≠ d.file path ∧ d.read other = .ok k := by
  by_cases same : d.file other = d.file path
  · refine .inl ⟨same, ?_⟩
    cases written with
    | refused => exact absurd rfl opened
    | whole => exact Except.ok.inj (read.symm.trans (Disk.read_write_same same j))
    | cutShort e =>
      have cut : (d.write path j (.cutShort e)).read other = .error e := if_pos same
      cases cut.symm.trans read
  · exact .inr ⟨same, (Disk.read_write_other same j written).symm.trans read⟩

/-- What a path is read as behind a save that has come to its end. -/
theorem read_saved {written : String → Written} {files : List PipelinesFile} {disk : Disk φ} {path : String} {j : Json}
    (saved : (saveFiles disk written files).1 = true) (read : (saveFiles disk written files).2.read path = .ok j) :
    (∃ f ∈ files, j = document f) ∨ (∀ f ∈ files, disk.file path ≠ disk.file f.1) ∧ disk.read path = .ok j := by
  induction files generalizing disk with
  | nil => exact .inr ⟨fun f member => absurd member List.not_mem_nil, read⟩
  | cons f rest ih =>
    rw [saveFiles] at saved read
    by_cases refused : written f.1 = .refused
    · rw [if_pos refused] at saved
      cases saved
    · rw [if_neg refused] at saved read
      rcases ih saved read with ⟨g, member, same⟩ | ⟨apart, before⟩
      · exact .inl ⟨g, List.mem_cons_of_mem f member, same⟩
      · simp only [write_file] at apart
        rcases read_write refused before with ⟨_, same⟩ | ⟨other, before⟩
        · exact .inl ⟨f, List.mem_cons_self, same⟩
        · exact .inr ⟨List.forall_mem_cons.mpr ⟨other, apart⟩, before⟩

/-- A save does not touch a file that is none of them. -/
theorem read_saveFiles_other {written : String → Written} {files : List PipelinesFile} {disk : Disk φ} {path : String}
    (apart : ∀ f ∈ files, disk.file path ≠ disk.file f.1) :
    (saveFiles disk written files).2.read path = disk.read path := by
  induction files generalizing disk with
  | nil => rfl
  | cons f rest ih =>
    obtain ⟨here, behind⟩ := List.forall_mem_cons.mp apart
    rw [saveFiles]
    split
    · rfl
    · rw [ih (by simpa only [write_file] using behind), Disk.read_write_other here]

/-- Written whole to files of their own, the documents are read back. -/
theorem read_saved_whole {written : String → Written} {files : List PipelinesFile} {disk : Disk φ}
    (whole : ∀ f ∈ files, written f.1 = .whole) (distinct : (files.map fun f => disk.file f.1).Nodup) :
    ∀ f ∈ files, (saveFiles disk written files).2.read f.1 = .ok (document f) := by
  induction files generalizing disk with
  | nil => exact fun f member => absurd member List.not_mem_nil
  | cons f rest ih =>
    obtain ⟨here, behind⟩ := List.forall_mem_cons.mp whole
    obtain ⟨fresh, others⟩ := List.nodup_cons.mp distinct
    have opened : written f.1 ≠ .refused := by simp [here]
    rw [saveFiles, if_neg opened]
    refine List.forall_mem_cons.mpr ⟨?_, ih behind (by simpa only [write_file] using others)⟩
    rw [read_saveFiles_other, here, Disk.read_write_same rfl]
    intro g member same
    simp only [write_file] at same
    exact fresh (List.mem_map.mpr ⟨g, member, same.symm⟩)

/-! ## What a load finds -/

omit [DecidableEq φ] in
/-- Every document that is loaded has been read from its path. -/
theorem read_of_loaded {disk : Disk φ} {paths : List String} {before loaded : List (String × Json)}
    (load : paths.foldlM (GlobalConfig.loadPipelines disk) before = .ok loaded) :
    ∀ file ∈ loaded, file ∈ before ∨ file.1 ∈ paths ∧ disk.read file.1 = .ok file.2 := by
  induction paths generalizing before with
  | nil => cases load; exact fun file member => .inl member
  | cons path rest ih =>
    rw [List.foldlM_cons] at load
    obtain ⟨one, first, later⟩ := bind_eq_ok.mp load
    obtain ⟨j, read, assigned⟩ := bind_eq_ok.mp first
    obtain rfl := Except.ok.inj assigned
    intro file member
    rcases ih later file member with old | ⟨inRest, found⟩
    · rcases Lib.mem_assign file old with rfl | before
      · exact .inr ⟨List.mem_cons_self, read⟩
      · exact .inl before
    · exact .inr ⟨List.mem_cons_of_mem path inRest, found⟩

theorem assign_append {path : String} {j : Json} {files : List (String × Json)} (fresh : path ∉ files.map Prod.fst) :
    Lib.assign path j files = files ++ [(path, j)] := by
  induction files with
  | nil => rfl
  | cons f rest ih =>
    simp only [List.map_cons, List.mem_cons, not_or] at fresh
    rw [Lib.assign, if_neg fresh.1, ih fresh.2, List.cons_append]

omit [DecidableEq φ] in
/-- Files under different paths are loaded one after another. -/
theorem loaded_of_read {disk : Disk φ} {files : List PipelinesFile} {before : List (String × Json)}
    (distinct : (before.map Prod.fst ++ files.map Prod.fst).Nodup)
    (reads : ∀ f ∈ files, disk.read f.1 = .ok (document f)) :
    (files.map Prod.fst).foldlM (GlobalConfig.loadPipelines disk) before =
      .ok (before ++ files.map fun f => (f.1, document f)) := by
  induction files generalizing before with
  | nil => simp [pure, Except.pure]
  | cons f rest ih =>
    obtain ⟨here, behind⟩ := List.forall_mem_cons.mp reads
    have fresh : f.1 ∉ before.map Prod.fst := fun there =>
      (List.nodup_append.mp distinct).2.2 f.1 there f.1 List.mem_cons_self rfl
    have moved : ((before ++ [(f.1, document f)]).map Prod.fst ++ rest.map Prod.fst).Nodup := by simpa using distinct
    rw [List.map_cons, List.foldlM_cons]
    refine bind_eq_ok.mpr ⟨_, bind_eq_ok.mpr ⟨document f, here, congrArg Except.ok (assign_append fresh)⟩, ?_⟩
    simpa using ih moved behind

/-! ## The deletion -/

theorem erase_free_iff {c : PipelineConfigs} {pipeid : String} (contained : c.contains pipeid) :
    (c.erase pipeid).contains pipeid = false ↔ c.files.countP (holds pipeid) = 1 := by
  have held : 0 < c.files.countP (holds pipeid) := List.countP_pos_iff.mpr (List.any_eq_true.mp contained)
  rw [contains_eq, Option.isSome_eq_false_iff, Option.isNone_iff_eq_none, find?_erase_self]
  omega

theorem lookup_eraseIn (pipeid : String) {other : String} (different : other ≠ pipeid) (c : PipelineConfigs) :
    (c.erase pipeid).files.map (fun f => (f.1, f.2.lookup other)) = c.files.map fun f => (f.1, f.2.lookup other) :=
  Lib.map_onFirst (fun f => congrArg (Prod.mk f.1) (Lib.lookup_erase_other different f.2)) c.files

theorem document_contains (file : PipelinesFile) (pipeid : String) :
    (document file).contains pipeid = holds pipeid file := rfl

/-- No file that is loaded behind a save has an id that no file in memory has. -/
theorem reload_free {c : PipelineConfigs} {disk : Disk φ} {written : String → Written} {pipeid : String}
    (saved : (c.save disk written).1 = true) (free : c.contains pipeid = false) {loaded : List (String × Json)}
    (load : c.reload (c.save disk written).2 = .ok loaded) : ∀ file ∈ loaded, file.2.contains pipeid = false := by
  intro file member
  rcases read_of_loaded load file member with old | ⟨path, read⟩
  · cases old
  · rcases read_saved saved read with ⟨f, inFiles, same⟩ | ⟨apart, -⟩
    · have absent : holds pipeid f = false := by
        rw [contains, List.any_eq_false] at free
        simpa using free f inFiles
      rw [same, document_contains, absent]
    · obtain ⟨f, inFiles, named⟩ := List.mem_map.mp path
      exact absurd (congrArg disk.file named.symm) (apart f inFiles)

/-- A deletion that has succeeded leaves nothing of the id, and all of the others, exactly
when one file had it; and where every file has been written whole, to a file of its own, a
load finds the files as they are in memory. -/
theorem deleted_iff {c after : PipelineConfigs} {disk : Disk φ} {written : String → Written} {pipeid : String}
    (deleted : GlobalConfig.deletePipeline (.ok ((c.erase pipeid).save disk written).1) c pipeid = (.ok true, after)) :
    (Deleted c after (after.save disk written).2 pipeid ↔ c.files.countP (holds pipeid) = 1) ∧
      ((∀ f ∈ after.files, written f.1 = .whole) → (after.files.map fun f => disk.file f.1).Nodup →
        after.reload (after.save disk written).2 = .ok (after.files.map fun f => (f.1, document f))) := by
  obtain ⟨contained, saved, rfl⟩ : c.contains pipeid = true ∧ ((c.erase pipeid).save disk written).1 = true ∧
      c.erase pipeid = after := by
    unfold GlobalConfig.deletePipeline at deleted
    split at deleted
    · next contained =>
      obtain ⟨result, erased⟩ := Prod.mk.inj deleted
      exact ⟨contained, Except.ok.inj result, erased⟩
    · cases (Prod.mk.inj deleted).1
  refine ⟨⟨fun gone => (erase_free_iff contained).mp gone.gone, fun one => ?_⟩, fun whole distinct => ?_⟩
  · have free := (erase_free_iff contained).mpr one
    exact {
      gone := free
      reloaded := fun loaded load => reload_free saved free load
      others := fun other different => lookup_eraseIn pipeid different c }
  · -- files of their own are under paths of their own
    have paths : ((c.erase pipeid).files.map Prod.fst).Nodup := by
      refine List.Nodup.of_map disk.file ?_
      rwa [List.map_map]
    exact loaded_of_read (by simpa using paths) (read_saved_whole whole distinct)

/-- A disk where a path names a file of its own, and none can be read yet. -/
def blankDisk : Disk String where
  file := id
  content := fun _ => .error ⟨.runtimeError, ""⟩
  regularFiles := fun _ => .ok []

/-- A pipeline in two files. -/
def heldTwice : PipelineConfigs where
  files := [("a.json", [("p", .object [("enabled", .boolean false)])]),
    ("b.json", [("p", .object [("enabled", .boolean true)]), ("q", .object [])])]
  defaultPath := "a.json"
  listed := List.mem_cons_self

/-- The pipeline that one file has is deleted. -/
theorem deleted_iff_oneFile :
    Deleted heldTwice (heldTwice.erase "q") ((heldTwice.erase "q").save blankDisk fun _ => .whole).2 "q" :=
  have deleted : GlobalConfig.deletePipeline (.ok ((heldTwice.erase "q").save blankDisk fun _ => .whole).1) heldTwice
      "q" = (.ok true, heldTwice.erase "q") := rfl
  (deleted_iff deleted).1.mpr (by decide)

/-- Deleted with success, the pipeline is still there, with its config of the other file. -/
theorem deleted_still_there :
    ¬ ∀ (c after : PipelineConfigs) (disk : Disk String) (written : String → Written) (pipeid : String),
      GlobalConfig.deletePipeline (.ok ((c.erase pipeid).save disk written).1) c pipeid = (.ok true, after) →
        Deleted c after (after.save disk written).2 pipeid := by
  intro all
  have gone := (all heldTwice (heldTwice.erase "p") blankDisk (fun _ => .whole) "p" (by decide)).gone
  exact absurd gone (by decide)

end PipelineConfigs

end M2eBridge
