import M2eBridge.GlobalConfig

/-!
# The iterator over the pipeline configs

`PipelineConfigsIterator` as a pair of positions, with the operations that are
undefined past an end as partial ones. Neither the constructor nor the increment looks
whether the file they come to has an entry: an empty file, wherever it stands, brings
the loop of `init` to an entry that does not exist. So the loop goes through the
entries of all files in order exactly when no file is empty (`visits_iff`).
-/

namespace M2eBridge

/-- An iterator into the members of a file: the file and the position, `cend()` the length. -/
structure MemberIterator where
  file : Nat
  position : Nat
  deriving DecidableEq, Repr

/-- `configs` is the position in the map of the files, the end its size. -/
@[ext] structure PipelineConfigsIterator where
  configs : Nat
  pipelines : MemberIterator
  deriving DecidableEq, Repr

namespace PipelineConfigsIterator

variable (files : List PipelinesFile)

/-- `second.cbegin()` of the file at a position of the map. -/
def memberBegin (configs : Nat) : Option MemberIterator := files[configs]?.map fun _ => ⟨configs, 0⟩

/-- `second.cend()`. -/
def memberEnd (configs : Nat) : Option MemberIterator := files[configs]?.map fun f => ⟨configs, f.2.length⟩

/-- The constructor; there is no first file behind `cbegin()` of an empty map. -/
def cbegin : Option PipelineConfigsIterator := (memberBegin files 0).map fun pipelines => ⟨0, pipelines⟩

/-- The constructor with `end`; without files the second iterator stays as it was made. -/
def cend : PipelineConfigsIterator where
  configs := files.length
  pipelines := (memberEnd files (files.length - 1)).getD ⟨0, 0⟩

/-- `key()` and `operator*`. -/
def entry (it : PipelineConfigsIterator) : Option (String × Json) :=
  files[it.pipelines.file]?.bind fun f => f.2[it.pipelines.position]?

/-- `++pipelines_iterator_`, which is not defined at the end. -/
def nextMember (it : PipelineConfigsIterator) : Option MemberIterator :=
  (it.entry files).map fun _ => ⟨it.pipelines.file, it.pipelines.position + 1⟩

/-- `operator++`; the two iterators that it compares are of the file that `configs` is at. -/
def next (it : PipelineConfigsIterator) : Option PipelineConfigsIterator := do
  let pipelines ← it.nextMember files
  let last ← memberEnd files it.configs
  if pipelines = last then
    if it.configs + 1 ≠ files.length then
      let first ← memberBegin files (it.configs + 1)
      some ⟨it.configs + 1, first⟩
    else some ⟨it.configs + 1, pipelines⟩
  else some ⟨it.configs, pipelines⟩

/-- The loop from an iterator to `cend()`, with the entries it visits: `none` where an
operation is undefined, or when the fuel is spent. -/
def visit : Nat → PipelineConfigsIterator → Option (List (String × Json))
  | 0, _ => none
  | n + 1, it =>
    if it = cend files then some []
    else do
      let e ← it.entry files
      let rest ← visit n (← it.next files)
      some (e :: rest)

/-- `for(auto it = cbegin(); it != cend(); ++it)` -/
def iterate (fuel : Nat) : Option (List (String × Json)) := (cbegin files).bind (visit files fuel)

/-- The iterator at an entry of a file. -/
def at' (i p : Nat) : PipelineConfigsIterator := ⟨i, ⟨i, p⟩⟩

/-- What is left from there. -/
def left (i p : Nat) : List (String × Json) :=
  ((files[i]?.map Prod.snd).getD []).drop p ++ (files.drop (i + 1)).flatMap Prod.snd

variable {files}

theorem at_ne_cend {i : Nat} (inside : i < files.length) (p : Nat) : at' i p ≠ cend files := by
  intro same
  have configs := congrArg PipelineConfigsIterator.configs same
  simp only [at', cend] at configs
  omega

theorem entry_at {i p : Nat} {f : PipelinesFile} (found : files[i]? = some f) :
    (at' i p).entry files = f.2[p]? := by
  simp [entry, at', found]

theorem nextMember_at {i p : Nat} {f : PipelinesFile} (found : files[i]? = some f) (inside : p < f.2.length) :
    (at' i p).nextMember files = some ⟨i, p + 1⟩ := by
  rw [nextMember, entry_at found, List.getElem?_eq_getElem inside]
  rfl

/-- The increment inside a file. -/
theorem next_inside {i p : Nat} {f : PipelinesFile} (found : files[i]? = some f) (inside : p + 1 < f.2.length) :
    (at' i p).next files = some (at' i (p + 1)) := by
  have before : p + 1 ≠ f.2.length := by omega
  rw [next, nextMember_at found (by omega)]
  simp [memberEnd, found, at', before]

/-- The increment from the last entry of a file to the first of the next one. -/
theorem next_file {i p : Nat} {f g : PipelinesFile} (found : files[i]? = some f) (last : p + 1 = f.2.length)
    (later : files[i + 1]? = some g) : (at' i p).next files = some (at' (i + 1) 0) := by
  have bound := (List.getElem?_eq_some_iff.mp later).1
  have more : i + 1 ≠ files.length := by omega
  rw [next, nextMember_at found (by omega)]
  simp [memberEnd, memberBegin, found, later, at', last, more]

/-- The increment from the last entry of the last file. -/
theorem next_end {i p : Nat} {f : PipelinesFile} (found : files[i]? = some f) (last : p + 1 = f.2.length)
    (final : i + 1 = files.length) : (at' i p).next files = some (cend files) := by
  have index : files.length - 1 = i := by omega
  rw [next, nextMember_at found (by omega)]
  simp [memberEnd, found, at', last, final, cend, index]

/-- At no entry the operations are undefined. -/
theorem visit_past {i p : Nat} {f : PipelinesFile} (found : files[i]? = some f) (past : f.2.length ≤ p) (n : Nat) :
    visit files n (at' i p) = none := by
  have bound := (List.getElem?_eq_some_iff.mp found).1
  cases n with
  | zero => rfl
  | succ n =>
    rw [visit, if_neg (at_ne_cend bound p), entry_at found, List.getElem?_eq_none past]
    rfl

/-! ## The loop -/

theorem left_inside {i p : Nat} {f : PipelinesFile} (found : files[i]? = some f) (inside : p < f.2.length) :
    left files i p = f.2[p] :: left files i (p + 1) := by
  simp only [left, found, Option.map_some, Option.getD_some]
  rw [List.drop_eq_getElem_cons inside, List.cons_append]

/-- Behind the last entry of a file the next file is left. -/
theorem left_file {i p : Nat} {f g : PipelinesFile} (found : files[i]? = some f) (past : p = f.2.length)
    (later : files[i + 1]? = some g) : left files i p = left files (i + 1) 0 := by
  obtain ⟨bound, rfl⟩ := List.getElem?_eq_some_iff.mp later
  simp only [left, found, List.getElem?_eq_getElem bound, Option.map_some, Option.getD_some, past, List.drop_length,
    List.nil_append, List.drop_zero]
  rw [List.drop_eq_getElem_cons bound, List.flatMap_cons]

theorem left_end {i p : Nat} {f : PipelinesFile} (found : files[i]? = some f) (past : p = f.2.length)
    (final : i + 1 = files.length) : left files i p = [] := by
  simp [left, found, past, final]

/-- One turn of the loop. -/
theorem visit_at {i p : Nat} {f : PipelinesFile} (found : files[i]? = some f) (inside : p < f.2.length) (n : Nat) :
    visit files (n + 1) (at' i p) = ((at' i p).next files).bind fun it => (visit files n it).map (f.2[p] :: ·) := by
  have bound := (List.getElem?_eq_some_iff.mp found).1
  rw [visit, if_neg (at_ne_cend bound p), entry_at found, List.getElem?_eq_getElem inside]
  simp only [Option.bind_eq_bind, Option.bind_some]
  cases (at' i p).next files with
  | none => rfl
  | some it => cases h : visit files n it <;> simp [h]

/-- Where no file behind is empty, the loop goes through all that is left. -/
theorem visit_left (m : Nat) {i p : Nat} {f : PipelinesFile} (found : files[i]? = some f) (inside : p < f.2.length)
    (filled : ∀ g ∈ files.drop (i + 1), g.2 ≠ []) (count : (left files i p).length = m) :
    visit files (m + 1) (at' i p) = some (left files i p) := by
  induction m generalizing i p f with
  | zero =>
    rw [left_inside found inside] at count
    cases count
  | succ m ih =>
    rw [left_inside found inside] at count ⊢
    have count : (left files i (p + 1)).length = m := by simpa using count
    rw [visit_at found inside]
    by_cases more : p + 1 < f.2.length
    · rw [next_inside found more]
      simp [ih found more filled count]
    · have last : p + 1 = f.2.length := by omega
      cases later : files[i + 1]? with
      | some g =>
        obtain ⟨bound, rfl⟩ := List.getElem?_eq_some_iff.mp later
        rw [List.drop_eq_getElem_cons bound] at filled
        obtain ⟨nonempty, filled⟩ := List.forall_mem_cons.mp filled
        rw [left_file found last later] at count ⊢
        rw [next_file found last later]
        simp [ih later (List.length_pos_iff.mpr nonempty) filled count]
      | none =>
        have bound := (List.getElem?_eq_some_iff.mp found).1
        have final : i + 1 = files.length := by
          have past := List.getElem?_eq_none_iff.mp later
          omega
        rw [next_end found last final, left_end found last final]
        simp [visit]

/-- A loop that comes to its end has met no empty file. -/
theorem filled_of_visit (n : Nat) {i p : Nat} {f : PipelinesFile} {visited : List (String × Json)}
    (found : files[i]? = some f) (done : visit files n (at' i p) = some visited) :
    p < f.2.length ∧ ∀ g ∈ files.drop (i + 1), g.2 ≠ [] := by
  have inside : p < f.2.length := by
    by_contra past
    rw [visit_past found (Nat.not_lt.mp past)] at done
    cases done
  refine ⟨inside, ?_⟩
  induction n generalizing i p f visited with
  | zero => cases done
  | succ n ih =>
    rw [visit_at found inside] at done
    obtain ⟨it, stepped, done⟩ := Option.bind_eq_some_iff.mp done
    obtain ⟨rest, done, -⟩ := Option.map_eq_some_iff.mp done
    by_cases more : p + 1 < f.2.length
    · rw [next_inside found more] at stepped
      cases stepped
      exact ih found done more
    · have last : p + 1 = f.2.length := by omega
      cases later : files[i + 1]? with
      | some g =>
        rw [next_file found last later] at stepped
        cases stepped
        obtain ⟨bound, rfl⟩ := List.getElem?_eq_some_iff.mp later
        have inside' : 0 < files[i + 1].2.length := by
          by_contra past
          rw [visit_past later (Nat.not_lt.mp past)] at done
          cases done
        rw [List.drop_eq_getElem_cons bound]
        exact List.forall_mem_cons.mpr ⟨List.length_pos_iff.mp inside', ih later done inside'⟩
      | none =>
        rw [List.drop_eq_nil_of_le (List.getElem?_eq_none_iff.mp later)]
        simp

end PipelineConfigsIterator

namespace PipelineConfigs

open PipelineConfigsIterator

/-- The loop of `init` comes to its end, every operation in it is defined, and it visits
the entries of every file in order, each once. -/
def Visits (c : PipelineConfigs) : Prop := ∃ fuel, iterate c.files fuel = some c.entries

theorem iterate_eq (c : PipelineConfigs) (fuel : Nat) : ∃ f rest, c.files = f :: rest ∧
    iterate c.files fuel = visit c.files fuel (at' 0 0) ∧ left c.files 0 0 = c.entries := by
  cases shape : c.files with
  | nil =>
    have listed := c.listed
    rw [shape] at listed
    cases listed
  | cons f rest => exact ⟨f, rest, rfl, rfl, by simp [left, PipelineConfigs.entries, shape]⟩

theorem filled_of_visits {c : PipelineConfigs} (visits : c.Visits) : ∀ f ∈ c.files, f.2 ≠ [] := by
  obtain ⟨fuel, done⟩ := visits
  obtain ⟨f, rest, shape, started, -⟩ := c.iterate_eq fuel
  rw [started] at done
  have found : c.files[0]? = some f := by rw [shape]; rfl
  obtain ⟨inside, filled⟩ := filled_of_visit fuel found done
  rw [shape] at filled ⊢
  exact List.forall_mem_cons.mpr ⟨List.length_pos_iff.mp inside, filled⟩

theorem iterate_filled {c : PipelineConfigs} (filled : ∀ f ∈ c.files, f.2 ≠ []) :
    iterate c.files (c.entries.length + 1) = some c.entries := by
  obtain ⟨f, rest, shape, started, all⟩ := c.iterate_eq (c.entries.length + 1)
  have found : c.files[0]? = some f := by rw [shape]; rfl
  have behind : ∀ g ∈ c.files.drop (0 + 1), g.2 ≠ [] := fun g member => filled g (List.mem_of_mem_drop member)
  have inside : 0 < f.2.length := List.length_pos_iff.mpr (filled f (List.mem_of_getElem? found))
  rw [started, ← all]
  exact visit_left _ found inside behind rfl

/-- The loop is right exactly when no file is empty. -/
theorem visits_iff (c : PipelineConfigs) : c.Visits ↔ ∀ f ∈ c.files, f.2 ≠ [] :=
  ⟨filled_of_visits, fun filled => ⟨c.entries.length + 1, iterate_filled filled⟩⟩

/-- The default file has a pipeline, the second has none. -/
def emptySecond : PipelineConfigs where
  files := [("pipelines.json", [("a", .object [])]), ("pipelines/b.json", [])]
  defaultPath := "pipelines.json"
  listed := by decide

theorem visits_no_entry : ¬ ∀ c : PipelineConfigs, c.Visits := fun all =>
  filled_of_visits (all emptySecond) ("pipelines/b.json", []) (by decide) rfl

end PipelineConfigs

end M2eBridge
