import M2eBridge.ConnectorFactory
import M2eBridge.Filtra

/-!
# Reading a configuration

The constructors of the filtras read their members from a configuration, some with checked
accesses and some with `operator[]` on a constant document, which is not defined for a key
that is not there. A `Reading` is what such a constructor comes to: whether it is defined,
and what it throws, is read off its parts.
-/

namespace M2eBridge

/-- What the reads of a constructor come to, `none` behind an access that is not defined. -/
abbrev Reading := ExceptT Exn Option

namespace Reading

variable {α β : Type}

def checked (r : Except Exn α) : Reading α := ExceptT.mk (some r)

/-- `operator[]` on a constant document. -/
def index (j : Json) (key : String) : Reading Json := ExceptT.mk (j.index key)

/-- Every access is one that may be made. -/
def Defined (x : Reading α) : Prop := x.run ≠ none

/-- What is thrown is so. -/
def Raises (holds : Exn → Prop) (x : Reading α) : Prop := ∀ e, x.run = some (.error e) → holds e

abbrev Tells (x : Reading α) : Prop := x.Raises Exn.Told

def Gives (x : Reading α) (a : α) : Prop := x.run = some (.ok a)

theorem bind_run (x : Reading α) (f : α → Reading β) :
    (x >>= f).run = match x.run with
      | none => none
      | some (.error e) => some (.error e)
      | some (.ok a) => (f a).run := by
  simp only [bind, ExceptT.bind, ExceptT.run, ExceptT.mk]
  cases x with
  | none => rfl
  | some r => cases r <;> rfl

theorem defined_bind {x : Reading α} {f : α → Reading β} :
    (x >>= f).Defined ↔ x.Defined ∧ ∀ a, x.Gives a → (f a).Defined := by
  simp only [Defined, Gives, bind_run]
  rcases x.run with _ | (e | a) <;> simp

theorem raises_bind {holds : Exn → Prop} {x : Reading α} {f : α → Reading β} (first : x.Raises holds)
    (rest : ∀ a, (f a).Raises holds) : (x >>= f).Raises holds := by
  intro e thrown
  rw [bind_run] at thrown
  rcases run : x.run with _ | (other | a) <;> rw [run] at thrown
  · cases thrown
  · cases thrown
    exact first _ run
  · exact rest a e thrown

theorem gives_bind {x : Reading α} {f : α → Reading β} {b : β} :
    (x >>= f).Gives b ↔ ∃ a, x.Gives a ∧ (f a).Gives b := by
  simp only [Gives, bind_run]
  rcases x.run with _ | (e | a) <;> simp

@[simp] theorem defined_pure (a : α) : (pure a : Reading α).Defined := nofun

@[simp] theorem defined_map (f : α → β) (x : Reading α) : (f <$> x).Defined ↔ x.Defined := by
  rw [← bind_pure_comp, defined_bind]
  exact and_iff_left fun _ _ => defined_pure _

theorem raises_pure {holds : Exn → Prop} (a : α) : (pure a : Reading α).Raises holds := nofun

@[simp] theorem defined_checked (r : Except Exn α) : (checked r).Defined := nofun

theorem raises_checked {holds : Exn → Prop} {r : Except Exn α} (thrown : ∀ e, r = .error e → holds e) :
    (checked r).Raises holds := fun e raised => thrown e (Option.some.inj raised)

@[simp] theorem checked_gives {r : Except Exn α} {a : α} : (checked r).Gives a ↔ r = .ok a := Option.some_inj

/-- The access is one that may be made unless an object lacks the key. -/
@[simp] theorem defined_index {j : Json} {key : String} :
    (index j key).Defined ↔ ∀ members, j = .object members → j.contains key = true := by
  cases j with
  | object members => cases found : members.lookup key <;>
      simp [Defined, index, Json.index, Json.contains, Json.find?, ExceptT.run, ExceptT.mk, found]
  | _ => simp [Defined, index, Json.index, ExceptT.run, ExceptT.mk]

theorem tells_index (j : Json) (key : String) : (index j key).Tells := fun _ => Json.index_told

theorem index_gives {j v : Json} {key : String} : (index j key).Gives v ↔ j.find? key = some v := by
  cases j with
  | object members => simp [Gives, index, Json.index, Json.find?, ExceptT.run, ExceptT.mk]
  | _ => simp [Gives, index, Json.index, Json.find?, ExceptT.run, ExceptT.mk]

/-- `operator[]`, and the conversion to a string. -/
theorem defined_indexString {j : Json} {key : String} {f : String → Reading α} :
    (index j key >>= fun v => checked v.getString >>= f).Defined ↔
      (∀ members, j = .object members → j.contains key = true) ∧ ∀ s, j.find? key = some (.string s) → (f s).Defined := by
  rw [defined_bind, defined_index]
  simp only [index_gives, defined_bind, defined_checked, true_and, checked_gives, Json.getString_eq_ok]
  constructor
  · exact fun ⟨there, rest⟩ => ⟨there, fun s found => rest _ found s rfl⟩
  · rintro ⟨there, rest⟩
    exact ⟨there, fun v found s same => rest s (same ▸ found)⟩

end Reading

namespace Json

theorem getBoolean_told {j : Json} {e : Exn} (thrown : j.getBoolean = .error e) : e.Told := by
  cases j <;> simp only [getBoolean, Except.error.injEq, reduceCtorEq] at thrown <;>
    exact thrown ▸ typeError302_told _ _

theorem value_told {α : Type} {get : Json → Except Exn α} {j : Json} {key : String} {default : α} {e : Exn}
    (thrown : j.value get key default = .error e) (gets : ∀ v e, get v = .error e → e.Told) : e.Told := by
  cases j with
  | object members =>
    simp only [value] at thrown
    split at thrown
    · exact gets _ _ thrown
    · cases thrown
  | _ => cases thrown; exact Exn.told_of_library (by simp [String.toList_append])

theorem mapM_told {α β : Type} {f : α → Except Exn β} (each : ∀ a e, f a = .error e → e.Told) (items : List α) :
    ∀ e, items.mapM f = .error e → e.Told := by
  induction items with
  | nil => exact fun e thrown => by cases thrown
  | cons a rest ih =>
    intro e thrown
    rw [List.mapM_cons] at thrown
    refine bind_told thrown (fun e => each a e) fun b e thrown => ?_
    exact bind_told thrown ih fun bs e thrown => by cases thrown

end Json

namespace Filtra

theorem Base.ofConfig_told {config : Json} {e : Exn} (thrown : Base.ofConfig config = .error e) : e.Told := by
  have string {key default : String} : ∀ e, config.value Json.getString key default = .error e → e.Told :=
    fun e thrown => Json.value_told thrown fun _ _ => Json.getString_told
  refine Json.bind_told thrown string fun _ e thrown => ?_
  refine Json.bind_told thrown string fun _ e thrown => ?_
  refine Json.bind_told thrown (fun e thrown => Json.value_told thrown fun _ _ => Json.getBoolean_told) fun _ e thrown => ?_
  cases queues : config.find? "queues" with
  | none =>
    simp only [queues] at thrown
    refine Json.bind_told thrown (fun e thrown => by cases thrown) fun _ e thrown => ?_
    refine Json.bind_told thrown string fun _ e thrown => ?_
    refine Json.bind_told thrown string fun _ e thrown => ?_
    exact Json.bind_told thrown string fun _ e thrown => by cases thrown
  | some queues' =>
    simp only [queues] at thrown
    refine Json.bind_told thrown (Json.mapM_told (fun _ _ => Json.getString_told) _) fun _ e thrown => ?_
    refine Json.bind_told thrown string fun _ e thrown => ?_
    refine Json.bind_told thrown string fun _ e thrown => ?_
    exact Json.bind_told thrown string fun _ e thrown => by cases thrown

/-- A configuration, and the members that the constructor of the base class reads from it. -/
structure Described where
  config : Json
  base : Base
  built : Base.ofConfig config = .ok base

def Described.ofConfig (config : Json) : Except Exn Described :=
  match built : Base.ofConfig config with
  | .ok base => .ok ⟨config, base, built⟩
  | .error e => .error e

theorem Described.ofConfig_told {config : Json} {e : Exn} (thrown : Described.ofConfig config = .error e) : e.Told := by
  unfold Described.ofConfig at thrown
  split at thrown
  · cases thrown
  · next refused => cases thrown; exact Base.ofConfig_told refused

theorem Described.ofConfig_returns {config : Json} :
    (∃ d, Described.ofConfig config = .ok d) ↔ ∃ base, Base.ofConfig config = .ok base := by
  constructor
  · rintro ⟨d, read⟩
    unfold Described.ofConfig at read
    split at read
    · next base built => exact ⟨base, built⟩
    · cases read
  · rintro ⟨base, built⟩
    refine ⟨⟨config, base, built⟩, ?_⟩
    unfold Described.ofConfig
    split
    · next base' built' => cases built.symm.trans built'; rfl
    · next refused => cases built.symm.trans refused

theorem Described.ofConfig_ok {config : Json} {d : Described} (read : Described.ofConfig config = .ok d) :
    d.config = config := by
  unfold Described.ofConfig at read
  split at read <;> cases read
  rfl

end Filtra

end M2eBridge
