import M2eBridge.Aliases

/-!
# JSON documents

`nlohmann::json` as the bridge uses it: the value kinds, the checked accessors
`at`, `value` and `get`, and `merge_patch`. The members of an object are listed
in key order with one entry for each key, as `std::map` keeps them. A float is
its IEEE bit pattern; the two integer kinds are one, since the parser chooses
between them by value.
-/

namespace M2eBridge

inductive Json where
  | null
  | boolean (b : Bool)
  | integer (n : Int)
  | float (bits : UInt64)
  | string (s : String)
  | binary (data : Bytes)
  | array (items : List Json)
  | object (members : List (String × Json))
  deriving Repr, Inhabited

namespace Json

mutual

/-- Equality of documents is decidable, by recursion on both. -/
def decEq : (a b : Json) → Decidable (a = b)
  | .null, .null => isTrue rfl
  | .boolean x, .boolean y => decidable_of_iff (x = y) (by simp)
  | .integer x, .integer y => decidable_of_iff (x = y) (by simp)
  | .float x, .float y => decidable_of_iff (x = y) (by simp)
  | .string x, .string y => decidable_of_iff (x = y) (by simp)
  | .binary x, .binary y => decidable_of_iff (x = y) (by simp)
  | .array xs, .array ys => @decidable_of_iff _ (xs = ys) (by simp) (decEqItems xs ys)
  | .object xs, .object ys => @decidable_of_iff _ (xs = ys) (by simp) (decEqMembers xs ys)
  | .null, .boolean _ | .null, .integer _ | .null, .float _ | .null, .string _
  | .null, .binary _ | .null, .array _ | .null, .object _
  | .boolean _, .null | .boolean _, .integer _ | .boolean _, .float _ | .boolean _, .string _
  | .boolean _, .binary _ | .boolean _, .array _ | .boolean _, .object _
  | .integer _, .null | .integer _, .boolean _ | .integer _, .float _ | .integer _, .string _
  | .integer _, .binary _ | .integer _, .array _ | .integer _, .object _
  | .float _, .null | .float _, .boolean _ | .float _, .integer _ | .float _, .string _
  | .float _, .binary _ | .float _, .array _ | .float _, .object _
  | .string _, .null | .string _, .boolean _ | .string _, .integer _ | .string _, .float _
  | .string _, .binary _ | .string _, .array _ | .string _, .object _
  | .binary _, .null | .binary _, .boolean _ | .binary _, .integer _ | .binary _, .float _
  | .binary _, .string _ | .binary _, .array _ | .binary _, .object _
  | .array _, .null | .array _, .boolean _ | .array _, .integer _ | .array _, .float _
  | .array _, .string _ | .array _, .binary _ | .array _, .object _
  | .object _, .null | .object _, .boolean _ | .object _, .integer _ | .object _, .float _
  | .object _, .string _ | .object _, .binary _ | .object _, .array _ => isFalse nofun

def decEqItems : (xs ys : List Json) → Decidable (xs = ys)
  | [], [] => isTrue rfl
  | [], _ :: _ | _ :: _, [] => isFalse nofun
  | x :: xs, y :: ys =>
    @decidable_of_iff _ (x = y ∧ xs = ys) (by simp) (@instDecidableAnd _ _ (decEq x y) (decEqItems xs ys))

def decEqMembers : (xs ys : List (String × Json)) → Decidable (xs = ys)
  | [], [] => isTrue rfl
  | [], _ :: _ | _ :: _, [] => isFalse nofun
  | (j, x) :: xs, (k, y) :: ys =>
    @decidable_of_iff _ (j = k ∧ x = y ∧ xs = ys) (by simp [and_assoc])
      (@instDecidableAnd _ _ _ (@instDecidableAnd _ _ (decEq x y) (decEqMembers xs ys)))

end

instance : DecidableEq Json := decEq

/-! ## Access -/

/-- `type_name()`. -/
def typeName : Json → String
  | .null => "null"
  | .boolean _ => "boolean"
  | .integer _ | .float _ => "number"
  | .string _ => "string"
  | .binary _ => "binary"
  | .array _ => "array"
  | .object _ => "object"

/-- The value under `key`, if the document is an object that has the key. -/
def find? (j : Json) (key : String) : Option Json :=
  match j with
  | .object members => members.lookup key
  | _ => none

def contains (j : Json) (key : String) : Bool := (j.find? key).isSome

def typeError302 (expected : String) (j : Json) : Exn :=
  ⟨.jsonException, "[json.exception.type_error.302] type must be " ++ expected ++ ", but is " ++ j.typeName⟩

/-- `get<std::string>()`. -/
def getString : Json → Except Exn String
  | .string s => .ok s
  | j => .error (typeError302 "string" j)

/-- `get<bool>()`. -/
def getBoolean : Json → Except Exn Bool
  | .boolean b => .ok b
  | j => .error (typeError302 "boolean" j)

/-- `at(key)`. -/
def at' (j : Json) (key : String) : Except Exn Json :=
  match j with
  | .object members =>
    match members.lookup key with
    | some v => .ok v
    | none => .error ⟨.jsonException, "[json.exception.out_of_range.403] key '" ++ key ++ "' not found"⟩
  | _ => .error ⟨.jsonException, "[json.exception.type_error.304] cannot use at() with " ++ j.typeName⟩

theorem getString_eq_ok {j : Json} {s : String} : j.getString = .ok s ↔ j = .string s := by
  cases j <;> simp [getString]

theorem at_eq_ok {j v : Json} {key : String} : j.at' key = .ok v ↔ j.find? key = some v := by
  cases j with
  | object members => simp only [at', find?]; split <;> simp [*]
  | _ => simp [at', find?]

theorem at_error {j : Json} {key : String} (missing : j.find? key = none) :
    ∃ what, j.at' key = .error ⟨.jsonException, what⟩ := by
  cases j with
  | object members => simp only [find?] at missing; simp [at', missing]
  | _ => simp [at']

/-- A member is of the type that is asked for, or the library throws. -/
theorem get_cases {α : Type} {get : Json → Except Exn α} {inject : α → Json}
    (typed : ∀ v, (∃ a, v = inject a ∧ get v = .ok a) ∨
      (∀ a, v ≠ inject a) ∧ ∃ what, get v = .error ⟨.jsonException, what⟩) (j : Json) (key : String) :
    (∃ a, j.find? key = some (inject a) ∧ j.at' key >>= get = .ok a) ∨
      (∀ a, j.find? key ≠ some (inject a)) ∧ ∃ what, j.at' key >>= get = .error ⟨.jsonException, what⟩ := by
  cases found : j.find? key with
  | none =>
    obtain ⟨what, thrown⟩ := at_error found
    exact .inr ⟨by simp, what, by rw [thrown]; rfl⟩
  | some v =>
    rw [at_eq_ok.mpr found]
    rcases typed v with ⟨a, rfl, read⟩ | ⟨other, what, thrown⟩
    · exact .inl ⟨a, rfl, read⟩
    · exact .inr ⟨fun a same => other a (Option.some.inj same), what, thrown⟩

theorem string_cases (j : Json) (key : String) :
    (∃ s, j.find? key = some (.string s) ∧ j.at' key >>= getString = .ok s) ∨
      (∀ s, j.find? key ≠ some (.string s)) ∧ ∃ what, j.at' key >>= getString = .error ⟨.jsonException, what⟩ := by
  apply get_cases
  intro v
  cases v with
  | string s => exact .inl ⟨s, rfl, rfl⟩
  | _ => exact .inr ⟨by simp, _, rfl⟩

theorem boolean_cases (j : Json) (key : String) :
    (∃ b, j.find? key = some (.boolean b) ∧ j.at' key >>= getBoolean = .ok b) ∨
      (∀ b, j.find? key ≠ some (.boolean b)) ∧ ∃ what, j.at' key >>= getBoolean = .error ⟨.jsonException, what⟩ := by
  apply get_cases
  intro v
  cases v with
  | boolean b => exact .inl ⟨b, rfl, rfl⟩
  | _ => exact .inr ⟨by simp, _, rfl⟩

/-- `value(key, default)`, the type of the default choosing `get`. -/
def value {α : Type} (get : Json → Except Exn α) (j : Json) (key : String) (default : α) : Except Exn α :=
  match j with
  | .object members =>
    match members.lookup key with
    | some v => get v
    | none => .ok default
  | _ => .error ⟨.jsonException, "[json.exception.type_error.306] cannot use value() with " ++ j.typeName⟩

theorem value_of_find {α : Type} {j v : Json} {key : String} (get : Json → Except Exn α) (default : α)
    (found : j.find? key = some v) : j.value get key default = get v := by
  cases j with
  | object members => simp only [find?] at found; simp [value, found]
  | _ => cases found

/-- The values from `begin()` to `end()`: a scalar is a range of one. -/
def elements : Json → List Json
  | .null => []
  | .array items => items
  | .object members => members.map Prod.snd
  | j => [j]

/-! ## Merge patch -/

/-- The members of an object; a document of another kind is replaced by the empty object. -/
def membersOf : Json → List (String × Json)
  | .object members => members
  | _ => []

/-- `operator[](key) = v` on an object, which keeps its keys in order. -/
def setMember (key : String) (v : Json) : List (String × Json) → List (String × Json)
  | [] => [(key, v)]
  | (k, w) :: rest =>
    if key = k then (key, v) :: rest
    else if key < k then (key, v) :: (k, w) :: rest
    else (k, w) :: setMember key v rest

/-- An object as it is kept: one member for each key, in key order. -/
def Sorted (members : List (String × Json)) : Prop := members.Pairwise fun m n => m.1 < n.1

theorem lookup_setMember_self (key : String) (v : Json) (members : List (String × Json)) :
    (setMember key v members).lookup key = some v := by
  induction members with
  | nil => exact List.lookup_cons_self
  | cons m rest ih =>
    rw [setMember]
    split
    · exact List.lookup_cons_self
    · next different =>
      split
      · exact List.lookup_cons_self
      · rw [List.lookup_cons, beq_eq_false_iff_ne.mpr different]; exact ih

theorem lookup_setMember_other {key other : String} (different : other ≠ key) (v : Json)
    (members : List (String × Json)) : (setMember key v members).lookup other = members.lookup other := by
  have miss : (other == key) = false := beq_eq_false_iff_ne.mpr different
  induction members with
  | nil => rw [setMember, List.lookup_cons, miss]
  | cons m rest ih =>
    rw [setMember]
    split
    · next same => subst same; rw [List.lookup_cons, List.lookup_cons, miss]
    · split
      · rw [List.lookup_cons, miss]
      · rw [List.lookup_cons, List.lookup_cons, ih]

theorem setMember_keys (key : String) (v : Json) (members : List (String × Json)) :
    ∀ m ∈ setMember key v members, m.1 = key ∨ m ∈ members := by
  induction members with
  | nil => exact fun m there => .inl (List.mem_singleton.mp there ▸ rfl)
  | cons n rest ih =>
    intro m there
    rw [setMember] at there
    split at there
    · exact (List.mem_cons.mp there).imp (congrArg Prod.fst) (List.mem_cons_of_mem n)
    · split at there
      · exact (List.mem_cons.mp there).imp_left (congrArg Prod.fst)
      · rcases List.mem_cons.mp there with rfl | behind
        · exact .inr List.mem_cons_self
        · exact (ih m behind).imp_right (List.mem_cons_of_mem n)

/-- Setting a member keeps the order. -/
theorem setMember_sorted (key : String) (v : Json) {members : List (String × Json)} (sorted : Sorted members) :
    Sorted (setMember key v members) := by
  induction members with
  | nil => exact List.pairwise_singleton _ _
  | cons n rest ih =>
    obtain ⟨below, behind⟩ := List.pairwise_cons.mp sorted
    rw [setMember]
    split
    · next same => exact List.pairwise_cons.mpr ⟨fun m there => same ▸ below m there, behind⟩
    · next different =>
      split
      · next before =>
        refine List.pairwise_cons.mpr ⟨fun m there => ?_, sorted⟩
        rcases List.mem_cons.mp there with rfl | later
        · exact before
        · exact String.lt_trans before (below m later)
      · next after =>
        have above : n.1 < key := by
          by_contra notAbove
          exact different (String.le_antisymm (String.not_lt.mp notAbove) (String.not_lt.mp after))
        refine List.pairwise_cons.mpr ⟨fun m there => ?_, ih behind⟩
        rcases setMember_keys key v rest m there with same | later
        · exact same ▸ above
        · exact below m later

/-- `erase(key)` on an object. -/
def eraseMember (key : String) (members : List (String × Json)) : List (String × Json) :=
  members.filter fun m => m.1 ≠ key

mutual

/-- `merge_patch`: a patch that is no object replaces the target, an object is
merged member by member and a null member erases the key. -/
def mergePatch (target : Json) : Json → Json
  | .object patch => .object (mergeMembers (membersOf target) patch)
  | patch => patch

def mergeMembers (members : List (String × Json)) : List (String × Json) → List (String × Json)
  | [] => members
  | (key, .null) :: rest => mergeMembers (eraseMember key members) rest
  | (key, v) :: rest =>
    mergeMembers (setMember key (mergePatch ((members.lookup key).getD .null) v) members) rest

end

@[simp] theorem mergePatch_null (target : Json) : target.mergePatch .null = .null := by
  simp only [mergePatch]

/-- A patch that is not null leaves something. -/
theorem mergePatch_ne_null {patch : Json} (h : patch ≠ .null) (target : Json) :
    target.mergePatch patch ≠ .null := by
  cases patch <;> simp_all [mergePatch]

example : (Json.object [("a", .string "x"), ("b", .boolean true)]).mergePatch
    (.object [("b", .null), ("c", .string "y")]) = .object [("a", .string "x"), ("c", .string "y")] := by
  decide

end Json

end M2eBridge
