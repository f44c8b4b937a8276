import M2eBridge.Json

/-!
# What a merge patch leaves

A document that is merged into nothing comes out without its null members, at any depth
of its objects, and with the members of each object in key order; a document that has no
null members and is in order comes out as it was (`mergePatch_null_self`). What a patch
leaves under one key depends on what the two documents have under that key alone
(`lookup_mergeMembers`).
-/

namespace M2eBridge

namespace Json

mutual

/-- No object of the document has a null member; arrays are not looked into. -/
def nullFree : Json → Bool
  | .object members => nullFreeMembers members
  | _ => true

def nullFreeMembers : List (String × Json) → Bool
  | [] => true
  | (_, v) :: rest => v ≠ .null ∧ nullFree v ∧ nullFreeMembers rest

end

mutual

/-- The objects of the document are as they are kept; arrays are not looked into. -/
def Ordered : Json → Prop
  | .object members => Sorted members ∧ OrderedMembers members
  | _ => True

def OrderedMembers : List (String × Json) → Prop
  | [] => True
  | (_, v) :: rest => v.Ordered ∧ OrderedMembers rest

end

theorem nullFreeMembers_iff {members : List (String × Json)} :
    nullFreeMembers members ↔ ∀ m ∈ members, m.2 ≠ .null ∧ m.2.nullFree := by
  induction members with
  | nil => simp [nullFreeMembers]
  | cons m rest ih =>
    obtain ⟨key, v⟩ := m
    rw [List.forall_mem_cons, ← ih]
    simp [nullFreeMembers, and_assoc]

theorem orderedMembers_iff {members : List (String × Json)} : OrderedMembers members ↔ ∀ m ∈ members, m.2.Ordered := by
  induction members with
  | nil => simp [OrderedMembers]
  | cons m rest ih =>
    obtain ⟨key, v⟩ := m
    rw [List.forall_mem_cons, ← ih, OrderedMembers]

theorem mem_of_lookup {key : String} {v : Json} {members : List (String × Json)} (found : members.lookup key = some v) :
    (key, v) ∈ members := by
  induction members with
  | nil => cases found
  | cons m rest ih =>
    rw [List.lookup_cons] at found
    by_cases same : key = m.1
    · rw [beq_iff_eq.mpr same] at found
      cases found
      exact same ▸ List.mem_cons_self
    · rw [beq_eq_false_iff_ne.mpr same] at found
      exact List.mem_cons_of_mem m (ih found)

theorem lookup_none_of_not_key {key : String} {members : List (String × Json)} (fresh : ∀ m ∈ members, m.1 ≠ key) :
    members.lookup key = none :=
  List.lookup_eq_none_iff.mpr fun m member => bne_iff_ne.mpr (fresh m member).symm

theorem lookup_eraseMember_self (key : String) (members : List (String × Json)) :
    (eraseMember key members).lookup key = none :=
  lookup_none_of_not_key fun _ member => of_decide_eq_true (List.mem_filter.mp member).2

theorem lookup_eraseMember_other {key other : String} (different : other ≠ key) (members : List (String × Json)) :
    (eraseMember key members).lookup other = members.lookup other := by
  induction members with
  | nil => rfl
  | cons m rest ih =>
    by_cases same : m.1 = key
    · have miss : (other == m.1) = false := beq_eq_false_iff_ne.mpr fun h => different (h.trans same)
      rw [eraseMember, List.filter_cons_of_neg (by simpa using same), List.lookup_cons, miss]
      exact ih
    · rw [eraseMember, List.filter_cons_of_pos (by simpa using same), List.lookup_cons, List.lookup_cons, ← eraseMember,
        ih]

theorem mergeMembers_null (members : List (String × Json)) (key : String) (rest : List (String × Json)) :
    mergeMembers members ((key, .null) :: rest) = mergeMembers (eraseMember key members) rest := by
  simp only [mergeMembers]

theorem mergeMembers_set (members : List (String × Json)) {key : String} {v : Json} (h : v ≠ .null)
    (rest : List (String × Json)) : mergeMembers members ((key, v) :: rest) =
      mergeMembers (setMember key (((members.lookup key).getD .null).mergePatch v) members) rest := by
  cases v <;> first | exact absurd rfl h | simp only [mergeMembers]

/-- A value as a member: null is none. -/
def asMember (v : Json) : Option Json := if v = .null then none else some v

/-- What becomes of a member, by what the patch has under its key. -/
def patchMember (before : Option Json) : Option Json → Option Json
  | none => before
  | some v => asMember ((before.getD .null).mergePatch v)

/-- What a patch leaves under a key. -/
theorem lookup_mergeMembers (id : String) (members : List (String × Json)) {patch : List (String × Json)}
    (distinct : (patch.map Prod.fst).Nodup) :
    (mergeMembers members patch).lookup id = patchMember (members.lookup id) (patch.lookup id) := by
  induction patch generalizing members with
  | nil => simp [mergeMembers, patchMember]
  | cons m rest ih =>
    obtain ⟨key, v⟩ := m
    obtain ⟨fresh, others⟩ := List.nodup_cons.mp distinct
    have behind (same : id = key) : rest.lookup id = none :=
      lookup_none_of_not_key fun m member other =>
        fresh (List.mem_map.mpr ⟨m, member, other.trans same⟩)
    by_cases null : v = .null
    · subst null
      rw [mergeMembers_null, ih _ others, List.lookup_cons]
      by_cases same : id = key
      · subst same
        simp [behind rfl, lookup_eraseMember_self, patchMember, asMember]
      · rw [beq_eq_false_iff_ne.mpr same, lookup_eraseMember_other same]
    · rw [mergeMembers_set members null, ih _ others, List.lookup_cons]
      by_cases same : id = key
      · subst same
        simp [behind rfl, lookup_setMember_self, patchMember, asMember, mergePatch_ne_null null]
      · rw [beq_eq_false_iff_ne.mpr same, lookup_setMember_other same]

/-! ## Null members and order -/

theorem mem_setMember {key : String} {v : Json} {members : List (String × Json)} :
    ∀ m ∈ setMember key v members, m = (key, v) ∨ m ∈ members := by
  induction members with
  | nil => exact fun m there => .inl (List.mem_singleton.mp there)
  | cons n rest ih =>
    intro m there
    rw [setMember] at there
    split at there
    · exact (List.mem_cons.mp there).imp_right (List.mem_cons_of_mem n)
    · split at there
      · exact List.mem_cons.mp there
      · rcases List.mem_cons.mp there with rfl | behind
        · exact .inr List.mem_cons_self
        · exact (ih m behind).imp_right (List.mem_cons_of_mem n)

theorem nullFree_membersOf {j : Json} (free : j.nullFree) : nullFreeMembers j.membersOf := by
  cases j <;> exact free

theorem ordered_membersOf {j : Json} (ordered : j.Ordered) : Sorted j.membersOf ∧ OrderedMembers j.membersOf := by
  cases j <;> first | exact ordered | exact ⟨List.Pairwise.nil, trivial⟩

theorem nullFree_getD {members : List (String × Json)} (free : nullFreeMembers members) (key : String) :
    ((members.lookup key).getD .null).nullFree := by
  cases found : members.lookup key with
  | none => rfl
  | some v => exact (nullFreeMembers_iff.mp free _ (mem_of_lookup found)).2

theorem ordered_getD {members : List (String × Json)} (ordered : OrderedMembers members) (key : String) :
    ((members.lookup key).getD .null).Ordered := by
  cases found : members.lookup key with
  | none => trivial
  | some v => exact orderedMembers_iff.mp ordered _ (mem_of_lookup found)

mutual

/-- A merge leaves no null member that was not there before. -/
theorem mergePatch_nullFree : ∀ (patch : Json) {target : Json}, target.nullFree → (target.mergePatch patch).nullFree
  | .object patch, _, free => mergeMembers_nullFree patch (nullFree_membersOf free)
  | .null, _, _ | .boolean _, _, _ | .integer _, _, _ | .float _, _, _ | .string _, _, _ | .binary _, _, _
  | .array _, _, _ => by simp [mergePatch, nullFree]

theorem mergeMembers_nullFree : ∀ (patch : List (String × Json)) {members : List (String × Json)},
    nullFreeMembers members → nullFreeMembers (mergeMembers members patch)
  | [], _, free => by simpa [mergeMembers] using free
  | (key, v) :: rest, members, free => by
    by_cases null : v = .null
    · subst null
      rw [mergeMembers_null]
      refine mergeMembers_nullFree rest (nullFreeMembers_iff.mpr fun m member => ?_)
      exact nullFreeMembers_iff.mp free m (List.mem_filter.mp member).1
    · rw [mergeMembers_set members null]
      refine mergeMembers_nullFree rest (nullFreeMembers_iff.mpr fun m member => ?_)
      rcases mem_setMember m member with rfl | old
      · exact ⟨mergePatch_ne_null null _, mergePatch_nullFree v (nullFree_getD free key)⟩
      · exact nullFreeMembers_iff.mp free m old

end

mutual

theorem mergePatch_ordered : ∀ (patch : Json) {target : Json}, patch.Ordered → target.Ordered →
    (target.mergePatch patch).Ordered
  | .object patch, target, ordered, before => by
    obtain ⟨sorted, members⟩ := ordered_membersOf before
    rw [mergePatch]
    exact mergeMembers_ordered patch ordered.2 sorted members
  | .null, _, _, _ | .boolean _, _, _, _ | .integer _, _, _, _ | .float _, _, _, _ | .string _, _, _, _
  | .binary _, _, _, _ | .array _, _, _, _ => by simp [mergePatch, Ordered]

theorem mergeMembers_ordered : ∀ (patch : List (String × Json)) {members : List (String × Json)},
    OrderedMembers patch → Sorted members → OrderedMembers members →
      Sorted (mergeMembers members patch) ∧ OrderedMembers (mergeMembers members patch)
  | [], _, _, sorted, ordered => by simpa [mergeMembers] using ⟨sorted, ordered⟩
  | (key, v) :: rest, members, patch, sorted, ordered => by
    by_cases null : v = .null
    · subst null
      rw [mergeMembers_null]
      refine mergeMembers_ordered rest patch.2 (sorted.filter _) (orderedMembers_iff.mpr fun m member => ?_)
      exact orderedMembers_iff.mp ordered m (List.mem_filter.mp member).1
    · rw [mergeMembers_set members null]
      refine mergeMembers_ordered rest patch.2 (setMember_sorted key _ sorted)
        (orderedMembers_iff.mpr fun m member => ?_)
      rcases mem_setMember m member with rfl | old
      · exact mergePatch_ordered v patch.1 (ordered_getD ordered key)
      · exact orderedMembers_iff.mp ordered m old

end

/-! ## Merged into nothing -/

/-- A key above all others goes to the end. -/
theorem setMember_append {key : String} (v : Json) {members : List (String × Json)} (above : ∀ m ∈ members, m.1 < key) :
    setMember key v members = members ++ [(key, v)] := by
  induction members with
  | nil => rfl
  | cons n rest ih =>
    obtain ⟨first, behind⟩ := List.forall_mem_cons.mp above
    rw [setMember, if_neg (String.ne_of_lt first).symm, if_neg (String.lt_asymm first), ih behind, List.cons_append]

mutual

theorem mergePatch_null_self : ∀ (v : Json), v.Ordered → v.nullFree → Json.null.mergePatch v = v
  | .object members, ordered, free => by
    have appended := mergeMembers_append members [] ordered.1 ordered.2 free
    simp only [mergePatch, membersOf, appended, List.nil_append]
  | .null, _, _ | .boolean _, _, _ | .integer _, _, _ | .float _, _, _ | .string _, _, _ | .binary _, _, _
  | .array _, _, _ => by simp [mergePatch]

/-- Members that follow those already there are appended. -/
theorem mergeMembers_append : ∀ (members before : List (String × Json)), Sorted (before ++ members) →
    OrderedMembers members → nullFreeMembers members → mergeMembers before members = before ++ members
  | [], before, _, _, _ => by simp [mergeMembers]
  | (key, v) :: rest, before, sorted, ordered, free => by
    obtain ⟨⟨notNull, vFree⟩, restFree⟩ := List.forall_mem_cons.mp (nullFreeMembers_iff.mp free)
    have above : ∀ m ∈ before, m.1 < key := fun m member =>
      (List.pairwise_append.mp sorted).2.2 m member (key, v) List.mem_cons_self
    have fresh : before.lookup key = none :=
      lookup_none_of_not_key fun m member => String.ne_of_lt (above m member)
    have again := mergePatch_null_self v ordered.1 vFree
    have sorted' : Sorted ((before ++ [(key, v)]) ++ rest) := by simpa using sorted
    rw [mergeMembers_set before notNull, fresh, Option.getD_none, again, setMember_append v above,
      mergeMembers_append rest _ sorted' ordered.2 (nullFreeMembers_iff.mpr restFree), List.append_assoc,
      List.singleton_append]

end

end Json

end M2eBridge
