import M2eBridge.Lib.Delimited
import M2eBridge.Message

/-!
# Templates

`SubsEngine::substitute` replaces the placeholders of a template in the string that it
searches, and goes on behind the value. The offset of the search is kept in an
`unsigned int`: once the output is as long as `2^32` bytes, a value is written into the
output instead of over its placeholder, which is then found again. A template is rendered
exactly when the output is shorter at every placeholder (`substitute_renders`).
-/

namespace M2eBridge

/-- `substituted_t`; a floating point number is the CBOR item that it comes from. -/
inductive Substituted where
  | boolean (b : Bool)
  | double (width : CborWidth) (bits : UInt64)
  | long (n : Int)
  | string (s : Bytes)
  | json (j : Json)
  | span (data : Bytes)
  | uchars (data : Bytes)
  deriving DecidableEq

namespace SubsEngine

/-- The pattern `{{(.*?)}}`: a dot is no line terminator. -/
def pattern : Lib.Delimiters UInt8 where
  opener := [0x7b, 0x7b]
  closer := [0x7d, 0x7d]
  plain := fun b => b ≠ 0x0a ∧ b ≠ 0x0d
  opener_ne := by decide
  closer_ne := by decide

/-- `std::string::replace(pos, n, str)`, inside the string. -/
def replace (s : Bytes) (pos n : Nat) (str : Bytes) : Bytes := s.take pos ++ str ++ s.drop (pos + n)

/-- The characters of a string in the text of an exception. -/
def shown (s : Bytes) : String := .ofList (s.map fun b => .ofNat b.toNat)

/-- What `substitute` returns or throws, and the expressions that it has evaluated. -/
structure Outcome (ω : Type) where
  result : Except Exn Substituted
  evaluated : List Bytes
  world : ω

variable {ω : Type} (evaluate : ω → Bytes → Except Exn Substituted × ω)

/-- The loop of `substitute` from the offset `pos` on, `none` when the fuel is too little for it. -/
def loop (template : Bytes) : Nat → Bytes → Nat → ω → Option (Outcome ω)
  | 0, _, _, _ => none
  | fuel + 1, result, pos, world =>
    match pattern.find (result.drop pos) with
    | none => some { result := .ok (.string result), evaluated := [], world }
    | some found =>
      let expression := found.content
      let length := (pattern.around expression).length
      if pattern.around expression = template then
        match evaluate world expression with
        | (.ok value, world) => some { result := .ok value, evaluated := [expression], world }
        | (.error e, world) =>
          let e := if e.kind = .jsonException then ⟨.runtimeError, e.what⟩ else e
          some { result := .error e, evaluated := [expression], world }
      else
        match evaluate world expression with
        | (.ok (.string vvalue), world) =>
          -- `unsigned int i`
          let i := pos % UInt32.size
          let result := replace result (i + found.before.length) length vvalue
          let pos := i + found.before.length + vvalue.length
          (loop template fuel result pos world).map fun out => { out with evaluated := expression :: out.evaluated }
        | (.ok _, world) =>
          some { result := .error ⟨.runtimeError, "std::get: wrong index for variant"⟩, evaluated := [expression], world }
        | (.error e, world) =>
          let e := if e.kind = .jsonException then ⟨.runtimeError, "Can not evaluate: " ++ shown expression ++ "!"⟩ else e
          some { result := .error e, evaluated := [expression], world }

def substitute (fuel : Nat) (template : Bytes) (world : ω) : Option (Outcome ω) :=
  loop evaluate template fuel template 0 world

/-! ## What is expected of it -/

/-- The expressions evaluate to strings, one after another. -/
inductive Strings : ω → List Bytes → List Bytes → ω → Prop where
  | nil {world : ω} : Strings world [] [] world
  | cons {world world' world'' : ω} {expression value : Bytes} {expressions values : List Bytes}
      (first : evaluate world expression = (.ok (.string value), world'))
      (rest : Strings world' expressions values world'') :
      Strings world (expression :: expressions) (value :: values) world''

/-- What becomes of the placeholders, each with the text before it. -/
def outputs (pieces : List (Bytes × Bytes)) (values : List Bytes) : List Bytes :=
  List.zipWith (fun piece value => piece.1 ++ value) pieces values

/-- The template with the values in the places of the placeholders. -/
def fill (pieces : List (Bytes × Bytes)) (values : List Bytes) (last : Bytes) : Bytes :=
  (outputs pieces values).flatten ++ last

/-- At every placeholder the output up to the one before it is shorter than `2^32` bytes. -/
def Fits (pieces : List (Bytes × Bytes)) (values : List Bytes) : Prop :=
  ∀ k < pieces.length, ((outputs pieces values).take k).flatten.length < UInt32.size

instance (pieces : List (Bytes × Bytes)) (values : List Bytes) : Decidable (Fits pieces values) :=
  inferInstanceAs (Decidable (∀ k < _, _))

/-- The template comes out rendered, its own placeholders having been evaluated, in their order. -/
def Renders (template : Bytes) (pieces : List (Bytes × Bytes)) (last : Bytes) (values : List Bytes) (world world' : ω) :
    Prop :=
  ∃ fuel, substitute evaluate fuel template world =
    some { result := .ok (.string (fill pieces values last)), evaluated := pieces.map Prod.snd, world := world' }

variable {evaluate} {template : Bytes}

/-- The whole template is one placeholder. -/
def Single (template expression : Bytes) : Prop := pattern.Leftmost ⟨[], expression, []⟩ template

/-- A placeholder with the text of the template would be the whole of it. -/
theorem around_ne_template (several : ∀ expression, ¬ Single template expression) {s : Bytes} {found : Lib.Found UInt8}
    (leftmost : pattern.Leftmost found s) : pattern.around found.content ≠ template := by
  intro same
  have single := leftmost.part (List.nil_append found.behind).symm
  rw [List.append_nil, same] at single
  exact several found.content single

/-- The search behind a value that was written at `start`. -/
theorem drop_replace {result vvalue : Bytes} {start length : Nat} (inside : start ≤ result.length) :
    (replace result start length vvalue).drop (start + vvalue.length) = result.drop (start + length) := by
  have size : (result.take start ++ vvalue).length = start + vvalue.length := by
    rw [List.length_append, List.length_take_of_le inside]
  rw [replace, ← size, List.drop_left]

/-- The rest of the string from an earlier offset on. -/
theorem drop_of_le (result : Bytes) {j k : Nat} (le : j ≤ k) : ∃ more, result.drop j = more ++ result.drop k := by
  refine ⟨(result.drop j).take (k - j), ?_⟩
  rw [show result.drop k = (result.drop j).drop (k - j) by rw [List.drop_drop, Nat.add_sub_cancel' le], List.take_append_drop]

/-- Where a placeholder stands in the string. -/
theorem found_inside {result : Bytes} {pos : Nat} {found : Lib.Found UInt8}
    (leftmost : pattern.Leftmost found (result.drop pos)) :
    pos + found.before.length ≤ result.length ∧
      result.drop (pos + found.before.length) = pattern.around found.content ++ found.behind ∧
      result.drop (pos + found.before.length + (pattern.around found.content).length) = found.behind := by
  have text := leftmost.occurs.text
  have size := leftmost.occurs.length
  have pos' := pattern.around_pos found.content
  rw [List.length_drop] at size
  refine ⟨by omega, ?_, ?_⟩
  · rw [← List.drop_drop, text, List.append_assoc, List.drop_left]
  · rw [Nat.add_assoc, ← List.drop_drop, text, ← List.length_append, List.drop_left]

/-- An offset that does not fit into an `unsigned int` is cut by `2^32` at least. -/
theorem mod_add_le {pos : Nat} (wraps : UInt32.size ≤ pos) : pos % UInt32.size + UInt32.size ≤ pos := by
  have := Nat.mod_add_div pos UInt32.size
  have := Nat.div_pos wraps (by decide)
  have := Nat.le_mul_of_pos_right UInt32.size this
  omega

/-- Once the offset has wrapped, the placeholder is still there behind the value. -/
theorem wrapped_keeps {result : Bytes} {pos : Nat} {found : Lib.Found UInt8}
    (leftmost : pattern.Leftmost found (result.drop pos)) (wraps : UInt32.size ≤ pos)
    (short : (pattern.around found.content).length ≤ UInt32.size) (vvalue : Bytes) : ∃ more,
      (replace result (pos % UInt32.size + found.before.length) (pattern.around found.content).length vvalue).drop
          (pos % UInt32.size + found.before.length + vvalue.length) =
        more ++ (pattern.around found.content ++ found.behind) := by
  obtain ⟨inside, here, -⟩ := found_inside leftmost
  have small := mod_add_le wraps
  obtain ⟨more, text⟩ := drop_of_le result (j := pos % UInt32.size + found.before.length +
    (pattern.around found.content).length) (k := pos + found.before.length) (by omega)
  exact ⟨more, by rw [drop_replace (by omega), text, here]⟩

/-- What the loop does at a placeholder of a template that is not one. -/
theorem loop_found (several : ∀ expression, ¬ Single template expression) {fuel pos : Nat} {result : Bytes} {world : ω}
    {found : Lib.Found UInt8} (leftmost : pattern.Leftmost found (result.drop pos)) {out : Outcome ω} {value : Substituted}
    (run : loop evaluate template (fuel + 1) result pos world = some out) (returns : out.result = .ok value) :
    ∃ vvalue world' rest, evaluate world found.content = (.ok (.string vvalue), world') ∧
      loop evaluate template fuel
        (replace result (pos % UInt32.size + found.before.length) (pattern.around found.content).length vvalue)
        (pos % UInt32.size + found.before.length + vvalue.length) world' = some rest ∧
      rest.result = .ok value ∧ out.evaluated = found.content :: rest.evaluated := by
  simp only [loop, Lib.Delimiters.find_eq_some.mpr leftmost, if_neg (around_ne_template several leftmost)] at run
  split at run
  case h_1 vvalue world' evaluated =>
    obtain ⟨rest, later, rfl⟩ := Option.map_eq_some_iff.mp run
    exact ⟨vvalue, world', rest, evaluated, later, returns, rfl⟩
  case h_2 => cases run; cases returns
  case h_3 => cases run; cases returns

/-- Each placeholder from the offset on is evaluated, wherever the values are written. -/
theorem loop_evaluates (several : ∀ expression, ¬ Single template expression) (fuel : Nat) :
    ∀ (result : Bytes) (pos : Nat) (world : ω) (out : Outcome ω) (value : Substituted) (pieces : List (Bytes × Bytes))
      (last : Bytes), loop evaluate template fuel result pos world = some out → out.result = .ok value →
      pattern.Split (result.drop pos) pieces last → pieces.length ≤ out.evaluated.length := by
  induction fuel with
  | zero => intro _ _ _ _ _ _ _ run; cases run
  | succ fuel ih =>
    intro result pos world out value pieces last run returns split
    cases split with
    | last => exact Nat.zero_le _
    | @piece _ found pieces _ leftmost split =>
      obtain ⟨vvalue, world', rest, _, run, returns, evaluated⟩ := loop_found several leftmost run returns
      obtain ⟨inside, _, behind⟩ := found_inside leftmost
      have small : pos % UInt32.size ≤ pos := Nat.mod_le _ _
      obtain ⟨more, text⟩ := drop_of_le result (j := pos % UInt32.size + found.before.length +
        (pattern.around found.content).length) (k := pos + found.before.length + (pattern.around found.content).length)
        (by omega)
      obtain ⟨pieces', last', split'⟩ := Lib.Delimiters.Split.total pattern (more ++ found.behind)
      have counted := ih _ _ _ _ _ pieces' last' run returns (by
        rw [drop_replace (by omega), text, behind]; exact split')
      rw [evaluated, List.length_cons, List.length_cons]
      exact Nat.succ_le_succ ((split.append_length more split').trans counted)

/-- Once the offset has wrapped, the placeholder stays and is evaluated again. -/
theorem loop_wraps (several : ∀ expression, ¬ Single template expression) {fuel pos : Nat} {result : Bytes} {world : ω}
    {out : Outcome ω} {value : Substituted} {pieces : List (Bytes × Bytes)} {last : Bytes} {found : Lib.Found UInt8}
    (run : loop evaluate template fuel result pos world = some out) (returns : out.result = .ok value)
    (leftmost : pattern.Leftmost found (result.drop pos)) (split : pattern.Split found.behind pieces last)
    (wraps : UInt32.size ≤ pos) (short : (pattern.around found.content).length ≤ UInt32.size) :
    pieces.length + 1 < out.evaluated.length := by
  cases fuel with
  | zero => cases run
  | succ fuel =>
    obtain ⟨vvalue, world', rest, _, run, returns, evaluated⟩ := loop_found several leftmost run returns
    obtain ⟨more, text⟩ := wrapped_keeps leftmost wraps short vvalue
    have again : pattern.Split (pattern.around found.content ++ found.behind) (([], found.content) :: pieces) last :=
      .piece (leftmost.part (List.append_nil found.behind).symm) split
    obtain ⟨pieces', last', split'⟩ :=
      Lib.Delimiters.Split.total pattern (more ++ (pattern.around found.content ++ found.behind))
    have counted := loop_evaluates several fuel _ _ _ _ _ pieces' last' run returns (by rw [text]; exact split')
    have kept := again.append_length more split'
    rw [evaluated, List.length_cons]
    exact Nat.succ_lt_succ (Nat.lt_of_lt_of_le (Nat.lt_succ_self _) (kept.trans counted))

theorem written_length (done before value : Bytes) :
    done.length + before.length + value.length = (done ++ (before ++ value)).length := by
  rw [List.length_append, List.length_append, Nat.add_assoc]

/-- The value written over the placeholder. -/
theorem replace_found {done s vvalue : Bytes} {found : Lib.Found UInt8} (leftmost : pattern.Leftmost found s) :
    replace (done ++ s) (done.length + found.before.length) (pattern.around found.content).length vvalue =
      (done ++ (found.before ++ vvalue)) ++ found.behind := by
  have text := leftmost.occurs.text
  have start : done.length + found.before.length = (done ++ found.before).length := List.length_append.symm
  have whole : done ++ s = (done ++ found.before) ++ (pattern.around found.content ++ found.behind) := by
    rw [text]
    simp only [List.append_assoc]
  rw [replace, whole, start, List.take_left, ← List.drop_drop, List.drop_left, List.drop_left]
  simp only [List.append_assoc]

/-- The output `done` stands before the text `s` that is still to be searched. -/
theorem loop_renders (several : ∀ expression, ¬ Single template expression) {s : Bytes} {pieces : List (Bytes × Bytes)}
    {last : Bytes} (split : pattern.Split s pieces last) :
    ∀ (done : Bytes) (world world' : ω) (values : List Bytes),
      Strings evaluate world (pieces.map Prod.snd) values world' →
      (∀ k < pieces.length, done.length + ((outputs pieces values).take k).flatten.length < UInt32.size) →
      loop evaluate template (pieces.length + 1) (done ++ s) done.length world =
        some { result := .ok (.string (done ++ fill pieces values last)), evaluated := pieces.map Prod.snd
               world := world' } := by
  induction split with
  | last none_ =>
    intro done world world' values strings _
    cases strings
    simp [loop, Lib.Delimiters.find_eq_none.mpr none_, fill, outputs]
  | @piece s found pieces last leftmost _ ih =>
    intro done world world' values strings fits
    cases strings with
    | @cons _ world₁ _ _ value _ values first rest =>
      have here : done.length % UInt32.size = done.length :=
        Nat.mod_eq_of_lt (by simpa using fits 0 (Nat.succ_pos _))
      have later := ih (done ++ (found.before ++ value)) world₁ world' values rest fun k inside => by
        have := fits (k + 1) (Nat.succ_lt_succ inside)
        simp only [outputs, List.zipWith_cons_cons, List.take_succ_cons, List.flatten_cons, List.length_append] at this ⊢
        omega
      have size := written_length done found.before value
      rw [List.length_cons, loop, List.drop_left, Lib.Delimiters.find_eq_some.mpr leftmost]
      simp only [if_neg (around_ne_template several leftmost), first, here, replace_found leftmost, size, later]
      simp [fill, outputs]

theorem loop_repeats (several : ∀ expression, ¬ Single template expression) {s : Bytes} {pieces : List (Bytes × Bytes)}
    {last : Bytes} (split : pattern.Split s pieces last) :
    ∀ (done : Bytes) (world world' : ω) (values : List Bytes) (fuel : Nat) (out : Outcome ω) (value : Substituted),
      s.length ≤ UInt32.size → Strings evaluate world (pieces.map Prod.snd) values world' →
      loop evaluate template fuel (done ++ s) done.length world = some out → out.result = .ok value →
      (∃ k < pieces.length, UInt32.size ≤ done.length + ((outputs pieces values).take k).flatten.length) →
      pieces.length < out.evaluated.length := by
  induction split with
  | last =>
    rintro _ _ _ _ _ _ _ _ _ _ _ ⟨k, inside, _⟩
    cases inside
  | @piece s found pieces last leftmost split ih =>
    rintro done world world' values fuel out value short strings run returns ⟨k, inside, wraps⟩
    have size := leftmost.occurs.length
    have leftmost' : pattern.Leftmost found ((done ++ s).drop done.length) := by rwa [List.drop_left]
    by_cases here : done.length < UInt32.size
    · cases fuel with
      | zero => cases run
      | succ fuel =>
        cases strings with
        | @cons _ world₁ _ _ written _ values first rest =>
          obtain ⟨vvalue, world₂, out', evaluated, run, returns, expressions⟩ := loop_found several leftmost' run returns
          rw [first] at evaluated
          cases evaluated
          rw [Nat.mod_eq_of_lt here, replace_found leftmost, written_length done found.before written] at run
          rw [expressions, List.length_cons, List.length_cons]
          refine Nat.succ_lt_succ (ih _ _ _ values fuel out' value (by omega) rest run returns ?_)
          cases k with
          | zero => simp at wraps; omega
          | succ k =>
            refine ⟨k, Nat.lt_of_succ_lt_succ inside, ?_⟩
            simp only [outputs, List.zipWith_cons_cons, List.take_succ_cons, List.flatten_cons, List.length_append] at wraps ⊢
            omega
    · exact loop_wraps several run returns leftmost' split (Nat.le_of_not_lt here) (by omega)

/-- A template that is one placeholder is left to `evaluate`. -/
theorem loop_single {expression : Bytes} (single : Single template expression) (world : ω) :
    substitute evaluate 1 template world =
      some { result := (evaluate world expression).1.mapError fun e =>
               if e.kind = .jsonException then ⟨.runtimeError, e.what⟩ else e
             evaluated := [expression], world := (evaluate world expression).2 } := by
  have text : pattern.around expression = template := by simpa using single.occurs.text.symm
  simp only [substitute, loop, List.drop_zero, Lib.Delimiters.find_eq_some.mpr single, text, if_true]
  rcases evaluate world expression with ⟨value | e, world'⟩ <;> rfl

/-- A split into one placeholder, and nothing else. -/
theorem single_iff {pieces : List (Bytes × Bytes)} {last : Bytes} (split : pattern.Split template pieces last)
    (expression : Bytes) : Single template expression ↔ pieces = [([], expression)] ∧ last = [] := by
  constructor
  · intro single
    cases split with
    | last none_ => exact absurd single.occurs (none_ _)
    | @piece _ found _ _ leftmost rest =>
      cases leftmost.unique single
      cases rest with
      | last => exact ⟨rfl, rfl⟩
      | @piece _ other _ _ leftmost =>
        have size : 0 = _ := leftmost.occurs.length
        have pos := pattern.around_pos other.content
        omega
  · rintro ⟨same, none_⟩
    cases split with
    | last => cases same
    | @piece _ found _ _ leftmost rest =>
      obtain ⟨head, rfl⟩ := List.cons.inj same
      obtain ⟨start, content⟩ := Prod.mk.inj head
      rcases found with ⟨before, content', behind⟩
      cases rest
      cases start
      cases content
      cases none_
      exact leftmost

theorem renders_iff (short : template.length < UInt32.size) {pieces : List (Bytes × Bytes)} {last : Bytes}
    (split : pattern.Split template pieces last) {world world' : ω} {values : List Bytes}
    (strings : Strings evaluate world (pieces.map Prod.snd) values world') :
    Renders evaluate template pieces last values world world' ↔ Fits pieces values := by
  by_cases single : ∃ expression, Single template expression
  · obtain ⟨expression, single⟩ := single
    obtain ⟨rfl, rfl⟩ := (single_iff split expression).mp single
    cases strings with
    | cons first rest =>
      cases rest
      refine ⟨fun _ k inside => ?_, fun _ => ⟨1, ?_⟩⟩
      · rw [Nat.lt_one_iff.mp inside]
        exact (by decide : 0 < UInt32.size)
      · rw [loop_single single, first]
        simp [fill, outputs, Except.mapError]
  · have several : ∀ expression, ¬ Single template expression := not_exists.mp single
    constructor
    · rintro ⟨fuel, run⟩ k inside
      by_contra wraps
      have repeats := loop_repeats several split [] world world' values fuel _ _ short.le strings run rfl
        ⟨k, inside, by simpa using wraps⟩
      rw [List.length_map] at repeats
      exact absurd repeats (Nat.lt_irrefl _)
    · intro fits
      exact ⟨_, loop_renders several split [] world world' values strings fun k inside => by simpa using fits k inside⟩

theorem substitute_renders (evaluate : ω → Bytes → Except Exn Substituted × ω) (template : Bytes)
    (short : template.length < UInt32.size) (pieces : List (Bytes × Bytes)) (last : Bytes)
    (split : pattern.Split template pieces last) :
    (∀ expression, pieces = [([], expression)] → last = [] → ∀ (world world' : ω) (value : Substituted),
      evaluate world expression = (.ok value, world') →
      ∃ fuel, substitute evaluate fuel template world =
        some { result := .ok value, evaluated := [expression], world := world' }) ∧
    ∀ (world world' : ω) (values : List Bytes), Strings evaluate world (pieces.map Prod.snd) values world' →
      (Renders evaluate template pieces last values world world' ↔ Fits pieces values) := by
  refine ⟨fun expression whole none_ world world' value evaluated => ⟨1, ?_⟩, fun world world' values strings =>
    renders_iff short split strings⟩
  rw [loop_single ((single_iff split expression).mpr ⟨whole, none_⟩), evaluated]
  rfl

/-- `{{a}}{{b}}`. -/
def twoPlaceholders : Bytes := [0x7b, 0x7b, 0x61, 0x7d, 0x7d, 0x7b, 0x7b, 0x62, 0x7d, 0x7d]

theorem twoPlaceholders_split : pattern.Split twoPlaceholders [([], [0x61]), ([], [0x62])] [] := by
  have first : pattern.Leftmost ⟨[], [0x61], [0x7b, 0x7b, 0x62, 0x7d, 0x7d]⟩ twoPlaceholders :=
    Lib.Delimiters.find_eq_some.mp (by decide)
  have second : pattern.Leftmost ⟨[], [0x62], []⟩ [0x7b, 0x7b, 0x62, 0x7d, 0x7d] :=
    Lib.Delimiters.find_eq_some.mp (by decide)
  exact .piece first (.piece second (.last (Lib.Delimiters.find_eq_none.mp rfl)))

/-- The value of `a` has the given length, every other one is the letter `y`. -/
def letters (length : Nat) (world : Unit) (expression : Bytes) : Except Exn Substituted × Unit :=
  (.ok (.string (if expression = [0x61] then .replicate length 0x78 else [0x79])), world)

theorem letters_strings (length : Nat) :
    Strings (letters length) () [[0x61], [0x62]] [.replicate length 0x78, [0x79]] () :=
  .cons rfl (.cons rfl .nil)

theorem substitute_renders_letters :
    Renders (letters 3) twoPlaceholders [([], [0x61]), ([], [0x62])] [] [[0x78, 0x78, 0x78], [0x79]] () () :=
  ((substitute_renders (letters 3) twoPlaceholders (by decide) _ _ twoPlaceholders_split).2 () () _
    (letters_strings 3)).mpr (by decide)

/-- The second placeholder stands behind `2^32` bytes. -/
theorem long_value_repeats :
    ¬ ∀ (evaluate : Unit → Bytes → Except Exn Substituted × Unit) (template : Bytes) (pieces : List (Bytes × Bytes))
      (last : Bytes) (values : List Bytes), template.length < UInt32.size → pattern.Split template pieces last →
      Strings evaluate () (pieces.map Prod.snd) values () → Renders evaluate template pieces last values () () := by
  intro all
  have rendered := all (letters UInt32.size) twoPlaceholders _ _ _ (by decide) twoPlaceholders_split (letters_strings _)
  have fits := (renders_iff (by decide) twoPlaceholders_split (letters_strings _)).mp rendered 1 (by decide)
  simp [outputs] at fits

end SubsEngine

end M2eBridge
