import Mathlib.Data.List.TakeWhile
import M2eBridge.ApiHelpers
import M2eBridge.Lib.Fields

/-!
# The two overloads of `get_last_segments`

One overload looks for the slashes of a view, the other reads a C string line by line with
the slash for the end of a line. Both give the fields of the URI: for the view that is
`StringView.getLastSegments_eq`, for the C string `CString.getLastSegments_eq`.
-/

namespace M2eBridge

/-! ## The view -/

namespace StringView

/-- `find` of a character from a position on, `none` for `npos`. -/
def find (s : Bytes) (c : UInt8) (start : Nat) : Option Nat := ((s.drop start).idxOf? c).map (start + ·)

theorem find_inside {s : Bytes} {c : UInt8} {start stop : Nat} (found : find s c start = some stop) :
    start ≤ stop ∧ stop < s.length := by
  obtain ⟨i, index, rfl⟩ := Option.map_eq_some_iff.mp found
  obtain ⟨inside, -⟩ := List.idxOf?_eq_some_iff.mp index
  rw [List.length_drop] at inside
  omega

/-- The loop of `get_last_segments`, `start` being behind the slash before. -/
def segmentsFrom (uri : Bytes) (start : Nat) : List Bytes :=
  match found : find uri slash start with
  | none => if start < uri.length then [uri.drop start] else []
  | some stop => (uri.drop start).take (stop - start) :: segmentsFrom uri (stop + 1)
termination_by uri.length - start
decreasing_by
  have inside := find_inside found
  omega

/-- `get_last_segments(string_view, size_t)`, which does not use the count. -/
def getLastSegments (uri : Bytes) (_count : Nat := 0) : List Bytes := segmentsFrom uri 0

theorem find_none {s : Bytes} {c : UInt8} {start : Nat} (plain : c ∉ s.drop start) : find s c start = none := by
  rw [find, List.idxOf?_eq_none_iff.mpr plain, Option.map_none]

/-- The first occurrence is found. -/
theorem find_first {s first rest : Bytes} {c : UInt8} {start : Nat} (plain : c ∉ first)
    (cut : s.drop start = first ++ c :: rest) : find s c start = some (start + first.length) := by
  have index : (s.drop start).idxOf? c = some first.length := by
    rw [List.idxOf?_eq_some_iff, cut]
    refine ⟨by simp, by simp, ?_⟩
    intro j before same
    rw [List.getElem_append_left before] at same
    exact plain (same ▸ List.getElem_mem before)
  rw [find, index, Option.map_some]

theorem segmentsFrom_none {uri : Bytes} {start : Nat} (found : find uri slash start = none) :
    segmentsFrom uri start = if start < uri.length then [uri.drop start] else [] := by
  rw [segmentsFrom]
  split
  · rfl
  · next other => rw [found] at other; cases other

theorem segmentsFrom_some {uri : Bytes} {start stop : Nat} (found : find uri slash start = some stop) :
    segmentsFrom uri start = (uri.drop start).take (stop - start) :: segmentsFrom uri (stop + 1) := by
  rw [segmentsFrom]
  split
  · next other => rw [found] at other; cases other
  · next other => cases found.symm.trans other; rfl

/-- From a position on the loop gives the fields behind it. -/
theorem segmentsFrom_eq (uri : Bytes) (start : Nat) : segmentsFrom uri start = Lib.fields slash (uri.drop start) := by
  refine Lib.fields_of_scan (fun start => uri.drop start) (segmentsFrom uri) (fun _ => True) ?_ ?_ ?_ start trivial
  · intro start _ empty
    have behind := List.drop_eq_nil_iff.mp empty
    rw [segmentsFrom_none (find_none (by simp [empty])), if_neg (Nat.not_lt.mpr behind)]
  · intro start _ nonempty plain
    have inside : start < uri.length := Nat.lt_of_not_le fun behind => nonempty (List.drop_eq_nil_iff.mpr behind)
    rw [segmentsFrom_none (find_none plain), if_pos inside]
  · intro start first rest _ plain cut
    refine ⟨start + first.length + 1, trivial, ?_, ?_⟩
    · have next : uri.drop (start + first.length + 1) = (uri.drop start).drop (first.length + 1) := by
        rw [List.drop_drop, Nat.add_assoc]
      rw [next, cut]
      simp
    · rw [segmentsFrom_some (find_first plain cut), cut, Nat.add_sub_cancel_left, List.take_left]

theorem getLastSegments_eq (uri : Bytes) (count : Nat) : getLastSegments uri count = M2eBridge.getLastSegments uri :=
  segmentsFrom_eq uri 0

example : getLastSegments (bytesOf "/a//b/") = [[], bytesOf "a", [], bytesOf "b"] := by
  rw [getLastSegments_eq]
  decide

end StringView

/-! ## The C string -/

/-- `std::stringstream`, as it is read. -/
structure StringStream where
  rest : Bytes
  eof : Bool := false
  deriving DecidableEq

namespace StringStream

/-- `std::getline`, `none` where the stream fails. -/
def getline (delim : UInt8) (ss : StringStream) : Option (Bytes × StringStream) :=
  if ss.eof then none
  else
    match ss.rest.dropWhile (· ≠ delim) with
    -- the delimiter is taken off and is not stored
    | _ :: rest => some (ss.rest.takeWhile (· ≠ delim), { ss with rest })
    -- the text ends the last line, if it is one
    | [] => if ss.rest = [] then none else some (ss.rest, { rest := [], eof := true })

theorem getline_shorter {delim : UInt8} {ss ss' : StringStream} {line : Bytes}
    (read : ss.getline delim = some (line, ss')) : ss'.rest.length < ss.rest.length := by
  unfold getline at read
  split at read
  · cases read
  · split at read
    · next rest cut =>
      cases read
      have shorter := (List.dropWhile_suffix (· ≠ delim) (l := ss.rest)).length_le
      rw [cut] at shorter
      exact shorter
    · split at read
      · cases read
      · next nonempty => cases read; exact List.length_pos_iff.mpr nonempty

/-- The loop over `getline`. -/
def lines (delim : UInt8) (ss : StringStream) : List Bytes :=
  match _ : ss.getline delim with
  | none => []
  | some (line, ss) => line :: lines delim ss
termination_by ss.rest.length
decreasing_by exact getline_shorter ‹_›

theorem lines_none {delim : UInt8} {ss : StringStream} (read : ss.getline delim = none) : ss.lines delim = [] := by
  rw [lines]
  split
  · rfl
  · next other => rw [read] at other; cases other

theorem lines_some {delim : UInt8} {ss ss' : StringStream} {line : Bytes}
    (read : ss.getline delim = some (line, ss')) : ss.lines delim = line :: ss'.lines delim := by
  rw [lines]
  split
  · next other => rw [read] at other; cases other
  · next other => cases read.symm.trans other; rfl

/-- At the end of the text there is nothing left. -/
def Sound (ss : StringStream) : Prop := ss.eof = true → ss.rest = []

/-- The lines of a stream are the fields of what it has left. -/
theorem lines_eq (delim : UInt8) (ss : StringStream) (sound : ss.Sound) : ss.lines delim = Lib.fields delim ss.rest := by
  refine Lib.fields_of_scan StringStream.rest (lines delim) Sound ?_ ?_ ?_ ss sound
  · intro ss _ empty
    apply lines_none
    simp [getline, empty]
  · intro ss sound nonempty plain
    have more : ss.eof ≠ true := fun ended => nonempty (sound ended)
    have whole : ss.rest.dropWhile (· ≠ delim) = [] := by
      rw [List.dropWhile_eq_nil_iff]
      intro b member
      exact decide_eq_true fun same => plain (same ▸ member)
    have read : ss.getline delim = some (ss.rest, { rest := [], eof := true }) := by
      simp only [getline, if_neg more, whole, if_neg nonempty]
    have ended : lines delim { rest := [], eof := true } = [] := lines_none rfl
    rw [lines_some read, ended]
  · intro ss first rest sound plain cut
    have more : ss.eof ≠ true := by
      intro ended
      rw [sound ended] at cut
      simp at cut
    have others : ∀ b ∈ first, decide (b ≠ delim) = true := fun b member => decide_eq_true fun same => plain (same ▸ member)
    have read : ss.getline delim = some (first, { ss with rest }) := by
      have line : ss.rest.takeWhile (· ≠ delim) = first := by
        rw [cut, List.takeWhile_append_of_pos others]
        simp
      have behind : ss.rest.dropWhile (· ≠ delim) = delim :: rest := by
        rw [cut, List.dropWhile_append_of_pos others]
        simp
      simp only [getline, if_neg more, behind, line]
    exact ⟨{ ss with rest }, fun ended => absurd ended more, rfl, lines_some read⟩

end StringStream

namespace CString

/-- `get_last_segments(char const *, size_t)`. -/
def getLastSegments (uri : Bytes) (count : Nat := 0) : Except Exn (List Bytes) :=
  let segments := StringStream.lines slash { rest := cString uri }
  if count ≠ 0 ∧ segments.length < count then .error ⟨.outOfRange, ""⟩
  else if count = 0 then .ok segments
  else .ok (segments.drop (segments.length - count))

theorem getLastSegments_eq (uri : Bytes) (count : Nat) :
    getLastSegments uri count =
      if count = 0 then .ok (M2eBridge.getLastSegments (cString uri)) else getLastSegmentsOf (cString uri) count := by
  have segments : StringStream.lines slash { rest := cString uri } = M2eBridge.getLastSegments (cString uri) := by
    apply StringStream.lines_eq
    intro ended
    cases ended
  unfold getLastSegments getLastSegmentsOf
  rw [segments]
  by_cases all : count = 0
  · simp [all]
  · simp [all]

end CString

/-! ## One list -/

/-- The last segments are the end of the list, where it is long enough. -/
theorem getLastSegmentsOf_ok_iff {uri : Bytes} {count : Nat} {last : List Bytes} :
    getLastSegmentsOf uri count = .ok last ↔ last <:+ getLastSegments uri ∧ last.length = count := by
  rw [List.suffix_iff_eq_drop]
  unfold getLastSegmentsOf
  by_cases few : (getLastSegments uri).length < count
  · simp only [if_pos few, reduceCtorEq, false_iff, not_and]
    rintro ends rfl
    rw [ends, List.length_drop] at few
    omega
  · simp only [if_neg few, Except.ok.injEq]
    constructor
    · rintro rfl
      have long : ((getLastSegments uri).drop ((getLastSegments uri).length - count)).length = count := by
        rw [List.length_drop]
        omega
      rw [long]
      exact ⟨rfl, rfl⟩
    · rintro ⟨ends, rfl⟩
      exact ends.symm

theorem getLastSegmentsOf_error_iff {uri : Bytes} {count : Nat} :
    getLastSegmentsOf uri count = .error ⟨.outOfRange, ""⟩ ↔ (getLastSegments uri).length < count := by
  unfold getLastSegmentsOf
  by_cases few : (getLastSegments uri).length < count
  · simp [few]
  · simp [few]

/-- **The two overloads.** Without a count they give the same segments of a URI; with one
the C string gives the last of these, and throws exactly if there are fewer. -/
theorem overloads_alike (uri : Bytes) (clean : 0 ∉ uri) :
    CString.getLastSegments uri 0 = .ok (StringView.getLastSegments uri 0) ∧
      ∀ count > 0,
        (∀ last, CString.getLastSegments uri count = .ok last ↔
          last <:+ StringView.getLastSegments uri 0 ∧ last.length = count) ∧
        (CString.getLastSegments uri count = .error ⟨.outOfRange, ""⟩ ↔
          (StringView.getLastSegments uri 0).length < count) := by
  have whole : cString uri = uri := cString_eq_iff.mpr clean
  refine ⟨?_, fun count pos => ?_⟩
  · rw [CString.getLastSegments_eq, if_pos rfl, whole, StringView.getLastSegments_eq]
  · rw [CString.getLastSegments_eq, if_neg (Nat.ne_of_gt pos), whole, StringView.getLastSegments_eq]
    exact ⟨fun last => getLastSegmentsOf_ok_iff, getLastSegmentsOf_error_iff⟩

/-- A slash in front, two in the middle and one at the end. -/
theorem overloads_alike_slashes :
    CString.getLastSegments (bytesOf "/a//b/") 0 = .ok (StringView.getLastSegments (bytesOf "/a//b/") 0) ∧
      ∀ count > 0,
        (∀ last, CString.getLastSegments (bytesOf "/a//b/") count = .ok last ↔
          last <:+ StringView.getLastSegments (bytesOf "/a//b/") 0 ∧ last.length = count) ∧
        (CString.getLastSegments (bytesOf "/a//b/") count = .error ⟨.outOfRange, ""⟩ ↔
          (StringView.getLastSegments (bytesOf "/a//b/") 0).length < count) :=
  overloads_alike (bytesOf "/a//b/") (by decide)

end M2eBridge
