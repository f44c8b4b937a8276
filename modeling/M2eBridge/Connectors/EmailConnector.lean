import M2eBridge.MessageWrapper

/-!
# The e-mail connector

The sending side of `EmailConnector`: `send_email` composes the lines of an e-mail, and
libcurl asks `payload_source` for them, call after call, with a buffer of any size each
time. A call hands out one line, up to the first NUL in it, whatever the buffer holds.
-/

namespace M2eBridge

/-- The fields that the sending side reads. -/
structure EmailConnector where
  address : Bytes
  username : Bytes

structure UploadStatus where
  linesRead : Nat := 0
  emailContent : List Bytes

/-- `payload_source`: what is copied to `ptr`, whose length is returned, and the
context that is left. -/
def payloadSource (ctx : UploadStatus) (size nmemb : UInt64) : Bytes × UploadStatus :=
  if size = 0 ∨ nmemb = 0 ∨ size * nmemb < 1 then ([], ctx)
  else
    match ctx.emailContent[ctx.linesRead]? with
    | some line => (cString line, { ctx with linesRead := ctx.linesRead + 1 })
    | none => ([], ctx)

namespace EmailConnector

/-- The vector `email_content` of `send_email`. -/
def emailContent (c : EmailConnector) (subject body : Bytes) : List Bytes :=
  [ bytesOf "To: " ++ c.address ++ bytesOf "\r\n",
    bytesOf "From: " ++ c.username ++ bytesOf "\r\n",
    bytesOf "Subject: " ++ subject ++ bytesOf "\r\n",
    bytesOf "\r\n",
    body ++ bytesOf "\r\n" ]

end EmailConnector

/-! ## The calls of an upload -/

/-- The buffer of a call. It has a place, and it lies in the address space. -/
structure ReadBuffer where
  size : UInt64
  nmemb : UInt64
  pos : 1 ≤ size.toNat * nmemb.toNat
  fits : size.toNat * nmemb.toNat < UInt64.size

def ReadBuffer.capacity (b : ReadBuffer) : Nat := b.size.toNat * b.nmemb.toNat

/-- No buffer is refused. -/
theorem ReadBuffer.accepted (b : ReadBuffer) : ¬ (b.size = 0 ∨ b.nmemb = 0 ∨ b.size * b.nmemb < 1) := by
  have some := b.pos
  rintro (none | none | none)
  · simp [none] at some
  · simp [none] at some
  · rw [UInt64.lt_iff_toNat_lt, UInt64.toNat_mul, Nat.mod_eq_of_lt b.fits] at none
    exact absurd some (Nat.not_le_of_lt none)

namespace UploadStatus

variable (content : List Bytes) (buffers : Nat → ReadBuffer)

/-- The context before call `k`. -/
def before : Nat → UploadStatus
  | 0 => { emailContent := content }
  | k + 1 => (payloadSource (before k) (buffers k).size (buffers k).nmemb).2

/-- What call `k` writes. -/
def written (k : Nat) : Bytes := (payloadSource (before content buffers k) (buffers k).size (buffers k).nmemb).1

/-- No call writes more than its buffer takes, and what is written until the first
return of 0 is `text`. -/
structure Delivers (text : Bytes) : Prop where
  bounded : ∀ k, (written content buffers k).length ≤ (buffers k).capacity
  complete : ∃ n, written content buffers n = [] ∧ (∀ k < n, written content buffers k ≠ []) ∧
    (List.range n).flatMap (written content buffers) = text

theorem before_eq (k : Nat) : before content buffers k = ⟨min k content.length, content⟩ := by
  induction k with
  | zero => simp [before]
  | succ k ih =>
    rw [before, ih, payloadSource, if_neg (buffers k).accepted]
    by_cases more : k < content.length
    · have here : min k content.length = k := by omega
      have next : min (k + 1) content.length = k + 1 := by omega
      simp only [here, next, List.getElem?_eq_getElem more]
    · have here : min k content.length = content.length := by omega
      have next : min (k + 1) content.length = content.length := by omega
      simp only [here, next, List.getElem?_eq_none (Nat.le_refl _)]

/-- Call `k` writes line `k`, as far as a C string goes. -/
theorem written_eq (k : Nat) : written content buffers k = (content[k]?.map cString).getD [] := by
  rw [written, before_eq, payloadSource, if_neg (buffers k).accepted]
  by_cases more : k < content.length
  · have here : min k content.length = k := by omega
    simp only [here, List.getElem?_eq_getElem more, Option.map_some, Option.getD_some]
  · have done : content.length ≤ k := Nat.le_of_not_lt more
    have here : min k content.length = content.length := by omega
    simp only [here, List.getElem?_eq_none (Nat.le_refl _), List.getElem?_eq_none done, Option.map_none, Option.getD_none]

theorem written_take (n : Nat) :
    (List.range n).flatMap (written content buffers) = ((content.take n).map cString).flatten := by
  induction n with
  | zero => rfl
  | succ n ih =>
    rw [List.range_succ, List.flatMap_append, ih, List.flatMap_singleton, written_eq, List.take_add_one, List.map_append,
      List.flatten_append]
    cases content[n]? <;> simp

/-- Lines that come to the whole text although each is cut at its first NUL have no NUL. -/
theorem whole_of_length {n : Nat} {lines : List Bytes}
    (whole : lines.flatten.length ≤ ((lines.take n).map cString).flatten.length) :
    ∀ line ∈ lines, cString line = line := by
  have shorter : ∀ (lines : List Bytes) n, ((lines.take n).map cString).flatten.length ≤ lines.flatten.length := by
    intro lines
    induction lines with
    | nil => simp
    | cons line rest ih =>
      rintro (_ | n)
      · simp
      · have cut := cString_length_le line
        have later := ih n
        simp only [List.take_succ_cons, List.map_cons, List.flatten_cons, List.length_append]
        omega
  induction lines generalizing n with
  | nil => simp
  | cons line rest ih =>
    have cut := cString_length_le line
    rcases n with _ | n
    · intro other member
      have none_left : other = [] := by
        have empty : (line :: rest).flatten = [] := List.eq_nil_of_length_eq_zero (Nat.le_zero.mp whole)
        exact List.flatten_eq_nil_iff.mp empty other member
      rw [none_left]
      rfl
    · have later := shorter rest n
      simp only [List.take_succ_cons, List.map_cons, List.flatten_cons, List.length_append] at whole
      intro other member
      rcases List.mem_cons.mp member with rfl | member
      · exact (List.takeWhile_sublist _).eq_of_length_le (by show other.length ≤ (cString other).length; omega)
      · exact ih (by omega : rest.flatten.length ≤ ((rest.take n).map cString).flatten.length) other member

/-- **An upload is whole and in bounds iff no line has a NUL and each fits its call.** -/
theorem whole_delivered_iff (filled : ∀ line ∈ content, line ≠ []) :
    Delivers content buffers content.flatten ↔
      ∀ k line, content[k]? = some line → 0 ∉ line ∧ line.length ≤ (buffers k).capacity := by
  constructor
  · rintro ⟨bounded, n, -, -, complete⟩ k line found
    rw [written_take] at complete
    have clean := whole_of_length (Nat.le_of_eq (congrArg List.length complete.symm)) line (List.mem_of_getElem? found)
    refine ⟨cString_eq_iff.mp clean, ?_⟩
    have inBounds := bounded k
    rw [written_eq, found, Option.map_some, Option.getD_some, clean] at inBounds
    exact inBounds
  · intro fits
    have clean : ∀ line ∈ content, cString line = line := by
      intro line member
      obtain ⟨k, found⟩ := List.mem_iff_getElem?.mp member
      exact cString_eq_iff.mpr (fits k line found).1
    refine ⟨fun k => ?_, content.length, by simp [written_eq], fun k inside none_left => ?_, ?_⟩
    · rw [written_eq]
      cases found : content[k]? with
      | none => exact Nat.zero_le _
      | some line => exact Nat.le_trans (cString_length_le line) (fits k line found).2
    · rw [written_eq, List.getElem?_eq_getElem inside, Option.map_some, Option.getD_some,
        clean _ (List.getElem_mem inside)] at none_left
      exact filled _ (List.getElem_mem inside) none_left
    · rw [written_take, List.take_length, List.map_congr_left clean, List.map_id']

end UploadStatus

namespace EmailConnector

theorem emailContent_filled (c : EmailConnector) (subject body : Bytes) :
    ∀ line ∈ c.emailContent subject body, line ≠ [] := by
  have ending : bytesOf "\r\n" ≠ [] := by decide
  intro line member
  simp only [emailContent, List.mem_cons, List.not_mem_nil, or_false] at member
  rcases member with rfl | rfl | rfl | rfl | rfl <;> simp [ending]

/-- **The upload of an e-mail** keeps to its buffers and hands out the whole e-mail
exactly if no line of it has a NUL and each fits the buffer of its call. -/
theorem upload_iff (c : EmailConnector) (subject body : Bytes) (buffers : Nat → ReadBuffer) :
    UploadStatus.Delivers (c.emailContent subject body) buffers (c.emailContent subject body).flatten ↔
      ∀ k line, (c.emailContent subject body)[k]? = some line →
        0 ∉ line ∧ line.length ≤ (buffers k).capacity :=
  UploadStatus.whole_delivered_iff _ buffers (c.emailContent_filled subject body)

/-- A body of more bytes than the buffer of libcurl is copied past its end. -/
theorem upload_overrun :
    ¬ ∀ (c : EmailConnector) (subject body : Bytes) (buffers : Nat → ReadBuffer),
      UploadStatus.Delivers (c.emailContent subject body) buffers (c.emailContent subject body).flatten := by
  intro always
  let buffer : ReadBuffer := ⟨1, 65536, by decide, by decide⟩
  let c : EmailConnector := ⟨bytesOf "ops@example.com", bytesOf "bridge@example.com"⟩
  have fits := (UploadStatus.whole_delivered_iff _ _ (c.emailContent_filled _ _)).mp
    (always c (bytesOf "plant/alarm") (List.replicate 65536 0x61) fun _ => buffer)
  have last := (fits 4 _ rfl).2
  rw [List.length_append, List.length_replicate] at last
  exact absurd last (by decide)

end EmailConnector

end M2eBridge
