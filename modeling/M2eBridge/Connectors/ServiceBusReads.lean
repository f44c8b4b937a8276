import M2eBridge.Connectors.ServiceBusConnector
import M2eBridge.Lib.Runs

/-!
# The reads of the Service Bus connector

A message that was read is deleted by a second request on the same handle, and nothing
takes the method of that request back: every read behind it is a delete itself. The body of
the second response comes into the buffer of the first. `reads_iff` says which runs are
nevertheless right.
-/

namespace M2eBridge

def SasAct.request? : SasAct → Option CurlRequest
  | .requested r => some r
  | .generated .. => none

namespace ServiceBusConnector

variable (S : SasLibrary)

/-- A call of `do_receive` on the handle of the connection. -/
def receive (w : Reception) (c : ServiceBusConnector) : Option ServiceBusConnector :=
  c.curl.map fun h => (c.doReceive S h w).2.1

/-- A call reads with `GET`, deletes once what it got, and returns what it read. -/
structure ReadsOnce (w : Reception) (c : ServiceBusConnector) (h : EasyHandle) : Prop where
  requests : ((c.doReceive S h w).2.2.filterMap SasAct.request?).map CurlRequest.method =
    "GET" :: if w.gets then ["DELETE"] else []
  payload : ∀ m, (c.doReceive S h w).1 = .ok m → m.msgRaw = w.read.body

variable {S}

/-- A refresh makes no request. -/
theorem refresh_requests (c : ServiceBusConnector) (r : ClockReadings) :
    (c.refreshSasToken S r).2.filterMap SasAct.request? = [] := by
  unfold refreshSasToken
  split <;> rfl

/-- The second body is empty, or the call throws. -/
def DeletesSilently (w : Reception) : Prop := w.gets = true → w.delete.result = .ok () → w.delete.body = []

theorem readsOnce_iff {c : ServiceBusConnector} (deletes : c.deleteAfterProcessing = true) (h : EasyHandle)
    (w : Reception) : ReadsOnce S w c h ↔ h.customRequest.getD "GET" = "GET" ∧ DeletesSilently w := by
  obtain ⟨requests, shown, received⟩ := doReceive_requests (S := S) c h w
  have returned := (doReceive_returns (S := S) c h w).payload
  have methods : ((c.doReceive S h w).2.2.filterMap SasAct.request?).map CurlRequest.method =
      h.customRequest.getD "GET" :: if w.gets then ["DELETE"] else [] := by
    have all : (requests.map SasAct.requested).filterMap SasAct.request? = requests := by
      rw [List.filterMap_map]
      exact List.filterMap_some
    rw [shown, List.filterMap_append, refresh_requests, List.nil_append, all, received.methods, deletes, Bool.and_true]
  simp only [deletes, if_true] at returned
  constructor
  · rintro ⟨ordered, payload⟩
    refine ⟨(List.cons.inj (methods.symm.trans ordered)).1, fun gets deleted => ?_⟩
    have same := payload _ ((returned _).mpr ⟨gets, deleted, rfl⟩)
    exact List.append_right_eq_self.mp same
  · rintro ⟨get, silent⟩
    refine ⟨by rw [methods, get], fun m ok => ?_⟩
    obtain ⟨gets, deleted, rfl⟩ := (returned m).mp ok
    show w.read.body ++ w.delete.body = w.read.body
    rw [silent gets deleted, List.append_nil]

variable (S) in
/-- Every call of a run is right. -/
def AllReadOnce (calls : List Reception) (c : ServiceBusConnector) : Prop :=
  Lib.Along (receive S) (fun w c => ∀ h, c.curl = some h → ReadsOnce S w c h) calls c

variable {c : ServiceBusConnector} {h : EasyHandle}

/-- Once a message was deleted, no further read is right. -/
theorem allReadOnce_deleting (handle : c.curl = some h) (custom : h.customRequest = some "DELETE")
    (deletes : c.deleteAfterProcessing = true) (calls : List Reception) : AllReadOnce S calls c ↔ calls = [] := by
  cases calls with
  | nil => exact iff_of_true trivial rfl
  | cons w rest =>
    refine iff_of_false (fun all => ?_) (List.cons_ne_nil w rest)
    have get := ((readsOnce_iff deletes h w).mp (all.1 h handle)).1
    rw [custom] at get
    exact absurd get (by decide)

theorem allReadOnce_reading (handle : c.curl = some h) (custom : h.customRequest = none)
    (deletes : c.deleteAfterProcessing = true) (calls : List Reception) :
    AllReadOnce S calls c ↔ (∀ w ∈ calls.dropLast, w.gets = false) ∧ ∀ w ∈ calls, DeletesSilently w := by
  induction calls generalizing c h with
  | nil => simp [AllReadOnce, Lib.Along]
  | cons w rest ih =>
    obtain ⟨⟨h', handle', custom'⟩, deletes', -⟩ := doReceive_returns (S := S) c h w
    rw [deletes, Bool.and_true, custom] at custom'
    rw [deletes] at deletes'
    have first : (∀ k, c.curl = some k → ReadsOnce S w c k) ↔ DeletesSilently w := by
      simp only [handle, Option.some.injEq, forall_eq']
      rw [readsOnce_iff deletes, custom]
      exact and_iff_right rfl
    have next : ∀ t, receive S w c = some t ↔ (c.doReceive S h w).2.1 = t := by simp [receive, handle]
    have split : AllReadOnce S (w :: rest) c ↔ DeletesSilently w ∧ AllReadOnce S rest (c.doReceive S h w).2.1 := by
      rw [AllReadOnce, Lib.Along, first]
      simp only [next, forall_eq', AllReadOnce]
    rw [split]
    cases gets : w.gets with
    | true =>
      rw [allReadOnce_deleting handle' (by rw [custom', gets]; rfl) deletes' rest]
      cases rest <;> simp [gets]
    | false =>
      rw [ih handle' (by rw [custom', gets]; rfl) deletes']
      have silent : DeletesSilently w := fun got => by rw [gets] at got; cases got
      cases rest <;> simp [gets, silent]

/-- **The reads of a connection.** Each is issued with `GET` and, where it gets a message,
followed by one `DELETE`, and the message has the body that was read, exactly if only the
last call gets a message, and the delete of it throws or has an empty response. -/
theorem reads_iff {c : ServiceBusConnector} {now : Int} (connected : (c.doConnect S now true).1 = .ok ())
    (deletes : c.deleteAfterProcessing = true) (calls : List Reception) :
    AllReadOnce S calls (c.doConnect S now true).2.1 ↔
      (∀ w ∈ calls.dropLast, w.gets = false) ∧ ∀ w ∈ calls, DeletesSilently w := by
  obtain ⟨handle, kept⟩ := doConnect_ok connected
  exact allReadOnce_reading handle rfl (kept.trans deletes) calls

/-- A call that reads `read`, and deletes it with the response `delete`. -/
def reception (read delete : Bytes) : Reception where
  readings := { checked := 1000, generated := 1000 }
  read := { time := 1000, result := .ok (), body := read }
  delete := { time := 1000, result := .ok (), body := delete }

theorem reads_iff_last :
    AllReadOnce plainLibrary [reception [] [], reception (bytesOf "on") []]
      ((plainQueue 0).doConnect plainLibrary 1000 true).2.1 := by
  refine (reads_iff (by decide) (by decide) _).mpr ⟨by decide, ?_⟩
  rintro w member - -
  simp only [List.mem_cons, List.not_mem_nil, or_false] at member
  rcases member with rfl | rfl <;> rfl

/-- The second of two messages is read with `DELETE`. -/
theorem second_read_deletes :
    ¬ ∀ (c : ServiceBusConnector) (now : Int) (calls : List Reception),
      (c.doConnect plainLibrary now true).1 = .ok () → c.deleteAfterProcessing = true →
        AllReadOnce plainLibrary calls (c.doConnect plainLibrary now true).2.1 := by
  intro all
  let calls := [reception (bytesOf "on") [], reception (bytesOf "off") []]
  have right := all (plainQueue 0) 1000 calls (by decide) (by decide)
  have connected : ((plainQueue 0).doConnect plainLibrary 1000 true).1 = .ok () := by decide
  obtain ⟨handle, kept⟩ := doConnect_ok connected
  have alone := ((allReadOnce_reading handle rfl kept calls).mp right).1
  exact absurd (alone (reception (bytesOf "on") []) (by simp [calls])) (by decide)

end ServiceBusConnector

end M2eBridge
