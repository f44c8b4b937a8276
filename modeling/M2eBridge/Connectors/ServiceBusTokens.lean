import M2eBridge.Connectors.ServiceBusConnector
import M2eBridge.Lib.Traces

/-!
# The tokens of the Service Bus connector

`sas_token_expiry_` is compared with the clock before every request, and is written by
nothing: it keeps the value that the memory of the object had, whatever token is held.
`tokens_fresh_iff` says for every run when the tokens are nevertheless those that they
should be.
-/

namespace M2eBridge

/-- A token is not replaced while it is valid, and a request goes out with a valid one. -/
def SasAct.Fresh : SasAct → Prop
  | .generated time before _ => ∀ old, before = some old → old.expiry ≤ time
  | .requested r => ∃ token, r.authorization = some token ∧ r.time < token.expiry

namespace ServiceBusConnector

/-- No token is held that is valid at the time. -/
def NoneValid (c : ServiceBusConnector) (time : Int) : Prop := ∀ token, c.sasToken = some token → token.expiry ≤ time

/-- A token is held that is valid at the time. -/
def HoldsValid (c : ServiceBusConnector) (time : Int) : Prop := ∃ token, c.sasToken = some token ∧ time < token.expiry

/-- The field agrees with the token: where the clock has reached the field there is no valid
token, and the new one lasts until the requests; where not, the token that is held lasts. -/
def Agrees (c : ServiceBusConnector) (r : ClockReadings) (requests : List Int) : Prop :=
  if c.sasTokenExpiry ≤ r.checked then c.NoneValid r.generated ∧ ∀ time ∈ requests, time < r.generated + c.expireIn
  else ∀ time ∈ requests, c.HoldsValid time

/-- The times of the requests of `do_receive`. -/
def Reception.requests (w : Reception) (deletes : Bool) : List Int :=
  w.read.time :: if w.gets && deletes then [w.delete.time] else []

variable (S : SasLibrary) (C : Codec)

/-- The state and the readings of the clock are such that the call comes out right. -/
def Timely (call : ServiceBusCall) (c : ServiceBusConnector) : Prop :=
  match call with
  | .connect now _ => c.parseConnectionString.1 = true → c.NoneValid now
  | .send w r t => c.curl.isSome → (∃ payload, (w.msg.getRaw C).1 = .ok payload) → c.Agrees r [t.time]
  | .receive w => c.curl.isSome → c.Agrees w.readings (w.requests c.deleteAfterProcessing)

variable {S C}

/-- What `refresh_sas_token` and the requests behind it show. -/
theorem refresh_fresh_iff (c : ServiceBusConnector) (r : ClockReadings) (requests : List CurlRequest)
    (signed : ∀ request ∈ requests, request.authorization = (c.refreshSasToken S r).1.sasToken) :
    (∀ act ∈ (c.refreshSasToken S r).2 ++ requests.map .requested, act.Fresh) ↔
      c.Agrees r (requests.map CurlRequest.time) := by
  have shown : (∀ act ∈ requests.map SasAct.requested, act.Fresh) ↔
      ∀ time ∈ requests.map CurlRequest.time, (c.refreshSasToken S r).1.HoldsValid time := by
    simp only [List.forall_mem_map]
    apply forall₂_congr
    intro request member
    rw [SasAct.Fresh, signed request member, HoldsValid]
  rw [List.forall_mem_append, shown, Agrees]
  unfold refreshSasToken
  split
  · apply and_congr
    · simp [renew, SasAct.Fresh, NoneValid]
    · simp [renew, HoldsValid, generateSasToken]
  · simp

theorem connect_fresh_iff (c : ServiceBusConnector) (now : Int) (init : Bool) :
    (∀ act ∈ (c.doConnect S now init).2.2, act.Fresh) ↔ (c.parseConnectionString.1 = true → c.NoneValid now) := by
  have kept := (parseConnectionString_kept c).1
  unfold doConnect
  generalize c.parseConnectionString = parsed at kept ⊢
  obtain ⟨result, c'⟩ := parsed
  simp only at kept
  cases result with
  | false => simp
  | true => cases init <;> simp [renew, SasAct.Fresh, NoneValid, kept]

theorem send_fresh_iff (c : ServiceBusConnector) (h : EasyHandle) (w : MessageWrapper) (r : ClockReadings)
    (t : Transfer) :
    (∀ act ∈ (c.doSend S C h w r t).2.2.2, act.Fresh) ↔
      ((∃ payload, (w.msg.getRaw C).1 = .ok payload) → c.Agrees r [t.time]) := by
  unfold doSend
  have payload : (w.onMsg (·.getRaw C)).1 = (w.msg.getRaw C).1 := rfl
  rw [← payload]
  generalize w.onMsg (·.getRaw C) = read
  obtain ⟨result, w'⟩ := read
  cases result with
  | error e => simp
  | ok payload =>
    simp only [Except.ok.injEq, exists_eq', forall_const]
    exact refresh_fresh_iff c r [_] fun request member => by rw [List.mem_singleton.mp member]; rfl

theorem receive_fresh_iff (c : ServiceBusConnector) (h : EasyHandle) (w : Reception) :
    (∀ act ∈ (c.doReceive S h w).2.2, act.Fresh) ↔ c.Agrees w.readings (w.requests c.deleteAfterProcessing) := by
  obtain ⟨requests, shown, received⟩ := doReceive_requests (S := S) c h w
  have times : requests.map CurlRequest.time = w.requests c.deleteAfterProcessing := received.times
  rw [shown, refresh_fresh_iff c w.readings requests received.signed, times]

theorem acts_fresh_iff (call : ServiceBusCall) (c : ServiceBusConnector) :
    (∀ act ∈ acts S C call c, act.Fresh) ↔ Timely C call c := by
  unfold acts perform
  cases call with
  | connect now init => exact connect_fresh_iff c now init
  | send w r t =>
    cases handle : c.curl with
    | none => simp [Timely, handle]
    | some h => simpa [Timely, handle] using send_fresh_iff c h w r t
  | receive w =>
    cases handle : c.curl with
    | none => simp [Timely, handle]
    | some h => simpa [Timely, handle] using receive_fresh_iff c h w

/-- **The tokens of a run.** Whatever the connector holds, each request of a run carries a
token that expires later, and no valid token is replaced, exactly if the field agrees with
the token in every call and no call connects while a valid token is held. -/
theorem tokens_fresh_iff (S : SasLibrary) (C : Codec) (calls : List ServiceBusCall) (c : ServiceBusConnector) :
    (∀ act ∈ Lib.outputs (step S C) (acts S C) calls c, act.Fresh) ↔ Lib.Along (step S C) (Timely C) calls c := by
  rw [Lib.forall_mem_outputs]
  exact Lib.along_iff (fun _ => True) (fun call c _ => acts_fresh_iff call c) (fun _ _ _ _ _ => trivial) trivial
    calls

/-- The readings of the clock in a call, in their order. -/
def ServiceBusCall.times : ServiceBusCall → List Int
  | .connect now _ => [now]
  | .send _ r t => [r.checked, r.generated, t.time]
  | .receive w => [w.readings.checked, w.readings.generated, w.read.time, w.delete.time]

/-- The clock never goes back. -/
def ClockRuns (calls : List ServiceBusCall) : Prop := (calls.flatMap ServiceBusCall.times).Pairwise (· ≤ ·)

instance (calls : List ServiceBusCall) : Decidable (ClockRuns calls) := inferInstanceAs (Decidable (List.Pairwise _ _))

/-- With a field beyond the clock the token of the connection is kept: it has expired at
4600, and goes out at 9000. -/
theorem expired_token_sent :
    ¬ ∀ (S : SasLibrary) (C : Codec) (calls : List ServiceBusCall) (c : ServiceBusConnector), 0 < c.expireIn →
      ClockRuns calls → c.sasToken = none → ∀ act ∈ Lib.outputs (step S C) (acts S C) calls c, act.Fresh := by
  intro all
  let C : Codec := ⟨fun _ => .ok .null, fun _ => [], fun _ => [], fun _ => none⟩
  let answer : Transfer := ⟨9000, .ok (), []⟩
  let calls : List ServiceBusCall := [.connect 1000 true, .receive ⟨⟨9000, 9000⟩, answer, answer⟩]
  let token : SasToken := ⟨bytesOf "https://n/q", bytesOf "https://n/q\n4600", 4600, bytesOf "k"⟩
  have sent := all plainLibrary C calls (plainQueue 1000000000000) (by decide) (by decide) rfl
    (.requested ⟨"GET", bytesOf "https://n/q/messages/head?api-version=2013-08", some token, 9000⟩) (by decide)
  obtain ⟨held, same, later⟩ := sent
  cases same
  exact absurd later (by decide)

end ServiceBusConnector

end M2eBridge
