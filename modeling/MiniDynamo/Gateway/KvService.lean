import MiniDynamo.Gateway.Agreement
import MiniDynamo.Gateway.Exchange

/-! The REST edge of the gateway: what a call on a key is checked for, the requests it sends to the
cluster, and the HTTP response that comes of the replies. -/

namespace MiniDynamo.Gateway

open Utf16 ClusterClient

/-- The quorum a call works with. Java's `int` has 32 bits. -/
structure Quorum where
  n : Int32
  w : Int32
  r : Int32
  deriving DecidableEq

/-- The body of a `PUT`, before it is validated. -/
structure KvWriteRequest where
  value : Option Utf16
  clock : Option Utf16

structure KvValueResponse where
  value : Utf16
  clock : Utf16
  deriving DecidableEq

/-- The message of an exception, or that it is the Java library's own. -/
inductive Message where
  | text (message : Utf16)
  | library
  deriving DecidableEq

structure ApiError where
  error : Utf16
  message : Message
  deriving DecidableEq

/-- The exceptions that leave a call. -/
inductive Raised where
  | keyNotFound (key : Utf16)
  | siblingsConflict (siblings : List KvValueResponse)
  | quorumNotMet
  | clusterUnavailable
  | clusterProtocol (reason : Option Utf16)
  | methodArgumentNotValid (field message : Utf16)
  | illegalArgument (message : Message)
  | indexOutOfBounds
  | dataAccess
  deriving DecidableEq

/-- The body of a response; what the framework answers with to an exception nobody handles is its own. -/
inductive Body where
  | written (clock : Option Utf16)
  | value (response : KvValueResponse)
  | siblings (siblings : List KvValueResponse)
  | error (error : ApiError)
  | framework
  deriving DecidableEq

structure HttpResponse where
  status : Nat
  body : Body
  deriving DecidableEq

namespace GlobalExceptionHandler

def apiError (status : Nat) (error : String) (message : Message) : HttpResponse :=
  ⟨status, .error ⟨text error, message⟩⟩

def handle : Raised → HttpResponse
  | .keyNotFound key => apiError 404 "not_found" (.text (text "key not found: " ++ key))
  | .siblingsConflict siblings => ⟨409, .siblings siblings⟩
  | .quorumNotMet => apiError 503 "quorum_not_met" (.text (text "cluster could not meet the requested quorum"))
  | .clusterUnavailable => apiError 503 "cluster_unavailable" (.text (text "no cluster node could be reached"))
  | .clusterProtocol reason =>
    apiError 502 "cluster_error" (.text (text "cluster error: " ++ reason.getD (text "null")))
  | .methodArgumentNotValid field message => apiError 400 "bad_request" (.text (field ++ text ": " ++ message))
  | .illegalArgument message => apiError 400 "bad_request" message
  | .indexOutOfBounds => ⟨500, .framework⟩
  | .dataAccess => ⟨500, .framework⟩

/-- The response to a call that returns or throws. -/
def respond {Result : Type} (body : Result → Body) : Except Raised Result → HttpResponse
  | .ok result => ⟨200, body result⟩
  | .error raised => handle raised

end GlobalExceptionHandler

namespace ClusterClient

/-- The reply of an exchange. Of what the transport throws only the `NumberFormatException` escapes it,
and that is an `IllegalArgumentException`. -/
def received : Exchanged → Except Raised Utf16
  | .reply resp => .ok resp
  | .unavailable => .error .clusterUnavailable
  | .escaped _ => .error (.illegalArgument .library)

/-- What `parseRead` throws where it throws: the value is decoded before the clock is looked for. -/
def readThrown (resp : Utf16) : Raised :=
  let p := splitBar resp
  if p[1]? = some (text "OK") ∧ p[2]?.all (fun value => (JavaBase64.decode value).isSome) then .indexOutOfBounds
  else .illegalArgument .library

section Operations

variable {σ : Type} (exchangeForKey : σ → Utf16 → Utf16 → Int → Exchanged × σ)

def put (cluster : σ) (key : Utf16) (value : Bytes) (clock : Option Utf16) (n w r : Int32) :
    Except Raised WriteResult × σ :=
  let (outcome, after) :=
    exchangeForKey cluster key (putPayload key (some value) clock n.toInt w.toInt r.toInt) n.toInt
  ((received outcome).map parseWrite, after)

def delete (cluster : σ) (key : Utf16) (clock : Option Utf16) (n w : Int32) : Except Raised WriteResult × σ :=
  let (outcome, after) := exchangeForKey cluster key (deletePayload key clock n.toInt w.toInt) n.toInt
  ((received outcome).map parseWrite, after)

def get (cluster : σ) (key : Utf16) (n r : Int32) : Except Raised ReadResult × σ :=
  let (outcome, after) := exchangeForKey cluster key (getPayload key n.toInt r.toInt) n.toInt
  ((received outcome).bind (fun resp =>
    match parseRead resp with
    | some result => .ok result
    | none => .error (readThrown resp)), after)

end Operations

end ClusterClient

/-- A row of the audit log, without its time. -/
structure AuditLogEntity where
  actor : Utf16
  action : Utf16
  keyName : Utf16
  before : Option Utf16
  after : Option Utf16
  deriving DecidableEq

/-- How a call of the database goes. One that throws has written nothing, unless the connection broke once
it was committed. -/
inductive DatabaseCall where
  | done
  | failed
  | unconfirmed
  deriving DecidableEq

/-- The service over its client's state, with the latest version of the configuration, if there is one, the
rows of the audit log, and how the next calls of the database go, for whatever reason one fails: a row that
does not fit its columns is one. Past the end they are done. -/
structure KvService (σ : Type) where
  cluster : σ
  config : Option Quorum
  audit : List AuditLogEntity
  database : List DatabaseCall

namespace KvService

def orDefault (requested : Option Int32) (fallback : Int32) : Int32 :=
  match requested with
  | some requested => if 0 < requested then requested else fallback
  | none => fallback

def toDto (version : ValueVersion) : KvValueResponse := ⟨ofUtf8 version.value, version.clock⟩

/-- How `put` and `delete` end: with the clock of the write, or an exception. -/
def written (result : WriteResult) : Except Raised (Option Utf16) :=
  match result.status with
  | .ok => .ok result.clock
  | .quorumFailed => .error .quorumNotMet
  | .error => .error (.clusterProtocol result.error)

def fetched (key : Utf16) (result : ReadResult) : Except Raised KvValueResponse :=
  match result.status with
  | .ok =>
    match result.values with
    | version :: _ => .ok (toDto version)
    | [] => .error .indexOutOfBounds
  | .siblings => .error (.siblingsConflict (result.values.map toDto))
  | .notFound => .error (.keyNotFound key)
  | .quorumFailed => .error .quorumNotMet
  | .error => .error (.clusterProtocol result.error)

variable {σ : Type} (exchangeForKey : σ → Utf16 → Utf16 → Int → Exchanged × σ)

/-- How the next call of the database goes. -/
def nextCall (service : KvService σ) : DatabaseCall := service.database.headD .done

/-- The service once the database was called. -/
def queried (service : KvService σ) : KvService σ := { service with database := service.database.tail }

/-- The quorum in effect. -/
def quorum (service : KvService σ) : Quorum := service.config.getD ⟨3, 2, 2⟩

def defaults (service : KvService σ) : Except Raised Quorum × KvService σ :=
  (if service.nextCall = .done then .ok service.quorum else .error .dataAccess, service.queried)

/-- The value of the body is there: the controller has validated it. -/
def put (service : KvService σ) (key : Utf16) (body : KvWriteRequest) (n w r : Option Int32) :
    Except Raised (Option Utf16) × KvService σ :=
  match service.defaults with
  | (.error raised, service) => (.error raised, service)
  | (.ok d, service) =>
    let (result, cluster) := ClusterClient.put exchangeForKey service.cluster key (utf8 (body.value.getD [])) body.clock
      (orDefault n d.n) (orDefault w d.w) (orDefault r d.r)
    (result.bind written, { service with cluster })

def get (service : KvService σ) (key : Utf16) (n r : Option Int32) : Except Raised KvValueResponse × KvService σ :=
  match service.defaults with
  | (.error raised, service) => (.error raised, service)
  | (.ok d, service) =>
    let (result, cluster) := ClusterClient.get exchangeForKey service.cluster key (orDefault n d.n) (orDefault r d.r)
    (result.bind (fetched key), { service with cluster })

/-- The value a delete is about to remove, where a read tells it; no exception of the read goes further. -/
def captureBefore (cluster : σ) (key : Utf16) (n r : Int32) : Option Utf16 × σ :=
  match ClusterClient.get exchangeForKey cluster key n r with
  | (.ok result, after) =>
    (if result.status = .ok then result.values.head?.map (fun version => ofUtf8 version.value) else none, after)
  | (.error _, after) => (none, after)

/-- `audit`, a `save` of the repository. Nothing undoes the delete if it throws. -/
def record (service : KvService σ) (row : AuditLogEntity) : Except Raised Unit × KvService σ :=
  match service.nextCall with
  | .done => (.ok (), { service.queried with audit := service.audit ++ [row] })
  | .failed => (.error .dataAccess, service.queried)
  | .unconfirmed => (.error .dataAccess, { service.queried with audit := service.audit ++ [row] })

/-- The end of `delete`: a write that succeeded is recorded. -/
def finishDelete (service : KvService σ) (row : AuditLogEntity) (answer : Except Raised (Option Utf16)) :
    Except Raised (Option Utf16) × KvService σ :=
  match answer with
  | .ok clock =>
    let (saved, service) := service.record row
    (saved.map (fun _ => clock), service)
  | .error raised => (.error raised, service)

def delete (service : KvService σ) (key : Utf16) (clock : Option Utf16) (n w : Option Int32) (actor : Utf16) :
    Except Raised (Option Utf16) × KvService σ :=
  match service.defaults with
  | (.error raised, service) => (.error raised, service)
  | (.ok d, service) =>
    let en := orDefault n d.n
    let ew := orDefault w d.w
    let (before, cluster) := captureBefore exchangeForKey service.cluster key en d.r
    let (result, cluster) := ClusterClient.delete exchangeForKey cluster key clock en ew
    { service with cluster }.finishDelete ⟨actor, text "DELETE", key, before, none⟩ (result.bind written)

end KvService

/-- A call of the data plane with its path, its query and its body. -/
inductive RestCall where
  | put (key : Utf16) (body : KvWriteRequest) (n w r : Option Int32)
  | get (key : Utf16) (n r : Option Int32)
  | delete (key : Utf16) (clock : Option Utf16) (n w : Option Int32) (principal : Option Utf16)

def RestCall.key : RestCall → Utf16
  | .put key _ _ _ _ => key
  | .get key _ _ => key
  | .delete key _ _ _ _ => key

namespace KvController

def validateKey (key : Utf16) : Except Raised Unit :=
  if key = [] then .error (.illegalArgument (.text (text "key must not be empty")))
  else if bar ∈ key then .error (.illegalArgument (.text (text "key must not contain '|'")))
  else .ok ()

/-- What is checked before the service is called: the body by the framework, the key by the controller. -/
def validate : RestCall → Except Raised Unit
  | .put key body _ _ _ =>
    match body.value with
    | none => .error (.methodArgumentNotValid (text "value") (text "value is required"))
    | some _ => validateKey key
  | .get key _ _ => validateKey key
  | .delete key _ _ _ _ => validateKey key

def actor (principal : Option Utf16) : Utf16 := principal.getD (text "anonymous")

variable {σ : Type} (exchangeForKey : σ → Utf16 → Utf16 → Int → Exchanged × σ)

open GlobalExceptionHandler

/-- The call once it is validated. -/
def dispatch (service : KvService σ) : RestCall → HttpResponse × KvService σ
  | .put key body n w r =>
    let (result, after) := service.put exchangeForKey key body n w r
    (respond .written result, after)
  | .get key n r =>
    let (result, after) := service.get exchangeForKey key n r
    (respond .value result, after)
  | .delete key clock n w principal =>
    let (result, after) := service.delete exchangeForKey key clock n w (actor principal)
    (respond .written result, after)

def serve (service : KvService σ) (call : RestCall) : HttpResponse × KvService σ :=
  match validate call with
  | .error raised => (handle raised, service)
  | .ok () => dispatch exchangeForKey service call

/-- One call after the other, with the responses. -/
def run (service : KvService σ) : List RestCall → List HttpResponse × KvService σ
  | [] => ([], service)
  | call :: rest =>
    let (response, after) := serve exchangeForKey service call
    let (responses, last) := run after rest
    (response :: responses, last)

/-- A call of a run with the service as it found it, and its response. -/
structure Served (σ : Type) where
  service : KvService σ
  call : RestCall
  response : HttpResponse

/-- The calls of a run, as they were served. -/
def history (service : KvService σ) : List RestCall → List (Served σ)
  | [] => []
  | call :: rest =>
    ⟨service, call, (serve exchangeForKey service call).1⟩ :: history (serve exchangeForKey service call).2 rest

theorem responses_eq_history (service : KvService σ) (calls : List RestCall) :
    (run exchangeForKey service calls).1 = (history exchangeForKey service calls).map Served.response := by
  induction calls generalizing service with
  | nil => rfl
  | cons call rest ih =>
    rw [history, List.map_cons, ← ih]
    rfl

/-- What holds of a call whatever service it meets holds of every call of a run. -/
theorem served_of_each {holds : Served σ → Prop}
    (each : ∀ service call, holds ⟨service, call, (serve exchangeForKey service call).1⟩) (service : KvService σ)
    (calls : List RestCall) : ∀ served ∈ history exchangeForKey service calls, holds served := by
  induction calls generalizing service with
  | nil => exact nofun
  | cons call rest ih => exact List.forall_mem_cons.mpr ⟨each service call, ih _⟩

section Audit

/-- The call is a delete that was answered with success, or one that the database recorded without saying so. -/
def Served.audited (served : Served σ) : Bool :=
  match served.call with
  | .delete _ _ _ _ _ =>
    served.response.status = 200 ∨ (served.response.status = 500 ∧
      served.service.nextCall = .done ∧ served.service.queried.nextCall = .unconfirmed)
  | _ => false

/-- The row says who deleted which key; its earlier value is the one that the read of this call has found in the
cluster as the call met it, if it has found one version. -/
def Records (row : AuditLogEntity) (served : Served σ) : Prop :=
  ∃ key clock n w principal, served.call = .delete key clock n w principal ∧
    row.actor = actor principal ∧ row.action = text "DELETE" ∧ row.keyName = key ∧ row.after = none ∧
    ∀ before, row.before = some before ↔ ∃ result version,
      (ClusterClient.get exchangeForKey served.service.cluster key (KvService.orDefault n served.service.quorum.n)
        served.service.quorum.r).1 = .ok result ∧ result.status = .ok ∧
      result.values.head? = some version ∧ ofUtf8 version.value = before

/-- What a call adds to the audit log: the row of a delete, if it is to be audited, and else nothing. -/
def Audits (service : KvService σ) (call : RestCall) (result : HttpResponse × KvService σ) : Prop :=
  ∃ rows, result.2.audit = service.audit ++ rows ∧
    List.Forall₂ (Records exchangeForKey) rows ([⟨service, call, result.1⟩].filter Served.audited)

variable {exchangeForKey}

theorem captureBefore_eq_some {cluster : σ} {key before : Utf16} {n r : Int32} :
    (KvService.captureBefore exchangeForKey cluster key n r).1 = some before ↔ ∃ result version,
      (ClusterClient.get exchangeForKey cluster key n r).1 = .ok result ∧ result.status = .ok ∧
      result.values.head? = some version ∧ ofUtf8 version.value = before := by
  unfold KvService.captureBefore
  obtain ⟨read, after⟩ := ClusterClient.get exchangeForKey cluster key n r
  cases read with
  | error raised => simp
  | ok result =>
    by_cases fine : result.status = .ok
    · simp [fine]
    · simp [fine]

/-- No exception of the cluster is a 500 or a success. -/
theorem delete_raised {cluster : σ} {key : Utf16} {clock : Option Utf16} {n w : Int32} {raised : Raised}
    (failed : (ClusterClient.delete exchangeForKey cluster key clock n w).1.bind KvService.written = .error raised) :
    (handle raised).status ≠ 200 ∧ (handle raised).status ≠ 500 := by
  unfold ClusterClient.delete at failed
  generalize exchangeForKey cluster key (deletePayload key clock n.toInt w.toInt) n.toInt = exchanged at failed
  obtain ⟨outcome, after⟩ := exchanged
  cases outcome with
  | unavailable =>
    cases failed
    decide +kernel
  | escaped thrown =>
    cases failed
    decide +kernel
  | reply resp =>
    change KvService.written (parseWrite resp) = .error raised at failed
    unfold KvService.written at failed
    split at failed
    · cases failed
    · cases failed
      exact ⟨by simp [handle, apiError], by simp [handle, apiError]⟩
    · cases failed
      exact ⟨by simp [handle, apiError], by simp [handle, apiError]⟩

theorem audits_nothing {service : KvService σ} {call : RestCall} {result : HttpResponse × KvService σ}
    (same : result.2.audit = service.audit) (none : Served.audited ⟨service, call, result.1⟩ = false) :
    Audits exchangeForKey service call result :=
  ⟨[], by rw [same, List.append_nil], by rw [List.filter_cons_of_neg (by simp [none])]; exact .nil⟩

theorem audited_failed {service : KvService σ} {key : Utf16} {clock : Option Utf16} {n w : Option Int32}
    {principal : Option Utf16} {response : HttpResponse} (refused : response.status ≠ 200 ∧ response.status ≠ 500) :
    Served.audited ⟨service, .delete key clock n w principal, response⟩ = false := by
  simp [Served.audited, refused]

theorem audits_row {service : KvService σ} {key : Utf16} {clock : Option Utf16} {n w : Option Int32}
    {principal : Option Utf16} {result : HttpResponse × KvService σ}
    (saved : result.2.audit = service.audit ++ [⟨actor principal, text "DELETE", key,
      (KvService.captureBefore exchangeForKey service.cluster key
        (KvService.orDefault n service.quorum.n) service.quorum.r).1, none⟩])
    (audited : Served.audited ⟨service, .delete key clock n w principal, result.1⟩ = true) :
    Audits exchangeForKey service (.delete key clock n w principal) result := by
  refine ⟨_, saved, ?_⟩
  rw [List.filter_cons_of_pos audited]
  exact .cons ⟨key, clock, n, w, principal, rfl, rfl, rfl, rfl, rfl, fun before => captureBefore_eq_some⟩ .nil

theorem audits_delete (service : KvService σ) (key : Utf16) (clock : Option Utf16) (n w : Option Int32)
    (principal : Option Utf16) :
    Audits exchangeForKey service (.delete key clock n w principal)
      (dispatch exchangeForKey service (.delete key clock n w principal)) := by
  simp only [dispatch, KvService.delete, KvService.defaults, KvService.finishDelete]
  by_cases up : service.nextCall = .done
  · rw [if_pos up]
    dsimp only
    split
    · have saves : ∀ cluster : σ, KvService.nextCall { service.queried with cluster } = service.queried.nextCall :=
        fun _ => rfl
      rw [KvService.record, saves]
      cases next : service.queried.nextCall with
      | done => exact audits_row rfl (by simp [Served.audited, respond, Except.map])
      | failed => exact audits_nothing rfl (by simp [Served.audited, respond, Except.map, handle, next])
      | unconfirmed => exact audits_row rfl (by simp [Served.audited, respond, Except.map, handle, next, up])
    · rename_i raised failed
      exact audits_nothing rfl (audited_failed (delete_raised failed))
  · rw [if_neg up]
    exact audits_nothing rfl (by simp [Served.audited, respond, handle, up])

theorem audit_put (service : KvService σ) (key : Utf16) (body : KvWriteRequest) (n w r : Option Int32) :
    (service.put exchangeForKey key body n w r).2.audit = service.audit := by
  simp only [KvService.put, KvService.defaults]
  by_cases up : service.nextCall = .done <;> simp [up, KvService.queried]

theorem audit_get (service : KvService σ) (key : Utf16) (n r : Option Int32) :
    (service.get exchangeForKey key n r).2.audit = service.audit := by
  simp only [KvService.get, KvService.defaults]
  by_cases up : service.nextCall = .done <;> simp [up, KvService.queried]

theorem validate_raised {call : RestCall} {raised : Raised} (rejected : validate call = .error raised) :
    ∃ message, handle raised = apiError 400 "bad_request" (.text message) := by
  have keyed : ∀ key, validateKey key = .error raised →
      ∃ message, handle raised = apiError 400 "bad_request" (.text message) := by
    intro key failed
    unfold validateKey at failed
    split at failed
    · cases failed
      exact ⟨_, rfl⟩
    · split at failed
      · cases failed
        exact ⟨_, rfl⟩
      · cases failed
  cases call with
  | put key body n w r =>
    cases given : body.value with
    | none =>
      rw [validate, given] at rejected
      cases rejected
      exact ⟨_, rfl⟩
    | some value =>
      rw [validate, given] at rejected
      exact keyed key rejected
  | get key n r => exact keyed key rejected
  | delete key clock n w principal => exact keyed key rejected

theorem audits_serve (service : KvService σ) (call : RestCall) :
    Audits exchangeForKey service call (serve exchangeForKey service call) := by
  unfold serve
  split
  · rename_i raised rejected
    refine audits_nothing rfl ?_
    cases call with
    | put key body n w r => rfl
    | get key n r => rfl
    | delete key clock n w principal =>
      obtain ⟨message, same⟩ := validate_raised rejected
      rw [same]
      exact audited_failed ⟨by simp [apiError], by simp [apiError]⟩
  · cases call with
    | put key body n w r => exact audits_nothing (audit_put service key body n w r) rfl
    | get key n r => exact audits_nothing (audit_get service key n r) rfl
    | delete key clock n w principal => exact audits_delete service key clock n w principal

variable (exchangeForKey)

/-- Over any run of calls, whatever the cluster and the database answer, the audit log gains one row for each
delete that is answered with success, in their order, and no other row but that of a delete which the database
recorded without saying so, answered with a 500; the earlier value in a row is what the same call read. -/
theorem deletes_audited (service : KvService σ) (calls : List RestCall) :
    ∃ rows, (run exchangeForKey service calls).2.audit = service.audit ++ rows ∧
      List.Forall₂ (Records exchangeForKey) rows ((history exchangeForKey service calls).filter Served.audited) := by
  induction calls generalizing service with
  | nil => exact ⟨[], (List.append_nil _).symm, .nil⟩
  | cons call rest ih =>
    obtain ⟨rows, grown, records⟩ := @audits_serve σ exchangeForKey service call
    obtain ⟨others, further, remaining⟩ := ih (serve exchangeForKey service call).2
    refine ⟨rows ++ others, ?_, ?_⟩
    · rw [← List.append_assoc, ← grown]
      exact further
    · rw [history, ← List.singleton_append, List.filter_append]
      exact List.rel_append records remaining

end Audit

end KvController

end MiniDynamo.Gateway
