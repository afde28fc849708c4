import MiniDynamo.Gateway.DirectCalls

/-! What a client of the gateway can see: which responses there are at all, and that the clock tokens in
them come back to the coordinators as the clocks they stand for. -/

namespace MiniDynamo.Gateway

open Utf16 ClusterClient KvService KvController GlobalExceptionHandler

/-- The clock tokens a client gets to see. -/
def Body.tokens (body : Body) : List Utf16 :=
  match body with
  | .written clock => clock.toList
  | .value response => [response.clock]
  | .siblings versions => versions.map KvValueResponse.clock
  | .error _ => []
  | .framework => []

/-- A clock as the gateway writes it into a response. -/
def token (clock : VectorClock) : Utf16 := ofUtf8 clock.serialize

/-- Every token stands for a clock that can be sent. -/
def Stamped (body : Body) : Prop := ∀ text ∈ body.tokens, ∃ clock : VectorClock, clock.WireSafe ∧ text = token clock

namespace Deployment

variable {τ : Type} (cluster : Deployment τ)

/-- The answer to the call, somewhere and at some time, has a length that is no `int`. -/
def Overlong (quorum : Quorum) : RestCall → Prop
  | .put key body n w _ => ∃ id hop state, 2 ^ 31 ≤ writeSize (cluster.write (utf8 key) (cluster.putAt key
      (utf8 (body.value.getD [])) (context body.clock) (orDefault n quorum.n) (orDefault w quorum.w)) id hop state).1
  | .get key n r =>
    ∃ id hop state, 2 ^ 31 ≤ readSize (cluster.getAt key (orDefault n quorum.n) (orDefault r quorum.r) id hop state).1
  | .delete key clock n w _ => ∃ id hop state, 2 ^ 31 ≤ writeSize (cluster.write (utf8 key) (cluster.deleteAt key
      (context clock) (orDefault n quorum.n) (orDefault w quorum.w)) id hop state).1

/-- The responses a call can get from a service: what it asked for, a rejection of the call itself, or one of the
failures that the gateway has a status of its own for. The only error of the cluster passed on is the failed hop
to the primary. An exception of the Java library gets out for a reply of two gigabytes, and one of the database
where the configuration cannot be read or the row of a delete not confirmed. -/
inductive Foreseen (service : KvService (Direct τ)) (call : RestCall) : HttpResponse → Prop where
  | done (body : Body) (stamped : Stamped body) : Foreseen service call ⟨200, body⟩
  | rejected {raised : Raised} (message : Utf16) (invalid : validate call = .error raised)
      (same : handle raised = apiError 400 "bad_request" (.text message)) : Foreseen service call (handle raised)
  | missing : Foreseen service call (handle (.keyNotFound call.key))
  | conflict (versions : List KvValueResponse) (several : 2 ≤ versions.length)
      (stamped : Stamped (.siblings versions)) :
      Foreseen service call (handle (.siblingsConflict versions))
  | quorum : Foreseen service call (handle .quorumNotMet)
  | unavailable : Foreseen service call (handle .clusterUnavailable)
  | unforwarded : Foreseen service call (handle (.clusterProtocol (some (text "forward_failed"))))
  | overlong (large : cluster.Overlong service.quorum call) :
      Foreseen service call (handle (.illegalArgument .library))
  | unconfigured (down : service.nextCall ≠ .done) : Foreseen service call (handle .dataAccess)
  | unrecorded {key : Utf16} {clock : Option Utf16} {n w : Option Int32} {principal : Option Utf16}
      (deletes : call = .delete key clock n w principal) (down : service.queried.nextCall ≠ .done) :
      Foreseen service call (handle .dataAccess)

end Deployment

theorem stamped_shown {versions : List VersionedValue} (safe : ∀ version ∈ versions, version.clock.WireSafe) :
    Stamped (.siblings (versions.map shown)) := by
  intro text member
  obtain ⟨response, held, rfl⟩ := List.mem_map.mp member
  obtain ⟨version, found, rfl⟩ := List.mem_map.mp held
  exact ⟨version.clock, safe version found, rfl⟩

namespace Deployment

variable {τ : Type} {cluster : Deployment τ} {service : KvService (Direct τ)} {call : RestCall}

theorem Foreseen.stamped {response : HttpResponse} (foreseen : cluster.Foreseen service call response) :
    Stamped response.body := by
  cases foreseen with
  | done body stamped => exact stamped
  | conflict versions several stamped => exact stamped
  | rejected message invalid same => exact same ▸ nofun
  | _ => exact nofun

theorem refusal_known {reason : Bytes} (known : reason ∈ Coordinator.refusals) : refusal reason = .quorumNotMet :=
  if_pos known

/-- What a write comes to: a clock that can be sent, or a failure that is foreseen. -/
def Settled (cluster : Deployment τ) (service : KvService (Direct τ)) (call : RestCall)
    (answer : Except Raised (Option Utf16)) : Prop :=
  (∃ clock : VectorClock, clock.WireSafe ∧ answer = .ok (some (token clock))) ∨
    ∃ raised, answer = .error raised ∧ cluster.Foreseen service call (handle raised)

theorem settled_write {operation : Bytes → τ → PutResult × τ} (yields : cluster.Yields operation) {key : Utf16}
    {n : Int32} {direct after : Direct τ} {result : Except Raised PutResult}
    (asks : cluster.Asks writeSize (cluster.write (utf8 key) operation) key n direct result after)
    (large : (∃ id hop state, 2 ^ 31 ≤ writeSize (cluster.write (utf8 key) operation id hop state).1) →
      cluster.Overlong service.quorum call) : cluster.Settled service call (result.bind writeAnswer) := by
  rcases asks.result with ⟨id, hop, state, rfl⟩ | rfl | ⟨rfl, long⟩
  · rcases yields.write id hop state with written | failed
    · simp only [Except.bind, writeAnswer]
      split
      · rename_i fine
        exact .inl ⟨_, written.fine fine, rfl⟩
      · rename_i refused
        rw [refusal_known (written.refused (by simpa using refused))]
        exact .inr ⟨_, rfl, .quorum⟩
    · simp only [Except.bind, failed]
      exact .inr ⟨_, rfl, .unforwarded⟩
  · exact .inr ⟨_, rfl, .unavailable⟩
  · exact .inr ⟨_, rfl, .overlong (large long)⟩

theorem Settled.respond {answer : Except Raised (Option Utf16)} (settled : cluster.Settled service call answer) :
    cluster.Foreseen service call (GlobalExceptionHandler.respond .written answer) := by
  rcases settled with ⟨clock, safe, rfl⟩ | ⟨raised, rfl, foreseen⟩
  · exact .done _ (fun _ member => ⟨clock, safe, List.mem_singleton.mp member⟩)
  · exact foreseen

theorem foreseen_readAnswer {result : GetResult} (concluded : Coordinator.Concluded result) :
    cluster.Foreseen service call (respond .value (readAnswer call.key result)) := by
  obtain ⟨status, values, reason⟩ := result
  cases status with
  | ok =>
    obtain ⟨version, same, -⟩ := concluded.single rfl
    obtain rfl : values = [version] := same
    exact .done _ (fun text member =>
      ⟨version.clock, concluded.safe version List.mem_cons_self, List.mem_singleton.mp member⟩)
  | siblings => exact .conflict _ (by simpa using concluded.several rfl) (stamped_shown concluded.safe)
  | notFound => exact .missing
  | error =>
    simp only [readAnswer, refusal_known (concluded.refused rfl).2]
    exact .quorum

/-- A delete that succeeded is recorded, or the database failed. -/
theorem finished {σ : Type} (service : KvService σ) (row : AuditLogEntity) (stamp : Option Utf16) :
    (service.finishDelete row (.ok stamp)).1 = .ok stamp ∨
      ((service.finishDelete row (.ok stamp)).1 = .error .dataAccess ∧ service.nextCall ≠ .done) := by
  rw [finishDelete, record]
  cases service.nextCall with
  | done => exact .inl rfl
  | failed => exact .inr ⟨rfl, fun same => by cases same⟩
  | unconfirmed => exact .inr ⟨rfl, fun same => by cases same⟩

theorem Serves.foreseen {after : KvService (Direct τ)} {response : HttpResponse}
    (serves : cluster.Serves service call response after) : cluster.Foreseen service call response := by
  cases serves with
  | rejected invalid =>
    obtain ⟨message, same⟩ := validate_raised invalid
    exact .rejected message invalid same
  | unconfigured valid down => exact .unconfigured down
  | put valid up done =>
    exact Settled.respond (settled_write (yields_put (context_wireSafe _)) done (fun long => long))
  | get valid up done =>
    rcases done.result with ⟨id, hop, state, rfl⟩ | rfl | ⟨rfl, long⟩
    · exact foreseen_readAnswer (cluster.get_concluded _ _ _ _ _)
    · exact .unavailable
    · exact .overlong long
  | delete valid up read done ended =>
    rename_i principal found result middle after answer
    have settled : cluster.Settled service (.delete _ _ _ _ principal) _ :=
      settled_write (yields_delete (context_wireSafe _)) done (fun long => long)
    generalize result.bind writeAnswer = written at settled ended
    cases written with
    | error raised =>
      cases ended
      exact settled.respond
    | ok stamp =>
      have same := congrArg Prod.fst ended
      rcases finished { service.queried with cluster := after }
        ⟨actor principal, text "DELETE", _, found.toOption.bind earlier, none⟩ stamp with fine | ⟨failed, down⟩
      · rw [← show _ = answer from fine.symm.trans same]
        exact settled.respond
      · rw [← show _ = answer from failed.symm.trans same]
        exact .unrecorded rfl down

/-- A write of the text that descends from the clock, unless the configuration cannot be read. -/
def PutAfter (cluster : Deployment τ) (clock : VectorClock) (service : KvService (Direct τ)) (key text : Utf16)
    (n w : Option Int32) (response : HttpResponse) (after : KvService (Direct τ)) : Prop :=
  (service.nextCall ≠ .done ∧ response = handle .dataAccess ∧ after = service.queried) ∨
    (service.nextCall = .done ∧ ∃ result direct,
      cluster.Put service.cluster key (utf8 text) clock (orDefault n service.quorum.n) (orDefault w service.quorum.w)
        result direct ∧
      response = respond .written (result.bind writeAnswer) ∧ after = { service.queried with cluster := direct })

end Deployment

/-! ### The coordinators themselves -/

/-- Coordinators on one exact ring of valid ids, over any state that has the storage of each, what the
replicas will answer it, the time, and what becomes of it all when one has run. -/
structure Environment (τ : Type) where
  router : Router
  coordinators : Bytes → Coordinator
  cfg : Bytes → QuorumConfig
  storage : τ → Bytes → Storage
  replies : τ → Bytes → Replies
  now : τ → UInt64
  advance : τ → Bytes → Storage → List Outgoing → τ
  nodeAt : Endpoint → Option Bytes
  seeds : List Utf16
  maxConnections : Int
  named : ∀ id, (coordinators id).self.nodeId = id
  agreed : ∀ id, (coordinators id).router = router
  configured : ∃ endpoints, seedEndpoints seeds = some endpoints ∧ ∀ endpoint ∈ endpoints, Dialable endpoint.port
  exact : router.Exact
  valid : ∀ id, router.Contains id → isValidNodeId id = true
  safe : ∀ state id, SafeReplies (replies state id)

namespace Environment

variable {τ Result : Type} {results : Result → Prop} (environment : Environment τ)

theorem routed (key : Bytes) (n : Int) (id : Bytes) :
    (environment.coordinators id).router.findOwners key n ≠ none := by
  rw [environment.agreed, environment.exact.findOwners_eq]
  exact Option.some_ne_none _

/-- One program run at a node. -/
def execute (id : Bytes) (program : NodeProgram Result) (returns : program.Returns SafeReplies results) (state : τ) :
    Result × τ :=
  let replies := environment.replies state id
  let storage := environment.storage state id
  ((program.exec replies storage).1.get (Option.isSome_iff_exists.mpr
      ((returns.exec (environment.safe state id) storage).imp (fun _ returned => returned.1))),
    environment.advance state id (program.exec replies storage).2 (program.sent replies storage))

variable {environment}

theorem execute_result {id : Bytes} {program : NodeProgram Result} (returns : program.Returns SafeReplies results)
    (state : τ) : results (environment.execute id program returns state).1 := by
  obtain ⟨result, returned, fine⟩ := returns.exec (environment.safe state id) (environment.storage state id)
  simpa only [execute, returned, Option.get_some] using fine

theorem written_bump {id : Bytes} {clock : VectorClock} {now : UInt64} {result : PutResult}
    (contained : environment.router.Contains id) (safe : clock.WireSafe)
    (written : Coordinator.Written ((environment.coordinators id).Bumped clock now) result) :
    Coordinator.Written VectorClock.WireSafe result := by
  refine ⟨fun fine => ?_, written.refused⟩
  obtain ⟨copy, same⟩ := written.fine fine
  rw [same]
  apply Coordinator.bump_wireSafe _ safe
  rw [environment.named]
  exact environment.valid id contained

variable (environment)

/-- The cluster of these coordinators. -/
def deployment : Deployment τ where
  router := environment.router
  nodes id := ⟨(environment.coordinators id).self, environment.router, environment.cfg id⟩
  nodeAt := environment.nodeAt
  seeds := environment.seeds
  maxConnections := environment.maxConnections
  coordinatePut id key value clock n w state :=
    environment.execute id ((environment.coordinators id).coordinatePut key value clock n w (environment.now state))
      (Coordinator.returns_coordinatePut (environment.routed key n id)) state
  coordinateDelete id key clock n w state :=
    environment.execute id ((environment.coordinators id).coordinateDelete key clock n w (environment.now state))
      (Coordinator.returns_coordinateDelete (environment.routed key n id)) state
  coordinateGet id key n r state :=
    environment.execute id ((environment.coordinators id).coordinateGet key n r)
      (Coordinator.returns_coordinateGet (environment.routed key n id)) state
  named := environment.named
  agreed _ := rfl
  configured := environment.configured
  routed key := by
    rw [environment.exact.findOwners_eq]
    exact Option.some_ne_none _
  put_written _ _ _ _ _ _ state contained safe := written_bump contained safe (execute_result _ state)
  delete_written _ _ _ _ _ state contained safe := written_bump contained safe (execute_result _ state)
  get_concluded _ _ _ _ state := execute_result _ state

end Environment

section Solo

theorem exact_lone : loneNode.router.Exact ∧ ∀ id, loneNode.router.Contains id → id = ascii "a" := by
  have free : Router.CollisionFree 1 [ascii "a"] := by decide +kernel
  obtain ⟨exact, -, only⟩ : (Router.after 1 [.add loneNode.self]).Exact ∧
      (Router.after 1 [.add loneNode.self]).virtualNodes = 1 ∧
      ∀ id, (Router.after 1 [.add loneNode.self]).Contains id → id ∈ [ascii "a"] :=
    Router.exact_after free (List.Subset.refl _)
  exact ⟨exact, fun id contained => List.mem_singleton.mp (only id contained)⟩

/-- One node on its ring, the storage and the clock on its wall. -/
def solo : Environment (Storage × UInt64) where
  router := loneNode.router
  coordinators id := { loneNode with self := ⟨id, ascii "h", 1⟩ }
  cfg _ := ⟨1, 1, 1⟩
  storage state _ := state.1
  replies _ _ := []
  now state := state.2
  advance state _ storage _ := (storage, state.2 + 1)
  nodeAt _ := some (ascii "a")
  seeds := [text "h:1"]
  maxConnections := 4
  named _ := rfl
  agreed _ := rfl
  configured := ⟨[⟨text "h", 1⟩], rfl, by simp [Dialable]⟩
  exact := exact_lone.1
  valid id contained := by
    rw [exact_lone.2 id contained]
    decide
  safe _ _ := nofun

/-- A first write of `k` at seven on the clock. -/
def firstWrite : RestCall := .put (text "k") ⟨some (text "v"), none⟩ (some 1) (some 1) none

/-- A passage that carries everything, and one that loses the reply. -/
def clear : Passage := ⟨[], [], 1000, [], [], 1000, .relayed⟩

def mute : Passage := { clear with returning := 0 }

/-- The gateway before the first call, with connects that succeed. -/
def opening (passages : List Passage) : KvService (Site (Storage × UInt64)) :=
  ⟨⟨[], .start [some ⟨[], [], [], []⟩, some ⟨[], [], [], []⟩], passages, (∅, 7)⟩, none, [], []⟩

example : (KvController.run solo.deployment.exchangeForKey (opening [clear, clear])
    [firstWrite, .get (text "k") (some 1) (some 1)]).1 =
      [⟨200, .written (some (text "a:1:7"))⟩, ⟨200, .value ⟨text "v", text "a:1:7"⟩⟩] := by
  decide +kernel

/-- The reply to the second write is lost, so it is sent again, and the node coordinates three. -/
example : (KvController.run solo.deployment.exchangeForKey (opening [clear, mute, clear]) [firstWrite, firstWrite]).1 =
    [⟨200, .written (some (text "a:1:7"))⟩, ⟨200, .written (some (text "a:3:9"))⟩] := by
  decide +kernel

end Solo

/-- Every clock token that a client sees in a run is that of a clock, and a later write with the token,
whatever happened in between and however often it is sent, descends from exactly this clock, if its ids are text. -/
theorem tokens_come_back {τ : Type} (cluster : Deployment τ) (service : KvService (Site τ)) (calls : List RestCall)
    (response : HttpResponse) (seen : response ∈ (KvController.run cluster.exchangeForKey service calls).1)
    (text : Utf16) (held : text ∈ response.body.tokens) :
    ∃ clock : VectorClock, text = token clock ∧ (ValidUtf8 clock.serialize →
      ∀ (later : KvService (Site τ)) (key value : Utf16) (n w r : Option Int32), key ≠ [] → bar ∉ key →
        cluster.PutAfter clock later.direct key value n w
          (KvController.serve cluster.exchangeForKey later (.put key ⟨some value, some text⟩ n w r)).1
          (KvController.serve cluster.exchangeForKey later (.put key ⟨some value, some text⟩ n w r)).2.direct) := by
  rw [responses_eq_history] at seen
  obtain ⟨served, member, rfl⟩ := List.mem_map.mp seen
  have stamped : ∀ served ∈ KvController.history cluster.exchangeForKey service calls, Stamped served.response.body :=
    served_of_each _ (fun service call => (Deployment.serve_direct service call).foreseen.stamped) service calls
  obtain ⟨clock, safe, rfl⟩ := stamped served member text held
  refine ⟨clock, rfl, fun valid later key value n w r some clean => ?_⟩
  have sent : utf8 (nz (Option.some (token clock))) = clock.serialize := valid.utf8_ofUtf8
  have accepted : validate (.put key ⟨Option.some value, Option.some (token clock)⟩ n w r) = .ok () := by
    simp only [validate, validateKey, some, clean, ↓reduceIte]
  have served := @Deployment.serve_direct τ cluster later
    (.put key ⟨Option.some value, Option.some (token clock)⟩ n w r)
  generalize KvController.serve cluster.exchangeForKey later _ = result at served
  obtain ⟨response, after⟩ := result
  generalize after.direct = last at served
  cases served with
  | rejected invalid => cases accepted.symm.trans invalid
  | unconfigured valid down => exact .inl ⟨down, rfl, rfl⟩
  | put valid up done =>
    rw [context_token safe sent] at done
    exact .inr ⟨up, _, _, done, rfl, rfl⟩

/-- A client writes `k` again with the token of its first write. -/
theorem tokens_come_back_firstWrite :
    ∃ clock : VectorClock, clock.serialize = ascii "a:1:7" ∧
      ∀ (later : KvService (Site (Storage × UInt64))) (value : Utf16) (n w r : Option Int32),
        solo.deployment.PutAfter clock later.direct (text "k") value n w
          (KvController.serve solo.deployment.exchangeForKey later
            (.put (text "k") ⟨some value, some (text "a:1:7")⟩ n w r)).1
          (KvController.serve solo.deployment.exchangeForKey later
            (.put (text "k") ⟨some value, some (text "a:1:7")⟩ n w r)).2.direct := by
  have seen : (⟨200, .written (some (text "a:1:7"))⟩ : HttpResponse) ∈
      (KvController.run solo.deployment.exchangeForKey (opening [clear]) [firstWrite]).1 := by
    decide +kernel
  obtain ⟨clock, same, descends⟩ := tokens_come_back solo.deployment (opening [clear]) [firstWrite] _ seen
    (text "a:1:7") List.mem_cons_self
  have sent : clock.serialize = ascii "a:1:7" := eq_of_ofUtf8_eq_widen (by simp [ascii]) same.symm
  have valid : ValidUtf8 clock.serialize := by
    rw [sent]
    decide +kernel
  exact ⟨clock, sent, fun later value n w r => descends valid later _ value n w r (by decide) (by decide)⟩

end MiniDynamo.Gateway
