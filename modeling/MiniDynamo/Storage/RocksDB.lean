import MiniDynamo.Net.Wire

/-! The storage engine over RocksDB. A call of the database may fail, and then leaves it as it was.
The engine takes a failed write for one that was made, and a failed read for an absent key. -/

namespace MiniDynamo

/-- As much of `rocksdb::Status` as there is to see. -/
inductive RocksDB.Status where
  | ok
  | notFound
  | failed
  deriving DecidableEq

/-- The contents of a database, and which of the next calls fail. All after those succeed. -/
structure RocksDB where
  contents : Storage
  faults : List Bool

namespace RocksDB

/-- The next call fails. -/
def fails (db : RocksDB) : Bool := db.faults.headD false

/-- The database once a call was made that changed nothing. -/
def called (db : RocksDB) : RocksDB := { db with faults := db.faults.tail }

/-- `DB::Put`. -/
def put (db : RocksDB) (key value : Bytes) : Status × RocksDB :=
  if db.fails then (.failed, db.called)
  else (.ok, { db.called with contents := db.contents.insert key value })

/-- `DB::Get`, with the value it fills in. -/
def get (db : RocksDB) (key : Bytes) : Status × Bytes × RocksDB :=
  if db.fails then (.failed, [], db.called)
  else
    match db.contents[key]? with
    | some value => (.ok, value, db.called)
    | none => (.notFound, [], db.called)

end RocksDB

namespace RocksDBStorageEngine

variable {Result : Type}

/-- The status is dropped. -/
def put (db : RocksDB) (key value : Bytes) : RocksDB := (db.put key value).2

def get (db : RocksDB) (key : Bytes) : Option Bytes × RocksDB :=
  match db.get key with
  | (.ok, value, after) => (some value, after)
  | (_, _, after) => (none, after)

/-- A program that runs alone on the engine. -/
def exec (program : StorageProgram Unit Empty Result) (db : RocksDB) : Option Result × RocksDB :=
  program.runOn get put () db

theorem get_eq (db : RocksDB) (key : Bytes) :
    get db key = (if db.fails then none else db.contents[key]?, db.called) := by
  rw [get, RocksDB.get]
  cases db.fails with
  | true => rfl
  | false => cases db.contents[key]? <;> rfl

theorem put_eq (db : RocksDB) (key value : Bytes) :
    put db key value =
      if db.fails then db.called else { db.called with contents := db.contents.insert key value } := by
  rw [put, RocksDB.put]
  split <;> rfl

theorem exec_replicateThen (answer : Bool → Result) (key : Bytes) (incoming : VersionedValue) (db : RocksDB) :
    exec (ReplicaOps.replicateThen answer key incoming) db =
      let kept := ReplicaOps.localDominates (if db.fails then none else db.contents[key]?) incoming
      (some (answer !kept), if kept then db.called else put db.called key incoming.serialize) := by
  rw [exec, ReplicaOps.replicateThen, Process.runOn, get_eq]
  dsimp only
  cases ReplicaOps.localDominates (if db.fails then none else db.contents[key]?) incoming <;> rfl

/-- No call of the database is going to fail. -/
def Faultless (db : RocksDB) : Prop := ∀ fault ∈ db.faults, fault = false

theorem Faultless.fails {db : RocksDB} (faultless : Faultless db) : db.fails = false := by
  rw [RocksDB.fails]
  cases shape : db.faults with
  | nil => rfl
  | cons fault rest => exact faultless fault (shape ▸ List.mem_cons_self)

theorem Faultless.called {db : RocksDB} (faultless : Faultless db) : Faultless db.called :=
  fun fault member => faultless fault (List.mem_of_mem_tail member)

/-- Without faults the engine is the storage the rest of the node is modelled over. -/
theorem Faultless.exec {db : RocksDB} (faultless : Faultless db) (program : StorageProgram Unit Empty Result) :
    (exec program db).1 = (program.exec () db.contents).1 ∧
      (RocksDBStorageEngine.exec program db).2.contents = (program.exec () db.contents).2 ∧
      Faultless (RocksDBStorageEngine.exec program db).2 := by
  refine Process.runOn_eq_exec (fun key fine => ?_) (fun key value fine => ?_) program () faultless
  · rw [get_eq, fine.fails]
    exact ⟨rfl, rfl, fine.called⟩
  · rw [put_eq, fine.fails]
    exact ⟨rfl, fine.called⟩

end RocksDBStorageEngine

/-! ### What an acknowledgement stands for -/

/-- A `REPLICATE` payload handled by a node, with the database before and after and the reply. -/
structure ReplicateCall where
  before : RocksDB
  payload : Bytes
  reply : Option Bytes
  after : RocksDB

namespace ReplicateCall

open RocksDBStorageEngine ReplicaOps

def handle (db : RocksDB) (payload : Bytes) : ReplicateCall :=
  let handled := exec (Wire.handleReplicate (Wire.splitAll payload)) db
  ⟨db, payload, handled.1, handled.2⟩

/-- The calls for some payloads, one after the other. -/
def handleAll : RocksDB → List Bytes → List ReplicateCall
  | _, [] => []
  | db, payload :: rest => handle db payload :: handleAll (handle db payload).after rest

variable (call : ReplicateCall)

def key : Bytes := Wire.field (Wire.splitAll call.payload) 1

def incoming : VersionedValue :=
  ⟨Base64.decode (Wire.field (Wire.splitAll call.payload) 2),
    VectorClock.parse (Wire.field (Wire.splitAll call.payload) 4), false⟩

/-- The copy is not older than the version that came in. -/
def Current (copy : Bytes) : Prop := ¬ (VersionedValue.deserialize copy).clock < call.incoming.clock

/-- The copy is strictly newer than the version that came in. -/
def Newer (copy : Bytes) : Prop := call.incoming.clock < (VersionedValue.deserialize copy).clock

/-- An acknowledged version, or one not older, is in the database, and a newer one is not overwritten. -/
structure Durable : Prop where
  held : call.reply = some (ascii "RESPONSE|OK") →
    ∃ copy, call.after.contents[call.key]? = some copy ∧ call.Current copy
  kept : ∀ copy, call.before.contents[call.key]? = some copy → call.Newer copy →
    call.after.contents[call.key]? = some copy

/-- Where the write fails the copy that is there will do, and where only the read fails it is not
one that had to stay. -/
structure Spared : Prop where
  write : call.before.called.fails = true →
    ∃ copy, call.before.contents[call.key]? = some copy ∧ call.Current copy
  read : call.before.fails = true → call.before.called.fails = false →
    ∀ copy, call.before.contents[call.key]? = some copy → ¬ call.Newer copy

section Handle

variable {call} {db : RocksDB} {payload : Bytes}

/-- The copy that `handleReplicate` compares with is the one it could read. -/
theorem handle_eq (handled : handle db payload = call) :
    call.before = db ∧ call.reply = some (ascii "RESPONSE|OK") ∧
      call.after = if localDominates (if db.fails then none else db.contents[call.key]?) call.incoming then db.called
        else put db.called call.key call.incoming.serialize := by
  subst handled
  have program : (Wire.handleReplicate (Wire.splitAll payload) : StorageProgram Unit Empty Bytes) =
      replicateThen (fun _ => ascii "RESPONSE|OK") (handle db payload).key (handle db payload).incoming :=
    applyReplicate_bind _ _ _
  have run := exec_replicateThen (fun _ => ascii "RESPONSE|OK") (handle db payload).key (handle db payload).incoming db
  rw [← program] at run
  exact ⟨rfl, congrArg Prod.fst run, congrArg Prod.snd run⟩

/-- What a call stores is read back as it came in. -/
theorem deserialize_incoming (call : ReplicateCall) :
    VersionedValue.deserialize call.incoming.serialize = call.incoming := by
  refine VersionedValue.deserialize_serialize (VectorClock.parse_wireSafe ?_)
  rw [Wire.field, List.getD_eq_getElem?_getD]
  cases found : (Wire.splitAll call.payload)[4]? with
  | none => exact List.not_mem_nil
  | some piece => exact (Bytes.mem_splitOn (List.mem_of_getElem? found)).1

theorem current_of_newer {copy : Bytes} (newer : call.Newer copy) : call.Current copy := not_lt_of_gt newer

theorem current_incoming (call : ReplicateCall) : call.Current call.incoming.serialize := by
  rw [Current, deserialize_incoming]
  exact lt_irrefl _

theorem not_newer_incoming (call : ReplicateCall) : ¬ call.Newer call.incoming.serialize := by
  rw [Newer, deserialize_incoming]
  exact lt_irrefl _

/-- A call that leaves the database as it was. -/
theorem durable_of_unchanged (acknowledged : call.reply = some (ascii "RESPONSE|OK"))
    (same : call.after.contents = call.before.contents) :
    call.Durable ↔ ∃ copy, call.before.contents[call.key]? = some copy ∧ call.Current copy := by
  constructor
  · intro durable
    rw [← same]
    exact durable.held acknowledged
  · intro current
    exact ⟨fun _ => same ▸ current, fun copy found _ => same ▸ found⟩

/-- A call that stores the version that came in. -/
theorem durable_of_stored
    (stored : call.after.contents = call.before.contents.insert call.key call.incoming.serialize) :
    call.Durable ↔ ∀ copy, call.before.contents[call.key]? = some copy → ¬ call.Newer copy := by
  have now : call.after.contents[call.key]? = some call.incoming.serialize := by
    rw [stored, OrderedMap.lookup_insert, if_pos rfl]
  constructor
  · intro durable copy found newer
    obtain rfl := Option.some.inj (now.symm.trans (durable.kept copy found newer))
    exact not_newer_incoming call newer
  · intro harmless
    exact ⟨fun _ => ⟨_, now, current_incoming call⟩, fun copy found newer => absurd newer (harmless copy found)⟩

/-- One call: which copy could be read, whether the version was to be stored, and whether it was. -/
theorem durable_iff_spared (db : RocksDB) (payload : Bytes) :
    (handle db payload).Durable ↔ (handle db payload).Spared := by
  generalize handled : handle db payload = call
  obtain ⟨rfl, acknowledged, after⟩ := handle_eq handled
  by_cases kept : localDominates (if call.before.fails then none else call.before.contents[call.key]?) call.incoming
  · rw [if_pos kept] at after
    obtain ⟨copy, found, newer⟩ := localDominates_iff.mp kept
    obtain ⟨healthy, stored⟩ : call.before.fails = false ∧ call.before.contents[call.key]? = some copy := by
      split at found
      · cases found
      · exact ⟨by simpa using ‹¬ call.before.fails = true›, found⟩
    have current : ∃ copy, call.before.contents[call.key]? = some copy ∧ call.Current copy :=
      ⟨copy, stored, current_of_newer newer⟩
    rw [durable_of_unchanged acknowledged (by rw [after]; rfl)]
    exact ⟨fun _ => ⟨fun _ => current, fun failed => absurd (healthy.symm.trans failed) Bool.false_ne_true⟩,
      fun _ => current⟩
  · rw [if_neg kept, put_eq] at after
    cases lost : call.before.called.fails with
    | true =>
      rw [lost, if_pos rfl] at after
      rw [durable_of_unchanged acknowledged (by rw [after]; rfl)]
      refine ⟨fun current => ⟨fun _ => current, fun _ written => ?_⟩, fun spared => spared.write lost⟩
      exact absurd (written.symm.trans lost) Bool.false_ne_true
    | false =>
      rw [lost, if_neg Bool.false_ne_true] at after
      rw [durable_of_stored (by rw [after]; rfl)]
      refine ⟨fun harmless => ⟨fun failed => ?_, fun _ _ => harmless⟩, fun spared copy found newer => ?_⟩
      · exact absurd (lost.symm.trans failed) Bool.false_ne_true
      · cases blind : call.before.fails with
        | true => exact spared.read blind lost copy found newer
        | false =>
          rw [blind, if_neg Bool.false_ne_true] at kept
          exact kept (localDominates_iff.mpr ⟨copy, found, newer⟩)

theorem spared_of_faultless (faultless : Faultless db) (payload : Bytes) : (handle db payload).Spared where
  write := fun failed => absurd (faultless.called.fails.symm.trans failed) Bool.false_ne_true
  read := fun failed => absurd (faultless.fails.symm.trans failed) Bool.false_ne_true

/-- Without faults every acknowledgement is good. -/
theorem durable_of_faultless (faultless : Faultless db) (payloads : List Bytes) :
    ∀ call ∈ handleAll db payloads, call.Durable := by
  induction payloads generalizing db with
  | nil => simp [handleAll]
  | cons payload rest ih =>
    have first := (durable_iff_spared db payload).mpr (spared_of_faultless faultless payload)
    exact List.forall_mem_cons.mpr ⟨first, ih (faultless.exec _).2.2⟩

end Handle

end ReplicateCall

open ReplicateCall

/-- Whatever calls of the database fail while a node handles `REPLICATE` payloads, every
acknowledgement stands for a copy that is not older and no newer copy is overwritten exactly if
every call is spared by the faults it meets. -/
theorem acknowledged_durable_iff (db : RocksDB) (payloads : List Bytes) :
    (∀ call ∈ handleAll db payloads, call.Durable) ↔ ∀ call ∈ handleAll db payloads, call.Spared := by
  induction payloads generalizing db with
  | nil => simp [handleAll]
  | cons payload rest ih =>
    rw [handleAll, List.forall_mem_cons, List.forall_mem_cons, durable_iff_spared, ih]

/-- A node that acknowledges a version it did not store, and one that overwrites a newer copy it
could not read. -/
theorem acknowledged_write_lost :
    ¬ (∀ call ∈ handleAll ⟨∅, [false, true]⟩ [ascii "REPLICATE|k|dg==|a|n:1:0"], call.Durable) ∧
      ¬ ∀ call ∈ handleAll ⟨(∅ : Storage).insert (ascii "k") (ascii "dw==|n:2:0"), [true]⟩
        [ascii "REPLICATE|k|dg==|a|n:1:0"], call.Durable := by
  constructor
  · intro durable
    have spared := (durable_iff_spared _ _).mp (durable _ List.mem_cons_self)
    obtain ⟨copy, found, -⟩ := spared.write rfl
    have empty : (∅ : Storage)[ascii "k"]? = none := by decide +kernel
    cases empty.symm.trans found
  · intro durable
    have spared := (durable_iff_spared _ _).mp (durable _ List.mem_cons_self)
    refine spared.read rfl rfl (ascii "dw==|n:2:0") (by decide +kernel) ?_
    exact VectorClock.compare_aDominates_iff.mp (by decide +kernel)

end MiniDynamo
