import SyncForge.Effect.Prog
import SyncForge.Store.Database
import SyncForge.Simulator.Server

/-!
# `World` — everything a call can touch, and what each call does

`World` is the state behind the calls of the components, and `handle` answers one call. Tapes, indexed by the
number of calls made so far, say which calls fail (and which of several matching rows a query returns), so a
statement about every world is about every pattern of failures. A call that fails changes nothing but the call
count.
-/

namespace SyncForge

open Effect

structure Endpoint where
  provider : String
  baseURL : String
deriving DecidableEq, Repr

inductive Call where
  | store (o : StoreOp)
  | create (ep : Endpoint) (data : Data)
  | update (ep : Endpoint) (id : String) (data : Data)
  | delete (ep : Endpoint) (id : String)
  | random
  | list (ep : Endpoint) (cursor : String) (limit : Int)
  | health (ep : Endpoint)
  | publish (key : String) (value : Bytes)
  | timeNow

structure Page where
  records : List ProviderRecord
  nextCursor : String
  hasMore : Bool

@[reducible] def Call.Res : Call → Type
  | .store o => o.Res
  | .create _ _ => ProviderRecord
  | .update _ _ _ => ProviderRecord
  | .delete _ _ => Unit
  | .random => Nat
  | .list _ _ _ => Page
  | .health _ => Int
  | .publish _ _ => Unit
  | .timeNow => Time

@[reducible] def sig : Sig := ⟨Call, Call.Res⟩

abbrev Sync := Prog sig GoError

/-- `Options` of the worker and of the retry engine. -/
structure Options where
  retryBaseDelay : Duration := 1000000000
  retryMaxDelay : Duration := 60000000000
  retryMaxAttempts : Int := 8
deriving DecidableEq, Repr

/-- What stays fixed while the system runs: the provider registry, the fingerprint hash, the webhook id
    generator (`uuid.NewString`, never the same twice) and the options. -/
structure Env where
  registry : String → Option Adapter
  hash : String → String
  uuid : Nat → String
  uuid_injective : Function.Injective uuid
  options : Options := {}

inductive Mutation where
  | create | update | delete
deriving DecidableEq, Repr

structure World where
  db : Database := {}
  sims : Endpoint → SimServer
  now : Time := 0
  /-- Call number `n`, if it is a store statement: fails with this text, or succeeds; an unordered query
      then returns the matching row with this number (modulo their count). -/
  storeTape : Nat → Except String Nat := fun _ => .ok 0
  /-- Call number `n`, if it is a provider request: fails with this error. -/
  providerTape : Nat → Option ConnectorError := fun _ => none
  randomTape : Nat → Nat := fun _ => 0
  /-- Call number `n`, if it is a message to the bus: fails with this text. -/
  busTape : Nat → Option String := fun _ => none
  calls : Nat := 0
  /-- Webhooks emitted and not yet handed to the worker, oldest first. -/
  outbox : List Event := []
  emitted : Nat := 0
  /-- The provider requests that succeeded, in order. -/
  mutations : List (Endpoint × Mutation) := []
  /-- The messages on the topic `sync.events` with their partition keys, in order. -/
  topic : List (String × Bytes) := []

namespace World

def called (w : World) : World := { w with calls := w.calls + 1 }

def published (w : World) (key : String) (value : Bytes) : World :=
  { w.called with topic := w.topic ++ [(key, value)] }

def announce (env : Env) (w : World) (ep : Endpoint) (type : EventType) (r : SimRecord × SimServer) : World :=
  { w with
    sims := Function.update w.sims ep r.2
    outbox := w.outbox ++ [r.2.webhook (env.uuid w.emitted) type r.1]
    emitted := w.emitted + 1 }

def mutated (w : World) (ep : Endpoint) (m : Mutation) : World :=
  { w with mutations := w.mutations ++ [(ep, m)] }

def noSuchRecord : GoError :=
  .newError .notFound "resource not found: \x7b\"error\":\"not found\"\x7d\n"

def request (env : Env) (w : World) (ep : Endpoint) (m : Mutation) (type : EventType) :
    Option (SimRecord × SimServer) → Except GoError SimRecord × World
  | none => (.error noSuchRecord, w.called)
  | some r => (.ok r.1, ((w.called.announce env ep type r).mutated ep m))

/-- `adapter.List`: a record without an id spoils its page. -/
def page (s : SimServer) (cursor : String) (limit : Int) : Except GoError Page :=
  let listed := s.list cursor limit
  if listed.1.any (fun r => r.id = "") then .error (.newError .schema ("record missing " ++ s.spec.idKey))
  else .ok ⟨listed.1.map SimServer.providerRecord, listed.2, listed.2 ≠ ""⟩

def handle (env : Env) : Prog.Handler sig GoError World
  | .store o, w =>
    match w.storeTape w.calls with
    | .error text => (.error (.plain text), w.called)
    | .ok pick => ((Database.exec w.now pick o w.db).1, { w.called with db := (Database.exec w.now pick o w.db).2 })
  | .create ep data, w =>
    match w.providerTape w.calls with
    | some e => (.error (.connector e), w.called)
    | none =>
      let r := w.request env ep .create .created (some ((w.sims ep).insert data))
      (r.1.map SimServer.providerRecord, r.2)
  | .update ep id data, w =>
    match w.providerTape w.calls with
    | some e => (.error (.connector e), w.called)
    | none =>
      let r := w.request env ep .update .updated ((w.sims ep).update id data)
      (r.1.map SimServer.providerRecord, r.2)
  | .delete ep id, w =>
    match w.providerTape w.calls with
    | some e => (.error (.connector e), w.called)
    | none =>
      let r := w.request env ep .delete .deleted ((w.sims ep).softDelete id)
      (r.1.map (fun _ => ()), r.2)
  | .random, w => (.ok (w.randomTape w.calls), w.called)
  | .list ep cursor limit, w =>
    match w.providerTape w.calls with
    | some e => (.error (.connector e), w.called)
    | none => (page (w.sims ep) cursor limit, w.called)
  | .health ep, w =>
    match w.providerTape w.calls with
    | some e => (.error (.connector e), w.called)
    | none => (.ok (w.sims ep).records.rows.length, w.called)
  | .publish key value, w =>
    match w.busTape w.calls with
    | some text => (.error (.plain text), w.called)
    | none => (.ok (), w.published key value)
  | .timeNow, w => (.ok w.now, w.called)

end World

end SyncForge
