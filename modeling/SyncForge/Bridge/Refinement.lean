import SyncForge.Bridge.Model
import SyncForge.Transition.Run
import SyncForge.Worker.Sequential

/-!
# `Bridge.Refinement` — the worker between two providers

A `Link` is one customer linked in two providers with a policy each way. `Shows L w s` is the simulation
relation: the database, the two simulators and the undelivered webhooks of `w`, seen as a state `s` of the
bridge.
-/

namespace SyncForge.Bridge

open Effect Effect.Prog Relational
open Relay (Side)
open Function (update update_of_ne update_self)
open Conflict (normalizeStrategy outcome resolve winnerA winnerB)

/-! ## The setting -/

structure Link (env : Env) where
  tenant : String
  entityType : String
  entityID : String
  name : Side → String
  baseURL : Side → String
  recordID : Side → String
  idKey : Side → String
  adapter : Side → Adapter
  policy : Side → SyncPolicy
  name_ne : name .a ≠ name .b
  registered : ∀ x, env.registry (name x) = some (adapter x)
  entityType_eq : ∀ x, (adapter x).canonicalEntityType = entityType
  recordID_ne : ∀ x, recordID x ≠ ""
  idKey_ne : ∀ x f, (adapter x).native f ≠ idKey x
  destination_eq : ∀ x, (policy x).destination = name x.other
  laterWins : ∀ x, normalizeStrategy (strategyOf [policy x]) = .lastWriteWins ∨
    normalizeStrategy (strategyOf [policy x]) = .fieldMerge

namespace Link

variable {env : Env} (L : Link env)

def endpoint (x : Side) : Endpoint := ⟨L.name x, L.baseURL x⟩

def remote (x : Side) : Remote := ⟨L.adapter x, L.endpoint x⟩

def key : CanonicalKey := ⟨L.tenant, L.entityType, L.entityID⟩

def outboundKey (x : Side) : OutboundKey := ⟨L.tenant, L.entityType, L.entityID, L.name x⟩

def setting : Setting where
  name := L.name
  priority x := (L.policy x).sourcePriority
  hash := env.hash
  name_ne := L.name_ne

theorem name_injective : Function.Injective L.name := L.setting.name_injective

theorem endpoint_injective : Function.Injective L.endpoint := by
  intro x y h
  exact L.name_injective (congrArg Endpoint.provider h)

theorem outboundKey_injective : Function.Injective L.outboundKey := by
  intro x y h
  exact L.name_injective (congrArg OutboundKey.targetSource h)

structure Announces (ev : Event) (n : Note) : Prop where
  tenantID : ev.tenantID = L.tenant
  source : ev.source = L.name n.side
  entityID : ev.entityID = L.recordID n.side
  eventType : ev.eventType ≠ .deleted
  provenance : ev.provenance = {}
  sourceVersion : ev.sourceVersion = n.version
  occurredAt : ev.occurredAt = n.occurredAt
  fields : ∃ data, ev.fields = some data ∧ data.entries ≠ [] ∧
    ∀ f, Adapter.s (data.get ((L.adapter n.side).native f)) = n.values f

structure Records (c : CanonicalRecord) (s : State) : Prop where
  fields : c.fields = fun f => some (.str (s.canonical f))
  fieldProvenance : c.fieldProvenance = s.provenance
  sourceVersions : ∀ x, c.sourceVersions (L.name x) = s.sourceVersion x
  providerIDs : ∀ x, c.providerIDs (L.name x) = some (L.recordID x)

structure Holds (x : Side) (server : SimServer) (held : Held) (clock : Time) : Prop where
  name : server.spec.name = L.name x
  tenantID : server.spec.tenantID = L.tenant
  idKey : server.spec.idKey = L.idKey x
  clock : server.clock = clock
  record : ∃ r, server.records.get? (L.recordID x) = some r ∧ r.version = held.version ∧
    ∀ f, Adapter.s (r.data.get ((L.adapter x).native f)) = held.values f

end Link

structure Fresh (env : Env) (w : World) : Prop where
  unclaimed : ∀ ev ∈ w.outbox, w.db.processed ev.key = false
  nodup : (w.outbox.map Event.eventID).Nodup
  outbox : ∀ i, w.emitted ≤ i → ∀ ev ∈ w.outbox, ev.eventID ≠ env.uuid i
  processed : ∀ i, w.emitted ≤ i → ∀ tenant source, w.db.processed ⟨tenant, source, env.uuid i⟩ = false

/-- **The simulation relation**: the world `w` is the bridge `L` in state `s`, and no call fails. -/
structure Shows {env : Env} (L : Link env) (w : World) (s : State) : Prop where
  fair : w.Fair
  policies : ∀ x, (w.db.policiesOf L.tenant).filter (fun p => p.source = L.name x ∧ p.entity = L.entityType)
    = [L.policy x]
  connections : ∀ x, ∃ secret, w.db.connectionsOf L.tenant (L.name x)
    = [⟨L.tenant, L.name x, L.baseURL x, secret⟩]
  canonical : ∃ c, w.db.canonical.get? L.key = some c ∧ L.Records c s
  linked : ∀ c ∈ w.db.canonical.rows, ∀ x, c.tenantID = L.tenant → c.entityType = L.entityType →
    c.providerIDs (L.name x) = some (L.recordID x) → c.key = L.key
  outbound : ∀ x, (w.db.outbound (L.outboundKey x)).map OutboundWrite.fingerprint = s.lastWritten x
  providers : ∀ x, L.Holds x (w.sims (L.endpoint x)) (s.held x) (s.clock x)
  pending : List.Forall₂ L.Announces w.outbox s.pending
  fresh : Fresh env w
  mutations : w.mutations = s.writes.map (fun x => (L.endpoint x, .update))

variable {env : Env} {L : Link env} {w w' u : World} {s : State} {ev : Event} {n : Note}
  {x : Side} {key : EventKey} {strategy : Conflict.Strategy} {α β : Type} {s' : State}

theorem Shows.of_core (h : Shows L w s) (hu : u.core = w.core) : Shows L u s where
  fair := core_fair hu h.fair
  policies x := by
    rw [Database.policiesOf, core_policies hu]
    exact h.policies x
  connections x := by
    unfold Database.connectionsOf
    rw [core_connections hu]
    exact h.connections x
  canonical := by
    rw [core_canonical hu]
    exact h.canonical
  linked := by
    rw [core_canonical hu]
    exact h.linked
  outbound x := by
    rw [core_outbound hu]
    exact h.outbound x
  providers x := by
    rw [core_sims hu]
    exact h.providers x
  pending := by
    rw [core_outbox hu]
    exact h.pending
  fresh := by
    have ho := core_outbox hu
    have hp := core_processed hu
    have he := core_emitted hu
    constructor
    · rw [ho, hp]; exact h.fresh.unclaimed
    · rw [ho]; exact h.fresh.nodup
    · rw [ho, he]; exact h.fresh.outbox
    · rw [he, hp]; exact h.fresh.processed
  mutations := by
    rw [core_mutations hu]
    exact h.mutations

theorem Shows.reaches (h : Shows L w s) (x : Side) : Reaches env w.db L.tenant (L.name x) (L.remote x) := by
  obtain ⟨secret, hconn⟩ := h.connections x
  exact ⟨_, hconn, L.registered x, rfl⟩

variable {c : CanonicalRecord}

theorem Shows.resolves (h : Shows L w s) (hc : w.db.canonical.get? L.key = some c) (hrec : L.Records c s)
    (x : Side) : w.db.canonicalsWithProvider L.tenant L.entityType (L.name x) (L.recordID x) = [c] := by
  have hkey : c.key = L.key := Table.get?_key hc
  have htenant : c.tenantID = L.tenant := congrArg CanonicalKey.tenantID hkey
  have htype : c.entityType = L.entityType := congrArg CanonicalKey.entityType hkey
  apply Table.filter_eq_singleton hc
  · exact decide_eq_true ⟨htenant, htype, hrec.providerIDs x⟩
  · intro r hr hp
    obtain ⟨h1, h2, h3⟩ := of_decide_eq_true hp
    exact h.linked r hr x h1 h2 h3

/-! ## A provider's record is written -/

/-- The values a record has once `data` is written over it. -/
def writtenValues (a : Adapter) (data old : Data) : Values :=
    fun f => Adapter.s ((data ∪ old).get (a.native f))

theorem writtenValues_denormalize (a : Adapter) (cust : Customer) (old : Data) :
    writtenValues a (a.denormalize cust).data old = cust.get := by
  funext f
  exact Adapter.s_get_denormalize_union cust old f

theorem Link.Holds.update {server : SimServer} {held : Held} {clock : Time}
    (h : L.Holds x server held clock) (data : Data) :
    ∃ old r, (∀ f, Adapter.s (old.get ((L.adapter x).native f)) = held.values f) ∧
      server.update (L.recordID x) data = some r ∧ r.1.data = data ∪ old ∧
      L.Holds x r.2 ⟨held.version + 1, writtenValues (L.adapter x) data old⟩ clock ∧
      ∀ id, L.Announces (r.2.webhook id .updated r.1)
        ⟨x, held.version + 1, clock, writtenValues (L.adapter x) data old⟩ := by
  obtain ⟨rec_, hget, hversion, hvalues⟩ := h.record
  have hid : rec_.id = L.recordID x := Table.get?_key hget
  have hne : rec_.id ≠ "" := by
    rw [hid]
    exact L.recordID_ne x
  let new : SimRecord :=
    { rec_ with version := rec_.version + 1, updatedAt := server.clock, data := data ∪ rec_.data }
  have hnew : (server.records.upsert new).get? (L.recordID x) = some new := by
    rw [← hid]
    exact Table.get?_upsert_self
  refine ⟨rec_.data, (new, { server with records := server.records.upsert new }), hvalues,
    by rw [SimServer.update, hget], rfl, ?_, ?_⟩
  · exact ⟨h.name, h.tenantID, h.idKey, h.clock, new, hnew, congrArg (· + 1) hversion, fun f => rfl⟩
  · intro id
    refine ⟨h.tenantID, h.name, hid, by simp [SimServer.webhook], rfl, congrArg (· + 1) hversion, h.clock, ?_⟩
    refine ⟨_, congrArg some (if_pos hne), List.cons_ne_nil _ _, fun f => ?_⟩
    -- the id key is no field of the customer
    rw [Data.get_insert_ne]
    · rfl
    · show (L.adapter x).native f ≠ server.spec.idKey
      rw [h.idKey]
      exact L.idKey_ne x f

theorem Fresh.announce (h : Fresh env w) (ep : Endpoint) (type : EventType) (r : SimRecord × SimServer) :
    Fresh env (w.announce env ep type r) := by
  have hid : (r.2.webhook (env.uuid w.emitted) type r.1).eventID = env.uuid w.emitted := rfl
  constructor
  · intro ev hev
    rcases List.mem_append.mp hev with hev | hev
    · exact h.unclaimed ev hev
    · rw [List.mem_singleton.mp hev]
      exact h.processed w.emitted le_rfl _ _
  · show ((w.outbox ++ [_]).map Event.eventID).Nodup
    rw [List.map_append, List.nodup_append]
    refine ⟨h.nodup, List.nodup_singleton _, ?_⟩
    rintro a ha b hb rfl
    obtain ⟨ev, hev, rfl⟩ := List.mem_map.mp ha
    rw [List.map_singleton, List.mem_singleton, hid] at hb
    exact h.outbox w.emitted le_rfl ev hev hb
  · intro i hi ev hev
    have hi' : w.emitted + 1 ≤ i := hi
    rcases List.mem_append.mp hev with hev | hev
    · exact h.outbox i (by omega) ev hev
    · rw [List.mem_singleton.mp hev, hid]
      intro heq
      have := env.uuid_injective heq
      omega
  · intro i hi tenant source
    have hi' : w.emitted + 1 ≤ i := hi
    exact h.processed i (by omega) tenant source

theorem Shows.write (h : Shows L w s) {v : Values} {r : SimRecord × SimServer}
    (hholds : L.Holds x r.2 ⟨(s.held x).version + 1, v⟩ (s.clock x))
    (hnote : ∀ id, L.Announces (r.2.webhook id .updated r.1) ⟨x, (s.held x).version + 1, s.clock x, v⟩) :
    Shows L (w.announce env (L.endpoint x) .updated r) (s.write x v) where
  fair := ⟨h.fair.store, h.fair.provider⟩
  policies := h.policies
  connections := h.connections
  canonical := by
    obtain ⟨c, hc, hrec⟩ := h.canonical
    exact ⟨c, hc, hrec.fields, hrec.fieldProvenance, hrec.sourceVersions, hrec.providerIDs⟩
  linked := h.linked
  outbound := h.outbound
  providers y := by
    show L.Holds y (update w.sims (L.endpoint x) r.2 (L.endpoint y)) (update s.held x _ y) _
    by_cases hxy : y = x
    · subst hxy
      rwa [update_self, update_self]
    · rw [update_of_ne (fun he => hxy (L.endpoint_injective he)), update_of_ne hxy]
      exact h.providers y
  pending := List.rel_append h.pending (List.Forall₂.cons (hnote _) .nil)
  fresh := h.fresh.announce _ _ _
  mutations := h.mutations

/-! ## The claim and the persisted state -/

theorem Fresh.setClaim (h : Fresh env w) (b : Bool)
    (hout : ∀ ev ∈ w.outbox, ev.key ≠ key) (hnew : ∀ i, w.emitted ≤ i → env.uuid i ≠ key.eventID) :
    Fresh env { w with db := { w.db with processed := update w.db.processed key b } } := by
  constructor
  · intro ev hev
    show update w.db.processed key b ev.key = false
    rw [update_of_ne (hout ev hev)]
    exact h.unclaimed ev hev
  · exact h.nodup
  · exact h.outbox
  · intro i hi tenant source
    show update w.db.processed key b _ = false
    rw [update_of_ne]
    · exact h.processed i hi tenant source
    · intro heq
      exact hnew i hi (congrArg EventKey.eventID heq)

theorem Shows.setClaim (h : Shows L w s) (b : Bool)
    (hout : ∀ ev ∈ w.outbox, ev.key ≠ key) (hnew : ∀ i, w.emitted ≤ i → env.uuid i ≠ key.eventID) :
    Shows L { w with db := { w.db with processed := update w.db.processed key b } } s where
  fair := ⟨h.fair.store, h.fair.provider⟩
  policies := h.policies
  connections := h.connections
  canonical := h.canonical
  linked := h.linked
  outbound := h.outbound
  providers := h.providers
  pending := h.pending
  fresh := h.fresh.setClaim b hout hnew
  mutations := h.mutations

theorem Shows.persist (h : Shows L w s) {t : State} {y : Side} {o : OutboundWrite}
    (hkey : c.key = L.key) (hrec : L.Records c t) (ho : o.key = L.outboundKey y)
    (hlast : t.lastWritten = update s.lastWritten y (some o.fingerprint))
    (hheld : t.held = s.held) (hclock : t.clock = s.clock) (hpending : t.pending = s.pending)
    (hwrites : t.writes = s.writes ++ [y]) (ops : List SyncOperation) :
    Shows L ((w.mutated (L.endpoint y) .update).persisted c [o] ops) t where
  fair := ⟨h.fair.store, h.fair.provider⟩
  policies := h.policies
  connections := h.connections
  canonical := by
    refine ⟨c, ?_, hrec⟩
    rw [← hkey]
    exact Table.get?_upsert_self
  linked := by
    intro r hr x h1 h2 h3
    rcases Table.mem_upsert.mp hr with rfl | ⟨hr, _⟩
    · exact hkey
    · exact h.linked r hr x h1 h2 h3
  outbound x := by
    show (update w.db.outbound o.key (some o) (L.outboundKey x)).map _ = t.lastWritten x
    rw [ho, hlast]
    by_cases hxy : x = y
    · subst hxy
      rw [update_self, update_self]
      rfl
    · rw [update_of_ne (fun he => hxy (L.outboundKey_injective he)), update_of_ne hxy]
      exact h.outbound x
  providers x := by
    rw [hheld, hclock]
    exact h.providers x
  pending := by
    rw [hpending]
    exact h.pending
  fresh := ⟨h.fresh.unclaimed, h.fresh.nodup, h.fresh.outbox, h.fresh.processed⟩
  mutations := by
    show w.mutations ++ [(L.endpoint y, .update)] = _
    rw [h.mutations, hwrites, List.map_append]
    rfl

/-! ## The merge -/

section

variable (hlater : normalizeStrategy strategy = .lastWriteWins ∨ normalizeStrategy strategy = .fieldMerge)
include hlater

theorem resolve_later (c : Conflict.FieldConflict Field Any) : resolve (normalizeStrategy strategy) c
      = if beats c.a c.b then winnerB c else winnerA c := by
  have hresolve : resolve (normalizeStrategy strategy) c
      = if c.a.occurredAt < c.b.occurredAt then winnerB c
        else if c.b.occurredAt < c.a.occurredAt then winnerA c
        else if c.b.priority < c.a.priority then winnerB c else winnerA c := by
    rcases hlater with h | h <;> rw [h] <;> rfl
  rw [hresolve]
  by_cases hlt : c.a.occurredAt < c.b.occurredAt
  · rw [if_pos hlt, if_pos (show beats c.a c.b from .inl hlt)]
  · rw [if_neg hlt]
    by_cases hgt : c.b.occurredAt < c.a.occurredAt
    · rw [if_pos hgt, if_neg]
      rintro (h | ⟨h, _⟩)
      · exact hlt h
      · exact absurd h hgt.ne'
    · have heq : c.a.occurredAt = c.b.occurredAt := le_antisymm (not_lt.mp hgt) (not_lt.mp hlt)
      rw [if_neg hgt]
      by_cases hprio : c.b.priority < c.a.priority
      · rw [if_pos hprio, if_pos (show beats c.a c.b from .inr ⟨heq, hprio⟩)]
      · rw [if_neg hprio, if_neg]
        rintro (h | ⟨_, h⟩)
        · exact hlt h
        · exact hprio h

theorem outcome_str
    (cur : Values) (fp : Field → Option Conflict.Provenance) (by_ : Conflict.Provenance) (f : Field)
    (v : String) : outcome strategy (fun f => some (Any.str (cur f))) fp by_ f (.str v)
      = (.str (mergeField (cur f) (fp f) by_ v).1, (mergeField (cur f) (fp f) by_ v).2) := by
  unfold outcome Conflict.detectField mergeField
  cases hfp : fp f with
  | none => rfl
  | some p =>
    by_cases hsrc : p.source = by_.source
    · simp only [hsrc, if_true, true_or]
    · by_cases hcur : cur f = v
      · simp only [if_neg hsrc, Option.getD_some, hcur, if_true, true_or, or_true]
      · have hany : (some (Any.str (cur f))).getD default ≠ Any.str v := fun h => hcur (Any.str.inj h)
        simp only [if_neg hsrc, if_neg hany, resolve_later hlater]
        by_cases hbeats : beats p by_
        · rw [if_pos hbeats, if_pos (.inr (.inr hbeats))]
          show (Any.str v, Conflict.Provenance.mk _ _ _ (if by_.source = p.source then _ else _)) = (Any.str v, by_)
          rw [if_neg (Ne.symm hsrc)]
          rfl
        · rw [if_neg hbeats, if_neg (by rintro (h | h | h) <;> contradiction)]
          show (Any.str (cur f), Conflict.Provenance.mk _ _ _ (if p.source = p.source then _ else _)) = _
          rw [if_pos rfl]
          rfl

end

theorem mergedWith_eq {cust : Customer} (hrec : L.Records c s) (hev : L.Announces ev n)
    (hcust : ∀ f, cust.get f = n.values f) : (mergedWith ev [L.policy n.side] cust c).manual = false ∧
      (∀ f, (mergedWith ev [L.policy n.side] cust c).fields f = some (.str (s.mergeNote L.setting n f).1)) ∧
      ∀ f, (mergedWith ev [L.policy n.side] cust c).provenance f = some (s.mergeNote L.setting n f).2 := by
  have hby : (⟨ev.source, ev.sourceVersion, ev.occurredAt,
      priorityOf [L.policy n.side]⟩ : Conflict.Provenance) = n.provenance L.setting := by
    rw [hev.source, hev.sourceVersion, hev.occurredAt]
    rfl
  have hmanual : (mergedWith ev [L.policy n.side] cust c).manual = false := by
    rw [Bool.eq_false_iff]
    intro h
    obtain ⟨_, hm⟩ := Conflict.merge_manual.mp h
    rcases L.laterWins n.side with hl | hl <;> rw [hm] at hl <;> cases hl
  have hout : ∀ f, outcome (strategyOf [L.policy n.side]) c.fields c.fieldProvenance
      ⟨ev.source, ev.sourceVersion, ev.occurredAt, priorityOf [L.policy n.side]⟩ f (.str (cust.get f))
      = (.str (s.mergeNote L.setting n f).1, (s.mergeNote L.setting n f).2) := by
    intro f
    rw [hrec.fields, hrec.fieldProvenance, hby, outcome_str (L.laterWins n.side), hcust]
    rfl
  have hmerge : ∀ f, _ := fun f =>
    Conflict.merge_of_lookup hmanual (@Customer.lookup_fieldEntries LinearOrder.toDecidableEq cust f)
  simp only [hout] at hmerge
  exact ⟨hmanual, fun f => (hmerge f).1, fun f => (hmerge f).2⟩

/-! ## One event -/

section OneEvent

variable {data : Data} {c : CanonicalRecord}

theorem eventCustomer_get (hdata : ∀ f, Adapter.s (data.get ((L.adapter n.side).native f)) = n.values f)
    (f : Field) : (eventCustomer (L.adapter n.side) ev data).get f = n.values f := by
  rw [eventCustomer, Adapter.get_normalize]
  exact hdata f

theorem validate_iff (hdata : ∀ f, Adapter.s (data.get ((L.adapter n.side).native f)) = n.values f) :
    (L.adapter n.side).validate { id := ev.entityID, sourceVersion := ev.sourceVersion, data := data }
      = .ok () ↔ Valid n.values := by
  rw [Adapter.validate_eq_ok]
  constructor
  · intro h f hf
    rw [← hdata f]
    exact Adapter.present_iff.mp (h f hf)
  · intro h f hf
    apply Adapter.present_iff.mpr
    rw [hdata f]
    exact h f hf

theorem Shows.source (h : Shows L w s) (hev : L.Announces ev n) :
    Reaches env w.db ev.tenantID ev.source (L.remote n.side) := by
  rw [hev.tenantID, hev.source]
  exact h.reaches n.side

theorem Link.Records.applied {cust : Customer} {c1 : CanonicalRecord} (hrec : L.Records c s)
    (hev : L.Announces ev n) (hcust : ∀ f, cust.get f = (s.mergeNote L.setting n f).1)
    (hprov : ∀ f, c1.fieldProvenance f = some (s.mergeNote L.setting n f).2)
    (hversions : c1.sourceVersions = c.sourceVersions) (hids : c1.providerIDs = c.providerIDs) :
    L.Records (appliedRecord ev cust c1) (s.apply L.setting n) := by
  constructor
  · funext f
    exact congrArg (fun v => some (Any.str v)) (hcust f)
  · funext f
    exact hprov f
  · intro x
    show update c1.sourceVersions ev.source ev.sourceVersion (L.name x)
      = update s.sourceVersion n.side n.version x
    rw [hversions, hev.source, hev.sourceVersion]
    by_cases hx : x = n.side
    · rw [hx, update_self, update_self]
    · rw [update_of_ne (fun he => hx (L.name_injective he)), update_of_ne hx]
      exact hrec.sourceVersions x
  · intro x
    show c1.providerIDs (L.name x) = _
    rw [hids]
    exact hrec.providerIDs x

theorem propagated_other {x : Side} {cust : Customer} {r : SimRecord × SimServer}
    (hids : ∀ y, c.providerIDs (L.name y) = some (L.recordID y))
    (hupdate : (w.sims (L.endpoint x.other)).update (L.recordID x.other)
      ((L.adapter x.other).denormalize cust).data = some r) :
    w.propagated env cust (fun _ => L.remote x.other) [L.policy x] c
      = some (c, w.wrote env (L.endpoint x.other) .update .updated r) := by
  have hid : c.providerID (L.policy x).destination = L.recordID x.other := by
    rw [CanonicalRecord.providerID, L.destination_eq, hids]
    rfl
  have hdeliver : w.delivered env cust (L.remote x.other) (L.policy x).destination c
      = some (c, w.wrote env (L.endpoint x.other) .update .updated r) := by
    rw [World.delivered, if_neg (by rw [hid]; exact L.recordID_ne _), hid]
    show ((w.sims (L.endpoint x.other)).update _ ((L.adapter x.other).denormalize cust).data).map _ = _
    rw [hupdate]
    rfl
  rw [World.propagated, hdeliver]
  rfl

section

variable (h : Shows L w s) (hev : L.Announces ev n)
  (hdata : ∀ f, Adapter.s (data.get ((L.adapter n.side).native f)) = n.values f)
include h hev hdata

theorem does_apply (hc : w.db.canonical.get? L.key = some c) (hrec : L.Records c s) :
    ∃ w', Does env (mergeAndApply env ev L.entityType [L.policy n.side]
        (eventCustomer (L.adapter n.side) ev data) c) w (.ok ()) w' ∧ Shows L w' (s.apply L.setting n) := by
  have hkey : c.key = L.key := Table.get?_key hc
  have hentity : c.entityID = L.entityID := congrArg CanonicalKey.entityID hkey
  obtain ⟨hmanual, hfields, hprov⟩ := mergedWith_eq hrec hev (eventCustomer_get hdata)
  -- the merged customer, and the other provider's record once it is written
  let cust := (eventCustomer (L.adapter n.side) ev data).fromFields
    (mergedWith ev [L.policy n.side] (eventCustomer (L.adapter n.side) ev data) c).fields
  have hcust : ∀ f, cust.get f = (s.mergeNote L.setting n f).1 := by
    intro f
    rw [Customer.get_fromFields, hfields]
    rfl
  have hcust' : cust.get = fun f => (s.mergeNote L.setting n f).1 := funext hcust
  obtain ⟨old, r, _, hupdate, _, hholds, hnote⟩ :=
    (h.providers n.side.other).update ((L.adapter n.side.other).denormalize cust).data
  rw [writtenValues_denormalize, hcust'] at hholds
  simp only [writtenValues_denormalize, hcust'] at hnote
  let c1 : CanonicalRecord := { c with fieldProvenance :=
    (mergedWith ev [L.policy n.side] (eventCustomer (L.adapter n.side) ev data) c).provenance }
  have hpropagate : w.propagated env cust (fun _ => L.remote n.side.other) [L.policy n.side] c1
      = some (c1, w.wrote env (L.endpoint n.side.other) .update .updated r) :=
    propagated_other hrec.providerIDs hupdate
  have hreach : ∀ p ∈ [L.policy n.side],
    Reaches env w.db ev.tenantID p.destination (L.remote n.side.other) := by
    intro p hp
    rw [List.mem_singleton.mp hp, L.destination_eq, hev.tenantID]
    exact h.reaches n.side.other
  refine ⟨_, does_mergeAndApply h.fair hmanual hreach hpropagate, ?_⟩
  apply (h.write hholds hnote).persist (y := n.side.other)
  · show (⟨c.tenantID, c.entityType, c.entityID⟩ : CanonicalKey) = L.key
    exact hkey
  · exact hrec.applied hev hcust hprov rfl rfl
  · show (⟨ev.tenantID, L.entityType, c.entityID, (L.policy n.side).destination⟩ : OutboundKey) = _
    rw [hev.tenantID, hentity, L.destination_eq]
    rfl
  · show update s.lastWritten n.side.other _ = update s.lastWritten n.side.other _
    have hfp : cust.fingerprint env.hash = fingerprintOf env.hash (fun f => (s.mergeNote L.setting n f).1) :=
      fingerprint_eq hcust
    exact congrArg (fun t => update s.lastWritten n.side.other (some t)) hfp.symm
  · rfl
  · rfl
  · rfl
  · rfl

theorem does_valid (hvalid : Valid n.values) :
    ∃ w', Does env (applySourceEvent env ev L.entityType [L.policy n.side] data) w (.ok ()) w' ∧
      Shows L w' (s.handle L.setting n) := by
  obtain ⟨c, hc, hrec⟩ := h.canonical
  have hresolve : Does env (resolveCanonical ev L.entityType (eventCustomer (L.adapter n.side) ev data)) w
    (.ok c) w := by
    apply does_resolve_found h.fair
    rw [hev.tenantID, hev.source, hev.entityID]
    exact h.resolves hc hrec n.side
  have hversion : c.sourceVersions ev.source = s.sourceVersion n.side := by
    rw [hev.source]
    exact hrec.sourceVersions n.side
  have hentity : c.entityID = L.entityID := congrArg CanonicalKey.entityID (Table.get?_key hc)
  have hecho : (w.db.outbound ⟨ev.tenantID, L.entityType, c.entityID, ev.source⟩).map
      OutboundWrite.fingerprint = s.lastWritten n.side := by
    rw [hev.tenantID, hentity, hev.source]
    exact h.outbound n.side
  have hfp : (eventCustomer (L.remote n.side).adapter ev data).fingerprint env.hash
      = fingerprintOf env.hash n.values := fingerprint_eq (eventCustomer_get hdata)
  have hvalidate := (@validate_iff env L ev n data hdata).mpr hvalid
  by_cases hstale : n.version ≤ s.sourceVersion n.side
  · -- stale
    refine ⟨w, does_applySourceEvent h.fair (h.source hev) hvalidate hresolve ?_, ?_⟩
    · rw [if_pos (by rw [hversion, hev.sourceVersion]; exact hstale)]
      exact runs_return _ _
    · rwa [State.handle, if_pos (show s.Dropped L.setting n from .inr (.inl hstale))]
  · have hnotstale : ¬ ev.sourceVersion ≤ c.sourceVersions ev.source := by
      rwa [hversion, hev.sourceVersion]
    by_cases hown : s.lastWritten n.side = some (fingerprintOf env.hash n.values)
    · -- an echo
      refine ⟨w, does_applySourceEvent h.fair (h.source hev) hvalidate hresolve ?_, ?_⟩
      · rw [if_neg hnotstale]
        refine runs_bind (does_isEcho h.fair) ?_
        rw [hecho, hfp, if_pos (decide_eq_true hown)]
        exact runs_return _ _
      · rwa [State.handle, if_pos (show s.Dropped L.setting n from .inr (.inr hown))]
    · obtain ⟨w', hdoes, hshows⟩ := does_apply h hev hdata hc hrec
      refine ⟨w', does_applySourceEvent h.fair (h.source hev) hvalidate hresolve ?_, ?_⟩
      · rw [if_neg hnotstale]
        refine runs_bind (does_isEcho h.fair) ?_
        rw [hecho, hfp, if_neg (by rw [decide_eq_true_eq]; exact hown)]
        exact hdoes
      · rw [State.handle, if_neg]
        · exact hshows
        · rintro (hd | hd | hd)
          · exact hd hvalid
          · exact hstale hd
          · exact hown hd

end

theorem shows_handle (h : Shows L w s) (hev : L.Announces ev n) (hnew : w.db.processed ev.key = false)
    (hout : ∀ ev' ∈ w.outbox, ev'.key ≠ ev.key) (hid : ∀ i, w.emitted ≤ i → env.uuid i ≠ ev.eventID) :
    ∃ w', Does env (handle env (.event ev)) w (.ok ()) w' ∧ Shows L w' (s.handle L.setting n) := by
  obtain ⟨data, hfields, hentries, hdata⟩ := hev.fields
  have h1 : Shows L (w.claimed ev.key) s := h.setClaim true hout hid
  have hsrc := h1.source hev
  have htype : (L.remote n.side).adapter.canonicalEntityType = L.entityType := L.entityType_eq n.side
  have hps : targets ev (L.remote n.side).adapter.canonicalEntityType
      ((w.claimed ev.key).db.policiesOf ev.tenantID) = [L.policy n.side] := by
    rw [htype, targets, hev.source, hev.tenantID]
    exact h1.policies n.side
  by_cases hvalid : Valid n.values
  · obtain ⟨w', hdoes, hshows⟩ := does_valid h1 hev hdata hvalid
    rw [← htype] at hdoes
    have hdispatch := does_dispatch_upsert h1.fair hev.provenance hsrc hps
      (List.cons_ne_nil _ _) hev.eventType hfields hentries hdoes
    exact ⟨w', does_handle hshows.fair (does_process_applied h.fair hnew hdispatch hshows.fair), hshows⟩
  · -- an invalid record gives its claim up and goes to the dead letters
    obtain ⟨e, he⟩ : ∃ e, (L.adapter n.side).validate
        { id := ev.entityID, sourceVersion := ev.sourceVersion, data := data } = .error e := by
      cases hv : (L.adapter n.side).validate
          { id := ev.entityID, sourceVersion := ev.sourceVersion, data := data } with
      | ok a => exact absurd ((validate_iff hdata).mp hv) hvalid
      | error e => exact ⟨e, rfl⟩
    have hdispatch := does_dispatch_upsert h1.fair hev.provenance hsrc hps
      (List.cons_ne_nil _ _) hev.eventType hfields hentries (does_invalid h1.fair hsrc he)
    have h2 : Shows L ((w.claimed ev.key).unclaimed ev.key) s := h1.setClaim false hout hid
    refine ⟨_, does_handle h2.fair (does_process_failed h.fair hnew hdispatch h1.fair), ?_⟩
    rwa [State.handle, if_pos (show s.Dropped L.setting n from .inl hvalid)]

end OneEvent

/-! ## The system -/

/-- What can happen: a user edits the record at a provider, the worker handles the oldest webhook of a
    provider, a provider's clock advances. -/
inductive Deed where
  | edit (x : Side) (data : Data)
  | handle (x : Side)
  | tick (x : Side) (d : Nat)

def sentBy (source : String) (ev : Event) : Bool := ev.source = source

/-- One step of the system; `none` when there is nothing to edit or to handle. -/
def next {env : Env} (L : Link env) (w : World) : Deed → Option World
  | .edit x data =>
    ((w.sims (L.endpoint x)).update (L.recordID x) data).map (w.announce env (L.endpoint x) .updated)
  | .handle x =>
    (w.outbox.find? (sentBy (L.name x))).map (fun ev =>
      deliver env ev { w with outbox := w.outbox.eraseP (sentBy (L.name x)) })
  | .tick x d =>
    let server := w.sims (L.endpoint x)
    some { w with sims := update w.sims (L.endpoint x) { server with clock := server.clock + d } }

/-! ## The system and the bridge -/

theorem find?_split {p : α → Bool} {xs : List α} {a : α} (h : xs.find? p = some a) :
    ∃ l1 l2, xs = l1 ++ a :: l2 ∧ xs.eraseP p = l1 ++ l2 := by
  obtain ⟨hp, l1, l2, hxs, hl1⟩ := List.find?_eq_some_iff_append.mp h
  have hnot : ∀ b ∈ l1, ¬ p b = true := fun b hb => by simpa using hl1 b hb
  refine ⟨l1, l2, hxs, ?_⟩
  rw [hxs, List.eraseP_append_right _ hnot, List.eraseP_cons_of_pos hp]

theorem forall₂_find? {R : α → β → Prop} {p : α → Bool} {q : β → Bool}
    (hpq : ∀ a b, R a b → p a = q b) {xs : List α} {ys : List β} (h : List.Forall₂ R xs ys) :
    xs.find? p = none ∧ ys.find? q = none ∨
      ∃ a b, xs.find? p = some a ∧ ys.find? q = some b ∧ R a b ∧
      List.Forall₂ R (xs.eraseP p) (ys.eraseP q) := by
  induction h with
  | nil => exact .inl ⟨rfl, rfl⟩
  | @cons a b xs ys hab hrest ih =>
    have heq := hpq a b hab
    cases hp : p a with
    | true =>
      rw [hp] at heq
      right
      refine ⟨a, b, List.find?_cons_of_pos hp, List.find?_cons_of_pos heq.symm, hab, ?_⟩
      rwa [List.eraseP_cons_of_pos hp, List.eraseP_cons_of_pos heq.symm]
    | false =>
      rw [hp] at heq
      have hp' : ¬ p a = true := by simp [hp]
      have hq' : ¬ q b = true := by simp [← heq]
      rw [List.find?_cons_of_neg hp', List.find?_cons_of_neg hq', List.eraseP_cons_of_neg hp',
        List.eraseP_cons_of_neg hq']
      rcases ih with hnone | ⟨a', b', h1, h2, h3, h4⟩
      · exact .inl hnone
      · exact .inr ⟨a', b', h1, h2, h3, List.Forall₂.cons hab h4⟩

theorem forall₂_mem_right {R : α → β → Prop} {xs : List α} {ys : List β} (h : List.Forall₂ R xs ys)
    {b : β} (hb : b ∈ ys) : ∃ a ∈ xs, R a b := by
  induction h with
  | nil => cases hb
  | @cons a b' xs ys hab _ ih =>
    rcases List.mem_cons.mp hb with rfl | hb
    · exact ⟨a, .head _, hab⟩
    · obtain ⟨a', ha', hab'⟩ := ih hb
      exact ⟨a', .tail _ ha', hab'⟩

theorem Fresh.take (h : Fresh env w) {p : Event → Bool} :
    Fresh env { w with outbox := w.outbox.eraseP p } where
  unclaimed ev hev := h.unclaimed ev (List.mem_of_mem_eraseP hev)
  nodup := (List.eraseP_sublist.map _).nodup h.nodup
  outbox i hi ev hev := h.outbox i hi ev (List.mem_of_mem_eraseP hev)
  processed := h.processed

theorem Link.Announces.sentBy (hev : L.Announces ev n) (x : Side) : sentBy (L.name x) ev = isFrom x n := by
  rw [Bridge.sentBy, isFrom, hev.source]
  exact decide_eq_decide.mpr ⟨fun h => L.name_injective h, fun h => congrArg L.name h⟩

theorem Shows.take (h : Shows L w s) (hev : w.outbox.find? (sentBy (L.name x)) = some ev) :
    ∃ n, s.pending.find? (isFrom x) = some n ∧ L.Announces ev n ∧
      Shows L { w with outbox := w.outbox.eraseP (sentBy (L.name x)) }
        { s with pending := s.pending.eraseP (isFrom x) } := by
  rcases forall₂_find? (fun _ _ hann => hann.sentBy x) h.pending with ⟨hnone, _⟩ | ⟨ev', n, h1, h2, h3, h4⟩
  · rw [hnone] at hev
    cases hev
  · rw [hev] at h1
    cases h1
    obtain ⟨c, hc, hrec⟩ := h.canonical
    exact ⟨n, h2, h3, ⟨h.fair.store, h.fair.provider⟩, h.policies, h.connections,
      ⟨c, hc, hrec.fields, hrec.fieldProvenance, hrec.sourceVersions, hrec.providerIDs⟩, h.linked, h.outbound,
      h.providers, h4, h.fresh.take, h.mutations⟩

/-- **Handling a webhook** is handling its note. -/
theorem Shows.handle (h : Shows L w s) (hw : next L w (.handle x) = some w') :
    ∃ s', step L.setting s (.handle x) = some s' ∧ Shows L w' s' := by
  obtain ⟨ev, hev, rfl⟩ := Option.map_eq_some_iff.mp hw
  obtain ⟨n, hn, hann, htaken⟩ := h.take hev
  obtain ⟨l1, l2, hsplit, herase⟩ := find?_split hev
  have hmem : ev ∈ w.outbox := List.mem_of_find?_eq_some hev
  have hother : ∀ ev' ∈ w.outbox.eraseP (sentBy (L.name x)), ev'.key ≠ ev.key := by
    intro ev' hev' hkey
    have hids := h.fresh.nodup
    rw [hsplit, List.map_append, List.map_cons, List.nodup_middle, ← List.map_append, ← herase] at hids
    apply (List.nodup_cons.mp hids).1
    exact List.mem_map.mpr ⟨ev', hev', congrArg EventKey.eventID hkey⟩
  obtain ⟨w1, hdoes, hshows⟩ := shows_handle htaken hann (h.fresh.unclaimed ev hmem) hother
    (fun i hi => (h.fresh.outbox i hi ev hmem).symm)
  refine ⟨_, congrArg (Option.map _) hn, ?_⟩
  exact hshows.of_core hdoes.state

theorem Shows.edit (h : Shows L w s) (x : Side) (data : Data) :
    ∃ old r, (∀ f, Adapter.s (old.get ((L.adapter x).native f)) = (s.held x).values f) ∧
      (w.sims (L.endpoint x)).update (L.recordID x) data = some r ∧ r.1.data = data ∪ old ∧
      next L w (.edit x data) = some (w.announce env (L.endpoint x) .updated r) ∧
      Shows L (w.announce env (L.endpoint x) .updated r)
      (s.write x (writtenValues (L.adapter x) data old)) := by
  obtain ⟨old, r, hold, hupdate, hdata, hholds, hnote⟩ := (h.providers x).update data
  exact ⟨old, r, hold, hupdate, hdata, congrArg (Option.map _) hupdate, h.write hholds hnote⟩

theorem Shows.tick (h : Shows L w s) (x : Side) (d : Nat) : ∃ w', next L w (.tick x d) = some w' ∧
      Shows L w' { s with clock := update s.clock x (s.clock x + d) } := by
  refine ⟨_, rfl, ⟨h.fair.store, h.fair.provider⟩, h.policies, h.connections, ?_, h.linked, h.outbound, ?_,
    h.pending, ⟨h.fresh.unclaimed, h.fresh.nodup, h.fresh.outbox, h.fresh.processed⟩, h.mutations⟩
  · obtain ⟨c, hc, hrec⟩ := h.canonical
    exact ⟨c, hc, hrec.fields, hrec.fieldProvenance, hrec.sourceVersions, hrec.providerIDs⟩
  · intro y
    show L.Holds y (update w.sims (L.endpoint x) _ (L.endpoint y)) _ (update s.clock x _ y)
    by_cases hxy : y = x
    · subst hxy
      obtain ⟨h1, h2, h3, h4, h5⟩ := h.providers y
      rw [update_self, update_self]
      exact ⟨h1, h2, h3, congrArg (· + (d : Int)) h4, h5⟩
    · rw [update_of_ne (fun he => hxy (L.endpoint_injective he)), update_of_ne hxy]
      exact h.providers y

def Deed.Matches : Deed → Act → Prop
  | .edit x _, .edit y _ => x = y
  | .handle x, .handle y => x = y
  | .tick x d, .tick y e => x = y ∧ d = e
  | _, _ => False

/-- **Refinement**: every step of the system is a step of the bridge. -/
theorem Shows.next (h : Shows L w s) {d : Deed} (hw : next L w d = some w') :
    ∃ a s', d.Matches a ∧ step L.setting s a = some s' ∧ Shows L w' s' := by
  cases d with
  | edit x data =>
    obtain ⟨old, r, _, _, _, hnext, hshows⟩ := h.edit x data
    rw [hw] at hnext
    cases hnext
    exact ⟨.edit x _, _, rfl, rfl, hshows⟩
  | handle x =>
    obtain ⟨s', hs', hshows⟩ := h.handle hw
    exact ⟨.handle x, s', rfl, hs', hshows⟩
  | tick x d =>
    obtain ⟨w1, hnext, hshows⟩ := h.tick x d
    rw [hw] at hnext
    cases hnext
    exact ⟨.tick x d, _, ⟨rfl, rfl⟩, rfl, hshows⟩

def Act.deed (L : Link env) : Act → Deed
  | .edit x v => .edit x ((L.adapter x).denormalize (customerOf v)).data
  | .handle x => .handle x
  | .tick x d => .tick x d

section

variable (h : Shows L w s)
include h

theorem Shows.act {a : Act} (ha : step L.setting s a = some s') : ∃ w', Bridge.next L w (a.deed L) = some w' ∧
    Shows L w' s' := by
  cases a with
  | edit x v =>
    obtain ⟨old, r, _, _, _, hnext, hshows⟩ := h.edit x ((L.adapter x).denormalize (customerOf v)).data
    have hv : writtenValues (L.adapter x) ((L.adapter x).denormalize (customerOf v)).data old = v := by
      rw [writtenValues_denormalize]
      exact funext (get_customerOf v)
    rw [hv] at hshows
    cases ha
    exact ⟨_, hnext, hshows⟩
  | handle x =>
    -- the note has its webhook in the outbox
    have hsome : ∃ ev, w.outbox.find? (sentBy (L.name x)) = some ev := by
      obtain ⟨n, hn, _⟩ := Option.map_eq_some_iff.mp ha
      rcases forall₂_find? (fun _ _ hann => hann.sentBy x) h.pending with ⟨_, hnone⟩ | ⟨ev, _, hev, _⟩
      · rw [hnone] at hn
        cases hn
      · exact ⟨ev, hev⟩
    obtain ⟨ev, hev⟩ := hsome
    have hnext : Bridge.next L w (.handle x)
        = some (deliver env ev { w with outbox := w.outbox.eraseP (sentBy (L.name x)) }) :=
      congrArg (Option.map _) hev
    obtain ⟨s1, hs1, hshows⟩ := h.handle hnext
    rw [ha] at hs1
    cases hs1
    exact ⟨_, hnext, hshows⟩
  | tick x d =>
    obtain ⟨w', hnext, hshows⟩ := h.tick x d
    cases ha
    exact ⟨w', hnext, hshows⟩

theorem Shows.sources : w.outbox.map Event.source = s.pending.map (fun n => L.name n.side) := by
  have hpending := h.pending
  generalize w.outbox = evs at hpending ⊢
  generalize s.pending = ns at hpending ⊢
  induction hpending with
  | nil => rfl
  | cons hann _ ih => rw [List.map_cons, List.map_cons, hann.source, ih]

theorem Shows.webhook (hn : n ∈ s.pending) : ∃ ev ∈ w.outbox, L.Announces ev n :=
  forall₂_mem_right h.pending hn

theorem Shows.note (hev : ev ∈ w.outbox) : ∃ n ∈ s.pending, L.Announces ev n :=
  forall₂_mem_right h.pending.flip hev

theorem Shows.quiet : w.outbox = [] ↔ s.pending = [] := by
  have hp := h.pending
  constructor
  · intro hw
    rw [hw] at hp
    exact List.forall₂_nil_left_iff.mp hp
  · intro hs
    rw [hs] at hp
    exact List.forall₂_nil_right_iff.mp hp

end

/-- **Realisation**: a run of the bridge is a run of the system, under whatever condition on its steps the
    bridge's condition implies. -/
theorem Shows.realise {ok : State → Act → Prop} (good : World → Deed → Prop)
    (hok : ∀ w s a, Shows L w s → ok s a → good w (a.deed L)) (h : Shows L w s) {as : List Act}
    (hrun : Transition.Run (step L.setting) ok s as s') :
    ∃ w', Transition.Run (Bridge.next L) good w (as.map (Act.deed L)) w' ∧ Shows L w' s' := by
  induction hrun with
  | refl => exact ⟨w, .refl, h⟩
  | tail _ ha hstep ih =>
    obtain ⟨w1, hrun1, h1⟩ := ih
    obtain ⟨w2, hnext, h2⟩ := h1.act hstep
    refine ⟨w2, ?_, h2⟩
    rw [List.map_append]
    exact hrun1.tail (hok _ _ _ h1 ha) hnext

end SyncForge.Bridge
