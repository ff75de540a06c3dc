import SyncForge.Deployment
import SyncForge.Store.Frame

/-!
# `Worker.Convergence` — one source, any order of its events

One provider record is synchronized to any number of destinations, and only its own events arrive, in any
order and any number of times.
`Synced`: one canonical row, and one record at every destination, all showing the newest of the events handled
so far.
-/

namespace SyncForge.Convergence

open Effect Effect.Prog Relational
open Deployment (annCreated hub policy record sf sfEvent world)
open Function (update update_of_ne update_self)

/-! ## The setting -/

structure Start (evs : List Event) (w : World) : Prop where
  canonical : w.db.canonical = .empty
  outbound : w.db.outbound = fun _ => none
  unclaimed : ∀ ev ∈ evs, w.db.processed ev.key = false

structure Fanout where
  tenant : String
  source : String
  recordID : String
  src : Remote
  policies : List SyncPolicy
  remote : String → Remote
  nodup : (policies.map SyncPolicy.destination).Nodup
  other : ∀ p ∈ policies, p.destination ≠ source

namespace Fanout

variable (F : Fanout)

def entityType : String := F.src.adapter.canonicalEntityType

def key : CanonicalKey := ⟨F.tenant, F.entityType, F.recordID⟩

def customer (ev : Event) : Customer := eventCustomer F.src.adapter ev (ev.fields.getD ∅)

def server (w : World) (d : String) : SimServer := w.sims (F.remote d).endpoint

structure Configured (env : Env) (w : World) : Prop where
  fair : w.Fair
  source : Reaches env w.db F.tenant F.source F.src
  destinations : ∀ p ∈ F.policies, Reaches env w.db F.tenant p.destination (F.remote p.destination)
  policies : (w.db.policiesOf F.tenant).filter (fun p => p.source = F.source ∧ p.entity = F.entityType)
    = F.policies

structure Sent (ev : Event) : Prop where
  tenantID : ev.tenantID = F.tenant
  source : ev.source = F.source
  entityID : ev.entityID = F.recordID
  eventType : ev.eventType ≠ .deleted
  provenance : ev.provenance = {}
  positive : 0 < ev.sourceVersion
  payload : ∃ data, ev.fields = some data ∧ data.entries ≠ [] ∧
    F.src.adapter.validate { id := ev.entityID, sourceVersion := ev.sourceVersion, data := data } = .ok ()

structure Feed (evs : List Event) : Prop where
  sent : ∀ ev ∈ evs, F.Sent ev
  version_of_id : ∀ ev ∈ evs, ∀ ev' ∈ evs, ev.eventID = ev'.eventID → ev.sourceVersion = ev'.sourceVersion
  fields_of_version : ∀ ev ∈ evs, ∀ ev' ∈ evs, ev.sourceVersion = ev'.sourceVersion → ev.fields = ev'.fields

/-- Destination `d` has the customer: under the id the canonical row names, and nowhere else, its records
    differ from those it had in `w0`. -/
def Copied (w0 : World) (cust : Customer) (c : CanonicalRecord) (w : World) (d : String) : Prop :=
  ∃ id r, c.providerIDs d = some id ∧ id ≠ "" ∧ (F.server w d).records.get? id = some r ∧ r.deleted = false ∧
    (∀ f, Adapter.s (r.data.get ((F.remote d).adapter.native f)) = cust.get f) ∧
    ∀ id', id' ≠ id → (F.server w d).records.get? id' = (F.server w0 d).records.get? id'

/-- Destination `d` was not written yet. -/
def Untouched (w0 : World) (c : CanonicalRecord) (w : World) (d : String) : Prop :=
  c.providerIDs d = none ∧ F.server w d = F.server w0 d

end Fanout

variable {F : Fanout} {env : Env} {w0 w w' : World} {cust : Customer} {c c' : CanonicalRecord}
  {d : String} {evs : List Event} {e ev : Event}

/-! ## Writing the destinations -/

section

variable (hc : c'.providerIDs d = c.providerIDs d) (hw : F.server w' d = F.server w d)
include hc hw

theorem copied_congr (h : F.Copied w0 cust c w d) : F.Copied w0 cust c' w' d := by
  unfold Fanout.Copied
  rwa [hc, hw]

theorem untouched_congr (h : F.Untouched w0 c w d) : F.Untouched w0 c' w' d := ⟨hc.trans h.1, hw.trans h.2⟩

end

/-- What a write to the destinations `ds` leaves alone. -/
structure Beside (ds : List String) (c : CanonicalRecord) (w : World) (c' : CanonicalRecord) (w' : World) :
    Prop where
  columns : c' = { c with providerIDs := c'.providerIDs }
  providerIDs : ∀ x, x ∉ ds → c'.providerIDs x = c.providerIDs x
  sims : ∀ ep : Endpoint, ep.provider ∉ ds → w'.sims ep = w.sims ep

/-- **One destination**, whether it was written before or not. -/
theorem delivered_copied {d : String} (hd : (F.remote d).endpoint.provider = d)
    (hready : F.Untouched w0 c w d ∨ ∃ old, F.Copied w0 old c w d) :
    ∃ c' w', w.delivered env cust (F.remote d) d c = some (c', w') ∧ F.Copied w0 cust c' w' d ∧
    Beside [d] c w c' w' := by
  have hsims : ∀ (m : Mutation) (type : EventType) (r : SimRecord × SimServer) (ep : Endpoint),
      ep.provider ∉ [d] → (w.wrote env (F.remote d).endpoint m type r).sims ep = w.sims ep := by
    intro m type r ep hep
    apply update_of_ne
    rintro rfl
    exact hep (List.mem_singleton.mpr hd)
  have hserver : ∀ (m : Mutation) (type : EventType) (r : SimRecord × SimServer),
      F.server (w.wrote env (F.remote d).endpoint m type r) d = r.2 :=
    fun _ _ _ => update_self _ _ _
  rcases hready with ⟨hnone, hsame⟩ | ⟨old, id, rec_, hid, hne, hget, hlive, _, hrest⟩
  · -- a first write creates the record, under an id the provider makes up
    have hnew : c.providerID d = "" := by rw [CanonicalRecord.providerID, hnone]; rfl
    refine ⟨_, _, by rw [World.delivered, if_pos hnew], ?_, ⟨rfl, fun x hx => ?_, hsims _ _ _⟩⟩
    · refine ⟨_, ((F.server w d).insert ((F.remote d).adapter.denormalize cust).data).1, update_self _ _ _,
        SimServer.genID_ne_empty (F.server w d), ?_, rfl, ?_, ?_⟩
      · rw [hserver]
        exact Table.get?_upsert_self
      · intro f
        show Adapter.s (Data.get ((F.remote d).adapter.denormalize cust).data _) = cust.get f
        rw [Data.get, Adapter.get_denormalize]
        rfl
      · intro id' hid'
        rw [hserver, ← hsame]
        exact Table.get?_upsert_ne hid'
    · exact update_of_ne (fun h => hx (List.mem_singleton.mpr h)) _ _
  · -- a later one updates that record
    have hold : c.providerID d = id := by rw [CanonicalRecord.providerID, hid]; rfl
    obtain ⟨⟨rec', s'⟩, hupdate⟩ := SimServer.exists_update hget ((F.remote d).adapter.denormalize cust).data
    have hdeliver : w.delivered env cust (F.remote d) d c
        = some (c, w.wrote env (F.remote d).endpoint .update .updated (rec', s')) := by
      rw [World.delivered, if_neg (by rw [hold]; exact hne), hold]
      exact congrArg (Option.map _) hupdate
    refine ⟨_, _, hdeliver, ⟨id, rec', hid, hne, ?_⟩, ⟨rfl, fun _ _ => rfl, hsims _ _ _⟩⟩
    obtain ⟨rec1, hget1, rfl, rfl⟩ := SimServer.update_eq_some hupdate
    obtain rfl : rec_ = rec1 := Option.some.inj (hget.symm.trans hget1)
    have hkey : rec_.id = id := Table.get?_key hget
    rw [hserver]
    refine ⟨?_, hlive, fun f => Adapter.s_get_denormalize_union cust rec_.data f, fun id' hid' => ?_⟩
    · rw [← hkey]
      exact Table.get?_upsert_self
    · rw [← hrest id' hid']
      exact Table.get?_upsert_ne (by rw [hkey]; exact hid')

theorem Beside.trans {ds es : List String} {c'' : CanonicalRecord} {w'' : World} (h : Beside ds c w c' w')
    (h' : Beside es c' w' c'' w'') : Beside (ds ++ es) c w c'' w'' where
  columns := by rw [h'.columns, h.columns]
  providerIDs x hx := by
    rw [List.mem_append, not_or] at hx
    rw [h'.providerIDs x hx.2, h.providerIDs x hx.1]
  sims ep hep := by
    rw [List.mem_append, not_or] at hep
    rw [h'.sims ep hep.2, h.sims ep hep.1]

/-- **The propagation loop**: every destination ends up with the customer. -/
theorem propagated_copied {ps : List SyncPolicy} (hnodup : (ps.map SyncPolicy.destination).Nodup)
    (hends : ∀ p ∈ ps, (F.remote p.destination).endpoint.provider = p.destination)
    (hready : ∀ p ∈ ps, F.Untouched w0 c w p.destination ∨ ∃ old, F.Copied w0 old c w p.destination) :
    ∃ c' w', w.propagated env cust F.remote ps c = some (c', w') ∧
      (∀ p ∈ ps, F.Copied w0 cust c' w' p.destination) ∧
      Beside (ps.map SyncPolicy.destination) c w c' w' := by
  induction ps generalizing c w with
  | nil => exact ⟨c, w, rfl, nofun, ⟨rfl, fun _ _ => rfl, fun _ _ => rfl⟩⟩
  | cons p ps ih =>
    obtain ⟨hp, hnodup⟩ := List.nodup_cons.mp hnodup
    have hend := hends p (.head _)
    obtain ⟨c1, w1, hdeliver, hcopied, hbeside⟩ :=
      @delivered_copied F env w0 w cust c p.destination hend (hready p (.head _))
    -- the destinations still to come are other ones
    have hready1 : ∀ q ∈ ps, F.Untouched w0 c1 w1 q.destination ∨
      ∃ old, F.Copied w0 old c1 w1 q.destination := by
      intro q hq
      have hne : q.destination ∉ [p.destination] := by
        intro h
        rw [← List.mem_singleton.mp h] at hp
        exact hp (List.mem_map_of_mem hq)
      have hids := hbeside.providerIDs _ hne
      have hserver : F.server w1 q.destination = F.server w q.destination := by
        apply hbeside.sims
        rwa [hends q (.tail _ hq)]
      rcases hready q (.tail _ hq) with h | ⟨old, h⟩
      · exact .inl (untouched_congr hids hserver h)
      · exact .inr ⟨old, copied_congr hids hserver h⟩
    obtain ⟨c2, w2, hrest, hall, hbeside2⟩ := ih hnodup (fun q hq => hends q (.tail _ hq)) hready1
    refine ⟨c2, w2, ?_, ?_, hbeside.trans hbeside2⟩
    · rwa [World.propagated, hdeliver]
    · intro q hq
      rcases List.mem_cons.mp hq with rfl | hq
      · refine copied_congr (hbeside2.providerIDs _ hp) (hbeside2.sims _ ?_) hcopied
        rwa [hend]
      · exact hall q hq

/-! ## One event -/

section OneEvent

variable {evs : List Event} {e ev : Event} {u : World}

/-- There is one canonical row, `c`, and it and every destination show the event `e`. -/
structure Fanout.Showing (F : Fanout) (w0 : World) (e : Event) (c : CanonicalRecord) (w : World) : Prop where
  rows : w.db.canonical.rows = [c]
  key : c.key = F.key
  providerIDs : c.providerIDs F.source = some F.recordID
  fields : c.fields = (F.customer e).fields
  sourceVersions : c.sourceVersions F.source = e.sourceVersion
  destinations : ∀ p ∈ F.policies, F.Copied w0 (F.customer e) c w p.destination

structure Fanout.Receives (F : Fanout) (w0 : World) (c : CanonicalRecord) (w : World) : Prop where
  key : c.key = F.key
  providerIDs : c.providerIDs F.source = some F.recordID
  provenance : ∀ f prov, c.fieldProvenance f = some prov → prov.source = F.source
  destinations : ∀ p ∈ F.policies, F.Untouched w0 c w p.destination ∨ ∃ old, F.Copied w0 old c w p.destination

def Fanout.Unwritten (F : Fanout) (w : World) : Prop :=
  w.db.outbound ⟨F.tenant, F.entityType, F.recordID, F.source⟩ = none

/-- The system shows `e`, and is ready for the next event. -/
structure Fanout.Stored (F : Fanout) (env : Env) (w0 : World) (e : Event) (w : World) : Prop where
  configured : F.Configured env w
  unwritten : F.Unwritten w
  row : ∃ c, F.Showing w0 e c w ∧ F.Receives w0 c w

/-- The system once `e` is the newest event handled. -/
structure Fanout.Synced (F : Fanout) (env : Env) (w0 : World) (evs : List Event) (e : Event)
    (w : World) : Prop extends F.Stored env w0 e w where
  claims : ∀ ev ∈ evs, w.db.processed ev.key = true → ev.sourceVersion ≤ e.sourceVersion

theorem Fanout.Sent.targets (hev : F.Sent ev) (hconf : F.Configured env w) :
    targets ev F.src.adapter.canonicalEntityType (w.db.policiesOf ev.tenantID) = F.policies := by
  unfold SyncForge.targets
  rw [hev.tenantID, hev.source]
  exact hconf.policies

theorem mergedWith_own (hev : F.Sent ev)
    (hown : ∀ f prov, c.fieldProvenance f = some prov → prov.source = F.source) :
      (mergedWith ev F.policies cust c).manual = false ∧
      (∀ f, (cust.fromFields (mergedWith ev F.policies cust c).fields).get f = cust.get f) ∧
      ∀ f prov, (mergedWith ev F.policies cust c).provenance f = some prov → prov.source = F.source := by
  have hown' : ∀ f prov, c.fieldProvenance f = some prov →
      prov.source = (⟨ev.source, ev.sourceVersion, ev.occurredAt, priorityOf F.policies⟩ : Conflict.Provenance).source :=
    fun f prov h => (hown f prov h).trans hev.source.symm
  have hmerge : (mergedWith ev F.policies cust c).manual = false ∧ _ := Conflict.merge_ownFields hown'
  obtain ⟨hmanual, hadopt⟩ := hmerge
  refine ⟨hmanual, fun f => ?_, fun f prov h => ?_⟩
  all_goals
    obtain ⟨hfield, hprov⟩ := hadopt f _ (@Customer.lookup_fieldEntries LinearOrder.toDecidableEq cust f)
  · rw [Customer.get_fromFields]
    unfold mergedWith
    rw [hfield]
    rfl
  · unfold mergedWith at h
    rw [hprov] at h
    rw [← Option.some.inj h]
    exact hev.source

theorem reaches_congr (hconn : u.db.connections = w.db.connections) {tenant provider : String}
    {remote : Remote} (h : Reaches env w.db tenant provider remote) :
    Reaches env u.db tenant provider remote := by
  unfold Reaches Database.connectionsOf at h ⊢
  rwa [hconn]

theorem Fanout.Configured.congr (h : F.Configured env w) (hfair : u.Fair)
    (hconn : u.db.connections = w.db.connections) (hpol : u.db.policies = w.db.policies) :
    F.Configured env u where
  fair := hfair
  source := reaches_congr hconn h.source
  destinations p hp := reaches_congr hconn (h.destinations p hp)
  policies := by
    rw [Database.policiesOf, hpol]
    exact h.policies

theorem Fanout.Stored.congr (h : F.Stored env w0 e w) (hconf : F.Configured env u)
    (hcan : u.db.canonical = w.db.canonical) (hout : u.db.outbound = w.db.outbound)
    (hsims : u.sims = w.sims) : F.Stored env w0 e u where
  configured := hconf
  unwritten := by
    unfold Fanout.Unwritten
    rw [hout]
    exact h.unwritten
  row := by
    obtain ⟨c, hs, hr⟩ := h.row
    have hserver : ∀ d, F.server u d = F.server w d := fun d => congrFun hsims _
    refine ⟨c, ⟨?_, hs.key, hs.providerIDs, hs.fields, hs.sourceVersions, ?_⟩,
      ⟨hr.key, hr.providerIDs, hr.provenance, ?_⟩⟩
    · rw [hcan]
      exact hs.rows
    · exact fun p hp => copied_congr rfl (hserver _) (hs.destinations p hp)
    · exact fun p hp => .inr ⟨_, copied_congr rfl (hserver _) (hs.destinations p hp)⟩

theorem Fanout.Synced.of_core (h : F.Synced env w0 evs e w) (hcore : u.core = w.core) :
    F.Synced env w0 evs e u where
  toStored := h.toStored.congr
    (h.configured.congr (core_fair hcore h.configured.fair) (core_connections hcore) (core_policies hcore))
    (core_canonical hcore) (core_outbound hcore) (core_sims hcore)
  claims ev hmem := by
    rw [core_processed hcore]
    exact h.claims ev hmem

theorem Fanout.Configured.persisted (hconf : F.Configured env w) {w1 : World} (hdb : w1.db = w.db)
    (hfair : w1.Fair) {r : CanonicalRecord} {outbound : List OutboundWrite} {ops : List SyncOperation} :
    F.Configured env (w1.persisted r outbound ops) := by
  constructor
  · exact ⟨hfair.store, hfair.provider⟩
  · show Reaches env w1.db _ _ _
    rw [hdb]
    exact hconf.source
  · show ∀ p ∈ F.policies, Reaches env w1.db _ _ _
    rw [hdb]
    exact hconf.destinations
  · show (w1.db.policiesOf _).filter _ = _
    rw [hdb]
    exact hconf.policies

/-- **Merging and applying** an event of the record into its row, be it new or not. -/
theorem does_absorb (hconf : F.Configured env w) (hev : F.Sent ev) (hc : F.Receives w0 c w)
    (hout : F.Unwritten w) (hput : ∀ r : CanonicalRecord, r.key = F.key → (w.db.canonical.upsert r).rows = [r]) :
    ∃ w', Does env (mergeAndApply env ev F.entityType F.policies (F.customer ev) c) w (.ok ()) w' ∧
      F.Stored env w0 ev w' ∧ w'.db.processed = w.db.processed := by
  obtain ⟨hmanual, hget, hown⟩ := @mergedWith_own F (F.customer ev) c ev hev hc.provenance
  have hreach : ∀ p ∈ F.policies, Reaches env w.db ev.tenantID p.destination (F.remote p.destination) := by
    rw [hev.tenantID]
    exact hconf.destinations
  -- the destinations are written with the merged customer, which is the event's
  let cust := (F.customer ev).fromFields (mergedWith ev F.policies (F.customer ev) c).fields
  have hcust : cust.get = (F.customer ev).get := funext hget
  obtain ⟨c1, w1, hprop, hcopied, hbeside⟩ := @propagated_copied F env w0 w cust
    { c with fieldProvenance := (mergedWith ev F.policies (F.customer ev) c).provenance } F.policies F.nodup
    (fun p hp => (hconf.destinations p hp).provider) hc.destinations
  obtain ⟨hdb, _, hfair⟩ := propagated_db hprop
  have hids : c1.providerIDs F.source = some F.recordID := by
    rw [hbeside.providerIDs _ (by
      intro h
      obtain ⟨p, hp, hd⟩ := List.mem_map.mp h
      exact F.other p hp hd)]
    exact hc.providerIDs
  have hkey : (appliedRecord ev cust c1).key = F.key := by
    rw [hbeside.columns]
    exact hc.key
  have hcopied' : ∀ p ∈ F.policies, F.Copied w0 (F.customer ev) (appliedRecord ev cust c1)
      (w1.persisted (appliedRecord ev cust c1) (F.policies.map (outboundWrite env ev F.entityType c.entityID cust))
        (F.policies.map (syncOperation env ev F.entityType c.entityID cust))) p.destination := by
    intro p hp
    have hp' := hcopied p hp
    unfold Fanout.Copied at hp' ⊢
    rwa [hcust] at hp'
  refine ⟨_, does_mergeAndApply hconf.fair hmanual hreach hprop,
    ⟨?_, ?_, ⟨appliedRecord ev cust c1, ?_, ?_⟩⟩, ?_⟩
  · exact hconf.persisted hdb (hfair hconf.fair)
  · show List.foldl Database.writeOutbound w1.db.outbound _ _ = none
    rw [hdb, Database.foldl_writeOutbound_ne]
    · exact hout
    · intro o ho
      obtain ⟨p, hp, rfl⟩ := List.mem_map.mp ho
      exact fun h => F.other p hp (congrArg OutboundKey.targetSource h)
  · refine ⟨?_, hkey, hids, ?_, ?_, hcopied'⟩
    · show (w1.db.canonical.upsert _).rows = _
      rw [hdb]
      exact hput _ hkey
    · exact Customer.fields_inj.mpr hget
    · show update c1.sourceVersions ev.source ev.sourceVersion F.source = _
      rw [hev.source, update_self]
  · refine ⟨hkey, hids, ?_, fun p hp => .inr ⟨_, hcopied' p hp⟩⟩
    rwa [hbeside.columns]
  · show w1.db.processed = _
    rw [hdb]

theorem does_dispatch_resolved (hne : F.policies ≠ []) (hconf : F.Configured env w) (hev : F.Sent ev)
    (hc : F.Receives w0 c w) (hout : F.Unwritten w)
    (hput : ∀ r : CanonicalRecord, r.key = F.key → (w.db.canonical.upsert r).rows = [r])
    (hresolve : Does env (resolveCanonical ev F.entityType (F.customer ev)) w (.ok c) w) :
    if ev.sourceVersion ≤ c.sourceVersions F.source then Does env (dispatch env ev) w (.ok .applied) w
    else ∃ w', Does env (dispatch env ev) w (.ok .applied) w' ∧ F.Stored env w0 ev w' ∧
      w'.db.processed = w.db.processed := by
  obtain ⟨data, hfields, hentries, hvalid⟩ := hev.payload
  have hsrc : Reaches env w.db ev.tenantID ev.source F.src := by
    rw [hev.tenantID, hev.source]
    exact hconf.source
  have hcustomer : eventCustomer F.src.adapter ev data = F.customer ev := by
    rw [Fanout.customer, hfields]
    rfl
  have hdispatch : ∀ {r w'}, Does env (applySourceEvent env ev F.entityType F.policies data) w r w' →
      Does env (dispatch env ev) w (r.map (fun _ => .applied)) w' :=
    fun h => does_dispatch_upsert hconf.fair hev.provenance hsrc (hev.targets hconf) hne hev.eventType hfields
      hentries h
  rw [← hcustomer] at hresolve
  split_ifs with hstale
  · refine hdispatch (r := .ok ()) (does_applySourceEvent hconf.fair hsrc hvalid hresolve ?_)
    rw [hev.source, if_pos hstale]
    exact runs_return _ _
  · obtain ⟨w', hdoes, hstored, hprocessed⟩ := does_absorb hconf hev hc hout hput
    refine ⟨w', hdispatch (r := .ok ()) (does_applySourceEvent hconf.fair hsrc hvalid hresolve ?_), hstored,
      hprocessed⟩
    rw [hev.source, if_neg hstale]
    have hecho := @does_isEcho env w F.entityType (eventCustomer F.src.adapter ev data) hconf.fair ev.tenantID
      c.entityID F.source
    have hcid : c.entityID = F.recordID := congrArg CanonicalKey.entityID hc.key
    rw [hev.tenantID, hcid, show w.db.outbound _ = none from hout] at hecho
    rw [hev.tenantID, hcid]
    refine runs_bind hecho ?_
    rwa [if_neg (by simp), hcustomer]

theorem claimed_configured (h : F.Configured env w) (key : EventKey) : F.Configured env (w.claimed key) :=
  h.congr (claimed_fair h.fair key) rfl rfl

theorem claims_claimed (hfeed : F.Feed evs) (hmem : ev ∈ evs) (hle : ev.sourceVersion ≤ e.sourceVersion)
    (hold : ∀ x ∈ evs, w.db.processed x.key = true → x.sourceVersion ≤ e.sourceVersion)
    (hprocessed : w'.db.processed = (w.claimed ev.key).db.processed) :
    ∀ x ∈ evs, w'.db.processed x.key = true → x.sourceVersion ≤ e.sourceVersion := by
  intro x hx hclaimed
  rw [hprocessed] at hclaimed
  by_cases hkey : x.key = ev.key
  · rwa [hfeed.version_of_id x hx ev hmem (congrArg EventKey.eventID hkey)]
  · apply hold x hx
    rw [← hclaimed]
    exact (update_of_ne hkey _ _).symm

/-- **The first event** makes the row and the destinations' records. -/
theorem does_first (hne : F.policies ≠ []) (hconf : F.Configured env w) (hstart : Start evs w)
    (hfeed : F.Feed evs) (hmem : ev ∈ evs) : ∃ r w', Does env (process env ev) w r w' ∧
    F.Synced env w evs ev w' := by
  have hev := hfeed.sent ev hmem
  have hrows : (w.claimed ev.key).db.canonical.rows = [] := by
    show w.db.canonical.rows = []
    rw [hstart.canonical]
    rfl
  let fresh : CanonicalRecord :=
    { tenantID := ev.tenantID, entityType := F.entityType, entityID := ev.entityID
      providerIDs := update (fun _ => none) ev.source (some ev.entityID) }
  have hresolve : Does env (resolveCanonical ev F.entityType (F.customer ev)) (w.claimed ev.key) (.ok fresh)
      (w.claimed ev.key) := by
    apply does_resolve_fresh (claimed_fair hconf.fair _)
    · rw [Database.canonicalsWithProvider, hrows]
      rfl
    · rw [Database.canonicalsWithEmail, hrows]
      rfl
  have hreceives : F.Receives w fresh (w.claimed ev.key) := by
    refine ⟨?_, ?_, fun _ _ h => (by cases h), fun p hp => .inl ⟨?_, rfl⟩⟩
    · show (⟨ev.tenantID, F.entityType, ev.entityID⟩ : CanonicalKey) = F.key
      rw [hev.tenantID, hev.entityID]
      rfl
    · show update (fun _ : String => none) ev.source (some ev.entityID) F.source = _
      rw [hev.source, update_self, hev.entityID]
    · show update (fun _ : String => none) ev.source (some ev.entityID) p.destination = _
      rw [hev.source, update_of_ne (F.other p hp)]
  have hput : ∀ r : CanonicalRecord, r.key = F.key →
    ((w.claimed ev.key).db.canonical.upsert r).rows = [r] := by
    intro r _
    show Table.put _ r (w.claimed ev.key).db.canonical.rows = [r]
    rw [hrows]
    rfl
  have hunwritten : F.Unwritten (w.claimed ev.key) := congrFun hstart.outbound _
  have hdispatch := does_dispatch_resolved hne (claimed_configured hconf _) hev hreceives hunwritten hput
    hresolve
  rw [if_neg (not_le.mpr hev.positive)] at hdispatch
  obtain ⟨w', hdoes, hstored, hprocessed⟩ := hdispatch
  refine ⟨_, w', does_process_applied hconf.fair (hstart.unclaimed ev hmem) hdoes hstored.configured.fair,
    hstored, ?_⟩
  refine claims_claimed hfeed hmem le_rfl (fun x hx hclaimed => ?_) hprocessed
  rw [hstart.unclaimed x hx] at hclaimed
  cases hclaimed

/-- **Any further event** leaves the newer of the two. -/
theorem does_next (hne : F.policies ≠ []) (hfeed : F.Feed evs) (hmem : ev ∈ evs)
    (h : F.Synced env w0 evs e w) : ∃ r w', Does env (process env ev) w r w' ∧
      F.Synced env w0 evs (if ev.sourceVersion ≤ e.sourceVersion then e else ev) w' := by
  have hev := hfeed.sent ev hmem
  by_cases hclaimed : w.db.processed ev.key = true
  · -- a repetition
    rw [if_pos (h.claims ev hmem hclaimed)]
    exact ⟨_, w, does_process_duplicate h.configured.fair hclaimed, h⟩
  · have hnew : w.db.processed ev.key = false := Bool.not_eq_true _ ▸ hclaimed
    have hconf := claimed_configured h.configured ev.key
    have hkept : F.Stored env w0 e (w.claimed ev.key) := h.toStored.congr hconf rfl rfl rfl
    obtain ⟨c, hshow, hreceives⟩ := hkept.row
    have hfound : (w.claimed ev.key).db.canonicalsWithProvider ev.tenantID F.entityType ev.source ev.entityID
      = [c] := by
      have htenant : c.tenantID = F.tenant := congrArg CanonicalKey.tenantID hshow.key
      have htype : c.entityType = F.entityType := congrArg CanonicalKey.entityType hshow.key
      rw [Database.canonicalsWithProvider, hshow.rows, hev.tenantID, hev.source, hev.entityID]
      simp [htenant, htype, hshow.providerIDs]
    have hput : ∀ r : CanonicalRecord, r.key = F.key →
      ((w.claimed ev.key).db.canonical.upsert r).rows = [r] := by
      intro r hr
      show Table.put _ r (w.claimed ev.key).db.canonical.rows = [r]
      rw [hshow.rows, Table.put, if_pos (hshow.key.trans hr.symm)]
    have hresolve : Does env (resolveCanonical ev F.entityType (F.customer ev)) (w.claimed ev.key)
      (.ok c) _ :=
      does_resolve_found hconf.fair hfound
    have hdispatch := does_dispatch_resolved hne hconf hev hreceives hkept.unwritten hput hresolve
    rw [hshow.sourceVersions] at hdispatch
    split_ifs at hdispatch ⊢ with hstale
    · -- an older version: the claim is all that is new
      refine ⟨_, _, does_process_applied h.configured.fair hnew hdispatch hconf.fair, hkept, ?_⟩
      exact claims_claimed hfeed hmem hstale h.claims rfl
    · obtain ⟨w', hdoes, hstored, hprocessed⟩ := hdispatch
      refine ⟨_, w', does_process_applied h.configured.fair hnew hdoes hstored.configured.fair, hstored, ?_⟩
      have hlt : e.sourceVersion < ev.sourceVersion := not_le.mp hstale
      exact claims_claimed hfeed hmem le_rfl (fun x hx hx' => (h.claims x hx hx').trans hlt.le) hprocessed

end OneEvent

/-! ## Any sequence of events -/

def deliverAll (env : Env) (evs : List Event) (w : World) :
    World := evs.foldl (fun w ev => deliver env ev w) w

theorem synced_deliver {r : Except GoError Outcome} (hdoes : Does env (process env ev) w r w')
    (h : F.Synced env w0 evs e w') : F.Synced env w0 evs e (deliver env ev w) :=
  h.of_core (does_handle h.configured.fair hdoes w rfl).2

theorem synced_deliverAll {later : List Event} (hne : F.policies ≠ []) (hfeed : F.Feed evs)
    (hlater : ∀ ev ∈ later, ev ∈ evs) (he : e ∈ evs) (h : F.Synced env w0 evs e w) :
    ∃ newest ∈ evs, (∀ ev ∈ e :: later, ev.sourceVersion ≤ newest.sourceVersion) ∧
      F.Synced env w0 evs newest (deliverAll env later w) := by
  induction later generalizing e w with
  | nil => exact ⟨e, he, fun ev hev => by rw [List.mem_singleton.mp hev], h⟩
  | cons ev later ih =>
    obtain ⟨r, w', hdoes, hnext⟩ := does_next hne hfeed (hlater ev (.head _)) h
    have hsync := synced_deliver hdoes hnext
    have hmem : (if ev.sourceVersion ≤ e.sourceVersion then e else ev) ∈ evs := by
      split_ifs
      · exact he
      · exact hlater ev (.head _)
    obtain ⟨newest, hin, hmax, hall⟩ := ih (fun x hx => hlater x (.tail _ hx)) hmem hsync
    refine ⟨newest, hin, ?_, hall⟩
    have hhead := hmax _ (.head _)
    intro x hx
    rcases List.mem_cons.mp hx with rfl | hx
    · split_ifs at hhead with hle
      · exact hhead
      · exact (not_le.mp hle).le.trans hhead
    · rcases List.mem_cons.mp hx with rfl | hx
      · split_ifs at hhead with hle
        · exact hle.trans hhead
        · exact hhead
      · exact hmax x (.tail _ hx)

theorem customer_eq {ev' : Event} (hev : F.Sent ev) (hev' : F.Sent ev') (h : ev.fields = ev'.fields) :
    F.customer ev = F.customer ev' := by
  unfold Fanout.customer eventCustomer Adapter.normalize
  rw [h, hev.entityID, hev'.entityID]

/-- **Single-source convergence.** The events of one provider record, in whatever order and however often they
    are handled, leave one canonical row that shows the newest of them, and one record with its fields at each
    of the destinations, of which there is at least one. -/
theorem converges_to_newest (hne : F.policies ≠ []) (hconf : F.Configured env w) {evs : List Event}
    (hstart : Start evs w) (hfeed : F.Feed evs) {newest : Event} (hnewest : newest ∈ evs)
    (hmax : ∀ ev ∈ evs, ev.sourceVersion ≤ newest.sourceVersion) :
    ∃ c, F.Showing w newest c (deliverAll env evs w) := by
  obtain ⟨first, later, rfl⟩ : ∃ first later, evs = first :: later :=
    List.exists_cons_of_ne_nil (List.ne_nil_of_mem hnewest)
  obtain ⟨r, w', hdoes, hfirst⟩ := does_first hne hconf hstart hfeed (.head _)
  obtain ⟨e, he, hle, hsynced⟩ := synced_deliverAll hne hfeed (fun ev hev => .tail _ hev)
    (.head _) (synced_deliver hdoes hfirst)
  obtain ⟨c, hshow, _⟩ := hsynced.row
  -- the event shown has the highest version, which fixes the payload
  have hversion : e.sourceVersion = newest.sourceVersion := le_antisymm (hmax e he) (hle newest hnewest)
  have hcust : F.customer e = F.customer newest :=
    customer_eq (hfeed.sent e he) (hfeed.sent newest hnewest)
      (hfeed.fields_of_version e he newest hnewest hversion)
  have hdest := hshow.destinations
  rw [hcust] at hdest
  exact ⟨c, hshow.rows, hshow.key, hshow.providerIDs, by rw [← hcust]; exact hshow.fields,
    hshow.sourceVersions.trans hversion, hdest⟩

/-- Salesforce's record `sf-1`, synchronized to the given destinations. -/
def fromSalesforce (policies : List SyncPolicy) (nodup : (policies.map SyncPolicy.destination).Nodup)
    (other : ∀ p ∈ policies, p.destination ≠ "salesforce") : Fanout where
  tenant := Deployment.tenant
  source := "salesforce"
  recordID := "sf-1"
  src := ⟨salesforce, sf⟩
  policies := policies
  remote _ := ⟨hubspot, hub⟩
  nodup := nodup
  other := other

def toHubSpot : Fanout := fromSalesforce [policy "salesforce" "hubspot"] (by decide) (by decide)

def annMoved : Event := sfEvent "e2" .updated 2 2 (record salesforce "Ann" "Lee" "ann@y")

theorem feed_ann (htenant : F.tenant = Deployment.tenant) (hsource : F.source = "salesforce")
    (hid : F.recordID = "sf-1") (hsrc : F.src.adapter = salesforce) (hevs : ∀ ev ∈ evs, ev = annCreated ∨
      ev = annMoved) : F.Feed evs := by
  refine ⟨fun ev hev => ?_, fun ev hev ev' hev' h => ?_, fun ev hev ev' hev' h => ?_⟩
  · rcases hevs ev hev with rfl | rfl
    all_goals
      refine ⟨htenant.symm, hsource.symm, hid.symm, by decide, rfl, by decide, _, rfl, List.cons_ne_nil _ _, ?_⟩
      rw [hsrc]
      rfl
  · rcases hevs ev hev with rfl | rfl <;> rcases hevs ev' hev' with rfl | rfl <;>
      first | rfl | exact absurd h (by decide)
  · rcases hevs ev hev with rfl | rfl <;> rcases hevs ev' hev' with rfl | rfl <;>
      first | rfl | exact absurd h (by decide)

theorem converges_ann : Start [annMoved, annCreated, annMoved] (world toHubSpot.policies) ∧
      ∃ c, toHubSpot.Showing (world toHubSpot.policies) annMoved c
        (deliverAll Deployment.env [annMoved, annCreated, annMoved] (world toHubSpot.policies)) := by
  have hconf : toHubSpot.Configured Deployment.env (world toHubSpot.policies) := by
    refine ⟨⟨fun _ => ⟨0, rfl⟩, fun _ => rfl⟩, ⟨_, rfl, rfl, rfl⟩, fun p hp => ?_, rfl⟩
    rw [List.mem_singleton.mp hp]
    exact ⟨_, rfl, rfl, rfl⟩
  have hstart : Start [annMoved, annCreated, annMoved] (world toHubSpot.policies) :=
    ⟨rfl, rfl, fun _ _ => rfl⟩
  have hfeed : toHubSpot.Feed [annMoved, annCreated, annMoved] := by
    refine feed_ann rfl rfl rfl rfl (fun ev hev => ?_)
    simp only [List.mem_cons, List.not_mem_nil, or_false] at hev
    rcases hev with rfl | rfl | rfl
    · exact .inr rfl
    · exact .inl rfl
    · exact .inr rfl
  refine ⟨hstart, converges_to_newest (List.cons_ne_nil _ _) hconf hstart hfeed (.head _) (fun ev hev => ?_)⟩
  simp only [List.mem_cons, List.not_mem_nil, or_false] at hev
  rcases hev with rfl | rfl | rfl <;> decide

def toNowhere : Fanout := fromSalesforce [] (by decide) (by decide)

/-- **Without a destination nothing is recorded**: an event that no policy matches is let go, and no canonical
    row is made for it. -/
theorem no_destination_no_row : toNowhere.Configured Deployment.env (world []) ∧ Start [annCreated]
      (world []) ∧ toNowhere.Feed [annCreated] ∧
      (deliverAll Deployment.env [annCreated] (world [])).db.canonical.rows = [] := by
  refine ⟨⟨⟨fun _ => ⟨0, rfl⟩, fun _ => rfl⟩, ⟨_, rfl, rfl, rfl⟩, fun p hp => ?_, rfl⟩,
    ⟨rfl, rfl, fun _ _ => rfl⟩, ?_, rfl⟩
  · cases hp
  · exact feed_ann rfl rfl rfl rfl (fun ev hev => .inl (List.mem_singleton.mp hev))

end SyncForge.Convergence
