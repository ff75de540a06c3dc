import SyncForge.Conflict.History
import SyncForge.Ordering.Fate
import SyncForge.Deployment

/-!
# `Worker.Agreement` — do both sides show the same customer?

An upsert of provider `A` is applied and written to provider `B`. `A` is not written, so it keeps the customer
of its own event, and a record that was deleted at `B` stays deleted. All agree exactly if the event wins
every field it disputes and `B`'s record is not deleted.
-/

namespace SyncForge.Agreement

open Effect Effect.Prog Relational SyncForge.Ordering
open Deployment (hub policy record sf world)

def shown (a : Adapter) (r : SimRecord) (f : Field) : String := Adapter.s (r.data.get (a.native f))

def text (c : CanonicalRecord) (f : Field) : String := ((c.fields f).getD .nil).text

/-! ## The record an event is about -/

section Resolved

variable {w : World} {a : Adapter} {ev : Event} {c : CanonicalRecord} {T : CanonicalTable}

def resolved (w : World) (a : Adapter) (ev : Event) : CanonicalRecord :=
  match matched w a ev with
  | c :: _ => c
  | [] =>
    match linkable w a ev with
    | some c => c.setProviderID ev.source ev.entityID
    | none => freshRecord a ev

theorem resolution_eq (h : Resolution w a ev c T) (hunique : (matched w a ev).length ≤ 1) :
    c = resolved w a ev := by
  unfold resolved
  cases h with
  | byID hc =>
    cases hrows : matched w a ev with
    | nil =>
      rw [hrows] at hc
      cases hc
    | cons r rest =>
      rw [hrows] at hc hunique
      have hrest : rest = [] := List.length_eq_zero_iff.mp (by simpa using hunique)
      rw [hrest] at hc
      exact List.mem_singleton.mp hc
  | byEmail hnone hlink => rw [hnone, hlink]
  | fresh hnone hnolink => rw [hnone, hnolink]

end Resolved

/-! ## One destination -/

section Destination

variable {env : Env} {db : Database} {tenant d : String} {cust : Customer} {dst dst' : Remote}
variable {c c' : CanonicalRecord} {sims sims' : Sims} {p : SyncPolicy}

def LiveCopy (sims : Sims) (dst : Remote) (d : String) (c : CanonicalRecord) : Prop :=
  c.providerID d = "" ∨ ∃ r, (sims dst.endpoint).records.get? (c.providerID d) = some r ∧ r.deleted = false

theorem written_single (h : Written env db tenant cust c sims [p] c' sims') :
    ∃ dst, Connected env db tenant p.destination dst ∧ WrittenTo cust dst p.destination c sims c' sims' := by
  generalize hps : [p] = ps at h
  cases h with
  | nil => cases hps
  | @snoc ps q dst c1 _ sims1 _ hbefore hdst hto =>
    obtain ⟨rfl, hq⟩ := List.append_eq_singleton_iff.mp hps.symm |>.resolve_right (fun h => by cases h.2)
    obtain rfl : q = p := by simpa using hq
    -- nothing was written before the only destination
    generalize hnil : ([] : List SyncPolicy) = qs at hbefore
    cases hbefore with
    | nil => exact ⟨dst, hdst, hto⟩
    | snoc _ _ _ => exact absurd hnil.symm (by simp)

theorem connected_eq (h : Connected env db tenant d dst) (hreach : Reaches env db tenant d dst') :
    dst = dst' := by
  obtain ⟨conn, hconn, hadapter⟩ := h
  obtain ⟨conn', hone, hreg, hep⟩ := hreach
  rw [hone] at hconn
  obtain rfl := List.mem_singleton.mp hconn
  unfold adapterFor at hadapter
  rw [hreg] at hadapter
  have heq := Except.ok.inj hadapter
  rw [← heq, ← hep]

/-- **What a written destination shows**: the customer, and a deleted record stays deleted. -/
theorem writtenTo_shows (h : WrittenTo cust dst d c sims c' sims') :
    ∃ id r, c'.providerIDs d = some id ∧ (sims' dst.endpoint).records.get? id = some r ∧
      (∀ f, shown dst.adapter r f = cust.get f) ∧ (r.deleted = false ↔ LiveCopy sims dst d c) := by
  cases h with
  | created hempty =>
    refine ⟨_, ((sims dst.endpoint).insert (dst.adapter.denormalize cust).data).1,
      CanonicalRecord.setProviderID_self .., ?_, fun f => ?_, ⟨fun _ => .inl hempty, fun _ => rfl⟩⟩
    · rw [Function.update_self]
      exact Table.get?_upsert_self
    · show Adapter.s (Data.get (dst.adapter.denormalize cust).data _) = cust.get f
      rw [Data.get, Adapter.get_denormalize]
      rfl
  | @updated r hne hupdate =>
    obtain ⟨rec_, s'⟩ := r
    obtain ⟨old, hold, hrec, hs'⟩ := SimServer.update_eq_some hupdate
    have hid : c.providerIDs d = some (c.providerID d) := by
      cases hids : c.providerIDs d with
      | none => exact absurd (by rw [CanonicalRecord.providerID, hids]; rfl) hne
      | some id => rw [CanonicalRecord.providerID, hids]; rfl
    have hkey : rec_.id = c.providerID d := by
      have hid : old.id = c.providerID d := Table.get?_key hold
      rwa [hrec]
    refine ⟨_, rec_, hid, ?_, fun f => ?_, ?_⟩
    · rw [Function.update_self, hs', ← hkey]
      exact Table.get?_upsert_self
    · rw [hrec]
      exact Adapter.s_get_denormalize_union cust old.data f
    · have hdeleted : rec_.deleted = old.deleted := by rw [hrec]
      rw [hdeleted]
      constructor
      · exact fun hlive => .inr ⟨old, hold, hlive⟩
      · rintro (hempty | ⟨r, hr, hlive⟩)
        · exact absurd hempty hne
        · rwa [Option.some.inj (hold.symm.trans hr)]

theorem writtenTo_other (h : WrittenTo cust dst d c sims c' sims') {ep : Endpoint} (hep : ep ≠ dst.endpoint) :
    sims' ep = sims ep := by
  cases h with
  | created _ => exact Function.update_of_ne hep ..
  | updated _ _ => exact Function.update_of_ne hep ..

end Destination

/-! ## The merged customer -/

section Merged

variable {w : World} {a : Adapter} {ev : Event} {c : CanonicalRecord} {p : SyncPolicy} {f : Field}

/-- The event as `Merge` sees its origin under the policy. -/
def origin (ev : Event) (p : SyncPolicy) : Conflict.Provenance :=
  ⟨ev.source, ev.sourceVersion, ev.occurredAt, p.sourcePriority⟩

def Automatic (strategy : Conflict.Strategy) : Prop :=
  strategy = .lastWriteWins ∨ strategy = .sourcePriority ∨ strategy = .fieldMerge

def Undisputed (p : SyncPolicy) (a : Adapter) (ev : Event) (c : CanonicalRecord) (f : Field) : Prop :=
  ∀ owner, c.fieldProvenance f = some owner →
    owner.source = ev.source ∨ text c f = (customerOf a ev).get f ∨
      Conflict.Overrules p.conflictStrategy owner (origin ev p)

theorem Automatic.ne_manual {strategy : Conflict.Strategy} (h : Automatic strategy) : strategy ≠ .manual := by
  rcases h with rfl | rfl | rfl <;> simp

theorem Automatic.normalize {strategy : Conflict.Strategy} (h : Automatic strategy) :
    Conflict.normalizeStrategy strategy = strategy := by
  rcases h with rfl | rfl | rfl <;> rfl

theorem Automatic.strategyOf (h : Automatic p.conflictStrategy) : strategyOf [p] = p.conflictStrategy := by
  unfold SyncForge.strategyOf
  rcases h with h | h | h <;> simp [h]

section

variable (hpolicy : policiesFor w a ev = [p]) (hauto : Automatic p.conflictStrategy)
include hpolicy hauto

theorem mergedInto_eq :
    mergedInto w a ev c = Conflict.merge p.conflictStrategy c.fields c.fieldProvenance
      (customerOf a ev).fieldEntries (origin ev p) := by
  rw [mergedInto, hpolicy, mergedWith, hauto.strategyOf]
  rfl

theorem not_manual : (mergedInto w a ev c).manual = false := by
  rw [mergedInto_eq hpolicy hauto, Bool.eq_false_iff]
  exact fun h => hauto.ne_manual (Conflict.merge_manual.mp h).2

theorem merged_get_iff : (mergedCustomer w a ev c).get f = (customerOf a ev).get f ↔
    Undisputed p a ev c f := by
  have hfield : (mergedInto w a ev c).fields f
    = some (Conflict.outcome p.conflictStrategy c.fields c.fieldProvenance
      (origin ev p) f (.str ((customerOf a ev).get f))).1 := by
    rw [mergedInto_eq hpolicy hauto]
    refine (Conflict.merge_of_lookup ?_ (@Customer.lookup_fieldEntries LinearOrder.toDecidableEq _ f)).1
    rw [← mergedInto_eq hpolicy hauto]
    exact not_manual hpolicy hauto
  rw [mergedCustomer, Customer.get_fromFields, hfield, Option.getD_some]
  cases howner : c.fieldProvenance f with
  | none =>
    -- a field nobody owns
    rw [Conflict.outcome_new howner]
    refine ⟨fun _ owner h => ?_, fun _ => rfl⟩
    rw [howner] at h
    cases h
  | some owner =>
    have honly : Undisputed p a ev c f ↔ owner.source = ev.source ∨ text c f = (customerOf a ev).get f ∨
        Conflict.Overrules p.conflictStrategy owner (origin ev p) := by
      constructor
      · exact fun h => h owner howner
      · rintro h owner' howner'
        cases howner.symm.trans howner'
        exact h
    rw [honly]
    by_cases htakes : Conflict.Takes p.conflictStrategy ((c.fields f).getD default) owner
        (.str ((customerOf a ev).get f)) (origin ev p)
    · rw [Conflict.outcome_taken rfl howner htakes]
      refine ⟨fun _ => ?_, fun _ => rfl⟩
      rcases htakes with h | h | h
      · exact .inl h
      · refine .inr (.inl ?_)
        have htext := congrArg Any.text h
        exact htext
      · rw [hauto.normalize] at h
        exact .inr (.inr h)
    · rw [Conflict.outcome_kept hauto.ne_manual rfl howner htakes]
      refine ⟨fun h => .inr (.inl h), ?_⟩
      rintro (h | h | h)
      · exact absurd (.inl h) htakes
      · exact h
      · rw [← hauto.normalize] at h
        exact absurd (.inr (.inr h)) htakes

end

end Merged

/-! ## Both sides -/

/-- An upsert of `src` under the one policy to `dst`, with an automatic strategy, and `src`'s record as the
    event describes it. -/
structure Setting (env : Env) (w : World) (ev : Event) (src dst : Remote) (p : SyncPolicy) : Prop where
  webhook : ev.provenance = {}
  upsert : ev.eventType ≠ .deleted
  source : Reaches env w.db ev.tenantID ev.source src
  destination : Reaches env w.db ev.tenantID p.destination dst
  distinct : p.destination ≠ ev.source
  policies : policiesFor w src.adapter ev = [p]
  automatic : Automatic p.conflictStrategy
  unique : (matched w src.adapter ev).length ≤ 1
  unchanged : ∃ r, (w.sims src.endpoint).records.get? ev.entityID = some r ∧
    ∀ f, shown src.adapter r f = (customerOf src.adapter ev).get f

/-- The canonical record with key `k` and the two providers' records carry the same five values, and `dst`'s
    record is not deleted. -/
def Agree (k : CanonicalKey) (ev : Event) (src dst : Remote) (d : String) (w : World) : Prop :=
  ∃ c rA rB id, w.db.canonical.get? k = some c ∧ (w.sims src.endpoint).records.get? ev.entityID = some rA ∧
    c.providerIDs d = some id ∧ (w.sims dst.endpoint).records.get? id = some rB ∧ rB.deleted = false ∧
    ∀ f, c.fields f = some (.str (shown src.adapter rA f)) ∧ shown dst.adapter rB f = shown src.adapter rA f

section Sides

variable {env : Env} {w : World} {ev : Event} {src dst : Remote} {p : SyncPolicy}

theorem reaches_registry {tenant provider : String} {db : Database} {remote : Remote}
    (h : Reaches env db tenant provider remote) : env.registry provider = some remote.adapter := by
  obtain ⟨conn, hconn, hreg, _⟩ := h
  have hmem : conn ∈ db.connectionsOf tenant provider := by
    rw [hconn]
    exact .head _
  rwa [← (of_decide_eq_true (List.mem_filter.mp hmem).2).2]

theorem agree_iff_of_written (S : Setting env w ev src dst p) {c' : CanonicalRecord} {u : World}
    (hwritten : Written env w.db ev.tenantID (mergedCustomer w src.adapter ev (resolved w src.adapter ev))
      { resolved w src.adapter ev with
        fieldProvenance := (mergedInto w src.adapter ev (resolved w src.adapter ev)).provenance }
      w.sims (policiesFor w src.adapter ev) c' u.sims) {T : CanonicalTable}
    (hT : u.db.canonical
      = T.upsert (appliedRecord ev (mergedCustomer w src.adapter ev (resolved w src.adapter ev)) c')) :
    Agree (resolved w src.adapter ev).key ev src dst p.destination u ↔
      (∀ f, Undisputed p src.adapter ev (resolved w src.adapter ev) f) ∧
        LiveCopy w.sims dst p.destination (resolved w src.adapter ev) := by
  have hrow : u.db.canonical.get? (resolved w src.adapter ev).key
      = some (appliedRecord ev (mergedCustomer w src.adapter ev (resolved w src.adapter ev)) c') := by
    rw [hT, ← hwritten.applied_key]
    exact Table.get?_upsert_self
  rw [S.policies] at hwritten
  obtain ⟨dst', hdst, hto⟩ := written_single hwritten
  obtain rfl := connected_eq hdst S.destination
  obtain ⟨id, rB, hid, hB, hshown, hlive⟩ := writtenTo_shows hto
  obtain ⟨rA, hA, hevent⟩ := S.unchanged
  -- the source is another provider, so it was not written
  have hep : src.endpoint ≠ dst'.endpoint := by
    intro heq
    have hname := congrArg Endpoint.provider heq
    rw [S.source.provider, hdst.provider] at hname
    exact S.distinct hname.symm
  have hA' : (u.sims src.endpoint).records.get? ev.entityID = some rA := by
    rwa [writtenTo_other hto hep]
  have hcopy : LiveCopy w.sims dst' p.destination (resolved w src.adapter ev) ↔ rB.deleted = false :=
    hlive.symm
  rw [hcopy]
  constructor
  · rintro ⟨c1, rA1, rB1, id1, hc1, hrA1, hid1, hrB1, hlive1, hvalues⟩
    cases hrow.symm.trans hc1
    cases hA'.symm.trans hrA1
    cases hid.symm.trans hid1
    cases hB.symm.trans hrB1
    refine ⟨fun f => (merged_get_iff S.policies S.automatic).mp ?_, hlive1⟩
    rw [← hshown f, (hvalues f).2, hevent f]
  · rintro ⟨hwins, hlive1⟩
    refine ⟨_, rA, rB, id, hrow, hA', hid, hB, hlive1, fun f => ?_⟩
    have hget := (merged_get_iff S.policies S.automatic).mpr (hwins f)
    refine ⟨?_, by rw [hshown f, hget, hevent f]⟩
    show some (Any.str (Customer.get _ f)) = _
    rw [hget, hevent f]

/-- **Both sides after an apply.** Whatever else fails, an upsert that is neither stale nor an echo and that
    `Process` finishes leaves canonical record, source and destination in agreement exactly if the event
    disputes no field in vain and the destination's record is not deleted. -/
theorem sides_agree_iff (S : Setting env w ev src dst p)
    (hstale : (resolved w src.adapter ev).sourceVersions ev.source < ev.sourceVersion)
    (hecho : (w.db.outbound ⟨ev.tenantID, src.adapter.canonicalEntityType, (resolved w src.adapter ev).entityID,
        ev.source⟩).map OutboundWrite.fingerprint ≠ some ((customerOf src.adapter ev).fingerprint env.hash))
    (hok : (run (World.handle env) (process env ev) w).1 = .ok .applied) :
    Agree (resolved w src.adapter ev).key ev src dst p.destination (run (World.handle env) (process env ev) w).2 ↔
      (∀ f, Undisputed p src.adapter ev (resolved w src.adapter ev) f) ∧
        LiveCopy w.sims dst p.destination (resolved w src.adapter ev) := by
  obtain ⟨c, T, hres, ⟨_, hv⟩ | ⟨_, c', hwritten, hT⟩⟩ :=
    upsert_finished S.webhook S.upsert (reaches_registry S.source) (Prod.ext hok rfl)
  · obtain rfl := resolution_eq hres S.unique
    rcases hv with hle | hprint | hmanual
    · exact absurd hstale (not_lt.mpr hle)
    · exact absurd hprint hecho
    · rw [not_manual S.policies S.automatic] at hmanual
      cases hmanual
  · obtain rfl := resolution_eq hres S.unique
    exact agree_iff_of_written S hwritten hT

end Sides

/-! ## An installation with field merge both ways -/

def fieldMerge (source destination : String) : SyncPolicy :=
  { policy source destination with conflictStrategy := .fieldMerge }

def start : World := world [fieldMerge "salesforce" "hubspot", fieldMerge "hubspot" "salesforce"]

def created (ep : Endpoint) (at_ : Time) (data : Data) (w : World) : World :=
  w.announce Deployment.env ep .created (SimServer.insert { w.sims ep with clock := at_ } data)

def edited (ep : Endpoint) (at_ : Time) (id : String) (data : Data) (w : World) : World :=
  match SimServer.update { w.sims ep with clock := at_ } id data with
  | none => w
  | some r => w.announce Deployment.env ep .updated r

def handled (source : String) (w : World) : World :=
  match w.outbox.find? (fun ev => ev.source = source) with
  | none => w
  | some ev => deliver Deployment.env ev { w with outbox := w.outbox.eraseP (fun ev => ev.source = source) }

def annStart : World := created sf 1 (record salesforce "Ann" "Lee" "ann@x") start

/-- Ann is in both systems, and Salesforce sets the company. -/
def moved : World :=
  edited sf 5 "sf-000001" ((∅ : Data).insert (salesforce.native .company) (.str "Zeta"))
    (handled "hubspot" (handled "salesforce" annStart))

def movedEvent : Event := moved.outbox.headD Deployment.annCreated

theorem moved_setting : Setting Deployment.env moved movedEvent ⟨salesforce, sf⟩ ⟨hubspot, hub⟩
      (fieldMerge "salesforce" "hubspot") where
  webhook := by decide +kernel
  upsert := by decide +kernel
  source := ⟨⟨Deployment.tenant, "salesforce", "http://sf", ""⟩, by decide +kernel, rfl, rfl⟩
  destination := ⟨⟨Deployment.tenant, "hubspot", "http://hub", ""⟩, by decide +kernel, rfl, rfl⟩
  distinct := by decide +kernel
  policies := by decide +kernel
  automatic := .inr (.inr rfl)
  unique := by decide +kernel
  unchanged := by
    have hshown : ∀ f, ((moved.sims sf).records.get? movedEvent.entityID).map (fun r => shown salesforce r f)
        = some ((customerOf salesforce movedEvent).get f) := by
      intro f
      cases f <;> decide +kernel
    obtain ⟨r, hr, _⟩ := Option.map_eq_some_iff.mp (hshown .email)
    refine ⟨r, hr, fun f => ?_⟩
    have hf := hshown f
    rw [hr] at hf
    exact Option.some.inj hf

theorem sides_agree_iff_ann :
    moved.db.canonical.rows.map (fun c => (c.providerIDs "salesforce", c.providerIDs "hubspot"))
        = [(some "sf-000001", some "hub-000001")] ∧
      (run (World.handle Deployment.env) (process Deployment.env movedEvent) moved).1 = .ok .applied ∧
      (Agree (resolved moved salesforce movedEvent).key movedEvent ⟨salesforce, sf⟩ ⟨hubspot, hub⟩ "hubspot"
          (run (World.handle Deployment.env) (process Deployment.env movedEvent) moved).2 ↔
        (∀ f, Undisputed (fieldMerge "salesforce" "hubspot") salesforce movedEvent
            (resolved moved salesforce movedEvent) f) ∧
          LiveCopy moved.sims ⟨hubspot, hub⟩ "hubspot" (resolved moved salesforce movedEvent)) := by
  have hok : (run (World.handle Deployment.env) (process Deployment.env movedEvent) moved).1
    = .ok .applied := by
    decide +kernel
  refine ⟨by decide +kernel, hok, ?_⟩
  exact sides_agree_iff moved_setting (by decide +kernel) (by decide +kernel) hok

/-- Ann is in both systems; HubSpot sets the company at time 10, which reaches Salesforce; Salesforce, whose
    clock is behind, sets another one at time 5. -/
def disputed : World :=
  edited sf 5 "sf-000001" ((∅ : Data).insert (salesforce.native .company) (.str "Zeta"))
    (handled "salesforce"
      (handled "hubspot"
        (edited hub 10 "hub-000001" ((∅ : Data).insert (hubspot.native .company) (.str "Acme"))
          (handled "hubspot" (handled "salesforce" annStart)))))

def companies (w : World) : List String × Option String × Option String :=
  (w.db.canonical.rows.map (fun c => text c .company),
    ((w.sims sf).records.get? "sf-000001").map (fun r => shown salesforce r .company),
    ((w.sims hub).records.get? "hub-000001").map (fun r => shown hubspot r .company))

/-- **A field lost is not written back**: the worker applies Salesforce's event, in which HubSpot's company
    wins, and Salesforce keeps the other one. -/
theorem disputed_field_disagrees :
    (disputed.outbox.map (fun ev => (ev.source, ev.sourceVersion, ev.occurredAt))) = [("salesforce", 3, 5)] ∧
      companies disputed = (["Acme"], some "Zeta", some "Acme") ∧
      companies (handled "salesforce" disputed) = (["Acme"], some "Zeta", some "Acme") ∧
      (handled "salesforce" disputed).mutations = disputed.mutations ++ [(hub, .update)] ∧
      (handled "salesforce" disputed).db.canonical.rows.map (fun c => c.sourceVersions "salesforce")
      = [3] := by
  decide +kernel

end SyncForge.Agreement
