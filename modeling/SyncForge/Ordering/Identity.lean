import SyncForge.Ordering.Stale

/-!
# `Ordering.Identity` — which record a provider's id belongs to

A canonical record maps providers to ids: when it is made, when `resolveCanonical` links it by its e-mail
address, and when a destination creates its copy. Can two records claim one id, does a new identity leave the
others alone, and are a provider's records judged by their own versions only?
-/

namespace SyncForge.Ordering

open Effect Effect.Prog Relational Transition
open Deployment (annCreated record sfEvent)
open Table (mem_upsert)
open Function (update update_of_ne update_self)

variable {env : Env} {ev : Event} {w w' : World} {a : Adapter} {c c' : CanonicalRecord} {T : CanonicalTable}
  {r : CanonicalRecord} {v : Verdict} {k : CanonicalKey}

/-! ## One id, one record -/

def NoClash (T : CanonicalTable) (c : CanonicalRecord) : Prop :=
  ∀ r ∈ T.rows, r.key ≠ c.key → r.tenantID = c.tenantID → r.entityType = c.entityType →
    ∀ provider id, c.providerIDs provider = some id → r.providerIDs provider ≠ some id

def UniqueIDs (T : CanonicalTable) : Prop := ∀ c ∈ T.rows, NoClash T c

/-- The id a `Create` that was made returned, and where. -/
def createdID : Entry sig GoError → Option (Endpoint × String)
  | ⟨.create ep _, .ok r⟩ => some (ep, r.id)
  | _ => none

/-- Every `Create` made while the event is handled returns an id that no canonical record maps yet. -/
def FreshIDs (env : Env) (w : World) (ev : Event) : Prop :=
  ∀ e ∈ trace (World.handle env) (handle env (.event ev)) w, ∀ x ∈ createdID e, ∀ c ∈ w.db.canonical.rows,
    c.providerIDs x.1.provider ≠ some x.2

instance (env : Env) (w : World) (ev : Event) : Decidable (FreshIDs env w ev) := by
  unfold FreshIDs
  infer_instance

/-- A call leaves the next id of an endpoint alone, or is a `Create` there that returned it. -/
theorem handle_nextID (env : Env) (w : World) (o : Call) (ep : Endpoint) :
    ((World.handle env o w).2.sims ep).nextID = (w.sims ep).nextID ∧
        ((World.handle env o w).2.sims ep).genID = (w.sims ep).genID ∨
      createdID ⟨o, (World.handle env o w).1⟩ = some (ep, (w.sims ep).genID) := by
  by_cases hprovider : o.isProvider = false
  · rw [World.handle_sims hprovider]
    exact .inl ⟨rfl, rfl⟩
  · have hother : ∀ {at_ : Endpoint} {s : SimServer}, s.nextID = (w.sims at_).nextID →
        s.genID = (w.sims at_).genID → (update w.sims at_ s ep).nextID = (w.sims ep).nextID ∧
          (update w.sims at_ s ep).genID = (w.sims ep).genID := by
      intro at_ s hnext hgen
      by_cases hep : ep = at_
      · rw [hep, update_self]
        exact ⟨hnext, hgen⟩
      · rw [update_of_ne hep]
        exact ⟨rfl, rfl⟩
    cases o with
    | create at_ data =>
      rw [World.handle_create_eq]
      rcases World.requested_cases env w at_ .create .created SimServer.providerRecord (some ((w.sims at_).insert data)) with
        ⟨e, h⟩ | ⟨x, hx, h⟩
      · rw [h]
        exact .inl ⟨rfl, rfl⟩
      · rw [h]
        cases hx
        by_cases hep : ep = at_
        · subst hep
          exact .inr rfl
        · refine .inl ?_
          show (update w.sims at_ _ ep).nextID = _ ∧ (update w.sims at_ _ ep).genID = _
          rw [update_of_ne hep]
          exact ⟨rfl, rfl⟩
    | update at_ id data =>
      rw [World.handle_update_eq]
      rcases World.requested_cases env w at_ .update .updated SimServer.providerRecord ((w.sims at_).update id data) with
        ⟨e, h⟩ | ⟨⟨x, s⟩, hx, h⟩
      · rw [h]
        exact .inl ⟨rfl, rfl⟩
      · rw [h]
        obtain ⟨old, -, -, rfl⟩ := SimServer.update_eq_some hx
        exact .inl (hother rfl rfl)
    | delete at_ id =>
      rw [World.handle_delete_eq]
      rcases World.requested_cases env w at_ .delete .deleted (fun _ => ()) ((w.sims at_).softDelete id) with
        ⟨e, h⟩ | ⟨⟨x, s⟩, hx, h⟩
      · rw [h]
        exact .inl ⟨rfl, rfl⟩
      · rw [h]
        obtain ⟨old, -, -, rfl⟩ := SimServer.softDelete_eq_some hx
        exact .inl (hother rfl rfl)
    | _ => exact absurd rfl hprovider

theorem exists_created {α : Type} {p : Sync α} {ep : Endpoint}
    (h : (w.sims ep).nextID < ((run (World.handle env) p w).2.sims ep).nextID) :
    ∃ e ∈ trace (World.handle env) p w, createdID e = some (ep, (w.sims ep).genID) := by
  induction p generalizing w with
  | pure | throw => exact absurd h (lt_irrefl _)
  | call o k ih =>
    rcases handle_nextID env w o ep with ⟨hnext, hgen⟩ | hcreated
    · rw [← hnext] at h
      obtain ⟨e, he, hid⟩ := ih _ h
      exact ⟨e, .tail _ he, hgen ▸ hid⟩
    · exact ⟨_, .head _, hcreated⟩

theorem uniqueIDs_upsert (h : UniqueIDs T) (hc : NoClash T c) : UniqueIDs (T.upsert c) := by
  intro r hr r' hr' hkey htenant htype provider id hid
  rcases mem_upsert.mp hr with rfl | ⟨hold, hne⟩
  · rcases mem_upsert.mp hr' with rfl | ⟨hold', _⟩
    · exact absurd rfl hkey
    · exact hc r' hold' hkey htenant htype provider id hid
  · rcases mem_upsert.mp hr' with rfl | ⟨hold', _⟩
    · -- the new row against an old one, read the other way round
      intro hid'
      exact hc r hold hne htenant.symm htype.symm provider id hid' hid
    · exact h r hold r' hold' hkey htenant htype provider id hid

theorem noClash_congr (h : NoClash T c) (hkey : c'.key = c.key) (hids : c'.providerIDs = c.providerIDs) :
    NoClash T c' := by
  intro r hr hne ht he provider id hid
  rw [hids] at hid
  rw [hkey] at hne
  have htenant : c'.tenantID = c.tenantID := congrArg CanonicalKey.tenantID hkey
  have htype : c'.entityType = c.entityType := congrArg CanonicalKey.entityType hkey
  exact h r hr hne (ht.trans htenant) (he.trans htype) provider id hid

theorem Resolution.other (h : Resolution w a ev c T) (hr : r ∈ T.rows) (hne : r.key ≠ c.key) :
    r ∈ w.db.canonical.rows := by
  cases h with
  | byID _ => exact hr
  | byEmail _ _ =>
    rcases mem_upsert.mp hr with rfl | ⟨hr, _⟩
    · exact absurd rfl hne
    · exact hr
  | fresh => exact hr

theorem not_mapped (h : matched w a ev = []) (hr : r ∈ w.db.canonical.rows)
    (htenant : r.tenantID = ev.tenantID) (htype : r.entityType = a.canonicalEntityType) :
    r.providerIDs ev.source ≠ some ev.entityID := by
  intro hid
  have hmem : r ∈ matched w a ev := List.mem_filter.mpr ⟨hr, decide_eq_true ⟨htenant, htype, hid⟩⟩
  rw [h] at hmem
  cases hmem

theorem noClash_setProviderID (hc : NoClash w.db.canonical c) (hnone : matched w a ev = [])
    (htenant : c.tenantID = ev.tenantID) (htype : c.entityType = a.canonicalEntityType) :
    NoClash w.db.canonical (c.setProviderID ev.source ev.entityID) := by
  intro r hr hkey ht he provider id hid
  by_cases hp : provider = ev.source
  · subst hp
    rw [CanonicalRecord.setProviderID_self] at hid
    rw [← hid]
    exact not_mapped hnone hr (ht.trans htenant) (he.trans htype)
  · rw [CanonicalRecord.setProviderID_ne _ hp] at hid
    exact hc r hr hkey ht he provider id hid

theorem Resolution.unique (h : Resolution w a ev c T) (hu : UniqueIDs w.db.canonical) :
    UniqueIDs T ∧ NoClash w.db.canonical c := by
  have hkey := h.key
  have htenant : c.tenantID = ev.tenantID := congrArg CanonicalKey.tenantID hkey
  have htype : c.entityType = a.canonicalEntityType := congrArg CanonicalKey.entityType hkey
  cases h with
  | byID hc => exact ⟨hu, hu c (List.mem_filter.mp hc).1⟩
  | byEmail hnone hlink =>
    have hclash := noClash_setProviderID (hu _ (Table.mem_of_get? (linkable_row hlink))) hnone htenant htype
    exact ⟨uniqueIDs_upsert hu hclash, hclash⟩
  | fresh hnone _ =>
    have hempty : NoClash w.db.canonical
        { tenantID := ev.tenantID, entityType := a.canonicalEntityType, entityID := ev.entityID } := by
      intro r _ _ _ _ provider id hid
      cases hid
    exact ⟨hu, noClash_setProviderID hempty hnone rfl rfl⟩

theorem noClash_extended (hc : NoClash T c) (hext : Extended w.sims w'.sims c c')
    (hfresh : ∀ ep : Endpoint, (w.sims ep).nextID < (w'.sims ep).nextID → ∀ r ∈ T.rows, r.key ≠ c.key →
      r.providerIDs ep.provider ≠ some (w.sims ep).genID) : NoClash T c' := by
  have hkey : c'.key = c.key := by rw [hext.columns]; rfl
  have htenant : c'.tenantID = c.tenantID := congrArg CanonicalKey.tenantID hkey
  have htype : c'.entityType = c.entityType := congrArg CanonicalKey.entityType hkey
  intro r hr hne ht he provider id hid
  rw [hkey] at hne
  rcases hext.ids provider with hsame | ⟨_, ep, rfl, hgen, hlt⟩
  · rw [hsame] at hid
    exact hc r hr hne (ht.trans htenant) (he.trans htype) provider id hid
  · rw [← hid, hgen]
    exact hfresh ep hlt r hr hne

theorem Fate.unique (h : Fate env w ev v w') (hu : UniqueIDs w.db.canonical)
    (hfresh : ∀ ep : Endpoint, (w.sims ep).nextID < (w'.sims ep).nextID → ∀ r ∈ w.db.canonical.rows,
      r.providerIDs ep.provider ≠ some (w.sims ep).genID) : UniqueIDs w'.db.canonical := by
  cases h with
  | idle _ hstill => rw [hstill.canonical]; exact hu
  | ignored _ _ _ hstill => rw [hstill.canonical]; exact hu
  | dropped _ _ hres hT _ _ _ => rw [hT]; exact (hres.unique hu).1
  | interrupted _ _ hres _ hT _ => rw [hT]; exact (hres.unique hu).1
  | applied _ _ hres _ _ hwritten hT _ _ =>
    obtain ⟨huT, hclash⟩ := hres.unique hu
    rw [hT]
    refine uniqueIDs_upsert huT (noClash_congr (noClash_extended ?_ hwritten.extended.1 ?_) rfl rfl)
    · exact fun r hr hne => hclash r (hres.other hr hne) hne
    · exact fun ep hlt r hr hne => hfresh ep hlt r (hres.other hr hne)
  | undeleted _ _ _ _ hT _ => rw [hT]; exact hu
  | deleted _ _ hc _ hT _ =>
    rw [hT]
    exact uniqueIDs_upsert hu (noClash_congr (hu _ (List.mem_filter.mp hc).1) rfl rfl)

def Arrives (env : Env) (w : World) (ev : Event) : Prop := ev.provenance = {} ∧ FreshIDs env w ev

instance (env : Env) (w : World) (ev : Event) : Decidable (Arrives env w ev) :=
  inferInstanceAs (Decidable (ev.provenance = {} ∧ FreshIDs env w ev))

/-- **A provider's id belongs to one record.** Created, updated and deleted webhook events are handled one
    after the other from an empty store, in any order, with any repetitions and any calls failing:
    `GetCanonicalByProvider` never has more than one row to choose from. -/
theorem provider_ids_unique {evs : List Event} (hempty : w.db.canonical = .empty)
    (hrun : Run (fun w ev => some (deliver env ev w)) (Arrives env) w evs w')
    (tenant entityType provider id : String) :
    (w'.db.canonicalsWithProvider tenant entityType provider id).length ≤ 1 := by
  have hunique : UniqueIDs w'.db.canonical := by
    refine hrun.invariant (P := fun _ t => UniqueIDs t.db.canonical) ?_ ?_
    · rw [hempty]
      intro c hc
      cases hc
    · intro _ t ev u ht hok hstep
      cases hstep
      obtain ⟨v, hfate⟩ := deliver_fate hok.1
      refine hfate.unique ht (fun ep hlt r hr => ?_)
      obtain ⟨e, he, hid⟩ := exists_created hlt
      exact hok.2 e he _ hid r hr
  -- two rows with the id would be one row, and rows are not repeated
  have hsame : ∀ r ∈ w'.db.canonicalsWithProvider tenant entityType provider id,
      ∀ r' ∈ w'.db.canonicalsWithProvider tenant entityType provider id, r = r' := by
    intro r hr r' hr'
    obtain ⟨hr, hmap⟩ := List.mem_filter.mp hr
    obtain ⟨hr', hmap'⟩ := List.mem_filter.mp hr'
    obtain ⟨ht, he, hid⟩ := of_decide_eq_true hmap
    obtain ⟨ht', he', hid'⟩ := of_decide_eq_true hmap'
    by_contra hne
    have hkey : r'.key ≠ r.key := by
      intro hkey
      have hrow := Table.get?_of_mem hr'
      rw [hkey, Table.get?_of_mem hr] at hrow
      exact hne (Option.some.inj hrow)
    exact hunique r hr r' hr' hkey (ht'.trans ht.symm) (he'.trans he.symm) provider id hid hid'
  have hnodup : (w'.db.canonicalsWithProvider tenant entityType provider id).Nodup :=
    (w'.db.canonical.nodup.of_map).filter _
  cases hrows : w'.db.canonicalsWithProvider tenant entityType provider id with
  | nil => simp
  | cons r rest =>
    cases rest with
    | nil => simp
    | cons r' rest =>
      rw [hrows] at hsame hnodup
      have hrr' : r = r' := hsame r (by simp) r' (by simp)
      rw [hrr'] at hnodup
      exact absurd hnodup (by simp)

def bobCreated : Event := { sfEvent "e2" .created 1 2
    (record salesforce "Bob" "Lee" "bob@x") with entityID := "sf-2" }

/-- Ann is created, Bob too, Ann's address becomes Bob's, her first event is repeated and she is deleted. -/
def arrivals : List Event :=
  [annCreated, bobCreated, sfEvent "e3" .updated 2 3 (record salesforce "Ann" "Lee" "bob@x"), annCreated,
    sfEvent "e4" .deleted 3 4 ∅]

theorem provider_ids_unique_arrivals : ∃ w', Run (fun w ev => some (deliver Deployment.env ev w))
      (Arrives Deployment.env) oneWay arrivals w' ∧ w'.db.canonical.rows.length = 2 ∧ ∀ provider id,
        (w'.db.canonicalsWithProvider Deployment.tenant "customer" provider id).length ≤ 1 := by
  refine exists_run (b := fun w ev => decide (Arrives Deployment.env w ev))
    (f := fun w' => decide (w'.db.canonical.rows.length = 2)) (by decide +kernel)
      (fun _ _ h => of_decide_eq_true h)
    (fun w' hrun hrows => ⟨of_decide_eq_true hrows, fun provider id => ?_⟩)
  exact provider_ids_unique rfl hrun _ _ _ _

/-! ## New records -/

def Added (T T' : CanonicalTable) : Prop := T'.rows.length = T.rows.length + 1 ∧ ∀ c ∈ T.rows, c ∈ T'.rows

theorem added_upsert_iff : Added T (T.upsert c) ↔ T.get? c.key = none := by
  constructor
  · rintro ⟨hlen, _⟩
    by_contra hne
    rw [Table.length_upsert, if_neg hne] at hlen
    omega
  · intro hfree
    refine ⟨by rw [Table.length_upsert, if_pos hfree], fun r hr => mem_upsert.mpr (.inr ⟨hr, fun hkey => ?_⟩)⟩
    rw [← hkey, Table.get?_of_mem hr] at hfree
    cases hfree

theorem not_added_self : ¬ Added T T := by
  rintro ⟨hlen, _⟩
  omega

def Covered (w : World) : Prop := ∀ k, w.db.outbound k ≠ none → w.db.canonical.get? (recordKey k) ≠ none

theorem get?_upsert_ne_none (h : T.get? k ≠ none) : (T.upsert c).get? k ≠ none := by
  rw [Table.get?_upsert]
  split
  · simp
  · exact h

theorem Resolution.keeps (h : Resolution w a ev c T) (hk : w.db.canonical.get? k ≠ none) :
    T.get? k ≠ none := by
  cases h with
  | byID _ => exact hk
  | byEmail _ _ => exact get?_upsert_ne_none hk
  | fresh => exact hk

theorem Fate.covered (h : Fate env w ev v w') (hcov : Covered w) : Covered w' := by
  intro k hk
  cases h with
  | idle _ hstill =>
    rw [hstill.outbound] at hk
    rw [hstill.canonical]
    exact hcov k hk
  | ignored _ _ _ hstill =>
    rw [hstill.outbound] at hk
    rw [hstill.canonical]
    exact hcov k hk
  | dropped _ _ hres hT hout _ _ =>
    rw [hout] at hk
    rw [hT]
    exact hres.keeps (hcov k hk)
  | interrupted _ _ hres _ hT hout =>
    rw [hout] at hk
    rw [hT]
    exact hres.keeps (hcov k hk)
  | @applied _ _ c _ _ _ _ hres _ _ hwritten hT hout _ =>
    rw [hT]
    by_cases hkey : recordKey k = c.key
    · -- the record the writes are about is persisted with them
      rw [hkey, Table.get?_upsert, if_pos hwritten.applied_key.symm]
      simp
    · rw [hout k hkey] at hk
      exact get?_upsert_ne_none (hres.keeps (hcov k hk))
  | undeleted _ _ _ _ hT hout =>
    rw [hout] at hk
    rw [hT]
    exact hcov k hk
  | deleted _ _ _ _ hT hout =>
    rw [hout] at hk
    rw [hT]
    exact get?_upsert_ne_none (hcov k hk)

theorem fresh_not_manual (policies : List SyncPolicy) (cust : Customer) :
    (mergedWith ev policies cust (freshRecord a ev)).manual = false := by
  have hown : ∀ f prov, (freshRecord a ev).fieldProvenance f = some prov →
      prov.source = (⟨ev.source, ev.sourceVersion, ev.occurredAt, priorityOf policies⟩ : Conflict.Provenance).source :=
    fun f prov h => by cases h
  exact (Conflict.merge_ownFields hown).1

theorem Resolution.eq_fresh (h : Resolution w a ev c T) (hnone : matched w a ev = [])
    (hnolink : linkable w a ev = none) : c = freshRecord a ev ∧ T = w.db.canonical := by
  cases h with
  | byID hc =>
    rw [hnone] at hc
    cases hc
  | byEmail _ hlink =>
    rw [hnolink] at hlink
    cases hlink
  | fresh => exact ⟨rfl, rfl⟩

def Webhook (_ : World) (ev : Event) : Prop := ev.provenance = {}

/-- **A new identity.** In every store that webhook events can lead to from an empty one, with any calls
    failing, an upsert whose id no record has and whose e-mail address no live record has, and which `Process`
    applies or drops with `nil`, adds one record and leaves all others alone exactly if its version is
    positive and no record has its id as its key. -/
theorem new_identity_adds {evs : List Event}
    (hempty : w.db.canonical = .empty ∧ w.db.outbound = fun _ => none)
    (hrun : Run (fun w ev => some (deliver env ev w)) Webhook w evs w') (hwebhook : ev.provenance = {})
    (hupsert : ev.eventType ≠ .deleted) (ha : env.registry ev.source = some a) (hnone : matched w' a ev = [])
    (hnolink : linkable w' a ev = none)
    (hok : (run (World.handle env) (process env ev) w').1 = .ok .applied) :
    Added w'.db.canonical (run (World.handle env) (process env ev) w').2.db.canonical ↔
      0 < ev.sourceVersion ∧ w'.db.canonical.get? (ownKey a ev) = none := by
  have hcov : Covered w' := by
    refine hrun.invariant (P := fun _ t => Covered t) ?_ ?_
    · intro k hk
      rw [hempty.2] at hk
      exact absurd rfl hk
    · intro _ t ev u ht hok hstep
      cases hstep
      obtain ⟨v, hfate⟩ := deliver_fate hok
      exact hfate.covered ht
  obtain ⟨c, T, hres, ⟨hT, hv⟩ | ⟨hpos, c', hwritten, hT⟩⟩ :=
    upsert_finished hwebhook hupsert ha (Prod.ext hok rfl)
  · obtain ⟨rfl, rfl⟩ := hres.eq_fresh hnone hnolink
    rw [hT]
    refine ⟨fun h => absurd h not_added_self, ?_⟩
    rintro ⟨hpos, hfree⟩
    rcases hv with hstale | hecho | hmanual
    · exact absurd hpos (not_lt.mpr hstale)
    · -- the fingerprint belongs to a record with this key
      refine absurd hfree (hcov ⟨ev.tenantID, _, ev.entityID, ev.source⟩ (fun hout => ?_))
      have hecho : (w'.db.outbound ⟨ev.tenantID, _, ev.entityID, ev.source⟩).map OutboundWrite.fingerprint = _ := hecho
      rw [hout] at hecho
      cases hecho
    · rw [mergedInto, fresh_not_manual] at hmanual
      cases hmanual
  · obtain ⟨rfl, rfl⟩ := hres.eq_fresh hnone hnolink
    have hpos : 0 < ev.sourceVersion := hpos
    rw [hT, added_upsert_iff, hwritten.applied_key]
    exact ⟨fun h => ⟨hpos, h⟩, fun h => h.2⟩

/-- An event of Salesforce's record `id`. -/
def sfUpsert (id eventID : String) (version : Int) (email : String) : Event :=
  { sfEvent eventID .updated version version (record salesforce "Ann" "Lee" email) with
    entityID := id }

def annStored : World := deliver Deployment.env annCreated oneWay

def leeUpserted : Event := sfUpsert "sf-2" "e2" 1 "lee@x"

/-- Ann's record is in the store when another one arrives. -/
theorem new_identity_adds_ann : annStored.db.canonical.rows.length = 1 ∧
    (run (World.handle Deployment.env) (process Deployment.env leeUpserted) annStored).1 = .ok .applied ∧
    (Added annStored.db.canonical
        (run (World.handle Deployment.env) (process Deployment.env leeUpserted) annStored).2.db.canonical ↔
      0 < leeUpserted.sourceVersion ∧ annStored.db.canonical.get? (ownKey salesforce leeUpserted)
      = none) := by
  have hok : (run (World.handle Deployment.env) (process Deployment.env leeUpserted) annStored).1
    = .ok .applied := by
    decide +kernel
  have hnone : (matched annStored salesforce leeUpserted).length = 0 := by decide +kernel
  have hnolink : (linkable annStored salesforce leeUpserted).isNone = true := by decide +kernel
  have hrun : Run (fun w ev => some (deliver Deployment.env ev w)) Webhook oneWay [annCreated] annStored :=
    Run.single (show annCreated.provenance = {} from rfl) rfl
  refine ⟨by decide +kernel, hok, ?_⟩
  exact @new_identity_adds Deployment.env leeUpserted oneWay annStored salesforce _
    ⟨rfl, rfl⟩ hrun rfl nofun rfl (List.length_eq_zero_iff.mp hnone)
      (Option.isNone_iff_eq_none.mp hnolink) hok

/-- The records `sf-1` and `sf-2` had the same e-mail address, so the row `sf-1` now belongs to `sf-2`. -/
def relinked : World :=
  deliver Deployment.env (sfUpsert "sf-2" "e2" 2 "ann@x") (deliver Deployment.env annCreated oneWay)

/-- **A new identity replaces a record**: `sf-1` gets another e-mail address. No record has its id and none
    has the address, and the record made for it takes the place of the row that belongs to `sf-2`. -/
theorem new_identity_replaces : let ev := sfUpsert "sf-1" "e3" 2 "lee@x"
    let after := run (World.handle Deployment.env) (process Deployment.env ev) relinked
    (relinked.db.canonicalsWithProvider Deployment.tenant "customer" "salesforce" "sf-1").length = 0 ∧
      (relinked.db.canonicalsWithEmail Deployment.tenant "customer" "lee@x").length = 0 ∧
      after.1 = .ok .applied ∧
      relinked.db.canonical.rows.map (fun c => (c.entityID, c.providerIDs "salesforce", c.version, c.emailText))
        = [("sf-1", some "sf-2", 2, some "ann@x")] ∧
      after.2.db.canonical.rows.map (fun c => (c.entityID, c.providerIDs "salesforce", c.version, c.emailText))
        = [("sf-1", some "sf-1", 1, some "lee@x")] := by
  decide +kernel

/-! ## Versions of one provider record -/

def Applied (env : Env) (w : World) (ev : Event) : Prop :=
  ∃ c ∈ (deliver env ev w).db.canonical.rows, c ∉ w.db.canonical.rows ∧ c.tenantID = ev.tenantID ∧
    c.providerIDs ev.source = some ev.entityID ∧
    ((∃ cust c0, c = appliedRecord ev cust c0) ∨ ∃ c0, c = tombstoned ev c0)

/-- A webhook event with an id; an upsert whose id no record has does not find, by its e-mail address, a
    record that has a version of its source. -/
structure Separate (env : Env) (w : World) (ev : Event) : Prop where
  webhook : ev.provenance = {}
  id_ne : ev.entityID ≠ ""
  unversioned : ∀ a, env.registry ev.source = some a → ev.eventType ≠ .deleted → matched w a ev = [] →
    ∀ c, linkable w a ev = some c → c.sourceVersions ev.source ≤ 0

/-- Some event of the run was applied that is about the provider's record `id` and has at least this
    version. -/
def AppliedBefore (env : Env) (w : World) (evs : List Event) (tenant source id : String) (version : Int) :
    Prop :=
  ∃ before e after t, evs = before ++ e :: after ∧
    Run (fun w ev => some (deliver env ev w)) (Separate env) w before t ∧ Applied env t e ∧
    e.tenantID = tenant ∧ e.source = source ∧ e.entityID = id ∧ version ≤ e.sourceVersion

def Backed (H : String → String → String → Int → Prop) (c : CanonicalRecord) : Prop :=
  ∀ source, 0 < c.sourceVersions source →
    ∃ id, id ≠ "" ∧ c.providerIDs source = some id ∧ H c.tenantID source id (c.sourceVersions source)

variable {H H' : String → String → String → Int → Prop}

theorem Backed.mono (h : Backed H c) (himp : ∀ tenant source id v, H tenant source id v →
    H' tenant source id v) : Backed H' c := by
  intro source hpos
  obtain ⟨id, hne, hid, hH⟩ := h source hpos
  exact ⟨id, hne, hid, himp _ _ _ _ hH⟩

theorem Resolution.backed (h : Resolution w a ev c T) (hsep : Separate env w ev)
    (ha : env.registry ev.source = some a) (htype : ev.eventType ≠ .deleted)
    (hrows : ∀ r ∈ w.db.canonical.rows, Backed H r) : Backed H c ∧ ∀ r ∈ T.rows, Backed H r := by
  cases h with
  | byID hc => exact ⟨hrows c (List.mem_filter.mp hc).1, hrows⟩
  | @byEmail c hnone hlink =>
    have hc : Backed H (c.setProviderID ev.source ev.entityID) := by
      intro source hpos
      have hne : source ≠ ev.source := by
        rintro rfl
        exact absurd (hsep.unversioned a ha htype hnone c hlink) (not_le.mpr hpos)
      rw [CanonicalRecord.setProviderID_ne c hne]
      exact hrows c (Table.mem_of_get? (linkable_row hlink)) source hpos
    refine ⟨hc, fun r hr => ?_⟩
    rcases mem_upsert.mp hr with rfl | ⟨hr, _⟩
    · exact hc
    · exact hrows r hr
  | fresh =>
    refine ⟨fun source hpos => ?_, hrows⟩
    have hpos : (0 : Int) < 0 := hpos
    omega

theorem backed_extended (hext : Extended w.sims w'.sims c c') (h : Backed H c) : Backed H c' := by
  intro source hpos
  have hversions : c'.sourceVersions = c.sourceVersions := by rw [hext.columns]
  have htenant : c'.tenantID = c.tenantID := by rw [hext.columns]
  rw [hversions] at hpos
  obtain ⟨id, hne, hid, hH⟩ := h source hpos
  rw [hversions, htenant]
  rcases hext.ids source with hsame | ⟨hempty, _⟩
  · exact ⟨id, hne, hsame.trans hid, hH⟩
  · rw [CanonicalRecord.providerID, hid] at hempty
    exact absurd hempty hne

theorem backed_setSourceVersion (h : Backed H c) (htenant : c.tenantID = ev.tenantID) (hne : ev.entityID ≠ "")
    (hid : c.providerIDs ev.source = some ev.entityID)
    (hH : H ev.tenantID ev.source ev.entityID ev.sourceVersion) :
    Backed H (c.setSourceVersion ev.source ev.sourceVersion) := by
  intro source hpos
  by_cases hs : source = ev.source
  · subst hs
    refine ⟨ev.entityID, hne, hid, ?_⟩
    show H c.tenantID _ _ (update c.sourceVersions ev.source ev.sourceVersion ev.source)
    rwa [htenant, update_self]
  · have hversion : (c.setSourceVersion ev.source ev.sourceVersion).sourceVersions source
      = c.sourceVersions source :=
      update_of_ne hs ..
    rw [hversion] at hpos ⊢
    exact h source hpos

theorem Resolution.id (h : Resolution w a ev c T) : c.providerIDs ev.source = some ev.entityID := by
  cases h with
  | byID hc => exact (of_decide_eq_true (List.mem_filter.mp hc).2).2.2
  | byEmail _ _ => exact CanonicalRecord.setProviderID_self ..
  | fresh => simp [freshRecord]

theorem Resolution.persisted_new (h : Resolution w a ev c T) (hkey : r.key = c.key)
    (hid : r.providerIDs ev.source = some ev.entityID) (hversion : r.version = c.version + 1) :
    r ∉ w.db.canonical.rows := by
  intro hr
  have hres := h.key
  rw [← hkey] at hres
  have hmem : r ∈ matched w a ev := List.mem_filter.mpr ⟨hr, decide_eq_true
    ⟨congrArg CanonicalKey.tenantID hres, congrArg CanonicalKey.entityType hres, hid⟩⟩
  cases h with
  | byID hc =>
    -- one row for each key
    have hrow := matched_row hc
    rw [← hkey, Table.get?_of_mem hr] at hrow
    rw [Option.some.inj hrow] at hversion
    omega
  | byEmail hnone _ =>
    rw [hnone] at hmem
    cases hmem
  | fresh hnone _ =>
    rw [hnone] at hmem
    cases hmem

/-- **One event keeps every version backed**, by itself if it is applied. -/
theorem deliver_backed (hsep : Separate env w ev) (hrows : ∀ r ∈ w.db.canonical.rows, Backed H r)
    (happlied : Applied env w ev → H ev.tenantID ev.source ev.entityID ev.sourceVersion) :
    ∀ r ∈ (deliver env ev w).db.canonical.rows, Backed H r := by
  obtain ⟨v, hfate⟩ := deliver_fate hsep.webhook
  cases hfate with
  | idle _ hstill => rw [hstill.canonical]; exact hrows
  | ignored _ _ _ hstill => rw [hstill.canonical]; exact hrows
  | dropped ha htype hres hT _ _ _ => rw [hT]; exact (hres.backed hsep ha htype hrows).2
  | interrupted ha htype hres _ hT _ => rw [hT]; exact (hres.backed hsep ha htype hrows).2
  | undeleted _ _ _ _ hT _ => rw [hT]; exact hrows
  | @applied _ a c c' _ ha htype hres _ _ hwritten hT _ _ =>
    have hext := hwritten.extended.1
    obtain ⟨hc, hT'⟩ := hres.backed hsep ha htype hrows
    have hc' : Backed H c' := backed_extended hext hc
    have hkey : c'.key = c.key := by rw [hext.columns]; rfl
    have htenant : c'.tenantID = ev.tenantID := congrArg CanonicalKey.tenantID (hkey.trans hres.key)
    -- the event's id is not empty, so no destination replaced it
    have hid : c'.providerIDs ev.source = some ev.entityID := by
      rcases hext.ids ev.source with hsame | ⟨hempty, _⟩
      · exact hsame.trans hres.id
      · have hempty : (c.providerIDs ev.source).getD "" = "" := hempty
        rw [hres.id] at hempty
        exact absurd hempty hsep.id_ne
    set r := appliedRecord ev (mergedCustomer w a ev c) c' with hr
    have hnew : r ∉ w.db.canonical.rows :=
      hres.persisted_new hkey hid (by rw [hr, appliedRecord, hext.columns])
    have hH : H ev.tenantID ev.source ev.entityID ev.sourceVersion := by
      refine happlied ⟨r, ?_, hnew, htenant, hid, .inl ⟨_, _, hr⟩⟩
      rw [hT]
      exact mem_upsert.mpr (.inl rfl)
    rw [hT]
    intro x hx
    rcases mem_upsert.mp hx with rfl | ⟨hx, _⟩
    · exact backed_setSourceVersion hc' htenant hsep.id_ne hid hH
    · exact hT' x hx
  | @deleted _ a c ha htype hc _ hT _ =>
    have hres : Resolution w a ev c _ := .byID hc
    have htenant : c.tenantID = ev.tenantID := congrArg CanonicalKey.tenantID hres.key
    have hnew : tombstoned ev c ∉ w.db.canonical.rows := hres.persisted_new rfl hres.id rfl
    have hH : H ev.tenantID ev.source ev.entityID ev.sourceVersion := by
      refine happlied ⟨tombstoned ev c, ?_, hnew, htenant, hres.id, .inr ⟨_, rfl⟩⟩
      rw [hT]
      exact mem_upsert.mpr (.inl rfl)
    rw [hT]
    intro x hx
    rcases mem_upsert.mp hx with rfl | ⟨hx, _⟩
    · exact backed_setSourceVersion (hrows c (List.mem_filter.mp hc).1) htenant hsep.id_ne hres.id hH
    · exact hrows x hx

theorem AppliedBefore.append {evs : List Event} {tenant source id : String} {version : Int}
    (h : AppliedBefore env w evs tenant source id version) (ev : Event) :
    AppliedBefore env w (evs ++ [ev]) tenant source id version := by
  obtain ⟨before, e, after, t, hevs, hrest⟩ := h
  refine ⟨before, e, after ++ [ev], t, ?_, hrest⟩
  rw [hevs, List.append_assoc, List.cons_append]

/-- **Staleness is judged by a record's own versions.** Webhook events are handled one after the other from an
    empty store, in any order and with any calls failing, each under `Separate`. If an upsert with a positive
    version is not newer than the record it resolves to, then an event of the same provider record with at
    least its version was applied before. -/
theorem judged_by_own_versions {evs : List Event} (hempty : w.db.canonical = .empty)
    (hrun : Run (fun w ev => some (deliver env ev w)) (Separate env) w evs w') (hsep : Separate env w' ev)
    (hupsert : ev.eventType ≠ .deleted) (hpos : 0 < ev.sourceVersion) (hc : Resolves env w' ev c)
    (hstale : ev.sourceVersion ≤ c.sourceVersions ev.source) :
    AppliedBefore env w evs ev.tenantID ev.source ev.entityID ev.sourceVersion := by
  have hbacked : Run (fun w ev => some (deliver env ev w)) (Separate env) w evs w' ∧
      ∀ r ∈ w'.db.canonical.rows, Backed (AppliedBefore env w evs) r := by
    refine hrun.invariant (P := fun evs t => Run (fun w ev => some (deliver env ev w)) (Separate env) w evs t ∧
      ∀ r ∈ t.db.canonical.rows, Backed (AppliedBefore env w evs) r) ⟨.refl, ?_⟩ ?_
    · rw [hempty]
      intro r hr
      cases hr
    · rintro evs t ev u ⟨hpast, ht⟩ hok hstep
      cases hstep
      refine ⟨hpast.tail hok rfl, deliver_backed hok (fun r hr => ?_) (fun happlied => ?_)⟩
      · exact (ht r hr).mono (fun _ _ _ _ h => h.append ev)
      · exact ⟨evs, ev, [], t, rfl, hpast, happlied, rfl, rfl, rfl, le_rfl⟩
  obtain ⟨a, ha, hc | ⟨hnone, _, hlink⟩⟩ := hc
  · have hcpos : 0 < c.sourceVersions ev.source := lt_of_lt_of_le hpos hstale
    obtain ⟨hmem, hmap⟩ := List.mem_filter.mp hc
    obtain ⟨htenant, _, hid⟩ := of_decide_eq_true hmap
    obtain ⟨id, _, hid', before, e, after, t, hevs, hpast, happlied, he, hsource, heid, hle⟩ :=
      hbacked.2 c hmem ev.source hcpos
    obtain rfl : ev.entityID = id := Option.some.inj (hid.symm.trans hid')
    exact ⟨before, e, after, t, hevs, hpast, happlied, he.trans htenant, hsource, heid, hstale.trans hle⟩
  · have hle := hsep.unversioned a ha hupsert hnone c hlink
    exact absurd (lt_of_lt_of_le hpos hstale) (not_lt.mpr hle)

theorem judged_by_own_versions_ann : let w' := deliver Deployment.env annCreated oneWay
    let ev := sfUpsert "sf-1" "e2" 1 "ann@x"
    ∃ c, Resolves Deployment.env w' ev c ∧ ev.sourceVersion ≤ c.sourceVersions ev.source ∧
      AppliedBefore Deployment.env oneWay [annCreated] ev.tenantID ev.source ev.entityID
        ev.sourceVersion := by
  intro w' ev
  have hfirst : Separate Deployment.env oneWay annCreated := ⟨rfl, by decide, fun a _ _ _ c hc => by cases hc⟩
  have hrun : Run (fun w ev => some (deliver Deployment.env ev w)) (Separate Deployment.env) oneWay
      [annCreated] w' := Run.single hfirst rfl
  -- the one row there is
  obtain ⟨c, hc⟩ : ∃ c, (matched w' salesforce ev).head? = some c :=
    Option.isSome_iff_exists.mp (by decide +kernel)
  have hmem := List.mem_of_mem_head? (Option.mem_def.mpr hc)
  have hversion : ((matched w' salesforce ev).head?).map (fun c => c.sourceVersions ev.source) = some 1 := by
    decide +kernel
  have hstale : ev.sourceVersion ≤ c.sourceVersions ev.source := by
    rw [hc] at hversion
    exact (Option.some.inj hversion).ge
  have hres : Resolves Deployment.env w' ev c := ⟨salesforce, rfl, .inl hmem⟩
  have hsep : Separate Deployment.env w' ev := by
    refine ⟨rfl, by decide, fun a ha _ hnone => ?_⟩
    obtain rfl : salesforce = a := Option.some.inj ha
    exact absurd hnone (List.ne_nil_of_mem hmem)
  exact ⟨c, hres, hstale, judged_by_own_versions rfl hrun hsep (by decide) (by decide) hres hstale⟩

/-- **Another record's version counts**: `sf-1` was synchronized at version 5, and the first event of `sf-2`,
    which has the same e-mail address, is dropped at version 3. -/
theorem other_record_judged : let first := sfUpsert "sf-1" "e1" 5 "ann@x"
    let w1 := deliver Deployment.env first oneWay
    let ev := sfUpsert "sf-2" "e2" 3 "ann@x"
    let after := run (World.handle Deployment.env) (process Deployment.env ev) w1
    first.entityID ≠ ev.entityID ∧
      (linkable w1 salesforce ev).map (fun c => (c.sourceVersions "salesforce", c.providerIDs "salesforce"))
        = some (5, some "sf-1") ∧
      ev.sourceVersion = 3 ∧ after.1 = .ok .applied ∧ after.2.mutations = w1.mutations ∧
      after.2.db.canonical.rows.map
          (fun c => (c.entityID, c.version, c.sourceVersions "salesforce", c.providerIDs "salesforce"))
        = [("sf-1", 1, 5, some "sf-2")] := by
  decide +kernel

end SyncForge.Ordering
