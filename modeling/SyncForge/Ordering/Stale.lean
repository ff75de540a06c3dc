import SyncForge.Ordering.Fate
import SyncForge.Deployment

/-!
# `Ordering.Stale` — events out of order

`applyUpsert` drops an event whose version is not above the one recorded for its source; `applyDelete` has no
such check, and
`resolveCanonical` may link a provider's id to a record before the check is made. `Newer` is the condition on
an event that excludes both.
-/

namespace SyncForge.Ordering

open Relational
open Deployment (annCreated hub policy record sfEvent world)

/-! ## Recorded versions -/

def Grows (T T' : CanonicalTable) : Prop :=
  ∀ k c, T.get? k = some c → ∃ c', T'.get? k = some c' ∧
    ∀ source, c.sourceVersions source ≤ c'.sourceVersions source

theorem Grows.refl (T : CanonicalTable) : Grows T T := fun _ c hc => ⟨c, hc, fun _ => le_rfl⟩

theorem Grows.trans {T T' T'' : CanonicalTable} (h : Grows T T') (h' : Grows T' T'') : Grows T T'' := by
  intro k c hc
  obtain ⟨c', hc', hle⟩ := h k c hc
  obtain ⟨c'', hc'', hle'⟩ := h' k c' hc'
  exact ⟨c'', hc'', fun source => (hle source).trans (hle' source)⟩

theorem grows_upsert {T : CanonicalTable} {c : CanonicalRecord}
    (h : ∀ c0, T.get? c.key = some c0 → ∀ source, c0.sourceVersions source ≤ c.sourceVersions source) :
    Grows T (T.upsert c) := by
  intro k c0 hc0
  by_cases hk : k = c.key
  · subst hk
    exact ⟨c, Table.get?_upsert_self, h c0 hc0⟩
  · exact ⟨c0, by rw [Table.get?_upsert_ne hk]; exact hc0, fun _ => le_rfl⟩

theorem le_setSourceVersion (c : CanonicalRecord) {source : String} {v : Int}
    (h : c.sourceVersions source < v) (s : String) :
    c.sourceVersions s ≤ (c.setSourceVersion source v).sourceVersions s := by
  show c.sourceVersions s ≤ Function.update c.sourceVersions source v s
  by_cases hs : s = source
  · rw [hs, Function.update_self]
    exact h.le
  · rw [Function.update_of_ne hs]

/-! ## The condition -/

def Resolves (env : Env) (w : World) (ev : Event) (c : CanonicalRecord) : Prop :=
  ∃ a, env.registry ev.source = some a ∧
    (c ∈ matched w a ev ∨ matched w a ev = [] ∧ ev.eventType ≠ .deleted ∧ linkable w a ev = some c)

/-- A delete is newer than what is recorded for a live record it matches; an upsert whose provider id no
    record has is newer than what is recorded for the record its e-mail leads to, and a new record's key is
    not taken. -/
def Newer (env : Env) (w : World) (ev : Event) : Prop :=
  ∀ a, env.registry ev.source = some a →
    if ev.eventType = .deleted then
      ∀ c ∈ matched w a ev, c.tombstone = false → c.sourceVersions ev.source < ev.sourceVersion
    else matched w a ev = [] →
      match linkable w a ev with
      | some c => c.sourceVersions ev.source < ev.sourceVersion
      | none => w.db.canonical.get? (ownKey a ev) = none

def Stale (w : World) (a : Adapter) (ev : Event) : Prop :=
  matched w a ev ≠ [] ∧ ∀ c ∈ matched w a ev, ev.sourceVersion ≤ c.sourceVersions ev.source

structure Unmoved (w0 w : World) : Prop where
  canonical : w.db.canonical = w0.db.canonical
  sims : w.sims = w0.sims

/-! ## One event -/

section Event

variable {env : Env} {ev : Event} {w0 w : World} {a : Adapter} {c : CanonicalRecord} {T : CanonicalTable}

theorem matched_row (h : c ∈ matched w0 a ev) : w0.db.canonical.get? c.key = some c :=
  Table.get?_of_mem (List.mem_filter.mp h).1

theorem Resolution.grows (h : Resolution w0 a ev c T) : Grows w0.db.canonical T := by
  cases h with
  | byID _ => exact Grows.refl _
  | byEmail _ hlink =>
    apply grows_upsert
    intro c0 hc0 source
    rw [← Option.some.inj ((linkable_row hlink).symm.trans hc0)]
    exact le_rfl
  | fresh => exact Grows.refl _

theorem Resolution.own (h : Resolution w0 a ev c T) (htype : ev.eventType ≠ .deleted)
    (ha : env.registry ev.source = some a) (hnew : Newer env w0 ev) {c0 : CanonicalRecord}
    (hc0 : T.get? c.key = some c0) : c0.sourceVersions = c.sourceVersions := by
  cases h with
  | byID hc => rw [Option.some.inj ((matched_row hc).symm.trans hc0)]
  | byEmail _ hlink => rw [← Option.some.inj (Table.get?_upsert_self.symm.trans hc0)]
  | fresh hnone hnolink =>
    have hfree := hnew a ha
    rw [if_neg htype] at hfree
    have hfree := hfree hnone
    rw [hnolink] at hfree
    exact absurd (hfree.symm.trans hc0) (by simp)

theorem Resolution.stale (h : Resolution w0 a ev c T) (hstale : Stale w0 a ev) :
    T = w0.db.canonical ∧ ev.sourceVersion ≤ c.sourceVersions ev.source := by
  cases h with
  | byID hc => exact ⟨rfl, hstale.2 c hc⟩
  | byEmail hnone _ => exact absurd hnone hstale.1
  | fresh hnone _ => exact absurd hnone hstale.1

structure Handled (env : Env) (w0 : World) (ev : Event) (w : World) : Prop where
  grows : Grows w0.db.canonical w.db.canonical
  stale : ∀ a, env.registry ev.source = some a → Stale w0 a ev → Unmoved w0 w

theorem Still.handled (h : Still w0 w) : Handled env w0 ev w :=
  ⟨by rw [h.canonical]; exact Grows.refl _, fun _ _ _ => ⟨h.canonical, h.sims⟩⟩

theorem handled_of_fresh (ha : env.registry ev.source = some a)
    (hgrows : Grows w0.db.canonical w.db.canonical) (hfresh : ¬ Stale w0 a ev) : Handled env w0 ev w := by
  refine ⟨hgrows, fun a' ha' hs => absurd ?_ hfresh⟩
  obtain rfl : a' = a := Option.some.inj (ha'.symm.trans ha)
  exact hs

theorem Fate.handled {v : Verdict} (h : Fate env w0 ev v w) (hnew : Newer env w0 ev) :
    Handled env w0 ev w := by
  cases h with
  | idle _ hstill => exact hstill.handled
  | ignored _ _ _ hstill => exact hstill.handled
  | dropped ha _ hres hT _ hsims _ =>
    refine ⟨by rw [hT]; exact hres.grows, fun a' ha' hs => ?_⟩
    cases ha'.symm.trans ha
    exact ⟨hT.trans (hres.stale hs).1, hsims⟩
  | interrupted ha _ hres hlt hT _ =>
    refine handled_of_fresh ha (by rw [hT]; exact hres.grows) (fun hs => ?_)
    exact absurd hlt (not_lt.mpr (hres.stale hs).2)
  | applied ha htype hres hlt _ hwritten hT _ _ =>
    refine handled_of_fresh ha ?_ (fun hs => absurd hlt (not_lt.mpr (hres.stale hs).2))
    rw [hT]
    refine hres.grows.trans (grows_upsert (fun c0 hc0 source => ?_))
    rw [hwritten.extended.1.columns] at hc0 ⊢
    rw [hres.own htype ha hnew hc0]
    exact le_setSourceVersion _ hlt source
  | undeleted ha htype hc hlive hT _ =>
    have hlt := hnew _ ha
    rw [if_pos htype] at hlt
    refine handled_of_fresh ha (by rw [hT]; exact Grows.refl _) (fun hs => ?_)
    exact absurd (hlt _ hc hlive) (not_lt.mpr (hs.2 _ hc))
  | deleted ha htype hc hlive hT _ =>
    have hlt := hnew _ ha
    rw [if_pos htype] at hlt
    refine handled_of_fresh ha ?_ (fun hs => absurd (hlt _ hc hlive) (not_lt.mpr (hs.2 _ hc)))
    rw [hT]
    refine grows_upsert (fun c0 hc0 source => ?_)
    rw [← Option.some.inj ((matched_row hc).symm.trans hc0)]
    exact le_setSourceVersion _ (hlt _ hc hlive) source

theorem deliver_handled (hwebhook : ev.provenance = {}) (hnew : Newer env w0 ev) :
    Handled env w0 ev (deliver env ev w0) := by
  obtain ⟨v, hfate⟩ := deliver_fate hwebhook
  exact hfate.handled hnew

end Event

/-! ## Any sequence of events -/

open Transition

/-- Only webhook events, and each of them meets `Newer` when it is handled. -/
def InTime (env : Env) (w : World) (ev : Event) : Prop := ev.provenance = {} ∧ Newer env w ev

theorem inTime_of_matched {env : Env} {w : World} {ev : Event} (hwebhook : ev.provenance = {})
    (hupsert : ev.eventType ≠ .deleted) (hmatched : ∀ a, env.registry ev.source = some a →
      matched w a ev ≠ []) : InTime env w ev := by
  refine ⟨hwebhook, fun a ha => ?_⟩
  rw [if_neg hupsert]
  exact fun hnone => absurd hnone (hmatched a ha)

/-- **Stale events never win.** Created, updated and deleted webhook events handled one after the other, in
    any order and with any calls failing, each under `Newer`: no recorded version decreases, and an event that
    is not newer than the record it resolves to changes no canonical record and no provider. -/
theorem stale_never_wins {env : Env} {w w' : World} {evs : List Event}
    (hrun : Run (fun w ev => some (deliver env ev w)) (InTime env) w evs w') :
      Grows w.db.canonical w'.db.canonical ∧ ∀ ev, InTime env w' ev → (∃ c, Resolves env w' ev c) →
        (∀ c, Resolves env w' ev c → ev.sourceVersion ≤ c.sourceVersions ev.source) →
        (deliver env ev w').db.canonical = w'.db.canonical ∧ (deliver env ev w').sims = w'.sims := by
  constructor
  · refine hrun.invariant (P := fun _ t => Grows w.db.canonical t.db.canonical) (Grows.refl _) ?_
    intro _ t ev u ht hok hstep
    cases hstep
    exact ht.trans (deliver_handled hok.1 hok.2).grows
  · rintro ev ⟨hwebhook, hnew⟩ ⟨c, a, ha, hc⟩ hstale
    have hhandled := deliver_handled hwebhook hnew
    rcases hc with hc | ⟨hnone, htype, hlink⟩
    · have hmatched : Stale w' a ev := by
        refine ⟨List.ne_nil_of_mem hc, fun c' hc' => ?_⟩
        exact hstale c' ⟨a, ha, .inl hc'⟩
      exact ⟨(hhandled.stale a ha hmatched).canonical, (hhandled.stale a ha hmatched).sims⟩
    · -- a record found by e-mail only is older, by the condition
      have hfresh := hnew a ha
      rw [if_neg htype] at hfresh
      have hlt := hfresh hnone
      rw [hlink] at hlt
      exact absurd hlt (not_lt.mpr (hstale c ⟨a, ha, .inr ⟨hnone, htype, hlink⟩⟩))

def oneWay : World := world [policy "salesforce" "hubspot"]

def annUpdated : Event :=
  sfEvent "e3" .updated 3 3 (record salesforce "Ann" "Lee" "ann@y")

def annLate : Event :=
  sfEvent "e2" .updated 2 2 (record salesforce "Ann" "Lee" "ann@z")

/-- Versions 1 and 3 are handled, and then the late version 2. -/
theorem stale_never_wins_ann : let w1 := deliver Deployment.env annCreated oneWay
    let w2 := deliver Deployment.env annUpdated w1
    Run (fun w ev => some (deliver Deployment.env ev w)) (InTime Deployment.env) oneWay [annCreated,
      annUpdated] w2 ∧ Grows oneWay.db.canonical w2.db.canonical ∧
      (w2.db.canonical.rows.map (fun c => c.sourceVersions "salesforce")) = [3] ∧
      (deliver Deployment.env annLate w2).db.canonical = w2.db.canonical ∧
      (deliver Deployment.env annLate w2).sims = w2.sims := by
  intro w1 w2
  have hfirst : InTime Deployment.env oneWay annCreated := by
    refine ⟨rfl, fun a _ => ?_⟩
    rw [if_neg (by decide)]
    exact fun _ => rfl
  have hmatched1 : (matched w1 salesforce annUpdated).map (fun c => c.sourceVersions "salesforce") = [1] := by
    decide +kernel
  have hmatched2 : (matched w2 salesforce annLate).map (fun c => c.sourceVersions "salesforce") = [3] := by
    decide +kernel
  have hsecond := @inTime_of_matched Deployment.env w1 annUpdated rfl nofun (by
    rintro a ⟨⟩ hnone
    rw [hnone] at hmatched1
    cases hmatched1)
  have hlate := @inTime_of_matched Deployment.env w2 annLate rfl nofun (by
    rintro a ⟨⟩ hnone
    rw [hnone] at hmatched2
    cases hmatched2)
  have hrun : Run (fun w ev => some (deliver Deployment.env ev w)) (InTime Deployment.env) oneWay
      [annCreated, annUpdated] w2 := .tail (Run.single hfirst rfl) hsecond rfl
  obtain ⟨c, rest, hc, hversion, hrest⟩ := List.map_eq_cons_iff.mp hmatched2
  obtain rfl := List.map_eq_nil_iff.mp hrest
  obtain ⟨hgrows, hstale⟩ := stale_never_wins hrun
  refine ⟨hrun, hgrows, by decide +kernel, hstale annLate hlate ⟨c, salesforce, rfl, .inl ?_⟩ ?_⟩
  · rw [hc]
    exact .head _
  · rintro c' ⟨a, ⟨⟩, hc' | ⟨hnone, _⟩⟩
    · rw [hc] at hc'
      rw [List.mem_singleton.mp hc']
      show (2 : Int) ≤ c.sourceVersions "salesforce"
      omega
    · rw [hc] at hnone
      cases hnone

def annDeleted : Event :=
  sfEvent "e2" .deleted 2 2 (record salesforce "Ann" "Lee" "ann@x")

/-- **A late delete wins**: version 2 arrives after version 3, takes the recorded version back to 2, marks the
    record as deleted and deletes it in HubSpot. -/
theorem stale_delete_wins : let w2 := deliver Deployment.env annUpdated (deliver Deployment.env annCreated oneWay)
    let w3 := deliver Deployment.env annDeleted w2
    (w2.db.canonical.get? (ownKey salesforce annDeleted)).map
        (fun c => (c.providerIDs "salesforce", c.sourceVersions "salesforce", c.tombstone))
        = some (some annDeleted.entityID, 3, false) ∧
      annDeleted.sourceVersion = 2 ∧
      (w3.db.canonical.get? (ownKey salesforce annDeleted)).map
        (fun c => (c.providerIDs "salesforce", c.sourceVersions "salesforce", c.tombstone))
        = some (some annDeleted.entityID, 2, true) ∧
      w3.mutations = w2.mutations ++ [(hub, .delete)] := by
  decide +kernel

end SyncForge.Ordering
