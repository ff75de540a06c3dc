import SyncForge.Bridge.FieldMerge
import SyncForge.Worker.Calls

/-!
# `Bridge.Mistaken` — an edit taken for an echo

The fingerprint written last to a provider is kept until the next write, also when the record has changed
since: a user who changes it and later changes it back sends that fingerprint, and the edit is dropped. The
fingerprint does not escape its separators either (`fingerprint_separates`).
-/

namespace SyncForge.Bridge

open Relay (Side)
open Transition
open Deployment (ann inSync link linked linked_shows)

/-! ## Fingerprints -/

/-- **What a fingerprint tells apart**: the customers with other fields than `c` all have another fingerprint,
    and after a write of `c` only an event with its fields is taken for an echo, exactly if no field of `c`
    holds a label next to it. -/
theorem fingerprint_separates {env : Env} (hash : Function.Injective env.hash) (c : Customer) :
    ((∀ d : Customer, (∃ f, d.get f ≠ c.get f) → d.fingerprint env.hash ≠ c.fingerprint env.hash) ∧
      ∀ (d : Customer) (w : World) (tenant entityType entityID source : String) (o : OutboundWrite),
        w.db.outbound ⟨tenant, entityType, entityID, source⟩ = some o → o.fingerprint = c.fingerprint env.hash →
        ((isEcho env tenant entityType entityID source d).run (World.handle env) w).1 = .ok true →
        ∀ f, d.get f = c.get f) ↔ c.Separable := by
  constructor
  · rintro ⟨hdiffer, -⟩
    by_contra hc
    obtain ⟨d, hd, htext⟩ := Customer.exists_fingerprintText_eq hc
    exact hdiffer d hd (congrArg env.hash htext)
  · intro hc
    refine ⟨fun d hd hsame => ?_, fun d w tenant entityType entityID source o ho hlast hecho => ?_⟩
    · obtain ⟨f, hf⟩ := hd
      exact hf (Customer.fingerprintText_inj hc (hash hsame) f)
    · obtain ⟨o', ho', hprint⟩ := isEcho_true hecho
      rw [ho'] at ho
      cases ho
      exact Customer.fingerprintText_inj hc (hash (hprint.symm.trans hlast))

def written (d : Customer) : World :=
  { Deployment.world [] with
    db := { outbound := fun k => some ⟨k.tenantID, k.entityType, k.entityID, k.targetSource, d.fingerprint id,
      1⟩ } }

/-- A separator in a name and another field's label do no harm: `a|b` and `a` have different fingerprints, and
    the echo of `a|b` is one of the same fields. -/
theorem fingerprint_separates_bar :
    (⟨"", "a|b", "x|phone=y", "", "", "", false⟩ : Customer).Separable ∧
    ({ firstName := "a", lastName := "b|last_name=x|phone=y" } : Customer).fingerprint Deployment.env.hash
      ≠ (⟨"", "a|b", "x|phone=y", "", "", "", false⟩ : Customer).fingerprint Deployment.env.hash ∧
    ∀ d : Customer, ((isEcho Deployment.env "t1" "customer" "c1" "hubspot" d).run
      (World.handle Deployment.env)
        (written ⟨"", "a|b", "x|phone=y", "", "", "", false⟩)).1 = .ok true → d.get .firstName = "a|b" := by
  have hseparable : (⟨"", "a|b", "x|phone=y", "", "", "", false⟩ : Customer).Separable := by decide +kernel
  obtain ⟨hdiffer, hecho⟩ := (@fingerprint_separates Deployment.env (fun _ _ h => h) _).mpr hseparable
  exact ⟨hseparable, hdiffer _ ⟨.firstName, by decide⟩, fun d hd => hecho d _ _ _ _ _ _ rfl rfl hd .firstName⟩

/-- **Two customers with one fingerprint**: what separates the fields may stand in them, and an edit is taken
    for an echo. -/
theorem fingerprints_collide : ∃ c d : Customer, c.firstName ≠ d.firstName ∧
    (∀ hash, c.fingerprint hash = d.fingerprint hash) ∧
      ((isEcho Deployment.env "t1" "customer" "c1" "hubspot" c).run
      (World.handle Deployment.env) (written d)).1 = .ok true := by
  refine ⟨{ firstName := "x|last_name=y", lastName := "z" },
    { firstName := "x", lastName := "y|last_name=z" },
    by decide, fun hash => congrArg hash ?_, by decide +kernel⟩
  decide +kernel

/-! ## Versions and values -/

section Abstract

variable {S : Setting} {s : State} {n : Note}

theorem handle_sourceVersion (s : State) (n : Note) (x : Side) :
      (s.handle S n).sourceVersion x = s.sourceVersion x ∨ n.side = x ∧
      (s.handle S n).sourceVersion x = n.version := by
  unfold State.handle
  split_ifs
  · exact .inl rfl
  · show Function.update s.sourceVersion n.side n.version x = _ ∨ _
    by_cases hx : n.side = x
    · subst hx
      exact .inr ⟨rfl, Function.update_self _ _ _⟩
    · exact .inl (Function.update_of_ne (Ne.symm hx) _ _)

/-- **A new note** of a version not seen and a time later than every owner: its values become canonical unless
    it is invalid or has the fingerprint written last. -/
theorem handle_new_iff (hversion : s.sourceVersion n.side < n.version)
    (hlater : ∀ f p, s.provenance f = some p → p.occurredAt < n.occurredAt) :
      (s.handle S n).canonical = n.values ↔ Valid n.values ∧
      s.lastWritten n.side ≠ some (fingerprintOf S.hash n.values) ∨ s.canonical = n.values := by
  by_cases hdrop : s.Dropped S n
  · -- dropped: nothing changes, and it was not for its version
    have hsame : s.handle S n = s := if_pos hdrop
    have hreason : ¬ (Valid n.values ∧ s.lastWritten n.side ≠ some (fingerprintOf S.hash n.values)) := by
      rintro ⟨hvalid, hnew⟩
      rcases hdrop with h | h | h
      · exact h hvalid
      · exact absurd hversion (not_lt.mpr h)
      · exact hnew h
    rw [hsame]
    constructor
    · exact Or.inr
    · intro h
      exact h.resolve_left hreason
  · have happlied : (s.handle S n).canonical = n.values := by
      rw [State.handle, if_neg hdrop]
      rw [State.apply_eq_taken rfl (fun f p hp => .inr (hlater f p hp))]
      rfl
    have hvalid : Valid n.values := by
      by_contra h
      exact hdrop (.inl h)
    have hnew : s.lastWritten n.side ≠ some (fingerprintOf S.hash n.values) := fun h => hdrop (.inr (.inr h))
    exact ⟨fun _ => .inl ⟨hvalid, hnew⟩, fun _ => happlied⟩

end Abstract

/-! ## Histories of B -/

section Worker

variable {env : Env} {L : Link env} {w w1 : World} {s : State} {log : List Int} {w' : World}

def logged (L : Link env) (p : World × List Int) (d : Deed) : Option (World × List Int) :=
  (next L p.1 d).map (fun w =>
    (w, p.2 ++ match d with
      | .handle .b => ((p.1.outbox.find? (sentBy (L.name .b))).map Event.sourceVersion).toList
      | _ => []))

def asFields (v : Values) : FieldMap := fun f => some (.str (v f))

theorem asFields_injective : Function.Injective asFields := by
  intro v v' h
  funext f
  exact Any.str.inj (Option.some.inj (congrFun h f))

theorem logged_version {ds : List Deed} (h : Shows L w s)
    (hrun : Run (logged L) (fun _ _ => True) (w, []) ds (w1, log)) :
    ∃ s1, Shows L w1 s1 ∧ s1.sourceVersion .b ∈ s.sourceVersion .b :: log := by
  refine hrun.invariant (P := fun _ p => ∃ s1, Shows L p.1 s1 ∧
    s1.sourceVersion .b ∈ s.sourceVersion .b :: p.2) ⟨s, h, .head _⟩ ?_
  rintro _ ⟨t, log⟩ d ⟨u, log'⟩ ⟨s1, hs1, hmem⟩ _ hstep
  obtain ⟨u', hnext, hpair⟩ := Option.map_eq_some_iff.mp hstep
  cases hpair
  have hold : ∀ extra : List Int, s1.sourceVersion .b ∈ s.sourceVersion .b :: (log ++ extra) := by
    intro extra
    rw [← List.cons_append]
    exact List.mem_append_left _ hmem
  cases d with
  | edit x data =>
    obtain ⟨old, r, _, _, _, hnext', hshows⟩ := hs1.edit x data
    rw [hnext] at hnext'
    cases hnext'
    exact ⟨_, hshows, hold _⟩
  | tick x d =>
    obtain ⟨u', hnext', hshows⟩ := hs1.tick x d
    rw [hnext] at hnext'
    cases hnext'
    exact ⟨_, hshows, hold _⟩
  | handle x =>
    obtain ⟨s2, hs2, hshows⟩ := hs1.handle hnext
    refine ⟨s2, hshows, ?_⟩
    obtain ⟨ev, hev, _⟩ := Option.map_eq_some_iff.mp hnext
    obtain ⟨n, hn, hann, _⟩ := hs1.take hev
    have hhandled := step_handle hn hs2
    rcases handle_sourceVersion (S := L.setting) { s1 with pending := s1.pending.eraseP (isFrom x) } n .b with
      hsame | ⟨hside, hversion⟩
    · rw [hhandled, hsame]
      exact hold _
    · -- B's event was taken over: its version is the one just logged
      have hx : x = .b := (side_of_find? hn).symm.trans hside
      subst hx
      rw [hhandled, hversion, ← hann.sourceVersion]
      apply List.mem_cons_of_mem
      apply List.mem_append_right
      rw [hev]
      exact .head _

/-- **When an edit of B becomes the canonical state.** Any history of edits, clocks and handled webhooks; then
    B's oldest waiting event is handled, its version above all versions of B handled before and its time after
    every owner's. The canonical fields are the event's afterwards exactly if the event is valid and its
    fingerprint is not the one last written to B, or they were before. -/
theorem edit_applied_iff {ds : List Deed} {log : List Int} (h : Shows L w s)
    (hrun : Run (logged L) (fun _ _ => True) (w, []) ds (w1, log)) {ev : Event}
    (hev : w1.outbox.find? (sentBy (L.name .b)) = some ev)
    (hnew : ∀ v ∈ s.sourceVersion .b :: log, v < ev.sourceVersion)
    (hlater : ∀ c, w1.db.canonical.get? L.key = some c →
      ∀ f p, c.fieldProvenance f = some p → p.occurredAt < ev.occurredAt) :
    ∃ w2 c1 c2, next L w1 (.handle .b) = some w2 ∧ w1.db.canonical.get? L.key = some c1 ∧
      w2.db.canonical.get? L.key = some c2 ∧ (c2.fields = asFields (L.reads .b ev) ↔
        Valid (L.reads .b ev) ∧ (w1.db.outbound (L.outboundKey .b)).map OutboundWrite.fingerprint
            ≠ some (fingerprintOf env.hash (L.reads .b ev)) ∨ c1.fields = asFields (L.reads .b ev)) := by
  obtain ⟨s1, hs1, hmem⟩ := logged_version h hrun
  obtain ⟨n, hn, hann, _⟩ := hs1.take hev
  have hside : n.side = .b := side_of_find? hn
  have hreads : L.reads .b ev = n.values := by
    rw [← hside]
    exact hann.reads
  have hnext : next L w1 (.handle .b) = some _ := congrArg (Option.map _) hev
  obtain ⟨s2, hs2, hshows⟩ := hs1.handle hnext
  obtain ⟨c1, hc1, hrec1⟩ := hs1.canonical
  obtain ⟨c2, hc2, hrec2⟩ := hshows.canonical
  refine ⟨_, c1, c2, hnext, hc1, hc2, ?_⟩
  have hhandled := step_handle hn hs2
  have hversion : s1.sourceVersion n.side < n.version := by
    rw [hside, ← hann.sourceVersion]
    exact hnew _ hmem
  have htimes : ∀ f p, s1.provenance f = some p → p.occurredAt < n.occurredAt := by
    intro f p hp
    rw [← hann.occurredAt]
    exact hlater c1 hc1 f p (by rw [hrec1.fieldProvenance]; exact hp)
  have hiff := handle_new_iff (S := L.setting) (s := { s1 with pending := s1.pending.eraseP (isFrom .b) })
    hversion htimes
  rw [← hhandled, hside] at hiff
  rw [hs1.outbound .b, hreads, hrec1.fields, hrec2.fields]
  show asFields s2.canonical = asFields n.values ↔ _ ∨ asFields s1.canonical = asFields n.values
  rwa [asFields_injective.eq_iff, asFields_injective.eq_iff]

theorem logged_other {d : Deed} (hd : d ≠ .handle .b) (h : next L w d = some w') :
    logged L (w, log) d = some (w', log) := by
  show (next L w d).map _ = _
  rw [h]
  cases d with
  | edit x data => exact congrArg (fun l => some (w', l)) (List.append_nil log)
  | tick x e => exact congrArg (fun l => some (w', l)) (List.append_nil log)
  | handle x =>
    cases x with
    | a => exact congrArg (fun l => some (w', l)) (List.append_nil log)
    | b => exact absurd rfl hd

theorem logged_handle_b {ev : Event} (h : next L w (.handle .b) = some w')
    (hev : w.outbox.find? (sentBy (L.name .b)) = some ev) :
    logged L (w, log) (.handle .b) = some (w', log ++ [ev.sourceVersion]) := by
  show (next L w (.handle .b)).map _ = _
  rw [h, hev]
  rfl

theorem Shows.nextOfB (h : Shows L w s) {n : Note} (hn : s.pending.find? (isFrom .b) = some n) :
    ∃ ev, w.outbox.find? (sentBy (L.name .b)) = some ev ∧ L.Announces ev n := by
  rcases forall₂_find? (fun _ _ hann => hann.sentBy .b) h.pending with ⟨_, hnone⟩ |
    ⟨ev, n', hev, hn', hann, _⟩
  · rw [hnone] at hn
    cases hn
  · rw [hn] at hn'
    cases hn'
    exact ⟨ev, hev, hann⟩

theorem edit_applied_ann : ∃ ds log w1 ev, Run (logged (link false)) (fun _ _ => True)
    (linked false, []) ds (w1, log) ∧
      w1.outbox.find? (sentBy ((link false).name .b)) = some ev ∧
      ∃ w2 c1 c2, next (link false) w1 (.handle .b) = some w2 ∧ w1.db.canonical.get? (link false).key = some c1 ∧
        w2.db.canonical.get? (link false).key = some c2 ∧ (c2.fields = asFields ((link false).reads .b ev) ↔
          Valid ((link false).reads .b ev) ∧ (w1.db.outbound ((link false).outboundKey .b)).map OutboundWrite.fingerprint
                ≠ some (fingerprintOf Deployment.env.hash ((link false).reads .b ev)) ∨
            c1.fields = asFields ((link false).reads .b ev)) := by
  have h := linked_shows false
  obtain ⟨w1, hw1, h1⟩ := h.act (a := .tick .b 1) rfl
  obtain ⟨w2, hw2, h2⟩ := h1.act (a := .edit .b (annAt "x")) rfl
  obtain ⟨ev, hev, hann⟩ := h2.nextOfB (n := ⟨.b, 2, 2, annAt "x"⟩) rfl
  have hrun : Run (logged (link false)) (fun _ _ => True) (linked false, [])
      [Act.deed (link false) (.tick .b 1), Act.deed (link false) (.edit .b (annAt "x"))]
      (w2, []) :=
    .head trivial (logged_other nofun hw1) (.head trivial (logged_other nofun hw2) .refl)
  refine ⟨_, _, w2, ev, hrun, hev, edit_applied_iff h hrun hev ?_ ?_⟩
  · intro v hv
    rw [List.mem_singleton.mp hv, hann.sourceVersion]
    decide
  · intro c hc f p hp
    obtain ⟨c', hc', hrec⟩ := h2.canonical
    rw [hc] at hc'
    cases hc'
    rw [hrec.fieldProvenance] at hp
    rw [← Option.some.inj hp, hann.occurredAt]
    decide

/-- **An edit is dropped as an echo.** Ann's company is changed in HubSpot and then changed back; the second
    event is newer than all before and later than every owner, and the company stays what the first event made
    it. -/
theorem revert_dropped : (∀ x, ((link false).policy x).conflictStrategy = .lastWriteWins) ∧
    Shows (link false) (linked false) inSync ∧
    ∃ log w1 ev w2 c2, Run (logged (link false)) (fun _ _ => True) (linked false, [])
        ([.tick .b 1, .edit .b (annAt "x"), .handle .b, .tick .b 1, .edit .b ann].map (Act.deed (link false))) (w1, log) ∧
      w1.outbox.find? (sentBy ((link false).name .b)) = some ev ∧
      (∀ v ∈ inSync.sourceVersion .b :: log, v < ev.sourceVersion) ∧
      (∀ c, w1.db.canonical.get? (link false).key = some c →
        ∀ f p, c.fieldProvenance f = some p → p.occurredAt < ev.occurredAt) ∧
      next (link false) w1 (.handle .b) = some w2 ∧ w2.db.canonical.get? (link false).key = some c2 ∧
      (link false).reads .b ev .company = "" ∧ c2.fields .company = some (.str "x") := by
  have h := linked_shows false
  obtain ⟨w1, hw1, h1⟩ := h.act (a := .tick .b 1) rfl
  obtain ⟨w2, hw2, h2⟩ := h1.act (a := .edit .b (annAt "x")) rfl
  obtain ⟨w3, hw3, h3⟩ := h2.act (a := .handle .b) rfl
  obtain ⟨w4, hw4, h4⟩ := h3.act (a := .tick .b 1) rfl
  obtain ⟨w5, hw5, h5⟩ := h4.act (a := .edit .b ann) rfl
  obtain ⟨w6, hw6, h6⟩ := h5.act (a := .handle .b) rfl
  obtain ⟨ev, hev, hann⟩ := h2.nextOfB (n := ⟨.b, 2, 2, annAt "x"⟩) rfl
  obtain ⟨ev', hev', hann'⟩ := h5.nextOfB (n := ⟨.b, 3, 3, ann⟩) rfl
  obtain ⟨c, hc, hrec⟩ := h6.canonical
  refine ⟨fun x => by cases x <;> rfl, h, [ev.sourceVersion], w5, ev', w6, c, ?_, hev', ?_, ?_, hw6, hc, ?_, ?_⟩
  · exact .head trivial (logged_other nofun hw1) (.head trivial (logged_other nofun hw2)
      (.head trivial (logged_handle_b hw3 hev) (.head trivial (logged_other nofun hw4)
        (.head trivial (logged_other nofun hw5) .refl))))
  · intro v hv
    rw [hann'.sourceVersion]
    rcases List.mem_cons.mp hv with rfl | hv
    · decide
    · rw [List.mem_singleton.mp hv, hann.sourceVersion]
      decide
  · intro c hc f p hp
    obtain ⟨c', hc', hrec⟩ := h5.canonical
    rw [hc] at hc'
    cases hc'
    rw [hrec.fieldProvenance] at hp
    have hp' : (⟨"hubspot", 2, 2, 100⟩ : Conflict.Provenance) = p := by
      cases f <;> exact Option.some.inj hp
    rw [← hp', hann'.occurredAt]
    decide
  · exact congrFun hann'.reads .company
  · rw [hrec.fields]
    rfl

end Worker

end SyncForge.Bridge
