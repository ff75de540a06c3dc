import SyncForge.Bridge.Settling

/-!
# `Bridge.OneSided` — edits at one provider only

Users edit at provider A, the worker copies to B, and the only webhooks of B are the worker's own writes
coming back. If a second edit is handled while the first one's webhook of B is still waiting, that webhook is
taken for an edit of B, and A's newer edit is overwritten.
-/

namespace SyncForge.Bridge

open Relay (Side)
open Transition
open Deployment (inSync link linked linked_shows)

/-! ## The bridge with one leading side -/

section Abstract

theorem filter_eq_cons {α : Type} {p : α → Bool} {xs : List α} {a : α} (h : xs.find? p = some a) :
    xs.filter p = a :: (xs.eraseP p).filter p := by
  induction xs with
  | nil => cases h
  | cons b xs ih =>
    cases hb : p b with
    | true =>
      rw [List.find?_cons_of_pos hb] at h
      cases h
      rw [List.filter_cons_of_pos hb, List.eraseP_cons_of_pos hb]
    | false =>
      have hb' : ¬ p b = true := by simp [hb]
      rw [List.find?_cons_of_neg hb'] at h
      rw [List.filter_cons_of_neg hb', List.eraseP_cons_of_neg hb', List.filter_cons_of_neg hb', ih h]

theorem filter_eraseP_of_disjoint {α : Type} {p q : α → Bool} (h : ∀ a, p a = true → q a = false)
    (xs : List α) : (xs.eraseP p).filter q = xs.filter q := by
  induction xs with
  | nil => rfl
  | cons a xs ih =>
    cases ha : p a with
    | true =>
      have hq : ¬ q a = true := by simp [h a ha]
      rw [List.eraseP_cons_of_pos ha, List.filter_cons_of_neg hq]
    | false =>
      rw [List.eraseP_cons_of_neg (by simp [ha]), List.filter_cons, List.filter_cons, ih]

variable (S : Setting)

/-- Provider A leads: it owns every field, its own notes are waiting in order, and every note of B is the
    worker's last write. -/
structure Led (s : State) : Prop where
  owner : ∀ f p, s.provenance f = some p → p.source = S.name .a
  unwritten : s.lastWritten .a = none
  version_le : s.sourceVersion .a ≤ (s.held .a).version
  fresh : ∀ n ∈ s.pending.filter (isFrom .a),
    Valid n.values ∧ s.sourceVersion .a < n.version ∧ n.version ≤ (s.held .a).version
  ascending : (s.pending.filter (isFrom .a)).Pairwise (fun n m => n.version < m.version)
  echoes : ∀ n ∈ s.pending, n.side = .b → s.lastWritten .b = some (fingerprintOf S.hash n.values)
  latest : ((s.pending.filter (isFrom .a)).getLast?.map Note.values).getD s.canonical = (s.held .a).values
  copied : s.canonical = (s.held .b).values

/-- Users edit at A, and leave its record valid; a note of A is handled while every waiting note of B has the
    same values. -/
def State.EchoFirst (s : State) : Act → Prop
  | .edit x v => x = .a ∧ Valid v
  | .handle .a => ∀ n, s.pending.find? (isFrom .a) = some n → ∀ m ∈ s.pending, m.side = .b →
      m.values = n.values
  | _ => True

variable {S} {s s' : State}

theorem Led.edit (h : Led S s) {v : Values} (hv : Valid v) : Led S (s.write .a v) := by
  have hfilter : (s.write .a v).pending.filter (isFrom .a)
      = s.pending.filter (isFrom .a) ++ [⟨.a, (s.held .a).version + 1, s.clock .a, v⟩] := by
    show (s.pending ++ [_]).filter _ = _
    rw [List.filter_append]
    rfl
  have hheld := s.held_write_self .a v
  refine ⟨h.owner, h.unwritten, ?_, ?_, ?_, ?_, ?_, ?_⟩
  · rw [hheld]
    exact le_trans h.version_le (by show _ ≤ (s.held .a).version + 1; omega)
  · rw [hfilter, hheld]
    intro n hn
    rcases List.mem_append.mp hn with hn | hn
    · obtain ⟨h1, h2, h3⟩ := h.fresh n hn
      exact ⟨h1, h2, by show n.version ≤ (s.held .a).version + 1; omega⟩
    · rw [List.mem_singleton.mp hn]
      exact ⟨hv, Int.lt_add_one_of_le h.version_le, le_rfl⟩
  · rw [hfilter, List.pairwise_append]
    refine ⟨h.ascending, List.pairwise_singleton _ _, ?_⟩
    intro n hn m hm
    rw [List.mem_singleton.mp hm]
    exact Int.lt_add_one_of_le (h.fresh n hn).2.2
  · intro n hn hside
    rcases List.mem_append.mp hn with hn | hn
    · exact h.echoes n hn hside
    · rw [List.mem_singleton.mp hn] at hside
      cases hside
  · rw [hfilter, hheld, List.getLast?_append]
    rfl
  · rw [s.held_write_ne v (by decide)]
    exact h.copied

theorem Led.handle_b (h : Led S s) {n : Note} (hn : s.pending.find? (isFrom .b) = some n) :
    ({ s with pending := s.pending.eraseP (isFrom .b) } : State).handle S n
        = { s with pending := s.pending.eraseP (isFrom .b) } ∧
      Led S { s with pending := s.pending.eraseP (isFrom .b) } := by
  have hside : n.side = .b := side_of_find? hn
  have hecho := h.echoes n (List.mem_of_find?_eq_some hn) hside
  have hfilter : (s.pending.eraseP (isFrom .b)).filter (isFrom .a) = s.pending.filter (isFrom .a) := by
    apply filter_eraseP_of_disjoint
    intro m hm
    have hm' : m.side = .b := isFrom_iff.mp hm
    rw [isFrom, hm']
    rfl
  constructor
  · rw [State.handle, if_pos]
    right; right
    rwa [hside]
  · refine ⟨h.owner, h.unwritten, h.version_le, ?_, ?_, ?_, ?_, h.copied⟩
    · rw [hfilter]
      exact h.fresh
    · rw [hfilter]
      exact h.ascending
    · intro m hm hb
      exact h.echoes m (List.mem_of_mem_eraseP hm) hb
    · rw [hfilter]
      exact h.latest

theorem Led.handle_a (h : Led S s) {n : Note} (hn : s.pending.find? (isFrom .a) = some n)
    (hfirst : ∀ m ∈ s.pending, m.side = .b → m.values = n.values) :
    (({ s with pending := s.pending.eraseP (isFrom .a) } : State).handle S n).writes = s.writes ++ [.b] ∧
      Led S (({ s with pending := s.pending.eraseP (isFrom .a) } : State).handle S n) := by
  have hside : n.side = .a := side_of_find? hn
  have hsplit := filter_eq_cons hn
  obtain ⟨hvalid, hnew, hle⟩ := h.fresh n (by rw [hsplit]; simp)
  let s1 : State := { s with pending := s.pending.eraseP (isFrom .a) }
  have htaken : s1.handle S n = s1.taken S .a n := by
    refine State.handle_eq_taken hside hvalid hnew ?_ (fun f p hp => .inl (h.owner f p hp))
    have hnone : s1.lastWritten .a = none := h.unwritten
    rw [hnone]
    nofun
  show (s1.handle S n).writes = _ ∧ Led S (s1.handle S n)
  rw [htaken]
  have hpending : (s1.taken S .a n).pending
      = s.pending.eraseP (isFrom .a) ++ [⟨.b, (s.held .b).version + 1, s.clock .b, n.values⟩] := rfl
  have hfilter : (s1.taken S .a n).pending.filter (isFrom .a) = (s.pending.eraseP (isFrom .a)).filter
    (isFrom .a) := by
    rw [hpending, List.filter_append]
    exact List.append_nil _
  have hversion : (s1.taken S .a n).sourceVersion .a = n.version := by
    show Function.update s.sourceVersion .a n.version .a = _
    rw [Function.update_self]
  have hlast_b : (s1.taken S .a n).lastWritten .b = some (fingerprintOf S.hash n.values) := by
    show Function.update s.lastWritten .b (some (fingerprintOf S.hash n.values)) .b = _
    rw [Function.update_self]
  have hheld_a : (s1.taken S .a n).held .a = s.held .a := by
    show (s1.write .b n.values).held .a = _
    rw [s1.held_write_ne _ (by decide)]
  have hasc := h.ascending
  rw [hsplit, List.pairwise_cons] at hasc
  refine ⟨rfl, ?_, ?_, ?_, ?_, ?_, ?_, ?_, ?_⟩
  · intro f p hp
    rw [← Option.some.inj hp, Note.provenance, hside]
  · show Function.update s.lastWritten .b (some (fingerprintOf S.hash n.values)) .a = none
    rw [Function.update_of_ne (by decide)]
    exact h.unwritten
  · rwa [hversion, hheld_a]
  · -- the notes of A that are left are newer than the one handled
    rw [hfilter, hversion, hheld_a]
    intro m hm
    obtain ⟨h1, _, h3⟩ := h.fresh m (by rw [hsplit]; exact .tail _ hm)
    exact ⟨h1, hasc.1 m hm, h3⟩
  · rw [hfilter]
    exact hasc.2
  · intro m hm hb
    rw [hlast_b]
    rw [hpending] at hm
    rcases List.mem_append.mp hm with hm | hm
    · rw [hfirst m (List.mem_of_mem_eraseP hm) hb]
    · rw [List.mem_singleton.mp hm]
  · -- the note handled was A's last one, or the last one is still waiting
    rw [hfilter, hheld_a, ← h.latest, hsplit, List.getLast?_cons]
    show (Option.map _ _).getD n.values = _
    cases ((s.pending.eraseP (isFrom .a)).filter (isFrom .a)).getLast? with
    | none => rfl
    | some m => rfl
  · exact congrArg Held.values (s1.held_write_self .b n.values).symm

/-- **A leads for good**, and is never written. -/
theorem led_run {as : List Act} (hrun : Run (step S) State.EchoFirst s as s') (h : Led S s) :
    Led S s' ∧ s'.writes.count .a = s.writes.count .a := by
  refine hrun.invariant (P := fun _ t => Led S t ∧ t.writes.count .a = s.writes.count .a) ⟨h, rfl⟩ ?_
  rintro as t a u ⟨ht, hw⟩ hok hstep
  cases a with
  | edit x v =>
    obtain ⟨rfl, hv⟩ := hok
    cases hstep
    exact ⟨ht.edit hv, hw⟩
  | handle x =>
    obtain ⟨n, hn, rfl⟩ := Option.map_eq_some_iff.mp hstep
    cases x with
    | a =>
      obtain ⟨hwrites, hled⟩ := ht.handle_a hn (hok n hn)
      refine ⟨hled, ?_⟩
      rwa [hwrites, List.count_append]
    | b =>
      obtain ⟨hsame, hled⟩ := ht.handle_b hn
      rw [hsame]
      exact ⟨hled, hw⟩
  | tick x d =>
    cases hstep
    exact ⟨⟨ht.owner, ht.unwritten, ht.version_le, ht.fresh, ht.ascending, ht.echoes, ht.latest,
      ht.copied⟩, hw⟩

end Abstract

/-! ## The worker with one leading provider -/

section Worker

variable {env : Env} {L : Link env} {w w' : World} {s s' : State}

/-- The canonical fields and both providers' records have the values `v`. -/
structure InSync (L : Link env) (w : World) (v : Values) : Prop where
  canonical : ∃ c, w.db.canonical.get? L.key = some c ∧ c.fields = fun f => some (.str (v f))
  records : ∀ x, ∃ r, (w.sims (L.endpoint x)).records.get? (L.recordID x) = some r ∧
    ∀ f, Adapter.s (r.data.get ((L.adapter x).native f)) = v f

theorem Shows.inSync (h : Shows L w s) (hheld : ∀ x, (s.held x).values = s.canonical) :
    InSync L w s.canonical := by
  constructor
  · obtain ⟨c, hc, hrec⟩ := h.canonical
    exact ⟨c, hc, hrec.fields⟩
  · intro x
    obtain ⟨r, hr, _, hvalues⟩ := (h.providers x).record
    rw [hheld x] at hvalues
    exact ⟨r, hr, hvalues⟩

def Link.reads (L : Link env) (x : Side) (ev : Event) : Values :=
  fun f => Adapter.s ((ev.fields.getD ∅).get ((L.adapter x).native f))

theorem Link.Announces.reads {ev : Event} {n : Note} (h : L.Announces ev n) :
    L.reads n.side ev = n.values := by
  obtain ⟨data, hfields, _, hdata⟩ := h.fields
  funext f
  rw [Link.reads, hfields]
  exact hdata f

def EditsAtA : Deed → Prop
  | .edit x _ => x = .a
  | _ => True

def LeavesValid (L : Link env) (w : World) : Deed → Prop
  | .edit x data => ∀ r, (w.sims (L.endpoint x)).update (L.recordID x) data = some r →
    Valid (fun f => Adapter.s (r.1.data.get ((L.adapter x).native f)))
  | _ => True

def EchoFirst (L : Link env) (w : World) : Deed → Prop
  | .handle .a => ∀ ev, w.outbox.find? (sentBy (L.name .a)) = some ev →
    ∀ ev' ∈ w.outbox, ev'.source = L.name .b → L.reads .b ev' = L.reads .a ev
  | _ => True

theorem Shows.echoFirst (h : Shows L w s) {d : Deed} (ha : EditsAtA d) (hvalid : LeavesValid L w d)
    (hecho : EchoFirst L w d) (hw : Bridge.next L w d = some w') :
    ∃ a s', d.Matches a ∧ s.EchoFirst a ∧ step L.setting s a = some s' ∧ Shows L w' s' := by
  cases d with
  | edit x data =>
    obtain ⟨old, r, _, hupdate, hdata, hnext, hshows⟩ := h.edit x data
    rw [hw] at hnext
    cases hnext
    have hv := hvalid r hupdate
    rw [hdata] at hv
    exact ⟨.edit x _, _, rfl, ⟨ha, hv⟩, rfl, hshows⟩
  | handle x =>
    obtain ⟨s', hs', hshows⟩ := h.handle hw
    refine ⟨.handle x, s', rfl, ?_, hs', hshows⟩
    cases x with
    | a =>
      intro n hn m hm hside
      obtain ⟨ev, hev, _⟩ := Option.map_eq_some_iff.mp hw
      obtain ⟨n', hn', hann, _⟩ := h.take hev
      rw [hn] at hn'
      cases hn'
      obtain ⟨ev', hev', hann'⟩ := h.webhook hm
      have hsame := hecho ev hev ev' hev' (by rw [hann'.source, hside])
      have hn_side : n.side = .a := side_of_find? hn
      have hread' := hann'.reads
      have hread := hann.reads
      rw [hside] at hread'
      rw [hn_side] at hread
      rw [← hread', ← hread, hsame]
    | b => trivial
  | tick x d =>
    obtain ⟨a, s', hm, hs', hshows⟩ := h.next hw
    cases a with
    | tick y e => exact ⟨.tick y e, s', hm, trivial, hs', hshows⟩
    | edit y v => cases hm
    | handle y => cases hm

structure TakenFromA (S : Setting) (s : State) : Prop where
  pending : s.pending = []
  owner : ∀ f p, s.provenance f = some p → p.source = S.name .a
  unwritten : s.lastWritten .a = none
  version_le : s.sourceVersion .a ≤ (s.held .a).version
  held : ∀ x, (s.held x).values = s.canonical

theorem TakenFromA.led {S : Setting} (h : TakenFromA S s) : Led S s := by
  have hfilter : s.pending.filter (isFrom .a) = [] := by
    rw [h.pending]
    rfl
  refine ⟨h.owner, h.unwritten, h.version_le, ?_, ?_, ?_, ?_, (h.held .b).symm⟩
  · rw [hfilter]
    intro n hn
    cases hn
  · rw [hfilter]
    exact List.Pairwise.nil
  · rw [h.pending]
    intro n hn
    cases hn
  · rw [hfilter]
    exact (h.held .a).symm

/-- **The worker's own writes never come back.** Two providers with policies both ways, one worker, each
    provider's webhooks handled in order and the two streams interleaved in any way, edits at A only. If every
    edit leaves a valid record, and a webhook of A is handled only while the waiting webhooks of B carry the
    same fields, then the worker never writes to A, and when nothing is left to handle the canonical fields
    and B's record are those of A's record. -/
theorem never_written_back (h : Shows L w s) (hstart : TakenFromA L.setting s) {ds : List Deed}
    (hrun : Run (next L) (fun w d => EditsAtA d ∧ LeavesValid L w d ∧ EchoFirst L w d) w ds w') :
    w'.mutations.countP (fun m => m.1 = L.endpoint .a) = w.mutations.countP (fun m => m.1 = L.endpoint .a) ∧
      (w'.outbox = [] → ∃ v, InSync L w' v) := by
  have hsim : ∀ w d u t, Shows L w t → EditsAtA d ∧ LeavesValid L w d ∧ EchoFirst L w d →
    next L w d = some u →
      ∃ a v, d.Matches a ∧ t.EchoFirst a ∧ step L.setting t a = some v ∧ Shows L u v := by
    rintro w d u t ht ⟨h1, h2, h3⟩ hd
    exact ht.echoFirst h1 h2 h3 hd
  obtain ⟨as, s', _, hruns, hshows⟩ := Run.simulate hsim hrun h
  obtain ⟨hled, hcount⟩ := led_run hruns hstart.led
  have hwrites : ∀ {w : World} {s : State}, Shows L w s →
      w.mutations.countP (fun m => m.1 = L.endpoint .a) = s.writes.count .a := by
    intro w s hs
    rw [hs.mutations, List.countP_map, List.count]
    congr 1
    funext x
    cases x with
    | a => exact decide_eq_true rfl
    | b =>
      have hne : L.endpoint .b ≠ L.endpoint .a := fun he => absurd (L.endpoint_injective he) (by decide)
      exact decide_eq_false hne
  constructor
  · rw [hwrites hshows, hwrites h, hcount]
  · intro hquiet
    have hpending : s'.pending = [] := hshows.quiet.mp hquiet
    have hlatest := hled.latest
    rw [hpending] at hlatest
    refine ⟨s'.canonical, hshows.inSync (fun x => ?_)⟩
    cases x with
    | a => exact hlatest.symm
    | b => exact hled.copied.symm

theorem Shows.leavesValid (h : Shows L w s) {x : Side} {v : Values} (hv : Valid v) :
    LeavesValid L w (Act.deed L (.edit x v)) := by
  intro r hr
  obtain ⟨old, r', _, hupdate, hdata, _, _⟩ := h.edit x ((L.adapter x).denormalize (customerOf v)).data
  rw [hr] at hupdate
  cases hupdate
  have hvalues : (fun f => Adapter.s (r.1.data.get ((L.adapter x).native f))) = v := by
    rw [hdata]
    exact (writtenValues_denormalize _ _ _).trans (funext (get_customerOf v))
  rwa [hvalues]

theorem Shows.echoFirst_of (h : Shows L w s) {a : Act} (ha : s.EchoFirst a) :
    EditsAtA (a.deed L) ∧ LeavesValid L w (a.deed L) ∧ EchoFirst L w (a.deed L) := by
  cases a with
  | edit x v => exact ⟨ha.1, h.leavesValid ha.2, trivial⟩
  | tick x d => exact ⟨trivial, trivial, trivial⟩
  | handle x =>
    refine ⟨trivial, trivial, ?_⟩
    cases x with
    | b => trivial
    | a =>
      intro ev hev ev' hev' hsource
      obtain ⟨n, hn, hann, _⟩ := h.take hev
      obtain ⟨m, hm, hann'⟩ := h.note hev'
      have hside : n.side = .a := side_of_find? hn
      have hside' : m.side = .b := L.name_injective (hann'.source.symm.trans hsource)
      have hread := hann.reads
      have hread' := hann'.reads
      rw [hside] at hread
      rw [hside'] at hread'
      rw [hread, hread', ha n hn m hm hside']

theorem inSync_taken (byField : Bool) : TakenFromA (link byField).setting inSync := by
  refine ⟨rfl, fun f p hp => ?_, rfl, le_rfl, fun x => rfl⟩
  rw [← Option.some.inj hp]
  rfl

theorem never_written_back_ann : ∃ ds w', ds.length = 3 ∧
      Run (next (link false)) (fun w d => EditsAtA d ∧ LeavesValid (link false) w d ∧
        EchoFirst (link false) w d) (linked false) ds w' ∧ w'.mutations.countP (fun m => m.1 = (link false).endpoint .a)
        = (linked false).mutations.countP (fun m => m.1 = (link false).endpoint .a) ∧
      (w'.outbox = [] → ∃ v, InSync (link false) w' v) := by
  have h := linked_shows false
  have habstract : ∃ s', Run (step (link false).setting) State.EchoFirst inSync
      [.edit .a (annAt "x"), .handle .a, .handle .b] s' := by
    refine ⟨_, .head ⟨rfl, valid_annAt "x"⟩ rfl (.head ?_ rfl (.head trivial rfl .refl))⟩
    intro n hn m hm hside
    rw [List.mem_singleton.mp hm] at hside
    cases hside
  obtain ⟨s', hs'⟩ := habstract
  obtain ⟨w', hrun, _⟩ := Shows.realise (fun w d => EditsAtA d ∧ LeavesValid (link false) w d ∧
    EchoFirst (link false) w d) (fun _ _ _ hs ha => hs.echoFirst_of ha) h hs'
  exact ⟨_, w', rfl, hrun, never_written_back h (inSync_taken false) hrun⟩

def twoEdits : List Act :=
  [.tick .b 5, .edit .a (annAt "x"), .edit .a (annAt "y"), .handle .a, .handle .a, .handle .b, .handle .b,
    .handle .a]

def EditsValid : Act → Prop
  | .edit x v => x = .a ∧ Valid v
  | _ => True

/-- **The worker's own write comes back**: with two edits handled before the first one's echo, the worker
    writes to Salesforce, and when nothing is left to handle the canonical company and Salesforce's are "x",
    HubSpot's is "y". -/
theorem edit_overwritten_by_echo : (∀ x, ((link false).policy x).conflictStrategy = .lastWriteWins) ∧
    Shows (link false) (linked false) inSync ∧ TakenFromA (link false).setting inSync ∧
    ∃ w', Run (next (link false)) (fun w d => EditsAtA d ∧ LeavesValid (link false) w d)
        (linked false) (twoEdits.map (Act.deed (link false))) w' ∧
      ((link false).endpoint .a, .update) ∈ w'.mutations ∧ w'.outbox = [] ∧
      ∃ s', Shows (link false) w' s' ∧ s'.canonical = annAt "x" ∧ (s'.held .a).values = annAt "x" ∧
        (s'.held .b).values = annAt "y" := by
  have h := linked_shows false
  refine ⟨fun x => by cases x <;> rfl, h, inSync_taken false, ?_⟩
  have habstract : ∃ s', Run (step (link false).setting)
      (fun _ => EditsValid) inSync twoEdits s' ∧
      s'.pending = [] ∧ .a ∈ s'.writes ∧ s'.canonical = annAt "x" ∧ (s'.held .a).values = annAt "x" ∧
      (s'.held .b).values = annAt "y" := by
    refine ⟨_, .head trivial rfl (.head ⟨rfl, valid_annAt "x"⟩ rfl
      (.head ⟨rfl, valid_annAt "y"⟩ rfl (.head trivial rfl
      (.head trivial rfl (.head trivial rfl (.head trivial rfl (.head trivial rfl .refl))))))), rfl, ?_, ?_, ?_, ?_⟩
    · decide
    all_goals funext f; cases f <;> rfl
  obtain ⟨s', hs', hpending, hwrites, hvalues⟩ := habstract
  obtain ⟨w', hrun, hshows⟩ := Shows.realise (fun w d => EditsAtA d ∧ LeavesValid (link false) w d)
    (fun w s a hs ha => by
      cases a with
      | edit x v => exact ⟨ha.1, hs.leavesValid ha.2⟩
      | handle x => exact ⟨trivial, trivial⟩
      | tick x d => exact ⟨trivial, trivial⟩) h hs'
  refine ⟨w', hrun, ?_, hshows.quiet.mpr hpending, s', hshows, hvalues⟩
  rw [hshows.mutations]
  exact List.mem_map.mpr ⟨.a, hwrites, rfl⟩

end Worker

end SyncForge.Bridge
